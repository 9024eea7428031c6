import AdbBridge.Graph.Actions

/-!
# Calm actions

Most of what the server does is of no consequence for its connections: no transport
changes its state, nothing is sent on a stream, and whatever is bound to a transport is
bound to one that was in use before. `Calm` says so of a single action, and `calm` is the
machine of the actions that are. The functions that move clients and listeners about are
runs of it; those that take a transport on- or offline, accept or acknowledge a stream
or send on one are not, and are looked at one by one where they matter.
-/

namespace AdbBridge

open SockTable Option

/-! ### What calm means -/

/-- A transport that a client may select, or that is in use already. -/
def World.Live (w : World) (t : TransportId) : Prop :=
  inactiveMessage w.cfg (w.transport t).connectionState = none ∨
    (∃ l ∈ w.net.listenerList, l.transport = some t) ∨
      ∃ a ∈ w.sk.localSocketList, boundTo w.sk t a = true

/-- The allowance of a stream that is being opened. -/
def World.initialAllowance (w : World) (t : TransportId) : Option ℤ :=
  if (w.transport t).supportsDelayedAck then some 0 else none

/-- Two versions of a transport between which its connection has not changed. -/
structure Atransport.SameConn (x y : Atransport) : Prop where
  state : y.connectionState = x.connectionState
  online : y.online = x.online
  delayedAck : y.delayedAck = x.delayedAck
  maxPayload : y.maxPayload = x.maxPayload
  removalQueued : y.removalQueued = x.removalQueued
  /-- Only a transport that has been detached is started again. -/
  conn : y.conn = x.conn ∨ y.conn = .running ∧ x.connectionState = .kCsDetached

/-- The new tables have the same connections as the old ones, and every listener and
every callback that is new belongs to a transport in use. -/
structure World.Quiet (w : World) (n : Net) : Prop where
  conn : ∀ t, (w.transport t).SameConn (n.transports t)
  disconnects : ∀ t, (n.transports t).disconnects ≠ [] →
    (w.transport t).disconnects ≠ [] ∨ w.Live t
  listeners : ∀ l ∈ n.listenerList, ∀ t, l.transport = some t →
    (l.id ∈ (n.transports t).disconnects ∧ w.Live t) ∨
      ((∃ l' ∈ w.net.listenerList, l'.id = l.id ∧ l'.transport = some t) ∧
        (l.id ∈ (w.transport t).disconnects → l.id ∈ (n.transports t).disconnects))

/-- A socket that is not joined to a local one. -/
def World.Apart (w : World) (a : Addr) : Prop :=
  ∀ s p q, w.sk.heap a = some s → s.peer = some p → w.sk.heap p = some q → q.kind ≠ .localSocket

/-- The actions that leave the connections and the streams alone, and the interest in
reading of two local sockets that are joined. -/
def Calm (w : World) : Action → Prop
  | .onNet f => w.Quiet (f w.net)
  | .close a => ∀ s, w.sk.heap a = some s → s.closing = false
  | .hand a _ => ∀ s, w.sk.heap a = some s → s.transport = none
  | .wake a => w.Apart a ∧ ∀ s, w.sk.heap a = some s → s.transport = none
  | .makeLocal none n => n = none
  | .makeLocal (some t) n => w.Live t ∧ n = w.initialAllowance t
  | .bindTo c t n => w.Live t ∧ ∀ s, w.sk.heap c = some s →
      n = (w.initialAllowance t).or s.availableSendBytes
  | .switch _ t => ∀ u, t = some u → w.Live u
  | .transmit _ _ _ | .pause _ | .grant _ _ | .join _ _ _ => False
  | .log _ | .tick | .raise _ | .flush _ | .push _ _ | .makeSmart _ | .makeTracker _ _ |
    .pair _ _ | .drop _ _ | .scratch _ _ _ => True

/-- The machine of the calm actions. -/
def calm : Machine World Action := actions.restrict Calm

variable {w w' : World} {a c : Addr} {s : Asocket} {t : TransportId} {f : Fault} {u : TransportId}
  {n : Net} {k : SockTable} {b : Addr}

theorem good_of_calm (hsteps : calm.Steps w w') (h : Good w) : Good w' :=
  good_of_steps hsteps.of_restrict h

/-! ### Single steps -/

theorem calm_log {es : List Ev} (h : ∀ e ∈ es, e.quiet = true) : calm.Steps w (w.log es) :=
  .single (i := Action.log es) ⟨h, trivial⟩

theorem calm_reply (r : Reply) : calm.Steps w (w.reply a r) := calm_log (by simp [Ev.quiet])

theorem calm_sendPacket {p : Apacket} (hp : p.command ≠ .aWrte) :
    calm.Steps w (w.sendPacket t p) := calm_log (by simp [Ev.quiet, hp])

theorem calm_tick : calm.Steps w w.tick := .single (i := Action.tick) ⟨trivial, trivial⟩

theorem calm_raise (hf : f.deliberate = true) : calm.Steps w (w.raise f) :=
  .single (i := Action.raise f) ⟨hf, trivial⟩

theorem calm_check (b : Bool) (hf : f.deliberate = true) : calm.Steps w (w.check b f) := by
  unfold World.check
  split
  · exact .refl
  · exact calm_raise hf

theorem calm_onNet {f : Net → Net} (hok : (f w.net).ListenersOk) (hq : w.Quiet (f w.net)) :
    calm.Steps w (w.onNet f) := .single (i := Action.onNet f) ⟨hok, hq⟩

theorem calm_push (hs : w.sk.heap a = some s) (hkind : s.kind = .localSocket)
    (hc : s.closing = false) (data : Bytes) : calm.Steps w (localSocketEnqueue w a data).1 :=
  .single (i := Action.push a data) ⟨⟨s, hs, hkind, hc⟩, trivial⟩

theorem calm_close (hs : w.sk.heap a = some s) (hc : s.closing = false) :
    calm.Steps w (close w a) :=
  .single (i := Action.close a)
    ⟨⟨s, hs⟩, fun _ hr => some.inj (hs.symm.trans hr) ▸ hc⟩

/-! ### Tables with the same connections -/

namespace Atransport.SameConn

variable {x y z : Atransport}

theorem refl (x : Atransport) : x.SameConn x := ⟨rfl, rfl, rfl, rfl, rfl, Or.inl rfl⟩

theorem trans (h : x.SameConn y) (h' : y.SameConn z) : x.SameConn z where
  state := h'.state.trans h.state
  online := h'.online.trans h.online
  delayedAck := h'.delayedAck.trans h.delayedAck
  maxPayload := h'.maxPayload.trans h.maxPayload
  removalQueued := h'.removalQueued.trans h.removalQueued
  conn := by
    rcases h'.conn with hc | ⟨hc, hd⟩
    · rw [hc]
      exact h.conn
    · exact Or.inr ⟨hc, h.state ▸ hd⟩

end Atransport.SameConn

theorem Net.updTransport_self (n : Net) (f : Atransport → Atransport) :
    (n.updTransport t f).transports t = f (n.transports t) := Function.update_self _ _ _

theorem Net.updTransport_of_ne (n : Net) (h : u ≠ t)
    (f : Atransport → Atransport) : (n.updTransport t f).transports u = n.transports u :=
  Function.update_of_ne h _ _

theorem World.transport_updTransport_self (f : Atransport → Atransport) :
    (w.updTransport t f).transport t = f (w.transport t) := w.net.updTransport_self f

theorem World.transport_updTransport_of_ne (h : u ≠ t)
    (f : Atransport → Atransport) : (w.updTransport t f).transport u = w.transport u :=
  w.net.updTransport_of_ne h f

/-- A property of every transport after one of them has been written to. -/
theorem Net.forall_updTransport {f : Atransport → Atransport}
    {P : TransportId → Atransport → Prop} (hP : ∀ u, P u (n.transports u))
    (hf : P t (f (n.transports t))) (u : TransportId) :
    P u ((n.updTransport t f).transports u) := by
  by_cases hu : u = t
  · subst hu
    rwa [n.updTransport_self]
  · rw [n.updTransport_of_ne hu]
    exact hP u

/-- Nothing of consequence has changed. -/
theorem World.Quiet.of_same (hconn : ∀ u, (w.transport u).SameConn (n.transports u))
    (hdisc : ∀ u, (n.transports u).disconnects = (w.transport u).disconnects)
    (hl : n.listenerList ⊆ w.net.listenerList) : w.Quiet n where
  conn := hconn
  disconnects u hu := Or.inl (hdisc u ▸ hu)
  listeners l hmem u hu := Or.inr ⟨⟨l, hl hmem, rfl, hu⟩, fun h => hdisc u ▸ h⟩

/-- A write to a transport that leaves its connection and its callbacks alone. -/
theorem calm_updTransport (h : Good w) {f : Atransport → Atransport}
    (hf : (w.transport t).SameConn (f (w.transport t)))
    (hd : (f (w.transport t)).disconnects = (w.transport t).disconnects) :
    calm.Steps w (w.updTransport t f) := by
  refine calm_onNet h.listeners (.of_same ?_ ?_ (List.Subset.refl _))
  · exact Net.forall_updTransport (fun u => .refl _) hf
  · exact Net.forall_updTransport
      (P := fun u x => x.disconnects = (w.transport u).disconnects) (fun _ => rfl) hd

/-! ### Device trackers -/

/-- The peer of a tracker is a local socket in use. -/
theorem Good.tracker_peer (h : Good w) (hs : w.sk.heap a = some s) (hkind : s.kind ≠ .localSocket) :
    ∃ c q, s.peer = some c ∧ w.sk.heap c = some q ∧ q.peer = some a ∧ q.kind = .localSocket ∧
      q.closing = false := by
  obtain ⟨c, hc⟩ := ne_none_iff_exists'.mp (h.attached a s hs hkind)
  obtain ⟨-, q, hq, hqa⟩ := h.graph.exists_peer hs hc
  exact ⟨c, q, hc, hq, hqa, h.graph.mixed a s c q hs hc hq hkind, h.open_of_peer hq hqa⟩

theorem deviceTrackerSend_eq (hs : w.sk.heap a = some s) {q : Asocket}
    (hc : s.peer = some c) (hq : w.sk.heap c = some q) (hkind : q.kind = .localSocket)
    (text : Bytes) : deviceTrackerSend w a text =
      (localSocketEnqueue w c (hexLength text.length ++ text)).1 := by
  rw [deviceTrackerSend, World.deref_of_some hs]
  simp only [hc, enqueueData, hq, hkind]

/-- Sending to a tracker's peer. -/
theorem calm_deviceTrackerSend (h : Good w) (hs : w.sk.heap a = some s)
    (hkind : s.kind ≠ .localSocket) (text : Bytes) : calm.Steps w (deviceTrackerSend w a text) := by
  obtain ⟨c, q, hc, hq, -, hqk, hqc⟩ := h.tracker_peer hs hkind
  rw [deviceTrackerSend_eq hs hc hq hqk]
  exact calm_push hq hqk hqc _

/-- The transports of the sockets. -/
def SockTable.transportOf (k : SockTable) (b : Addr) : Option TransportId :=
  (k.heap b).bind (·.transport)

theorem SockTable.transportOf_of_some (h : k.heap a = some s) : k.transportOf a = s.transport := by
  simp [transportOf, h]

/-- The peer of the socket is a tracker. -/
def SockTable.Tracked (k : SockTable) (b : Addr) : Prop :=
  ∃ p, k.peerOf b = some p ∧ k.At p Asocket.IsTracker

/-- What a round of `update_transports` can do: the peers of trackers are written to,
and nothing else changes. -/
structure Updated (w w' : World) : Prop where
  net : w'.net = w.net
  cfg : w'.cfg = w.cfg
  fault : w'.fault = w.fault
  roles : w.sk.SameRoles w'.sk
  peerOf : w'.sk.peerOf = w.sk.peerOf
  transportOf : w'.sk.transportOf = w.sk.transportOf
  frame : ∀ b, ¬w.sk.Tracked b → w'.sk.heap b = w.sk.heap b

namespace Updated

theorem refl (w : World) : Updated w w :=
  ⟨rfl, rfl, rfl, ⟨fun _ => rfl, rfl, rfl, rfl, rfl, rfl⟩, rfl, rfl, fun _ _ => rfl⟩

theorem tracked_iff (h : Updated w w') {b : Addr} : w'.sk.Tracked b ↔ w.sk.Tracked b := by
  unfold SockTable.Tracked
  simp only [h.peerOf, h.roles.isTracker_iff]

theorem trans {w'' : World} (h : Updated w w') (h' : Updated w' w'') : Updated w w'' where
  net := h'.net.trans h.net
  cfg := h'.cfg.trans h.cfg
  fault := h'.fault.trans h.fault
  roles := h.roles.trans h'.roles
  peerOf := h'.peerOf.trans h.peerOf
  transportOf := h'.transportOf.trans h.transportOf
  frame b hb := (h'.frame b fun hb' => hb (h.tracked_iff.mp hb')).trans (h.frame b hb)

end Updated

/-- Sending to a tracker writes to its peer, and to nothing else. -/
theorem updated_deviceTrackerSend (h : Good w) (ha : w.sk.At a Asocket.IsTracker)
    (text : Bytes) : Updated w (deviceTrackerSend w a text) := by
  obtain ⟨s, hs, hkind⟩ := ha
  obtain ⟨c, q, hc, hq, hqa, hqk, hqc⟩ := h.tracker_peer hs (by rw [hkind]; simp)
  rw [deviceTrackerSend_eq hs hc hq hqk, localSocketEnqueue_eq hq (h.peer_isSome hq) hqc]
  have hlinks := sameLinks_enqueued (w := w) (s := q) (hexLength text.length ++ text)
  refine ⟨by simp, by simp, by simp, ?_, ?_, ?_, ?_⟩
  · simp only [World.upd_sk, flushLog_sk]
    refine .upd fun r hr => ?_
    obtain rfl : q = r := some.inj (hq.symm.trans hr)
    exact hlinks.role
  · simp only [World.upd_sk, flushLog_sk]
    funext b
    by_cases hb : b = c
    · subst hb
      rw [peerOf_upd_self hq, hlinks.peer, peerOf_of_some hq]
    · rw [peerOf_upd_of_ne hb]
  · simp only [World.upd_sk, flushLog_sk]
    funext b
    unfold SockTable.transportOf
    by_cases hb : b = c
    · subst hb
      rw [upd_heap_self hq, hq, bind_some, bind_some, hlinks.transport]
    · rw [upd_heap_of_ne hb]
  · intro b hb
    simp only [World.upd_sk, flushLog_sk]
    refine upd_heap_of_ne ?_ _
    rintro rfl
    exact hb ⟨a, (peerOf_of_some hq).trans hqa, s, hs, hkind⟩

/-- The loop of `update_transports`, over any trackers. -/
theorem updateTracker_foldl (h : Good w) {l : List Addr}
    (hl : ∀ a ∈ l, w.sk.At a Asocket.IsTracker) :
    calm.Steps w (l.foldl updateTracker w) ∧ Updated w (l.foldl updateTracker w) := by
  induction l generalizing w with
  | nil => exact ⟨.refl, .refl w⟩
  | cons a l ih =>
    obtain ⟨s, hs, hkind⟩ := hl a (by simp)
    have hround : updateTracker w a = deviceTrackerSend w a (listTransports w s.outputType) := by
      rw [updateTracker, World.deref_of_some hs]
    have hsteps : calm.Steps w (updateTracker w a) :=
      hround ▸ calm_deviceTrackerSend h hs (by rw [hkind]; simp) _
    have hupd : Updated w (updateTracker w a) :=
      hround ▸ updated_deviceTrackerSend h ⟨s, hs, hkind⟩ _
    obtain ⟨hsteps', hupd'⟩ := ih (good_of_calm hsteps h) fun b hb =>
      hupd.roles.isTracker_iff.mpr (hl b (by simp [hb]))
    exact ⟨hsteps.trans hsteps', hupd.trans hupd'⟩

/-- **`update_transports` is calm.** -/
theorem calm_updateTransports (h : Good w) : calm.Steps w (updateTransports w) :=
  (updateTracker_foldl h fun _ => (h.graph.trackers.mem_iff _).mp).1

theorem updated_updateTransports (h : Good w) : Updated w (updateTransports w) :=
  (updateTracker_foldl h fun _ => (h.graph.trackers.mem_iff _).mp).2

/-! ### Closing every socket of a transport -/

theorem closeAllSockets_find (h : Good w) (hfind : w.sk.localSocketList.find? (boundTo w.sk t) =
    some a) : ∃ s, w.sk.heap a = some s ∧ s.kind = .localSocket ∧ s.closing = false ∧
      boundTo w.sk t a = true := by
  have hbound := List.find?_some hfind
  obtain ⟨s, hs, hkind, hc⟩ := (h.graph.list.mem_iff a).mp (List.mem_of_find?_eq_some hfind)
  exact ⟨s, hs, hkind, hc, hbound⟩

/-- The loop of `close_all_sockets` is calm. -/
theorem calm_closeAllSocketsLoop (h : Good w) (n : ℕ) :
    calm.Steps w (closeAllSocketsLoop t n w) := by
  induction n generalizing w with
  | zero => exact .refl
  | succ n ih =>
    rw [closeAllSocketsLoop]
    split
    · exact .refl
    · rename_i a hfind
      obtain ⟨s, hs, -, hc, -⟩ := closeAllSockets_find h hfind
      have hstep := calm_close hs hc
      exact hstep.trans (ih (good_of_calm hstep h))

theorem calm_closeAllSockets (h : Good w) : calm.Steps w (closeAllSockets w t) :=
  calm_closeAllSocketsLoop h _

/-- A socket is bound to the transports of the two ends of its link. -/
theorem boundTo_iff : boundTo k t a = true ↔
    k.transportOf a = some t ∨ ∃ p, k.peerOf a = some p ∧ k.transportOf p = some t := by
  unfold boundTo SockTable.transportOf SockTable.peerOf peerTransport
  cases hs : k.heap a with
  | none => simp
  | some s => cases hp : s.peer <;> simp [hp]

theorem Updated.boundTo (h : Updated w w') : boundTo w'.sk t a = boundTo w.sk t a := by
  rw [Bool.eq_iff_iff, boundTo_iff, boundTo_iff, h.peerOf, h.transportOf]

theorem boundTo_eq_of_some (hs : k.heap a = some s) : boundTo k t a =
    (s.transport == some t || peerTransport k s == some t) := by
  rw [boundTo, hs, any_some]

/-- The two ends of a link are bound to the same transports. -/
theorem SockTable.Graph.boundTo_peer (h : k.Graph) {p : Addr}
    (hp : k.peerOf a = some p) : boundTo k t a = boundTo k t p := by
  obtain ⟨s, hs, hsp⟩ := bind_eq_some_iff.mp hp
  obtain ⟨-, q, hq, hqa⟩ := h.exists_peer hs hsp
  rw [boundTo_eq_of_some hs, boundTo_eq_of_some hq, Bool.or_comm]
  simp [peerTransport, hsp, hqa, hs, hq]

theorem boundTo_congr {k' : SockTable} (ha : k'.heap a = k.heap a)
    (hp : ∀ p, k.peerOf a = some p → k'.heap p = k.heap p) : boundTo k' t a = boundTo k t a := by
  unfold boundTo
  rw [ha]
  cases hs : k.heap a with
  | none => rfl
  | some s =>
    have hbind : s.peer.bind k'.heap = s.peer.bind k.heap := by
      cases hpeer : s.peer with
      | none => rfl
      | some p => exact hp p ((peerOf_of_some hs).trans hpeer)
    simp only [any_some, peerTransport, hbind]

/-- Closing a socket of a transport leaves alone what is not bound to it. -/
theorem close_heap_of_unbound (h : Good w) (hs : w.sk.heap a = some s)
    (ha : boundTo w.sk t a = true) (hb : boundTo w.sk t b = false) :
    (close w a).sk.heap b = w.sk.heap b := by
  rw [close_eq h.graph hs]
  refine close_heap_of_ne ?_ fun hp => ?_
  · rintro rfl
    exact absurd (ha.symm.trans hb) (by simp)
  · exact absurd (ha.symm.trans ((h.graph.boundTo_peer hp).trans hb)) (by simp)

/-- A socket that is not bound to the transport is still the same when the loop is done. -/
theorem closeAllSocketsLoop_heap (h : Good w) (hb : boundTo w.sk t b = false) (n : ℕ) :
    (closeAllSocketsLoop t n w).sk.heap b = w.sk.heap b := by
  induction n generalizing w with
  | zero => rfl
  | succ n ih =>
    rw [closeAllSocketsLoop]
    split
    · rfl
    · rename_i a hfind
      obtain ⟨s, hs, -, hc, hbound⟩ := closeAllSockets_find h hfind
      have hheap := close_heap_of_unbound h hs hbound hb
      have hunbound : boundTo (close w a).sk t b = false := by
        refine (boundTo_congr hheap fun p hp => ?_).trans hb
        exact close_heap_of_unbound h hs hbound ((h.graph.boundTo_peer hp).symm.trans hb)
      exact (ih (good_of_calm (calm_close hs hc) h) hunbound).trans hheap

/-- Closing sockets is nothing to the transports. -/
theorem closeAllSocketsLoop_net (h : Good w) (n : ℕ) :
    (closeAllSocketsLoop t n w).net = w.net ∧ (closeAllSocketsLoop t n w).cfg = w.cfg := by
  induction n generalizing w with
  | zero => exact ⟨rfl, rfl⟩
  | succ n ih =>
    rw [closeAllSocketsLoop]
    split
    · exact ⟨rfl, rfl⟩
    · rename_i a hfind
      obtain ⟨s, hs, -⟩ := closeAllSockets_find h hfind
      obtain ⟨hnet, hcfg⟩ := ih (good_close h hs)
      rw [hnet, hcfg, close_eq h.graph hs]
      exact ⟨rfl, rfl⟩

theorem closeAllSockets_net (h : Good w) : (closeAllSockets w t).net = w.net :=
  (closeAllSocketsLoop_net h _).1

end AdbBridge
