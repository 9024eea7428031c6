import AdbBridge.Graph.Clients

/-!
# Smart sockets, as moves

A smart socket hands its client on: to another socket of the host, or to a stream on a
transport. The source links the client's socket anew first and closes the smart socket
afterwards; the lemmas below turn this round, so that the client's socket is alone for a
moment and every step starts and ends in a world in order.
-/

namespace AdbBridge

open SockTable Option Function

variable {w w' : World} {a c d : Addr} {s q : Asocket} {t : TransportId}

/-! ### Turning the order round -/

namespace SockTable

variable {k : SockTable}

theorem upd_free_comm (hac : a ≠ c) (f : Asocket → Asocket) :
    (k.upd c f).free a = (k.free a).upd c f := by
  unfold upd free
  simp only [update_of_ne hac.symm]
  rw [update_comm hac]

theorem free_alloc (ha : a ≠ k.brk) (r : Asocket) : (k.free a).alloc r = (k.alloc r).free a := by
  unfold free alloc
  simp only
  rw [update_comm ha]

/-- The client's socket may be parted from the smart one before it is written to. -/
theorem upd_then_free (hac : a ≠ c) {f : Asocket → Asocket}
    (hf : ∀ s : Asocket, f { s with peer := none } = f s) :
    ((k.upd c f).upd a ({ · with peer := none })).free a = ((k.unlink a c).free a).upd c f := by
  rw [free_upd, upd_free_comm hac, unlink, free_upd, upd_free_comm hac, upd_upd]
  exact congrArg (upd _ c) (funext fun s => (hf s).symm)

/-- The same where another socket is written to as well. -/
theorem upd_upd_then_free (hac : a ≠ c) (had : a ≠ d) {f g : Asocket → Asocket}
    (hf : ∀ s : Asocket, f { s with peer := none } = f s) :
    (((k.upd c f).upd d g).upd a ({ · with peer := none })).free a =
      (((k.unlink a c).free a).upd c f).upd d g := by
  rw [free_upd, upd_free_comm had, ← upd_then_free hac hf, free_upd]

theorem unlink_free_alloc (ha : a ≠ k.brk) (hc : c ≠ k.brk) (r : Asocket) :
    ((k.unlink a c).free a).alloc r = ((k.alloc r).unlink a c).free a := by
  rw [free_alloc (k := k.unlink a c) ha]
  unfold unlink
  rw [alloc_upd (k := k.upd c _) ha, alloc_upd hc]

end SockTable

/-- Closing a smart socket that has lost its peer. -/
theorem close_smart_alone (hs : w.sk.heap a = some s) (hkind : s.kind = .smartSocket)
    (hp : s.peer = none) : close w a = w.onSk (·.free a) := by
  rw [close, closeWith_eq_of_alone _ hs (by simp [hkind]) hp]
  simp only [noticeEvents, farewellEvents, hkind, World.onSk, World.log_sk]
  simp [retire_of_plain hs (by simp [hkind]) (by simp [hkind])]

/-- Taking a smart socket away from its client. -/
theorem run_drop (hs : w.sk.heap a = some s) (hkind : s.kind = .smartSocket) :
    Action.run w (.drop a c) = w.onSk fun k => (k.unlink a c).free a := by
  have hs' : (w.sk.unlink a c).heap a = some { s with peer := none } := by
    unfold SockTable.unlink
    by_cases hac : a = c
    · subst hac
      rw [upd_heap_self (upd_heap_self hs _)]
    · rw [upd_heap_self ((upd_heap_of_ne hac _).trans hs)]
  simp only [Action.run, World.onSk,
    retire_of_plain hs' (by simp [hkind]) (by simp [hkind])]

theorem calm_drop (hac : Client w a c) : calm.Steps w (Action.run w (.drop a c)) := by
  obtain ⟨s, hs, hkind, hsc⟩ := hac
  exact .single (M := calm) (i := .drop a c) ⟨⟨(peerOf_of_some hs).trans hsc, s, hs, hkind⟩,
    trivial⟩

theorem run_drop_heap (hs : w.sk.heap a = some s) (hkind : s.kind = .smartSocket) (hac : a ≠ c)
    (hq : w.sk.heap c = some q) :
    (Action.run w (.drop a c)).sk.heap c = some { q with peer := none } := by
  rw [run_drop hs hkind, World.onSk_sk, free_heap_of_ne hac.symm, SockTable.unlink,
    upd_heap_of_ne hac.symm, upd_heap_self hq]

/-- A client's socket that has been parted from its smart socket is free. -/
theorem Good.free_of_drop (h : Good w) (hac : Client w a c) :
    Action.Free (Action.run w (.drop a c)) c := by
  obtain ⟨s, q, hs, hkind, hsc, hq, hqa, hqk, hqc, hqt⟩ := h.client hac
  exact ⟨_, run_drop_heap hs hkind (h.graph.exists_peer hs hsc).1 hq, hqk, hqc, rfl, hqt⟩

/-! ### Opening a stream -/

/-- `connect_to_remote`, but for the socket itself. -/
def dial (w : World) (t : TransportId) (id : ℕ) (destination : Bytes) : World :=
  let delayed := (w.transport t).supportsDelayedAck
  let w := if w.cfg.adbHost then updateReverseConfig w t destination else w
  let payload := destination ++ [0]
  (w.check (payload.length ≤ min maxPayload (w.transport t).maxPayload)
      .checkMaxPayload).sendPacket t
    { command := .aOpen, arg0 := id, arg1 := if delayed then initialDelayedAckBytes else 0,
      payload := payload }

theorem updateReverseConfig_transport (w : World) (t u : TransportId) (addr : Bytes) :
    ∃ r, (updateReverseConfig w t addr).transport u =
      { w.transport u with reverseForwards := r } := by
  unfold updateReverseConfig
  split
  · exact ⟨_, rfl⟩
  · rename_i x hx
    obtain ⟨r, -, rfl⟩ := map_eq_some_iff.mp hx
    by_cases hu : u = t
    · subst hu
      exact ⟨r, by rw [World.transport_updTransport_self]⟩
    · exact ⟨_, by rw [World.transport_updTransport_of_ne hu]⟩

theorem updateReverseConfig_sk {addr : Bytes} : (updateReverseConfig w t addr).sk = w.sk := by
  unfold updateReverseConfig
  split <;> rfl

theorem updateReverseConfig_onSk (f : SockTable → SockTable) (addr : Bytes) :
    updateReverseConfig (w.onSk f) t addr = (updateReverseConfig w t addr).onSk f := by
  unfold updateReverseConfig
  rw [show (w.onSk f).transport t = w.transport t from rfl]
  split <;> rfl

theorem World.check_onSk (f : SockTable → SockTable) (b : Bool) (e : Fault) :
    (w.onSk f).check b e = (w.check b e).onSk f := by
  unfold World.check
  split <;> rfl

theorem dial_sk (id : ℕ) (destination : Bytes) : (dial w t id destination).sk = w.sk := by
  unfold dial World.check
  simp only [World.sendPacket_eq, World.log_sk]
  repeat' split
  all_goals first | rfl | exact updateReverseConfig_sk

/-- Opening a stream does not look at the sockets. -/
theorem dial_onSk (f : SockTable → SockTable) (id : ℕ) (destination : Bytes) :
    dial (w.onSk f) t id destination = (dial w t id destination).onSk f := by
  have hreverse : (if (w.onSk f).cfg.adbHost then updateReverseConfig (w.onSk f) t destination
      else w.onSk f) =
      (if w.cfg.adbHost then updateReverseConfig w t destination else w).onSk f := by
    rw [World.onSk_cfg, updateReverseConfig_onSk]
    split <;> rfl
  unfold dial
  simp only [hreverse, World.check_onSk]
  rfl

/-- **`connect_to_remote`** for a socket that has no peer. -/
theorem connectToRemote_eq (hs : w.sk.heap a = some s) (ht : s.transport = some t)
    (hp : s.peer = none) (destination : Bytes) : connectToRemote w a destination =
      (dial w t s.id destination).upd a fun s =>
        { s with availableSendBytes := (w.initialAllowance t).or s.availableSendBytes } := by
  set w' := if w.cfg.adbHost then updateReverseConfig w t destination else w with hw'
  set g : Asocket → Asocket := fun s =>
    { s with availableSendBytes := (w.initialAllowance t).or s.availableSendBytes } with hg
  have hsk : w'.sk = w.sk := by
    rw [hw']
    split
    · exact updateReverseConfig_sk
    · rfl
  have hdelayed : (w'.transport t).supportsDelayedAck = (w.transport t).supportsDelayedAck := by
    rw [hw']
    split
    · obtain ⟨r, hr⟩ := updateReverseConfig_transport w t t destination
      rw [hr]
      rfl
    · rfl
  have hgrant : (if (w.transport t).supportsDelayedAck then
      w'.upd a ({ · with availableSendBytes := some 0 }) else w') = w'.upd a g := by
    rw [hg, World.initialAllowance]
    cases (w.transport t).supportsDelayedAck with
    | true => rfl
    | false => exact (World.upd_id (hsk ▸ hs) rfl).symm
  have hmax : getMaxPayload (w'.upd a g) s = min maxPayload (w'.transport t).maxPayload := by
    simp only [getMaxPayload, ht, peerTransport, hp]
    rfl
  rw [connectToRemote, World.deref_of_some hs]
  simp only [ht, ← hw', hdelayed, hgrant, hmax, dial]
  rw [World.upd, World.check_onSk]
  rfl

theorem aside_updateReverseConfig (h : Good w) (addr : Bytes) :
    Aside w (updateReverseConfig w t addr) := by
  unfold updateReverseConfig
  split
  · exact ⟨calm_raise rfl, rfl⟩
  · rename_i x hx
    obtain ⟨r, -, rfl⟩ := map_eq_some_iff.mp hx
    exact .updTransport h ⟨rfl, rfl, rfl, rfl, rfl, Or.inl rfl⟩ rfl

theorem aside_dial (h : Good w) (id : ℕ) (destination : Bytes) :
    Aside w (dial w t id destination) := by
  have hreverse : Aside w
      (if w.cfg.adbHost then updateReverseConfig w t destination else w) := by
    split
    · exact aside_updateReverseConfig h destination
    · exact .refl w
  exact hreverse.trans ((Aside.check _ rfl).trans (.sendPacket (by simp)))

theorem live_of_isOnline (h : connectionStateIsOnline (w.transport t).connectionState = true) :
    w.Live t := by
  refine Or.inl ?_
  cases hst : (w.transport t).connectionState <;> rw [hst] at h <;> first | rfl | cases h

/-! ### What a smart socket reports to its client -/

/-- A request has been dealt with: a result that is not negative says that the client's
socket is still there. -/
structure Answered (w : World) (r : World × ℤ) (c : Addr) : Prop where
  steps : moves.Steps w r.1
  alive : 0 ≤ r.2 → Action.Usable r.1 c

theorem Serves.answered {r : World × ℤ} (h : Serves w w' a c) (hr : Answered w' r c) :
    Answered w r c := ⟨h.steps.trans hr.steps, hr.alive⟩

theorem Serves.answered_fail (h : Serves w w' a c) (hw : Good w) :
    Answered w (smartSocketFail w' a) c := by
  obtain ⟨s, hs, hkind, -⟩ := h.client
  have hc : s.closing = false :=
    (good_of_moves h.steps hw).open_of_nonlocal hs (by simp [hkind])
  exact ⟨h.steps.trans (moves_of_calm (calm_close hs hc)), 
    fun hr => absurd hr (by simp [smartSocketFail])⟩

/-- The order of things in `smart_socket_enqueue` does not matter: the client's socket
may as well be parted from the smart one, bound to the transport, and the stream opened
last. -/
theorem smartSocketConnect_eq (hs : w.sk.heap a = some s) (hkind : s.kind = .smartSocket)
    (hac : a ≠ c) (hq : w.sk.heap c = some q) (destination : Bytes) :
    close ((connectToRemote (w.upd c
        ({ · with notify := true, peer := none, transport := some t })) c destination).upd a
        ({ · with peer := none })) a =
      dial (Action.run (Action.run w (.drop a c))
        (.bindTo c t ((w.initialAllowance t).or q.availableSendBytes))) t q.id destination := by
  set f : Asocket → Asocket := fun s => { s with
    notify := true, peer := none, transport := some t,
    availableSendBytes := (w.initialAllowance t).or s.availableSendBytes } with hf
  have hleft : (connectToRemote (w.upd c
      ({ · with notify := true, peer := none, transport := some t })) c destination) =
      (dial w t q.id destination).upd c f := by
    rw [connectToRemote_eq (upd_heap_self hq _) rfl rfl, World.upd, World.upd, dial_onSk]
    simp only [World.onSk, upd_upd]
    rfl
  have hs' : (((dial w t q.id destination).upd c f).upd a ({ · with peer := none })).sk.heap a =
      some { s with peer := none } := by
    refine upd_heap_self ?_ _
    rw [World.upd_sk, upd_heap_of_ne hac, dial_sk, hs]
  have hright : Action.run (Action.run w (.drop a c))
      (.bindTo c t ((w.initialAllowance t).or q.availableSendBytes)) =
      w.onSk fun k => ((k.unlink a c).free a).upd c f := by
    have hfree := run_drop_heap hs hkind hac hq
    rw [run_drop hs hkind] at hfree ⊢
    simp only [Action.run, World.upd, World.onSk] at hfree ⊢
    congr 1
    exact upd_congr hfree rfl
  rw [hleft, close_smart_alone hs' hkind rfl, hright, dial_onSk]
  simp only [World.upd, World.onSk]
  rw [upd_then_free hac fun _ => rfl]

/-- **Sending a client on to a device.** -/
theorem answered_smartSocketConnect (h : Good w) (hac : Client w a c) (destination : Bytes) :
    Answered w (smartSocketConnect w a c destination) c := by
  obtain ⟨s, q, hs, hkind, hsc, hq, hqa, hqk, hqc, hqt⟩ := h.client hac
  have hne : a ≠ c := (h.graph.exists_peer hs hsc).1
  unfold smartSocketConnect
  simp only [hs]
  split
  · exact (hac.aside (.reply _)).answered_fail h
  · rename_i t _
    split
    · exact (hac.aside (.reply _)).answered_fail h
    · rename_i honline
      rw [smartSocketConnect_eq hs hkind hne hq]
      have honline' : connectionStateIsOnline (w.transport t).connectionState = true := by
        simpa using honline
      have hdrop := calm_drop hac
      have hfree := run_drop_heap hs hkind hne hq
      set w₁ := Action.run w (.drop a c) with hw₁
      set n := (w.initialAllowance t).or q.availableSendBytes with hn
      have hbind : calm.Steps w₁ (Action.run w₁ (.bindTo c t n)) := by
        refine .single (M := calm) (i := .bindTo c t n)
          ⟨⟨⟨_, hfree, hqk, hqc⟩, peerOf_of_some hfree⟩,
            live_of_isOnline (w := w₁) honline', fun r hr => ?_⟩
        obtain rfl := some.inj (hfree.symm.trans hr)
        rfl
      have hsteps := hdrop.trans hbind
      have hdial := aside_dial (t := t) (good_of_calm hsteps h) q.id destination
      refine ⟨moves_of_calm (hsteps.trans hdial.steps), fun _ => ?_⟩
      rw [Action.Usable, hdial.sk]
      exact ⟨_, upd_heap_self hfree _, hqk, hqc⟩

/-! ### Services of the host -/

/-- Linking a client to another socket of the host. -/
theorem close_relinked (hs : w.sk.heap a = some s) (hkind : s.kind = .smartSocket) (hac : a ≠ c)
    (had : a ≠ d) :
    close (((w.upd c ({ · with notify := false, peer := some d })).upd d
        ({ · with peer := some c })).upd a ({ · with peer := none })) a =
      Action.run (Action.run w (.drop a c)) (.pair c d) := by
  have hs' : (((w.upd c ({ · with notify := false, peer := some d })).upd d
      ({ · with peer := some c })).upd a ({ · with peer := none })).sk.heap a =
        some { s with peer := none } := by
    refine upd_heap_self ?_ _
    rw [World.upd_sk, upd_heap_of_ne had, World.upd_sk, upd_heap_of_ne hac, hs]
  rw [close_smart_alone hs' hkind rfl, run_drop hs hkind]
  simp only [Action.run, World.upd, World.onSk]
  rw [upd_upd_then_free hac had fun _ => rfl]

/-- Linking a client to a new device tracker. -/
theorem close_relinked_tracker (hs : w.sk.heap a = some s) (hkind : s.kind = .smartSocket)
    (hac : a ≠ c) (ha : a ≠ w.sk.brk) (hc : c ≠ w.sk.brk) (o : TrackerOutputType) :
    close (((((createDeviceTracker w o).1.reply c .okay).upd c
        ({ · with notify := false, peer := some w.sk.brk })).upd w.sk.brk
        ({ · with peer := some c })).upd a ({ · with peer := none })) a =
      Action.run (Action.run (w.reply c .okay) (.drop a c)) (.makeTracker c o) := by
  have hs' : ((createDeviceTracker w o).1.reply c .okay).sk.heap a = some s :=
    (alloc_heap_of_ne ha).trans hs
  rw [close_relinked hs' hkind hac ha, run_drop hs' hkind, run_drop (w := w.reply c .okay) hs hkind]
  have halloc := unlink_free_alloc ha hc
    { kind := .deviceTracker, updateNeeded := true, outputType := o }
  simp only [Action.run, createDeviceTracker, World.upd, World.onSk, World.reply_eq, World.log_sk,
    halloc]
  rfl

theorem hostServiceToSocket_cases (w : World) (name : Bytes) :
    hostServiceToSocket w name = (w, none) ∨
      (∃ o, hostServiceToSocket w name = ((createDeviceTracker w o).1, some w.sk.brk)) ∨
        hostServiceToSocket w name = createServiceThreadSocket w := by
  unfold hostServiceToSocket
  repeat' split
  all_goals first
    | exact Or.inl rfl
    | exact Or.inr (Or.inl ⟨_, rfl⟩)
    | exact Or.inr (Or.inr rfl)

theorem usable_of_updated (h : Updated w w') (hc : Action.Usable w c) : Action.Usable w' c :=
  h.roles.isOpen_iff.mpr hc

theorem usable_upd (hs : w.sk.heap a = some s) {f : Asocket → Asocket}
    (hrole : (f s).role = s.role) (hc : Action.Usable w c) : Action.Usable (w.upd a f) c :=
  ((SockTable.SameRoles.upd fun r hr => by
    obtain rfl : s = r := some.inj (hs.symm.trans hr)
    exact hrole).isOpen_iff).mpr hc

/-- A tracker takes note that it has sent the list of devices. -/
theorem calm_updateSeen (hs : w.sk.heap a = some s) (hkind : s.kind = .deviceTracker) :
    calm.Steps w (w.upd a ({ · with updateNeeded := false })) := by
  have hscratch : w.upd a ({ · with updateNeeded := false }) =
      Action.run w (.scratch a s.smartSocketData false) := by
    simp only [Action.run, World.upd, World.onSk]
    congr 1
    exact upd_congr hs rfl
  exact hscratch ▸ .single (M := calm) (i := .scratch a s.smartSocketData false)
    ⟨⟨s, hs, by simp [hkind]⟩, trivial⟩

/-- The first list of devices. -/
theorem calm_deviceTrackerReady (h : Good w) (hs : w.sk.heap a = some s)
    (hkind : s.kind = .deviceTracker) :
    calm.Steps w (ready w a) ∧ (Action.Usable w c → Action.Usable (ready w a) c) := by
  rw [ready, World.deref_of_some hs]
  simp only [hkind, deviceTrackerReady, World.deref_of_some hs]
  split
  · have hstep := calm_updateSeen hs hkind
    have hg := good_of_calm hstep h
    have hs' := upd_heap_self hs ({ · with updateNeeded := false })
    refine ⟨hstep.trans (calm_deviceTrackerSend hg hs' (by simp [hkind]) _), fun hc => ?_⟩
    exact usable_of_updated (updated_deviceTrackerSend hg ⟨_, hs', hkind⟩ _) (usable_upd hs rfl hc)
  · exact ⟨.refl, id⟩

/-- A client that has been handed from its smart socket to a new tracker. -/
theorem made_tracker (h : Good w) (hac : Client w a c) (o : TrackerOutputType) :
    let w' := Action.run (Action.run (w.reply c .okay) (.drop a c)) (.makeTracker c o)
    moves.Steps w w' ∧ Action.Usable w' c ∧ w'.sk.heap w.sk.brk = some
      { kind := .deviceTracker, updateNeeded := true, outputType := o, peer := some c } := by
  obtain ⟨s, q, hs, hkind, hsc, hq, -, hqk, hqc, -⟩ := h.client hac
  have hne : a ≠ c := (h.graph.exists_peer hs hsc).1
  have hreply := hac.aside (.reply (a := c) .okay)
  have hg := good_of_moves hreply.steps h
  have hdrop := calm_drop hreply.client
  have hfree := hg.free_of_drop hreply.client
  have hheap := run_drop_heap (w := w.reply c .okay) hs hkind hne hq
  have hbrk : (Action.run (w.reply c .okay) (.drop a c)).sk.brk = w.sk.brk := by
    rw [run_drop (w := w.reply c .okay) hs hkind]
    rfl
  set w₂ := Action.run (w.reply c .okay) (.drop a c) with hw₂
  have hmake : calm.Steps w₂ (Action.run w₂ (.makeTracker c o)) :=
    .single (M := calm) (i := .makeTracker c o) ⟨hfree, trivial⟩
  have hc : c ≠ w₂.sk.brk := (good_of_calm hdrop hg).graph.ne_brk hheap
  refine ⟨hreply.steps.trans (moves_of_calm (hdrop.trans hmake)), ⟨_, (upd_heap_of_ne hc
    _).trans (upd_heap_self ((alloc_heap_of_ne hc).trans hheap) _), hqk, hqc⟩, ?_⟩
  have hcell := (upd_heap_of_ne hc.symm
    ({ · with notify := false, peer := some w₂.sk.brk })).trans
      (alloc_heap_self (k := w₂.sk)
        (s := { kind := .deviceTracker, updateNeeded := true, outputType := o }))
  rw [← hbrk]
  exact upd_heap_self hcell ({ · with peer := some c })

/-- A client that tracks the devices. -/
theorem answered_tracker (h : Good w) (hac : Client w a c) (o : TrackerOutputType) :
    Answered w (ready (close (((((createDeviceTracker w o).1.reply c .okay).upd c
        ({ · with notify := false, peer := some w.sk.brk })).upd w.sk.brk
        ({ · with peer := some c })).upd a ({ · with peer := none })) a) w.sk.brk, 0) c := by
  obtain ⟨s, q, hs, hkind, hsc, hq, -⟩ := h.client hac
  have hne : a ≠ c := (h.graph.exists_peer hs hsc).1
  obtain ⟨hsteps, husable, htracker⟩ := made_tracker h hac o
  rw [close_relinked_tracker hs hkind hne (h.graph.ne_brk hs) (h.graph.ne_brk hq)]
  obtain ⟨hready, halive⟩ := calm_deviceTrackerReady (c := c) (good_of_moves hsteps h) htracker rfl
  exact ⟨hsteps.trans (moves_of_calm hready), fun _ => halive husable⟩

/-- It makes no difference whether a socket is woken before it is joined or after. -/
theorem ready_pair (hcd : c ≠ d) (hd : w.sk.heap d = some q) (hqk : q.kind = .localSocket) :
    ready (Action.run w (.pair c d)) d = Action.run (ready w d) (.pair c d) := by
  have hd' : (Action.run w (.pair c d)).sk.heap d = some { q with peer := some c } :=
    upd_heap_self ((upd_heap_of_ne hcd.symm _).trans hd) _
  have hsk : ((w.sk.upd c ({ · with notify := false, peer := some d })).upd d
        ({ · with peer := some c })).upd d Asocket.awake =
      ((w.sk.upd d Asocket.awake).upd c ({ · with notify := false, peer := some d })).upd d
        ({ · with peer := some c }) := by
    rw [upd_comm hcd.symm, upd_upd, upd_upd]
    rfl
  rw [ready_eq hd' hqk, ready_eq hd hqk]
  exact congrArg (fun k => { w.log (wakeEvents d q) with sk := k }) hsk

/-- A client that has been handed from its smart socket to another local socket, which
is then woken. -/
theorem made_pair (h : Good w) (hac : Client w a c) (hd : w.sk.heap d = some q)
    (hqk : q.kind = .localSocket) (hqc : q.closing = false) (hqp : q.peer = none)
    (hqt : q.transport = none) :
    let w' := Action.run (Action.run (w.reply c .okay) (.drop a c)) (.pair c d)
    d ≠ a ∧ c ≠ d ∧ moves.Steps w (ready w' d) ∧ Action.Usable w' c ∧
      w'.sk.heap d = some { q with peer := some c } := by
  obtain ⟨s, r, hs, hkind, hsc, hr, hra, hrk, hrc, -⟩ := h.client hac
  have hne : a ≠ c := (h.graph.exists_peer hs hsc).1
  have hda : d ≠ a := by
    rintro rfl
    obtain rfl := some.inj (hs.symm.trans hd)
    exact absurd (hqp.symm.trans hsc) (by simp)
  have hcd : c ≠ d := by
    rintro rfl
    obtain rfl := some.inj (hr.symm.trans hd)
    exact absurd (hqp.symm.trans hra) (by simp)
  have hreply := hac.aside (.reply (a := c) .okay)
  have hg := good_of_moves hreply.steps h
  have hdrop := calm_drop hreply.client
  have hfree := hg.free_of_drop hreply.client
  have hheap := run_drop_heap (w := w.reply c .okay) hs hkind hne hr
  have hd₂ : (Action.run (w.reply c .okay) (.drop a c)).sk.heap d = some q := by
    rw [run_drop (w := w.reply c .okay) hs hkind, World.onSk_sk, free_heap_of_ne hda,
      SockTable.unlink, upd_heap_of_ne hda, upd_heap_of_ne hcd.symm]
    exact hd
  set w₂ := Action.run (w.reply c .okay) (.drop a c) with hw₂
  -- The socket is woken while it is still alone.
  have hwake : calm.Steps w₂ (ready w₂ d) := by
    refine .single (M := calm) (i := .wake d) ⟨⟨q, hd₂, hqk, hqc⟩, fun x p _ hx hp => ?_,
      fun x hx => ?_⟩
    · obtain rfl := some.inj (hd₂.symm.trans hx)
      exact absurd (hqp.symm.trans hp) (by simp)
    · exact some.inj (hd₂.symm.trans hx) ▸ hqt
  have hpair : calm.Steps (ready w₂ d) (ready (Action.run w₂ (.pair c d)) d) := by
    rw [ready_pair hcd hd₂ hqk]
    refine .single (M := calm) (i := .pair c d) ⟨⟨hcd, ?_, ?_⟩, trivial⟩
    · obtain ⟨x, hx, hfree⟩ := hfree
      rw [ready_eq hd₂ hqk]
      exact ⟨x, (upd_heap_of_ne hcd _).trans hx, hfree⟩
    · rw [ready_eq hd₂ hqk]
      exact ⟨_, upd_heap_self hd₂ _, hqk, hqc, hqp, hqt⟩
  exact ⟨hda, hcd, hreply.steps.trans (moves_of_calm (hdrop.trans (hwake.trans hpair))),
    ⟨_, (upd_heap_of_ne hcd _).trans (upd_heap_self hheap _), hrk, hrc⟩,
    upd_heap_self ((upd_heap_of_ne hcd.symm _).trans hd₂) _⟩

/-- A client of a service that runs in a thread of its own. -/
theorem answered_thread (h : Good w) (hac : Client w a c) (hd : w.sk.heap d = some q)
    (hqk : q.kind = .localSocket) (hqc : q.closing = false) (hqp : q.peer = none)
    (hqt : q.transport = none) :
    Answered w (ready (close ((((w.reply c .okay).upd c
        ({ · with notify := false, peer := some d })).upd d
        ({ · with peer := some c })).upd a ({ · with peer := none })) a) d, 0) c := by
  obtain ⟨s, hs, hkind, hsc⟩ := id hac
  obtain ⟨hda, hcd, hsteps, husable, hd'⟩ := made_pair h hac hd hqk hqc hqp hqt
  rw [close_relinked (w := w.reply c .okay) hs hkind (h.graph.exists_peer hs hsc).1 hda.symm]
  set w' := Action.run (Action.run (w.reply c .okay) (.drop a c)) (.pair c d) with hw'
  refine ⟨hsteps, fun _ => ?_⟩
  obtain ⟨r, hr, hrk, hrc⟩ := husable
  change Action.Usable (ready w' d) c
  rw [ready_eq hd' hqk]
  exact ⟨r, (upd_heap_of_ne hcd _).trans hr, hrk, hrc⟩

/-- Making a local socket that belongs to nothing yet. -/
theorem calm_createLocalSocket : calm.Steps w (createLocalSocket w).1 := by
  have hrun : Action.run w (.makeLocal none none) = (createLocalSocket w).1 :=
    World.upd_id createLocalSocket_heap rfl
  exact hrun ▸ .single (M := calm) (i := .makeLocal none none) ⟨trivial, rfl⟩

theorem createLocalSocket_heap_of_ne {b : Addr} (hb : b ≠ w.sk.brk) :
    (createLocalSocket w).1.sk.heap b = w.sk.heap b := by
  rw [createLocalSocket_eq, World.check]
  split <;> exact alloc_heap_of_ne hb

/-- The socket of a service that runs in a thread of its own. -/
theorem made_thread (h : Good w) (hac : Client w a c) :
    calm.Steps w (createServiceThreadSocket w).1 ∧ Client (createServiceThreadSocket w).1 a c ∧
      (createServiceThreadSocket w).1.sk.heap w.sk.brk =
        some { kind := .localSocket, id := w.sk.localSocketNextId } := by
  obtain ⟨s, hs, hkind, hsc⟩ := hac
  have hmake : calm.Steps w (createLocalSocket w.tick).1 := calm_tick.trans calm_createLocalSocket
  have hcheck := Aside.check (w := (createLocalSocket w.tick).1) (w.io.sys.service w.io.tick)
    (f := .checkFd) rfl
  refine ⟨hmake.trans hcheck.steps, ⟨s, ?_, hkind, hsc⟩, ?_⟩
  · rw [createServiceThreadSocket, hcheck.sk,
      createLocalSocket_heap_of_ne (w := w.tick) (h.graph.ne_brk hs)]
    exact hs
  · rw [createServiceThreadSocket, hcheck.sk]
    exact createLocalSocket_heap (w := w.tick)

/-- **A service of the host.** -/
theorem answered_smartSocketHostService (h : Good w) (hac : Client w a c) (service : Bytes) :
    Answered w (smartSocketHostService w a c service) c := by
  unfold smartSocketHostService
  rcases hostServiceToSocket_cases w service with heq | ⟨o, heq⟩ | heq
  · rw [heq]
    exact (hac.aside (.reply _)).answered_fail h
  · rw [heq]
    exact answered_tracker h hac o
  · obtain ⟨hsteps, hclient, hd⟩ := made_thread h hac
    have hanswer := answered_thread (good_of_calm hsteps h) hclient hd rfl rfl rfl rfl
    rw [heq]
    exact ⟨(moves_of_calm hsteps).trans hanswer.steps, hanswer.alive⟩

/-! ### Reading a request -/

/-- A smart socket keeps what it has read. -/
theorem Serves.write (h : Serves w w' a c) (data : Bytes) :
    Serves w (w'.upd a ({ · with smartSocketData := data })) a c := by
  obtain ⟨s, hs, hkind, hsc⟩ := h.client
  have hscratch : w'.upd a ({ · with smartSocketData := data }) =
      Action.run w' (.scratch a data s.updateNeeded) := by
    simp only [Action.run, World.upd, World.onSk]
    congr 1
    exact upd_congr hs rfl
  have hstep : calm.Steps w' (w'.upd a ({ · with smartSocketData := data })) := hscratch ▸
    .single (M := calm) (i := .scratch a data s.updateNeeded) ⟨⟨s, hs, by simp [hkind]⟩, trivial⟩
  exact ⟨h.steps.trans (moves_of_calm hstep), ⟨_, upd_heap_self hs _, hkind, hsc⟩⟩

theorem Serves.answered_ok (h : Serves w w' a c) (hw : Good w) {r : ℤ} : Answered w (w', r) c := by
  obtain ⟨-, q, -, -, -, hq, -, hqk, hqc, -⟩ := (good_of_moves h.steps hw).client h.client
  exact ⟨h.steps, fun _ => ⟨q, hq, hqk, hqc⟩⟩

/-- Whatever is asked for, a result that is not negative leaves the client its socket. -/
theorem answered_smartSocketRequest (h : Good w) (hac : Client w a c) (service : Bytes) :
    Answered w (smartSocketRequest w a service) c := by
  obtain ⟨s, q, hs, hkind, hsc, hq, -⟩ := h.client hac
  unfold smartSocketRequest
  simp only [hs]
  split
  · exact (hac.aside (.refl w)).answered_fail h
  · exact ⟨.refl, fun hr => absurd hr (by simp)⟩
  · rename_i command sel _
    simp only [hsc, hq]
    split
    · exact answered_smartSocketConnect h hac service
    · have hreq := serves_handleHostRequest h hac command sel
      split
      · rename_i w' hw'
        rw [hw'] at hreq
        exact hreq.answered_fail h
      · rename_i w' hw'
        rw [hw'] at hreq
        exact (hreq.write []).answered_ok h
      · rename_i w' hw'
        rw [hw'] at hreq
        exact hreq.answered
          (answered_smartSocketHostService (good_of_moves hreq.steps h) hreq.client _)

/-- **`smart_socket_enqueue`.** -/
theorem answered_smartSocketEnqueue (h : Good w) (hac : Client w a c) (data : Bytes) :
    Answered w (smartSocketEnqueue w a data) c := by
  obtain ⟨s, hs, -⟩ := id hac
  unfold smartSocketEnqueue
  simp only [hs]
  have hread := (hac.aside (.refl w)).write (s.smartSocketData ++ data)
  split
  · exact hread.answered_ok h
  · split
    · exact hread.answered_fail h
    · split
      · exact hread.answered_ok h
      · have hset := hread.write
          ((s.smartSocketData ++ data).set (unhex ((s.smartSocketData ++ data).take 4) + 4) 0)
        exact hset.answered (answered_smartSocketRequest (good_of_moves hset.steps h) hset.client _)

end AdbBridge
