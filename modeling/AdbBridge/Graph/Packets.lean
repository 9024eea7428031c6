import AdbBridge.Graph.Events

/-!
# Packets, as actions

The handlers of the four packets that carry streams, and the equations for what each of
them does to the socket it is addressed to.
-/

namespace AdbBridge

open SockTable Option

variable {w w' : World} {a p : Addr} {s q : Asocket} {t : TransportId} {x : Option Addr} {id : ℕ}
  {address : Bytes}

/-! ### Finding a socket -/

/-- **`find_local_socket`** finds an open socket with the id, and with a peer of the given
id unless that is zero. -/
theorem findLocalSocket_spec (h : Good w) {localId peerId : ℕ}
    (hfind : findLocalSocket w.sk localId peerId = some a) :
    ∃ s, w.sk.heap a = some s ∧ s.kind = .localSocket ∧ s.closing = false ∧ s.id = localId ∧
      (peerId = 0 ∨ ∃ p q, s.peer = some p ∧ w.sk.heap p = some q ∧ q.id = peerId) := by
  unfold findLocalSocket at hfind
  split at hfind
  · exact absurd hfind (by simp)
  · rename_i b hb
    split at hfind
    · rename_i hpeer
      obtain rfl : b = a := some.inj hfind
      obtain ⟨s, hs, hkind, hc⟩ := (h.graph.list.mem_iff b).mp (List.mem_of_find?_eq_some hb)
      have hid := List.find?_some hb
      rw [hs, any_some, beq_iff_eq] at hid
      refine ⟨s, hs, hkind, hc, hid, ?_⟩
      rw [hs, bind_some, Bool.or_eq_true, beq_iff_eq, any_eq_true] at hpeer
      refine hpeer.imp id ?_
      rintro ⟨q, hq, hqid⟩
      obtain ⟨p, hp, hq⟩ := bind_eq_some_iff.mp hq
      exact ⟨p, q, hp, hq, by simpa using hqid⟩
    · exact absurd hfind (by simp)

/-- A socket with the id and the peer is the one that is found. -/
theorem findLocalSocket_eq (h : Good w) (hs : w.sk.heap a = some s) (hkind : s.kind = .localSocket)
    (hc : s.closing = false) {peerId : ℕ}
    (hpeer : peerId = 0 ∨ ∃ p q, s.peer = some p ∧ w.sk.heap p = some q ∧ q.id = peerId) :
    findLocalSocket w.sk s.id peerId = some a := by
  have hmem : a ∈ w.sk.localSocketList := (h.graph.list.mem_iff a).mpr ⟨s, hs, hkind, hc⟩
  have hfound : w.sk.localSocketList.find? (fun b => (w.sk.heap b).any (·.id == s.id)) =
      some a := by
    cases hfind : w.sk.localSocketList.find? (fun b => (w.sk.heap b).any (·.id == s.id)) with
    | none =>
      have := List.find?_eq_none.mp hfind a hmem
      simp [hs] at this
    | some b =>
      obtain ⟨r, hr, hrk, -⟩ := (h.graph.list.mem_iff b).mp (List.mem_of_find?_eq_some hfind)
      have hid := List.find?_some hfind
      rw [hr, any_some, beq_iff_eq] at hid
      rw [h.graph.id_inj b a r s hr hs hrk hkind hid]
  unfold findLocalSocket
  rw [hfound]
  refine if_pos ?_
  rcases hpeer with rfl | ⟨p, q, hp, hq, rfl⟩
  · simp
  · simp [hs, hp, hq]

/-! ### Joining a socket to a remote one -/

theorem run_join_heap (hne : a ≠ w.sk.brk) (hs : w.sk.heap a = some s) (hid : id ≠ 0) :
    (Action.run w (.join a id t)).sk.heap a = some { s with peer := some w.sk.brk } ∧
      (Action.run w (.join a id t)).sk.heap w.sk.brk =
        some { kind := .remoteSocket, id := id, transport := some t, peer := some a } := by
  simp only [Action.run, joinRemote, createRemoteSocket_eq hid]
  refine ⟨(upd_heap_of_ne hne _).trans (upd_heap_self
    ((alloc_heap_of_ne hne).trans hs) _), ?_⟩
  exact upd_heap_self (f := ({ · with peer := some a }))
    ((upd_heap_of_ne hne.symm _).trans alloc_heap_self)

theorem steady_wake (ha : Action.Usable w a) (hx : some a = x ∨ w.Apart a) :
    (steady x).Steps w (ready w a) := .single (M := steady x) (i := .wake a) ⟨⟨ha, trivial⟩, hx⟩

theorem usable_ready (ha : Action.Usable w a) : Action.Usable (ready w a) a := by
  obtain ⟨s, hs, hkind, hc⟩ := ha
  rw [ready_eq hs hkind]
  exact ⟨_, upd_heap_self hs _, hkind, hc⟩

/-- An allowance does not change whom a socket is joined to. -/
theorem World.Apart.grant (h : w.Apart a) (hs : w.sk.heap a = some s) (n : ℤ) :
    (w.upd a ({ · with availableSendBytes := some n })).Apart a := by
  intro s' r q hs' hr hq
  obtain rfl := some.inj ((upd_heap_self hs _).symm.trans hs')
  rcases heap_upd_cases hs hq with ⟨rfl, rfl⟩ | ⟨-, hq⟩
  · exact h s r s hs hr hs
  · exact h s r q hs hr hq

theorem steady_grant (hs : w.sk.heap a = some s) (hkind : s.kind = .localSocket) (n : ℤ) :
    (steady x).Steps w (w.upd a ({ · with availableSendBytes := some n })) :=
  .single (M := steady x) (i := .grant a n) ⟨⟨⟨s, hs, hkind⟩, trivial⟩, trivial⟩

/-! ### Opening -/

theorem sendClose_quiet (lid rid : ℕ) : Aside w (sendClose w lid rid t) := .sendPacket (by simp)

/-- Whether `create_local_service_socket` finds a service. -/
def World.serves (w : World) (address : Bytes) : Bool :=
  w.io.sys.service w.io.tick && (isSocketSpec address || !w.cfg.adbHost)

/-- The call of `create_local_service_socket`. -/
def World.asked (w : World) (t : TransportId) (address : Bytes) : World :=
  (w.log [.service t address]).tick

theorem aside_asked (address : Bytes) : Aside w (w.asked t address) :=
  Aside.trans ⟨calm_log (by simp [Ev.quiet]), rfl⟩ .tick

theorem run_makeLocal_bound : Action.run w (.makeLocal (some t) none) =
    (createLocalSocket w).1.upd w.sk.brk ({ · with transport := some t }) := by
  simp only [Action.run, World.upd, World.onSk]
  congr 1
  exact upd_congr createLocalSocket_heap rfl

/-- The world in which a stream has been accepted: a socket for the service and the remote
socket of the stream. -/
def accepted (w : World) (t : TransportId) (id : ℕ) (address : Bytes) : World :=
  Action.run (Action.run (w.asked t address) (.makeLocal (some t) none)) (.join w.sk.brk id t)

/-- The socket of a service. -/
def serviceSocket (k : SockTable) (t : TransportId) : Asocket :=
  { kind := .localSocket, id := k.localSocketNextId, transport := some t }

theorem run_makeLocal_heap : (Action.run w (.makeLocal (some t) none)).sk.heap w.sk.brk =
    some (serviceSocket w.sk t) := by
  rw [run_makeLocal_bound]
  exact upd_heap_self createLocalSocket_heap _

theorem run_makeLocal_brk : (Action.run w (.makeLocal (some t) none)).sk.brk = w.sk.brk + 1 := by
  rw [run_makeLocal_bound, createLocalSocket_eq, World.check]
  split <;> rfl

theorem steady_makeLocal (n : Option ℤ) :
    (steady x).Steps w (Action.run w (.makeLocal (some t) n)) :=
  .single (M := steady x) (i := .makeLocal (some t) n) ⟨⟨trivial, trivial⟩, trivial⟩

theorem steady_asked_makeLocal (address : Bytes) :
    (steady x).Steps w (Action.run (w.asked t address) (.makeLocal (some t) none)) :=
  (steady_of_calm (aside_asked address).steps).trans (steady_makeLocal none)

theorem steady_join (ha : Action.Usable w a) (hp : w.sk.peerOf a = none) (hid : id ≠ 0) :
    (steady x).Steps w (Action.run w (.join a id t)) :=
  .single (M := steady x) (i := .join a id t) ⟨⟨⟨ha, hp, hid⟩, trivial⟩, trivial⟩

section Accept

variable {id : ℕ} (hid : id ≠ 0) (address : Bytes)

include hid

theorem steady_accepted : (steady x).Steps w (accepted w t id address) := by
  have hcell : (Action.run (w.asked t address) (.makeLocal (some t) none)).sk.heap w.sk.brk =
      some (serviceSocket w.sk t) := run_makeLocal_heap (w := w.asked t address)
  exact (steady_asked_makeLocal address).trans
    (steady_join ⟨_, hcell, rfl, rfl⟩ (peerOf_of_some hcell) hid)

/-- The sockets of a stream that has just been accepted. -/
theorem accepted_heap :
    (accepted w t id address).sk.heap w.sk.brk =
        some { serviceSocket w.sk t with peer := some (w.sk.brk + 1) } ∧
      (accepted w t id address).sk.heap (w.sk.brk + 1) =
        some { kind := .remoteSocket, id := id, transport := some t, peer := some w.sk.brk } := by
  have hcell : (Action.run (w.asked t address) (.makeLocal (some t) none)).sk.heap w.sk.brk =
      some (serviceSocket w.sk t) := run_makeLocal_heap (w := w.asked t address)
  have hbrk : (Action.run (w.asked t address) (.makeLocal (some t) none)).sk.brk = w.sk.brk + 1 :=
    run_makeLocal_brk (w := w.asked t address)
  have hjoin := run_join_heap (t := t) (hbrk ▸ Nat.ne_of_lt (Nat.lt_succ_self _)) hcell hid
  rwa [hbrk] at hjoin

theorem accepted_net : (accepted w t id address).net = w.net := by
  unfold accepted
  simp only [Action.run, joinRemote, createRemoteSocket_eq hid, createLocalSocket_eq, World.check]
  split <;> rfl

end Accept

/-- What a socket looks like once its stream has been accepted. -/
def Asocket.started (s : Asocket) (n : Option ℤ) : Asocket :=
  { s.awake with availableSendBytes := n }

/-- The allowance a stream starts with at the end that accepts it. -/
def World.acceptedAllowance (w : World) (t : TransportId) (n : ℕ) : Option ℤ :=
  if (w.transport t).supportsDelayedAck then some (n : ℤ) else none

/-- The start of an accepted stream: one packet, and the allowance of its socket. -/
theorem startStream_eq {r : Addr} (ha : w.sk.heap a = some s) (hr : w.sk.heap r = some q)
    (hkind : s.kind = .localSocket) (hn : s.notify = false) (hav : s.availableSendBytes = none)
    (p : Apacket) : startStream w t p a r =
      (w.log [.send t (readyPacket w s.id q.id t initialDelayedAckBytes)]).upd a
        (·.started (w.acceptedAllowance t p.arg1)) := by
  rw [startStream, World.deref_of_some ha, World.deref_of_some hr, World.acceptedAllowance]
  cases hd : (w.transport t).supportsDelayedAck with
  | true =>
    have ha' := upd_heap_self ha ({ · with availableSendBytes := some (p.arg1 : ℤ) })
    simp only [if_true]
    rw [ready_eq (s := { s with availableSendBytes := some (p.arg1 : ℤ) }) ha' hkind, wakeEvents,
      hn, if_neg (by simp), World.log_nil, sendReady_eq, World.log_upd]
    simp only [World.upd, World.onSk, upd_upd]
    rfl
  | false =>
    have hready : readyPacket w s.id q.id t 0 =
        readyPacket w s.id q.id t initialDelayedAckBytes := by
      simp [readyPacket, hd]
    simp only [Bool.false_eq_true, if_false]
    rw [ready_eq (w := sendReady w s.id q.id t 0) ha hkind, wakeEvents, hn, if_neg (by simp),
      World.log_nil, sendReady_eq, hready]
    simp only [World.upd, World.onSk]
    congr 1
    refine upd_congr ha ?_
    rw [Asocket.started, Asocket.awake, hav]

/-- **Accepting a stream.** -/
theorem acceptOpen_eq {p : Apacket} (hid : p.arg0 ≠ 0)
    (hserves : w.serves address = true) : acceptOpen w t p address =
      ((accepted w t p.arg0 address).log [.send t (readyPacket w w.sk.localSocketNextId p.arg0 t
        initialDelayedAckBytes)]).upd w.sk.brk (·.started (w.acceptedAllowance t p.arg1)) := by
  obtain ⟨ha, hr⟩ := accepted_heap (w := w) (t := t) hid address
  have hnet := accepted_net (w := w) (t := t) hid address
  have hcreate : createLocalServiceSocket w address t =
      (Action.run (w.asked t address) (.makeLocal (some t) none), some w.sk.brk) := by
    rw [run_makeLocal_bound]
    unfold createLocalServiceSocket
    simp only
    rw [show (w.io.sys.service w.io.tick && (isSocketSpec address || !w.cfg.adbHost)) = true
      from hserves]
    rfl
  have hjoin : joinRemote (Action.run (w.asked t address) (.makeLocal (some t) none)) w.sk.brk
      p.arg0 t = (accepted w t p.arg0 address, w.sk.brk + 1) := by
    refine Prod.ext rfl ?_
    simp only [joinRemote, createRemoteSocket_eq hid]
    exact run_makeLocal_brk (w := w.asked t address)
  unfold acceptOpen
  rw [hcreate]
  simp only [hjoin]
  rw [startStream_eq ha hr rfl rfl rfl]
  unfold World.acceptedAllowance readyPacket World.transport
  rw [hnet]
  rfl

/-- Refusing a stream. -/
theorem acceptOpen_refused {p : Apacket} (hserves : w.serves address = false) :
    acceptOpen w t p address = sendClose (w.asked t address) 0 p.arg0 t := by
  have hcreate : createLocalServiceSocket w address t = (w.asked t address, none) := by
    unfold createLocalServiceSocket
    simp only
    rw [show (w.io.sys.service w.io.tick && (isSocketSpec address || !w.cfg.adbHost)) = false
      from hserves]
    rfl
  unfold acceptOpen
  rw [hcreate]

/-- Starting a socket with an allowance. -/
theorem steady_started (hs : w.sk.heap a = some s) (hkind : s.kind = .localSocket)
    (hc : s.closing = false) (hn : s.notify = false) (hx : w.Apart a) {n : Option ℤ}
    (hav : n = none → s.availableSendBytes = none) :
    (steady x).Steps w (w.upd a (·.started n)) := by
  cases n with
  | none =>
    have hready : w.upd a (·.started none) = ready w a := by
      rw [ready_eq hs hkind, wakeEvents, hn, if_neg (by simp), World.log_nil]
      simp only [World.upd, World.onSk]
      congr 1
      refine upd_congr hs ?_
      rw [Asocket.started, Asocket.awake, hav rfl]
    rw [hready]
    exact steady_wake ⟨s, hs, hkind, hc⟩ (Or.inr hx)
  | some m =>
    have hs' := upd_heap_self hs ({ · with availableSendBytes := some m })
    have hready : w.upd a (·.started (some m)) =
        ready (w.upd a ({ · with availableSendBytes := some m })) a := by
      rw [ready_eq (s := { s with availableSendBytes := some m }) hs' hkind, wakeEvents, hn,
        if_neg (by simp), World.log_nil]
      simp only [World.upd, World.onSk, upd_upd]
      rfl
    rw [hready]
    refine (steady_grant hs hkind m).trans (steady_wake ⟨_, hs', hkind, hc⟩ (Or.inr ?_))
    exact hx.grant hs m

/-- Accepting a stream takes steady actions only, with a service or without one. -/
theorem steady_acceptOpen {p : Apacket} (hid : p.arg0 ≠ 0) (address : Bytes) :
    (steady x).Steps w (acceptOpen w t p address) := by
  cases hserves : w.serves address with
  | false =>
    rw [acceptOpen_refused hserves]
    exact steady_of_calm ((aside_asked address).trans (sendClose_quiet _ _)).steps
  | true =>
    rw [acceptOpen_eq hid hserves]
    obtain ⟨ha, hr⟩ := accepted_heap (w := w) (t := t) hid address
    have hlog : (steady x).Steps (accepted w t p.arg0 address) ((accepted w t p.arg0 address).log
        [.send t (readyPacket w w.sk.localSocketNextId p.arg0 t initialDelayedAckBytes)]) :=
      steady_of_calm (calm_log (by simp [Ev.quiet, readyPacket]))
    refine (steady_accepted hid address).trans (hlog.trans ?_)
    refine steady_started (w := (accepted w t p.arg0 address).log _) ha rfl rfl rfl ?_ fun _ => rfl
    intro s r q hs hp hq
    obtain rfl := some.inj (ha.symm.trans hs)
    obtain rfl := some.inj hp
    obtain rfl := some.inj (hr.symm.trans hq)
    simp

/-- **`A_OPEN`.** -/
theorem steady_handleOpen (p : Apacket) : (steady x).Steps w (handleOpen w t p) := by
  unfold handleOpen
  split
  · exact .refl
  · rename_i hguard
    have hid : p.arg0 ≠ 0 := fun hzero => hguard (by simp [hzero])
    split
    · exact steady_of_calm (sendClose_quiet _ _).steps
    · simp only
      split
      · have hcheck : Aside w (checkReverse w t p).1 :=
          Aside.trans ⟨calm_log (by simp [Ev.quiet]), rfl⟩ .tick
        split
        · rename_i w' hw'
          rw [hw'] at hcheck
          exact steady_of_calm (hcheck.steps.trans (calm_raise rfl))
        · rename_i w' hw'
          rw [hw'] at hcheck
          exact (steady_of_calm hcheck.steps).trans (steady_acceptOpen hid _)
      · exact steady_acceptOpen hid _

/-! ### Acknowledging -/

/-- An acknowledgement for a socket in use. -/
theorem steady_localSocketAck (ha : Action.Usable w a) (acked : Option ℤ) :
    (steady (some a)).Steps w (localSocketAck w a acked) ∧
      Action.Usable (localSocketAck w a acked) a := by
  obtain ⟨s, hs, hkind, hc⟩ := id ha
  unfold localSocketAck
  rw [World.deref_of_some hs]
  split
  · rename_i n v _
    have hs' := upd_heap_self hs ({ · with availableSendBytes := some (n + v) })
    have hgrant := steady_grant (x := some a) hs hkind (n + v)
    have husable : Action.Usable (w.upd a ({ · with availableSendBytes := some (n + v) })) a :=
      ⟨_, hs', hkind, hc⟩
    simp only
    split
    · exact ⟨hgrant.trans (steady_wake husable (Or.inl rfl)), usable_ready husable⟩
    · exact ⟨hgrant, husable⟩
  · exact ⟨steady_wake ha (Or.inl rfl), usable_ready ha⟩
  · exact ⟨steady_of_calm (calm_log (by simp [Ev.quiet])), s, hs, hkind, hc⟩

/-- An acknowledgement for a socket that has been found. -/
theorem steady_okaySocket (h : Good w) (ha : Action.Usable w a) {p : Apacket} (hid : p.arg0 ≠ 0)
    (acked : Option ℤ) : (steady (some a)).Steps w (okaySocket w t p a acked) := by
  obtain ⟨s, hs, hkind, hc⟩ := id ha
  rw [okaySocket, World.deref_of_some hs]
  cases hp : s.peer with
  | none =>
    have hjoin := steady_join (x := some a) (t := t) ha ((peerOf_of_some hs).trans hp) hid
    have hs' := (run_join_heap (t := t) (h.graph.ne_brk hs) hs hid).1
    obtain ⟨hack, husable⟩ := steady_localSocketAck (a := a) ⟨_, hs', hkind, hc⟩ acked
    exact hjoin.trans (hack.trans (steady_wake husable (Or.inl rfl)))
  | some r =>
    obtain ⟨-, q, hq, -⟩ := h.graph.exists_peer hs hp
    simp only [World.deref_of_some hq]
    split
    · exact (steady_localSocketAck ha acked).1
    · exact .refl

/-- **`A_OKAY`** spares all sockets but the one it is addressed to. -/
theorem steady_handleOkay (h : Good w) (p : Apacket) :
    (steady (findLocalSocket w.sk p.arg1 0)).Steps w (handleOkay w t p) := by
  unfold handleOkay
  split
  · rename_i hguard
    have hid : p.arg0 ≠ 0 := by
      simp only [Bool.and_eq_true, bne_iff_ne] at hguard
      exact hguard.1.2
    split
    · exact steady_of_calm (sendClose_quiet _ _).steps
    · rename_i a hfind
      obtain ⟨s, hs, hkind, hc, -⟩ := findLocalSocket_spec h hfind
      split
      · exact .refl
      · exact hfind ▸ steady_okaySocket h ⟨s, hs, hkind, hc⟩ hid _
  · exact .refl

/-! ### Closing and writing -/

/-- **`A_CLSE`.** -/
theorem calm_handleClse (h : Good w) (p : Apacket) : calm.Steps w (handleClse w t p) := by
  unfold handleClse
  split
  · split
    · exact .refl
    · rename_i a hfind
      obtain ⟨s, hs, -, hc, -⟩ := findLocalSocket_spec h hfind
      rw [World.deref_of_some hs]
      split
      · exact .refl
      · exact calm_close hs hc
  · exact .refl

theorem enqueue_local (hs : w.sk.heap a = some s) (hkind : s.kind = .localSocket) (data : Bytes) :
    enqueue w a data = localSocketEnqueue w a data := by
  simp only [enqueue, enqueueData, hs, hkind]

/-- **`A_WRTE`.** -/
theorem calm_handleWrte (h : Good w) (p : Apacket) : calm.Steps w (handleWrte w t p) := by
  unfold handleWrte
  split
  · split
    · exact .refl
    · rename_i a hfind
      obtain ⟨s, hs, hkind, hc, -⟩ := findLocalSocket_spec h hfind
      rw [enqueue_local hs hkind]
      exact calm_push hs hkind hc _
  · exact .refl

end AdbBridge
