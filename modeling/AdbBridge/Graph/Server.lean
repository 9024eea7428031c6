import AdbBridge.Graph.Packets

/-!
# The socket graph of the server

Every operation of the server is a run of `actions`, so the sockets of every reachable
state are in order. All operations but the delivery of events are runs of `orderly`, and
so are events, as long as no closing socket is found at the end of its descriptor.
-/

namespace AdbBridge

variable {w w' : World} {a : Addr} {t : TransportId} {x : Option Addr} {op : Op}

/-! ### Transports -/

theorem steady_parseBanner (h : Good w) (banner : Bytes) :
    (steady x).Steps w (parseBanner w banner t) := by
  unfold parseBanner
  simp only
  have hset := steady_updTransport (x := x) (t := t) h (·.setFeatures w.cfg [])
  split
  · exact hset.trans (steady_setConnectionState (good_of_steady hset h) _)
  · rename_i props _
    have hprops := hset.trans (steady_updTransport (t := t) (good_of_steady hset h)
      fun x => (splitAt 59 props).foldl (Atransport.parseProp w.cfg) x)
    exact hprops.trans (steady_setConnectionState (good_of_steady hprops h) _)

theorem steady_handleNewConnection (h : Good w) (p : Apacket) :
    (steady x).Steps w (handleNewConnection w t p) := by
  have h₁ := steady_handleOffline (x := x) (t := t) h
  have h₂ := h₁.trans (steady_updTransport (t := t) (good_of_steady h₁ h)
    (·.updateVersion p.arg0 p.arg1))
  have h₃ := h₂.trans (steady_parseBanner (t := t) (good_of_steady h₂ h) p.payload)
  exact h₃.trans (steady_updTransport (good_of_steady h₃ h) _)

theorem steady_sendAuthResponse (h : Good w) : (steady x).Steps w (sendAuthResponse w t) := by
  unfold sendAuthResponse
  simp only
  have hkey := steady_updTransport (x := x) (t := t) h (·.nextKey w.cfg)
  have hg := good_of_steady hkey h
  split
  · refine hkey.trans (steady_of_calm (calm_tick.trans ?_))
    split
    · exact .refl
    · exact calm_sendPacket (by simp)
  · have hstate := steady_setConnectionState (x := x) (t := t) hg .kCsUnauthorized
    refine hkey.trans (hstate.trans (steady_of_calm ?_))
    unfold sendAuthPublickey
    simp only
    split
    · exact .refl
    · exact calm_sendPacket (by simp)

theorem steady_handleAuth (h : Good w) (p : Apacket) : (steady x).Steps w (handleAuth w t p) := by
  unfold handleAuth
  split
  · exact .refl
  · split
    · have hstate : (steady x).Steps w (if (w.transport t).connectionState = .kCsAuthorizing then w
          else setConnectionState w t .kCsAuthorizing) := by
        split
        · exact .refl
        · exact steady_setConnectionState h _
      exact hstate.trans (steady_sendAuthResponse (good_of_steady hstate h))
    · have hstate := steady_setConnectionState (x := x) (t := t) h .kCsOffline
      exact hstate.trans (steady_handleOffline (good_of_steady hstate h))

/-- The socket an acknowledgement is addressed to. -/
def acknowledged (w : World) (p : Apacket) : Option Addr :=
  if p.command = .aOkay then findLocalSocket w.sk p.arg1 0 else none

/-- **`handle_packet` is orderly**, and spares all sockets but the one that is
acknowledged. -/
theorem steady_handlePacket (h : Good w) (p : Apacket) :
    (steady (acknowledged w p)).Steps w (handlePacket w t p) := by
  have hrecv : calm.Steps w (w.emit (.recv t p)) := calm_log (by simp [Ev.quiet])
  have hg := good_of_calm hrecv h
  refine (steady_of_calm hrecv).trans ?_
  unfold handlePacket
  cases hcommand : p.command with
  | aCnxn => exact steady_handleNewConnection hg p
  | aStls =>
    have htls := steady_updTransport (x := acknowledged w p) (t := t) hg ({ · with useTls := true })
    exact htls.trans (steady_of_calm (calm_sendPacket (p := ⟨.aStls, aStlsVersion, 0,
      []⟩) (by simp)))
  | aAuth => exact steady_handleAuth hg p
  | aOpen => exact steady_handleOpen p
  | aOkay =>
    rw [acknowledged, if_pos hcommand]
    exact steady_handleOkay hg p
  | aClse => exact steady_of_calm (calm_handleClse hg p)
  | aWrte => exact steady_of_calm (calm_handleWrte hg p)
  | other raw => exact .refl

theorem steady_transportDestroy (h : Good w) : (steady x).Steps w (transportDestroy w t) := by
  unfold transportDestroy
  have hstop := steady_updTransport (x := x) (t := t) h ({ · with conn := .stopped })
  have hg := good_of_steady hstop h
  refine hstop.trans ?_
  simp only
  split <;> exact steady_updTransport hg _

theorem steady_handleError (h : Good w) : (steady x).Steps w (handleError w t) := by
  have hoff := steady_handleOffline (x := x) (t := t) h
  exact hoff.trans (steady_transportDestroy (good_of_steady hoff h))

theorem steady_fdeventUnregisterTransport (h : Good w) :
    (steady x).Steps w (fdeventUnregisterTransport w t) := by
  have hlist : (steady x).Steps w (w.onNet fun n =>
      { n with transportList := n.transportList.filter (· != t) }) := steady_onNet h.listeners
  have hdead := hlist.trans (steady_updTransport (t := t) (good_of_steady hlist h)
    ({ · with alive := false }))
  exact hdead.trans (steady_of_calm (calm_updateTransports (good_of_steady hdead h)))

theorem steady_fdeventRegisterTransport (h : Good w) :
    (steady x).Steps w (fdeventRegisterTransport w t) := by
  unfold fdeventRegisterTransport
  set w₁ := if (w.transport t).connectionState = .kCsNoPerm then w
    else if (w.transport t).type = .kTransportUsb ∧ w.cfg.usbDevicesStartDetached then
      setConnectionState w t .kCsDetached
    else sendConnect (w.updTransport t ({ · with conn := .running })) t with hw₁
  have hstart : (steady x).Steps w w₁ := by
    rw [hw₁]
    split
    · exact .refl
    · split
      · exact steady_setConnectionState h _
      · exact (steady_updTransport h _).trans (steady_of_calm aside_sendConnect.steps)
  have hg := good_of_steady hstart h
  have hlist : (steady x).Steps w₁ (w₁.onNet fun n =>
      if t ∈ n.pendingList then
        { n with
          pendingList := n.pendingList.filter (· != t)
          transportList := t :: n.transportList }
      else n) := by
    refine steady_onNet ?_
    split <;> exact hg.listeners
  exact hstart.trans (hlist.trans (steady_of_calm
    (calm_updateTransports (good_of_steady hlist hg))))

theorem steady_newTransport (h : Good w) (i : TransportInfo) :
    (steady x).Steps w (newTransport w i) := by
  unfold newTransport
  exact steady_onNet (by exact h.listeners)

/-! ### Events -/

/-- A connection to a listener. -/
theorem calm_invokeListener (h : Good w) (ev : Fdevent) (id : ListenerId) :
    calm.Steps w (invokeFde w ev (.listener id)) := by
  unfold invokeFde
  simp only
  split
  · split
    · exact .refl
    · rename_i l hfind
      have hl : l ∈ w.net.listenerList := List.mem_of_find?_eq_some hfind
      split
      · exact calm_tick
      · split
        · exact calm_tick.trans calm_ssListenerEventFunc
        · rename_i hsmart
          obtain ⟨t, ht⟩ := Option.isSome_iff_exists.mp ((h.listeners l hl).resolve_left hsmart)
          exact calm_tick.trans (calm_listenerEventFunc (w := w.tick) h.tick hl ht)
  · exact .refl

/-- The socket an event is delivered to. -/
def Fde.socket? : Fde → Option Addr
  | .socket a => some a
  | .listener _ | .other => none

theorem sparing_invokeFde (h : Good w) (ev : Fdevent) (fde : Fde)
    (hinstalled : (interest w fde).isSome) :
    (sparing fde.socket?).Steps w (invokeFde w ev fde) := by
  cases fde with
  | socket a =>
    obtain ⟨i, hi⟩ := Option.isSome_iff_exists.mp hinstalled
    obtain ⟨s, hs, hif⟩ := Option.bind_eq_some_iff.mp hi
    split at hif
    · rename_i hkind
      exact sparing_localSocketEventFunc h hs hkind ev
    · exact absurd hif (by simp)
  | listener id => exact sparing_of_steady (steady_of_calm (calm_invokeListener h ev id))
  | other => exact .refl

/-- The event an iteration of the loop delivers. -/
def delivered (w : World) (reports : List (Fde × EpollEvents)) : Option (Fde × EpollEvents) :=
  if reports.all fun r => (interest w r.1).all r.2.expected then
    reports.find? fun r => (interest w r.1).isSome
  else none

theorem sparing_loopIteration (h : Good w) (reports : List (Fde × EpollEvents)) :
    (sparing ((delivered w reports).bind (·.1.socket?))).Steps w (loopIteration w reports) := by
  unfold loopIteration delivered
  split
  · split
    · exact .refl
    · rename_i fde e hfind
      have hinstalled := List.find?_some hfind
      rw [hfind]
      exact sparing_invokeFde h _ fde hinstalled
  · exact sparing_of_steady (steady_of_calm (calm_raise rfl))

/-! ### Operations -/

/-- The socket an operation does not spare. -/
def Op.touched (w : World) : Op → Option Addr
  | .poll reports => (delivered w reports).bind (·.1.socket?)
  | .packet _ p => acknowledged w p
  | _ => none

/-- Every operation but the delivery of events is orderly. -/
theorem steady_step (h : Good w) (hop : ∀ reports, op ≠ .poll reports) :
    (steady (op.touched w)).Steps w (op.step w) := by
  cases op with
  | poll reports => exact absurd rfl (hop reports)
  | packet t p => exact steady_handlePacket h p
  | handleError t => exact steady_handleError h
  | register t => exact steady_fdeventRegisterTransport h
  | unregister t => exact steady_fdeventUnregisterTransport h
  | newTransport i => exact steady_newTransport h i
  | kick t => exact steady_of_calm (aside_kick h).steps
  | giveUp t => exact steady_updTransport h _
  | closeAllSockets t => exact steady_of_calm (calm_closeAllSockets h)

theorem orderly_step (h : Good w) (hop : ∀ reports, op ≠ .poll reports) :
    orderly.Steps w (op.step w) := orderly_of_steady (steady_step h hop)

/-- **Every operation of the server is made of actions**, and spares all sockets but
one. -/
theorem sparing_step (h : Good w) (op : Op) : (sparing (op.touched w)).Steps w (op.step w) := by
  by_cases hop : ∀ reports, op ≠ .poll reports
  · exact sparing_of_steady (steady_step h hop)
  · push Not at hop
    obtain ⟨reports, rfl⟩ := hop
    exact sparing_loopIteration h reports

theorem actions_step (h : Good w) (op : Op) : actions.Steps w (op.step w) :=
  (sparing_step h op).of_restrict

/-- The world is in order in the beginning, when there are no sockets. -/
theorem good_initialWorld (cfg : Config) (sys : Sys) : Good (initialWorld cfg sys) where
  graph := {
    fresh := fun _ _ => rfl
    ok := fun _ _ h => absurd h (by simp [initialWorld])
    pairing := .empty
    mixed := fun _ _ _ _ h => absurd h (by simp [initialWorld])
    bound := fun _ _ _ _ h => absurd h (by simp [initialWorld])
    list := .nil fun _ ⟨_, h, _⟩ => absurd h (by simp [initialWorld])
    closing := .nil fun _ ⟨_, h, _⟩ => absurd h (by simp [initialWorld])
    trackers := .nil fun _ ⟨_, h, _⟩ => absurd h (by simp [initialWorld])
    id_bound := fun _ _ h => absurd h (by simp [initialWorld])
    id_inj := fun _ _ _ _ h => absurd h (by simp [initialWorld])
    next_pos := Nat.one_pos }
  attached := fun _ _ h => absurd h (by simp [initialWorld])
  listeners := by
    intro l hl
    obtain rfl := List.mem_singleton.mp hl
    exact Or.inl rfl
  sound := fun _ h => absurd h (by simp [initialWorld])

/-- **The sockets of every reachable state are in order.** -/
theorem good_of_reach (h : server.Reach w) : Good w := by
  refine h.inv ?_ fun w op _ hw _ => good_of_steps (actions_step hw op) hw
  rintro w ⟨cfg, sys, rfl⟩
  exact good_initialWorld cfg sys

/-! ### The socket graph -/

/-- What the tables of `sockets.cpp` promise: where the local sockets are listed, that
their ids tell them apart, that peers point at each other, and in what state a socket
waits for its last data to be written. -/
structure SocketGraph (w : World) : Prop where
  /-- Every local socket is on exactly one of the two lists. -/
  listed : ∀ a s, w.sk.heap a = some s → s.kind = .localSocket →
    a ∈ w.sk.localSocketList ∧ a ∉ w.sk.localSocketClosingList ∨
      a ∉ w.sk.localSocketList ∧ a ∈ w.sk.localSocketClosingList
  /-- Nothing is listed twice. -/
  nodup : (w.sk.localSocketList ++ w.sk.localSocketClosingList).Nodup
  /-- Only local sockets that are alive are listed. -/
  live : ∀ a ∈ w.sk.localSocketList ++ w.sk.localSocketClosingList,
    ∃ s, w.sk.heap a = some s ∧ s.kind = .localSocket
  id_ne_zero : ∀ a s, w.sk.heap a = some s → s.kind = .localSocket → s.id ≠ 0
  id_ne : ∀ a b s r, w.sk.heap a = some s → w.sk.heap b = some r → s.kind = .localSocket →
    r.kind = .localSocket → a ≠ b → s.id ≠ r.id
  peer : ∀ a s p, w.sk.heap a = some s → s.peer = some p →
    ∃ q, w.sk.heap p = some q ∧ q.peer = some a
  closing : ∀ a ∈ w.sk.localSocketClosingList, ∃ s, w.sk.heap a = some s ∧ s.closing = true ∧
    s.peer = none ∧ s.packetQueue.bytes ≠ [] ∧ s.hasWriteError = false ∧ s.fde.write = true ∧
      s.fde.read = false
  /-- The `CHECK_EQ` at the end of `local_socket_close` has not failed. -/
  check : w.fault ≠ some .checkFdeWrite

theorem Good.disjoint (h : Good w) : w.sk.localSocketList.Disjoint w.sk.localSocketClosingList := by
  intro a hl hc
  obtain ⟨s, hs, -, hopen⟩ := (h.graph.list.mem_iff a).mp hl
  obtain ⟨r, hr, -, hclosing⟩ := (h.graph.closing.mem_iff a).mp hc
  obtain rfl : s = r := Option.some.inj (hs.symm.trans hr)
  exact absurd (hopen.symm.trans hclosing) (by simp)

theorem Good.listed (h : Good w) {s : Asocket} (hs : w.sk.heap a = some s)
    (hkind : s.kind = .localSocket) :
    a ∈ w.sk.localSocketList ∧ a ∉ w.sk.localSocketClosingList ∨
      a ∉ w.sk.localSocketList ∧ a ∈ w.sk.localSocketClosingList := by
  cases hc : s.closing with
  | false =>
    have hl := (h.graph.list.mem_iff a).mpr ⟨s, hs, hkind, hc⟩
    exact Or.inl ⟨hl, fun hcl => h.disjoint hl hcl⟩
  | true =>
    have hcl := (h.graph.closing.mem_iff a).mpr ⟨s, hs, hkind, hc⟩
    exact Or.inr ⟨fun hl => h.disjoint hl hcl, hcl⟩

theorem Good.closing_socket (h : Good w) (ha : a ∈ w.sk.localSocketClosingList) :
    ∃ s, w.sk.heap a = some s ∧ s.closing = true ∧ s.peer = none ∧ s.packetQueue.bytes ≠ [] ∧
      s.hasWriteError = false ∧ s.fde.write = true ∧ s.fde.read = false := by
  obtain ⟨s, hs, hkind, hc⟩ := (h.graph.closing.mem_iff a).mp ha
  have hok := h.graph.ok a s hs
  obtain ⟨-, hpeer, hqueue, herror, hread⟩ := hok.closing hc
  exact ⟨s, hs, hc, hpeer, hqueue, herror, hok.write hkind hqueue herror, hread⟩

/-- **The socket graph.** Whatever clients, devices, timing and system calls do, the
tables of the sockets keep their promises in every state the server reaches. -/
theorem socketGraph_of_reach {w : World} (h : server.Reach w) : SocketGraph w := by
  have hg := good_of_reach h
  exact {
    listed := fun a s hs hkind => hg.listed hs hkind
    nodup := hg.graph.list.nodup.append hg.graph.closing.nodup hg.disjoint
    live := by
      intro a ha
      rcases List.mem_append.mp ha with ha | ha
      · obtain ⟨s, hs, hkind, -⟩ := (hg.graph.list.mem_iff a).mp ha
        exact ⟨s, hs, hkind⟩
      · obtain ⟨s, hs, hkind, -⟩ := (hg.graph.closing.mem_iff a).mp ha
        exact ⟨s, hs, hkind⟩
    id_ne_zero := fun a s hs hkind => (hg.graph.id_bound a s hs hkind).1.ne'
    id_ne := fun a b s r hs hr hsk hrk hab hid => hab (hg.graph.id_inj a b s r hs hr hsk hrk hid)
    peer := by
      intro a s p hs hp
      obtain ⟨-, q, hq, hqa⟩ := hg.graph.exists_peer hs hp
      exact ⟨q, hq, hqa⟩
    closing := fun a ha => hg.closing_socket ha
    check := fun hf => absurd (hg.sound _ hf) (by decide) }

/-- A client that tracks the devices, does not read the list, sends another byte and
hangs up. -/
def hastyClient : Sys where
  read := fun tick =>
    match tick with
    | 1 => .data (ascii "0012host:track-devices")
    | 4 => .data [0]
    | 6 => .error
    | _ => .eagain

/-- The events of such a client, up to the point where its socket is closed. -/
def hastyRun : List Op :=
  [.poll [(.listener 0, { epollin := true })], .poll [(.socket 0, { epollin := true })],
    .poll [(.socket 0, { epollin := true })]]

theorem reach_hastyRun : server.Reach (server.run (initialWorld {} hastyClient) hastyRun) :=
  reach_of_legal (by decide +kernel)

/-- The promises are about something: the socket of a hasty client waits on the closing
list. -/
theorem socketGraph_of_hastyRun :
    (server.run (initialWorld {} hastyClient) hastyRun).sk.localSocketClosingList = [0] ∧
      SocketGraph (server.run (initialWorld {} hastyClient) hastyRun) :=
  ⟨by decide +kernel, socketGraph_of_reach reach_hastyRun⟩

/-- A USB device appears as transport `t` and introduces itself. -/
def deviceConnects (t : TransportId) (banner : Bytes) : List Op :=
  [.newTransport { type := .kTransportUsb }, .register t,
    .packet t { command := .aCnxn, arg0 := aVersion, arg1 := maxPayload, payload := banner }]

end AdbBridge
