import AdbBridge.Graph.Make

/-!
# The actions on sockets

Everything the server does is made of the actions below: pieces of the model small
enough that the socket graph is in order before and after each of them, and few enough
to go through one by one. `actions` is the machine that takes them in any order. That
the operations of the server are runs of this machine is shown in
`AdbBridge.Graph.Server`; from then on an invariant of the sockets need only be checked
against the actions.

An action is given by the functions of the model, not by a description of them. Its
guard says what the code has made sure of before.
-/

namespace AdbBridge

open SockTable

/-- Events that are of no consequence for the life of a socket: neither data nor the
end of a socket is among them. -/
def Ev.quiet : Ev → Bool
  | .recv _ _ | .read _ _ | .ackMismatch _ | .reply _ _ | .scan _ _ | .service _ _ => true
  | .send _ p => p.command != .aWrte
  | .writev _ _ | .writeError _ | .outgoing _ _ _ | .closing _ _ | .destroy _ => false

inductive Action
  /-- Record events. -/
  | log (es : List Ev)
  /-- Make a system call. -/
  | tick
  /-- Change the transports or the listeners. -/
  | onNet (f : Net → Net)
  /-- Die. -/
  | raise (f : Fault)
  /-- Flush a local socket. -/
  | flush (a : Addr)
  /-- Enqueue data on a local socket. -/
  | push (a : Addr) (data : Bytes)
  /-- Close a socket. -/
  | close (a : Addr)
  /-- Send what a local socket has read to its remote peer. -/
  | transmit (a p : Addr) (data : Bytes)
  /-- Take what a local socket has read off its allowance. -/
  | hand (a : Addr) (data : Bytes)
  /-- Stop reading from a local socket, unless it has allowance left. -/
  | pause (a : Addr)
  /-- Start reading from a local socket. -/
  | wake (a : Addr)
  /-- Set the allowance of a local socket. -/
  | grant (a : Addr) (n : ℤ)
  /-- Make a local socket with a transport and an allowance. -/
  | makeLocal (t : Option TransportId) (n : Option ℤ)
  /-- Make a remote socket, the peer of a local one. -/
  | join (a : Addr) (id : ℕ) (t : TransportId)
  /-- Make a smart socket, the peer of a local one. -/
  | makeSmart (a : Addr)
  /-- Make a device tracker, the peer of a local socket. -/
  | makeTracker (c : Addr) (o : TrackerOutputType)
  /-- Join two local sockets. -/
  | pair (c d : Addr)
  /-- Take a smart socket away from its peer. -/
  | drop (a c : Addr)
  /-- Bind a local socket to a transport, with an allowance, and let its client wait. -/
  | bindTo (c : Addr) (t : TransportId) (n : Option ℤ)
  /-- Set the transport of a smart socket. -/
  | switch (a : Addr) (t : Option TransportId)
  /-- Write to what a smart socket has read, or to the flag of a tracker. -/
  | scratch (a : Addr) (data : Bytes) (updateNeeded : Bool)

namespace Action

/-- What an action does. -/
def run (w : World) : Action → World
  | .log es => w.log es
  | .tick => w.tick
  | .onNet f => w.onNet f
  | .raise f => w.raise f
  | .flush a => (localSocketFlushIncoming w a).1
  | .push a data => (localSocketEnqueue w a data).1
  | .close a => AdbBridge.close w a
  | .transmit a p data => (sendToPeer w a p data).1
  | .hand a data =>
    w.deref a fun s => (w.log [.outgoing a s.availableSendBytes data]).upd a
      (·.charge data.length)
  | .pause a => stopReading w a
  | .wake a => ready w a
  | .grant a n => w.upd a ({ · with availableSendBytes := some n })
  | .makeLocal t n =>
    let (w, a) := createLocalSocket w
    w.upd a ({ · with transport := t, availableSendBytes := n })
  | .join a id t => (joinRemote w a id t).1
  | .makeSmart a =>
    let (w, r) := createSmartSocket w
    (w.upd a ({ · with peer := some r })).upd r ({ · with peer := some a })
  | .makeTracker c o =>
    let (w, r) := createDeviceTracker w o
    (w.upd c ({ · with notify := false, peer := some r })).upd r ({ · with peer := some c })
  | .pair c d =>
    (w.upd c ({ · with notify := false, peer := some d })).upd d ({ · with peer := some c })
  | .drop a c => w.onSk fun k => (k.unlink a c).retire a
  | .bindTo c t n =>
    w.upd c ({ · with notify := true, transport := some t, availableSendBytes := n })
  | .switch a t => w.upd a ({ · with transport := t })
  | .scratch a data u => w.upd a ({ · with smartSocketData := data, updateNeeded := u })

/-- A local socket that may still be used. -/
def Usable (w : World) (a : Addr) : Prop :=
  ∃ s, w.sk.heap a = some s ∧ s.kind = .localSocket ∧ s.closing = false

/-- A local socket that may still be used, has no peer and no transport. -/
def Free (w : World) (a : Addr) : Prop :=
  ∃ s, w.sk.heap a = some s ∧ s.kind = .localSocket ∧ s.closing = false ∧ s.peer = none ∧
    s.transport = none

/-- What the code has made sure of. -/
def Pre (w : World) : Action → Prop
  | .log es => ∀ e ∈ es, e.quiet = true
  | .tick => True
  | .onNet f => (f w.net).ListenersOk
  | .raise f => f.deliberate = true
  | .flush a => ∃ s, w.sk.heap a = some s ∧ s.kind = .localSocket
  | .push a _ => Usable w a
  | .close a => ∃ s, w.sk.heap a = some s
  | .transmit a p data => Usable w a ∧ w.sk.peerOf a = some p ∧
      (∃ q, w.sk.heap p = some q ∧ q.kind = .remoteSocket) ∧ data.length ≤ maxPayload
  | .hand a _ => ∃ s, w.sk.heap a = some s ∧ s.kind = .localSocket
  | .pause a => ∃ s, w.sk.heap a = some s ∧ s.kind = .localSocket
  | .wake a => Usable w a
  | .grant a _ => ∃ s, w.sk.heap a = some s ∧ s.kind = .localSocket
  | .makeLocal _ _ => True
  | .join a id _ => Usable w a ∧ w.sk.peerOf a = none ∧ id ≠ 0
  | .makeSmart a => Free w a
  | .makeTracker c _ => Free w c
  | .pair c d => c ≠ d ∧ Free w c ∧ Free w d
  | .drop a c => w.sk.peerOf a = some c ∧ ∃ s, w.sk.heap a = some s ∧ s.kind = .smartSocket
  | .bindTo c _ _ => Usable w c ∧ w.sk.peerOf c = none
  | .switch a _ => ∃ s, w.sk.heap a = some s ∧ s.kind = .smartSocket
  | .scratch a _ _ => ∃ s, w.sk.heap a = some s ∧ s.kind ≠ .localSocket

/-! ### What the actions do to a world in order -/

section Good

variable {w : World} {a c d : Addr} {s : Asocket}

/-- Sending to a remote peer charges the socket, which may then pause. -/
theorem good_transmit {p : Addr} {data : Bytes} (h : Good w)
    (hpre : Pre w (.transmit a p data)) : Good (run w (.transmit a p data)) := by
  obtain ⟨⟨s, hs, hkind, hc⟩, hp, ⟨q, hq, hqk⟩, hlen⟩ := hpre
  have hok := h.graph.ok a s hs
  obtain ⟨t, ht⟩ := Option.isSome_iff_exists.mp ((h.graph.ok p q hq).remote hqk).2
  rw [peerOf_of_some hs] at hp
  rw [run, sendToPeer_remote h.graph hs hp hq hqk ht hlen]
  have hlinks : (s.charge data.length).SameLinks (s.charge data.length).paused :=
    Asocket.sameLinks_paused
  exact (h.log _).upd_sameLinks hs ⟨hlinks.kind, hlinks.id, hlinks.closing, hlinks.peer,
    hlinks.transport⟩ (hok.charge _).paused

theorem good_makeLocal (h : Good w) (t : Option TransportId) (n : Option ℤ) :
    Good (run w (.makeLocal t n)) :=
  (good_createLocalSocket h).upd createLocalSocket_heap rfl rfl
    (Asocket.ok_new rfl rfl (by simp)) (by simp)

theorem good_join {id : ℕ} {t : TransportId} (h : Good w) (hpre : Pre w (.join a id t)) :
    Good (run w (.join a id t)) := by
  obtain ⟨⟨s, hs, hkind, hc⟩, hp, hid⟩ := hpre
  rw [peerOf_of_some hs] at hp
  have hok : ({ kind := .remoteSocket, id := id, transport := some t } : Asocket).Ok :=
    Asocket.ok_new rfl rfl fun _ => ⟨hid, rfl⟩
  simp only [run, joinRemote, createRemoteSocket_eq hid]
  exact h.link_new (h.graph.alloc_plain hok rfl (by simp) (by simp)) rfl hs hkind hc hp rfl rfl
    (by simp) fun _ => rfl

theorem good_makeSmart (h : Good w) (hpre : Pre w (.makeSmart a)) :
    Good (run w (.makeSmart a)) := by
  obtain ⟨s, hs, hkind, hc, hp, ht⟩ := hpre
  have hok : ({ kind := .smartSocket } : Asocket).Ok := Asocket.ok_new rfl rfl (by simp)
  exact h.link_new (h.graph.alloc_plain hok rfl (by simp) (by simp)) rfl hs hkind hc hp rfl rfl
    (by simp) fun ht' => absurd ht ht'

/-- A socket whose client is no longer waiting. -/
theorem good_upd_notify (h : Good w) (hs : w.sk.heap c = some s) (hc : s.closing = false)
    (b : Bool) : Good (w.upd c ({ · with notify := b })) :=
  have hok := h.graph.ok c s hs
  h.upd hs rfl rfl ⟨fun hc' => absurd (hc.symm.trans hc') (by simp), hok.write, hok.remote⟩
    fun _ _ => rfl

/-- A free socket gets a device tracker as its peer. -/
theorem good_makeTracker {o : TrackerOutputType} (h : Good w) (hpre : Pre w (.makeTracker c o)) :
    Good (run w (.makeTracker c o)) := by
  obtain ⟨s, hs, hkind, hc, hp, ht⟩ := hpre
  have h' := good_upd_notify h hs hc false
  have hs' := upd_heap_self hs ({ · with notify := false })
  have hok : ({ kind := .deviceTracker, updateNeeded := true, outputType := o } : Asocket).Ok :=
    Asocket.ok_new rfl rfl (by simp)
  have hlink := h'.link_new (h'.graph.alloc_tracker hok rfl rfl) rfl hs' hkind hc hp rfl rfl
    (by simp) fun ht' => absurd ht ht'
  refine hlink.congr ?_ rfl rfl
  set k : SockTable := { w.sk.alloc
      { kind := .deviceTracker, updateNeeded := true, outputType := o }
    with deviceTrackerList := w.sk.brk :: w.sk.deviceTrackerList } with hk
  have hk' : ({ (w.sk.upd c ({ · with notify := false })).alloc
      { kind := .deviceTracker, updateNeeded := true, outputType := o }
      with deviceTrackerList := w.sk.brk :: w.sk.deviceTrackerList } : SockTable) =
      k.upd c ({ · with notify := false }) := by
    rw [alloc_upd (h.graph.ne_brk hs)]
    rfl
  calc (run w (.makeTracker c o)).sk
      = (k.upd c ({ · with notify := false })).link c w.sk.brk := by
        rw [SockTable.link, upd_upd]
        rfl
    _ = _ := by
        rw [← hk']
        rfl

/-- Two sockets that are free are joined. -/
theorem good_pair (h : Good w) (hpre : Pre w (.pair c d)) : Good (run w (.pair c d)) := by
  obtain ⟨hcd, ⟨s, hs, hkind, hc, hp, ht⟩, ⟨r, hr, hrk, hrc, hrp, hrt⟩⟩ := hpre
  have h' := good_upd_notify h hs hc false
  have hs' := upd_heap_self hs ({ · with notify := false })
  have hr' : (w.upd c ({ · with notify := false })).sk.heap d = some r :=
    (upd_heap_of_ne hcd.symm _).trans hr
  have hlink := h'.graph.link hcd hs' hr' hp hrp hc hrc (Or.inl hkind)
    (fun _ ht' => absurd ht ht') (fun _ ht' => absurd hrt ht')
  have hsk : (run w (.pair c d)).sk = (w.sk.upd c ({ · with notify := false })).link c d := by
    simp only [run, SockTable.link, World.upd_sk, upd_upd]
    rfl
  refine ⟨hsk ▸ hlink, ?_, h.listeners, h.sound⟩
  intro b q hb hq
  rw [hsk] at hb
  rcases heap_link_cases hcd hs' hr' hb with ⟨-, rfl⟩ | ⟨-, rfl⟩ | ⟨-, -, hb⟩
  · exact absurd hkind hq
  · exact absurd hrk hq
  · exact h'.attached b q hb hq

/-- A client loses its smart socket, which is destroyed. -/
theorem good_drop (h : Good w) (hpre : Pre w (.drop a c)) : Good (run w (.drop a c)) := by
  obtain ⟨hac, s, hs, hkind⟩ := hpre
  have hpeer : (w.sk.unlink a c).peerOf a = none := by
    rw [peerOf_unlink, Function.update_self]
  refine ⟨(h.graph.unlink hac).retire hpeer, ?_, h.listeners, h.sound⟩
  intro b q hb hq
  by_cases hba : b = a
  · subst hba
    obtain ⟨r, -, hr⟩ := Option.bind_eq_some_iff.mp (retire_heap_self.symm.trans hb)
    split at hr
    · rename_i hlocal
      obtain rfl := Option.some.inj hr
      exact absurd hlocal.1 hq
    · exact absurd hr (by simp)
  · rw [run, World.onSk_sk, retire_heap_of_ne hba] at hb
    obtain ⟨r, hr, ⟨rfl, hbc⟩ | ⟨rfl, -⟩⟩ := heap_unlink_cases hb
    · obtain rfl := hbc.resolve_left hba
      rw [peerOf_of_some hs] at hac
      exact absurd (h.graph.mixed a s b r hs hac hr (by simp [hkind])) hq
    · exact h.attached b q hr hq

/-- **Every action keeps a world in order.** -/
theorem good_run {act : Action} (h : Good w) (hpre : act.Pre w) : Good (act.run w) := by
  cases act with
  | log es => exact h.log es
  | tick => exact h.tick
  | onNet f => exact h.onNet hpre
  | raise f => exact h.raise hpre
  | flush a =>
    obtain ⟨s, hs, hkind⟩ := hpre
    exact good_flushIncoming h hs hkind
  | push a data =>
    obtain ⟨s, hs, hkind, hc⟩ := hpre
    exact good_localSocketEnqueue h hs hkind hc data
  | close a =>
    obtain ⟨s, hs⟩ := hpre
    exact good_close h hs
  | transmit a p data => exact good_transmit h hpre
  | hand a data =>
    obtain ⟨s, hs, -⟩ := hpre
    rw [run, World.deref_of_some hs]
    exact (h.log _).upd_sameLinks hs ⟨rfl, rfl, rfl, rfl, rfl⟩ ((h.graph.ok a s hs).charge _)
  | pause a =>
    obtain ⟨s, hs, -⟩ := hpre
    rw [run, stopReading_eq hs]
    exact h.upd_sameLinks hs Asocket.sameLinks_paused (h.graph.ok a s hs).paused
  | wake a =>
    obtain ⟨s, hs, hkind, hc⟩ := hpre
    rw [run, ready_eq hs hkind]
    exact (h.log _).upd_sameLinks hs Asocket.sameLinks_awake ((h.graph.ok a s hs).awake hc)
  | grant a n =>
    obtain ⟨s, hs, -⟩ := hpre
    have hok := h.graph.ok a s hs
    exact h.upd_sameLinks hs ⟨rfl, rfl, rfl, rfl, rfl⟩ ⟨hok.closing, hok.write, hok.remote⟩
  | makeLocal t n => exact good_makeLocal h t n
  | join a id t => exact good_join h hpre
  | makeSmart a => exact good_makeSmart h hpre
  | makeTracker c o => exact good_makeTracker h hpre
  | pair c d => exact good_pair h hpre
  | drop a c => exact good_drop h hpre
  | bindTo c t n =>
    obtain ⟨⟨s, hs, -, hc⟩, hp⟩ := hpre
    have hok := h.graph.ok c s hs
    rw [peerOf_of_some hs] at hp
    exact h.upd hs rfl rfl ⟨fun hc' => absurd (hc.symm.trans hc') (by simp), hok.write,
      fun hr => ⟨(hok.remote hr).1, rfl⟩⟩ fun _ hp' => absurd hp hp'
  | switch a t =>
    obtain ⟨s, hs, hkind⟩ := hpre
    have hok := h.graph.ok a s hs
    exact h.upd hs rfl rfl ⟨hok.closing, hok.write, fun hr =>
      absurd (hkind.symm.trans hr) (by simp)⟩
      fun hl => absurd (hkind.symm.trans hl) (by simp)
  | scratch a data u =>
    obtain ⟨s, hs, -⟩ := hpre
    have hok := h.graph.ok a s hs
    exact h.upd_sameLinks hs ⟨rfl, rfl, rfl, rfl, rfl⟩ ⟨hok.closing, hok.write, hok.remote⟩

end Good

end Action

/-- The machine of the actions. -/
def actions : Machine World Action where
  init := fun w => ∃ cfg sys, w = initialWorld cfg sys
  enabled := fun w act => act.Pre w
  step := Action.run

/-- Actions keep a world in order. -/
theorem good_of_steps {w w' : World} (hsteps : actions.Steps w w') (h : Good w) : Good w' :=
  hsteps.inv (fun _ _ h hpre => Action.good_run h hpre) h

end AdbBridge
