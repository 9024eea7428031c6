import AdbBridge.Graph.Retire

/-!
# What closing does

`close` on the tables is `SockTable.close`: the peer is parted from the socket before
it is closed in its turn, so that a nested close always finds a socket that is alone
and the recursion ends there. No transport is touched, and no fault is raised, in
particular not that of the `CHECK_EQ` at the end of `local_socket_close`.
-/

namespace AdbBridge

open SockTable Option Function

variable {w : World} {a p : Addr} {s q : Asocket} {k : SockTable}

namespace SockTable

variable {k : SockTable} {f : Asocket → Asocket}

theorem upd_congr (hs : k.heap a = some s) {g : Asocket → Asocket} (h : f s = g s) :
    k.upd a f = k.upd a g := by
  unfold upd
  rw [hs, map_some, map_some, h]

theorem upd_upd (f g : Asocket → Asocket) : (k.upd a f).upd a g = k.upd a (g ∘ f) := by
  unfold upd
  simp [comp_def]

theorem upd_comm (hap : a ≠ p) (f g : Asocket → Asocket) :
    (k.upd a f).upd p g = (k.upd p g).upd a f := by
  unfold upd
  simp only [update_of_ne hap.symm, update_of_ne hap]
  rw [update_comm hap]

theorem alloc_upd {r : Asocket} (ha : a ≠ k.brk) (f : Asocket → Asocket) :
    (k.upd a f).alloc r = (k.alloc r).upd a f := by
  unfold upd alloc
  simp only [update_of_ne ha]
  rw [update_comm ha]

theorem upd_id (hs : k.heap a = some s) (h : f s = s) : k.upd a f = k := by
  unfold upd
  rw [hs, map_some, h, ← hs, update_eq_self]

/-- Retiring a socket commutes with writing to another. -/
theorem retire_upd (hap : a ≠ p) (f : Asocket → Asocket) :
    (k.upd a f).retire p = (k.retire p).upd a f := by
  cases hp : k.heap p with
  | none =>
    have hp' : (k.upd a f).heap p = none := by rw [upd_heap_of_ne hap.symm, hp]
    rw [retire_of_none hp', retire_of_none hp]
  | some q =>
    have hp' : (k.upd a f).heap p = some q := by rw [upd_heap_of_ne hap.symm, hp]
    by_cases hkind : q.kind = .localSocket
    · cases hl : q.lingers with
      | true =>
        rw [retire_of_lingers hp' hkind hl, retire_of_lingers hp hkind hl, linger, linger,
          upd_comm hap]
        rfl
      | false =>
        rw [retire_of_local hp' hkind hl, retire_of_local hp hkind hl]
        simp only [free, removeSocket, upd, update_of_ne hap]
        rw [update_comm hap]
    · by_cases hkind' : q.kind = .deviceTracker
      · rw [retire_of_tracker hp' hkind', retire_of_tracker hp hkind']
        simp only [free, deviceTrackerRemove, upd, update_of_ne hap]
        rw [update_comm hap]
      · rw [retire_of_plain hp' hkind hkind', retire_of_plain hp hkind hkind']
        simp only [free, upd, update_of_ne hap]
        rw [update_comm hap]

theorem free_upd (f : Asocket → Asocket) : (k.upd a f).free a = k.free a := by
  simp [free, upd]

/-- A write to a socket that does not matter for its retirement. -/
theorem retire_upd_self (hs : k.heap a = some s)
    (hkind : (f s).kind = s.kind) (hl : (f s).lingers = s.lingers)
    (hc : (f s).toClosing = s.toClosing) : (k.upd a f).retire a = k.retire a := by
  have hs' := upd_heap_self hs f
  by_cases hk : s.kind = .localSocket
  · cases hl' : s.lingers with
    | true =>
      rw [retire_of_lingers hs' (hkind.trans hk) (hl.trans hl'), retire_of_lingers hs hk hl',
        linger, linger, upd_upd, upd_congr hs (g := Asocket.toClosing) hc]
    | false =>
      rw [retire_of_local hs' (hkind.trans hk) (hl.trans hl'), retire_of_local hs hk hl']
      exact free_upd (k := k.removeSocket a) f
  · by_cases hk' : s.kind = .deviceTracker
    · rw [retire_of_tracker hs' (hkind.trans hk'), retire_of_tracker hs hk']
      exact free_upd (k := k.deviceTrackerRemove a) f
    · rw [retire_of_plain hs' (hkind ▸ hk) (hkind ▸ hk'), retire_of_plain hs hk hk', free_upd]

end SockTable

/-! ### What closing tells the world -/

/-- What a client that still waits for its stream is told. -/
def noticeEvents (a : Addr) (s : Asocket) : List Ev :=
  if s.kind = .localSocket ∧ s.notify then [.reply a (.fail (ascii "closed"))] else []

/-- What becomes of a local socket. -/
def farewellEvents (a : Addr) (s : Asocket) : List Ev :=
  if s.kind = .localSocket then
    if s.lingers then [.closing a s.packetQueue.bytes] else [.destroy a]
  else []

/-- What the far end is told when a local socket `s` closes its peer `q`. -/
def clseEvents (s q : Asocket) : List Ev :=
  if s.kind = .localSocket ∧ q.kind = .remoteSocket then
    q.transport.toList.map fun t => .send t { command := .aClse, arg0 := s.id, arg1 := q.id }
  else []

/-- Everything that closing a socket causes, in order. -/
def closeEvents (k : SockTable) (a : Addr) : List Ev :=
  match k.heap a with
  | none => []
  | some s =>
    match s.peer with
    | none => noticeEvents a s ++ farewellEvents a s
    | some p =>
      match k.heap p with
      | none => []
      | some q =>
        noticeEvents a s ++ clseEvents s q ++ (noticeEvents p q ++ farewellEvents p q) ++
          farewellEvents a s

/-! ### A socket that is alone -/

theorem World.upd_id (hs : w.sk.heap a = some s) {f : Asocket → Asocket} (h : f s = s) :
    w.upd a f = w := by
  show { w with sk := w.sk.upd a f } = w
  rw [SockTable.upd_id hs h]

/-- The `CHECK_EQ` of `local_socket_close` asks for no more than the graph gives. -/
theorem Asocket.Ok.write_of_lingers (hok : s.Ok) (hkind : s.kind = .localSocket)
    (hl : s.lingers = true) : s.fde.write = true := by
  simp only [Asocket.lingers, Bool.not_eq_true', Bool.or_eq_false_iff] at hl
  refine hok.write hkind (fun hq => ?_) hl.1.2
  exact absurd (s.packetQueue.empty_iff.mpr hq) (by simp [hl.2])

/-- The last part of closing a local socket, as events and a change of the table. -/
theorem localSocketCloseRest_eq (hs : w.sk.heap a = some s)
    (hw : s.lingers = true → s.fde.write = true) (hkind : s.kind = .localSocket)
    (hn : s.notify = false) :
    localSocketCloseRest w a = (w.log (farewellEvents a s)).onSk (·.retire a) := by
  have hcond : (s.closing || s.hasWriteError || s.packetQueue.empty) = !s.lingers := by
    simp [Asocket.lingers]
  rw [localSocketCloseRest, World.deref_of_some hs, hcond, farewellEvents, if_pos hkind]
  cases hl : s.lingers with
  | false =>
    simp only [Bool.not_false, if_true, localSocketDestroy, World.emit_eq, World.onSk]
    simp [retire_of_local hs hkind hl]
  | true =>
    have hupd : w.sk.upd a (fun s => { s with closing := true, fde := { s.fde with read :=
      false } })
        = w.sk.upd a Asocket.toClosing := upd_congr hs (by
      rw [Asocket.toClosing, ← hn])
    simp only [Bool.not_true, Bool.false_eq_true, if_false, if_true, World.check,
      hw hl, World.upd, World.onSk, World.emit_eq, hupd]
    simp [retire_of_lingers hs hkind hl, SockTable.linger]
    rfl

/-- The notice to a waiting client comes before everything else. -/
theorem closeWith_local (closePeer : World → Addr → World) (hs : w.sk.heap a = some s)
    (hkind : s.kind = .localSocket) :
    closeWith closePeer w a =
      localSocketClose closePeer ((w.log (noticeEvents a s)).upd a ({ · with notify :=
        false })) a := by
  rw [closeWith, World.deref_of_some hs]
  simp only [hkind, noticeEvents, true_and]
  cases hn : s.notify with
  | true => rfl
  | false =>
    have hid : w.upd a ({ · with notify := false }) = w := World.upd_id hs (by rw [← hn])
    simp only [Bool.false_eq_true, if_false, World.log_nil]
    rw [hid]

/-- Closing a socket that is not local: its peer first, then itself. -/
theorem closeWith_nonlocal (closePeer : World → Addr → World) (hs : w.sk.heap a = some s)
    (hkind : s.kind ≠ .localSocket) :
    closeWith closePeer w a = (closePeerOf closePeer w a).onSk fun k =>
      if s.kind = .deviceTracker then (k.deviceTrackerRemove a).free a else k.free a := by
  rw [closeWith, World.deref_of_some hs]
  cases h : s.kind with
  | localSocket => exact absurd h hkind
  | remoteSocket | smartSocket | deviceTracker => rfl

theorem SockTable.retire_of_nonlocal (hs : k.heap a = some s)
    (hkind : s.kind ≠ .localSocket) : k.retire a =
      if s.kind = .deviceTracker then (k.deviceTrackerRemove a).free a else k.free a := by
  by_cases h : s.kind = .deviceTracker
  · rw [if_pos h, retire_of_tracker hs h]
  · rw [if_neg h, retire_of_plain hs hkind h]

/-- **Closing a socket that is alone**, whatever closing a peer would have done. -/
theorem closeWith_eq_of_alone (closePeer : World → Addr → World) (hs : w.sk.heap a = some s)
    (hw : s.kind = .localSocket → s.lingers = true → s.fde.write = true) (hp : s.peer = none) :
    closeWith closePeer w a =
      (w.log (noticeEvents a s ++ farewellEvents a s)).onSk (·.retire a) := by
  by_cases hkind : s.kind = .localSocket
  · have hs' : ((w.log (noticeEvents a s)).upd a ({ · with notify := false })).sk.heap a =
        some { s with notify := false } := upd_heap_self hs _
    have hretire := retire_upd_self hs (f := ({ · with notify := false })) rfl rfl rfl
    rw [closeWith_local _ hs hkind, localSocketClose, World.deref_of_some hs']
    simp only [hp]
    rw [localSocketCloseRest_eq hs' (hw hkind) hkind rfl, World.log_upd, World.log_log]
    simp only [World.onSk, World.log_sk, World.upd_sk, hretire]
    rfl
  · rw [closeWith_nonlocal _ hs hkind, closePeerOf, World.deref_of_some hs]
    simp [hp, noticeEvents, farewellEvents, hkind, World.onSk,
      retire_of_nonlocal hs hkind]

/-! ### A socket and its peer -/

theorem shutdown_eq (hp : w.sk.heap p = some q) (hok : q.Ok) (hqa : q.peer = some a)
    (hs : w.sk.heap a = some s) (hkind : s.kind = .localSocket) :
    shutdown w p = w.log (clseEvents s q) := by
  rw [shutdown, World.deref_of_some hp, clseEvents]
  cases hq : q.kind with
  | remoteSocket =>
    obtain ⟨t, ht⟩ := isSome_iff_exists.mp (hok.remote hq).2
    simp only [remoteSocketShutdown]
    rw [World.deref_of_some hp]
    simp only [ht, hqa]
    rw [World.deref_of_some hs]
    simp [hkind]
  | localSocket | smartSocket | deviceTracker => simp

/-- The order in which the code parts and retires two sockets does not matter. -/
theorem SockTable.retire_retire_eq (hap : a ≠ p) (hs : k.heap a = some s) :
    (((k.upd a ({ · with notify := false })).upd p ({ · with peer := none })).retire p
      |>.upd a ({ · with peer := none })).retire a = ((k.unlink a p).retire p).retire a := by
  have hcomm : ((k.upd a ({ · with notify := false })).upd p ({ · with peer := none })).upd a
      ({ · with peer := none }) = (k.unlink a p).upd a ({ · with notify := false }) := by
    rw [upd_comm hap, upd_upd, unlink, upd_upd]
    rfl
  have hs' : ((k.unlink a p).retire p).heap a = some { s with peer := none } := by
    rw [retire_heap_of_ne hap, unlink,
      upd_heap_self (by rw [upd_heap_of_ne hap]; exact hs)]
  rw [← retire_upd hap, hcomm, retire_upd hap, retire_upd_self hs' rfl rfl rfl]

/-- The other end of a link of the graph. -/
theorem SockTable.Graph.exists_peer (h : k.Graph) (hs : k.heap a = some s)
    (hp : s.peer = some p) : a ≠ p ∧ ∃ q, k.heap p = some q ∧ q.peer = some a := by
  obtain ⟨hap, hpa⟩ := h.pairing a p ((peerOf_of_some hs).trans hp)
  obtain ⟨q, hq, hqa⟩ := bind_eq_some_iff.mp hpa
  exact ⟨hap, q, hq, hqa⟩

theorem closeEvents_of_alone (hs : k.heap a = some s) (hp : s.peer = none) :
    closeEvents k a = noticeEvents a s ++ farewellEvents a s := by
  simp [closeEvents, hs, hp]

theorem closeEvents_of_peer (hs : k.heap a = some s) (hp : s.peer = some p)
    (hq : k.heap p = some q) : closeEvents k a = noticeEvents a s ++ clseEvents s q ++
      (noticeEvents p q ++ farewellEvents p q) ++ farewellEvents a s := by
  simp [closeEvents, hs, hp, hq]

section Peer

variable (h : w.sk.Graph) (hs : w.sk.heap a = some s) (hp : s.peer = some p)
  (hq : w.sk.heap p = some q)

include h hs hp hq

/-- A local socket shuts its peer down, parts from it, closes it, and only then
itself. -/
theorem close_eq_of_local (hkind : s.kind = .localSocket) : close w a =
    (w.log (noticeEvents a s ++ clseEvents s q ++ (noticeEvents p q ++ farewellEvents p q) ++
      farewellEvents a s)).onSk fun k => ((k.unlink a p).retire p).retire a := by
  obtain ⟨hap, q', hq', hqa⟩ := h.exists_peer hs hp
  obtain rfl : q = q' := some.inj (hq.symm.trans hq')
  have hok := h.ok a s hs
  have hokq := h.ok p q hq
  set w₁ := (w.log (noticeEvents a s)).upd a ({ · with notify := false }) with hw₁
  have hs₁ : w₁.sk.heap a = some { s with notify := false } := upd_heap_self hs _
  have hq₁ : w₁.sk.heap p = some q := (upd_heap_of_ne hap.symm _).trans hq
  set w₃ := (w₁.log (clseEvents s q)).upd p ({ · with peer := none }) with hw₃
  have hq₃ : w₃.sk.heap p = some { q with peer := none } := upd_heap_self hq₁ _
  have hs₃ : (w₃.sk.retire p).heap a = some { s with notify := false } := by
    rw [retire_heap_of_ne hap]
    exact (upd_heap_of_ne hap _).trans hs₁
  have hclose := closeWith_eq_of_alone (fun w _ => w.raise .unexpectedCall) hq₃
    hokq.write_of_lingers rfl
  set w₅ := (closeDetached w₃ p).upd a ({ · with peer := none }) with hw₅
  have hs₅ : w₅.sk.heap a = some { s with notify := false, peer := none } := by
    rw [hw₅, closeDetached, hclose]
    exact upd_heap_self hs₃ _
  have hrest := localSocketCloseRest_eq hs₅ (hok.write_of_lingers hkind) hkind rfl
  rw [close, closeWith_local _ hs hkind, localSocketClose, World.deref_of_some hs₁]
  simp only [hp]
  rw [shutdown_eq (s := { s with notify := false }) hq₁ hokq hqa hs₁ hkind]
  refine hrest.trans ?_
  rw [hw₅, closeDetached, hclose, hw₃, hw₁]
  simp only [World.upd, World.onSk, World.log, retire_retire_eq hap hs]
  simp
  exact ⟨rfl, rfl⟩

/-- Any other socket closes its peer without a word to the far end. -/
theorem close_eq_of_nonlocal (hkind : s.kind ≠ .localSocket) : close w a =
    (w.log (noticeEvents p q ++ farewellEvents p q)).onSk fun k =>
      ((k.unlink a p).retire p).retire a := by
  obtain ⟨hap, q', hq', hqa⟩ := h.exists_peer hs hp
  obtain rfl : q = q' := some.inj (hq.symm.trans hq')
  have hq₁ : (w.upd p ({ · with peer := none })).sk.heap p = some { q with peer := none } :=
    upd_heap_self hq _
  have hclose := closeWith_eq_of_alone (fun w _ => w.raise .unexpectedCall) hq₁
    (h.ok p q hq).write_of_lingers rfl
  have hs' : ((w.sk.unlink a p).retire p).heap a = some { s with peer := none } := by
    rw [retire_heap_of_ne hap, SockTable.unlink, upd_heap_self]
    exact (upd_heap_of_ne hap _).trans hs
  have hretire : ((w.sk.unlink a p).retire p).retire a =
      if s.kind = .deviceTracker then
        ((w.sk.upd p ({ · with peer := none })).retire p).deviceTrackerRemove a |>.free a
      else ((w.sk.upd p ({ · with peer := none })).retire p).free a := by
    rw [retire_of_nonlocal hs' hkind, SockTable.unlink, retire_upd hap]
    split
    · exact free_upd (k := SockTable.deviceTrackerRemove _ a) _
    · exact free_upd _
  rw [close, closeWith_nonlocal _ hs hkind, closePeerOf, World.deref_of_some hs]
  simp only [hp]
  rw [closeDetached, hclose]
  simp only [World.onSk, World.log_sk, hretire]
  rfl

end Peer

/-- **What `close` does**: it parts a socket from its peer and retires both, and tells
the world so. -/
theorem close_eq (h : w.sk.Graph) (hs : w.sk.heap a = some s) :
    close w a = (w.log (closeEvents w.sk a)).onSk (·.close a) := by
  cases hp : s.peer with
  | none =>
    have hpeer : w.sk.peerOf a = none := (peerOf_of_some hs).trans hp
    rw [close, closeWith_eq_of_alone _ hs (h.ok a s hs).write_of_lingers hp,
      closeEvents_of_alone hs hp]
    simp [World.onSk, SockTable.close, hpeer]
  | some p =>
    have hpeer : w.sk.peerOf a = some p := (peerOf_of_some hs).trans hp
    obtain ⟨-, q, hq, -⟩ := h.exists_peer hs hp
    rw [closeEvents_of_peer hs hp hq]
    by_cases hkind : s.kind = .localSocket
    · rw [close_eq_of_local h hs hp hq hkind]
      simp [World.onSk, SockTable.close, hpeer]
    · rw [close_eq_of_nonlocal h hs hp hq hkind]
      simp [World.onSk, SockTable.close, hpeer, noticeEvents, clseEvents, farewellEvents, hkind]

end AdbBridge
