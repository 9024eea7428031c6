import AdbBridge.Graph.Good

/-!
# What making and joining sockets does

The equations of the remaining pieces of `sockets.cpp`: the functions that make
sockets, those that start and stop reading, and the hand-over of data to a remote
peer.
-/

namespace AdbBridge

open SockTable

variable {w : World} {a p c : Addr} {s q : Asocket}

/-! ### Making sockets -/

theorem createLocalSocket_eq : createLocalSocket w =
    ((w.onSk (·.withLocal { kind := .localSocket, id := w.sk.localSocketNextId })).check
      (w.sk.localSocketNextId + 1 != 2 ^ 32) .localSocketIdOverflow, w.sk.brk) := by
  unfold createLocalSocket installLocalSocket
  simp only [World.upd, World.onSk, SockTable.upd, SockTable.alloc, SockTable.withLocal]
  simp

theorem createRemoteSocket_eq {id : ℕ} (hid : id ≠ 0) (t : TransportId) :
    createRemoteSocket w id t =
      (w.onSk (·.alloc { kind := .remoteSocket, id := id, transport := some t }), w.sk.brk) := by
  simp [createRemoteSocket, World.check, hid]

/-- A socket that nobody has used yet. -/
theorem Asocket.ok_new (hc : s.closing = false) (hq : s.packetQueue.bytes = [])
    (hr : s.kind = .remoteSocket → s.id ≠ 0 ∧ s.transport.isSome) : s.Ok where
  closing h := absurd (hc.symm.trans h) (by simp)
  write _ h := absurd hq h
  remote := hr

/-- Making a local socket keeps a world in order. -/
theorem good_createLocalSocket (h : Good w) : Good (createLocalSocket w).1 := by
  rw [createLocalSocket_eq]
  suffices hg : Good (w.onSk (·.withLocal
      { kind := .localSocket, id := w.sk.localSocketNextId })) from hg.check _ rfl
  refine ⟨?_, ?_, h.listeners, h.sound⟩
  · exact h.graph.withLocal (Asocket.ok_new rfl rfl (by simp)) rfl ⟨rfl, rfl⟩ rfl
  · intro b r hb hr
    rcases heap_alloc_cases hb with ⟨-, rfl⟩ | ⟨-, hb⟩
    · exact absurd rfl hr
    · exact h.attached b r hb hr

theorem createLocalSocket_heap :
    (createLocalSocket w).1.sk.heap w.sk.brk =
      some { kind := .localSocket, id := w.sk.localSocketNextId } := by
  rw [createLocalSocket_eq, World.check]
  split <;> exact alloc_heap_self

/-! ### Joining a socket to a new one -/

/-- A new socket that is not local, joined to a local one that is alone. -/
theorem Good.link_new (h : Good w) {k : SockTable} (hk : k.Graph)
    (hheap : k.heap = (w.sk.alloc q).heap) (ha : w.sk.heap a = some s)
    (hkind : s.kind = .localSocket) (hc : s.closing = false) (hp : s.peer = none)
    (hq : q.peer = none) (hqc : q.closing = false) (hqk : q.kind ≠ .localSocket)
    (ht : s.transport ≠ none → q.kind = .remoteSocket) :
    Good (w.onSk fun _ => k.link a w.sk.brk) := by
  have hne : a ≠ w.sk.brk := h.graph.ne_brk ha
  have ha' : k.heap a = some s := by rw [hheap, alloc_heap_of_ne hne, ha]
  have hq' : k.heap w.sk.brk = some q := by rw [hheap, alloc_heap_self]
  refine ⟨hk.link hne ha' hq' hp hq hc hqc (Or.inl hkind) (fun _ => ht)
    (fun hqk' => absurd hqk' hqk), ?_, h.listeners, h.sound⟩
  intro b r hb hr
  rcases heap_link_cases hne ha' hq' hb with ⟨-, rfl⟩ | ⟨-, rfl⟩ | ⟨-, hbne, hb⟩
  · exact absurd hkind hr
  · simp
  · rw [hheap, alloc_heap_of_ne hbne] at hb
    exact h.attached b r hb hr

/-! ### Reading -/

/-- A socket from which the server stops reading, unless it has allowance left. -/
def Asocket.paused (s : Asocket) : Asocket :=
  if s.availableSendBytes.all (· ≤ 0) then { s with fde := { s.fde with read := false } } else s

/-- A socket whose allowance has been used. -/
def Asocket.charge (s : Asocket) (n : ℕ) : Asocket :=
  { s with availableSendBytes := s.availableSendBytes.map (· - (n : ℤ)) }

theorem Asocket.sameLinks_paused : s.SameLinks s.paused := by
  unfold Asocket.paused
  split <;> exact ⟨rfl, rfl, rfl, rfl, rfl⟩

theorem Asocket.packetQueue_paused : s.paused.packetQueue = s.packetQueue := by
  unfold paused
  split <;> rfl

theorem Asocket.Ok.paused (h : s.Ok) : s.paused.Ok := by
  unfold Asocket.paused
  split
  · exact ⟨fun hc => let ⟨h1, h2, h3, h4, _⟩ := h.closing hc; ⟨h1, h2, h3, h4, rfl⟩, h.write,
      h.remote⟩
  · exact h

theorem Asocket.Ok.charge (h : s.Ok) (n : ℕ) : (s.charge n).Ok := ⟨h.closing, h.write, h.remote⟩

theorem stopReading_eq (hs : w.sk.heap a = some s) : stopReading w a = w.upd a Asocket.paused := by
  rw [stopReading, World.deref_of_some hs]
  have hpaused : s.paused = if s.availableSendBytes.all (· ≤ 0) then
      { s with fde := { s.fde with read := false } } else s := rfl
  split
  · rename_i hle
    unfold World.upd World.onSk
    simp only
    rw [upd_congr hs (g := Asocket.paused)]
    rw [hpaused, if_pos hle]
  · rename_i hle
    rw [World.upd_id hs]
    rw [hpaused, if_neg hle]

/-- The packet that carries data. -/
def wrtePacket (s q : Asocket) (data : Bytes) : Apacket :=
  { command := .aWrte, arg0 := s.id, arg1 := q.id, payload := data }

/-- **What a local socket does with data for a remote peer.** -/
theorem sendToPeer_remote (h : w.sk.Graph) (hs : w.sk.heap a = some s) (hp : s.peer = some p)
    (hq : w.sk.heap p = some q) (hkind : q.kind = .remoteSocket) {t : TransportId}
    (ht : q.transport = some t) {data : Bytes} (hlen : data.length ≤ maxPayload) :
    sendToPeer w a p data =
      ((w.log [.outgoing a s.availableSendBytes data, .send t (wrtePacket s q data)]).upd a
        fun s => (s.charge data.length).paused, true) := by
  obtain ⟨hap, q', hq', hqa⟩ := h.exists_peer hs hp
  obtain rfl : q = q' := Option.some.inj (hq.symm.trans hq')
  set w₁ := (w.log [.outgoing a s.availableSendBytes data]).upd a fun s => s.charge data.length
    with hw₁
  have hs₁ : w₁.sk.heap a = some (s.charge data.length) := upd_heap_self hs _
  have hq₁ : w₁.sk.heap p = some q := (upd_heap_of_ne hap.symm _).trans hq
  have henq : enqueue w₁ p data =
      (w₁.log [.send t (wrtePacket s q data)], 1) := by
    simp only [enqueue, enqueueData, remoteSocketEnqueue, hq₁, hkind, hqa, ht, hs₁]
    rw [if_neg (by omega)]
    rfl
  have hstop : stopReading (w₁.log [.send t (wrtePacket s q data)]) a =
      (w₁.log [.send t (wrtePacket s q data)]).upd a Asocket.paused := stopReading_eq hs₁
  unfold sendToPeer
  simp only [hs]
  rw [show (w.emit (.outgoing a s.availableSendBytes data)).upd a (fun s =>
    { s with availableSendBytes := s.availableSendBytes.map (· - (data.length : ℤ)) }) = w₁
    from rfl, henq]
  simp only [Int.reduceLT, if_false, if_true, hstop]
  rw [hw₁, World.log_upd, World.log_log]
  simp only [World.upd, World.onSk, upd_upd]
  rfl

/-- What waking a local socket tells its client. -/
def wakeEvents (a : Addr) (s : Asocket) : List Ev := if s.notify then [.reply a .okay] else []

/-- A local socket from which the server reads. -/
def Asocket.awake (s : Asocket) : Asocket :=
  { s with notify := false, fde := { s.fde with read := true } }

theorem Asocket.sameLinks_awake : s.SameLinks s.awake := ⟨rfl, rfl, rfl, rfl, rfl⟩

theorem Asocket.Ok.awake (h : s.Ok) (hc : s.closing = false) : s.awake.Ok :=
  ⟨fun h' => absurd (hc.symm.trans h') (by simp), h.write, h.remote⟩

/-- **`ready` of a local socket.** -/
theorem ready_eq (hs : w.sk.heap a = some s) (hkind : s.kind = .localSocket) :
    ready w a = (w.log (wakeEvents a s)).upd a Asocket.awake := by
  rw [ready, World.deref_of_some hs]
  simp only [hkind, wakeEvents]
  cases hn : s.notify with
  | true =>
    simp only [if_true, localSocketReadyNotify, localSocketReady, World.reply_eq, World.log_upd]
    simp only [World.upd, World.onSk, upd_upd]
    rfl
  | false =>
    simp only [Bool.false_eq_true, if_false, localSocketReady, World.log_nil, World.upd, World.onSk]
    rw [upd_congr hs (g := Asocket.awake)]
    rw [Asocket.awake, ← hn]

end AdbBridge
