import AdbBridge.Graph.Close

/-!
# What flushing and acknowledging do

A flush of a local socket makes one `adb_writev`, sends at most one acknowledgement,
and writes to the one socket. What it writes is `Asocket.settle` of the result of the
call: the interest in writing is what is left to write. The one exception is a closing
socket that has nothing left: it is retired.
-/

namespace AdbBridge

open SockTable

variable {w : World} {a p : Addr} {s q : Asocket}

/-! ### The write -/

/-- The interest in writing says whether there is something to write. -/
def Asocket.settle (s : Asocket) : Asocket := { s with fde := { s.fde with write := s.fdFull } }

/-- The socket after the write of a flush, and the number of bytes flushed. -/
def flushResult (w : World) (s : Asocket) : Asocket × ℕ :=
  if s.packetQueue.empty then (s, 0) else s.afterWritev (w.io.sys.writev w.io.tick)

/-- The world after the write of a flush, but for the socket. -/
def flushWorld (w : World) (a : Addr) (s : Asocket) : World :=
  if s.packetQueue.empty then w
  else w.tick.log (writevEvent a s (w.io.sys.writev w.io.tick))

/-- Two sockets that differ in nothing but data. -/
structure Asocket.SameLinks (s s' : Asocket) : Prop where
  kind : s'.kind = s.kind
  id : s'.id = s.id
  closing : s'.closing = s.closing
  peer : s'.peer = s.peer
  transport : s'.transport = s.transport

theorem Asocket.SameLinks.role {s' : Asocket} (h : s.SameLinks s') : s'.role = s.role := by
  rw [Asocket.role, Asocket.role, h.kind, h.id, h.closing]

namespace Asocket

variable (s) (rc : WritevResult)

/-- A write changes the queue and the error flag. -/
theorem afterWritev_fst : (s.afterWritev rc).1 =
    { s with
      packetQueue := (s.afterWritev rc).1.packetQueue
      hasWriteError := (s.afterWritev rc).1.hasWriteError } := by
  cases rc with
  | accepted n =>
    simp only [afterWritev]
    split
    · rfl
    · split <;> rfl
  | eagain | error => rfl

/-- **What is left in the queue is what was not written.** -/
theorem afterWritev_bytes :
    (s.afterWritev rc).1.packetQueue.bytes = s.packetQueue.bytes.drop (s.afterWritev rc).2 := by
  cases rc with
  | accepted n =>
    simp only [afterWritev]
    split
    · simp
    · split
      · rename_i h
        simp only [beq_iff_eq] at h
        rw [PacketQueue.bytes_clear, h, s.packetQueue.size_eq, List.drop_length]
      · simp
  | eagain | error => simp [afterWritev]

end Asocket

/-- A flush changes the queue and the error flag. -/
theorem flushResult_fst : (flushResult w s).1 =
    { s with
      packetQueue := (flushResult w s).1.packetQueue
      hasWriteError := (flushResult w s).1.hasWriteError } := by
  unfold flushResult
  split
  · rfl
  · exact s.afterWritev_fst _

theorem sameLinks_flushResult : s.SameLinks (flushResult w s).1 := by
  rw [flushResult_fst]
  exact ⟨rfl, rfl, rfl, rfl, rfl⟩

theorem flushResult_bytes :
    (flushResult w s).1.packetQueue.bytes = s.packetQueue.bytes.drop (flushResult w s).2 := by
  unfold flushResult
  split
  · simp
  · exact s.afterWritev_bytes _

theorem flushWritev_eq (hs : w.sk.heap a = some s) : flushWritev w a s =
    ((flushWorld w a s).upd a fun _ => (flushResult w s).1, flushResult w s) := by
  unfold flushWritev flushWorld flushResult
  split
  · rw [World.upd_id hs rfl]
  · rfl

/-! ### The acknowledgement -/

/-- The packet of `send_ready`. -/
def readyPacket (w : World) (localId remoteId : ℕ) (t : TransportId) (ackBytes : ℕ) : Apacket :=
  { command := .aOkay, arg0 := localId, arg1 := remoteId,
    payload := if (w.transport t).supportsDelayedAck then bytesOfUint32 ackBytes else [] }

theorem sendReady_eq (l r : ℕ) (t : TransportId) (n : ℕ) :
    sendReady w l r t n = w.log [.send t (readyPacket w l r t n)] := rfl

/-- The acknowledgement that a flush sends. -/
def ackEvents (w : World) (s : Asocket) (n : ℕ) : List Ev :=
  match s.transport, s.peer.bind w.sk.heap with
  | some t, some q =>
    if s.availableSendBytes.isSome then [.send t (readyPacket w s.id q.id t n)]
    else if n != 0 && s.packetQueue.size < maxPayload then
      [.send t (readyPacket w s.id q.id t 0)]
    else []
  | _, _ => []

theorem flushAck_eq (hp : ∀ p, s.peer = some p → (w.sk.heap p).isSome) (n : ℕ) :
    flushAck w s n = w.log (ackEvents w s n) := by
  unfold flushAck ackEvents
  cases ht : s.transport with
  | none => simp
  | some t =>
    cases hpeer : s.peer with
    | none => simp
    | some p =>
      obtain ⟨q, hq⟩ := Option.isSome_iff_exists.mp (hp p hpeer)
      simp only [Option.bind_some, hq]
      rw [World.deref_of_some hq]
      split
      · rfl
      · split
        · rfl
        · simp

theorem ackEvents_congr {w' : World} (hnet : w'.net = w.net)
    (hp : ∀ p, s.peer = some p → w'.sk.heap p = w.sk.heap p) (n : ℕ) :
    ackEvents w' s n = ackEvents w s n := by
  have hbind : s.peer.bind w'.sk.heap = s.peer.bind w.sk.heap := by
    cases hpeer : s.peer with
    | none => rfl
    | some p => exact hp p hpeer
  unfold ackEvents readyPacket World.transport
  rw [hnet, hbind]

/-! ### The flush -/

/-- What a flush tells the world: the write and the acknowledgement. -/
def flushLog (w : World) (a : Addr) (s : Asocket) : World :=
  (flushWorld w a s).log (ackEvents w (flushResult w s).1 (flushResult w s).2)

@[simp] theorem flushLog_sk : (flushLog w a s).sk = w.sk := by
  unfold flushLog flushWorld
  split <;> rfl

@[simp] theorem flushLog_net : (flushLog w a s).net = w.net := by
  unfold flushLog flushWorld
  split <;> rfl

@[simp] theorem flushLog_cfg : (flushLog w a s).cfg = w.cfg := by
  unfold flushLog flushWorld
  split <;> rfl

@[simp] theorem flushLog_fault : (flushLog w a s).fault = w.fault := by
  unfold flushLog flushWorld
  split <;> rfl

section Flush

variable (hs : w.sk.heap a = some s) (hp : ∀ p, s.peer = some p → p ≠ a ∧ (w.sk.heap p).isSome)

include hs hp

/-- The flush up to the point where a closing socket goes another way. -/
theorem localSocketFlushIncoming_eq : localSocketFlushIncoming w a =
    if s.closing && !(flushResult w s).1.fdFull then
      (close ((flushLog w a s).upd a fun _ => (flushResult w s).1) a, .destroyed)
    else
      ((flushLog w a s).upd a fun _ => (flushResult w s).1.settle,
        if (flushResult w s).1.fdFull then .tryAgain else .completed) := by
  have hlinks : s.SameLinks (flushResult w s).1 := sameLinks_flushResult
  have hheap : ∀ p, (flushResult w s).1.peer = some p →
      ((flushWorld w a s).upd a fun _ => (flushResult w s).1).sk.heap p = w.sk.heap p := by
    intro p hpp
    have hpa := (hp p (hlinks.peer ▸ hpp)).1
    rw [World.upd_sk, upd_heap_of_ne hpa]
    unfold flushWorld
    split <;> rfl
  have hack := flushAck_eq (w := (flushWorld w a s).upd a fun _ => (flushResult w s).1)
    (s := (flushResult w s).1) (fun p hpp => by
      rw [hheap p hpp]
      exact (hp p (hlinks.peer ▸ hpp)).2) (flushResult w s).2
  rw [ackEvents_congr (w := w) (by unfold flushWorld; split <;> rfl) hheap] at hack
  unfold localSocketFlushIncoming
  simp only [hs, flushWritev_eq hs, hack, hlinks.closing, World.log_upd]
  split
  · rfl
  · simp only [World.upd, World.onSk, upd_upd]
    rfl

/-- A flush of a socket that is not closing. -/
theorem localSocketFlushIncoming_of_open (hc : s.closing = false) :
    localSocketFlushIncoming w a =
      ((flushLog w a s).upd a fun _ => (flushResult w s).1.settle,
        if (flushResult w s).1.fdFull then .tryAgain else .completed) := by
  rw [localSocketFlushIncoming_eq hs hp, hc, Bool.false_and, if_neg (by simp)]

end Flush

/-- **A closing socket that has nothing left to write is destroyed.** -/
theorem localSocketFlushIncoming_of_done (hs : w.sk.heap a = some s) (hp : s.peer = none)
    (hkind : s.kind = .localSocket) (hc : s.closing = true)
    (hdone : (flushResult w s).1.fdFull = false) : localSocketFlushIncoming w a =
      (((flushLog w a s).log (noticeEvents a (flushResult w s).1 ++ [.destroy a])).onSk
        (·.retire a), .destroyed) := by
  have hlinks : s.SameLinks (flushResult w s).1 := sameLinks_flushResult
  have hl : s.lingers = false := by simp [Asocket.lingers, hc]
  have hl' : (flushResult w s).1.lingers = false := by
    simp [Asocket.lingers, hlinks.closing.trans hc]
  have hs' : ((flushLog w a s).upd a fun _ => (flushResult w s).1).sk.heap a =
      some (flushResult w s).1 := upd_heap_self (by rwa [flushLog_sk]) _
  have hretire : (w.sk.upd a fun _ => (flushResult w s).1).retire a = w.sk.retire a := by
    rw [retire_of_local (upd_heap_self hs _) (hlinks.kind.trans hkind) hl',
      retire_of_local hs hkind hl]
    exact free_upd (k := w.sk.removeSocket a) _
  rw [localSocketFlushIncoming_eq hs (by simp [hp]), hc, hdone, Bool.not_false, Bool.and_self,
    if_pos rfl, close,
    closeWith_eq_of_alone _ hs' (by simp [hl']) (hlinks.peer.trans hp), farewellEvents,
    if_pos (hlinks.kind.trans hkind), hl', if_neg (by simp)]
  simp only [World.onSk, World.log_sk, World.upd_sk, flushLog_sk, hretire]
  rfl

/-! ### Enqueueing -/

/-- Data at the back of the queue. -/
def Asocket.push (s : Asocket) (data : Bytes) : Asocket :=
  { s with packetQueue := s.packetQueue.append data }

/-- The socket after `local_socket_enqueue`. -/
def enqueued (w : World) (s : Asocket) (data : Bytes) : Asocket :=
  (flushResult w (s.push data)).1.settle

theorem sameLinks_enqueued (data : Bytes) : s.SameLinks (enqueued w s data) := by
  have h : (s.push data).SameLinks (flushResult w (s.push data)).1 := sameLinks_flushResult
  exact ⟨h.kind, h.id, h.closing, h.peer, h.transport⟩

theorem flushLog_upd {f : Asocket → Asocket} (hp : ∀ p, s.peer = some p → p ≠ a) :
    flushLog (w.upd a f) a s = (flushLog w a s).upd a f := by
  have hack : ackEvents (w.upd a f) (flushResult w s).1 (flushResult w s).2 =
      ackEvents w (flushResult w s).1 (flushResult w s).2 := by
    refine ackEvents_congr (World.upd_net f) (fun p hpp => ?_) _
    exact upd_heap_of_ne (hp p (sameLinks_flushResult.peer ▸ hpp)) f
  unfold flushLog
  rw [show flushResult (w.upd a f) s = flushResult w s from rfl, hack]
  unfold flushWorld
  split <;> rfl

/-- **What `local_socket_enqueue` does** to a socket that is not closing. -/
theorem localSocketEnqueue_eq (hs : w.sk.heap a = some s)
    (hp : ∀ p, s.peer = some p → p ≠ a ∧ (w.sk.heap p).isSome) (hc : s.closing = false)
    (data : Bytes) : localSocketEnqueue w a data =
      ((flushLog w a (s.push data)).upd a fun _ => enqueued w s data,
        if (flushResult w (s.push data)).1.fdFull then 1 else 0) := by
  have hs' : (w.upd a fun s => s.push data).sk.heap a = some (s.push data) :=
    upd_heap_self hs _
  have hp' : ∀ p, (s.push data).peer = some p → p ≠ a ∧
      ((w.upd a fun s => s.push data).sk.heap p).isSome := by
    intro p hpp
    refine ⟨(hp p hpp).1, ?_⟩
    rw [World.upd_sk, upd_heap_of_ne (hp p hpp).1]
    exact (hp p hpp).2
  have hworld : (flushLog (w.upd a fun s => s.push data) a (s.push data)).upd a
      (fun _ => enqueued w s data) =
        (flushLog w a (s.push data)).upd a fun _ => enqueued w s data := by
    rw [flushLog_upd (s := s.push data) fun p hpp => (hp p hpp).1]
    simp only [World.upd, World.onSk, upd_upd]
    rfl
  have hflush : localSocketFlushIncoming (w.upd a fun s => s.push data) a =
      ((flushLog w a (s.push data)).upd a fun _ => enqueued w s data,
        if (flushResult w (s.push data)).1.fdFull then .tryAgain else .completed) := by
    rw [← hworld]
    exact localSocketFlushIncoming_of_open hs' hp' hc
  unfold localSocketEnqueue
  simp only [hs]
  rw [show (w.upd a fun s => { s with packetQueue := s.packetQueue.append data }) =
    w.upd a fun s => s.push data from rfl, hflush]
  cases (flushResult w (s.push data)).1.fdFull <;> rfl

end AdbBridge
