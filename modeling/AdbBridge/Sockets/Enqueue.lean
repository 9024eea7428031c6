import AdbBridge.Sockets.Close

/-!
# Moving data towards a descriptor

The receiving half of a local socket: its queue, the one `adb_writev` that each flush
makes, and the acknowledgements that go back. `enqueue` and `ready` of the other kinds
of sockets are here too, but for the `enqueue` of a smart socket, which reads a
request and may reach any part of the server.
-/

namespace AdbBridge

/-! ### Packets a socket sends -/

/-- `send_ready`. -/
def sendReady (w : World) (localId remoteId : ℕ) (t : TransportId) (ackBytes : ℕ) : World :=
  w.sendPacket t
    { command := .aOkay, arg0 := localId, arg1 := remoteId,
      payload := if (w.transport t).supportsDelayedAck then bytesOfUint32 ackBytes else [] }

/-- `send_close`. -/
def sendClose (w : World) (localId remoteId : ℕ) (t : TransportId) : World :=
  w.sendPacket t { command := .aClse, arg0 := localId, arg1 := remoteId }

/-! ### Flushing the queue -/

inductive SocketFlushResult
  | destroyed
  | tryAgain
  | completed
  deriving DecidableEq, Repr

/-- The most that one `writev` takes: the count is an `int` in the kernel. -/
def writevMax : ℕ := 2 ^ 31 - 1

/-- What the result of `adb_writev` does to the socket, and how many bytes it took.
The call is made with the whole queue and cannot take more than that. -/
def Asocket.afterWritev (s : Asocket) : WritevResult → Asocket × ℕ
  | .accepted n =>
    let rc := min (min n writevMax) s.packetQueue.size
    have h : rc ≤ s.packetQueue.bytes.length := s.packetQueue.size_eq ▸ min_le_right _ _
    have hint : rc < 2 ^ 32 := (min_le_left _ _).trans_lt <| (min_le_right _ _).trans_lt <| by
      decide
    if rc == 0 then ({ s with hasWriteError := true }, 0)
    else if rc == s.packetQueue.size then ({ s with packetQueue := s.packetQueue.clear }, rc)
    else ({ s with packetQueue := s.packetQueue.dropFront rc h hint }, rc)
  | .eagain => (s, 0)
  | .error => ({ s with hasWriteError := true }, 0)

/-- Whether the descriptor is full: `fd_full`. -/
def Asocket.fdFull (s : Asocket) : Bool := !s.packetQueue.empty && !s.hasWriteError

/-- What the trace shows of an `adb_writev`. -/
def writevEvent (a : Addr) (s : Asocket) (rc : WritevResult) : List Ev :=
  match s.afterWritev rc with
  | (_, n + 1) => [.writev a (s.packetQueue.bytes.take (n + 1))]
  | (s', 0) => if s'.hasWriteError then [.writeError a] else []

/-- The first part of `local_socket_flush_incoming`: the state, the socket and the
number of bytes flushed after the write. -/
def flushWritev (w : World) (a : Addr) (s : Asocket) : World × Asocket × ℕ :=
  if s.packetQueue.empty then (w, s, 0)
  else
    let rc := w.io.sys.writev w.io.tick
    let r := s.afterWritev rc
    ((w.tick.log (writevEvent a s rc)).upd a fun _ => r.1, r.1, r.2)

/-- The acknowledgement `local_socket_flush_incoming` sends: with delayed acks the
number of bytes flushed, even if that is nothing; without, a plain request for more
once less than a full packet is left. -/
def flushAck (w : World) (s : Asocket) (bytesFlushed : ℕ) : World :=
  match s.transport, s.peer with
  | some t, some p => w.deref p fun q =>
    if s.availableSendBytes.isSome then
      sendReady w s.id q.id t bytesFlushed
    else if bytesFlushed != 0 && s.packetQueue.size < maxPayload then
      sendReady w s.id q.id t 0
    else w
  | _, _ => w

/-- `local_socket_flush_incoming`. -/
def localSocketFlushIncoming (w : World) (a : Addr) : World × SocketFlushResult :=
  match w.sk.heap a with
  | none => (w.raise .useAfterFree, .completed)
  | some s =>
    let (w, s, bytesFlushed) := flushWritev w a s
    let w := flushAck w s bytesFlushed
    if s.closing && !s.fdFull then (close w a, .destroyed)
    else
      (w.upd a fun s => { s with fde := { s.fde with write := s.fdFull } },
        if s.fdFull then .tryAgain else .completed)

/-! ### Enqueueing -/

/-- `local_socket_enqueue`. -/
def localSocketEnqueue (w : World) (a : Addr) (data : Bytes) : World × ℤ :=
  match w.sk.heap a with
  | none => (w.raise .useAfterFree, 0)
  | some _ =>
    let w := w.upd a fun s => { s with packetQueue := s.packetQueue.append data }
    match localSocketFlushIncoming w a with
    | (w, .destroyed) => (w, -1)
    | (w, .tryAgain) => (w, 1)
    | (w, .completed) => (w, 0)

/-- `remote_socket_enqueue`. -/
def remoteSocketEnqueue (w : World) (a : Addr) (data : Bytes) : World × ℤ :=
  match w.sk.heap a with
  | none => (w.raise .useAfterFree, 0)
  | some s =>
    match s.peer, s.transport with
    | some p, some t =>
      match w.sk.heap p with
      | none => (w.raise .useAfterFree, 0)
      | some q =>
        if data.length > maxPayload then (w, -1)
        else
          (w.sendPacket t { command := .aWrte, arg0 := q.id, arg1 := s.id, payload := data }, 1)
    | _, _ => (w.raise .nullPointer, 0)

/-- `device_tracker_enqueue`. -/
def deviceTrackerEnqueue (w : World) (a : Addr) (_ : Bytes) : World × ℤ :=
  (deviceTrackerClose closeDetached w a, -1)

/-- `s->enqueue(s, data)` where the socket is known not to be a smart one. -/
def enqueueData (w : World) (a : Addr) (data : Bytes) : World × ℤ :=
  match w.sk.heap a with
  | none => (w.raise .useAfterFree, 0)
  | some s =>
    match s.kind with
    | .localSocket => localSocketEnqueue w a data
    | .remoteSocket => remoteSocketEnqueue w a data
    | .deviceTracker => deviceTrackerEnqueue w a data
    | .smartSocket => (w.raise .unexpectedCall, 0)

/-! ### Device trackers -/

/-- The four characters `snprintf` leaves of `"%04x"`. -/
def hexLength (n : ℕ) : Bytes :=
  let ds := ascii (String.ofList (Nat.toDigits 16 n))
  (List.replicate (4 - ds.length) 48 ++ ds).take 4

/-- The text of `list_transports` in the given format. -/
def listTransports (w : World) (o : TrackerOutputType) : Bytes :=
  w.cfg.listTransports o (w.net.transportList.map w.transport)

/-- `device_tracker_send`. -/
def deviceTrackerSend (w : World) (a : Addr) (s : Bytes) : World :=
  w.deref a fun tracker =>
    match tracker.peer with
    | none => w.raise .nullPointer
    | some p => (enqueueData w p (hexLength s.length ++ s)).1

/-- One round of the loop of `update_transports`. -/
def updateTracker (w : World) (a : Addr) : World :=
  w.deref a fun tracker => deviceTrackerSend w a (listTransports w tracker.outputType)

/-- `update_transports`. -/
def updateTransports (w : World) : World := w.sk.deviceTrackerList.foldl updateTracker w

/-! ### Ready -/

/-- `local_socket_ready`. -/
def localSocketReady (w : World) (a : Addr) : World :=
  w.upd a fun s => { s with fde := { s.fde with read := true } }

/-- `local_socket_ready_notify`. -/
def localSocketReadyNotify (w : World) (a : Addr) : World :=
  let w := w.upd a ({ · with notify := false })
  let w := w.reply a .okay
  localSocketReady w a

/-- `remote_socket_ready`. -/
def remoteSocketReady (w : World) (a : Addr) : World :=
  w.deref a fun s =>
    match s.peer, s.transport with
    | some p, some t => w.deref p fun q =>
      w.sendPacket t { command := .aOkay, arg0 := q.id, arg1 := s.id }
    | _, _ => w.raise .nullPointer

/-- `device_tracker_ready`. -/
def deviceTrackerReady (w : World) (a : Addr) : World :=
  w.deref a fun s =>
    if s.updateNeeded then
      let w := w.upd a ({ · with updateNeeded := false })
      deviceTrackerSend w a (listTransports w s.outputType)
    else w

/-- `s->ready(s)`. -/
def ready (w : World) (a : Addr) : World :=
  w.deref a fun s =>
    match s.kind with
    | .localSocket => if s.notify then localSocketReadyNotify w a else localSocketReady w a
    | .remoteSocket => remoteSocketReady w a
    | .smartSocket => w
    | .deviceTracker => deviceTrackerReady w a

/-- `local_socket_ack`. -/
def localSocketAck (w : World) (a : Addr) (ackedBytes : Option ℤ) : World :=
  w.deref a fun s =>
    match s.availableSendBytes, ackedBytes with
    | some n, some v =>
      let w := w.upd a ({ · with availableSendBytes := some (n + v) })
      if n + v > 0 then ready w a else w
    | none, none => ready w a
    | _, _ => w.emit (.ackMismatch a)

end AdbBridge
