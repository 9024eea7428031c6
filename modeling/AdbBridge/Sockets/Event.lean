import AdbBridge.Sockets.Smart

/-!
# Events on a descriptor

The sending half of a local socket, and the function the event loop calls when
something happens on a descriptor.
-/

namespace AdbBridge

/-- The `while` loop of `local_socket_flush_outgoing`: the bytes read and whether the
descriptor is at its end. Every round but the last reads a byte at least, so that
`avail` rounds are enough. -/
def readLoop (a : Addr) : ℕ → ℕ → World → Bytes → World × Bytes × Bool
  | 0, _, w, data => (w, data, false)
  | n + 1, avail, w, data =>
    if avail = 0 then (w, data, false)
    else
      match w.io.sys.read w.io.tick with
      | .eagain => (w.tick, data, false)
      | .error => (w.tick, data, true)
      | .data bs =>
        let bs := bs.take avail
        if bs.isEmpty then (w.tick, data, true)
        else readLoop a n (avail - bs.length) (w.tick.emit (.read a bs)) (data ++ bs)

/-- The end of a call of `enqueue` that found the peer busy: stop reading, unless the
far end still takes more. -/
def stopReading (w : World) (a : Addr) : World :=
  w.deref a fun s =>
    if s.availableSendBytes.all (· ≤ 0) then
      w.upd a fun s => { s with fde := { s.fde with read := false } }
    else w

/-- Hand what was read to the peer; `false` if the socket is gone afterwards. -/
def sendToPeer (w : World) (a p : Addr) (data : Bytes) : World × Bool :=
  match w.sk.heap a with
  | none => (w.raise .useAfterFree, false)
  | some s =>
    let w := w.emit (.outgoing a s.availableSendBytes data)
    let w := w.upd a fun s =>
      { s with availableSendBytes := s.availableSendBytes.map (· - (data.length : ℤ)) }
    match enqueue w p data with
    | (w, r) =>
      if r < 0 then (w, false)
      else if 0 < r then (stopReading w a, true)
      else (w, true)

/-- `local_socket_flush_outgoing`. -/
def localSocketFlushOutgoing (w : World) (a : Addr) : World × Bool :=
  match w.sk.heap a with
  | none => (w.raise .useAfterFree, false)
  | some s =>
    let m := getMaxPayload w s
    let (w, data, isEof) := readLoop a m m w []
    let (w, alive) := match s.peer with
      | none => (w, true)
      | some p => if data.isEmpty then (w, true) else sendToPeer w a p data
    if !alive then (w, false)
    else if isEof then (close w a, false)
    else (w, true)

/-- `local_socket_event_func`. An error event does nothing by itself: the next read or
write will meet it. -/
def localSocketEventFunc (w : World) (a : Addr) (ev : Fdevent) : World :=
  let (w, destroyed) :=
    if ev.write then
      match localSocketFlushIncoming w a with
      | (w, r) => (w, r == .destroyed)
    else (w, false)
  if ev.read && !destroyed then (localSocketFlushOutgoing w a).1 else w

/-! ### Connections of clients -/

/-- `ss_listener_event_func`, once a connection has been accepted. -/
def ssListenerEventFunc (w : World) : World :=
  let (w, a) := createLocalSocket w
  connectToSmartsocket w a

/-- `listener_event_func`, once a connection has been accepted. -/
def listenerEventFunc (w : World) (l : Alistener) : World :=
  let (w, a) := createLocalSocket w
  let w := w.upd a ({ · with transport := l.transport })
  connectToRemote w a l.connectTo

end AdbBridge
