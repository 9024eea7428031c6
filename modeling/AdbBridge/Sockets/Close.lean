import AdbBridge.World

/-!
# Making, finding and closing sockets

The part of `sockets.cpp` that decides which sockets exist. Closing is re-entrant in
the source: closing a socket closes its peer, after the peer's pointer back has been
cleared. So a close nests at most once, and `close` is written as two layers over
`closeWith`, the inner one for a socket that has lost its peer. Should a close nest
deeper than that, the model dies of `Fault.unexpectedCall`; that this never happens
is part of the invariant of the socket graph.

What `deferred_close` does to a descriptor after its socket is gone is left out: it
touches no socket.
-/

namespace AdbBridge

/-! ### Lookup -/

/-- `find_local_socket`. Only the first socket with the local id is looked at. -/
def findLocalSocket (k : SockTable) (localId peerId : ℕ) : Option Addr :=
  match k.localSocketList.find? fun a => (k.heap a).any (·.id == localId) with
  | none => none
  | some a =>
    if peerId == 0 || (((k.heap a).bind (·.peer)).bind k.heap).any (·.id == peerId) then some a
    else none

/-- The transport of a socket's peer. -/
def peerTransport (k : SockTable) (s : Asocket) : Option TransportId :=
  (s.peer.bind k.heap).bind (·.transport)

/-- The condition under which `close_all_sockets(t)` closes a socket. -/
def boundTo (k : SockTable) (t : TransportId) (a : Addr) : Bool :=
  (k.heap a).any fun s => s.transport == some t || peerTransport k s == some t

/-- `asocket::get_max_payload`. -/
def getMaxPayload (w : World) (s : Asocket) : ℕ :=
  let m := maxPayload
  let m := s.transport.elim m fun t => min m (w.transport t).maxPayload
  (peerTransport w.sk s).elim m fun t => min m (w.transport t).maxPayload

/-! ### Making sockets -/

/-- `install_local_socket`. The counter has 32 bits in the source; it never comes
round, since the process ends when it would. -/
def installLocalSocket (w : World) (a : Addr) : World :=
  let id := w.sk.localSocketNextId
  let w := w.upd a ({ · with id := id })
  let w := w.onSk fun k =>
    { k with localSocketNextId := id + 1, localSocketList := k.localSocketList ++ [a] }
  w.check (id + 1 != 2 ^ 32) .localSocketIdOverflow

/-- `create_local_socket`. -/
def createLocalSocket (w : World) : World × Addr :=
  let a := w.sk.brk
  (installLocalSocket (w.onSk (·.alloc { kind := .localSocket })) a, a)

/-- `create_remote_socket`. -/
def createRemoteSocket (w : World) (id : ℕ) (t : TransportId) : World × Addr :=
  let w := w.check (id != 0) .invalidRemoteId
  (w.onSk (·.alloc { kind := .remoteSocket, id := id, transport := some t }), w.sk.brk)

/-- `create_smart_socket`. -/
def createSmartSocket (w : World) : World × Addr :=
  (w.onSk (·.alloc { kind := .smartSocket }), w.sk.brk)

/-- `create_device_tracker`. -/
def createDeviceTracker (w : World) (outputType : TrackerOutputType) : World × Addr :=
  let a := w.sk.brk
  let s : Asocket := { kind := .deviceTracker, updateNeeded := true, outputType := outputType }
  (w.onSk fun k => { k.alloc s with deviceTrackerList := a :: k.deviceTrackerList }, a)

/-! ### Closing -/

/-- `remote_socket_shutdown`. -/
def remoteSocketShutdown (w : World) (a : Addr) : World :=
  w.deref a fun s =>
    match s.transport with
    | none => w.raise .nullPointer
    | some t =>
      match s.peer with
      | none => w.sendPacket t { command := .aClse, arg0 := 0, arg1 := s.id }
      | some p => w.deref p fun q =>
        w.sendPacket t { command := .aClse, arg0 := q.id, arg1 := s.id }

/-- `s->shutdown(s)`, where there is one. -/
def shutdown (w : World) (a : Addr) : World :=
  w.deref a fun s =>
    match s.kind with
    | .remoteSocket => remoteSocketShutdown w a
    | _ => w

/-- `local_socket_destroy`. -/
def localSocketDestroy (w : World) (a : Addr) : World :=
  (w.emit (.destroy a)).onSk fun k => (k.removeSocket a).free a

/-- `local_socket_close`, after the peer is gone. -/
def localSocketCloseRest (w : World) (a : Addr) : World :=
  w.deref a fun s =>
    if s.closing || s.hasWriteError || s.packetQueue.empty then
      localSocketDestroy w a
    else
      let w := w.upd a fun s => { s with closing := true, fde := { s.fde with read := false } }
      let w := w.onSk (·.removeSocket a)
      let w := w.onSk fun k =>
        { k with localSocketClosingList := k.localSocketClosingList ++ [a] }
      (w.emit (.closing a s.packetQueue.bytes)).check s.fde.write .checkFdeWrite

section CloseWith

variable (closePeer : World → Addr → World) (w : World) (a : Addr)

/-- `local_socket_close`. The peer is shut down first, while it can still tell the id
of the socket it was connected to. -/
def localSocketClose : World :=
  w.deref a fun s =>
    match s.peer with
    | none => localSocketCloseRest w a
    | some p =>
      let w := shutdown w p
      let w := w.upd p ({ · with peer := none })
      let w := closePeer w p
      let w := w.upd a ({ · with peer := none })
      localSocketCloseRest w a

/-- `local_socket_close_notify`. -/
def localSocketCloseNotify : World :=
  let w := w.upd a ({ · with notify := false })
  let w := w.reply a (.fail (ascii "closed"))
  localSocketClose closePeer w a

/-- What `remote_socket_close`, `smart_socket_close` and `device_tracker_close` do
first. -/
def closePeerOf : World :=
  w.deref a fun s =>
    match s.peer with
    | none => w
    | some p => closePeer (w.upd p ({ · with peer := none })) p

/-- `remote_socket_close`. -/
def remoteSocketClose : World := (closePeerOf closePeer w a).onSk (·.free a)

/-- `smart_socket_close`. -/
def smartSocketClose : World := (closePeerOf closePeer w a).onSk (·.free a)

/-- `device_tracker_close`. -/
def deviceTrackerClose : World :=
  (closePeerOf closePeer w a).onSk fun k => (k.deviceTrackerRemove a).free a

/-- `s->close(s)`, given what closing the peer does. -/
def closeWith : World :=
  w.deref a fun s =>
    match s.kind with
    | .localSocket =>
      if s.notify then localSocketCloseNotify closePeer w a else localSocketClose closePeer w a
    | .remoteSocket => remoteSocketClose closePeer w a
    | .smartSocket => smartSocketClose closePeer w a
    | .deviceTracker => deviceTrackerClose closePeer w a

end CloseWith

/-- `s->close(s)` of a socket whose peer has been taken away. -/
def closeDetached : World → Addr → World := closeWith fun w _ => w.raise .unexpectedCall

/-- `s->close(s)`. -/
def close : World → Addr → World := closeWith closeDetached

/-- The `restart` loop of `close_all_sockets`. Every round takes a socket off the
list, so that the length of the list bounds the number of rounds. -/
def closeAllSocketsLoop (t : TransportId) : ℕ → World → World
  | 0, w => w
  | n + 1, w =>
    match w.sk.localSocketList.find? (boundTo w.sk t) with
    | none => w
    | some a => closeAllSocketsLoop t n (close w a)

/-- `close_all_sockets`. -/
def closeAllSockets (w : World) (t : TransportId) : World :=
  closeAllSocketsLoop t w.sk.localSocketList.length w

end AdbBridge
