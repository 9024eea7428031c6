import AdbBridge.Sockets.Event

/-!
# Packets

`handle_packet`. The four commands that carry streams are the same on the host and on
the device, but for the check that the host makes before it lets the device open a
connection; the handshake is the host's.
-/

namespace AdbBridge

/-! ### Streams -/

/-- The acknowledgement a payload of `A_OKAY` carries: none at all if it is empty, and
an error if it has any length but four. -/
def ackedBytes (payload : Bytes) : Except Unit (Option ℤ) :=
  if payload.isEmpty then .ok none
  else match int32OfBytes payload with
    | some v => .ok (some v)
    | none => .error ()

/-- Give a local socket a new remote socket for its peer. -/
def joinRemote (w : World) (a : Addr) (id : ℕ) (t : TransportId) : World × Addr :=
  let (w, r) := createRemoteSocket w id t
  let w := w.upd a ({ · with peer := some r })
  (w.upd r ({ · with peer := some a }), r)

/-- The end of `A_OPEN`: tell the far end, and start reading. -/
def startStream (w : World) (t : TransportId) (p : Apacket) (a r : Addr) : World :=
  w.deref a fun s => w.deref r fun q =>
    let w := if (w.transport t).supportsDelayedAck then
        let w := w.upd a ({ · with availableSendBytes := some (p.arg1 : ℤ) })
        sendReady w s.id q.id t initialDelayedAckBytes
      else sendReady w s.id q.id t 0
    ready w a

/-- The rest of `A_OPEN`, once the destination has been let through. -/
def acceptOpen (w : World) (t : TransportId) (p : Apacket) (address : Bytes) : World :=
  match createLocalServiceSocket w address t with
  | (w, none) => sendClose w 0 p.arg0 t
  | (w, some a) =>
    let (w, r) := joinRemote w a p.arg0 t
    startStream w t p a r

/-- The check of the host on `A_OPEN`: `IsReverseConfigured` is handed the data of a
`string_view` as a C string. -/
def checkReverse (w : World) (t : TransportId) (p : Apacket) : World × Bool :=
  let beyond := w.io.sys.beyond w.io.tick
  let w := w.emit (.scan (cStringExtent p.payload beyond) p.payload.length)
  (w.tick, (w.transport t).isReverseConfigured (cString p.payload beyond))

/-- The `A_OPEN` case of `handle_packet`. -/
def handleOpen (w : World) (t : TransportId) (p : Apacket) : World :=
  if !(w.transport t).online || p.arg0 = 0 then w
  else if (w.transport t).supportsDelayedAck != decide (p.arg1 ≠ 0) then sendClose w 0 p.arg0 t
  else
    let address := stripTrailingNulls p.payload
    if w.cfg.adbHost then
      match checkReverse w t p with
      | (w, false) => w.raise .disallowedConnect
      | (w, true) => acceptOpen w t p address
    else acceptOpen w t p address

/-- The `A_OKAY` case of `handle_packet`, for a socket that has been found. -/
def okaySocket (w : World) (t : TransportId) (p : Apacket) (a : Addr) (acked : Option ℤ) : World :=
  w.deref a fun s =>
    match s.peer with
    | none =>
      let (w, _) := joinRemote w a p.arg0 t
      let w := localSocketAck w a acked
      ready w a
    | some q => w.deref q fun peer =>
      if peer.id = p.arg0 then localSocketAck w a acked else w

/-- The `A_OKAY` case of `handle_packet`. -/
def handleOkay (w : World) (t : TransportId) (p : Apacket) : World :=
  if (w.transport t).online && p.arg0 != 0 && p.arg1 != 0 then
    match findLocalSocket w.sk p.arg1 0 with
    | none => sendClose w p.arg1 p.arg0 t
    | some a =>
      match ackedBytes p.payload with
      | .error () => w
      | .ok acked => okaySocket w t p a acked
  else w

/-- The `A_CLSE` case of `handle_packet`. -/
def handleClse (w : World) (t : TransportId) (p : Apacket) : World :=
  if (w.transport t).online && p.arg1 != 0 then
    match findLocalSocket w.sk p.arg1 p.arg0 with
    | none => w
    | some a => w.deref a fun s =>
      if p.arg0 = 0 ∧ s.peer.isSome ∧ peerTransport w.sk s ≠ some t then w else close w a
  else w

/-- The `A_WRTE` case of `handle_packet`. -/
def handleWrte (w : World) (t : TransportId) (p : Apacket) : World :=
  if (w.transport t).online && p.arg0 != 0 && p.arg1 != 0 then
    match findLocalSocket w.sk p.arg1 p.arg0 with
    | none => w
    | some a => (enqueue w a p.payload).1
  else w

/-! ### The dispatcher -/

/-- `handle_packet`. -/
def handlePacket (w : World) (t : TransportId) (p : Apacket) : World :=
  let w := w.emit (.recv t p)
  match p.command with
  | .aCnxn => handleNewConnection w t p
  | .aStls => sendTlsRequest (w.updTransport t ({ · with useTls := true })) t
  | .aAuth => handleAuth w t p
  | .aOpen => handleOpen w t p
  | .aOkay => handleOkay w t p
  | .aClse => handleClse w t p
  | .aWrte => handleWrte w t p
  | .other _ => w

end AdbBridge
