import AdbBridge.Transport.State

/-!
# Finding, attaching and losing transports

The rest of what the main thread does to the table of transports: the choice of a
transport for a client, kicking, attaching and detaching, and the registration and
removal that the threads of a connection queue for it.
-/

namespace AdbBridge

/-! ### The choice of a transport -/

/-- What the search has come to. -/
structure Search where
  result : Option TransportId := none
  error : Bytes
  isAmbiguous : Bool := false

/-- What is searched for. Without a text for an ambiguous choice, the first match is taken. -/
structure TransportSelector where
  isMatch : TransportId → Bool
  ambiguous : Option Bytes
  notFound : Bytes

/-- The selector of a request: the id, or else the serial, or else the type. -/
def selectorOf (w : World) (type : TransportType) (serial : Option Bytes)
    (transportId : TransportId) : TransportSelector :=
  if transportId ≠ 0 then
    ⟨(· == transportId), none,
      ascii "no device with transport id '" ++ decimal transportId ++ ascii "'"⟩
  else
    match serial with
    | some s =>
      ⟨fun t => w.cfg.matchesTarget (w.transport t) s,
        some (ascii "more than one device with serial " ++ s),
        ascii "device '" ++ s ++ ascii "' not found"⟩
    | none =>
      match type with
      | .kTransportUsb =>
        ⟨fun t => (w.transport t).type == .kTransportUsb, some (ascii "more than one USB device"),
          ascii "no devices found"⟩
      | .kTransportLocal =>
        ⟨fun t => (w.transport t).type == .kTransportLocal, some (ascii "more than one emulator"),
          ascii "no emulators found"⟩
      | .kTransportAny =>
        ⟨fun _ => true, some (ascii "more than one device/emulator"),
          ascii "no devices/emulators found"⟩
      | .kTransportHost => ⟨fun _ => false, none, ascii "no devices found"⟩

/-- The loop of `acquire_one_transport`. -/
def searchLoop (w : World) (sel : TransportSelector) : List TransportId → Search → Search
  | [], s => s
  | t :: ts, s =>
    if (w.transport t).connectionState = .kCsNoPerm then
      searchLoop w sel ts { s with error := w.cfg.usbNoPermissionsLongHelpText }
    else if sel.isMatch t then
      match sel.ambiguous with
      | none => { s with result := some t }
      | some msg =>
        if s.result.isSome then { result := none, error := msg, isAmbiguous := true }
        else searchLoop w sel ts { s with result := some t }
    else searchLoop w sel ts s

/-- Why a transport in this state is of no use to a client. -/
def inactiveMessage (cfg : Config) : ConnectionState → Option Bytes
  | .kCsConnecting => some (ascii "device still connecting")
  | .kCsAuthorizing => some (ascii "device still authorizing")
  | .kCsUnauthorized =>
    some (ascii "device unauthorized.\n" ++ ascii "This adb server's $ADB_VENDOR_KEYS is " ++
      cfg.adbVendorKeys.getD (ascii "not set") ++ ascii "\n" ++
      ascii "Try 'adb kill-server' if that seems wrong.\n" ++
      ascii "Otherwise check for a confirmation dialog on your device.")
  | .kCsOffline => some (ascii "device offline")
  | _ => none

/-- `acquire_one_transport`, with `is_ambiguous` and `error_out`. A serial is a C string, and an id
of `0` none at all. -/
def acquireOneTransport (w : World) (type : TransportType) (serial : Option Bytes)
    (transportId : TransportId) (acceptAnyState : Bool) : Search :=
  let sel := selectorOf w type serial transportId
  let found := searchLoop w sel w.net.transportList { error := sel.notFound }
  match found.result with
  | none => found
  | some t =>
    if acceptAnyState then { found with error := ascii "success" }
    else match inactiveMessage w.cfg (w.transport t).connectionState with
      | some error => { found with result := none, error := error }
      | none => { found with error := ascii "success" }

/-- `find_transport`. -/
def findTransport (w : World) (serial : Bytes) : Option TransportId :=
  w.net.transportList.find? fun t => (w.transport t).serial == serial

/-- `atransport::serial_name`. -/
def Atransport.serialName (x : Atransport) : Bytes :=
  if x.serial.isEmpty then ascii "<unknown>" else x.serial

/-! ### Kicking -/

/-- `atransport::Kick` and `atransport::Reset`. The connection is stopped, which its
threads report as an error later on. -/
def kick (w : World) (t : TransportId) : World := w.updTransport t ({ · with kicked := true })

/-- `kick_transport`. -/
def kickTransport (w : World) (t : TransportId) : World :=
  if t ∈ w.net.transportList then kick w t else w

/-- `close_usb_devices` and `kick_all_tcp_devices`. -/
def kickWhere (w : World) (p : Atransport → Bool) : World :=
  (w.net.transportList.filter fun t => p (w.transport t)).foldl kick w

/-! ### Attaching and detaching -/

/-- `Connection::Attach` and `Connection::Detach`: only a USB connection can do it. -/
def connectionAttach (w : World) (t : TransportId) (what : Bytes) : World × Except Bytes Unit :=
  if (w.transport t).type = .kTransportUsb then (w.tick, w.io.sys.attach w.io.tick)
  else (w, .error (ascii "transport type doesn't support " ++ what))

/-- `atransport::Attach`. -/
def attach (w : World) (t : TransportId) : World × Except Bytes Unit :=
  if !w.cfg.libusbEnabled then
    (w, .error (ascii "attach/detach only implemented for libusb backend"))
  else if (w.transport t).connectionState ≠ .kCsDetached then
    (w, .error (ascii "transport " ++ (w.transport t).serial ++ ascii " is not detached"))
  else
    let w := w.updTransport t ({ · with keys := [] })
    match connectionAttach w t (ascii "attach") with
    | (w, .error e) => (w, .error e)
    | (w, .ok ()) => (sendConnect (w.updTransport t ({ · with conn := .running })) t, .ok ())

/-- `atransport::Detach`. -/
def detach (w : World) (t : TransportId) : World × Except Bytes Unit :=
  if !w.cfg.libusbEnabled then
    (w, .error (ascii "attach/detach only implemented for libusb backend"))
  else if (w.transport t).connectionState = .kCsDetached then
    (w, .error (ascii "transport " ++ (w.transport t).serial ++ ascii " is already detached"))
  else
    let w := handleOffline w t
    match connectionAttach w t (ascii "detach") with
    | (w, .error e) => (w, .error e)
    | (w, .ok ()) => (setConnectionState w t .kCsDetached, .ok ())

/-! ### What is queued for the main thread -/

/-- `transport_destroy`. A TCP connection that broke is handed to the reconnect
handler, any other is queued for removal. -/
def transportDestroy (w : World) (t : TransportId) : World :=
  let w := w.updTransport t ({ · with conn := .stopped })
  if (w.transport t).type = .kTransportLocal ∧ !(w.transport t).kicked then
    w.updTransport t ({ · with keys := [] })
  else w.updTransport t ({ · with removalQueued := true })

/-- What `atransport::HandleError` runs on the main thread. -/
def handleError (w : World) (t : TransportId) : World := transportDestroy (handleOffline w t) t

/-- `fdevent_unregister_transport`. -/
def fdeventUnregisterTransport (w : World) (t : TransportId) : World :=
  let w := w.onNet fun n => { n with transportList := n.transportList.filter (· != t) }
  updateTransports (w.updTransport t ({ · with alive := false }))

/-- `fdevent_register_transport`. -/
def fdeventRegisterTransport (w : World) (t : TransportId) : World :=
  let w :=
    if (w.transport t).connectionState = .kCsNoPerm then w
    else if (w.transport t).type = .kTransportUsb ∧ w.cfg.usbDevicesStartDetached then
      setConnectionState w t .kCsDetached
    else sendConnect (w.updTransport t ({ · with conn := .running })) t
  let w := w.onNet fun n =>
    if t ∈ n.pendingList then
      { n with
        pendingList := n.pendingList.filter (· != t)
        transportList := t :: n.transportList }
    else n
  updateTransports w

/-- What a new transport is told about itself by `register_socket_transport` and
`register_usb_transport`. -/
structure TransportInfo where
  type : TransportType
  serial : Bytes := []
  devpath : Bytes := []
  useTls : Bool := false
  /-- A USB device the server may not open starts as `kCsNoPerm`. -/
  writeable : Bool := true

/-- `register_socket_transport` and `register_usb_transport`, up to the call of
`register_transport`: a new object on the pending list. -/
def newTransport (w : World) (i : TransportInfo) : World :=
  w.onNet fun n =>
    let t := n.nextTransport
    { n.updTransport t fun _ =>
        { alive := true
          connectionState := if i.writeable then .kCsOffline else .kCsNoPerm
          type := i.type
          serial := i.serial
          devpath := i.devpath
          useTls := i.useTls } with
      nextTransport := t + 1
      pendingList := t :: n.pendingList }

end AdbBridge
