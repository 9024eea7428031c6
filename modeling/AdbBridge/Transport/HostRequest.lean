import AdbBridge.Transport.Lifecycle

/-!
# Host requests

`handle_host_request`: the requests of a client that the server answers by itself. A
request comes from a smart socket `a`, whose peer `c` is the client's end; replies go
to the descriptor of `c`. What the request selects a transport with has been taken
off it already: a type, a serial or a transport id.

Starting an emulator connection (`emulator:`) happens on the run queue later on, as
for any other new transport, so here the request has no effect.
-/

namespace AdbBridge

inductive HostRequestResult
  | handled
  | switchedTransport
  | unhandled
  deriving DecidableEq, Repr

/-- `to_string(ConnectionState)`. -/
def connectionStateName (cfg : Config) : ConnectionState → Bytes
  | .kCsOffline => ascii "offline"
  | .kCsBootloader => ascii "bootloader"
  | .kCsDevice => ascii "device"
  | .kCsHost => ascii "host"
  | .kCsRecovery => ascii "recovery"
  | .kCsRescue => ascii "rescue"
  | .kCsNoPerm => cfg.usbNoPermissionsShortHelpText
  | .kCsSideload => ascii "sideload"
  | .kCsUnauthorized => ascii "unauthorized"
  | .kCsAuthorizing => ascii "authorizing"
  | .kCsConnecting => ascii "connecting"
  | .kCsDetached => ascii "detached"
  | .kCsAny => ascii "unknown"

/-- `FeatureSetToString`. -/
def featureSetToString (features : List Bytes) : Bytes := List.intercalate [44] features

/-- `SendOkay` with a text. -/
def sendOkayString (w : World) (c : Addr) (s : Bytes) : World :=
  (w.reply c .okay).reply c (.protocolString s)

/-- How a request says which transport it is about. -/
structure Selector where
  type : TransportType := .kTransportAny
  serial : Option Bytes := none
  transportId : TransportId := 0

/-- `acquire_one_transport` on a selector. -/
def acquire (w : World) (sel : Selector) (acceptAnyState : Bool) : Except Bytes TransportId :=
  let found := acquireOneTransport w sel.type sel.serial sel.transportId acceptAnyState
  match found.result with
  | some t => .ok t
  | none => .error found.error

/-! ### Transport selection -/

/-- The selector of a `tport:` or `transport…` request, and whether the request is of
the old form. The serial and the id that came with the request stay in force when the
request gives none; its type does not. A bad id is the one error. -/
def parseTransportRequest (service : Bytes) (sel : Selector) : Option (Bool × Selector) :=
  let sel := { sel with type := .kTransportAny }
  match consumePrefix service (ascii "tport:") with
  | some rest =>
    match consumePrefix rest (ascii "serial:") with
    | some serial => some (false, { sel with serial := some (cString serial []) })
    | none =>
      if rest == ascii "usb" then some (false, { sel with type := .kTransportUsb })
      else if rest == ascii "local" then some (false, { sel with type := .kTransportLocal })
      else some (false, sel)
  | none =>
    match consumePrefix service (ascii "transport-id:") with
    | some rest =>
      match parseUint 64 rest with
      | some (id, []) => some (true, { sel with transportId := id })
      | _ => none
    | none =>
      if service == ascii "transport-usb" then some (true, { sel with type := .kTransportUsb })
      else if service == ascii "transport-local" then
        some (true, { sel with type := .kTransportLocal })
      else if service == ascii "transport-any" then some (true, sel)
      else
        match consumePrefix service (ascii "transport:") with
        | some serial => some (true, { sel with serial := some (cString serial []) })
        | none => some (true, sel)

/-- The transport selection of `handle_host_request`. -/
def handleTransportRequest (w : World) (a c : Addr) (service : Bytes) (sel : Selector) :
    World × HostRequestResult :=
  match parseTransportRequest service sel with
  | none => (w.reply c (.fail (ascii "invalid transport id")), .handled)
  | some (legacy, sel) =>
    match acquire w sel false with
    | .error e => (w.reply c (.fail e), .handled)
    | .ok t =>
      let w := w.upd a ({ · with transport := some t })
      let w := w.reply c .okay
      (if legacy then w else w.reply c (.transportId t), .switchedTransport)

/-! ### Requests about one transport -/

/-- The transport the smart socket was switched to, or else the one selected. -/
def ownOrAcquire (w : World) (own : Option TransportId) (sel : Selector)
    (acceptAnyState : Bool) : Except Bytes TransportId :=
  match own with
  | some t => .ok t
  | none => acquire w sel acceptAnyState

/-- Answer a question about the transport of a request. -/
def queryTransport (w : World) (c : Addr) (acquired : Except Bytes TransportId)
    (f : Atransport → Bytes) : World :=
  match acquired with
  | .ok t => sendOkayString w c (f (w.transport t))
  | .error e => w.reply c (.fail e)

/-- `"unknown"` for what is empty. -/
def orUnknown (s : Bytes) : Bytes := if s.isEmpty then ascii "unknown" else s

/-- The `disconnect:` request. -/
def handleDisconnect (w : World) (c : Addr) (address : Bytes) : World :=
  if address.isEmpty then
    sendOkayString (kickWhere w (·.type == .kTransportLocal)) c (ascii "disconnected everything")
  else
    let text := cString address []
    match findTransport w text with
    | some t => sendOkayString (kickTransport w t) c (ascii "disconnected " ++ text)
    | none =>
      let serial : Except Bytes Bytes :=
        if startsWith address (ascii "vsock:") || startsWith address (ascii "localfilesystem:")
        then .ok address
        else w.cfg.parseNetAddress address
      match serial with
      | .error e =>
        w.reply c (.fail (ascii "couldn't parse '" ++ text ++ ascii "': " ++ e))
      | .ok serial =>
        let serial := cString serial []
        match findTransport w serial with
        | none => w.reply c (.fail (ascii "no such device '" ++ serial ++ ascii "'"))
        | some t => sendOkayString (kickTransport w t) c (ascii "disconnected " ++ text)

/-- The `reconnect-offline` request. -/
def handleReconnectOffline (w : World) (c : Addr) : World :=
  let offline := fun (x : Atransport) => !connectionStateIsOnline x.connectionState
  let response := ((w.net.transportList.map w.transport).filter offline).flatMap fun x =>
    ascii "reconnecting " ++ x.serialName ++ ascii "\n"
  sendOkayString (kickWhere w offline) c response.dropLast

/-- The `reconnect` request. -/
def handleReconnect (w : World) (c : Addr) (acquired : Except Bytes TransportId) : World :=
  match acquired with
  | .error e => sendOkayString w c e
  | .ok t =>
    let w := kickTransport w t
    sendOkayString w c (ascii "reconnecting " ++ (w.transport t).serialName ++ ascii " [" ++
      connectionStateName w.cfg (w.transport t).connectionState ++ ascii "]\n")

/-- The `attach` request. -/
def handleAttach (w : World) (c : Addr) (acquired : Except Bytes TransportId) : World :=
  match acquired with
  | .error e => w.reply c (.fail e)
  | .ok t =>
    match attach w t with
    | (w, .ok ()) => sendOkayString w c ((w.transport t).serialName ++ ascii " attached")
    | (w, .error e) => w.reply c (.fail e)

/-- The `detach` request. The smart socket forgets its transport first: detaching
closes every socket of the transport, and this one is still needed. -/
def handleDetach (w : World) (a c : Addr) (acquired : Except Bytes TransportId) : World :=
  match acquired with
  | .error e => w.reply c (.fail e)
  | .ok t =>
    let w := w.upd a ({ · with transport := none })
    match detach w t with
    | (w, .ok ()) => sendOkayString w c ((w.transport t).serialName ++ ascii " detached")
    | (w, .error e) => w.reply c (.fail e)

/-! ### The dispatcher -/

/-- `handle_host_request`, after the `kill` and the transport selection. -/
def handleTransportlessRequest (w : World) (a c : Addr) (own : Option TransportId)
    (service : Bytes) (sel : Selector) : World × HostRequestResult :=
  let handled := fun (w : World) => (w, HostRequestResult.handled)
  if service == ascii "server-status" then handled (sendOkayString w c w.cfg.serverStatus)
  else if service == ascii "devices" then
    handled (sendOkayString w c (listTransports w .shortText))
  else if service == ascii "devices-l" then
    handled (sendOkayString w c (listTransports w .longText))
  else if service == ascii "reconnect-offline" then handled (handleReconnectOffline w c)
  else if service == ascii "features" then
    handled (queryTransport w c (ownOrAcquire w own sel false) fun x =>
      featureSetToString x.features)
  else if service == ascii "host-features" then handled (sendOkayString w c w.cfg.hostFeatures)
  else if startsWith service (ascii "disconnect:") then
    handled (handleDisconnect w c (service.drop 11))
  else if service == ascii "version" then handled (sendOkayString w c (ascii "0029"))
  else if service == ascii "get-serialno" then
    handled (queryTransport w c (ownOrAcquire w own sel false) fun x => orUnknown x.serial)
  else if service == ascii "get-devpath" then
    handled (queryTransport w c (ownOrAcquire w own sel false) fun x => orUnknown x.devpath)
  else if service == ascii "get-state" then
    handled (queryTransport w c (ownOrAcquire w own sel false) fun x =>
      connectionStateName w.cfg x.connectionState)
  else if startsWith service (ascii "emulator:") then handled w
  else if service == ascii "reconnect" then
    handled (handleReconnect w c (ownOrAcquire w own sel true))
  else if service == ascii "attach" then handled (handleAttach w c (ownOrAcquire w own sel true))
  else if service == ascii "detach" then
    handled (handleDetach w a c (ownOrAcquire w own sel true))
  else
    -- The acquirer keeps the reason of a failure to itself, so it is reported as empty.
    let acquired := (ownOrAcquire w own sel false).mapError fun _ => []
    match handleForwardRequest w (cString service []) acquired c with
    | (w, true) => (w, .handled)
    | (w, false) => (w, .unhandled)

/-- `handle_host_request`. A `kill` that is rejected goes on as a request nobody
knows. -/
def handleHostRequest (w : World) (a c : Addr) (service : Bytes) (sel : Selector) :
    World × HostRequestResult :=
  match w.sk.heap a with
  | none => (w.raise .useAfterFree, .handled)
  | some s =>
    if service == ascii "kill" && !w.cfg.rejectKillServer then
      ((w.reply c .okay).raise .exit, .handled)
    else
      let w := if service == ascii "kill" then
          w.reply c (.fail (ascii "kill-server rejected by remote server"))
        else w
      if startsWith service (ascii "transport") || startsWith service (ascii "tport:") then
        handleTransportRequest w a c service sel
      else handleTransportlessRequest w a c s.transport service sel

end AdbBridge
