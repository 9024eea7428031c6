import AdbBridge.Transport.HostRequest

/-!
# Smart sockets

A smart socket reads the request of a client: four hexadecimal digits and as many
bytes. A request the server can answer itself goes to `handle_host_request`, a service
of the host becomes a socket of its own, and everything else is a service of the
device, to be opened on the transport the client has selected.
-/

namespace AdbBridge

/-! ### Taking a request apart -/

/-- The prefixes after which `internal::parse_host_service` takes a serial as it is. -/
def hostServicePrefixes : List Bytes :=
  [ascii "usb:", ascii "product:", ascii "model:", ascii "device:", ascii "localfilesystem:"]

/-- Where `internal::parse_host_service` starts to look for an address, after the prefixes
it ignores: it reads the byte at this place, if it gets there. -/
def hostServiceStart (full : Bytes) : Option ℕ :=
  let n := if startsWith full (ascii "tcp:") || startsWith full (ascii "udp:") then 4 else 0
  if (full.drop n).isEmpty then none
  else some (if startsWith (full.drop n) (ascii "vsock:") then n + 6 else n)

/-- `internal::parse_host_service`: the serial and the command of a request. The
source moves a boundary through the string; here it is the number of bytes that belong
to the serial. -/
def parseHostService (full : Bytes) : Option (Bytes × Bytes) :=
  let command := fun n => full.drop n
  let colon := fun n => (command n).findIdx? (· == 58)
  let finish := fun n =>
    if n = 0 || (command n).isEmpty then none else some ((full.take n).dropLast, command n)
  if full.isEmpty then none
  else
    match hostServicePrefixes.find? (startsWith full) with
    | some pre =>
      match colon pre.length with
      | none => none
      | some offset => finish (pre.length + offset + 1)
    | none =>
      match hostServiceStart full with
      | none => none
      | some n =>
        let address : Option ℕ :=
          match if (command n).head? == some 91 then (command n).findIdx? (· == 93) else none with
          | some ipv6End =>
            if (command (n + ipv6End + 1)).head? == some 58 then some (n + ipv6End + 2) else none
          | none => (colon n).map (n + · + 1)
        match address with
        | none => none
        | some n =>
          match colon n with
          | none => finish n
          | some next =>
            if ((command n).take next).all isDigit then finish (n + next + 1) else finish n

/-- What `smart_socket_enqueue` does about a request that it cannot take apart. -/
inductive SmartSocketError
  /-- `goto fail`. -/
  | fail
  /-- `return -1`, with nothing closed. -/
  | ignore
  deriving DecidableEq, Repr

/-- The request and its selector; an empty request stands for a service of the
device. -/
def parseSmartRequest (service : Bytes) : Except SmartSocketError (Bytes × Selector) :=
  match consumePrefix service (ascii "host-serial:") with
  | some rest =>
    match parseHostService rest with
    | none => .error .fail
    | some (serial, command) =>
      .ok (command, { serial := if serial.isEmpty then none else some (cString serial []) })
  | none =>
    match consumePrefix service (ascii "host-transport-id:") with
    | some rest =>
      match parseUint 64 rest with
      | none => .error .ignore
      | some (id, rest) =>
        match consumePrefix rest (ascii ":") with
        | none => .error .ignore
        | some command => .ok (command, { transportId := id })
    | none =>
      match consumePrefix service (ascii "host-usb:") with
      | some command => .ok (command, { type := .kTransportUsb })
      | none =>
        match consumePrefix service (ascii "host-local:") with
        | some command => .ok (command, { type := .kTransportLocal })
        | none =>
          match consumePrefix service (ascii "host:") with
          | some command => .ok (command, {})
          | none => .ok ([], {})

/-! ### Opening streams and services -/

/-- `connect_to_remote`. -/
def connectToRemote (w : World) (a : Addr) (destination : Bytes) : World :=
  w.deref a fun s =>
    match s.transport with
    | none => w.raise .nullPointer
    | some t =>
      let w := if w.cfg.adbHost then updateReverseConfig w t destination else w
      let delayed := (w.transport t).supportsDelayedAck
      let w := if delayed then w.upd a ({ · with availableSendBytes := some 0 }) else w
      let payload := destination ++ [0]
      (w.check (payload.length ≤ getMaxPayload w s) .checkMaxPayload).sendPacket t
        { command := .aOpen, arg0 := s.id,
          arg1 := if delayed then initialDelayedAckBytes else 0, payload := payload }

/-- `is_socket_spec`. -/
def isSocketSpec (spec : Bytes) : Bool :=
  [ascii "local:", ascii "localreserved:", ascii "localabstract:", ascii "localfilesystem:",
    ascii "tcp:", ascii "acceptfd:", ascii "vsock:"].any (startsWith spec)

/-- `create_local_service_socket`. A host knows no services but sockets. -/
def createLocalServiceSocket (w : World) (name : Bytes) (t : TransportId) : World × Option Addr :=
  let ok := w.io.sys.service w.io.tick && (isSocketSpec name || !w.cfg.adbHost)
  let w := (w.emit (.service t name)).tick
  if ok then
    let (w, a) := createLocalSocket w
    (w.upd a ({ · with transport := some t }), some a)
  else (w, none)

/-- `create_local_socket` of the descriptor that `create_service_thread` returns. -/
def createServiceThreadSocket (w : World) : World × Option Addr :=
  let ok := w.io.sys.service w.io.tick
  let (w, a) := createLocalSocket w.tick
  (w.check ok .checkFd, some a)

/-- `host_service_to_socket`. -/
def hostServiceToSocket (w : World) (name : Bytes) : World × Option Addr :=
  let tracker := fun o => let (w, a) := createDeviceTracker w o; (w, some a)
  if name == ascii "track-devices" then tracker .shortText
  else if name == ascii "track-devices-l" then tracker .longText
  else if name == ascii "track-devices-proto-binary" then tracker .protobuf
  else if name == ascii "track-devices-proto-text" then tracker .textProtobuf
  else if startsWith name (ascii "wait-for-") then createServiceThreadSocket w
  else if startsWith name (ascii "connect:") then createServiceThreadSocket w
  else
    match consumePrefix name (ascii "pair:") with
    | some rest => if (cString rest []).contains 58 then createServiceThreadSocket w else (w, none)
    | none => (w, none)

/-! ### Enqueueing on a smart socket -/

/-- The label `fail`: the peer is closed as a side effect, which `-1` tells it. -/
def smartSocketFail (w : World) (a : Addr) : World × ℤ := (close w a, -1)

/-- A request for the host that `handle_host_request` did not know: `c` is the
client's socket. -/
def smartSocketHostService (w : World) (a c : Addr) (service : Bytes) : World × ℤ :=
  match hostServiceToSocket w service with
  | (w, none) =>
    smartSocketFail
      (w.reply c (.fail (ascii "unknown host service '" ++ service ++ ascii "'"))) a
  | (w, some s2) =>
    let w := w.reply c .okay
    let w := w.upd c ({ · with notify := false, peer := some s2 })
    let w := w.upd s2 ({ · with peer := some c })
    let w := w.upd a ({ · with peer := none })
    let w := close w a
    (ready w s2, 0)

/-- A request for a service of the device. -/
def smartSocketConnect (w : World) (a c : Addr) (destination : Bytes) : World × ℤ :=
  match w.sk.heap a with
  | none => (w.raise .useAfterFree, 0)
  | some s =>
    match s.transport with
    | none => smartSocketFail (w.reply c (.fail (ascii "device offline (no transport)"))) a
    | some t =>
      if !connectionStateIsOnline (w.transport t).connectionState then
        smartSocketFail (w.reply c (.fail (ascii "device offline (transport offline)"))) a
      else
        let w := w.upd c ({ · with notify := true, peer := none, transport := some t })
        let w := connectToRemote w c destination
        let w := w.upd a ({ · with peer := none })
        (close w a, 1)

/-- A request that has arrived in full. -/
def smartSocketRequest (w : World) (a : Addr) (service : Bytes) : World × ℤ :=
  match w.sk.heap a with
  | none => (w.raise .useAfterFree, 0)
  | some s =>
    match parseSmartRequest service with
    | .error .fail => smartSocketFail w a
    | .error .ignore => (w, -1)
    | .ok (command, sel) =>
      match s.peer with
      | none => (w.raise .nullPointer, 0)
      | some c =>
        match w.sk.heap c with
        | none => (w.raise .useAfterFree, 0)
        | some _ =>
          if command.isEmpty then smartSocketConnect w a c service
          else
            match handleHostRequest w a c command sel with
            | (w, .handled) => smartSocketFail w a
            | (w, .switchedTransport) => (w.upd a ({ · with smartSocketData := [] }), 0)
            | (w, .unhandled) => smartSocketHostService w a c command

/-- `smart_socket_enqueue`. -/
def smartSocketEnqueue (w : World) (a : Addr) (data : Bytes) : World × ℤ :=
  match w.sk.heap a with
  | none => (w.raise .useAfterFree, 0)
  | some s =>
    let buf := s.smartSocketData ++ data
    let w := w.upd a ({ · with smartSocketData := buf })
    if buf.length < 4 then (w, 0)
    else
      let len := unhex (buf.take 4)
      if len = 0 ∨ maxPayload < len then smartSocketFail w a
      else if buf.length < len + 4 then (w, 0)
      else
        let buf := buf.set (len + 4) 0
        smartSocketRequest (w.upd a ({ · with smartSocketData := buf })) a (buf.drop 4)

/-- `s->enqueue(s, data)`. -/
def enqueue (w : World) (a : Addr) (data : Bytes) : World × ℤ :=
  match w.sk.heap a with
  | none => (w.raise .useAfterFree, 0)
  | some s =>
    match s.kind with
    | .smartSocket => smartSocketEnqueue w a data
    | _ => enqueueData w a data

/-- `connect_to_smartsocket`. -/
def connectToSmartsocket (w : World) (a : Addr) : World :=
  let (w, ss) := createSmartSocket w
  let w := w.upd a ({ · with peer := some ss })
  let w := w.upd ss ({ · with peer := some a })
  ready w a

end AdbBridge
