import AdbBridge.Types.Packet

/-!
# The state of an adb server

Everything the main thread of the server works on: the sockets, the transports, the
listeners, and what passes between the server and its environment.

Sockets live in a heap and point at each other, as in the source: `Addr` is the
address of an `asocket`, `Asocket.peer` a pointer, and `delete` empties the heap
cell, so a pointer that outlives its socket is visible in the model. An address is
never used twice.

The four function pointers of an `asocket` are set together when a socket is made, so
the model keeps the kind of the socket instead. The one exception is a local socket
that waits for the far end to accept its stream: `smart_socket_enqueue` gives it the
`notify` versions of `ready` and `close`, and both of these put the plain versions
back. That is `Asocket.notify`.

The environment answers through `Sys`: the results of the system calls, one for each
tick of a counter that every call advances. A `CHECK`, a `LOG(FATAL)` and a wild
pointer set `World.fault` and nothing after that counts, since the process is gone;
the first fault is kept. `Io.trace` records what a run did, in order.
-/

namespace AdbBridge

/-- The address of a socket. -/
abbrev Addr := ℕ

abbrev TransportId := ℕ

/-- The address of a listener. -/
abbrev ListenerId := ℕ

/-! ### Sockets -/

/-- The interest bits of an `fdevent`, or a set of events delivered to it. -/
structure Fdevent where
  read : Bool := false
  write : Bool := false
  deriving DecidableEq, Repr, Inhabited

/-- The kinds of sockets, by the function that makes them. -/
inductive SocketKind
  /-- `create_local_socket`: bound to a file descriptor. -/
  | localSocket
  /-- `create_remote_socket`: bound to a stream of a transport. -/
  | remoteSocket
  /-- `create_smart_socket`: reads a request from its peer. -/
  | smartSocket
  /-- `create_device_tracker`: sends the list of devices to its peer. -/
  | deviceTracker
  deriving DecidableEq, Repr

structure Asocket where
  kind : SocketKind
  id : ℕ := 0
  /-- The peer has closed but packets are still queued for delivery. -/
  closing : Bool := false
  hasWriteError : Bool := false
  peer : Option Addr := none
  /-- `ready` and `close` report to the client first. -/
  notify : Bool := false
  transport : Option TransportId := none
  fde : Fdevent := {}
  packetQueue : PacketQueue := PacketQueue.nil
  /-- How much the far end is still willing to take, where delayed acks are used. -/
  availableSendBytes : Option ℤ := none
  smartSocketData : Bytes := []
  updateNeeded : Bool := false
  outputType : TrackerOutputType := .shortText

/-- The global tables of `sockets.cpp`, with the heap they point into. -/
structure SockTable where
  heap : Addr → Option Asocket := fun _ => none
  /-- The next address to be handed out. -/
  brk : Addr := 0
  localSocketList : List Addr := []
  localSocketClosingList : List Addr := []
  localSocketNextId : ℕ := 1
  deviceTrackerList : List Addr := []

namespace SockTable

/-- Write to the fields of a socket. -/
def upd (k : SockTable) (a : Addr) (f : Asocket → Asocket) : SockTable :=
  { k with heap := Function.update k.heap a ((k.heap a).map f) }

/-- `delete s`. -/
def free (k : SockTable) (a : Addr) : SockTable :=
  { k with heap := Function.update k.heap a none }

/-- `new asocket()`. -/
def alloc (k : SockTable) (s : Asocket) : SockTable :=
  { k with heap := Function.update k.heap k.brk (some s), brk := k.brk + 1 }

/-- `remove_socket`. -/
def removeSocket (k : SockTable) (a : Addr) : SockTable :=
  { k with
    localSocketList := k.localSocketList.filter (· != a)
    localSocketClosingList := k.localSocketClosingList.filter (· != a) }

/-- `device_tracker_remove`. -/
def deviceTrackerRemove (k : SockTable) (a : Addr) : SockTable :=
  { k with deviceTrackerList := k.deviceTrackerList.erase a }

end SockTable

/-! ### Transports and listeners -/

/-- How far a transport's connection has come. -/
inductive ConnStatus
  | idle
  | running
  | stopped
  deriving DecidableEq, Repr

structure Atransport where
  /-- The object has been allocated and not yet deleted. -/
  alive : Bool := false
  online : Bool := false
  connectionState : ConnectionState := .kCsOffline
  type : TransportType := .kTransportAny
  serial : Bytes := []
  product : Bytes := []
  model : Bytes := []
  device : Bytes := []
  devpath : Bytes := []
  useTls : Bool := false
  /-- The private keys left to try; `false` is the null pointer that ends the list. -/
  keys : List Bool := []
  protocolVersion : ℤ := aVersionMin
  maxPayload : ℕ := AdbBridge.maxPayload
  features : List Bytes := []
  delayedAck : Bool := false
  disconnects : List ListenerId := []
  /-- What `adb reverse` has asked the device to forward, by the name asked for. -/
  reverseForwards : AList fun _ : Bytes => Bytes := ∅
  kicked : Bool := false
  conn : ConnStatus := .idle
  /-- `remove_transport` has queued the deletion. -/
  removalQueued : Bool := false
  deriving Inhabited

/-- `SupportsDelayedAck`. -/
def Atransport.supportsDelayedAck (t : Atransport) : Bool := t.delayedAck

structure Alistener where
  id : ListenerId
  localName : Bytes
  connectTo : Bytes
  transport : Option TransportId := none
  deriving DecidableEq, Repr

structure Net where
  transports : TransportId → Atransport := fun _ => {}
  transportList : List TransportId := []
  pendingList : List TransportId := []
  /-- The next id `NextTransportId` hands out. -/
  nextTransport : TransportId := 1
  listenerList : List Alistener := []
  nextListener : ListenerId := 0

/-- Write to the fields of a transport. -/
def Net.updTransport (n : Net) (t : TransportId) (f : Atransport → Atransport) : Net :=
  { n with transports := Function.update n.transports t (f (n.transports t)) }

/-! ### The environment -/

/-- What `adb_writev` came back with. -/
inductive WritevResult
  /-- A count; no more than was offered is taken. -/
  | accepted (n : ℕ)
  | eagain
  | error
  deriving DecidableEq, Repr

/-- What `adb_read` came back with. -/
inductive ReadResult
  /-- Some bytes; no more than there is room for are taken. -/
  | data (bs : Bytes)
  | eagain
  | error
  deriving DecidableEq, Repr

/-- The answers of the environment, by the tick of the call. -/
structure Sys where
  writev : ℕ → WritevResult := fun _ => .eagain
  read : ℕ → ReadResult := fun _ => .eagain
  /-- Whether `adb_socket_accept` came back with a connection. -/
  accept : ℕ → Bool := fun _ => true
  /-- Whether a service could be started or connected to. -/
  service : ℕ → Bool := fun _ => true
  /-- What the system makes of a socket to bind: an error, or the port it picks. -/
  listen : ℕ → Except Bytes ℕ := fun _ => .ok 0
  /-- The memory after a payload, up to its first NUL. -/
  beyond : ℕ → Bytes := fun _ => []
  /-- Whether a USB connection could be attached or detached, or what went wrong. -/
  attach : ℕ → Except Bytes Unit := fun _ => .ok ()
  /-- The signature of an authentication token; empty when signing failed. -/
  sign : ℕ → Bytes := fun _ => []

/-- What the server writes to a client outside of its socket's queue. -/
inductive Reply
  | okay
  | fail (reason : Bytes)
  /-- `SendProtocolString`. -/
  | protocolString (s : Bytes)
  /-- A transport id in binary. -/
  | transportId (t : TransportId)
  deriving DecidableEq, Repr

/-- What a run does, as far as the environment or a later reader can see it. -/
inductive Ev
  /-- `handle_packet` was called. -/
  | recv (t : TransportId) (p : Apacket)
  /-- `send_packet` was called. -/
  | send (t : TransportId) (p : Apacket)
  /-- These bytes were read from the descriptor of a socket. -/
  | read (a : Addr) (bs : Bytes)
  /-- `adb_writev` accepted these bytes for the descriptor of a socket. -/
  | writev (a : Addr) (bs : Bytes)
  /-- `adb_writev` returned 0 or an error other than `EAGAIN`. -/
  | writeError (a : Addr)
  /-- A socket is about to hand bytes to its peer, with this much left to send. -/
  | outgoing (a : Addr) (available : Option ℤ) (bs : Bytes)
  /-- A socket was put on the closing list with these bytes in its queue. -/
  | closing (a : Addr) (bs : Bytes)
  /-- `local_socket_destroy`. -/
  | destroy (a : Addr)
  /-- `IsReverseConfigured` was given a C string found by reading this many bytes from
  the start of a payload of this size. -/
  | scan (extent size : ℕ)
  /-- `create_local_service_socket` was called. -/
  | service (t : TransportId) (name : Bytes)
  /-- `local_socket_ack` found an acknowledgement of the wrong kind. -/
  | ackMismatch (a : Addr)
  /-- A status or a text was written to the descriptor of a socket. -/
  | reply (a : Addr) (r : Reply)
  deriving DecidableEq, Repr

/-- The packet an event hands to a transport. -/
def Ev.packet? : Ev → Option (TransportId × Apacket)
  | .send t p => some (t, p)
  | _ => none

structure Io where
  trace : List Ev := []
  /-- What the transports still have to deliver, oldest first. -/
  out : List (TransportId × Apacket) := []
  sys : Sys := {}
  tick : ℕ := 0

/-- What ends the process. -/
inductive Fault
  /-- A pointer to a deleted socket was followed. -/
  | useAfterFree
  | nullPointer
  /-- The `CHECK_EQ` at the end of `local_socket_close`. -/
  | checkFdeWrite
  /-- A callback ran that the code around it takes for impossible. -/
  | unexpectedCall
  /-- `LOG(FATAL) << "local socket id overflow"`. -/
  | localSocketIdOverflow
  /-- `LOG(FATAL) << "invalid remote socket id (0)"`. -/
  | invalidRemoteId
  /-- `LOG(FATAL) << "disallowed connect"`. -/
  | disallowedConnect
  /-- `LOG(FATAL) << "unhandled reverse service"`. -/
  | unhandledReverse
  /-- The `CHECK_LE` of `connect_to_remote`. -/
  | checkMaxPayload
  /-- The `CHECK_GE` of `fdevent_context::Create`. -/
  | checkFd
  /-- `LOG(FATAL) << "Connection banner is too long"`. -/
  | bannerTooLong
  /-- The `CHECK`s of the epoll loop on the events it is handed. -/
  | checkEpoll
  /-- `exit(0)`. -/
  | exit
  deriving DecidableEq, Repr

/-! ### The configuration of a server -/

/-- The name of a user, from a file that has one on each line. -/
structure UserName where
  name : Bytes
  oneLine : 10 ∉ name

/-- What `GetUdevProblem` finds: nothing it can tell, rules that are missing, or a user, whose name
may be unknown, that is not in the group. -/
inductive UdevProblem
  | unknown
  | missingRules
  | notInGroup (user : Option UserName)

/-- `GetUdevProblem`. -/
def UdevProblem.text : UdevProblem → Bytes
  | .unknown => []
  | .missingRules => ascii "missing udev rules? user is in the plugdev group"
  | .notInGroup user =>
    ascii "user " ++ user.elim (ascii "?") (·.name) ++ ascii " is not in the plugdev group"

/-- What a server is started with, and the functions of other libraries it calls for
their text. -/
structure Config where
  /-- `ADB_HOST`: the server on the host, as against the daemon on the device. -/
  adbHost : Bool := true
  /-- Whether `supported_features` has `delayed_ack`. -/
  delayedAckEnabled : Bool := true
  libusbEnabled : Bool := true
  usbDevicesStartDetached : Bool := false
  rejectKillServer : Bool := false
  /-- The number of private keys of the server. -/
  knownKeys : ℕ := 1
  /-- The banner `send_connect` announces. -/
  connectionString : Bytes := []
  /-- The public key `send_auth_publickey` sends; empty when there is none. -/
  publicKey : Bytes := []
  /-- `atransport::MatchesTarget`. -/
  matchesTarget : Atransport → Bytes → Bool := fun t s => t.serial == s
  /-- `list_transports`. -/
  listTransports : TrackerOutputType → List Atransport → Bytes := fun _ _ => []
  /-- `android::base::ParseNetAddress`: the canonical serial, or what is wrong. -/
  parseNetAddress : Bytes → Except Bytes Bytes := fun s => .ok s
  serverStatus : Bytes := []
  hostFeatures : Bytes := []
  udevProblem : UdevProblem := .unknown
  adbVendorKeys : Option Bytes := none

/-- `kPermissionsHelpUrl`. -/
def kPermissionsHelpUrl : Bytes := ascii "http://developer.android.com/tools/device.html"

/-- `UsbNoPermissionsShortHelpText`. -/
def Config.usbNoPermissionsShortHelpText (cfg : Config) : Bytes :=
  let problem := cfg.udevProblem.text
  ascii "no permissions" ++ (if problem = [] then [] else ascii " (" ++ problem ++ ascii ")") ++
    ascii "; see [" ++ kPermissionsHelpUrl ++ ascii "]"

/-- `UsbNoPermissionsLongHelpText`. -/
def Config.usbNoPermissionsLongHelpText (cfg : Config) : Bytes :=
  let problem := cfg.udevProblem.text
  ascii "insufficient permissions for device" ++
    (if problem = [] then [] else ascii ": " ++ problem) ++ ascii "\nSee [" ++
    kPermissionsHelpUrl ++ ascii "] for more information"

/-! ### The whole state -/

structure World where
  cfg : Config := {}
  sk : SockTable := {}
  net : Net := {}
  io : Io := {}
  fault : Option Fault := none

namespace World

variable (w : World)

/-- The process dies of `f`, unless it is already dead. -/
def raise (f : Fault) : World := { w with fault := w.fault.or (some f) }

/-- `CHECK`. -/
def check (b : Bool) (f : Fault) : World := if b then w else w.raise f

/-- Follow the pointer `a`. -/
def deref (a : Addr) (k : Asocket → World) : World :=
  match w.sk.heap a with
  | none => w.raise .useAfterFree
  | some s => k s

/-- Change the tables of the transports and the listeners. -/
def onNet (f : Net → Net) : World := { w with net := f w.net }

/-- Change the tables of the sockets. -/
def onSk (f : SockTable → SockTable) : World := { w with sk := f w.sk }

/-- Write to the fields of a socket. -/
def upd (a : Addr) (f : Asocket → Asocket) : World := w.onSk (·.upd a f)

/-- Record events; the packets among them are on their way. -/
def log (es : List Ev) : World :=
  { w with io := { w.io with
      trace := w.io.trace ++ es, out := w.io.out ++ es.filterMap Ev.packet? } }

/-- Record an event. -/
def emit (e : Ev) : World := w.log [e]

/-- A system call has been made. -/
def tick : World := { w with io := { w.io with tick := w.io.tick + 1 } }

/-- A transport of the server. -/
def transport (t : TransportId) : Atransport := w.net.transports t

/-- Write to the fields of a transport. -/
def updTransport (t : TransportId) (f : Atransport → Atransport) : World :=
  w.onNet (·.updTransport t f)

/-- `send_packet`. The packet goes to the write queue of the connection, which never
refuses one. -/
def sendPacket (t : TransportId) (p : Apacket) : World := w.log [.send t p]

/-- Write a status or a text to the descriptor of a socket. -/
def reply (a : Addr) (r : Reply) : World := w.log [.reply a r]

/-! ### What the primitives leave alone -/

variable {w} {a : Addr} {t : TransportId}

@[simp] theorem raise_io (f : Fault) : (w.raise f).io = w.io := rfl

@[simp] theorem onNet_net (f : Net → Net) : (w.onNet f).net = f w.net := rfl

@[simp] theorem onSk_cfg (f : SockTable → SockTable) : (w.onSk f).cfg = w.cfg := rfl
@[simp] theorem onSk_sk (f : SockTable → SockTable) : (w.onSk f).sk = f w.sk := rfl
@[simp] theorem onSk_net (f : SockTable → SockTable) : (w.onSk f).net = w.net := rfl
@[simp] theorem onSk_io (f : SockTable → SockTable) : (w.onSk f).io = w.io := rfl
@[simp] theorem onSk_fault (f : SockTable → SockTable) : (w.onSk f).fault = w.fault := rfl

@[simp] theorem upd_cfg (f : Asocket → Asocket) : (w.upd a f).cfg = w.cfg := rfl
@[simp] theorem upd_sk (f : Asocket → Asocket) : (w.upd a f).sk = w.sk.upd a f := rfl
@[simp] theorem upd_net (f : Asocket → Asocket) : (w.upd a f).net = w.net := rfl
@[simp] theorem upd_io (f : Asocket → Asocket) : (w.upd a f).io = w.io := rfl
@[simp] theorem upd_fault (f : Asocket → Asocket) : (w.upd a f).fault = w.fault := rfl

@[simp] theorem log_sk (es : List Ev) : (w.log es).sk = w.sk := rfl
@[simp] theorem log_net (es : List Ev) : (w.log es).net = w.net := rfl
@[simp] theorem log_trace (es : List Ev) : (w.log es).io.trace = w.io.trace ++ es := rfl
@[simp] theorem log_out (es : List Ev) :
    (w.log es).io.out = w.io.out ++ es.filterMap Ev.packet? := rfl

@[simp] theorem log_fault (es : List Ev) : (w.log es).fault = w.fault := rfl

@[simp] theorem log_nil : w.log [] = w := by simp [log]

@[simp] theorem log_log (es es' : List Ev) : (w.log es).log es' = w.log (es ++ es') := by
  simp [log, List.append_assoc]

@[simp] theorem emit_eq (e : Ev) : w.emit e = w.log [e] := rfl
@[simp] theorem sendPacket_eq (p : Apacket) : w.sendPacket t p = w.log [.send t p] := rfl
@[simp] theorem reply_eq (r : Reply) : w.reply a r = w.log [.reply a r] := rfl

theorem log_upd (es : List Ev) (f : Asocket → Asocket) :
    (w.upd a f).log es = (w.log es).upd a f := rfl

@[simp] theorem updTransport_net (f : Atransport → Atransport) :
    (w.updTransport t f).net = w.net.updTransport t f := rfl

theorem deref_of_some {s : Asocket} (h : w.sk.heap a = some s) (k : Asocket → World) :
    w.deref a k = k s := by
  rw [deref, h]

end World

namespace SockTable

variable {k : SockTable} {a b : Addr}

theorem upd_heap_self {s : Asocket} (h : k.heap a = some s) (f : Asocket → Asocket) :
    (k.upd a f).heap a = some (f s) := by
  simp [upd, h]

theorem upd_heap_of_ne (h : b ≠ a) (f : Asocket → Asocket) : (k.upd a f).heap b = k.heap b :=
  Function.update_of_ne h _ _

@[simp]
theorem free_heap_self : (k.free a).heap a = none := Function.update_self _ _ _

theorem free_heap_of_ne (h : b ≠ a) : (k.free a).heap b = k.heap b := Function.update_of_ne h _ _

end SockTable

end AdbBridge
