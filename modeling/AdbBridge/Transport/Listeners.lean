import AdbBridge.Sockets.Enqueue
import AdbBridge.Transport.SocketSpec

/-!
# Listeners and forward requests

`adb_listeners.cpp`, and the request handler of `adb.cpp` that installs and removes
listeners. The same code runs on the host, for `adb forward`, and on the device, for
`adb reverse`; the two differ in the replies only.

A listener that belongs to a transport registers itself in the transport's list of
disconnect callbacks, and the callback removes the listener. Both directions of this
registration are kept: `Alistener.transport` and `Atransport.disconnects`.
-/

namespace AdbBridge

/-- `kSmartSocketConnectTo`. -/
def kSmartSocketConnectTo : Bytes := ascii "*smartsocket*"

/-- `alistener::isSmartSocket`. -/
def Alistener.isSmartSocket (l : Alistener) : Bool := l.connectTo == kSmartSocketConnectTo

/-- What a call that installs or removes a listener can fail with. -/
inductive InstallStatus
  | internalError
  | cannotBind (error : Bytes)
  | cannotRebind
  | listenerNotFound
  deriving DecidableEq, Repr

namespace Net

variable (n : Net)

/-- `atransport::AddDisconnect`. -/
def addDisconnect (t : TransportId) (l : ListenerId) : Net :=
  n.updTransport t fun x => { x with disconnects := x.disconnects ++ [l] }

/-- `atransport::RemoveDisconnect`. -/
def removeDisconnect (t : TransportId) (l : ListenerId) : Net :=
  n.updTransport t fun x => { x with disconnects := x.disconnects.filter (· != l) }

/-- Erase a listener from the list, which runs its destructor. -/
def eraseListener (l : Alistener) : Net :=
  let n := { n with listenerList := n.listenerList.filter (·.id != l.id) }
  match l.transport with
  | none => n
  | some t => n.removeDisconnect t l.id

/-- `listener_disconnect`. The listener's transport is cleared first, so that its
destructor leaves the list of callbacks alone. -/
def listenerDisconnect (l : ListenerId) : Net :=
  { n with listenerList := n.listenerList.filter (·.id != l) }

/-- `atransport::RunDisconnects`. -/
def runDisconnects (t : TransportId) : Net :=
  ((n.transports t).disconnects.foldl listenerDisconnect n).updTransport t
    ({ · with disconnects := [] })

/-- `remove_listener`. The transport the source passes along is not used there. -/
def removeListener (localName : Bytes) : Except InstallStatus Net :=
  match n.listenerList.find? (·.localName == localName) with
  | none => .error .listenerNotFound
  | some l => .ok (n.eraseListener l)

/-- `remove_all_listeners`. -/
def removeAllListeners : Net :=
  (n.listenerList.filter fun l => !(l.connectTo.head? == some 42)).foldl eraseListener n

/-- Point a listener that exists at another destination and, if need be, at another
transport. -/
def rebindListener (l : Alistener) (connectTo : Bytes) (t : TransportId) : Net :=
  let n := { n with listenerList := n.listenerList.map fun x =>
    if x.id == l.id then { x with connectTo := connectTo, transport := some t } else x }
  if l.transport == some t then n
  else
    let n := match l.transport with
      | none => n
      | some u => n.removeDisconnect u l.id
    n.addDisconnect t l.id

/-- Add a listener for a socket that has been bound. -/
def pushListener (localName connectTo : Bytes) (t : TransportId) : Net :=
  let l := n.nextListener
  let n := n.addDisconnect t l
  { n with
    nextListener := l + 1
    listenerList := n.listenerList ++
      [{ id := l, localName := localName, connectTo := connectTo, transport := some t }] }

end Net

/-- `socket_spec_listen`, with what the system makes of the call. -/
def World.listen (w : World) (spec : Bytes) : Except Bytes ℕ :=
  socketSpecListen w.cfg.adbHost spec (w.io.sys.listen w.io.tick)

/-- `install_listener` for a transport, with the port to report back. -/
def installListener (w : World) (localName connectTo : Bytes) (t : TransportId)
    (noRebind : Bool) : World × Except InstallStatus ℕ :=
  match w.net.listenerList.find? (·.localName == localName) with
  | some l =>
    if l.isSmartSocket then (w, .error .internalError)
    else if noRebind then (w, .error .cannotRebind)
    else if l.transport.isNone then (w.raise .nullPointer, .ok 0)
    else (w.onNet (·.rebindListener l connectTo t), .ok 0)
  | none =>
    match w.listen localName with
    | .error e => (w.tick, .error (.cannotBind e))
    | .ok resolved =>
      (w.tick.onNet (·.pushListener (resolvedName localName resolved) connectTo t),
        .ok resolved)

/-- `format_listeners`. -/
def formatListeners (w : World) : Bytes :=
  (w.net.listenerList.filter fun l => !l.isSmartSocket).flatMap fun l =>
    let serial := l.transport.elim [] fun t => (w.transport t).serial
    (if serial.isEmpty then ascii "(reverse)" else serial) ++ ascii " " ++ l.localName ++
      ascii " " ++ l.connectTo ++ ascii "\n"

/-! ### Forward requests -/

/-- What a `forward:` or `killforward:` request asks for. -/
inductive ForwardRequest
  | killforward (localName : Bytes)
  | forward (noRebind : Bool) (localName connectTo : Bytes)
  deriving DecidableEq, Repr

/-- The part of `handle_forward_request` that takes a request apart; what is wrong
with it is the text to fail with. -/
def parseForwardRequest (service : Bytes) : Option (Except Bytes ForwardRequest) :=
  match consumePrefix service (ascii "killforward:") with
  | some rest =>
    match splitAt 59 rest with
    | [l] =>
      if l.isEmpty then some (.error (ascii "bad killforward: " ++ rest))
      else some (.ok (.killforward l))
    | _ => some (.error (ascii "bad killforward: " ++ rest))
  | none =>
    match consumePrefix service (ascii "forward:") with
    | none => none
    | some rest =>
      let (noRebind, rest) := consumeFlag rest (ascii "norebind:")
      match splitAt 59 rest with
      | [l, r] =>
        if l.isEmpty || r.isEmpty || r.head? == some 42 then
          some (.error (ascii "bad forward: " ++ rest))
        else some (.ok (.forward noRebind l r))
      | _ => some (.error (ascii "bad forward: " ++ rest))

/-- The call a well-formed request makes. -/
def runForwardRequest (w : World) (t : TransportId) :
    ForwardRequest → World × Except InstallStatus ℕ
  | .killforward l =>
    match w.net.removeListener l with
    | .error e => (w, .error e)
    | .ok n => (w.onNet fun _ => n, .ok 0)
  | .forward noRebind l r => installListener w l r t noRebind

/-- The text a failed request is answered with. -/
def installStatusMessage (rest : Bytes) : InstallStatus → Bytes
  | .internalError => ascii "internal error"
  | .cannotBind error => ascii "cannot bind listener: " ++ error
  | .cannotRebind => ascii "cannot rebind existing socket"
  | .listenerNotFound => ascii "listener '" ++ rest ++ ascii "' not found"

/-- The host answers the connection before it answers the request. -/
def sendStatusOkay (w : World) (a : Addr) : World :=
  (if w.cfg.adbHost then w.reply a .okay else w).reply a .okay

/-- `handle_forward_request`, and whether the request was one. The transport is the
one the acquirer of the caller comes back with. -/
def handleForwardRequest (w : World) (service : Bytes) (acquired : Except Bytes TransportId)
    (a : Addr) : World × Bool :=
  if service == ascii "list-forward" then
    let w' := if w.cfg.adbHost then w.reply a .okay else w
    (w'.reply a (.protocolString (formatListeners w)), true)
  else if service == ascii "killforward-all" then
    (sendStatusOkay (w.onNet (·.removeAllListeners)) a, true)
  else
    match parseForwardRequest service with
    | none => (w, false)
    | some request =>
      match acquired with
      | .error e => (w.reply a (.fail e), true)
      | .ok t =>
        match request with
        | .error e => (w.reply a (.fail e), true)
        | .ok request =>
          match runForwardRequest w t request with
          | (w, .ok resolved) =>
            let w := sendStatusOkay w a
            (if resolved = 0 then w else w.reply a (.protocolString (decimal resolved)), true)
          | (w, .error e) =>
            let rest := match request with
              | .killforward l => l
              | .forward _ l r => l ++ ascii ";" ++ r
            (w.reply a (.fail (installStatusMessage rest e)), true)

end AdbBridge
