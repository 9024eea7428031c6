import AdbBridge.HandlePacket

/-!
# The event loop and the server as a machine

The main thread of the server runs the epoll loop: it waits for events on its
descriptors, calls the function of the first descriptor that is still installed, and
then runs everything that other threads have queued for it. One step of the machine
below is one call of that kind: an iteration of the loop up to the run queue, or one
function of the run queue.

What the other threads do is left open. They queue packets and errors of connections
that have been started, registrations and removals, in any order the guard admits:

* a connection reports one error, and may deliver packets until its transport is
  deleted;
* the removal of a transport is queued by the main thread itself when the connection
  fails, and the run queue is empty before the loop goes on, so that no descriptor is
  looked at in between. Only the reconnect thread queues removals at any time, and it
  knows TCP transports only.

The functions of the system calls are those of `Sys`, fixed for a run and otherwise
arbitrary, so a statement about every run is one about every behaviour of the
environment.
-/

namespace AdbBridge

/-! ### The loop -/

/-- What an `fdevent` belongs to. Those that belong neither to a socket nor to a
listener are of no consequence here. -/
inductive Fde
  | socket (a : Addr)
  | listener (l : ListenerId)
  | other
  deriving DecidableEq, Repr

/-- The events `epoll_wait` reports for a descriptor. -/
structure EpollEvents where
  epollin : Bool := false
  epollout : Bool := false
  /-- `EPOLLERR | EPOLLHUP | EPOLLRDHUP`. -/
  epollhup : Bool := false
  deriving DecidableEq, Repr

/-- The interest of an `fdevent`, if it is installed. -/
def interest (w : World) : Fde → Option Fdevent
  | .socket a => (w.sk.heap a).bind fun s =>
    if s.kind = .localSocket then some s.fde else none
  | .listener l => if w.net.listenerList.any (·.id == l) then some { read := true } else none
  | .other => none

/-- The events the loop makes of those of the kernel. An error or the end of the
connection is passed on as a read. -/
def EpollEvents.events (e : EpollEvents) : Fdevent :=
  { read := e.epollin || e.epollhup, write := e.epollout }

/-- The `CHECK`s of the loop: the kernel reports what it was asked for. -/
def EpollEvents.expected (e : EpollEvents) (i : Fdevent) : Bool :=
  (!e.epollin || i.read) && (!e.epollout || i.write)

/-- The function of an `fdevent` that is installed. -/
def invokeFde (w : World) (ev : Fdevent) : Fde → World
  | .socket a => localSocketEventFunc w a ev
  | .listener id =>
    if ev.read then
      match w.net.listenerList.find? (·.id == id) with
      | none => w
      | some l =>
        let accepted := w.io.sys.accept w.io.tick
        let w := w.tick
        if !accepted then w
        else if l.isSmartSocket then ssListenerEventFunc w
        else listenerEventFunc w l
    else w
  | .other => w

/-- An iteration of `fdevent_context_epoll::Loop`, up to the run queue. Of all the
events reported, `HandleEvents` handles the first on a descriptor that is still
installed. -/
def loopIteration (w : World) (reports : List (Fde × EpollEvents)) : World :=
  if reports.all fun r => (interest w r.1).all r.2.expected then
    match reports.find? fun r => (interest w r.1).isSome with
    | none => w
    | some (fde, e) => invokeFde w e.events fde
  else w.raise .checkEpoll

/-! ### The machine -/

/-- A step of the main thread. -/
inductive Op
  /-- An iteration of the loop. -/
  | poll (reports : List (Fde × EpollEvents))
  /-- `handle_packet`, queued by `HandleRead`. -/
  | packet (t : TransportId) (p : Apacket)
  /-- What `HandleError` queues. -/
  | handleError (t : TransportId)
  /-- `fdevent_register_transport`. -/
  | register (t : TransportId)
  /-- `fdevent_unregister_transport`. -/
  | unregister (t : TransportId)
  /-- A device appears. -/
  | newTransport (i : TransportInfo)
  /-- A thread kicks a transport. -/
  | kick (t : TransportId)
  /-- The reconnect thread gives up on a transport. -/
  | giveUp (t : TransportId)
  /-- `close_all_sockets` by itself. -/
  | closeAllSockets (t : TransportId)

/-- What an operation does. -/
def Op.step (w : World) : Op → World
  | .poll reports => loopIteration w reports
  | .packet t p => handlePacket w t p
  | .handleError t => AdbBridge.handleError w t
  | .register t => fdeventRegisterTransport w t
  | .unregister t => fdeventUnregisterTransport w t
  | .newTransport i => AdbBridge.newTransport w i
  | .kick t => AdbBridge.kick w t
  | .giveUp t => w.updTransport t ({ · with removalQueued := true })
  | .closeAllSockets t => AdbBridge.closeAllSockets w t

/-- When an operation can come up. -/
def Op.Enabled (w : World) : Op → Prop
  | .poll _ => ∀ t < w.net.nextTransport, (w.transport t).alive = true →
      (w.transport t).removalQueued = true → (w.transport t).type = .kTransportLocal
  | .packet t _ => (w.transport t).alive = true ∧ (w.transport t).conn ≠ .idle
  | .handleError t => (w.transport t).alive = true ∧ (w.transport t).conn = .running
  | .register t => (w.transport t).alive = true ∧
      (t ∈ w.net.pendingList ∧ (w.transport t).conn = .idle ∨
        (w.transport t).conn = .stopped ∧ (w.transport t).type = .kTransportLocal ∧
          (w.transport t).removalQueued = false)
  | .unregister t => (w.transport t).alive = true ∧ (w.transport t).removalQueued = true
  | .newTransport i => i.type = .kTransportUsb ∨ i.type = .kTransportLocal
  | .kick t => (w.transport t).alive = true
  | .giveUp t => (w.transport t).alive = true ∧ (w.transport t).conn = .stopped ∧
      (w.transport t).type = .kTransportLocal ∧ (w.transport t).removalQueued = false
  | .closeAllSockets _ => True

instance (w : World) (op : Op) : Decidable (op.Enabled w) := by
  cases op <;> dsimp only [Op.Enabled] <;> infer_instance

/-- The listener for the clients of the server. -/
def smartSocketListener : Alistener where
  id := 0
  localName := ascii "tcp:5037"
  connectTo := kSmartSocketConnectTo

/-- A server that has just been started: no transports, no sockets, and the listener
for its clients. -/
def initialWorld (cfg : Config) (sys : Sys) : World where
  cfg := { cfg with adbHost := true }
  io := { sys := sys }
  net := { listenerList := [smartSocketListener], nextListener := 1 }

/-- The server. A process that has died takes no more steps. -/
def server : Machine World Op where
  init := fun w => ∃ cfg sys, w = initialWorld cfg sys
  enabled := fun w op => w.fault = none ∧ op.Enabled w
  step := Op.step

instance (w : World) (op : Op) : Decidable (server.enabled w op) :=
  inferInstanceAs (Decidable (w.fault = none ∧ op.Enabled w))

/-- A run from the start that the server admits ends in a state it can reach. -/
theorem reach_of_legal {cfg : Config} {sys : Sys} {ops : List Op}
    (h : server.Legal (initialWorld cfg sys) ops) :
    server.Reach (server.run (initialWorld cfg sys) ops) := by
  have hinit : server.Reach (initialWorld cfg sys) := .init ⟨cfg, sys, rfl⟩
  exact hinit.run h

end AdbBridge
