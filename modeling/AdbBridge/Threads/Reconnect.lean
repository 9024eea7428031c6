import AdbBridge.Threads.Adapter

/-!
# Losing and finding a device again

A TCP transport outlives its connections. When one of them fails, a task on the looper takes
the transport offline and hands it to the reconnect handler, a thread of its own. The handler
tries to connect again, and on success posts a task that starts the new connection. A
transport that has been kicked is given up instead: a task deletes it.

The machine `reconnect` has the looper with its run queue, the handler with its queue of
attempts, and for each transport all the connections it has had, each with the threads of
its adapter. The sections of the handler under `reconnect_mutex_` are not one step: the
looper does not take that mutex when it runs a task, so what the handler does inside of
its scan can be told apart from outside.

At every moment each transport has one owner (`Reconnect.load`). There is one exception:
the scan posts the task that deletes a transport before it takes the transport out of
the queue, and the task may run before that.
-/

namespace AdbBridge

/-! ### State -/

/-- A task on the run queue of the looper, for a transport. -/
inductive Task
  /-- The one that `HandleError` posts: `handle_offline` and `transport_destroy`. -/
  | handleError (t : ℕ)
  /-- `fdevent_register_transport`. -/
  | register (t : ℕ)
  /-- `fdevent_unregister_transport`. -/
  | unregister (t : ℕ)
  deriving DecidableEq, Repr

def Task.transport : Task → ℕ
  | .handleError t | .register t | .unregister t => t

/-- A `ReconnectAttempt`. Times are in milliseconds. -/
structure Attempt where
  transport : ℕ
  reconnectTime : ℕ
  attemptsLeft : ℕ
  deriving DecidableEq, Repr

/-- The order of the attempts. -/
def Attempt.Before (a b : Attempt) : Prop :=
  a.reconnectTime < b.reconnectTime ∨
    a.reconnectTime = b.reconnectTime ∧ a.transport ≤ b.transport

instance : DecidableRel Attempt.Before := fun _ _ => inferInstanceAs (Decidable (_ ∨ _))

def kMaxAttempts : ℕ := 20

def kDefaultTimeout : ℕ := 3000

/-- A TCP transport. -/
structure Tcp where
  kicked : Bool := false
  /-- Which of its connections is the current one. -/
  conn : ℕ := 0
  conns : ℕ → Adapter := fun _ => {}
  /-- How many of them have been started. -/
  starts : ℕ := 0
  /-- How often `fdevent_unregister_transport` has been run for it. -/
  unregistered : ℕ := 0

/-- Where the looper is in a task. -/
inductive LooperState
  | idle
  /-- In the call of `Stop` of `transport_destroy`. -/
  | stopping (j : ℕ)
  /-- The transport was not kicked, and is to be tracked. -/
  | tracking
  /-- The transport was kicked, and is to be removed. -/
  | removing
  /-- In `ReconnectHandler::Stop`, and after it. No more tasks are run. -/
  | exiting
  deriving DecidableEq, Repr

/-- Where the reconnect handler is in `Run`. -/
inductive HandlerState
  | idle
  /-- It has the mutex, and has looked at the first `n` attempts. -/
  | scanning (n : ℕ)
  /-- It has the mutex, and has called `remove_transport` for the attempt at `n`. -/
  | erasing (n : ℕ)
  /-- In `Reconnect`. -/
  | attempting (a : Attempt)
  /-- `Reconnect` has made a new connection. -/
  | connected (a : Attempt)
  | finished
  deriving DecidableEq, Repr

/-- Whether the handler has `reconnect_mutex_`. -/
def HandlerState.inSection : HandlerState → Bool
  | .scanning _ | .erasing _ => true
  | _ => false

/-- The looper, the handler and the transports. -/
structure Reconnect where
  runQueue : List Task := []
  looper : LooperState := .idle
  running : Bool := true
  reconnectQueue : List Attempt := []
  handler : HandlerState := .idle
  transports : ℕ → Tcp := fun _ => {}
  nextTransport : ℕ := 0

namespace Reconnect

/-- `fdevent_run_on_looper`. -/
def post (s : Reconnect) (task : Task) : Reconnect := { s with runQueue := s.runQueue ++ [task] }

/-- `reconnect_queue_.emplace`. -/
def emplace (s : Reconnect) (a : Attempt) : Reconnect :=
  { s with reconnectQueue := s.reconnectQueue.orderedInsert Attempt.Before a }

def updTcp (s : Reconnect) (t : ℕ) (f : Tcp → Tcp) : Reconnect :=
  { s with transports := Function.update s.transports t (f (s.transports t)) }

end Reconnect

/-- The current connection. -/
def Tcp.connection (x : Tcp) : Adapter := x.conns x.conn

def Tcp.updConn (x : Tcp) (k : ℕ) (c : Adapter) : Tcp :=
  { x with conns := Function.update x.conns k c }

/-! ### Steps -/

/-- What the threads do. An operation says what it acts on, and its guard that this is what
there is to act on. -/
inductive ReconnectOp
  /-- `register_socket_transport`. -/
  | newTransport
  /-- `Kick` or `Reset` sets `kicked_`. The call of `Stop` is a step of the connection. -/
  | kick (t : ℕ)
  /-- A thread of the connection `k` of a transport, or a caller of its `Stop`. -/
  | connection (t k : ℕ) (op : AdapterOp)
  /-- The looper takes up a task of `HandleError`, and calls `Stop`. -/
  | takeError (t j : ℕ)
  /-- `Stop` has returned, and the looper reads `kicked_`. -/
  | errorStopped (t j : ℕ)
  /-- `TrackTransport`. -/
  | track (t now : ℕ)
  | remove (t : ℕ)
  | runRegister (t : ℕ)
  | runUnregister (t : ℕ)
  /-- `ReconnectHandler::Stop`. -/
  | cleanup
  /-- One round of its loop. -/
  | drain (a : Attempt)
  /-- The handler wakes up, and has the mutex. -/
  | wake
  | scanKeep (n : ℕ) (a : Attempt)
  | scanRemove (n : ℕ) (a : Attempt)
  | scanErase (n : ℕ)
  /-- There is nothing to do yet. -/
  | sleep (now : ℕ)
  | pop (a : Attempt) (now : ℕ)
  /-- `Reconnect` fails. -/
  | retry (a : Attempt) (now : ℕ)
  /-- `Reconnect` succeeds: the transport has a new connection. -/
  | connect (a : Attempt)
  | succeed (a : Attempt)
  /-- `Reconnect` of an emulator. -/
  | abort (a : Attempt)
  deriving DecidableEq, Repr

namespace ReconnectOp

/-- What an operation does. -/
def step (s : Reconnect) : ReconnectOp → Reconnect
  | .newTransport => { s.post (.register s.nextTransport) with nextTransport :=
    s.nextTransport + 1 }
  | .kick t => s.updTcp t ({ · with kicked := true })
  | .connection t k op =>
    let c := (s.transports t).conns k
    let s' := s.updTcp t (·.updConn k (op.step c))
    -- `HandleError` is what `error_flag_` guards.
    if !c.reported && (op.step c).reported then s'.post (.handleError t) else s'
  | .takeError _ j => { s with looper := .stopping j }
  | .errorStopped t _ =>
    { s with looper := if (s.transports t).kicked then .removing else .tracking }
  | .track t now =>
    let s' := { s with runQueue := s.runQueue.tail, looper := .idle }
    if s.running then s'.emplace ⟨t, now + 250, kMaxAttempts⟩ else s'
  | .remove t =>
    { s with runQueue := s.runQueue.tail, looper := .idle : Reconnect }.post (.unregister t)
  | .runRegister t =>
    { s with runQueue := s.runQueue.tail : Reconnect }.updTcp t fun x =>
      { x.updConn x.conn (AdapterOp.start.step x.connection) with starts := x.starts + 1 }
  | .runUnregister t =>
    { s with runQueue := s.runQueue.tail : Reconnect }.updTcp t fun x =>
      { x with unregistered := x.unregistered + 1 }
  | .cleanup => { s with looper := .exiting, running := false }
  | .drain a =>
    { s with reconnectQueue := s.reconnectQueue.tail : Reconnect }.post (.unregister a.transport)
  | .wake => { s with handler := if s.running then .scanning 0 else .finished }
  | .scanKeep n _ => { s with handler := .scanning (n + 1) }
  | .scanRemove n a => { s with handler := .erasing n : Reconnect }.post (.unregister a.transport)
  | .scanErase n =>
    { s with handler := .scanning n, reconnectQueue := s.reconnectQueue.eraseIdx n }
  | .sleep _ => { s with handler := .idle }
  | .pop a _ => { s with handler := .attempting a, reconnectQueue := s.reconnectQueue.tail }
  | .retry a now =>
    let s' := { s with handler := .idle }
    if a.attemptsLeft = 0 then s'.post (.unregister a.transport)
    else s'.emplace ⟨a.transport, now + kDefaultTimeout, a.attemptsLeft - 1⟩
  | .connect a =>
    { s with handler := .connected a : Reconnect }.updTcp a.transport fun x =>
      { x.updConn (x.conn + 1) {} with conn := x.conn + 1 }
  | .succeed a => { s with handler := .idle : Reconnect }.post (.register a.transport)
  | .abort a => { s with handler := .idle : Reconnect }.post (.unregister a.transport)

/-- When an operation can be made. A task is taken off the run queue with its last action.
`TrackTransport` waits for the mutex. -/
def Enabled (s : Reconnect) : ReconnectOp → Prop
  | .newTransport => True
  | .kick t => t < s.nextTransport ∧ (s.transports t).unregistered = 0
  | .connection t k op => t < s.nextTransport ∧ k ≤ (s.transports t).conn ∧ op ≠ .start ∧
      op.Enabled ((s.transports t).conns k)
  | .takeError t j => s.looper = .idle ∧ s.runQueue.head? = some (.handleError t) ∧
      (s.transports t).connection.stops j = .idle
  | .errorStopped t j => s.looper = .stopping j ∧ s.runQueue.head? = some (.handleError t) ∧
      (s.transports t).connection.stops j = .returned
  | .track t _ => s.looper = .tracking ∧ s.runQueue.head? = some (.handleError t) ∧
      s.handler.inSection = false
  | .remove t => s.looper = .removing ∧ s.runQueue.head? = some (.handleError t)
  | .runRegister t => s.looper = .idle ∧ s.runQueue.head? = some (.register t) ∧
      AdapterOp.start.Enabled (s.transports t).connection
  | .runUnregister t => s.looper = .idle ∧ s.runQueue.head? = some (.unregister t)
  | .cleanup => s.looper = .idle
  | .drain a => s.looper = .exiting ∧ s.handler = .finished ∧ s.reconnectQueue.head? = some a
  | .wake => s.handler = .idle
  | .scanKeep n a => s.handler = .scanning n ∧ s.reconnectQueue[n]? = some a ∧
      (s.transports a.transport).kicked = false
  | .scanRemove n a => s.handler = .scanning n ∧ s.reconnectQueue[n]? = some a ∧
      (s.transports a.transport).kicked = true
  | .scanErase n => s.handler = .erasing n
  | .sleep now => s.handler = .scanning s.reconnectQueue.length ∧
      ∀ a ∈ s.reconnectQueue.head?, now < a.reconnectTime
  | .pop a now => s.handler = .scanning s.reconnectQueue.length ∧
      s.reconnectQueue.head? = some a ∧ a.reconnectTime ≤ now
  | .retry a _ | .connect a | .abort a => s.handler = .attempting a
  | .succeed a => s.handler = .connected a

instance (s : Reconnect) : ∀ op : ReconnectOp, Decidable (op.Enabled s) := by
  intro op
  cases op <;> unfold Enabled <;> dsimp only <;> infer_instance

end ReconnectOp

/-- The looper, the handler and the transports. -/
def reconnect : Machine Reconnect ReconnectOp where
  init := fun s => s = {}
  enabled := fun s op => op.Enabled s
  step := ReconnectOp.step

instance (s : Reconnect) (op : ReconnectOp) : Decidable (reconnect.enabled s op) :=
  inferInstanceAs (Decidable (op.Enabled s))

/-! ### Places -/

/-- A connection that has been started and has not reported an error. -/
def Tcp.isRunning (x : Tcp) : Bool := x.connection.started && !x.connection.reported

/-- Whether the handler holds an attempt for a transport. -/
def HandlerState.holds (t : ℕ) : HandlerState → Bool
  | .attempting a | .connected a => a.transport == t
  | _ => false

namespace Reconnect

/-- In how many places a transport is, if it is in these attempts: in a connection that is
running, on the run queue with one of the three tasks, among the attempts, and in the hands
of the handler. -/
def placesWith (s : Reconnect) (attempts : List Attempt) (t : ℕ) : ℕ :=
  (s.transports t).isRunning.toNat + s.runQueue.countP (·.transport == t) +
    attempts.countP (·.transport == t) + (s.handler.holds t).toNat

/-- In how many places a transport is. -/
def places (s : Reconnect) (t : ℕ) : ℕ := s.placesWith s.reconnectQueue t

/-- The attempts, but for the one that the handler is about to erase. -/
def attempts (s : Reconnect) : List Attempt :=
  match s.handler with
  | .erasing n => s.reconnectQueue.eraseIdx n
  | _ => s.reconnectQueue

/-- Whether the attempt that the handler is about to erase is one of a transport. -/
def isErasing (s : Reconnect) (t : ℕ) : Bool :=
  match s.handler with
  | .erasing n => s.reconnectQueue[n]?.any (·.transport == t)
  | _ => false

end Reconnect

end AdbBridge
