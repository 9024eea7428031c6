import AdbBridge.Lib.Machine
import AdbBridge.Types.Block

/-!
# A connection over USB

`LibusbConnection` (`client/usb_libusb_android.cpp`) keeps one read transfer with `libusb` at a
time: one for a header, and when the header announces a payload, one for the payload. The
callbacks run on the event thread of `libusb`; `Start`, `Attach`, `Detach`, `Stop` and `Reset`
are called one after the other by the rest of the program. A callback or a section under a lock
is one step of the machine `connection`, so that callbacks come in between the sections of
`CloseDevice`, and a `phase` says where the call that is going on stands.

What `libusb` answers is part of the step. It calls back once for every transfer it has taken,
so a callback needs its transfer to be in `inflight`; and there is nothing to cancel in a
transfer it has not got.

`calls` records the calls that get a device handle, for the discipline of handles and
interfaces, and `replies` what `Write` returned.
-/

namespace AdbBridge.Usb

/-! ### Data -/

/-- The status of a transfer. -/
inductive Status
  | completed | error | timedOut | cancelled | stall | noDevice | overflow
  deriving DecidableEq

/-- A read transfer that `libusb` has got: a header or a payload, and its `length`. -/
structure Transfer where
  id : ℕ
  payload : Bool
  length : ℕ
  deriving DecidableEq

/-- `ReadBlock`. -/
structure ReadBlock where
  transfer : Option ℕ := none
  block : Block := {}
  active : Bool := false
  deriving DecidableEq

/-- The messages that `OnError` is given. The error of a failed `Attach` has a text of its own
in the source, which says which call failed. -/
inductive UsbError
  | readFailed (status : Status)
  | headerLength (actual : ℕ)
  | payloadTooLong (length : ℕ)
  | payloadLength (wanted got : ℕ)
  | writeFailed
  | attachFailed
  | requestedStop
  deriving DecidableEq

/-- The checks that end the process. The last one is not a `CHECK`: it is the access to a
transfer that is not there. -/
inductive Check
  | noIncomingHeader
  | incomingHeader
  | transfer
  | capacity
  | nullTransfer
  deriving DecidableEq

/-- The call that `CloseDevice` or `StartImpl` is a part of. -/
inductive Caller
  | start | attach | detach | stop | destroy
  deriving DecidableEq

/-- Where the call that is going on stands. -/
inductive Phase
  | idle
  | starting (caller : Caller)
  | cancelWrites (caller : Caller)
  | awaitWrites (caller : Caller)
  | cancelReads (caller : Caller)
  | awaitReads (caller : Caller)
  | release (caller : Caller)
  | gone
  deriving DecidableEq

/-- What `FindInterface` finds. -/
structure Interface where
  num : ℕ := 0
  zeroMask : ℕ := 0
  deriving DecidableEq

/-- The calls of `libusb` that get a device handle. The handle of a submission is the current
one, and with its result. -/
inductive Call
  | getStringDescriptor (handle : Option ℕ)
  | clearHalt (handle : Option ℕ)
  | getBosDescriptor (handle : Option ℕ)
  | claimInterface (handle : Option ℕ) (num : ℕ) (ok : Bool)
  | releaseInterface (handle : Option ℕ) (num : ℕ)
  | resetDevice (handle : Option ℕ)
  | submitTransfer (handle : Option ℕ)
  deriving DecidableEq

/-- What a call of `Write` did: what it returned, the lengths of the transfers it submitted and
whether `libusb` took them, and whether the connection was detached or had reported an error. -/
structure Reply where
  returned : Bool
  required : List ℕ
  submitted : List (ℕ × Bool)
  detached : Bool
  reported : Bool
  deriving DecidableEq

/-- `LibusbConnection`, and what `libusb` and the transport have of it. -/
structure LibusbConnection where
  deviceHandle : Option ℕ
  interface : Interface := {}
  headerRead : ReadBlock := {}
  payloadRead : ReadBlock := {}
  incomingHeader : Option Bytes := none
  writes : List ℕ := []
  nextWriteId : ℕ := 0
  terminated : Bool := false
  detached : Bool := false
  /-- What `OnError` has passed on. It does so once. -/
  error : Option UsbError := none
  /-- `StartImpl` has run. -/
  started : Bool := false
  phase : Phase := .idle
  failed : Option Check := none
  inflight : List Transfer := []
  inflightWrites : List ℕ := []
  nextTransfer : ℕ := 0
  nextHandle : ℕ := 1
  handled : List (Bytes × Option Bytes) := []
  calls : List Call := []
  replies : List Reply := []
  deriving DecidableEq

/-- `sizeof(amessage)`. -/
def headerSize : ℕ := 24

/-- `MAX_PAYLOAD`. -/
def maxPayload : ℕ := 1024 * 1024

/-- The `data_length` of a header. -/
def dataLength (header : Bytes) : ℕ :=
  (header.getD 12 0).toNat + 2 ^ 8 * (header.getD 13 0).toNat
    + 2 ^ 16 * (header.getD 14 0).toNat + 2 ^ 24 * (header.getD 15 0).toNat

namespace LibusbConnection

variable (c : LibusbConnection)

/-- The read block for payloads or for headers. -/
def readBlock (payload : Bool) : ReadBlock := if payload then c.payloadRead else c.headerRead

def setReadBlock (payload : Bool) (r : ReadBlock) : LibusbConnection :=
  if payload then { c with payloadRead := r } else { c with headerRead := r }

/-- A check fails. -/
def fail (check : Check) : LibusbConnection := { c with failed := some check }

def call (k : Call) : LibusbConnection := { c with calls := c.calls ++ [k] }

/-- `OnError`. -/
def onError (e : UsbError) : LibusbConnection :=
  if c.error = none then { c with error := some e } else c

/-! ### Reading -/

/-- `Cleanup`. -/
def cleanup (payload : Bool) : LibusbConnection :=
  c.setReadBlock payload { c.readBlock payload with transfer := none, active := false }

/-- `CreateRead`. -/
def createRead (payload : Bool) : LibusbConnection :=
  { c.setReadBlock payload { c.readBlock payload with transfer := some c.nextTransfer } with
    nextTransfer := c.nextTransfer + 1 }

/-- `SubmitRead`. A transfer that `libusb` does not take is only logged. -/
def submitRead (payload : Bool) (length : ℕ) (taken : Bool) : LibusbConnection :=
  match (c.readBlock payload).block.resize length with
  | none => c.fail .capacity
  | some block =>
    match (c.readBlock payload).transfer with
    | none => c.fail .nullTransfer
    | some id =>
      let c := (c.setReadBlock payload { transfer := some id, block := block, active := true }).call
        (.submitTransfer c.deviceHandle)
      if taken then { c with inflight := c.inflight ++ [⟨id, payload, length⟩] } else c

/-- The part that both callbacks share for a transfer with another status than `COMPLETED`. -/
def readFailed (payload : Bool) (status : Status) : LibusbConnection :=
  (if c.detached then c else c.onError (.readFailed status)).cleanup payload

/-- `header_read_cb`. The data are the bytes that were read, as many as `actual_length`. -/
def headerReadCb (status : Status) (data : Bytes) (taken : Bool) : LibusbConnection :=
  if c.headerRead.transfer = none then c.fail .transfer
  else if c.terminated then c.cleanup false
  else if status ≠ .completed then c.readFailed false status
  else if data.length ≠ headerSize then (c.onError (.headerLength data.length)).cleanup false
  else if c.incomingHeader ≠ none then c.fail .noIncomingHeader
  else if maxPayload < dataLength data then
    (({ c with incomingHeader := some data } : LibusbConnection).onError
      (.payloadTooLong (dataLength data))).cleanup false
  else if dataLength data = 0 then
    ({ c with handled := c.handled ++ [(data, none)] } : LibusbConnection).submitRead
      false headerSize taken
  else
    ({ c with
        incomingHeader := some data
        headerRead := { c.headerRead with active := false } } : LibusbConnection).submitRead
      true (dataLength data) taken

/-- `payload_read_cb`, of a transfer of `length` bytes. The block moves to the packet. -/
def payloadReadCb (length : ℕ) (status : Status) (data : Bytes) (taken : Bool) : LibusbConnection :=
  if c.payloadRead.transfer = none then c.fail .transfer
  else if c.terminated then c.cleanup true
  else if status ≠ .completed then c.readFailed true status
  else if data.length ≠ length then (c.onError (.payloadLength length data.length)).cleanup true
  else
    match c.incomingHeader with
    | none => c.fail .incomingHeader
    | some header =>
      ({ c with
          handled := c.handled ++ [(header, some data)]
          incomingHeader := none
          payloadRead := { c.payloadRead with block := {}, active := false } } :
        LibusbConnection).submitRead false headerSize taken

/-- The callback of a read transfer. -/
def readCb (t : Transfer) (status : Status) (data : Bytes) (taken : Bool) : LibusbConnection :=
  let c := { c with inflight := c.inflight.erase t }
  if t.payload then c.payloadReadCb t.length status data taken
  else c.headerReadCb status data taken

/-! ### Writing -/

/-- `should_perform_zero_transfer`. -/
def shouldPerformZeroTransfer (length zeroMask : ℕ) : Bool :=
  length != 0 && zeroMask != 0 && length &&& zeroMask == 0

/-- `SubmitWrite`. -/
def submitWrite (taken : Bool) : LibusbConnection :=
  let c := ({ c with nextWriteId := c.nextWriteId + 1 } : LibusbConnection).call
    (.submitTransfer c.deviceHandle)
  if taken then
    { c with
      writes := c.writes ++ [c.nextWriteId - 1]
      inflightWrites := c.inflightWrites ++ [c.nextWriteId - 1] }
  else c

/-- The transfers that a packet needs: the header, the payload when there is one, and an empty
one when the payload is a multiple of the packet size of the endpoint. -/
def requiredTransfers (payloadLength : ℕ) : List ℕ :=
  headerSize ::
    if payloadLength = 0 then []
    else payloadLength ::
      if shouldPerformZeroTransfer payloadLength c.interface.zeroMask then [0] else []

/-- `Write` of a packet with a payload of some length, with what becomes of its submissions. -/
def write (payloadLength : ℕ) (header payload zero : Bool) : LibusbConnection :=
  let reply (returned : Bool) (submitted : List (ℕ × Bool)) : Reply :=
    ⟨returned, c.requiredTransfers payloadLength, submitted, c.detached, c.error.isSome⟩
  if c.terminated then { c with replies := c.replies ++ [reply false []] }
  else if c.detached then { c with replies := c.replies ++ [reply true []] }
  else
    let c₁ := c.submitWrite header
    if payloadLength = 0 then
      { c₁ with replies := c.replies ++ [reply true [(headerSize, header)]] }
    else
      let c₂ := c₁.submitWrite payload
      if shouldPerformZeroTransfer payloadLength c.interface.zeroMask then
        { c₂.submitWrite zero with
          replies := c.replies
            ++ [reply true [(headerSize, header), (payloadLength, payload), (0, zero)]] }
      else
        { c₂ with
          replies := c.replies ++ [reply true [(headerSize, header), (payloadLength, payload)]] }

/-- `write_cb`. -/
def writeCb (id : ℕ) (status : Status) : LibusbConnection :=
  let c := { c with inflightWrites := c.inflightWrites.erase id, writes := c.writes.erase id }
  if status ≠ .completed ∧ c.detached = false then c.onError .writeFailed else c

/-! ### Opening and closing -/

/-- What `libusb` answers while a device is opened. -/
structure Opening where
  opened : Bool
  descriptor : Bool
  interface : Option Interface
  claimed : Bool
  haltCleared : Bool × Bool
  deriving DecidableEq

/-- The part of `OpenDevice` that makes a handle. -/
def initHandle (o : Opening) : Bool × LibusbConnection :=
  if o.opened = false then (false, c)
  else
    let c := { c with deviceHandle := some c.nextHandle, nextHandle := c.nextHandle + 1 }
    let closed : LibusbConnection := { c with deviceHandle := none }
    match o.descriptor, o.interface with
    | true, some interface =>
      let c := ({ c with interface := interface } : LibusbConnection).call
        (.getStringDescriptor c.deviceHandle)
      let c := c.call (.claimInterface c.deviceHandle interface.num o.claimed)
      if o.claimed then (true, c) else (false, { c with deviceHandle := none })
    | _, _ => (false, closed)

/-- The rest of `OpenDevice`. A halt that cannot be cleared gives up the handle. -/
def clearHalts (halts : Bool × Bool) : Bool × LibusbConnection :=
  let giveUp (c : LibusbConnection) : LibusbConnection :=
    { c.call (.releaseInterface c.deviceHandle c.interface.num) with deviceHandle := none }
  let c := c.call (.clearHalt c.deviceHandle)
  if halts.1 = false then (false, giveUp c)
  else
    let c := c.call (.clearHalt c.deviceHandle)
    if halts.2 = false then (false, giveUp c)
    else (true, c.call (.getBosDescriptor c.deviceHandle))

/-- `OpenDevice`. A handle that is there is taken as it is. -/
def openDevice (o : Opening) : Bool × LibusbConnection :=
  if c.deviceHandle.isSome then c.clearHalts o.haltCleared
  else
    match c.initHandle o with
    | (true, c) => c.clearHalts o.haltCleared
    | (false, c) => (false, c)

/-- `Attach` up to its `StartImpl`. `Start` reports when it fails. -/
def attach (caller : Caller) (o : Opening) : LibusbConnection :=
  match ({ c with terminated := false, detached := false } : LibusbConnection).openDevice o with
  | (true, c) => { c with phase := .starting caller }
  | (false, c) => if caller = .start then c.onError .attachFailed else c

/-- What the caller of `CloseDevice` does after it. -/
def closed (caller : Caller) : LibusbConnection :=
  match caller with
  | .start => { c.onError .attachFailed with phase := .idle }
  | .attach => { c with phase := .idle }
  | .detach => { c with phase := .idle }
  | .stop => { c.onError .requestedStop with phase := .idle }
  | .destroy => { c.onError .requestedStop with phase := .gone }

/-- `CloseDevice` up to its first lock. -/
def closeDevice (caller : Caller) : LibusbConnection :=
  if c.terminated then c.closed caller
  else { c with terminated := true, phase := .cancelWrites caller }

/-- `StartImpl`. -/
def startImpl (caller : Caller) (taken : Bool) : LibusbConnection :=
  if c.deviceHandle = none then c.closeDevice caller
  else
    ({ (c.createRead false).createRead true with
        phase := .idle
        started := true } : LibusbConnection).submitRead false headerSize taken

/-- The transfer is with `libusb`. -/
def isInflight (id : ℕ) : Bool := c.inflight.any (·.id == id)

/-- `CancelReadTransfer`. What is not with `libusb` cannot be cancelled, and it may answer so
for a transfer whose callback is about to run. -/
def cancelReadTransfer (payload cancelled : Bool) : LibusbConnection :=
  match (c.readBlock payload).transfer with
  | none => c
  | some id =>
    if (c.readBlock payload).active = false then c.cleanup payload
    else if c.isInflight id && cancelled then c
    else c.cleanup payload

/-- The last part of `CloseDevice`. -/
def releaseHandle (caller : Caller) : LibusbConnection :=
  let c :=
    if c.deviceHandle.isSome then
      { c.call (.releaseInterface c.deviceHandle c.interface.num) with deviceHandle := none }
    else c
  c.closed caller

/-- What `Create` finds out about a device: its descriptor and interface, and whether this
server owns it. -/
structure Creation where
  descriptor : Bool
  interface : Option Interface
  owned : Bool
  deriving DecidableEq

/-- `Create`, with the handle of a device that somebody else has opened or without. Where it
fails, the connection is destroyed. -/
def create (handle : Option ℕ) (k : Creation) : LibusbConnection :=
  let c : LibusbConnection := { deviceHandle := handle }
  match k.descriptor, k.interface with
  | true, some interface =>
    let c := ({ c with interface := interface } : LibusbConnection).call
      (.getStringDescriptor handle)
    if k.owned then c else c.closeDevice .destroy
  | _, _ => c.closeDevice .destroy

/-- `Reset`. Where it works, the looper is asked to process the device again. -/
def reset (ok : Bool) : LibusbConnection :=
  let c := c.call (.resetDevice c.deviceHandle)
  if ok then c.closeDevice .stop else c

end LibusbConnection

/-! ### The machine -/

open LibusbConnection (Opening Creation)

/-- The steps of a connection: the calls, the further sections of the call that is going on, the
callbacks, and `Write`. -/
inductive Op
  | start (o : Opening)
  | attach (o : Opening)
  | detach
  | stop
  | destroy
  | reset (ok : Bool)
  | startImpl (caller : Caller) (taken : Bool)
  | cancelWrites (caller : Caller) (cancelled : List ℕ)
  | awaitWrites (caller : Caller)
  | cancelReads (caller : Caller) (header payload : Bool)
  | awaitReads (caller : Caller)
  | release (caller : Caller)
  | readCb (t : Transfer) (status : Status) (data : Bytes) (taken : Bool)
  | write (payloadLength : ℕ) (header payload zero : Bool)
  | writeCb (id : ℕ) (status : Status)
  deriving DecidableEq

namespace LibusbConnection

variable (c : LibusbConnection)

/-- What a step does. -/
def step : Op → LibusbConnection
  | .start o => c.attach .start o
  | .attach o => c.attach .attach o
  | .detach => ({ c with detached := true } : LibusbConnection).closeDevice .detach
  | .stop => c.closeDevice .stop
  | .destroy => c.closeDevice .destroy
  | .reset ok => c.reset ok
  | .startImpl caller taken => c.startImpl caller taken
  | .cancelWrites caller cancelled =>
    { c with
      writes := c.writes.filter fun id => id ∈ c.inflightWrites ∧ id ∈ cancelled
      phase := .awaitWrites caller }
  | .awaitWrites caller => { c with phase := .cancelReads caller }
  | .cancelReads caller header payload =>
    { (c.cancelReadTransfer false header).cancelReadTransfer true payload with
      phase := .awaitReads caller }
  | .awaitReads caller => { c with incomingHeader := none, phase := .release caller }
  | .release caller => c.releaseHandle caller
  | .readCb t status data taken => c.readCb t status data taken
  | .write payloadLength header payload zero => c.write payloadLength header payload zero
  | .writeCb id status => c.writeCb id status

/-- The steps that a connection can take: calls come one after the other, the sections of a call
in their order, and `CloseDevice` waits for the callbacks. -/
def Enabled : Op → Prop
  | .start _ => c.phase = .idle
  | .attach _ => c.phase = .idle
  | .detach => c.phase = .idle
  | .stop => c.phase = .idle
  | .destroy => c.phase = .idle
  | .reset _ => c.phase = .idle
  | .startImpl caller _ => c.phase = .starting caller
  | .cancelWrites caller _ => c.phase = .cancelWrites caller
  | .awaitWrites caller => c.phase = .awaitWrites caller ∧ c.writes = []
  | .cancelReads caller _ _ => c.phase = .cancelReads caller
  | .awaitReads caller =>
    c.phase = .awaitReads caller ∧ c.headerRead.active = false ∧ c.payloadRead.active = false
  | .release caller => c.phase = .release caller
  | .readCb t _ _ _ => t ∈ c.inflight
  | .write _ _ _ _ => c.phase ≠ .gone
  | .writeCb id _ => id ∈ c.inflightWrites

instance decidableEnabled (op : Op) : Decidable (c.Enabled op) := by
  cases op <;> dsimp only [Enabled] <;> infer_instance

end LibusbConnection

/-! ### What the parts of a step change -/

namespace LibusbConnection

variable (c : LibusbConnection)

theorem onError_eq (e : UsbError) : c.onError e = { c with error := some (c.error.getD e) } := by
  rw [onError]
  split_ifs with h
  · rw [h]
    rfl
  · obtain ⟨e', he⟩ := Option.ne_none_iff_exists'.mp h
    rw [he, Option.getD_some, ← he]

/-- Opening changes the handle and what is known of the interface. -/
theorem openDevice_eq (o : Opening) : ∃ handle interface nextHandle calls,
    (c.openDevice o).2 = { c with
      deviceHandle := handle, interface := interface, nextHandle := nextHandle,
      calls := calls } := by
  have hhalts : ∀ (c : LibusbConnection) halts, ∃ handle calls,
      (c.clearHalts halts).2 = { c with deviceHandle := handle, calls := calls } := by
    intro c halts
    rw [clearHalts]
    split_ifs <;> exact ⟨_, _, rfl⟩
  have hinit : ∃ handle interface nextHandle calls,
      (c.initHandle o).2 = { c with
        deviceHandle := handle, interface := interface, nextHandle := nextHandle,
        calls := calls } := by
    rw [initHandle]
    rcases o with ⟨_ | _, _ | _, _ | interface, _ | _, halts⟩ <;> exact ⟨_, _, _, _, rfl⟩
  rw [openDevice]
  split_ifs
  · obtain ⟨handle, calls, heq⟩ := hhalts c o.haltCleared
    exact ⟨handle, _, _, calls, heq⟩
  · obtain ⟨handle, interface, nextHandle, calls, heq⟩ := hinit
    split
    · next c₁ hc₁ =>
      rw [hc₁] at heq
      obtain rfl : c₁ = _ := heq
      obtain ⟨handle', calls', heq'⟩ := hhalts _ o.haltCleared
      exact ⟨handle', interface, nextHandle, calls', heq'⟩
    · next c₁ hc₁ =>
      rw [hc₁] at heq
      exact ⟨_, _, _, _, heq⟩

/-- Writing changes what is known of the writes. -/
theorem write_eq (payloadLength : ℕ) (header payload zero : Bool) :
    ∃ writes nextWriteId inflightWrites calls replies,
      c.write payloadLength header payload zero = { c with
        writes := writes, nextWriteId := nextWriteId, inflightWrites := inflightWrites,
        calls := calls, replies := replies } := by
  have hsubmit : ∀ (c : LibusbConnection) taken, ∃ writes nextWriteId inflightWrites calls,
      c.submitWrite taken = { c with
        writes := writes, nextWriteId := nextWriteId, inflightWrites := inflightWrites,
        calls := calls } := by
    intro c taken
    rw [submitWrite]
    split_ifs <;> exact ⟨_, _, _, _, rfl⟩
  obtain ⟨w₁, n₁, i₁, k₁, h₁⟩ := hsubmit c header
  obtain ⟨w₂, n₂, i₂, k₂, h₂⟩ := hsubmit (c.submitWrite header) payload
  obtain ⟨w₃, n₃, i₃, k₃, h₃⟩ := hsubmit ((c.submitWrite header).submitWrite payload) zero
  rw [write]
  split_ifs
  · exact ⟨_, _, _, _, _, rfl⟩
  · exact ⟨_, _, _, _, _, rfl⟩
  · dsimp only
    rw [h₁]
    exact ⟨_, _, _, _, _, rfl⟩
  · dsimp only
    rw [h₃, h₂, h₁]
    exact ⟨_, _, _, _, _, rfl⟩
  · dsimp only
    rw [h₂, h₁]
    exact ⟨_, _, _, _, _, rfl⟩

/-- What a connection has recorded, with the handle and the interface it has. -/
structure Account where
  handle : Option ℕ
  num : ℕ
  calls : List Call
  replies : List Reply

/-- Some calls are made. -/
def Account.calling (a : Account) (ks : List Call) : Account := { a with calls := a.calls ++ ks }

def account : Account := ⟨c.deviceHandle, c.interface.num, c.calls, c.replies⟩

@[simp] theorem account_onError (e : UsbError) : (c.onError e).account = c.account := by
  rw [onError_eq]
  rfl

@[simp] theorem account_cleanup (p : Bool) : (c.cleanup p).account = c.account := by
  cases p <;> rfl

@[simp] theorem account_closed (caller : Caller) : (c.closed caller).account = c.account := by
  cases caller <;> first | exact account_onError c _ | rfl

@[simp] theorem account_closeDevice (caller : Caller) :
    (c.closeDevice caller).account = c.account := by
  rw [closeDevice]
  split_ifs
  · exact account_closed c caller
  · rfl

@[simp] theorem account_readFailed (p : Bool) (status : Status) :
    (c.readFailed p status).account = c.account := by
  rw [readFailed, account_cleanup]
  split_ifs
  · rfl
  · exact account_onError c _

theorem cancelReadTransfer_eq (p cancelled : Bool) :
    c.cancelReadTransfer p cancelled = c ∨ c.cancelReadTransfer p cancelled = c.cleanup p := by
  rw [cancelReadTransfer]
  split
  · exact .inl rfl
  · split_ifs
    · exact .inr rfl
    · exact .inl rfl
    · exact .inr rfl

@[simp] theorem account_cancelReadTransfer (p cancelled : Bool) :
    (c.cancelReadTransfer p cancelled).account = c.account := by
  rcases cancelReadTransfer_eq c p cancelled with heq | heq <;> rw [heq]
  exact account_cleanup c p

theorem account_submitRead (p : Bool) (length : ℕ) (taken : Bool) :
    (c.submitRead p length taken).account = c.account ∨
      (c.submitRead p length taken).account =
        c.account.calling [.submitTransfer c.deviceHandle] := by
  rw [submitRead]
  split
  · exact .inl rfl
  · split
    · exact .inl rfl
    · cases taken <;> cases p <;> exact .inr rfl

/-- A callback calls nothing, or submits the next read. -/
theorem account_readCb (t : Transfer) (status : Status) (data : Bytes) (taken : Bool) :
    (c.readCb t status data taken).account = c.account ∨
      ¬c.terminated = true ∧ status = .completed ∧ (c.readCb t status data taken).account =
        c.account.calling [.submitTransfer c.deviceHandle] := by
  have hnext {c' : LibusbConnection} (hc' : c'.account = c.account) (hterm : ¬c.terminated = true)
      (hstatus : ¬status ≠ .completed) (p : Bool) (length : ℕ) :
      (c'.submitRead p length taken).account = c.account ∨ ¬c.terminated = true ∧
        status = .completed ∧ (c'.submitRead p length taken).account =
          c.account.calling [.submitTransfer c.deviceHandle] := by
    have hhandle : c'.deviceHandle = c.deviceHandle := congrArg Account.handle hc'
    rw [← hc', ← hhandle]
    exact (account_submitRead c' p length taken).imp_right
      fun h => ⟨hterm, not_ne_iff.mp hstatus, h⟩
  by_cases hp : t.payload = true
  · rw [readCb, if_pos hp, payloadReadCb]
    split_ifs with hnone hterm hstatus hlength
    · exact .inl rfl
    · exact .inl (account_cleanup _ _)
    · exact .inl (account_readFailed _ _ _)
    · exact .inl ((account_cleanup _ _).trans (account_onError _ _))
    · split
      · exact .inl rfl
      · refine hnext ?_ hterm hstatus _ _
        rfl
  · rw [readCb, if_neg hp, headerReadCb]
    split_ifs with hnone hterm hstatus hlength hsome hlong hzero
    · exact .inl rfl
    · exact .inl (account_cleanup _ _)
    · exact .inl (account_readFailed _ _ _)
    · exact .inl ((account_cleanup _ _).trans (account_onError _ _))
    · exact .inl rfl
    · exact .inl ((account_cleanup _ _).trans (account_onError _ _))
    · refine hnext ?_ hterm hstatus _ _
      rfl
    · refine hnext ?_ hterm hstatus _ _
      rfl

theorem account_submitWrite (taken : Bool) :
    (c.submitWrite taken).account = c.account.calling [.submitTransfer c.deviceHandle] := by
  cases taken <;> rfl

/-- All that an `Attach` calls is called by `OpenDevice`. -/
theorem account_attach (caller : Caller) (o : Opening) : (c.attach caller o).account =
    (openDevice { c with terminated := false, detached := false } o).2.account := by
  rw [attach]
  split
  · next c₁ hc₁ => rw [hc₁]; rfl
  · next c₁ hc₁ =>
    rw [hc₁]
    split_ifs
    · exact account_onError c₁ _
    · rfl

/-- **A read that can be submitted**: there is room for it and a transfer. -/
theorem submitRead_eq {p : Bool} {length id : ℕ} {b : Block}
    (hroom : (c.readBlock p).block.resize length = some b)
    (hid : (c.readBlock p).transfer = some id) (taken : Bool) :
    c.submitRead p length taken
      = { (c.setReadBlock p ⟨some id, b, true⟩).call (.submitTransfer c.deviceHandle) with
          inflight := if taken then c.inflight ++ [⟨id, p, length⟩] else c.inflight } := by
  rw [submitRead, hroom, hid]
  cases taken <;> cases p <;> rfl

end LibusbConnection

/-- A connection, from its creation on and until a check fails. -/
def connection : Machine LibusbConnection Op where
  init c := ∃ handle k, c = LibusbConnection.create handle k
  enabled c op := c.failed = none ∧ c.Enabled op
  step := LibusbConnection.step

end AdbBridge.Usb
