import AdbBridge.Threads.Adapter
import AdbBridge.Types.Packet

/-!
# The loops that read packets

A connection is read by a loop on a thread of its own. `BlockingConnectionAdapter` reads a packet
at a time from the connection below it. `NonblockingFdConnection` polls, collects what comes in
and takes a packet out once it is complete. Both hand their packets to `atransport::HandleRead`,
which looks at the header. A packet with a good header goes to the looper, for `handle_packet`;
one with a bad header is dropped, and `HandleRead` returns `false`.

The protocol wants a connection closed on which a bad header has come in (`Closes`). But neither
of the loops looks at what `HandleRead` returns. So all that can be said is what the machines
`blockingReads` and `nonblockingReads` say: what `HandleRead` found out has no effect, and a
connection is closed after a bad header if something else closes it.
-/

namespace AdbBridge

open List Option

/-! ### Packets on the wire -/

/-- The header of a packet, as it comes in. -/
structure Amessage where
  command : UInt32
  arg0 : UInt32
  arg1 : UInt32
  dataLength : UInt32
  dataCheck : UInt32
  magic : UInt32
  deriving DecidableEq, Repr

/-- A packet with its whole header. -/
structure WirePacket where
  msg : Amessage
  payload : Bytes
  deriving DecidableEq, Repr

/-- `sizeof(amessage)`. -/
def sizeofAmessage : ℕ := 24

/-- The little-endian word at an offset. -/
def wordAt (b : Bytes) (i : ℕ) : UInt32 :=
  let byte (k : ℕ) : UInt32 := (b.getD (i + k) 0).toUInt32
  byte 0 ||| byte 1 <<< 8 ||| byte 2 <<< 16 ||| byte 3 <<< 24

/-- The `memcpy` of a header. -/
def amessageOfBytes (b : Bytes) : Amessage where
  command := wordAt b 0
  arg0 := wordAt b 4
  arg1 := wordAt b 8
  dataLength := wordAt b 12
  dataCheck := wordAt b 16
  magic := wordAt b 20

def aStlsCommand : UInt32 := 0x534C5453

/-- `check_header`, for a transport with this `max_payload`. -/
def checkHeader (p : WirePacket) (maxPayload : ℕ) : Bool :=
  if p.msg.magic ≠ p.msg.command ^^^ 0xffffffff then false
  else if maxPayload < p.msg.dataLength.toNat then false
  else true

/-! ### What a connection does with its packets -/

/-- What is seen of a connection. -/
inductive ReadEvent
  /-- The packet is passed to `handle_packet`. -/
  | handled (p : WirePacket)
  /-- The packet has failed `check_header`. -/
  | dropped (p : WirePacket)
  /-- `HandleError`. -/
  | error (msg : String)
  deriving DecidableEq, Repr

/-- `atransport::HandleRead`, and what it returns. -/
def handleRead (p : WirePacket) (maxPayload : ℕ) : ReadEvent × Bool :=
  if checkHeader p maxPayload then (.handled p, true) else (.dropped p, false)

/-- An error has been reported. -/
def HasReported (log : List ReadEvent) : Prop := ∃ msg, .error msg ∈ log

/-- A packet has been dropped. -/
def HasDropped (log : List ReadEvent) : Prop := ∃ p, .dropped p ∈ log

/-- **A bad header closes the connection**: an error is reported, and no later packet is passed
to `handle_packet`. -/
def Closes (log : List ReadEvent) : Prop :=
  ∀ before p after, log = before ++ .dropped p :: after →
    HasReported log ∧ ∀ q, .handled q ∉ after

theorem closes_nil : Closes [] := by
  intro before p after h
  simp at h

variable {log : List ReadEvent}

theorem Closes.reported (h : Closes log) (hd : HasDropped log) : HasReported log := by
  obtain ⟨p, hp⟩ := hd
  obtain ⟨before, after, heq⟩ := append_of_mem hp
  exact (h before p after heq).1

/-- A split of a log that is one event longer. -/
theorem concat_eq_split {before after : List ReadEvent} {e : ReadEvent} {p : WirePacket}
    (h : log ++ [e] = before ++ .dropped p :: after) :
    (∃ after', after = after' ++ [e] ∧ log = before ++ .dropped p :: after') ∨
      (after = [] ∧ e = .dropped p ∧ log = before) := by
  rcases eq_nil_or_concat after with rfl | ⟨after', e', rfl⟩
  · obtain ⟨hlog, he⟩ := append_inj' h rfl
    exact .inr ⟨rfl, by simpa using he, hlog⟩
  · have h' : log ++ [e] = (before ++ .dropped p :: after') ++ [e'] := by simpa using h
    obtain ⟨hlog, he⟩ := append_inj' h' rfl
    obtain rfl : e = e' := by simpa using he
    exact .inl ⟨after', by simp, hlog⟩

theorem HasReported.concat (h : HasReported log) (e : ReadEvent) : HasReported (log ++ [e]) := by
  obtain ⟨msg, hmsg⟩ := h
  exact ⟨msg, mem_append_left _ hmsg⟩

/-- A packet that is handled breaks the rule if one has been dropped before. -/
theorem closes_concat_handled (log : List ReadEvent) (q : WirePacket) :
    Closes (log ++ [.handled q]) ↔ ¬HasDropped log := by
  constructor
  · rintro hc ⟨p, hp⟩
    obtain ⟨before, after, heq⟩ := append_of_mem hp
    exact (hc before p (after ++ [.handled q]) (by simp [heq])).2 q (by simp)
  · intro hno before p after heq
    rcases concat_eq_split heq with ⟨after', -, hlog⟩ | ⟨-, he, -⟩
    · exact absurd ⟨p, by simp [hlog]⟩ hno
    · cases he

/-- A packet that is dropped breaks it unless an error has been reported before. -/
theorem closes_concat_dropped (h : Closes log) (q : WirePacket) :
    Closes (log ++ [.dropped q]) ↔ HasReported log := by
  constructor
  · intro hc
    obtain ⟨msg, hmsg⟩ := (hc log q [] rfl).1
    exact ⟨msg, by simpa using hmsg⟩
  · intro hr before p after heq
    refine ⟨hr.concat _, fun q' hq' => ?_⟩
    rcases concat_eq_split heq with ⟨after', rfl, hlog⟩ | ⟨rfl, -, -⟩
    · rcases mem_append.mp hq' with hmem | hmem
      · exact (h before p after' hlog).2 q' hmem
      · simp at hmem
    · cases hq'

theorem Closes.concat_error (h : Closes log) (msg : String) : Closes (log ++ [.error msg]) := by
  intro before p after heq
  refine ⟨⟨msg, by simp⟩, fun q hq => ?_⟩
  rcases concat_eq_split heq with ⟨after', rfl, hlog⟩ | ⟨rfl, -, -⟩
  · rcases mem_append.mp hq with hmem | hmem
    · exact (h before p after' hlog).2 q hmem
    · simp at hmem
  · cases hq

/-! ### BlockingConnectionAdapter -/

/-- An adapter, with what is seen of it. -/
structure BlockingReads where
  adapter : Adapter := {}
  log : List ReadEvent := []

/-- What the threads of an adapter do. -/
inductive BlockingOp
  | thread (op : AdapterOp)
  /-- The read thread `r` has read a packet, and hands it to a transport with this
  `max_payload`. -/
  | packet (r : ℕ) (p : WirePacket) (maxPayload : ℕ)

/-- What a thread reports with `error_flag_`. -/
def AdapterOp.errorText : AdapterOp → Option String
  | .readFail _ => some "read failed"
  | .writeFail => some "write failed"
  | .stopReport _ => some "requested stop"
  | _ => none

/-- The packets that end a read thread are packets. -/
def AdapterOp.isRead : AdapterOp → Bool
  | .readStls _ | .readDrop _ => true
  | _ => false

namespace BlockingReads

/-- `std::call_once` with `error_flag_`. -/
def report (s : BlockingReads) (msg : String) : List ReadEvent :=
  if s.adapter.reported then s.log else s.log ++ [.error msg]

/-- What is done with a packet in `StartReadThread`. The result of `HandleRead` is not used. -/
def readPacket (s : BlockingReads) (r : ℕ) (p : WirePacket) (maxPayload : ℕ) : BlockingReads where
  adapter :=
    if p.msg.command = aStlsCommand then
      if checkHeader p maxPayload then (AdapterOp.readStls r).step s.adapter
      else (AdapterOp.readDrop r).step s.adapter
    else s.adapter
  log := s.log ++ [(handleRead p maxPayload).1]

/-- What an operation does. -/
def step (s : BlockingReads) : BlockingOp → BlockingReads
  | .thread op =>
    { adapter := op.step s.adapter
      log := match op.errorText with
        | some msg => s.report msg
        | none => s.log }
  | .packet r p maxPayload => s.readPacket r p maxPayload

/-- When it can be made. -/
def Enabled (s : BlockingReads) : BlockingOp → Prop
  | .thread op => op.Enabled s.adapter ∧ op.isRead = false
  | .packet r p _ => s.adapter.reads r = .running ∧ p.payload.length = p.msg.dataLength.toNat

instance decidableEnabled (s : BlockingReads) (op : BlockingOp) : Decidable (s.Enabled op) := by
  cases op <;> dsimp only [Enabled] <;> infer_instance

/-- A packet that does no harm: one with a good header that comes after good headers only, or one
with a bad header on a connection that is being closed anyway. -/
def Harmless (s : BlockingReads) : BlockingOp → Prop
  | .thread _ => True
  | .packet _ p maxPayload =>
    if checkHeader p maxPayload then ¬HasDropped s.log else HasReported s.log

end BlockingReads

/-- A `BlockingConnectionAdapter` over any connection. -/
def blockingReads : Machine BlockingReads BlockingOp where
  init s := s = {}
  enabled := BlockingReads.Enabled
  step := BlockingReads.step

instance decidableBlockingReads (s : BlockingReads) (op : BlockingOp) :
    Decidable (blockingReads.enabled s op) :=
  BlockingReads.decidableEnabled s op

/-- The event of a packet keeps the rule exactly if the packet is harmless. -/
theorem closes_concat_handleRead (h : Closes log) (p : WirePacket) (maxPayload : ℕ) :
    Closes (log ++ [(handleRead p maxPayload).1]) ↔
      if checkHeader p maxPayload then ¬HasDropped log else HasReported log := by
  rw [handleRead]
  split_ifs with hcheck
  · exact closes_concat_handled log p
  · exact closes_concat_dropped h p

theorem BlockingReads.closes_step {s : BlockingReads} (h : Closes s.log) (op : BlockingOp) :
    Closes (s.step op).log ↔ s.Harmless op := by
  cases op with
  | packet r p maxPayload => exact closes_concat_handleRead h p maxPayload
  | thread op =>
    refine iff_of_true ?_ trivial
    rw [BlockingReads.step]
    dsimp only
    split
    · rw [report]
      split_ifs
      · exact h
      · exact h.concat_error _
    · exact h

/-! ### NonblockingFdConnection -/

/-- What `DispatchWrites` came to. -/
inductive WriteResult
  | error
  | completed
  | tryAgain
  deriving DecidableEq, Repr

/-- What `adb_read` came to. No bytes are the end of the stream. -/
inductive PollRead
  | failed (text : String)
  | block (bytes : Bytes)
  deriving DecidableEq, Repr

/-- What `adb_poll` came to: for `POLLOUT` the result of the writes, for `POLLIN` that of the
read. -/
inductive PollResult
  | failed (text : String)
  | ready (out : Option WriteResult) (incoming : Option PollRead)
  deriving DecidableEq, Repr

/-- A read is given a buffer of `MAX_PAYLOAD` bytes. -/
def PollResult.fits : PollResult → Bool
  | .ready _ (some (.block bytes)) => bytes.length ≤ maxPayload
  | _ => true

/-- Where the thread is. -/
inductive PollState
  | unborn
  /-- Before `SetRunning(true)`. -/
  | starting
  /-- At the top of the loop. -/
  | checking
  | polling
  | finished
  deriving DecidableEq, Repr

/-- A `NonblockingFdConnection`, with what is seen of it. -/
structure NonblockingReads where
  running : Bool := false
  thread : PollState := .unborn
  readHeader : Option Amessage := none
  readBuffer : Bytes := []
  log : List ReadEvent := []
  deriving DecidableEq, Repr

namespace NonblockingReads

/-- `Run` returns, and the error is reported. -/
def finish (s : NonblockingReads) (msg : String) : NonblockingReads :=
  { s with thread := .finished, log := s.log ++ [.error msg] }

/-- The header and the buffer once a block has been appended. -/
def collect (s : NonblockingReads) (block : Bytes) : Option Amessage × Bytes :=
  let buffer := s.readBuffer ++ block
  match s.readHeader with
  | some header => (some header, buffer)
  | none =>
    if sizeofAmessage ≤ buffer.length then
      (some (amessageOfBytes (buffer.take sizeofAmessage)), buffer.drop sizeofAmessage)
    else (none, buffer)

/-- The packet that a block completes. -/
def received (s : NonblockingReads) (block : Bytes) : Option WirePacket :=
  match s.collect block with
  | (some header, buffer) =>
    if header.dataLength.toNat ≤ buffer.length then
      some ⟨header, buffer.take header.dataLength.toNat⟩
    else none
  | (none, _) => none

/-- What is done with a block. The result of `HandleRead` is not used. -/
def receive (s : NonblockingReads) (block : Bytes) (maxPayload : ℕ) : NonblockingReads :=
  match s.received block with
  | some p =>
    { s with
      readHeader := none
      readBuffer := (s.collect block).2.drop p.msg.dataLength.toNat
      log := s.log ++ [(handleRead p maxPayload).1] }
  | none => { s with readHeader := (s.collect block).1, readBuffer := (s.collect block).2 }

/-- What is done after a poll. -/
def polled (s : NonblockingReads) (maxPayload : ℕ) : PollResult → NonblockingReads
  | .failed text => s.finish ("poll failed: " ++ text)
  | .ready out incoming =>
    if out = some .error then s.finish "write failed"
    else match incoming with
      | none => { s with thread := .checking }
      | some (.failed text) => s.finish ("read failed: " ++ text)
      | some (.block []) => s.finish "read failed: EOF"
      | some (.block block) => { s.receive block maxPayload with thread := .checking }

end NonblockingReads

/-- What the thread and its owner do. -/
inductive PollOp
  | start
  /-- `SetRunning(true)`. -/
  | enter
  /-- `while (IsRunning())`. -/
  | check
  /-- The loop up to its next test, for a transport with this `max_payload`. -/
  | poll (result : PollResult) (maxPayload : ℕ)
  | stop
  deriving DecidableEq, Repr

namespace NonblockingReads

/-- What an operation does. -/
def step (s : NonblockingReads) : PollOp → NonblockingReads
  | .start => { s with thread := .starting }
  | .enter => { s with running := true, thread := .checking }
  | .check => if s.running then { s with thread := .polling } else s.finish "connection closed"
  | .poll result maxPayload => s.polled maxPayload result
  | .stop => { s with running := false }

/-- When an operation can be made. -/
def Enabled (s : NonblockingReads) : PollOp → Prop
  | .start => s.thread = .unborn
  | .enter => s.thread = .starting
  | .check => s.thread = .checking
  | .poll result _ => s.thread = .polling ∧ result.fits = true
  | .stop => True

instance decidableEnabled (s : NonblockingReads) : ∀ op, Decidable (s.Enabled op)
  | .start | .enter | .check => inferInstanceAs (Decidable (s.thread = _))
  | .poll result _ => inferInstanceAs (Decidable (s.thread = .polling ∧ result.fits = true))
  | .stop => inferInstanceAs (Decidable True)

/-- The packet that is handed on after a poll. -/
def taken (s : NonblockingReads) : PollResult → Option WirePacket
  | .failed _ => none
  | .ready out incoming =>
    if out = some .error then none
    else match incoming with
      | some (.block (b :: block)) => s.received (b :: block)
      | _ => none

/-- A poll that brings no packet with a bad header. -/
def Harmless (s : NonblockingReads) : PollOp → Prop
  | .poll result maxPayload => ∀ p ∈ s.taken result, checkHeader p maxPayload = true
  | _ => True

end NonblockingReads

/-- A `NonblockingFdConnection`. -/
def nonblockingReads : Machine NonblockingReads PollOp where
  init s := s = {}
  enabled := NonblockingReads.Enabled
  step := NonblockingReads.step

instance decidableNonblockingReads (s : NonblockingReads) (op : PollOp) :
    Decidable (nonblockingReads.enabled s op) :=
  NonblockingReads.decidableEnabled s op

namespace NonblockingReads

variable {s : NonblockingReads}

/-- A block changes the log by the packet it completes. -/
theorem receive_log (s : NonblockingReads) (block : Bytes) (maxPayload : ℕ) :
    (s.receive block maxPayload).log =
      s.log ++ ((s.received block).map fun p => (handleRead p maxPayload).1).toList := by
  rw [receive]
  cases s.received block with
  | none => simp
  | some p => simp

/-- **A poll**: an error is reported and the thread has ended, or the packet that was taken is
handed on. -/
theorem polled_cases (s : NonblockingReads) (maxPayload : ℕ) (result : PollResult) :
    (∃ msg, s.polled maxPayload result = s.finish msg ∧ s.taken result = none) ∨
      ((s.polled maxPayload result).thread = .checking ∧
        (s.polled maxPayload result).log =
          s.log ++ ((s.taken result).map fun p => (handleRead p maxPayload).1).toList) := by
  cases result with
  | failed text => exact .inl ⟨_, rfl, rfl⟩
  | ready out incoming =>
    by_cases hout : out = some .error
    · exact .inl ⟨"write failed", by simp [polled, hout], by simp [taken, hout]⟩
    · rcases incoming with _ | text | _ | ⟨b, block⟩
      · exact .inr ⟨by simp [polled, hout], by simp [polled, taken, hout]⟩
      · exact .inl ⟨"read failed: " ++ text, by simp [polled, hout], by simp [taken, hout]⟩
      · exact .inl ⟨"read failed: EOF", by simp [polled, hout], by simp [taken, hout]⟩
      · have hpolled : s.polled maxPayload (.ready out (some (.block (b :: block)))) =
            { s.receive (b :: block) maxPayload with thread := .checking } := by
          simp only [polled, hout, if_false]
        refine .inr ⟨by rw [hpolled], ?_⟩
        rw [hpolled, taken, if_neg hout]
        exact s.receive_log (b :: block) maxPayload

/-- `HandleRead` does not report an error. -/
theorem reported_concat_handleRead {log : List ReadEvent} (p : Option WirePacket) (maxPayload : ℕ)
    (h : HasReported (log ++ (p.map fun p => (handleRead p maxPayload).1).toList)) :
    HasReported log := by
  obtain ⟨msg, hmsg⟩ := h
  refine ⟨msg, (mem_append.mp hmsg).resolve_right fun hp => ?_⟩
  cases p with
  | none => simp at hp
  | some p =>
    rw [map_some, toList_some, mem_singleton, handleRead] at hp
    split_ifs at hp

/-- As long as the thread has not ended, nothing has been reported. -/
theorem not_reported_of_reach (h : nonblockingReads.Reach s) :
    s.thread ≠ .finished → ¬HasReported s.log := by
  refine h.inv (P := fun s => s.thread ≠ .finished → ¬HasReported s.log) ?_ ?_
  · rintro s rfl -
    simp [HasReported]
  · intro s op _ ih hen hth
    cases op with
    | start | enter => exact ih (by rw [show s.thread = _ from hen]; simp)
    | stop => exact ih hth
    | check =>
      have hs := ih (by rw [show s.thread = _ from hen]; simp)
      change (s.step .check).thread ≠ _ at hth
      change ¬HasReported (s.step .check).log
      rw [step] at hth ⊢
      split_ifs at hth ⊢
      · exact hs
      · exact absurd rfl hth
    | poll result maxPayload =>
      have hs := ih (by rw [hen.1]; simp)
      change (s.polled maxPayload result).thread ≠ _ at hth
      change ¬HasReported (s.polled maxPayload result).log
      rcases s.polled_cases maxPayload result with ⟨msg, heq, -⟩ | ⟨-, hlog⟩
      · rw [heq] at hth
        exact absurd rfl hth
      · rw [hlog]
        exact fun hr => hs (reported_concat_handleRead _ _ hr)

/-- One poll keeps the property exactly if it is harmless. -/
theorem closes_step (hr : nonblockingReads.Reach s) (h : Closes s.log) {op : PollOp}
    (hen : s.Enabled op) : Closes (s.step op).log ↔ s.Harmless op := by
  cases op with
  | start | enter | stop => exact iff_of_true h trivial
  | check =>
    refine iff_of_true ?_ trivial
    rw [step]
    split_ifs
    · exact h
    · exact h.concat_error _
  | poll result maxPayload =>
    -- no error has been reported so far, so nothing has been dropped
    have hnot := not_reported_of_reach hr (by rw [hen.1]; simp)
    have hdropped : ¬HasDropped s.log := fun hd => hnot (h.reported hd)
    change Closes (s.polled maxPayload result).log ↔ _
    rcases s.polled_cases maxPayload result with ⟨msg, heq, htaken⟩ | ⟨-, hlog⟩
    · rw [heq]
      refine iff_of_true (h.concat_error msg) fun p hp => ?_
      rw [htaken] at hp
      cases hp
    · rw [hlog, Harmless]
      cases htaken : s.taken result with
      | none => simpa using h
      | some p =>
        have hiff := closes_concat_handleRead h p maxPayload
        simp only [map_some, toList_some, hiff, mem_def,
          some.injEq, forall_eq']
        split_ifs with hcheck
        · exact iff_of_true hdropped hcheck
        · exact iff_of_false hnot hcheck

end NonblockingReads

/-! ### Bad headers -/

/-- **When a bad header closes the connection.** In a run of either loop a bad header is followed
by an error and by no other packet, at every point of the run, exactly if no packet with a bad
header is taken by the nonblocking loop; and if the blocking loop reads one only once an error has
been reported, and no packet with a good header after it. -/
theorem closes_iff {ops : List BlockingOp} (hops : blockingReads.Legal {} ops)
    {polls : List PollOp} (hpolls : nonblockingReads.Legal {} polls) :
    ((∀ ops', ops' <+: ops → Closes (blockingReads.run {} ops').log) ↔
      blockingReads.Meets BlockingReads.Harmless {} ops) ∧
    ((∀ polls', polls' <+: polls → Closes (nonblockingReads.run {} polls').log) ↔
      nonblockingReads.Meets NonblockingReads.Harmless {} polls) := by
  constructor
  · exact Machine.forall_prefix_iff (P := fun s => Closes s.log)
      (fun s op _ hs _ => BlockingReads.closes_step hs op) (.init rfl) closes_nil hops
  · exact Machine.forall_prefix_iff (P := fun s => Closes s.log)
      (fun s op hr hs hen => NonblockingReads.closes_step hr hs hen) (.init rfl) closes_nil hpolls

/-- A packet whose magic is not the complement of its command. -/
def badPacket : WirePacket := ⟨⟨0x59414b4f, 1, 1, 0, 0, 0⟩, []⟩

/-- A good one. -/
def goodPacket : WirePacket := ⟨⟨0x59414b4f, 1, 1, 0, 0, 0xa6beb4b0⟩, []⟩

/-- The bytes of a header with this magic. -/
def headerBytes (magic : Bytes) : Bytes :=
  [0x4f, 0x4b, 0x41, 0x59] ++ [1, 0, 0, 0, 1, 0, 0, 0] ++ List.replicate 8 0 ++ magic

/-- A bad header on a connection that has already failed to write, and a good one on the other
kind of connection. -/
theorem closes_iff_good :
    (∀ ops', ops' <+: [.thread .start, .thread .writeFail, .packet 0 badPacket maxPayload] →
      Closes (blockingReads.run {} ops').log) ∧
    (∀ polls', polls' <+: [.start, .enter, .check,
        .poll (.ready none (some (.block (headerBytes [0xb0, 0xb4, 0xbe, 0xa6])))) maxPayload] →
      Closes (nonblockingReads.run {} polls').log) := by
  have hops : blockingReads.Legal {}
    [.thread .start, .thread .writeFail, .packet 0 badPacket maxPayload] := by decide
  have hpolls : nonblockingReads.Legal {} [.start, .enter, .check,
    .poll (.ready none (some (.block (headerBytes [0xb0, 0xb4, 0xbe, 0xa6])))) maxPayload] := by
    decide
  obtain ⟨hblocking, hnonblocking⟩ := closes_iff hops hpolls
  refine ⟨hblocking.mpr ⟨trivial, trivial, ?_, trivial⟩,
    hnonblocking.mpr ⟨trivial, trivial, trivial, ?_, trivial⟩⟩
  · rw [BlockingReads.Harmless, if_neg (by decide)]
    exact ⟨_, mem_cons_self⟩
  · intro p hp
    obtain rfl := some.inj hp
    decide

/-- A bad header, and then a good one. The first packet is dropped, the second one is handled, and
no error is reported. -/
theorem bad_header_ignored :
    let ops := [.thread .start, .packet 0 badPacket maxPayload, .packet 0 goodPacket maxPayload]
    let polls := [.start, .enter, .check,
      .poll (.ready none (some (.block (headerBytes [0, 0, 0, 0])))) maxPayload, .check,
      .poll (.ready none (some (.block (headerBytes [0xb0, 0xb4, 0xbe, 0xa6])))) maxPayload]
    (blockingReads.Legal {} ops ∧
        (blockingReads.run {} ops).log = [.dropped badPacket, .handled goodPacket]) ∧
      nonblockingReads.Legal {} polls ∧
        (nonblockingReads.run {} polls).log = [.dropped badPacket, .handled goodPacket] := by
  refine ⟨⟨by decide, by decide⟩, by decide, by decide⟩

end AdbBridge
