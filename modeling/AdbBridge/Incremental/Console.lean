import AdbBridge.Incremental.Server

/-!
# Text and requests on one connection

The device sends the requests of the incremental file system on the connection that also
carries the text a user is to see. `SkipToRequest` looks for the magic of a request, writes
what comes before it to the console, and waits for more when it has found no request or only a
part of one. Its buffer keeps what it has neither written nor returned.

Which requests are returned depends only on the bytes: `requestsIn` finds them in all that was
received, and `Console.Parsed` is the invariant that what is still in the buffer is where the
search has come to, whatever follows.

The text is another matter. When `poll` returns without data, the buffer is written to the
console – and kept. If reading goes on, its bytes are written once more later, or turn out to
be the beginning of a request. And where the connection ends, the buffer has been made as large as
a read could be: all of it is written, 128 KiB, and what was not read are NULs.
-/

namespace AdbBridge.Incremental

open List

/-! ### Finding requests -/

/-- The magic of a request, as it is on the wire. -/
def INCR : Bytes := [0x49, 0x4e, 0x43, 0x52]

/-- The size of a request without its magic. -/
def requestSize : ℕ := 8

/-- The first loop of `SkipToRequest`: how many bytes come before the magic, and whether it was
found. The last four bytes are not looked at. -/
def scan : Bytes → ℕ × Bool
  | [] => (0, false)
  | c :: rest =>
    if (c :: rest).length ≤ 4 then (0, false)
    else if (c :: rest).take 4 = INCR then (0, true)
    else ((scan rest).1 + 1, (scan rest).2)

/-- `readBigEndian` and the end of `ReadRequest`. -/
def RequestCommand.ofBytes : Bytes → RequestCommand
  | [t0, t1, f0, f1, b0, b1, b2, b3] =>
    { requestType := .ofNat (2 ^ 8 * t0.toNat + t1.toNat)
      fileId := .ofNat (2 ^ 8 * f0.toNat + f1.toNat)
      blockIdx := .ofNat (2 ^ 24 * b0.toNat + 2 ^ 16 * b1.toNat + 2 ^ 8 * b2.toNat + b3.toNat) }
  | _ => ⟨0, 0, 0⟩

/-! ### The connection -/

/-- What `poll` comes back with: there is something to read, and how much of it `read` returns
at most; nothing; an error. -/
inductive Poll
  | readable (n : ℕ)
  | timeout
  | error
  deriving DecidableEq, Repr

inductive ConsoleStatus
  | running
  /-- The device has asked the server to stop. -/
  | destroyed
  /-- The connection has ended, or the server has given up waiting. -/
  | closed
  deriving DecidableEq, Repr

/-- The connection to the device and what has been made of it. -/
structure Console where
  /-- `buffer_`. -/
  buffer : Bytes := []
  /-- What was written to `output_fd_`. -/
  output : Bytes := []
  /-- What the device is going to send. -/
  incoming : Bytes
  /-- What was read. -/
  received : Bytes := []
  /-- The requests that `ReadRequest` has returned, without their magic. -/
  requests : List Bytes := []
  /-- `SkipToRequest` is in `poll`, with its argument `blocking`. -/
  waiting : Option Bool := none
  servingComplete : Bool := false
  status : ConsoleStatus := .running
  deriving DecidableEq, Repr

def kReadBufferSize : ℕ := 128 * 1024

namespace Console

variable {s : Console} {blocking : Bool}

/-- A request at the front of the buffer is returned, and `Serve` looks at its type. -/
def takeRequest (s : Console) : Console :=
  let cmd := (s.buffer.drop INCR.length).take requestSize
  let s := { s with
    buffer := s.buffer.drop (INCR.length + requestSize)
    requests := s.requests ++ [cmd]
    waiting := none }
  match (RequestCommand.ofBytes cmd).type with
  | some .destroy => { s with status := .destroyed }
  | some .servingComplete => { s with servingComplete := true }
  | _ => s

/-- What comes before the magic is written to the console. -/
def writeText (s : Console) : Console :=
  { s with
    output := s.output ++ s.buffer.take (scan s.buffer).1
    buffer := s.buffer.drop (scan s.buffer).1 }

/-- One round of `SkipToRequest` up to `poll`. -/
def search (s : Console) (blocking : Bool) : Console :=
  if (scan s.buffer).2 && INCR.length + requestSize ≤ s.writeText.buffer.length then
    s.writeText.takeRequest
  else { s.writeText with waiting := some blocking }

/-- The whole buffer is written to the console. It is not emptied. -/
def writeBuffer (s : Console) : Console :=
  { s with output := s.output ++ s.buffer, waiting := none }

def close (s : Console) : Console := { s.writeBuffer with status := .closed }

/-- The end of the connection, or a `read` that fails. The buffer has been resized for the read, and
is written as it is. -/
def hangUp (s : Console) : Console :=
  { s with
    output := s.output ++ (s.buffer ++ List.replicate (kReadBufferSize - s.buffer.length) 0)
    waiting := none
    status := .closed }

/-- The bytes that `read` appends to the buffer. -/
def receive (s : Console) (n : ℕ) : Console :=
  let r := min n (kReadBufferSize - s.buffer.length)
  { s with
    buffer := s.buffer ++ s.incoming.take r
    incoming := s.incoming.drop r
    received := s.received ++ s.incoming.take r }

/-- The rest of the round. -/
def polled (s : Console) (blocking : Bool) : Poll → Console
  | .readable n =>
    if s.incoming.take (min n (kReadBufferSize - s.buffer.length)) = [] then s.hangUp
    else (s.receive n).search blocking
  | .timeout => if blocking && s.servingComplete then s.close else s.writeBuffer
  | .error => s.close

end Console

/-- What happens on the connection: `Serve` calls `ReadRequest`, or `poll` returns. -/
inductive ConsoleOp
  | readRequest (blocking : Bool)
  | poll (p : Poll)
  deriving DecidableEq, Repr

/-- The reading side of `Serve`. -/
def console : Machine Console ConsoleOp where
  init s := ∃ bytes, s = { incoming := bytes }
  enabled s
    | .readRequest _ => s.waiting = none ∧ s.status = .running
    | .poll _ => s.waiting.isSome ∧ s.status = .running
  step s
    | .readRequest blocking => s.search blocking
    | .poll p => s.waiting.elim s fun blocking => s.polled blocking p

instance decidableConsole (s : Console) : ∀ op : ConsoleOp, Decidable (console.enabled s op)
  | .readRequest _ => inferInstanceAs (Decidable (s.waiting = none ∧ s.status = .running))
  | .poll _ => inferInstanceAs (Decidable (s.waiting.isSome ∧ s.status = .running))

/-! ### The search -/

theorem scan_le (bs : Bytes) : (scan bs).1 ≤ bs.length := by
  induction bs with
  | nil => exact le_rfl
  | cons c rest ih =>
    rw [scan]
    split
    · exact Nat.zero_le _
    · split
      · exact Nat.zero_le _
      · exact Nat.succ_le_succ ih

/-- The search stops at the magic, or at the last four bytes. -/
theorem scan_spec (bs : Bytes) :
    ((scan bs).2 = true → (bs.drop (scan bs).1).take 4 = INCR) ∧
      ((scan bs).2 = false → (bs.drop (scan bs).1).length ≤ 4) := by
  induction bs with
  | nil => simp [scan]
  | cons c rest ih =>
    rw [scan]
    split
    · exact ⟨fun h => absurd h (by simp), fun _ => ‹_›⟩
    · split
      · exact ⟨fun _ => ‹_›, fun h => absurd h (by simp)⟩
      · simpa only [drop_succ_cons] using ih

/-- The requests in a string of bytes, from the first to the last. -/
def requestsIn : Bytes → List Bytes
  | [] => []
  | c :: rest =>
    if (c :: rest).take 4 = INCR then
      if INCR.length + requestSize ≤ (c :: rest).length then
        ((c :: rest).drop INCR.length).take requestSize ::
          requestsIn ((c :: rest).drop (INCR.length + requestSize))
      else []
    else requestsIn rest
  termination_by bs => bs.length
  decreasing_by
    · simp only [length_drop, INCR, requestSize, length_cons]
      omega
    · simp

/-- **What the search passes is no part of a request**, whatever follows. -/
theorem requestsIn_scan (bs more : Bytes) :
    requestsIn (bs ++ more) = requestsIn (bs.drop (scan bs).1 ++ more) := by
  induction bs with
  | nil => rfl
  | cons c rest ih =>
    rw [scan]
    split
    · rfl
    · split
      · rfl
      · rename_i hlen hmagic
        rw [drop_succ_cons, ← ih, cons_append, requestsIn, if_neg]
        rwa [← cons_append, take_append_of_le_length (by omega)]

variable {bs : Bytes}

/-- **A request at the front is the first one**, whatever follows. -/
theorem requestsIn_request (hmagic : bs.take 4 = INCR)
    (hlen : INCR.length + requestSize ≤ bs.length) (more : Bytes) :
    requestsIn (bs ++ more) = (bs.drop INCR.length).take requestSize ::
      requestsIn (bs.drop (INCR.length + requestSize) ++ more) := by
  have hlen' : 12 ≤ bs.length := hlen
  cases bs with
  | nil => simp at hlen'
  | cons c rest =>
    have htake : (c :: (rest ++ more)).take 4 = INCR := by
      rw [← cons_append, take_append_of_le_length (by omega), hmagic]
    rw [cons_append, requestsIn, if_pos htake, if_pos]
    · rw [← cons_append, drop_append_of_le_length (le_trans (Nat.le_add_right _ _) hlen),
        take_append_of_le_length, drop_append_of_le_length hlen]
      simp only [INCR, requestSize, length_drop, length_cons, length_nil] at hlen' ⊢
      omega
    · simp only [INCR, requestSize, length_cons, length_append, length_nil] at hlen' ⊢
      omega

/-- Less than a request is none. -/
theorem requestsIn_of_lt (h : bs.length < INCR.length + requestSize) : requestsIn bs = [] := by
  induction bs with
  | nil => rw [requestsIn]
  | cons c rest ih =>
    rw [requestsIn, if_neg (not_le.mpr h)]
    split
    · rfl
    · exact ih (lt_trans (by simp) h)

namespace Console

variable {s : Console} {blocking : Bool} {op : ConsoleOp}

/-! ### Which requests are returned -/

/-- **The buffer is where the search for requests has come to**, whatever follows. -/
def Parsed (s : Console) : Prop :=
  ∀ more, requestsIn (s.received ++ more) = s.requests ++ requestsIn (s.buffer ++ more)

/-- What a request at the front of the buffer does to the buffer and to the requests. -/
theorem takeRequest_eq (s : Console) :
    s.takeRequest.buffer = s.buffer.drop (INCR.length + requestSize) ∧
      s.takeRequest.requests =
        s.requests ++ [(s.buffer.drop INCR.length).take requestSize] ∧
      s.takeRequest.output = s.output ∧ s.takeRequest.received = s.received ∧
      s.takeRequest.incoming = s.incoming ∧
      (s.status ≠ .closed → s.takeRequest.status ≠ .closed) := by
  rw [takeRequest]
  split <;> simp

theorem Parsed.writeText (h : s.Parsed) : s.writeText.Parsed := fun more => by
  rw [Console.writeText, h more, requestsIn_scan s.buffer more]

theorem Parsed.takeRequest (h : s.Parsed) (hmagic : s.buffer.take 4 = INCR)
    (hlen : INCR.length + requestSize ≤ s.buffer.length) : s.takeRequest.Parsed := by
  intro more
  obtain ⟨hbuffer, hrequests, -, hreceived, -, -⟩ := takeRequest_eq s
  rw [hbuffer, hrequests, hreceived, h more, requestsIn_request hmagic hlen, append_assoc]
  rfl

/-- A round of the search either returns a request or waits. -/
theorem search_cases (s : Console) (blocking : Bool) :
    (s.writeText.buffer.take 4 = INCR ∧
        INCR.length + requestSize ≤ s.writeText.buffer.length ∧
        s.search blocking = s.writeText.takeRequest) ∨
      (s.writeText.buffer.length < INCR.length + requestSize ∧
        s.search blocking = { s.writeText with waiting := some blocking }) := by
  have hspec := scan_spec s.buffer
  rw [search]
  split
  · rename_i h
    rw [Bool.and_eq_true, decide_eq_true_eq] at h
    exact .inl ⟨hspec.1 h.1, h.2, rfl⟩
  · rename_i h
    refine .inr ⟨?_, rfl⟩
    by_cases hfound : (scan s.buffer).2 = true
    · rw [hfound, Bool.true_and, decide_eq_true_eq] at h
      exact not_le.mp h
    · exact lt_of_le_of_lt (hspec.2 (by simpa using hfound)) (by decide)

theorem Parsed.receive (h : s.Parsed) (n : ℕ) : (s.receive n).Parsed := fun more => by
  rw [Console.receive]
  rw [append_assoc, append_assoc]
  exact h _

/-- Where the server waits, there is no request in the buffer; nor once the connection has
ended. -/
def Exhausted (s : Console) : Prop :=
  s.waiting.isSome = true ∨ s.status = .closed → s.buffer.length < INCR.length + requestSize

/-- A request has always the same size. -/
def Sized (s : Console) : Prop := ∀ cmd ∈ s.requests, cmd.length = requestSize

instance decidableSized (s : Console) : Decidable s.Sized :=
  inferInstanceAs (Decidable (∀ cmd ∈ s.requests, cmd.length = requestSize))

/-! ### One step -/

/-- A `poll` that times out finds the buffer empty, unless the server gives up, and a `read` finds
something. -/
def Quiet (s : Console) : ConsoleOp → Prop
  | .poll .timeout => s.buffer = [] ∨ s.waiting = some true ∧ s.servingComplete = true
  | .poll (.readable n) => s.incoming.take (min n (kReadBufferSize - s.buffer.length)) ≠ []
  | _ => True

instance decidableQuiet (s : Console) : ∀ op, Decidable (s.Quiet op)
  | .poll .timeout => inferInstanceAs (Decidable (_ ∨ _))
  | .poll (.readable _) => inferInstanceAs (Decidable (_ ≠ _))
  | .poll .error | .readRequest _ => inferInstanceAs (Decidable True)

theorem status_ne_closed (hop : console.enabled s op) : s.status ≠ .closed := by
  cases op <;> simp [hop.2]

theorem receive_zero (s : Console) : s.receive 0 = s := by
  simp [receive]

/-- **What a step can do**: search for a request in what is there with what is read, and at a
`poll` that returns without data, write the buffer for the last time, or write it and go on; or
find the end of the connection. -/
theorem step_cases (hop : console.enabled s op) :
    (∃ n blocking, console.step s op = (s.receive n).search blocking ∧ s.Quiet op) ∨
      s.waiting.isSome ∧ (console.step s op = s.close ∧ s.Quiet op ∨
        console.step s op = s.writeBuffer ∧ (s.Quiet op ↔ s.buffer = []) ∨
        console.step s op = s.hangUp ∧ ¬s.Quiet op) := by
  cases op with
  | readRequest blocking => exact .inl ⟨0, blocking, by rw [receive_zero]; rfl, trivial⟩
  | poll p =>
    obtain ⟨hwait, -⟩ := hop
    obtain ⟨blocking, hblocking⟩ := Option.isSome_iff_exists.mp hwait
    have hstep : console.step s (.poll p) = s.polled blocking p := by
      simp only [console, hblocking, Option.elim_some]
    rw [hstep]
    cases p with
    | readable n =>
      rw [polled]
      split
      · exact .inr ⟨hwait, .inr (.inr ⟨rfl, not_not.mpr ‹_›⟩)⟩
      · exact .inl ⟨n, blocking, rfl, ‹_›⟩
    | timeout =>
      rw [polled]
      split
      · rename_i hend
        rw [Bool.and_eq_true] at hend
        exact .inr ⟨hwait, .inl ⟨rfl, .inr ⟨hend.1 ▸ hblocking, hend.2⟩⟩⟩
      · rename_i hgoesOn
        refine .inr ⟨hwait, .inr (.inl ⟨rfl, or_iff_left fun hend => hgoesOn ?_⟩)⟩
        obtain rfl : blocking = true := Option.some.inj (hblocking.symm.trans hend.1)
        exact hend.2
    | error => exact .inr ⟨hwait, .inl ⟨rfl, trivial⟩⟩

/-- What holds of the requests, in every state. -/
structure Found (s : Console) : Prop where
  parsed : s.Parsed
  exhausted : s.Exhausted
  sized : s.Sized

/-- What holds of the requests is kept by every step. -/
theorem Found.step (h : s.Found) (hop : console.enabled s op) : (console.step s op).Found := by
  rcases step_cases hop with ⟨n, blocking, heq, -⟩ | ⟨hwait, ⟨heq, -⟩ | ⟨heq, -⟩ | ⟨heq, -⟩⟩ <;>
    rw [heq]
  · rcases search_cases (s.receive n) blocking with ⟨hmagic, hlen, heq⟩ | ⟨hlen, heq⟩ <;> rw [heq]
    · refine ⟨(h.parsed.receive n).writeText.takeRequest hmagic hlen, ?_, ?_⟩
      · have hstatus := (takeRequest_eq (s.receive n).writeText).2.2.2.2.2 (status_ne_closed hop)
        rintro (hwait | hclosed)
        · rw [takeRequest] at hwait
          split at hwait <;> simp at hwait
        · exact absurd hclosed hstatus
      · rw [Sized, (takeRequest_eq _).2.1]
        refine forall_mem_append.mpr ⟨h.sized, forall_mem_singleton.mpr ?_⟩
        rw [length_take, length_drop]
        omega
    · exact ⟨(h.parsed.receive n).writeText, fun _ => hlen, h.sized⟩
  all_goals exact ⟨h.parsed, fun _ => h.exhausted (.inl hwait), h.sized⟩

theorem found_run {ops : List ConsoleOp} (h : s.Found) (hl : console.Legal s ops) :
    (console.run s ops).Found := by
  induction ops generalizing s with
  | nil => exact h
  | cons op ops ih => exact ih (h.step hl.1) hl.2

/-! ### What becomes of the text -/

/-- What has been received and is still to be written or returned. -/
def pending (s : Console) : Bytes := if s.status = .closed then [] else s.buffer

theorem pending_of_ne (h : s.status ≠ .closed) : s.pending = s.buffer := if_neg h

end Console

/-- A piece of what was received. -/
inductive Segment
  | text (bytes : Bytes)
  | request (cmd : Bytes)
  deriving DecidableEq, Repr

namespace Segment

def bytes : Segment → Bytes
  | text bs => bs
  | request cmd => INCR ++ cmd

def printed : Segment → Bytes
  | text bs => bs
  | request _ => []

def command : Segment → Option Bytes
  | text _ => none
  | request cmd => some cmd

end Segment

namespace Console

variable {s : Console} {blocking : Bool} {op : ConsoleOp} {ops : List ConsoleOp}

/-- **Text and requests are separated exactly**: what was received is made of pieces of text,
which were written in this order and nothing else was, and of requests, which were returned in
this order; then comes what is still to be dealt with. -/
def Separated (s : Console) : Prop :=
  ∃ segs : List Segment, segs.flatMap Segment.bytes ++ s.pending = s.received ∧
    segs.flatMap Segment.printed = s.output ∧ segs.filterMap Segment.command = s.requests

/-- More has been written and returned than was received. -/
def Overdone (s : Console) : Prop :=
  s.received.length < s.output.length + (INCR.length + requestSize) * s.requests.length +
    s.pending.length

instance decidableOverdone (s : Console) : Decidable s.Overdone :=
  inferInstanceAs (Decidable (_ < _))

/-- The length of a stream: what is printed, and the marker and the body of each command. -/
theorem length_segments (segs : List Segment)
    (h : ∀ cmd ∈ segs.filterMap Segment.command, cmd.length = requestSize) :
    (segs.flatMap Segment.bytes).length = (segs.flatMap Segment.printed).length +
      (INCR.length + requestSize) * (segs.filterMap Segment.command).length := by
  induction segs with
  | nil => rfl
  | cons seg segs ih =>
    cases seg with
    | text bs =>
      have hrest := ih (by simpa [Segment.command] using h)
      simp only [flatMap_cons, Segment.bytes, Segment.printed, length_append,
        filterMap_cons, Segment.command, hrest]
      omega
    | request cmd =>
      simp only [filterMap_cons, Segment.command, mem_cons, forall_eq_or_imp] at h
      simp only [flatMap_cons, Segment.bytes, Segment.printed, length_append,
        filterMap_cons, Segment.command, ih h.2, h.1, length_nil, length_cons]
      ring

theorem Separated.not_overdone (h : s.Separated) (hsized : s.Sized) : ¬ s.Overdone := by
  obtain ⟨segs, hbytes, hprinted, hcommands⟩ := h
  have hlen := length_segments segs (by rw [hcommands]; exact hsized)
  rw [hprinted, hcommands] at hlen
  rw [Overdone, ← hbytes, length_append, hlen]
  omega

/-- More text is written from the front of the buffer. -/
theorem Separated.writeText (h : s.Separated) (hs : s.status ≠ .closed) :
    s.writeText.Separated := by
  obtain ⟨segs, hbytes, hprinted, hcommands⟩ := h
  refine ⟨segs ++ [.text (s.buffer.take (scan s.buffer).1)], ?_, ?_, ?_⟩
  · rw [pending_of_ne hs] at hbytes
    rw [pending_of_ne (s := s.writeText) hs]
    simpa [Console.writeText, Segment.bytes, flatMap_append] using hbytes
  · simp [Console.writeText, Segment.printed, flatMap_append, hprinted]
  · simpa [Console.writeText, Segment.command, filterMap_cons] using hcommands

/-- A request is returned from the front of the buffer. -/
theorem Separated.takeRequest (h : s.Separated) (hs : s.status ≠ .closed)
    (hmagic : s.buffer.take 4 = INCR) : s.takeRequest.Separated := by
  obtain ⟨segs, hbytes, hprinted, hcommands⟩ := h
  obtain ⟨hbuffer, hrequests, houtput, hreceived, -, hstatus⟩ := takeRequest_eq s
  refine ⟨segs ++ [.request ((s.buffer.drop INCR.length).take requestSize)], ?_, ?_, ?_⟩
  · have hfront : INCR ++ s.buffer.drop 4 = s.buffer := by
      rw [← hmagic]
      exact take_append_drop 4 s.buffer
    rw [pending_of_ne hs] at hbytes
    rw [pending_of_ne (hstatus hs), hreceived, hbuffer, ← hbytes, ← drop_drop]
    simp only [flatMap_append, flatMap_singleton, Segment.bytes, append_assoc]
    rw [take_append_drop]
    exact congrArg _ hfront
  · simp [houtput, Segment.printed, flatMap_append, hprinted]
  · simp [hrequests, Segment.command, hcommands]

theorem Separated.search (h : s.Separated) (hs : s.status ≠ .closed) (blocking : Bool) :
    (s.search blocking).Separated := by
  rcases search_cases s blocking with ⟨hmagic, -, heq⟩ | ⟨-, heq⟩
  · rw [heq]
    exact (h.writeText hs).takeRequest hs hmagic
  · rw [heq]
    exact h.writeText hs

theorem Separated.receive (h : s.Separated) (hs : s.status ≠ .closed) (n : ℕ) :
    (s.receive n).Separated := by
  obtain ⟨segs, hbytes, hprinted, hcommands⟩ := h
  refine ⟨segs, ?_, hprinted, hcommands⟩
  rw [pending_of_ne hs] at hbytes
  rw [pending_of_ne (s := s.receive n) hs, Console.receive]
  rw [← append_assoc, hbytes]

/-- At the end the buffer is written for the last time. -/
theorem Separated.close (h : s.Separated) (hs : s.status ≠ .closed) : s.close.Separated := by
  obtain ⟨segs, hbytes, hprinted, hcommands⟩ := h
  rw [pending_of_ne hs] at hbytes
  refine ⟨segs ++ [.text s.buffer], ?_, ?_, ?_⟩
  · simpa [pending, Console.close, writeBuffer, Segment.bytes, flatMap_append] using hbytes
  · simp [Console.close, writeBuffer, Segment.printed, flatMap_append, hprinted]
  · simpa [Console.close, writeBuffer, Segment.command, filterMap_cons] using hcommands

/-! ### Bytes that are dealt with twice -/

/-- How many bytes have been written, returned or kept. -/
def accounted (s : Console) : ℕ :=
  s.output.length + (INCR.length + requestSize) * s.requests.length + s.pending.length

/-- At least as many bytes more have been dealt with as have been received. -/
def Covers (s s' : Console) : Prop :=
  s'.received.length + s.accounted ≤ s.received.length + s'.accounted

theorem Covers.trans {s' s'' : Console} (h : Covers s s') (h' : Covers s' s'') : Covers s s'' := by
  rw [Covers] at *
  omega

theorem Overdone.of_covers {s' : Console} (h : s.Overdone) (hc : Covers s s') : s'.Overdone := by
  rw [Overdone] at *
  rw [Covers, accounted, accounted] at hc
  omega

theorem covers_writeText (hs : s.status ≠ .closed) : Covers s s.writeText := by
  rw [Covers, accounted, accounted, pending_of_ne hs, pending_of_ne (s := s.writeText) hs]
  simp only [writeText, length_append, length_take, length_drop]
  omega

theorem covers_takeRequest (hs : s.status ≠ .closed)
    (hlen : INCR.length + requestSize ≤ s.buffer.length) : Covers s s.takeRequest := by
  obtain ⟨hbuffer, hrequests, houtput, hreceived, -, hstatus⟩ := takeRequest_eq s
  rw [Covers, accounted, accounted, pending_of_ne hs, pending_of_ne (hstatus hs), hbuffer,
    hrequests, houtput, hreceived, length_append, length_singleton, length_drop,
    Nat.mul_succ]
  omega

theorem covers_search (hs : s.status ≠ .closed) (blocking : Bool) :
    Covers s (s.search blocking) := by
  rcases search_cases s blocking with ⟨-, hlen, heq⟩ | ⟨-, heq⟩
  · rw [heq]
    exact (covers_writeText hs).trans (covers_takeRequest hs hlen)
  · rw [heq]
    exact covers_writeText hs

theorem covers_receive (hs : s.status ≠ .closed) (n : ℕ) : Covers s (s.receive n) := by
  rw [Covers, accounted, accounted, pending_of_ne hs, pending_of_ne (s := s.receive n) hs]
  simp only [receive, length_append]
  omega

theorem covers_writeBuffer (hs : s.status ≠ .closed) : Covers s s.writeBuffer := by
  rw [Covers, accounted, accounted, pending_of_ne hs, pending_of_ne (s := s.writeBuffer) hs]
  simp only [writeBuffer, length_append]
  omega

theorem covers_close (hs : s.status ≠ .closed) : Covers s s.close := by
  rw [Covers, accounted, accounted, pending_of_ne hs]
  simp only [close, writeBuffer, pending, if_true, length_append, length_nil]
  omega

theorem covers_hangUp (hs : s.status ≠ .closed) : Covers s s.hangUp := by
  rw [Covers, accounted, accounted, pending_of_ne hs]
  simp only [hangUp, pending, if_true, length_append, length_nil]
  omega

theorem covers_step (hop : console.enabled s op) : Covers s (console.step s op) := by
  have hs := status_ne_closed hop
  rcases step_cases hop with ⟨n, blocking, heq, -⟩ | ⟨-, ⟨heq, -⟩ | ⟨heq, -⟩ | ⟨heq, -⟩⟩ <;>
    rw [heq]
  · exact (covers_receive hs n).trans (covers_search (s := s.receive n) hs blocking)
  · exact covers_close hs
  · exact covers_writeBuffer hs
  · exact covers_hangUp hs

/-! ### When the separation is exact -/

theorem Separated.step (h : s.Separated) (hop : console.enabled s op) (hquiet : s.Quiet op) :
    (console.step s op).Separated := by
  have hs := status_ne_closed hop
  rcases step_cases hop with ⟨n, blocking, heq, -⟩ | ⟨-, ⟨heq, -⟩ | ⟨heq, hiff⟩ | ⟨-, h'⟩⟩
  on_goal 4 => exact absurd hquiet h'
  all_goals rw [heq]
  · exact (h.receive hs n).search hs blocking
  · exact h.close hs
  · obtain ⟨segs, hbytes, hprinted, hcommands⟩ := h
    exact ⟨segs, hbytes, by simp [writeBuffer, hiff.mp hquiet, hprinted], hcommands⟩

/-- **Bytes that are written and kept are dealt with twice**, and at the end there are bytes that
were never received. -/
theorem Separated.overdone_step (h : s.Separated) (hfound : s.Found)
    (hop : console.enabled s op) (hquiet : ¬ s.Quiet op) : (console.step s op).Overdone := by
  have hs := status_ne_closed hop
  obtain ⟨segs, hbytes, hprinted, hcommands⟩ := h
  have hlen := length_segments segs (by rw [hcommands]; exact hfound.sized)
  rw [hprinted, hcommands] at hlen
  rw [pending_of_ne hs] at hbytes
  rcases step_cases hop with ⟨-, -, -, h'⟩ | ⟨hwait, ⟨-, h'⟩ | ⟨heq, hiff⟩ | ⟨heq, -⟩⟩
  · exact absurd h' hquiet
  · exact absurd h' hquiet
  · have hpos : 0 < s.buffer.length := length_pos_iff.mpr (mt hiff.mpr hquiet)
    rw [heq, Overdone, pending_of_ne (s := s.writeBuffer) hs]
    simp only [writeBuffer, length_append, ← hbytes, hlen]
    omega
  · have hshort : s.buffer.length < 12 := hfound.exhausted (.inl hwait)
    have hsize : kReadBufferSize = 131072 := rfl
    rw [heq, Overdone]
    simp only [hangUp, pending, if_true, length_append, length_replicate,
      length_nil, ← hbytes, hlen]
    omega

theorem overdone_run (h : s.Overdone) (hl : console.Legal s ops) :
    (console.run s ops).Overdone := by
  induction ops generalizing s with
  | nil => exact h
  | cons op ops ih => exact ih (h.of_covers (covers_step hl.1)) hl.2

/-- **A whole run** is separated exactly if every step of it is quiet. -/
theorem separated_run_iff (h : s.Separated) (hfound : s.Found)
    (hl : console.Legal s ops) : (console.run s ops).Separated ↔ console.Meets Quiet s ops := by
  induction ops generalizing s with
  | nil => exact ⟨fun _ => trivial, fun _ => h⟩
  | cons op ops ih =>
    by_cases hquiet : s.Quiet op
    · exact (ih (h.step hl.1 hquiet) (hfound.step hl.1) hl.2).trans
        ⟨fun hrest => ⟨hquiet, hrest⟩, And.right⟩
    · have hover := overdone_run (h.overdone_step hfound hl.1 hquiet) hl.2
      have hsized := (found_run (hfound.step hl.1) hl.2).sized
      exact ⟨fun hsep => absurd hover (hsep.not_overdone hsized),
        fun hmeets => absurd hmeets.1 hquiet⟩

end Console

open Console

/-- **Console text and requests.** Whatever the device sends, however it is split and whenever
`poll` times out: the requests that are returned are the first ones in what was received, and
all of them once the connection has ended – so they depend on nothing else. Text and requests
are separated exactly if and only if every `poll` that times out finds the buffer empty, unless
the server gives up then, and no `read` finds the end of the connection. -/
theorem console_separates_iff (bytes : Bytes) {ops : List ConsoleOp}
    (hl : console.Legal { incoming := bytes } ops) :
    ((console.run { incoming := bytes } ops).Separated ↔
        console.Meets Quiet { incoming := bytes } ops) ∧
      (console.run { incoming := bytes } ops).requests <+:
        requestsIn (console.run { incoming := bytes } ops).received ∧
      ((console.run { incoming := bytes } ops).status = .closed →
        (console.run { incoming := bytes } ops).requests =
          requestsIn (console.run { incoming := bytes } ops).received) := by
  have hinit : Found { incoming := bytes } :=
    ⟨fun more => rfl, by simp [Exhausted], by simp [Sized]⟩
  have hfound := found_run hinit hl
  have hrequests := hfound.parsed []
  rw [append_nil, append_nil] at hrequests
  refine ⟨separated_run_iff ⟨[], rfl, rfl, rfl⟩ hinit hl, ?_, fun hclosed => ?_⟩
  · rw [hrequests]
    exact prefix_append _ _
  · rw [hrequests, requestsIn_of_lt (hfound.exhausted (.inr hclosed)), append_nil]

/-- Some text, and then a request for the prefetching of the first file. -/
def greeting : Bytes := ascii "hello" ++ INCR ++ [0, 2, 0, 0, 0, 0, 0, 0]

/-- It is read in two pieces, then `poll` times out, and then it fails. -/
def greetingOps : List ConsoleOp :=
  [.readRequest true, .poll (.readable 7), .poll (.readable 100), .readRequest true,
    .poll .timeout, .readRequest true, .poll .error]

/-- The text is written, the request is returned, and nothing is left. -/
theorem console_separates_greeting :
    (console.run { incoming := greeting } greetingOps).output = ascii "hello" ∧
      (console.run { incoming := greeting } greetingOps).Separated :=
  ⟨by decide +kernel, (console_separates_iff greeting (by decide +kernel)).1.mpr
    (by decide +kernel)⟩

/-- One byte is read, then `poll` times out, and then come four more. -/
def stutterOps : List ConsoleOp :=
  [.readRequest true, .poll (.readable 1), .poll .timeout, .readRequest true, .poll (.readable 4)]

/-- The first three bytes of a request are read, then `poll` times out, then comes the rest. -/
def tornOps : List ConsoleOp :=
  [.readRequest false, .poll (.readable 3), .poll .timeout, .readRequest true, .poll (.readable 9)]

/-- Two bytes are read, and then the device hangs up. -/
def hangUpOps : List ConsoleOp := [.readRequest true, .poll (.readable 100), .poll (.readable 100)]

/-- **Text that is written twice, a request that is written as text**, and NULs that nobody has
sent. -/
theorem console_writes_twice :
    (console.Legal { incoming := ascii "abcde" } stutterOps ∧
      (console.run { incoming := ascii "abcde" } stutterOps).output = ascii "aa" ∧
      ¬ (console.run { incoming := ascii "abcde" } stutterOps).Separated) ∧
    (console.Legal { incoming := greeting.drop 5 } tornOps ∧
      (console.run { incoming := greeting.drop 5 } tornOps).received = greeting.drop 5 ∧
      (console.run { incoming := greeting.drop 5 } tornOps).requests = [[0, 2, 0, 0, 0, 0, 0, 0]] ∧
      (console.run { incoming := greeting.drop 5 } tornOps).output = ascii "INC") ∧
    console.Legal { incoming := ascii "hi" } hangUpOps ∧
      (console.run { incoming := ascii "hi" } hangUpOps).output =
        ascii "hi" ++ List.replicate 131070 0 := by
  refine ⟨⟨by decide +kernel, by decide +kernel, fun h => ?_⟩, ⟨by decide +kernel,
    by decide +kernel, by decide +kernel, by decide +kernel⟩, by decide +kernel, rfl⟩
  exact h.not_overdone (by decide +kernel) (by decide +kernel)

end AdbBridge.Incremental
