import AdbBridge.Shell.Command
import AdbBridge.Types.CLibrary

/-!
# Escape sequences on standard input

When standard input is raw, `stdin_read_thread_loop` reads it byte by byte and looks for an escape
character at the beginning of a line: behind it, a dot ends the connection and a second escape
character stands for one. The escape character is swallowed when it is read, and given back when
neither of the two follows.

A read that is interrupted sends the size of the window, through the same buffer; that does not
disturb a sequence, since what was swallowed is not kept in the buffer. But nothing gives the
escape character back at the end of the input. So all input arrives as it should unless it ends
with an escape character at the beginning of a line (`AdbBridge.stdinThread_sends_iff`).
-/

namespace AdbBridge

open List

/-! ### The loop -/

def kIdStdin : UInt8 := 0
def kIdCloseStdin : UInt8 := 4
def kIdWindowSizeChange : UInt8 := 5

inductive EscapeState
  | midFlow
  | startOfLine
  | inEscape
  deriving DecidableEq

/-- `StdinReadArgs`, without the descriptors. -/
structure StdinReadArgs where
  rawStdin : Bool
  /-- The device knows the shell protocol. -/
  protocol : Bool
  escapeChar : UInt8

/-- The input is searched for escape sequences. -/
def StdinReadArgs.parsesEscapes (args : StdinReadArgs) : Bool :=
  args.rawStdin && args.escapeChar != 0

/-- `buffer_size`. -/
def StdinReadArgs.bufferSize (args : StdinReadArgs) : ℕ :=
  if args.parsesEscapes then 1
  else if args.protocol then kShellBufferSize - kHeaderSize
  else bufsiz

/-- `winsize`. -/
structure WinSize where
  row : ℕ
  col : ℕ
  xpixel : ℕ
  ypixel : ℕ

/-- What `snprintf` prints for `"%dx%d,%dx%d"`. -/
def WinSize.text (ws : WinSize) : Bytes :=
  decimal ws.row ++ ascii "x" ++ decimal ws.col ++ ascii "," ++ decimal ws.xpixel ++ ascii "x" ++
    decimal ws.ypixel

/-- What one call of `unix_read_interruptible` comes to. -/
inductive StdinRead
  /-- It is interrupted. The size of the window can be had, or `ioctl` fails. -/
  | interrupted (ws : Option WinSize)
  /-- It reads some bytes; if they are written, the write succeeds or not. -/
  | data (bytes : Bytes) (written : Bool)

/-- What is written to the device. -/
inductive StdinOutput
  | packet (p : ShellPacket)
  | raw (bytes : Bytes)
  deriving DecidableEq

/-- The variables of the thread. -/
structure StdinThread where
  state : EscapeState
  /-- The memory that `buffer_ptr` points to. -/
  buffer : Bytes
  sent : List StdinOutput

/-- How the thread ends. -/
inductive StdinEnd
  /-- The input is at its end. -/
  | closed
  /-- A write has failed. -/
  | broken
  /-- The process exits with `[ disconnected ]`. -/
  | disconnected
  deriving DecidableEq

/-- `send_window_size_change`. -/
def StdinThread.sendWindowSizeChange (t : StdinThread) (args : StdinReadArgs)
    (ws : Option WinSize) : StdinThread :=
  match args.protocol, ws with
  | true, some ws =>
    let buffer := overwrite t.buffer 0 (ws.text ++ [0])
    { t with
      buffer
      sent := t.sent ++ [.packet ⟨kIdWindowSizeChange, buffer.take (ws.text.length + 1)⟩] }
  | _, _ => t

/-- The first `r` bytes of the buffer are written. -/
def StdinThread.write (t : StdinThread) (args : StdinReadArgs) (r : ℕ) : StdinThread :=
  { t with
    sent := t.sent ++
      [if args.protocol then .packet ⟨kIdStdin, t.buffer.take r⟩ else .raw (t.buffer.take r)] }

/-- What is to be done about a byte. -/
inductive EscapeAction
  | swallow
  | pass
  | coughUp
  | disconnect

/-- A newline or a carriage return. -/
def endsLine (ch : UInt8) : Bool := ch == 10 || ch == 13

/-- The state behind a byte that is not an escape character. -/
def EscapeState.after (ch : UInt8) : EscapeState := if endsLine ch then .startOfLine else .midFlow

/-- The transitions of the escape state. -/
def escapeTurn (escapeChar : UInt8) (state : EscapeState) (ch : UInt8) :
    EscapeState × EscapeAction :=
  if ch = escapeChar then
    if state = .startOfLine then (.inEscape, .swallow) else (.midFlow, .pass)
  else if state = .inEscape then
    if ch = 46 then (state, .disconnect) else (.after ch, .coughUp)
  else (.after ch, .pass)

/-- The loop of `stdin_read_thread_loop`; after the reads in the list there is one that returns 0
or an error. -/
def stdinLoop (args : StdinReadArgs) (t : StdinThread) : List StdinRead → StdinThread × StdinEnd
  | [] =>
    (if args.protocol then { t with sent := t.sent ++ [.packet ⟨kIdCloseStdin, []⟩] } else t,
      .closed)
  | .interrupted ws :: reads => stdinLoop args (t.sendWindowSizeChange args ws) reads
  | .data bytes written :: reads =>
    let t := { t with buffer := overwrite t.buffer 0 bytes }
    if args.parsesEscapes then
      let ch := t.buffer.headD 0
      match escapeTurn args.escapeChar t.state ch with
      | (state, .swallow) => stdinLoop args { t with state } reads
      | (_, .disconnect) => (t, .disconnected)
      | (state, .coughUp) =>
        let t := { t with state, buffer := overwrite t.buffer 0 [args.escapeChar, ch] }
        if written then stdinLoop args (t.write args (bytes.length + 1)) reads else (t, .broken)
      | (state, .pass) =>
        let t := { t with state }
        if written then stdinLoop args (t.write args bytes.length) reads else (t, .broken)
    else if written then stdinLoop args (t.write args bytes.length) reads
    else (t, .broken)

/-- `stdin_read_thread_loop`, for the size of the window at the beginning, a buffer over whatever
is in `memory`, and the reads in front of the last. -/
def stdinThread (args : StdinReadArgs) (memory : Bytes) (ws : Option WinSize)
    (reads : List StdinRead) : StdinThread × StdinEnd :=
  stdinLoop args (StdinThread.sendWindowSizeChange ⟨.startOfLine, memory, []⟩ args ws) reads

/-- The bytes of the input in what is written. -/
def stdinOf (sent : List StdinOutput) : Bytes :=
  sent.flatMap fun
    | .packet p => if p.id = kIdStdin then p.data else []
    | .raw bytes => bytes

/-! ### What is to arrive -/

/-- **What is to arrive** of an input, and whether it ends the connection: at the beginning of a
line two escape characters stand for one, and an escape character with a dot behind it ends the
connection. -/
def stripEscapes (escapeChar : UInt8) (atStart : Bool) : Bytes → Bytes × Bool
  | [] => ([], false)
  | c :: input =>
    if atStart ∧ c = escapeChar then
      match input with
      | [] => ([c], false)
      | d :: input =>
        if d = escapeChar then (stripEscapes escapeChar false input).map (c :: ·) id
        else if d = 46 then ([], true)
        else (stripEscapes escapeChar (endsLine d) input).map (c :: d :: ·) id
    else (stripEscapes escapeChar (endsLine c) input).map (c :: ·) id

/-- The bytes that the reads bring. -/
def inputOf (reads : List StdinRead) : Bytes :=
  reads.flatMap fun
    | .interrupted _ => []
    | .data bytes _ => bytes

/-- A read has a size it can have, and what it brings can be written. -/
def StdinRead.isServed (args : StdinReadArgs) : StdinRead → Bool
  | .interrupted _ => true
  | .data bytes written => bytes ≠ [] ∧ bytes.length ≤ args.bufferSize ∧ written = true

/-- Reads as they can be, without a write that fails. -/
abbrev Served (args : StdinReadArgs) (reads : List StdinRead) : Prop :=
  ∀ r ∈ reads, r.isServed args = true

/-- The end of some bytes is the beginning of a line. -/
def AtLineStart (input : Bytes) : Prop := ∀ ch ∈ input.getLast?, endsLine ch

/-- **The input ends with an escape character at the beginning of a line**, and the connection has
not been ended before. -/
def LoneEscape (escapeChar : UInt8) (input : Bytes) : Prop :=
  ∃ front, input = front ++ [escapeChar] ∧ AtLineStart front ∧
    (stripEscapes escapeChar true front).2 = false

/-! ### The escape states without the buffer -/

/-- What becomes of some bytes of the input, and the state behind them; there is none behind a
disconnection. -/
def escapeRun (escapeChar : UInt8) (state : EscapeState) : Bytes → Bytes × Option EscapeState
  | [] => ([], some state)
  | ch :: input =>
    match escapeTurn escapeChar state ch with
    | (state, .swallow) => escapeRun escapeChar state input
    | (_, .disconnect) => ([], none)
    | (state, .coughUp) => (escapeRun escapeChar state input).map (escapeChar :: ch :: ·) id
    | (state, .pass) => (escapeRun escapeChar state input).map (ch :: ·) id

theorem headD_overwrite_zero (buffer : Bytes) (ch : UInt8) (bytes : Bytes) :
    (overwrite buffer 0 (ch :: bytes)).headD 0 = ch := rfl

theorem stdinOf_append (sent sent' : List StdinOutput) :
    stdinOf (sent ++ sent') = stdinOf sent ++ stdinOf sent' :=
  flatMap_append

theorem StdinThread.stdinOf_sendWindowSizeChange (t : StdinThread) (args : StdinReadArgs)
    (ws : Option WinSize) : stdinOf (t.sendWindowSizeChange args ws).sent = stdinOf t.sent ∧
      (t.sendWindowSizeChange args ws).state = t.state := by
  unfold sendWindowSizeChange
  split
  · refine ⟨?_, rfl⟩
    rw [stdinOf_append]
    exact append_nil _
  · exact ⟨rfl, rfl⟩

theorem StdinThread.stdinOf_write (t : StdinThread) (args : StdinReadArgs) (r : ℕ) :
    stdinOf (t.write args r).sent = stdinOf t.sent ++ t.buffer.take r := by
  rw [write, stdinOf_append]
  congr 1
  cases args.protocol
  · exact append_nil _
  · exact append_nil _

section

variable {args : StdinReadArgs} {reads : List StdinRead}

/-- A read brings one byte when escape sequences are looked for. -/
theorem exists_of_isServed {bytes : Bytes} {written : Bool} (hparses : args.parsesEscapes)
    (h : (StdinRead.data bytes written).isServed args) : ∃ ch, bytes = [ch] ∧ written = true := by
  obtain ⟨hne, hle, hwritten⟩ := of_decide_eq_true h
  rw [StdinReadArgs.bufferSize, if_pos hparses] at hle
  have hpos := length_pos_iff.mpr hne
  obtain ⟨ch, rfl⟩ := length_eq_one_iff.mp (show bytes.length = 1 by omega)
  exact ⟨ch, rfl, hwritten⟩

/-- **The loop does what the escape states say**, whatever interrupts it. -/
theorem stdinLoop_eq (hparses : args.parsesEscapes) (hreads : Served args reads) (t : StdinThread) :
    stdinOf (stdinLoop args t reads).1.sent =
        stdinOf t.sent ++ (escapeRun args.escapeChar t.state (inputOf reads)).1 ∧
      ((stdinLoop args t reads).2 = .disconnected ↔
        (escapeRun args.escapeChar t.state (inputOf reads)).2 = none) := by
  induction reads generalizing t with
  | nil =>
    refine ⟨?_, by simp [stdinLoop, inputOf, escapeRun]⟩
    rw [stdinLoop]
    split_ifs
    · rw [stdinOf_append]
      rfl
    · exact (append_nil _).symm
  | cons r reads ih =>
    obtain ⟨hr, hreads'⟩ := forall_mem_cons.mp hreads
    cases r with
    | interrupted ws =>
      obtain ⟨hsent, hstate⟩ := t.stdinOf_sendWindowSizeChange args ws
      rw [stdinLoop, ← hsent, ← hstate]
      exact ih hreads' _
    | data bytes written =>
      obtain ⟨ch, rfl, rfl⟩ := exists_of_isServed hparses hr
      have hinput : inputOf (.data [ch] true :: reads) = ch :: inputOf reads := rfl
      rw [hinput, stdinLoop, if_pos hparses, escapeRun, headD_overwrite_zero]
      dsimp only
      obtain ⟨state, action⟩ := escapeTurn args.escapeChar t.state ch
      cases action with
      | swallow => exact ih hreads' _
      | disconnect => exact ⟨(append_nil _).symm, by simp⟩
      | coughUp =>
        dsimp only
        rw [if_pos rfl]
        refine ⟨(ih hreads' _).1.trans ?_, (ih hreads' _).2⟩
        rw [StdinThread.stdinOf_write, append_assoc]
        rfl
      | pass =>
        dsimp only
        rw [if_pos rfl]
        refine ⟨(ih hreads' _).1.trans ?_, (ih hreads' _).2⟩
        rw [StdinThread.stdinOf_write, append_assoc]
        rfl

end

/-! ### The escape states do what they should -/

section

variable {e : UInt8} {state : EscapeState} {ch : UInt8}

/-- What is to arrive of the input behind a state: in the middle of an escape sequence the escape
character is still to come. -/
def EscapeState.expected (e : UInt8) : EscapeState → Bytes → Bytes × Bool
  | .midFlow, input => stripEscapes e false input
  | .startOfLine, input => stripEscapes e true input
  | .inEscape, input => stripEscapes e true (e :: input)

/-- What is swallowed in a state. -/
def EscapeState.held (e : UInt8) : Option EscapeState → Bytes
  | some .inEscape => [e]
  | _ => []

theorem EscapeState.held_eq_nil_iff {state : Option EscapeState} :
    EscapeState.held e state = [] ↔ state ≠ some .inEscape := by
  rcases state with - | - | - | - <;> simp [EscapeState.held]

theorem EscapeState.expected_after (e ch : UInt8) (input : Bytes) :
    (EscapeState.after ch).expected e input = stripEscapes e (endsLine ch) input := by
  unfold EscapeState.after
  cases endsLine ch <;> rfl

theorem stripEscapes_cons {atStart : Bool} {c : UInt8} (h : ¬(atStart ∧ c = e)) (input : Bytes) :
    stripEscapes e atStart (c :: input) = (stripEscapes e (endsLine c) input).map (c :: ·) id := by
  conv_lhs => unfold stripEscapes
  rw [if_neg h]

theorem stripEscapes_midFlow (c : UInt8) (input : Bytes) :
    stripEscapes e false (c :: input) = (stripEscapes e (endsLine c) input).map (c :: ·) id :=
  stripEscapes_cons (by simp) input

theorem stripEscapes_escape (d : UInt8) (input : Bytes) :
    stripEscapes e true (e :: d :: input) =
      if d = e then (stripEscapes e false input).map (e :: ·) id
      else if d = 46 then ([], true)
      else (stripEscapes e (endsLine d) input).map (e :: d :: ·) id := by
  rw [stripEscapes, if_pos ⟨rfl, rfl⟩]

/-- **What passes and what is held are what is to arrive.** -/
theorem escapeRun_expected (he : endsLine e = false) (state : EscapeState) (input : Bytes) :
    ((escapeRun e state input).1 ++ EscapeState.held e (escapeRun e state input).2,
      (escapeRun e state input).2.isNone) = state.expected e input := by
  induction input generalizing state with
  | nil =>
    cases state with
    | midFlow => rfl
    | startOfLine => rfl
    | inEscape => simp [EscapeState.expected, stripEscapes, escapeRun, EscapeState.held]
  | cons ch input ih =>
    rw [escapeRun, escapeTurn]
    by_cases hch : ch = e
    · subst hch
      rw [if_pos rfl]
      cases state with
      | startOfLine => exact ih .inEscape
      | midFlow =>
        rw [if_neg nofun, EscapeState.expected, stripEscapes_midFlow, he]
        exact congrArg (Prod.map (ch :: ·) id) (ih .midFlow)
      | inEscape =>
        rw [if_neg nofun, EscapeState.expected, stripEscapes_escape, if_pos rfl]
        exact congrArg (Prod.map (ch :: ·) id) (ih .midFlow)
    · rw [if_neg hch]
      have hafter := (ih (.after ch)).trans (EscapeState.expected_after e ch input)
      cases state with
      | startOfLine =>
        rw [if_neg nofun, EscapeState.expected, stripEscapes_cons fun h => hch h.2]
        exact congrArg (Prod.map (ch :: ·) id) hafter
      | midFlow =>
        rw [if_neg nofun, EscapeState.expected, stripEscapes_midFlow]
        exact congrArg (Prod.map (ch :: ·) id) hafter
      | inEscape =>
        rw [if_pos rfl, EscapeState.expected, stripEscapes_escape, if_neg hch]
        by_cases hdot : ch = 46
        · rw [if_pos hdot, if_pos hdot]
          rfl
        · rw [if_neg hdot, if_neg hdot]
          exact congrArg (Prod.map (e :: ch :: ·) id) hafter

/-- The states behind one more byte. -/
theorem escapeRun_concat (state : EscapeState) (front : Bytes) (ch : UInt8) :
    (escapeRun e state (front ++ [ch])).2 =
      (escapeRun e state front).2.bind fun state => (escapeRun e state [ch]).2 := by
  induction front generalizing state with
  | nil => rfl
  | cons c front ih =>
    rw [cons_append, escapeRun, escapeRun]
    obtain ⟨state, action⟩ := escapeTurn e state c
    cases action with
    | swallow => exact ih state
    | disconnect => rfl
    | coughUp => exact ih state
    | pass => exact ih state

theorem escapeRun_singleton_inEscape_iff :
    (escapeRun e state [ch]).2 = some .inEscape ↔ state = .startOfLine ∧ ch = e := by
  rw [escapeRun, escapeTurn, EscapeState.after]
  split_ifs <;> simp_all [escapeRun]

theorem escapeRun_singleton_startOfLine_iff (he : endsLine e = false) (hsome :
    (escapeRun e state [ch]).2 ≠ none) :
    (escapeRun e state [ch]).2 = some .startOfLine ↔ endsLine ch := by
  rw [escapeRun, escapeTurn, EscapeState.after] at hsome ⊢
  split_ifs at hsome ⊢ <;> simp_all [escapeRun]

/-- The state at the beginning of a line. -/
theorem escapeRun_startOfLine_iff (he : endsLine e = false) {front : Bytes}
    (hsome : (escapeRun e .startOfLine front).2 ≠ none) :
    (escapeRun e .startOfLine front).2 = some .startOfLine ↔ AtLineStart front := by
  rcases eq_nil_or_concat front with rfl | ⟨front, ch, rfl⟩
  · exact ⟨nofun, fun _ => rfl⟩
  · have hlast : AtLineStart (front.concat ch) ↔ endsLine ch := by
      rw [AtLineStart, concat_eq_append, List.getLast?_concat]
      simp
    rw [concat_eq_append, escapeRun_concat] at hsome ⊢
    cases hfront : (escapeRun e .startOfLine front).2 with
    | none => simp [hfront] at hsome
    | some state =>
      rw [hfront] at hsome
      rw [← concat_eq_append, hlast]
      exact escapeRun_singleton_startOfLine_iff he hsome

/-- **An escape character is held at the end just when it stands alone there.** -/
theorem escapeRun_inEscape_iff (he : endsLine e = false) (input : Bytes) :
    (escapeRun e .startOfLine input).2 = some .inEscape ↔ LoneEscape e input := by
  have hnone : ∀ front, (stripEscapes e true front).2 = false ↔
      (escapeRun e .startOfLine front).2 ≠ none := by
    intro front
    have hspec := congrArg Prod.snd (escapeRun_expected he .startOfLine front)
    rw [show (stripEscapes e true front).2 = _ from hspec.symm, ← Option.isSome_iff_ne_none]
    simp
  constructor
  · intro h
    rcases eq_nil_or_concat input with rfl | ⟨front, ch, rfl⟩
    · exact nomatch h
    · rw [concat_eq_append, escapeRun_concat] at h
      obtain ⟨state, hstate, hlast⟩ := Option.bind_eq_some_iff.mp h
      obtain ⟨rfl, rfl⟩ := escapeRun_singleton_inEscape_iff.mp hlast
      have hsome : (escapeRun ch .startOfLine front).2 ≠ none := by
        rw [hstate]
        nofun
      exact ⟨front, concat_eq_append, (escapeRun_startOfLine_iff he hsome).mp hstate,
        (hnone front).mpr hsome⟩
  · rintro ⟨front, rfl, hstart, hfront⟩
    have hstate := (escapeRun_startOfLine_iff he ((hnone front).mp hfront)).mpr hstart
    rw [escapeRun_concat, hstate]
    exact escapeRun_singleton_inEscape_iff.mpr ⟨rfl, rfl⟩

end

/-- **When no input is lost**: for raw input, what arrives is the input without its escape
sequences, and the connection is ended by an escape character and a dot at the beginning of a line
and by nothing else, just when the input does not end with an escape character at the beginning of
a line. -/
theorem stdinThread_sends_iff (args : StdinReadArgs) (memory : Bytes) (ws : Option WinSize)
    (reads : List StdinRead) (hraw : args.rawStdin) (hzero : args.escapeChar ≠ 0)
    (hline : endsLine args.escapeChar = false) (hreads : Served args reads) :
    (stdinOf (stdinThread args memory ws reads).1.sent =
        (stripEscapes args.escapeChar true (inputOf reads)).1 ∧
      ((stdinThread args memory ws reads).2 = .disconnected ↔
        (stripEscapes args.escapeChar true (inputOf reads)).2 = true)) ↔
      ¬LoneEscape args.escapeChar (inputOf reads) := by
  have hparses : args.parsesEscapes := by
    rw [StdinReadArgs.parsesEscapes, hraw]
    simpa using hzero
  obtain ⟨hsent, hstate⟩ :=
    StdinThread.stdinOf_sendWindowSizeChange ⟨.startOfLine, memory, []⟩ args ws
  obtain ⟨hloop, hend⟩ := stdinLoop_eq hparses hreads
    (StdinThread.sendWindowSizeChange ⟨.startOfLine, memory, []⟩ args ws)
  rw [hsent, hstate] at hloop
  rw [hstate] at hend
  have hexpected := escapeRun_expected hline .startOfLine (inputOf reads)
  have harrives : (stripEscapes args.escapeChar true (inputOf reads)).1 = _ :=
    (congrArg Prod.fst hexpected).symm
  have hends : (stripEscapes args.escapeChar true (inputOf reads)).2 = _ :=
    (congrArg Prod.snd hexpected).symm
  rw [stdinThread, hloop, hend, harrives, hends, ← escapeRun_inEscape_iff hline,
    and_iff_left Option.isNone_iff_eq_none.symm]
  exact self_eq_append_right.trans EscapeState.held_eq_nil_iff

/-- A shell with the protocol and a tilde as escape character. -/
def tildeArgs : StdinReadArgs := ⟨true, true, 126⟩

/-- `~~x`, newline, `~.y`, with an interruption inside of each escape sequence. -/
def tildeReads : List StdinRead :=
  [.data [126] true, .interrupted (some ⟨24, 80, 0, 0⟩), .data [126] true, .data [120] true,
    .data [10] true, .data [126] true, .interrupted none, .data [46] true, .data [121] true]

theorem stdinThread_sends_iff_tilde :
    stdinOf (stdinThread tildeArgs [] none tildeReads).1.sent = [126, 120, 10] ∧
      ((stdinThread tildeArgs [] none tildeReads).2 = .disconnected ↔ true = true) := by
  have hlone : ¬LoneEscape tildeArgs.escapeChar (inputOf tildeReads) := by
    rintro ⟨front, hfront, -, -⟩
    have hlast := congrArg List.getLast? hfront
    rw [List.getLast?_concat] at hlast
    exact absurd hlast (by decide)
  exact (stdinThread_sends_iff tildeArgs [] none tildeReads rfl (by decide) (by decide)
    (by decide)).mpr hlone

/-- **An escape character that is the whole input**, or its last line, **is lost**. -/
theorem stdinThread_loses :
    stdinOf (stdinThread tildeArgs [] none [.data [126] true]).1.sent = [] ∧
      stripEscapes 126 true [126] = ([126], false) := by
  decide

end AdbBridge
