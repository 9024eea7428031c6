import AdbBridge.Shell.Protocol

/-!
# The result of a shell command

`read_and_dump_protocol` hands what comes in on stdout and stderr to a callback and takes the exit
code from the exit packet. It looks at pieces, not at packets: the exit code is the first byte at
`data()` after each `Read` of an exit packet. So the code of a packet that is too large for the
buffer is the first byte of its last piece, and that of an empty packet is whatever an earlier
packet, or nobody, has left in the buffer.

The streams come through as they are. The exit code is the first byte of the last exit packet that
has one exactly if the last exit packet is readable, `AdbBridge.ExitReadable`
(`AdbBridge.readAndDumpProtocol_iff`).
-/

namespace AdbBridge

open ShellProtocol List

/-- `kIdStdout`. -/
def kIdStdout : UInt8 := 1

/-- `kIdStderr`. -/
def kIdStderr : UInt8 := 2

/-- `kIdExit`. -/
def kIdExit : UInt8 := 3

/-- A call of the callback. -/
inductive Output
  | stdout (data : Bytes)
  | stderr (data : Bytes)
  deriving DecidableEq, Repr

/-- What has gone to stdout. -/
def stdoutOf : List Output → Bytes
  | [] => []
  | .stdout data :: outputs => data ++ stdoutOf outputs
  | .stderr _ :: outputs => stdoutOf outputs

/-- What has gone to stderr. -/
def stderrOf : List Output → Bytes
  | [] => []
  | .stdout _ :: outputs => stderrOf outputs
  | .stderr data :: outputs => data ++ stderrOf outputs

/-- A `StandardStreamsCallbackInterface`: whether a call succeeds, after the calls so far. -/
structure StreamsCallback where
  onStdout : List Output → Bytes → Bool
  onStderr : List Output → Bytes → Bool

/-- A callback that accepts all data. -/
def StreamsCallback.AcceptsAll (callback : StreamsCallback) : Prop :=
  ∀ outputs data, callback.onStdout outputs data = true ∧ callback.onStderr outputs data = true

/-- How far `read_and_dump_protocol` has come: the calls of the callback, and `exit_code`. -/
structure Dump where
  outputs : List Output := []
  exitCode : ℕ := 255
  deriving DecidableEq, Repr

/-- `SIGPIPE + 128`. -/
def sigpipeExitCode : ℕ := 13 + 128

section Code

variable (callback : StreamsCallback)

/-- One turn of the loop, after a `Read`: the new state, and whether the loop goes on. -/
def dumpPiece (p : ShellProtocol) (d : Dump) : Dump × Bool :=
  let data := p.data.take p.dataLength
  if p.id = intOfChar kIdStdout then
    let called := d.outputs ++ [.stdout data]
    if callback.onStdout d.outputs data then ({ d with outputs := called }, true)
    else (⟨called, sigpipeExitCode⟩, false)
  else if p.id = intOfChar kIdStderr then
    let called := d.outputs ++ [.stderr data]
    if callback.onStderr d.outputs data then ({ d with outputs := called }, true)
    else (⟨called, sigpipeExitCode⟩, false)
  else if p.id = intOfChar kIdExit then ({ d with exitCode := (p.data.headD 0).toNat }, true)
  else (d, true)

/-- The loop of `read_and_dump_protocol`, with at most so many turns. -/
def dumpLoop : ℕ → ShellProtocol → List Bytes → Dump → Option Dump
  | 0, _, _, _ => none
  | n + 1, p, pieces, d =>
    match p.read pieces with
    | none => some d
    | some (p, pieces) =>
      match dumpPiece callback p d with
      | (d, true) => dumpLoop n p pieces d
      | (d, false) => some d

/-- `read_and_dump_protocol`, with at most so many turns; `memory` is what the new object finds in
its buffer. -/
def readAndDumpProtocol (turns : ℕ) (memory : Bytes) (pieces : List Bytes) : Option Dump :=
  dumpLoop callback turns (make memory kShellBufferSize) pieces {}

end Code

/-! ### What is expected -/

/-- The data of the packets with this id. -/
def dataOf (id : UInt8) (packets : List ShellPacket) : Bytes :=
  (packets.filter (·.id = id)).flatMap ShellPacket.data

/-- **The first data byte of the last exit packet that is not empty**, or 255 if there is none. -/
def exitCodeOf (packets : List ShellPacket) : ℕ :=
  ((packets.filter fun q => q.id = kIdExit ∧ q.data ≠ []).getLast?.map fun q =>
    (q.data.headD 0).toNat).getD 255

/-- The first byte of the last piece of a packet, or what was there before if it is empty. -/
def lastPieceByte (capacity : ℕ) (data : Bytes) (before : UInt8) : UInt8 :=
  if data = [] then before else data.getD (capacity * ((data.length - 1) / capacity)) 0

/-- The first data byte in the buffer after these packets, if it was `byte` before. -/
def bufferByte (capacity : ℕ) (byte : UInt8) (packets : List ShellPacket) : UInt8 :=
  packets.foldl (fun byte q => lastPieceByte capacity q.data byte) byte

/-- **An exit packet is readable**: its last piece begins with the byte that the packet begins
with, as it does if the packet fits into the buffer; and if the packet is empty, what earlier
packets have left in the buffer is the exit code they stand for. -/
def ExitReadable (capacity : ℕ) (byte : UInt8) (before : List ShellPacket) (e : ShellPacket) :
    Prop :=
  if e.data = [] then (bufferByte capacity byte before).toNat = exitCodeOf before
  else (lastPieceByte capacity e.data byte).toNat = (e.data.headD 0).toNat

/-- The exit code in packets that `read_and_dump_protocol` comes to. -/
def exitCodeSeen (capacity : ℕ) (byte : UInt8) (packets : List ShellPacket) (code : ℕ) : ℕ :=
  match packets with
  | [] => code
  | q :: packets =>
    let byte := lastPieceByte capacity q.data byte
    exitCodeSeen capacity byte packets (if q.id = kIdExit then byte.toNat else code)

/-- The capacity of the object that `read_and_dump_protocol` uses. -/
def dumpCapacity : ℕ := kShellBufferSize - kHeaderSize

/-! ### Bytes in the buffer -/

section Bytes

variable {capacity : ℕ} {data piece before : Bytes} {byte byte' : UInt8} {p : ShellProtocol}

theorem ShellProtocol.Handed.headD_data (h : Handed piece before p) :
    p.data.headD 0 = if piece = [] then before.headD 0 else piece.headD 0 := by
  rw [h.data_eq]
  cases piece with
  | nil => rfl
  | cons b piece => rfl

theorem lastPieceByte_of_le (hle : data.length ≤ capacity) :
    lastPieceByte capacity data byte = if data = [] then byte else data.headD 0 := by
  cases data with
  | nil => rfl
  | cons b data =>
    rw [length_cons] at hle
    rw [lastPieceByte, if_neg (cons_ne_nil _ _), if_neg (cons_ne_nil _ _),
      length_cons, Nat.add_sub_cancel, Nat.div_eq_of_lt (by omega), Nat.mul_zero]
    rfl

/-- The last piece of a packet is the last piece of what comes behind its first piece. -/
theorem lastPieceByte_drop (hcapacity : 0 < capacity) (hlong : capacity < data.length) :
    lastPieceByte capacity (data.drop capacity) byte' = lastPieceByte capacity data byte := by
  have hdata : data ≠ [] := ne_nil_of_length_pos (by omega)
  have hdrop : data.drop capacity ≠ [] := fun h => absurd (drop_eq_nil_iff.mp h) (by omega)
  have hindex : (data.length - 1) / capacity = (data.length - capacity - 1) / capacity + 1 := by
    rw [← Nat.add_div_right _ hcapacity]
    congr 1
    omega
  rw [lastPieceByte, lastPieceByte, if_neg hdata, if_neg hdrop, length_drop, hindex, mul_add,
    mul_one, Nat.add_comm, getD_eq_getElem?_getD, getD_eq_getElem?_getD,
    List.getElem?_drop]

theorem intOfChar_inj {a b : UInt8} : intOfChar a = intOfChar b ↔ a = b := by
  refine ⟨fun h => UInt8.toNat_inj.mp ?_, congrArg intOfChar⟩
  have ha := a.toNat_lt
  have hb := b.toNat_lt
  rw [intOfChar, intOfChar] at h
  split_ifs at h <;> omega

end Bytes

/-! ### One turn, and one packet -/

section Turns

variable {callback : StreamsCallback} {capacity : ℕ} {id : ℤ} {data data' piece before : Bytes}
  {byte byte' : UInt8} {p p₁ : ShellProtocol} {pieces left₁ : List Bytes} {later : Bytes}
  {d d' d'' : Dump}

theorem stdoutOf_append (outputs outputs' : List Output) :
    stdoutOf (outputs ++ outputs') = stdoutOf outputs ++ stdoutOf outputs' := by
  induction outputs with
  | nil => rfl
  | cons output outputs ih =>
    cases output with
    | stdout data => rw [cons_append, stdoutOf, ih, stdoutOf, append_assoc]
    | stderr data => rw [cons_append, stdoutOf, ih, stdoutOf]

theorem stderrOf_append (outputs outputs' : List Output) :
    stderrOf (outputs ++ outputs') = stderrOf outputs ++ stderrOf outputs' := by
  induction outputs with
  | nil => rfl
  | cons output outputs ih =>
    cases output with
    | stdout data => rw [cons_append, stderrOf, ih, stderrOf]
    | stderr data => rw [cons_append, stderrOf, ih, stderrOf, append_assoc]

/-- What becomes of data with this id, when `byte` is the last to be seen at `data()`. -/
structure Took (id : ℤ) (data : Bytes) (byte : UInt8) (d d' : Dump) : Prop where
  stdout : stdoutOf d'.outputs =
    stdoutOf d.outputs ++ if id = intOfChar kIdStdout then data else []
  stderr : stderrOf d'.outputs =
    stderrOf d.outputs ++ if id = intOfChar kIdStderr then data else []
  exitCode : d'.exitCode = if id = intOfChar kIdExit then byte.toNat else d.exitCode

/-- Two parts of a packet. -/
theorem Took.trans (h : Took id data byte d d') (h' : Took id data' byte' d' d'') :
    Took id (data ++ data') byte' d d'' where
  stdout := by
    rw [h'.stdout, h.stdout]
    split_ifs <;> simp
  stderr := by
    rw [h'.stderr, h.stderr]
    split_ifs <;> simp
  exitCode := by
    rw [h'.exitCode, h.exitCode]
    split_ifs <;> rfl

/-- **One turn takes a piece.** -/
theorem exists_dumpPiece (haccepts : callback.AcceptsAll) (h : Handed piece before p) (d : Dump) :
    ∃ d', dumpPiece callback p d = (d', true) ∧ Took p.id piece (p.data.headD 0) d d' := by
  have hout : ¬intOfChar kIdStderr = intOfChar kIdStdout := by decide
  have hexit : ¬intOfChar kIdExit = intOfChar kIdStdout := by decide
  have hexit' : ¬intOfChar kIdExit = intOfChar kIdStderr := by decide
  rw [dumpPiece, h.take_data]
  simp only [(haccepts _ _).1, (haccepts _ _).2, if_true]
  by_cases h1 : p.id = intOfChar kIdStdout
  · refine ⟨_, if_pos h1, ?_, ?_, ?_⟩
    · rw [stdoutOf_append, if_pos h1]
      simp [stdoutOf]
    · rw [stderrOf_append, h1, if_neg (Ne.symm hout)]
      rfl
    · rw [h1, if_neg (Ne.symm hexit)]
  rw [if_neg h1]
  by_cases h2 : p.id = intOfChar kIdStderr
  · refine ⟨_, if_pos h2, ?_, ?_, ?_⟩
    · rw [stdoutOf_append, if_neg h1]
      rfl
    · rw [stderrOf_append, if_pos h2]
      simp [stderrOf]
    · rw [h2, if_neg (Ne.symm hexit')]
  rw [if_neg h2]
  by_cases h3 : p.id = intOfChar kIdExit
  · refine ⟨_, if_pos h3, ?_, ?_, ?_⟩
    · rw [if_neg h1, append_nil]
    · rw [if_neg h2, append_nil]
    · rw [if_pos h3]
  · refine ⟨_, if_neg h3, ?_, ?_, ?_⟩
    · rw [if_neg h1, append_nil]
    · rw [if_neg h2, append_nil]
    · rw [if_neg h3]

/-- **After its first piece has been read, a packet is taken as a whole**, in so many turns. The
induction is on what is left of the packet. -/
theorem dumpLoop_pieces (haccepts : callback.AcceptsAll) (hread : p.read pieces = some (p₁, left₁))
    (hmidway : Midway capacity id (data.drop capacity) later p₁ left₁)
    (hhanded : Handed (data.take capacity) p.data p₁) (d : Dump) :
    ∃ k p' left d', (∀ n, dumpLoop callback (n + k) p pieces d = dumpLoop callback n p' left d') ∧
      Midway capacity id [] later p' left ∧
        p'.data.headD 0 = lastPieceByte capacity data (p.data.headD 0) ∧
          Took id data (p'.data.headD 0) d d' := by
  have hpos := hmidway.capacity_pos
  induction hlength : data.length using Nat.strong_induction_on
    generalizing data p pieces p₁ left₁ d with
  | _ m ih =>
    obtain ⟨d₁, hpiece, htook⟩ := exists_dumpPiece haccepts hhanded d
    have hturn : ∀ n, dumpLoop callback (n + 1) p pieces d = dumpLoop callback n p₁ left₁ d₁ := by
      intro n
      rw [dumpLoop, hread]
      simp only
      rw [hpiece]
    rw [hmidway.id_eq] at htook
    by_cases hlong : capacity < data.length
    · have hrest : data.drop capacity ≠ [] := fun h =>
        absurd (drop_eq_nil_iff.mp h) (by omega)
      obtain ⟨p₂, left₂, hread₂, hmidway₂, hhanded₂⟩ := read_further hmidway hrest
      obtain ⟨k, p', left, d', hturns, hend, hbyte, htook'⟩ :=
        ih _ (by rw [length_drop]; omega) hread₂ hmidway₂ hhanded₂ d₁ rfl
      refine ⟨k + 1, p', left, d', fun n => ?_, hend, ?_, ?_⟩
      · rw [← Nat.add_assoc, hturn, hturns]
      · rw [hbyte, lastPieceByte_drop hpos hlong]
      · have hboth := htook.trans htook'
        rwa [take_append_drop] at hboth
    · have hshort := not_lt.mp hlong
      rw [drop_eq_nil_of_le hshort] at hmidway
      rw [take_of_length_le hshort] at htook hhanded
      refine ⟨1, p₁, left₁, d₁, hturn, hmidway, ?_, htook⟩
      rw [hhanded.headD_data, lastPieceByte_of_le hshort]

theorem dataOf_cons (id : UInt8) (q : ShellPacket) (packets : List ShellPacket) :
    dataOf id (q :: packets) = (if q.id = id then q.data else []) ++ dataOf id packets := by
  by_cases hid : q.id = id
  · simp [dataOf, hid]
  · simp [dataOf, hid]

/-- **Packets are taken one after the other**, and the run ends with the stream. -/
theorem exists_dumpLoop (haccepts : callback.AcceptsAll) {packets : List ShellPacket}
    (hlength : ∀ q ∈ packets, q.data.length < 2 ^ 32)
    (h : Midway capacity id [] (shellBytes packets) p pieces) (d : Dump) :
    ∃ k d', (∀ n, dumpLoop callback (n + k) p pieces d = some d') ∧
      stdoutOf d'.outputs = stdoutOf d.outputs ++ dataOf kIdStdout packets ∧
      stderrOf d'.outputs = stderrOf d.outputs ++ dataOf kIdStderr packets ∧
      d'.exitCode = exitCodeSeen capacity (p.data.headD 0) packets d.exitCode := by
  induction packets generalizing id p pieces d with
  | nil =>
    refine ⟨1, d, fun n => ?_, (append_nil _).symm, (append_nil _).symm, rfl⟩
    rw [dumpLoop, read_end h]
  | cons q packets ih =>
    rw [shellBytes, flatMap_cons] at h
    obtain ⟨p₁, left₁, hread, hmidway, hhanded⟩ := read_packet h (hlength q mem_cons_self)
    obtain ⟨k, p', left, d₁, hturns, hmidway', hbyte, htook⟩ :=
      dumpLoop_pieces haccepts hread hmidway hhanded d
    obtain ⟨k', d', hturns', hstdout, hstderr, hexit⟩ :=
      ih (fun q hq => hlength q (mem_cons_of_mem _ hq)) hmidway' d₁
    refine ⟨k' + k, d', fun n => ?_, ?_, ?_, ?_⟩
    · rw [← Nat.add_assoc, hturns, hturns']
    · rw [hstdout, htook.stdout, dataOf_cons, append_assoc]
      simp only [intOfChar_inj]
    · rw [hstderr, htook.stderr, dataOf_cons, append_assoc]
      simp only [intOfChar_inj]
    · rw [hexit, htook.exitCode, exitCodeSeen, hbyte]
      simp only [intOfChar_inj]

/-- More turns than needed make no difference. -/
theorem dumpLoop_add {n : ℕ} (h : dumpLoop callback n p pieces d = some d') (k : ℕ) :
    dumpLoop callback (n + k) p pieces d = some d' := by
  induction n generalizing p pieces d with
  | zero => exact absurd h (Option.some_ne_none _).symm
  | succ n ih =>
    rw [Nat.add_right_comm, dumpLoop]
    rw [dumpLoop] at h
    cases hread : p.read pieces with
    | none =>
      rw [hread] at h
      exact h
    | some next =>
      rw [hread] at h
      obtain ⟨p', pieces'⟩ := next
      simp only at h ⊢
      cases hpiece : dumpPiece callback p' d with
      | mk d₁ goesOn =>
        rw [hpiece] at h
        cases goesOn with
        | true => exact ih h
        | false => exact h

end Turns

/-! ### The exit code -/

section ExitCode

variable {capacity code : ℕ} {byte : UInt8} {packets before after : List ShellPacket}
  {e : ShellPacket}

theorem exitCodeSeen_of_forall (h : ∀ q ∈ packets, q.id ≠ kIdExit) :
    exitCodeSeen capacity byte packets code = code := by
  induction packets generalizing byte with
  | nil => rfl
  | cons q packets ih =>
    rw [exitCodeSeen, if_neg (h q mem_cons_self)]
    exact ih fun q hq => h q (mem_cons_of_mem _ hq)

/-- The last exit packet decides. -/
theorem exitCodeSeen_append (he : e.id = kIdExit) (hafter : ∀ q ∈ after, q.id ≠ kIdExit) :
    exitCodeSeen capacity byte (before ++ e :: after) code =
      (lastPieceByte capacity e.data (bufferByte capacity byte before)).toNat := by
  induction before generalizing byte code with
  | nil =>
    rw [nil_append, exitCodeSeen, if_pos he]
    exact exitCodeSeen_of_forall hafter
  | cons q before ih =>
    rw [cons_append, exitCodeSeen]
    exact ih

theorem exitCodeOf_of_forall (h : ∀ q ∈ packets, q.id ≠ kIdExit) : exitCodeOf packets = 255 := by
  have hnone : packets.filter (fun q => q.id = kIdExit ∧ q.data ≠ []) = [] := by
    refine filter_eq_nil_iff.mpr fun q hq => ?_
    simp [h q hq]
  rw [exitCodeOf, hnone]
  rfl

theorem exitCodeOf_append (he : e.id = kIdExit) (hafter : ∀ q ∈ after, q.id ≠ kIdExit) :
    exitCodeOf (before ++ e :: after) =
      if e.data = [] then exitCodeOf before else (e.data.headD 0).toNat := by
  have hnone : after.filter (fun q => q.id = kIdExit ∧ q.data ≠ []) = [] := by
    refine filter_eq_nil_iff.mpr fun q hq => ?_
    simp [hafter q hq]
  rw [exitCodeOf, filter_append, filter_cons, hnone]
  by_cases hdata : e.data = []
  · simp [hdata, exitCodeOf]
  · simp [he, hdata]

/-- An exit packet that is the last one is readable if it gives the right exit code. -/
theorem exitReadable_iff (he : e.id = kIdExit) (hafter : ∀ q ∈ after, q.id ≠ kIdExit) :
    ExitReadable capacity byte before e ↔
      exitCodeSeen capacity byte (before ++ e :: after) code =
        exitCodeOf (before ++ e :: after) := by
  rw [exitCodeSeen_append he hafter, exitCodeOf_append he hafter, ExitReadable]
  by_cases hdata : e.data = []
  · rw [if_pos hdata, if_pos hdata, lastPieceByte, if_pos hdata]
  · rw [if_neg hdata, if_neg hdata, lastPieceByte, lastPieceByte, if_neg hdata, if_neg hdata]

/-- If there is an exit packet, there is a last one. -/
theorem exists_last_exit (h : ∃ q ∈ packets, q.id = kIdExit) :
    ∃ before e after, packets = before ++ e :: after ∧ e.id = kIdExit ∧
      ∀ q ∈ after, q.id ≠ kIdExit := by
  induction packets with
  | nil =>
    obtain ⟨q, hq, -⟩ := h
    exact absurd hq not_mem_nil
  | cons q packets ih =>
    by_cases htail : ∃ q ∈ packets, q.id = kIdExit
    · obtain ⟨before, e, after, rfl, he, hafter⟩ := ih htail
      exact ⟨q :: before, e, after, rfl, he, hafter⟩
    · obtain ⟨q', hq', hid⟩ := h
      rcases mem_cons.mp hq' with rfl | hq'
      · exact ⟨[], q', packets, rfl, hid, fun r hr hexit => htail ⟨r, hr, hexit⟩⟩
      · exact absurd ⟨q', hq', hid⟩ htail

/-- The exit code is the right one exactly if the last exit packet is readable. -/
theorem exitCodeSeen_eq_iff :
    exitCodeSeen capacity byte packets 255 = exitCodeOf packets ↔
      ∀ before e after, packets = before ++ e :: after → e.id = kIdExit →
        (∀ q ∈ after, q.id ≠ kIdExit) → ExitReadable capacity byte before e := by
  constructor
  · rintro h before e after rfl he hafter
    exact (exitReadable_iff he hafter).mpr h
  · intro h
    by_cases hexit : ∃ q ∈ packets, q.id = kIdExit
    · obtain ⟨before, e, after, rfl, he, hafter⟩ := exists_last_exit hexit
      exact (exitReadable_iff he hafter).mp (h before e after rfl he hafter)
    · have hnone : ∀ q ∈ packets, q.id ≠ kIdExit := fun q hq hid => hexit ⟨q, hq, hid⟩
      rw [exitCodeSeen_of_forall hnone, exitCodeOf_of_forall hnone]

end ExitCode

/-! ### The result -/

/-- The first data byte that a new object finds in its buffer. -/
theorem headD_data_make (memory : Bytes) :
    (make memory kShellBufferSize).data.headD 0 = memory.getD kHeaderSize 0 := by
  have hdata : (make memory kShellBufferSize).data = memory.drop kHeaderSize := by
    show (255 :: memory.drop 1).drop kHeaderSize = _
    rw [kHeaderSize, drop_succ_cons, drop_drop]
  rw [hdata, List.headD_eq_head?_getD, List.head?_drop, getD_eq_getElem?_getD]

variable {callback : StreamsCallback} {memory : Bytes} {packets : List ShellPacket}
  {pieces : List Bytes}

/-- **The streams come through**, and the exit code is what has been seen at `data()`. -/
theorem exists_readAndDumpProtocol (haccepts : callback.AcceptsAll)
    (hmemory : memory.length = kShellBufferSize) (hlength : ∀ q ∈ packets, q.data.length < 2 ^ 32)
    (hflow : Flows pieces) (hpieces : pieces.flatten = shellBytes packets) :
    ∃ k d, (∀ n, readAndDumpProtocol callback (n + k) memory pieces = some d) ∧
      stdoutOf d.outputs = dataOf kIdStdout packets ∧
      stderrOf d.outputs = dataOf kIdStderr packets ∧
      d.exitCode = exitCodeSeen dumpCapacity (memory.getD kHeaderSize 0) packets 255 := by
  have hmidway := midway_make hmemory le_rfl (show 1 ≤ dumpCapacity by decide) hflow
  rw [hpieces] at hmidway
  obtain ⟨k, d, hrun, hstdout, hstderr, hexit⟩ := exists_dumpLoop haccepts hlength hmidway {}
  rw [headD_data_make] at hexit
  exact ⟨k, d, hrun, hstdout, hstderr, hexit⟩

/-- **The result of a shell command.** The function returns with everything that came in on stdout
and on stderr handed on, and with the first byte of the last exit packet that has one, exactly if
the last exit packet is readable. -/
theorem readAndDumpProtocol_iff (callback : StreamsCallback) (memory : Bytes)
    (packets : List ShellPacket) (pieces : List Bytes) (haccepts : callback.AcceptsAll)
    (hmemory : memory.length = kShellBufferSize) (hlength : ∀ q ∈ packets, q.data.length < 2 ^ 32)
    (hflow : Flows pieces) (hpieces : pieces.flatten = shellBytes packets) :
    (∃ turns d, readAndDumpProtocol callback turns memory pieces = some d ∧
        stdoutOf d.outputs = dataOf kIdStdout packets ∧
        stderrOf d.outputs = dataOf kIdStderr packets ∧ d.exitCode = exitCodeOf packets) ↔
      ∀ before e after, packets = before ++ e :: after → e.id = kIdExit →
        (∀ q ∈ after, q.id ≠ kIdExit) →
          ExitReadable dumpCapacity (memory.getD kHeaderSize 0) before e := by
  obtain ⟨k, d, hrun, hstdout, hstderr, hexit⟩ :=
    exists_readAndDumpProtocol haccepts hmemory hlength hflow hpieces
  rw [← exitCodeSeen_eq_iff, ← hexit]
  constructor
  · rintro ⟨turns, d', hrun', -, -, hexit'⟩
    -- both runs, with enough turns for either
    have hsame : some d = some d' := (hrun turns).symm.trans (dumpLoop_add hrun' k)
    rwa [Option.some_inj.mp hsame]
  · intro heq
    exact ⟨0 + k, d, hrun 0, hstdout, hstderr, heq⟩

/-- A callback that accepts everything. -/
def acceptingCallback : StreamsCallback where
  onStdout _ _ := true
  onStderr _ _ := true

/-- A command that prints a line and fails with 7. -/
def failingCommand : List ShellPacket := [⟨kIdStdout, ascii "no\n"⟩, ⟨kIdExit, [7]⟩]

/-- A command that prints a line and fails. -/
theorem readAndDumpProtocol_iff_failingCommand :
    ∃ turns d, readAndDumpProtocol acceptingCallback turns (List.replicate kShellBufferSize 0)
        [shellBytes failingCommand] = some d ∧
      stdoutOf d.outputs = ascii "no\n" ∧ stderrOf d.outputs = [] ∧ d.exitCode = 7 := by
  refine (readAndDumpProtocol_iff acceptingCallback _ failingCommand _ (fun _ _ => ⟨rfl, rfl⟩)
    length_replicate (by decide) (forall_mem_singleton.mpr (by decide))
    (by simp)).mpr fun before e after heq hexit _ => ?_
  rcases before with _ | ⟨first, _ | ⟨second, before⟩⟩
  · obtain ⟨rfl, -⟩ := List.cons.inj heq
    exact absurd hexit (by decide)
  · obtain ⟨-, htail⟩ := List.cons.inj heq
    obtain ⟨rfl, -⟩ := List.cons.inj htail
    rw [ExitReadable, if_neg (by decide)]
    rfl
  · simp [failingCommand] at heq

/-- An exit packet without data, behind a line of output. -/
def emptyExit : List ShellPacket := [⟨kIdStdout, ascii "hi\n"⟩, ⟨kIdExit, []⟩]

/-- **The exit code is the first letter of the output.** -/
theorem readAndDumpProtocol_emptyExit :
    ∃ turns d, readAndDumpProtocol acceptingCallback turns (List.replicate kShellBufferSize 0)
        [shellBytes emptyExit] = some d ∧ d.exitCode = 104 ∧ exitCodeOf emptyExit = 255 := by
  obtain ⟨k, d, hrun, -, -, hexit⟩ :=
    @exists_readAndDumpProtocol acceptingCallback (List.replicate kShellBufferSize 0) emptyExit
      [shellBytes emptyExit] (fun _ _ => ⟨rfl, rfl⟩) length_replicate (by decide)
      (forall_mem_singleton.mpr (by decide)) (by simp)
  exact ⟨0 + k, d, hrun 0, hexit, by decide⟩

end AdbBridge
