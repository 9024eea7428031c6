import AdbBridge.FileSync.Paths
import AdbBridge.Types.CLibrary

/-!
# The output of bugreportz

While a device puts a bug report together it writes lines to its standard output: where the report
will be, how far it is, and how it ended. `OnStdout` collects the lines from whatever pieces arrive,
and `ProcessLine` reads them. The two numbers of a `PROGRESS:` line are read with `std::stoi`, which
throws; their quotient is an `int` with everything that this entails; and a percentage of 0 is
always displayed, also after a greater one.

So a device can stop the program with one line. It does not, and what is displayed never decreases,
just when the numbers of all those lines can be read and divided, and no line rounds to 0 after one
that did not (`AdbBridge.bugreport_survives_iff`).
-/

namespace AdbBridge

open List

/-! ### The code -/

/-- What ends the program, or may do anything at all. -/
inductive Crash
  /-- `std::invalid_argument`, which nobody catches. -/
  | invalidArgument
  /-- `std::out_of_range`, which nobody catches. -/
  | outOfRange
  | signedOverflow
  | divisionByZero
  deriving DecidableEq

/-- What an `int` can be. -/
def isInt (n : ℤ) : Bool := -2 ^ 31 ≤ n && n < 2 ^ 31

/-- `std::stoi`. -/
def stoi (s : Bytes) : Except Crash ℤ :=
  let (negative, rest) := takeSign (s.dropWhile isSpace)
  let digits := rest.takeWhile isDigit
  let value : ℤ := if negative then -digitsValue digits else digitsValue digits
  if digits = [] then .error .invalidArgument
  else if isInt value then .ok value
  else .error .outOfRange

/-- `std::string::npos`. -/
def npos : ℕ := 2 ^ 64 - 1

def bugzBeginPrefix : Bytes := ascii "BEGIN:"

def bugzProgressPrefix : Bytes := ascii "PROGRESS:"

def bugzOkPrefix : Bytes := ascii "OK:"

def bugzFailPrefix : Bytes := ascii "FAIL:"

/-- The two substrings of a progress line. The indexes are of type `size_t`, also when there is no
separator. -/
def progressFields (line : Bytes) : Bytes × Bytes :=
  let idx1 := (rfindString line bugzProgressPrefix).getD npos + bugzProgressPrefix.length
  let idx2 := (rfind line 47).getD npos
  ((line.drop idx1).take ((idx2 + 2 ^ 64 - idx1) % 2 ^ 64), line.drop ((idx2 + 1) % 2 ^ 64))

/-- `progress_percentage`. -/
def progressPercentage (line : Bytes) : Except Crash ℤ := do
  let progress ← stoi (progressFields line).1
  let total ← stoi (progressFields line).2
  if ¬isInt (progress * 100) then throw .signedOverflow
  else if total = 0 then throw .divisionByZero
  else if ¬isInt ((progress * 100).tdiv total) then throw .signedOverflow
  else return (progress * 100).tdiv total

/-- A `BugreportStandardStreamsCallback`, without the characters since the last newline, and the
calls of `UpdateProgress`. -/
structure ZippedReport where
  srcFile : Bytes := []
  destDir : Bytes
  destFile : Bytes
  lineMessage : Bytes := []
  invalidLines : List Bytes := []
  showProgress : Bool
  status : ℤ := 0
  lastProgressPercentage : ℤ := 0
  updates : List (Bytes × ℤ) := []
  deriving DecidableEq

namespace ZippedReport

def setLineMessage (r : ZippedReport) (action : Bytes) : ZippedReport :=
  { r with lineMessage := action ++ [32] ++ basename r.destFile }

def setSrcFile (r : ZippedReport) (path : Bytes) : ZippedReport :=
  if r.destDir = [] then { r with srcFile := path }
  else setLineMessage { r with srcFile := path, destFile := basename path } (ascii "generating")

/-- What becomes of a percentage. -/
def showPercentage (r : ZippedReport) (percentage : ℤ) : ZippedReport :=
  if percentage ≠ 0 ∧ percentage ≤ r.lastProgressPercentage then r
  else { r with
    lastProgressPercentage := percentage
    updates := r.updates ++ [(r.lineMessage, percentage)] }

/-- `ProcessLine`. -/
def processLine (r : ZippedReport) (line : Bytes) : Except Crash ZippedReport :=
  if line = [] then .ok r
  else if startsWith line bugzBeginPrefix then
    .ok (r.setSrcFile (cString (line.drop bugzBeginPrefix.length) []))
  else if startsWith line bugzOkPrefix then
    .ok (r.setSrcFile (cString (line.drop bugzOkPrefix.length) []))
  else if startsWith line bugzFailPrefix then .ok { r with status := -1 }
  else if r.showProgress ∧ startsWith line bugzProgressPrefix then
    r.showPercentage <$> progressPercentage line
  else .ok { r with invalidLines := r.invalidLines ++ [line] }

/-- What `Done` does after the last line. The parameter is `DoSyncPull`. -/
def finish (r : ZippedReport) (doSyncPull : Bytes → Bytes → Bytes → Bool) : ℤ × ZippedReport :=
  if r.status ≠ 0 then (r.status, r)
  else if r.srcFile = [] then (-1, r)
  else
    let destination := if r.destDir = [] then r.destFile else r.destDir ++ [47] ++ r.destFile
    let r := r.setLineMessage (ascii "pulling")
    let status := if doSyncPull r.srcFile destination r.lineMessage then 0 else 1
    (status, { r with status })

end ZippedReport

/-- A `BugreportStandardStreamsCallback`. -/
structure BugreportCallback where
  report : ZippedReport
  line : Bytes := []

namespace BugreportCallback

/-- A character of the output. -/
def char (s : BugreportCallback) (c : UInt8) : Except Crash BugreportCallback :=
  if c = 10 then (fun report => ⟨report, []⟩) <$> s.report.processLine s.line
  else .ok { s with line := s.line ++ [c] }

/-- `OnStdout`. -/
def onStdout (s : BugreportCallback) (buffer : Bytes) : Except Crash BugreportCallback :=
  buffer.foldlM char s

/-- `Done`. -/
def done (s : BugreportCallback) (doSyncPull : Bytes → Bytes → Bytes → Bool) :
    Except Crash (ℤ × ZippedReport) :=
  (·.finish doSyncPull) <$> s.report.processLine s.line

end BugreportCallback

/-- A new callback, the output in the pieces in which it arrives, and the end of it. -/
def bugreport (destDir destFile : Bytes) (showProgress : Bool)
    (doSyncPull : Bytes → Bytes → Bytes → Bool) (buffers : List Bytes) :
    Except Crash (ℤ × ZippedReport) := do
  let r : ZippedReport := { destDir, destFile, showProgress }
  let s ← buffers.foldlM BugreportCallback.onStdout ⟨r.setLineMessage (ascii "generating"), []⟩
  s.done doSyncPull

/-! ### What the device says -/

def isProgressLine (line : Bytes) : Bool := startsWith line bugzProgressPrefix

/-- The lines of the output that are about progress. The last one need not have a newline. -/
def progressLines (output : Bytes) : List Bytes := (splitAt 10 output).filter isProgressLine

/-- **The line says** that it is so many hundredths: there are two numbers, the first not too large
to be multiplied by 100, the second not 0, and this is their quotient. -/
def SaysPercentage (line : Bytes) (percentage : ℤ) : Prop :=
  ∃ progress total, stoi (progressFields line).1 = .ok progress ∧
    stoi (progressFields line).2 = .ok total ∧ isInt (progress * 100) ∧ total ≠ 0 ∧
      percentage = (progress * 100).tdiv total

/-- The quotient is an `int` again: the one case in which it would not be is not a multiple of
100. -/
theorem isInt_tdiv {progress : ℤ} (h : isInt (progress * 100)) (total : ℤ) :
    isInt ((progress * 100).tdiv total) := by
  have hle : ((progress * 100).tdiv total).natAbs ≤ (progress * 100).natAbs := by
    rw [Int.natAbs_tdiv]
    exact Nat.div_le_self _ _
  simp only [isInt, Bool.and_eq_true, decide_eq_true_eq] at h ⊢
  omega

/-- The percentage is computed without an error exactly if the line says it. -/
theorem progressPercentage_eq_ok_iff {line : Bytes} {percentage : ℤ} :
    progressPercentage line = .ok percentage ↔ SaysPercentage line percentage := by
  rw [progressPercentage, SaysPercentage]
  rcases stoi (progressFields line).1 with e | progress
  · exact iff_of_false nofun (by rintro ⟨_, _, h, -⟩; exact nomatch h)
  rcases stoi (progressFields line).2 with e | total
  · exact iff_of_false nofun (by rintro ⟨_, _, -, h, -⟩; exact nomatch h)
  simp only [bind, Except.bind, Except.ok.injEq, exists_and_left, exists_eq_left']
  by_cases hint : isInt (progress * 100)
  · rw [if_neg (not_not.mpr hint), if_neg (not_not.mpr (isInt_tdiv hint total))]
    split_ifs with hzero
    · exact iff_of_false nofun fun h => h.2.1 hzero
    · constructor
      · exact fun h => ⟨hint, hzero, (Except.ok.inj h).symm⟩
      · rintro ⟨-, -, rfl⟩
        rfl
  · rw [if_pos hint]
    exact iff_of_false nofun fun h => hint h.1

/-! ### What is displayed -/

/-- The percentages that are displayed, after one that was. -/
def displayed : ℤ → List ℤ → List ℤ
  | _, [] => []
  | last, p :: ps => if p ≠ 0 ∧ p ≤ last then displayed last ps else p :: displayed p ps

variable {last : ℤ}

/-- **What is displayed does not decrease** just when no 0 comes after a positive percentage. -/
theorem displayed_pairwise_iff (hlast : 0 ≤ last) (ps : List ℤ) :
    (last :: displayed last ps).Pairwise (· ≤ ·) ↔
      (last :: ps).Pairwise fun p q => 0 < p → q ≠ 0 := by
  induction ps generalizing last with
  | nil => simp [displayed]
  | cons p ps ih =>
    rw [displayed]
    split_ifs with hskip
    · -- What is ignored is below what is displayed already.
      rw [ih hlast]
      simp only [pairwise_cons, forall_mem_cons]
      constructor
      · rintro ⟨hps, hpairs⟩
        exact ⟨⟨fun _ => hskip.1, hps⟩, fun q hq hpos => hps q hq (hpos.trans_le hskip.2), hpairs⟩
      · rintro ⟨⟨-, hps⟩, -, hpairs⟩
        exact ⟨hps, hpairs⟩
    · have hp : 0 ≤ p := by
        by_contra hneg
        exact hskip ⟨by omega, by omega⟩
      rw [pairwise_cons, ih hp, forall_mem_cons, @List.pairwise_cons _ _ last,
        forall_mem_cons]
      constructor
      · rintro ⟨⟨hle, -⟩, hpairs⟩
        refine ⟨⟨fun hpos => by omega, fun q hq hpos => ?_⟩, hpairs⟩
        exact (pairwise_cons.mp hpairs).1 q hq (hpos.trans_le hle)
      · rintro ⟨⟨hzero, -⟩, hpairs⟩
        have hle : last ≤ p := by
          by_contra hlt
          exact hskip ⟨hzero (by omega), by omega⟩
        refine ⟨⟨hle, fun q hq => hle.trans ?_⟩, hpairs⟩
        exact (pairwise_cons.mp ((ih hp).mpr hpairs)).1 q hq

theorem displayed_nonneg (hlast : 0 ≤ last) (ps : List ℤ) : ∀ q ∈ displayed last ps, 0 ≤ q := by
  induction ps generalizing last with
  | nil => exact fun _ hq => nomatch hq
  | cons p ps ih =>
    rw [displayed]
    split_ifs with hskip
    · exact ih hlast
    · have hp : 0 ≤ p := by
        by_contra hneg
        exact hskip ⟨by omega, by omega⟩
      exact forall_mem_cons.mpr ⟨hp, ih hp⟩

/-! ### Line by line -/

namespace ZippedReport

variable {r r' : ZippedReport} {line : Bytes} {lines : List Bytes}

/-- What the display depends on. -/
def display (r : ZippedReport) : Bool × ℤ × List (Bytes × ℤ) :=
  (r.showProgress, r.lastProgressPercentage, r.updates)

theorem setSrcFile_display (r : ZippedReport) (path : Bytes) :
    (r.setSrcFile path).display = r.display := by
  rw [setSrcFile]
  split_ifs <;> rfl

/-- A line that is about something else changes nothing that is displayed. -/
theorem processLine_of_not (h : ¬(r.showProgress ∧ isProgressLine line)) :
    ∃ r', r.processLine line = .ok r' ∧ r'.display = r.display := by
  rw [isProgressLine] at h
  rw [processLine, if_neg h]
  split_ifs
  · exact ⟨r, rfl, rfl⟩
  · exact ⟨_, rfl, setSrcFile_display r _⟩
  · exact ⟨_, rfl, setSrcFile_display r _⟩
  · exact ⟨_, rfl, rfl⟩
  · exact ⟨_, rfl, rfl⟩

/-- A line about the progress shows its percentage, and nothing else. -/
theorem processLine_progress (hshow : r.showProgress) (hline : isProgressLine line) :
    r.processLine line = r.showPercentage <$> progressPercentage line := by
  obtain ⟨rest, rfl⟩ := List.isPrefixOf_iff_prefix.mp hline
  -- The first characters of the other commands differ.
  have hbegin : startsWith (bugzProgressPrefix ++ rest) bugzBeginPrefix = false := rfl
  have hok : startsWith (bugzProgressPrefix ++ rest) bugzOkPrefix = false := rfl
  have hfail : startsWith (bugzProgressPrefix ++ rest) bugzFailPrefix = false := rfl
  rw [processLine, if_neg nofun, hbegin, if_neg Bool.false_ne_true, hok,
    if_neg Bool.false_ne_true, hfail, if_neg Bool.false_ne_true, if_pos ⟨hshow, hline⟩]

/-- The percentages that are passed to `UpdateProgress`. -/
def percentages (r : ZippedReport) : List ℤ := r.updates.map Prod.snd

theorem percentages_showPercentage (r : ZippedReport) (p : ℤ) (ps : List ℤ) :
    (r.showPercentage p).percentages ++
        displayed (r.showPercentage p).lastProgressPercentage ps =
      r.percentages ++ displayed r.lastProgressPercentage (p :: ps) := by
  rw [showPercentage, displayed]
  split_ifs
  · rfl
  · simp [percentages]

theorem showProgress_showPercentage (r : ZippedReport) (p : ℤ) :
    (r.showPercentage p).showProgress = r.showProgress := by
  rw [showPercentage]
  split_ifs <;> rfl

/-- **The lines, one after the other.** Either all the progress lines say a percentage, or the
program does not get through them. -/
theorem foldlM_processLine_iff (hshow : r.showProgress) (lines : List Bytes) (shown : List ℤ) :
    (∃ r', lines.foldlM processLine r = .ok r' ∧ r'.percentages = shown) ↔
      ∃ ps, List.Forall₂ SaysPercentage (lines.filter isProgressLine) ps ∧
        r.percentages ++ displayed r.lastProgressPercentage ps = shown := by
  induction lines generalizing r with
  | nil => simp [displayed, pure, Except.pure]
  | cons line lines ih =>
    rw [foldlM_cons]
    by_cases hline : isProgressLine line
    · rw [processLine_progress hshow hline, filter_cons_of_pos hline]
      rcases hp : progressPercentage line with e | p
      · refine iff_of_false (fun ⟨_, h, _⟩ => nomatch h) ?_
        rintro ⟨_, hall, -⟩
        obtain ⟨q, _, hq, -⟩ := forall₂_cons_left_iff.mp hall
        rw [← progressPercentage_eq_ok_iff, hp] at hq
        exact nomatch hq
      · have hrest := ih (r := r.showPercentage p) (by rwa [showProgress_showPercentage])
        simp only [percentages_showPercentage] at hrest
        refine hrest.trans ⟨fun ⟨ps, hall, heq⟩ => ?_, ?_⟩
        · exact ⟨p :: ps, .cons (progressPercentage_eq_ok_iff.mp hp) hall, heq⟩
        · rintro ⟨_, hall, heq⟩
          obtain ⟨q, ps, hq, hothers, rfl⟩ := forall₂_cons_left_iff.mp hall
          rw [← progressPercentage_eq_ok_iff, hp] at hq
          obtain rfl := Except.ok.inj hq
          exact ⟨ps, hothers, heq⟩
    · obtain ⟨r₁, hr₁, hdisplay⟩ := processLine_of_not (r := r) fun h => hline h.2
      simp only [display, Prod.mk.injEq] at hdisplay
      rw [hr₁, filter_cons_of_neg hline]
      have hrest := ih (r := r₁) (hdisplay.1 ▸ hshow)
      rw [percentages, hdisplay.2.2, hdisplay.2.1] at hrest
      exact hrest

/-- Without progress nothing is displayed, and every line is read. -/
theorem foldlM_processLine_of_not (hshow : r.showProgress = false) (lines : List Bytes) :
    ∃ r', lines.foldlM processLine r = .ok r' ∧ r'.percentages = r.percentages := by
  induction lines generalizing r with
  | nil => exact ⟨r, rfl, rfl⟩
  | cons line lines ih =>
    obtain ⟨r₁, hr₁, hdisplay⟩ := @processLine_of_not r line (by simp [hshow])
    simp only [display, Prod.mk.injEq] at hdisplay
    obtain ⟨r', hr', hupdates⟩ := ih (hdisplay.1.trans hshow)
    rw [foldlM_cons, hr₁]
    exact ⟨r', hr', by rw [hupdates, percentages, hdisplay.2.2, percentages]⟩

theorem percentages_finish (r : ZippedReport) (doSyncPull : Bytes → Bytes → Bytes → Bool) :
    (r.finish doSyncPull).2.percentages = r.percentages := by
  rw [finish]
  split_ifs <;> rfl

end ZippedReport

/-! ### However the output is cut -/

theorem foldlM_onStdout (s : BugreportCallback) (buffers : List Bytes) :
    buffers.foldlM BugreportCallback.onStdout s =
      buffers.flatten.foldlM BugreportCallback.char s := by
  induction buffers generalizing s with
  | nil => rfl
  | cons buffer buffers ih =>
    rw [foldlM_cons, flatten_cons, foldlM_append]
    exact congrArg _ (funext ih)

/-- The characters are put together to the lines of the output. -/
theorem foldlM_char (doSyncPull : Bytes → Bytes → Bytes → Bool) (output line : Bytes)
    (r : ZippedReport) (hline : 10 ∉ line) :
    (output.foldlM BugreportCallback.char ⟨r, line⟩ >>= (·.done doSyncPull)) =
      (·.finish doSyncPull) <$>
        (splitAt 10 (line ++ output)).foldlM ZippedReport.processLine r := by
  induction output generalizing line r with
  | nil =>
    rw [append_nil, splitAt, splitOn_eq_singleton hline, foldlM_cons]
    simp only [foldlM_nil, bind_pure, pure_bind]
    rfl
  | cons c output ih =>
    rw [foldlM_cons, BugreportCallback.char]
    split_ifs with hc
    · subst hc
      rw [splitAt, splitOn_append_cons_self_of_not_mem hline, foldlM_cons]
      rcases r.processLine line with e | r'
      · rfl
      · exact ih [] r' not_mem_nil
    · have happend : line ++ c :: output = line ++ [c] ++ output := by simp
      rw [happend]
      refine ih (line ++ [c]) r fun hmem => ?_
      rcases mem_append.mp hmem with hmem | hmem
      · exact hline hmem
      · exact hc (mem_singleton.mp hmem).symm

/-- **The output of bugreportz cannot stop the program**, and what is displayed does not decrease,
just when progress is not shown, or every progress line says a percentage and none says 0 after one
has said more. -/
theorem bugreport_survives_iff (destDir destFile : Bytes) (showProgress : Bool)
    (doSyncPull : Bytes → Bytes → Bytes → Bool) (buffers : List Bytes) :
    (∃ status r, bugreport destDir destFile showProgress doSyncPull buffers = .ok (status, r) ∧
        r.percentages.Pairwise (· ≤ ·)) ↔
      showProgress = false ∨
        ∃ ps, List.Forall₂ SaysPercentage (progressLines buffers.flatten) ps ∧
          ps.Pairwise fun p q => 0 < p → q ≠ 0 := by
  rw [bugreport, foldlM_onStdout, foldlM_char _ _ [] _ not_mem_nil, nil_append]
  set r : ZippedReport := ZippedReport.setLineMessage { destDir, destFile, showProgress }
    (ascii "generating")
  have hlines : (∃ status r', (·.finish doSyncPull) <$>
        (splitAt 10 buffers.flatten).foldlM ZippedReport.processLine r = .ok (status, r') ∧
          r'.percentages.Pairwise (· ≤ ·)) ↔
      ∃ shown, (∃ r', (splitAt 10 buffers.flatten).foldlM ZippedReport.processLine r = .ok r' ∧
        r'.percentages = shown) ∧ shown.Pairwise (· ≤ ·) := by
    rcases (splitAt 10 buffers.flatten).foldlM ZippedReport.processLine r with e | r'
    · exact iff_of_false (fun ⟨_, _, h, _⟩ => nomatch h) fun ⟨_, ⟨_, h, _⟩, _⟩ => nomatch h
    · constructor
      · rintro ⟨status, r'', h, hpairs⟩
        obtain rfl : (r'.finish doSyncPull).2 = r'' := congrArg Prod.snd (Except.ok.inj h)
        rw [ZippedReport.percentages_finish] at hpairs
        exact ⟨_, ⟨r', rfl, rfl⟩, hpairs⟩
      · rintro ⟨_, ⟨r'', h, rfl⟩, hpairs⟩
        obtain rfl := Except.ok.inj h
        exact ⟨_, (r'.finish doSyncPull).2, rfl, by rwa [ZippedReport.percentages_finish]⟩
  rw [hlines]
  cases showProgress with
  | false =>
    obtain ⟨r', hr', hshown⟩ := ZippedReport.foldlM_processLine_of_not (r := r) rfl
      (splitAt 10 buffers.flatten)
    exact iff_of_true ⟨_, ⟨r', hr', rfl⟩, hshown ▸ List.Pairwise.nil⟩ (Or.inl rfl)
  | true =>
    simp only [ZippedReport.foldlM_processLine_iff (r := r) rfl]
    rw [or_iff_right (by decide)]
    have hpairs : ∀ ps, (displayed 0 ps).Pairwise (· ≤ ·) ↔
        ps.Pairwise fun p q => 0 < p → q ≠ 0 := by
      intro ps
      have hiff := displayed_pairwise_iff le_rfl ps
      rw [pairwise_cons, pairwise_cons, and_iff_right (displayed_nonneg le_rfl ps)] at hiff
      exact hiff.trans (and_iff_right fun _ _ hpos => absurd hpos (lt_irrefl 0))
    constructor
    · rintro ⟨_, ⟨ps, hall, rfl⟩, hshown⟩
      exact ⟨ps, hall, (hpairs ps).mp hshown⟩
    · rintro ⟨ps, hall, hshown⟩
      exact ⟨_, ⟨ps, hall, rfl⟩, (hpairs ps).mpr hshown⟩

/-- **One line can stop the program**: a word where a number should be, a number that is too large,
one that is too large only when it is multiplied, a total of 0. And a line can go back to 0. -/
theorem bugreport_crashes :
    bugreport [] (ascii "a.zip") true (fun _ _ _ => true) [ascii "PROGRESS:x/1"] =
        .error .invalidArgument ∧
      bugreport [] (ascii "a.zip") true (fun _ _ _ => true) [ascii "PROGRESS:9999999999/1"] =
        .error .outOfRange ∧
      bugreport [] (ascii "a.zip") true (fun _ _ _ => true) [ascii "PROGRESS:99999999/1"] =
        .error .signedOverflow ∧
      bugreport [] (ascii "a.zip") true (fun _ _ _ => true) [ascii "PROGRESS:1/0"] =
        .error .divisionByZero ∧
      (·.2.percentages) <$> bugreport [] (ascii "a.zip") true (fun _ _ _ => true)
        [ascii "PROGRESS:50/100\nPROG", ascii "RESS:0/100\n"] = .ok [50, 0] := by
  decide +kernel

end AdbBridge
