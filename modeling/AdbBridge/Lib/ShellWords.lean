import Mathlib.Data.List.Basic
import Mathlib.Data.List.Count
import Mathlib.Data.List.Forall2
import Mathlib.Tactic.Cases

/-!
# The words of a shell command

What a POSIX shell makes of a command line, as far as the text alone decides it: the fields
of one simple command, with the quotes removed. `ShellWords.words` scans the text once. Quotes
and backslashes are taken off, blanks end a word. There is no result as soon as the text may be
more than that: an operator, a newline, a comment, a parameter or a command to be substituted,
a character of a pattern, a tilde, or a quote that is not closed. A shell leaves a pattern alone
that matches no file, and a `[` that no `]` closes; `words` does not answer for these either.

Two facts are what this is for.

* A word in which every byte is ordinary stands for itself (`ShellWords.Plain.reads`).
* No other word is sure to. Every quote that is used up is missing from the words, so if the words
  have as many quoting characters as the text then nothing in it was quoted, and all the words
  are plain (`ShellWords.plain_of_words`).
-/

namespace ShellWords

open List Option

/-- Where the scan is: outside of quotes, behind a backslash, in single or in double quotes,
or behind a backslash in double quotes. -/
inductive Mode
  | plain
  | escaped
  | single
  | double
  | doubleEscaped

/-- A space or a tab. -/
def isBlank (b : UInt8) : Bool := b == 32 || b == 9

/-- A backslash, a single or a double quote. -/
def isQuote (b : UInt8) : Bool := b == 92 || b == 39 || b == 34

/-- What is not, or not in every place, part of a word by itself: a NUL, a newline, an operator
`; & | < > ( )`, a substitution with a dollar sign or a backquote, a pattern with `* ? [`. -/
def isActive (b : UInt8) : Bool :=
  b == 0 || b == 10 || b == 59 || b == 38 || b == 124 || b == 60 || b == 62 || b == 40 || b == 41 ||
    b == 36 || b == 96 || b == 42 || b == 63 || b == 91

/-- What means something at the beginning of a word only: a comment, or a home directory. -/
def isLeading (b : UInt8) : Bool := b == 35 || b == 126

/-- One more byte of the open word, which begins here if there is none. -/
def extend (cur : Option (List UInt8)) (b : UInt8) : Option (List UInt8) :=
    some (cur.getD [] ++ [b])

/-- The scan, with the open word. -/
def scan : Mode → Option (List UInt8) → List UInt8 → Option (List (List UInt8))
  | .plain, cur, [] => some cur.toList
  | _, _, [] => none
  | .plain, cur, b :: bs =>
    if isBlank b then (scan .plain none bs).map (cur.toList ++ ·)
    else if b == 92 then scan .escaped cur bs
    else if b == 39 then scan .single (some (cur.getD [])) bs
    else if b == 34 then scan .double (some (cur.getD [])) bs
    else if isActive b || (cur.isNone && isLeading b) then none
    else scan .plain (extend cur b) bs
  | .escaped, cur, b :: bs =>
    -- A newline behind a backslash is taken out of the text.
    if b == 10 then scan .plain cur bs
    else if b == 0 then none
    else scan .plain (extend cur b) bs
  | .single, cur, b :: bs =>
    if b == 39 then scan .plain cur bs
    else if b == 0 then none
    else scan .single (extend cur b) bs
  | .double, cur, b :: bs =>
    if b == 34 then scan .plain cur bs
    else if b == 92 then scan .doubleEscaped cur bs
    else if b == 0 || b == 36 || b == 96 then none
    else scan .double (extend cur b) bs
  | .doubleEscaped, cur, b :: bs =>
    if b == 10 then scan .double cur bs
    else if b == 0 then none
    else if b == 36 || b == 96 || b == 34 || b == 92 then scan .double (extend cur b) bs
    -- Any other backslash in double quotes is one.
    else scan .double (extend (extend cur 92) b) bs

/-- The words of a command line. -/
def words (text : List UInt8) : Option (List (List UInt8)) := scan .plain none text

/-- A byte that stands for itself in the middle of a word. -/
def isOrdinary (b : UInt8) : Bool := !isBlank b && !isQuote b && !isActive b

/-- A word that stands for itself. -/
def Plain (w : List UInt8) : Prop :=
  w ≠ [] ∧ (∀ b ∈ w, isOrdinary b = true) ∧ ∀ b ∈ w.head?, isLeading b = false

instance decidablePlain (w : List UInt8) : Decidable (Plain w) :=
  -- Over the elements, not over the 256 bytes.
  letI := List.decidableBAll (fun b => isOrdinary b = true) w
  letI := Option.decidableForallMem (p := fun b => isLeading b = false) (o := w.head?)
  inferInstanceAs (Decidable (_ ∧ _ ∧ _))

/-! ### Words that are read back -/

section Reads

variable {cur : Option (List UInt8)} {b : UInt8} {w rest : List UInt8} {ws : List (List UInt8)}
  {texts : List (List UInt8)}

theorem scan_blank (h : isBlank b = true) (bs : List UInt8) :
    scan .plain cur (b :: bs) = (scan .plain none bs).map (cur.toList ++ ·) := by
  rw [scan, if_pos h]

theorem scan_ordinary (h : isOrdinary b = true) (hlead : cur = none → isLeading b = false)
    (bs : List UInt8) : scan .plain cur (b :: bs) = scan .plain (extend cur b) bs := by
  simp only [isOrdinary, isQuote, Bool.and_eq_true, Bool.not_eq_true', Bool.or_eq_false_iff] at h
  obtain ⟨⟨hblank, ⟨hbackslash, hsingle⟩, hdouble⟩, hactive⟩ := h
  have hleading : (cur.isNone && isLeading b) = false := by
    cases cur with
    | none => exact hlead rfl
    | some c => rfl
  simp [scan, hblank, hbackslash, hsingle, hdouble, hactive, hleading]

theorem scan_ordinary_append {c : List UInt8} (h : ∀ b ∈ w, isOrdinary b = true) :
    scan .plain (some c) (w ++ rest) = scan .plain (some (c ++ w)) rest := by
  induction w generalizing c with
  | nil => rw [nil_append, append_nil]
  | cons b w ih =>
    obtain ⟨hb, hw⟩ := forall_mem_cons.mp h
    have hstep := scan_ordinary hb (fun hnone : some c = none => nomatch hnone) (w ++ rest)
    rw [cons_append, hstep, extend, getD_some, ih hw, append_assoc,
      singleton_append]

/-- A text that is read as one word, whatever follows it. -/
def Reads (text w : List UInt8) : Prop :=
  ∀ rest, scan .plain none (text ++ rest) = scan .plain (some w) rest

/-- **A plain word stands for itself.** -/
theorem Plain.reads (h : Plain w) : Reads w w := by
  obtain ⟨hne, hordinary, hleading⟩ := h
  intro rest
  obtain ⟨b, w, rfl⟩ := exists_cons_of_ne_nil hne
  obtain ⟨hb, hw⟩ := forall_mem_cons.mp hordinary
  rw [cons_append, scan_ordinary hb fun _ => hleading b rfl, extend, getD_none,
    nil_append, scan_ordinary_append hw, singleton_append]

/-- The texts of some words, with a blank behind each of them. -/
def terminated (texts : List (List UInt8)) : List UInt8 := texts.flatMap (· ++ [32])

theorem scan_terminated (h : List.Forall₂ Reads texts ws) (rest : List UInt8) :
    scan .plain none (terminated texts ++ rest) = (scan .plain none rest).map (ws ++ ·) := by
  induction h with
  | nil => simp [terminated]
  | @cons text w texts ws hread _ ih =>
    have htext : terminated (text :: texts) ++ rest =
        text ++ (32 :: (terminated texts ++ rest)) := by simp [terminated]
    rw [htext, hread, scan_blank (by decide), ih, Option.map_map]
    rfl

/-- **Words behind one another.** -/
theorem words_terminated_append {text : List UInt8} (h : List.Forall₂ Reads texts ws)
    (hlast : Reads text w) : words (terminated texts ++ text) = some (ws ++ [w]) := by
  have hend : scan .plain none text = some [w] := by
    rw [← append_nil text, hlast]
    rfl
  rw [words, scan_terminated h, hend]
  rfl

/-- The texts of some words, with a blank between any two of them. -/
theorem words_intercalate (h : List.Forall₂ Reads texts ws) :
    words (List.intercalate [32] texts) = some ws := by
  rw [words]
  induction h with
  | nil => rfl
  | @cons text w texts ws hread htail ih =>
    cases htail with
    | nil =>
      rw [intercalate_singleton, ← append_nil text, hread]
      rfl
    | cons _ _ =>
      rw [intercalate_cons_cons, append_assoc, hread, singleton_append,
        scan_blank (by decide), ih]
      rfl

end Reads

/-! ### Words that are not plain -/

section Count

variable {mode : Mode} {cur : Option (List UInt8)} {text : List UInt8} {ws : List (List UInt8)}
  {b : UInt8}

/-- The number of quoting characters. -/
def quotes (l : List UInt8) : ℕ := l.countP isQuote

/-- A backslash that may still turn out to be one. -/
def Mode.held : Mode → ℕ
  | .doubleEscaped => 1
  | _ => 0

theorem quotes_append (l l' : List UInt8) : quotes (l ++ l') = quotes l + quotes l' :=
  countP_append

theorem quotes_extend (cur : Option (List UInt8)) (b : UInt8) :
    quotes ((extend cur b).getD []) = quotes (cur.getD []) + quotes [b] := quotes_append _ _

theorem quotes_cons (b : UInt8) (l : List UInt8) : quotes (b :: l) = quotes [b] + quotes l :=
  quotes_append [b] l

theorem quotes_toList_append (cur : Option (List UInt8)) (ws : List (List UInt8)) :
    quotes (cur.toList ++ ws).flatten = quotes (cur.getD []) + quotes ws.flatten := by
  cases cur with
  | none => simp [quotes]
  | some c => exact quotes_append c ws.flatten

/-- Quoting characters are only lost. -/
theorem quotes_le (h : scan mode cur text = some ws) :
    quotes ws.flatten ≤ quotes (cur.getD []) + mode.held + quotes text := by
  induction text generalizing mode cur ws with
  | nil =>
    cases mode with
    | plain =>
      obtain rfl := some.inj h
      have hcur := quotes_toList_append cur []
      rw [append_nil] at hcur
      rw [hcur]
      exact Nat.le_refl _
    | escaped => exact nomatch h
    | single => exact nomatch h
    | double => exact nomatch h
    | doubleEscaped => exact nomatch h
  | cons b text ih =>
    rw [quotes_cons b text]
    have hbackslash : quotes [92] = 1 := rfl
    cases mode with
    | plain =>
      rw [scan] at h
      split_ifs at h
      · obtain ⟨ws', hws', rfl⟩ := map_eq_some_iff.mp h
        have hle := ih hws'
        rw [quotes_toList_append]
        simp only [Mode.held, getD_none] at hle ⊢
        have hnil : quotes [] = 0 := rfl
        omega
      all_goals
        have hle := ih h
        simp only [Mode.held, quotes_extend, getD_some] at hle ⊢
        omega
    | escaped =>
      rw [scan] at h
      split_ifs at h
      all_goals
        have hle := ih h
        simp only [Mode.held, quotes_extend] at hle ⊢
        omega
    | single =>
      rw [scan] at h
      split_ifs at h
      all_goals
        have hle := ih h
        simp only [Mode.held, quotes_extend] at hle ⊢
        omega
    | double =>
      rw [scan] at h
      split_ifs at h with hclose hescape
      · have hle := ih h
        simp only [Mode.held] at hle ⊢
        omega
      · have hb : quotes [b] = 1 := by rw [beq_iff_eq.mp hescape, hbackslash]
        have hle := ih h
        simp only [Mode.held] at hle ⊢
        omega
      · have hle := ih h
        simp only [Mode.held, quotes_extend] at hle ⊢
        omega
    | doubleEscaped =>
      rw [scan] at h
      split_ifs at h
      all_goals
        have hle := ih h
        simp only [Mode.held, quotes_extend] at hle ⊢
        omega

/-- The open word is plain so far. -/
def PlainSoFar (cur : Option (List UInt8)) : Prop := ∀ w ∈ cur, Plain w

theorem Plain.concat {w : List UInt8} (h : Plain w) (hb : isOrdinary b = true) :
    Plain (w ++ [b]) := by
  obtain ⟨hne, hordinary, hleading⟩ := h
  refine ⟨by simp, fun c hc => ?_, ?_⟩
  · rcases mem_append.mp hc with hc | hc
    · exact hordinary c hc
    · rwa [mem_singleton.mp hc]
  · rwa [List.head?_append_of_ne_nil _ hne]

theorem PlainSoFar.extend (h : PlainSoFar cur) (hb : isOrdinary b = true)
    (hlead : cur = none → isLeading b = false) : PlainSoFar (extend cur b) := by
  rintro w hw
  obtain rfl := some.inj hw
  cases cur with
  | none =>
    refine ⟨by simp, fun c hc => ?_, fun c hc => ?_⟩
    · rwa [mem_singleton.mp hc]
    · obtain rfl := some.inj hc
      exact hlead rfl
  | some c => exact (h c rfl).concat hb

/-- **If no quoting character is lost, nothing was quoted.** -/
theorem plain_of_scan (h : scan .plain cur text = some ws) (hcur : PlainSoFar cur)
    (hquotes : quotes (cur.getD []) + quotes text ≤ quotes ws.flatten) : ∀ w ∈ ws, Plain w := by
  induction text generalizing cur ws with
  | nil =>
    obtain rfl := some.inj h
    exact fun w hw => hcur w (mem_toList.mp hw)
  | cons b text ih =>
    rw [quotes_cons] at hquotes
    rw [scan] at h
    split_ifs at h with hblank hbackslash hsingle hdouble hactive
    · obtain ⟨ws', hws', rfl⟩ := map_eq_some_iff.mp h
      rw [quotes_toList_append] at hquotes
      intro w hw
      rcases mem_append.mp hw with hw | hw
      · exact hcur w (mem_toList.mp hw)
      · refine ih hws' nofun ?_ w hw
        simp only [getD_none]
        have hnil : quotes [] = 0 := rfl
        omega
    · have hle := quotes_le h
      rw [beq_iff_eq.mp hbackslash] at hquotes
      simp only [Mode.held, show quotes [92] = 1 from rfl] at hle hquotes
      omega
    · have hle := quotes_le h
      rw [beq_iff_eq.mp hsingle] at hquotes
      simp only [Mode.held, show quotes [39] = 1 from rfl, getD_some] at hle hquotes
      omega
    · have hle := quotes_le h
      rw [beq_iff_eq.mp hdouble] at hquotes
      simp only [Mode.held, show quotes [34] = 1 from rfl, getD_some] at hle hquotes
      omega
    · rw [Bool.or_eq_true, not_or, Bool.and_eq_true, not_and] at hactive
      have hordinary : isOrdinary b = true := by
        simp_all [isOrdinary, isQuote]
      refine ih h (hcur.extend hordinary fun hnone => ?_) ?_
      · rw [← Bool.not_eq_true]
        exact hactive.2 (by rw [hnone]; rfl)
      · rw [quotes_extend]
        omega

/-- **No other word stands for itself.** -/
theorem plain_of_words (h : words text = some ws) (hquotes : quotes text ≤ quotes ws.flatten) :
    ∀ w ∈ ws, Plain w :=
  plain_of_scan h nofun (by simpa [quotes] using hquotes)

theorem quotes_blank : quotes [32] = 0 := rfl

theorem quotes_intercalate (texts : List (List UInt8)) :
    quotes (List.intercalate [32] texts) = quotes texts.flatten := by
  induction texts with
  | nil => rfl
  | cons t texts ih =>
    cases texts with
    | nil => simp
    | cons t' texts =>
      rw [intercalate_cons_cons, quotes_append, quotes_append, ih, quotes_blank, Nat.add_zero,
        ← quotes_append]
      rfl

theorem quotes_terminated (texts : List (List UInt8)) :
    quotes (terminated texts) = quotes texts.flatten := by
  induction texts with
  | nil => rfl
  | cons t texts ih =>
    rw [terminated, flatMap_cons, ← terminated, quotes_append, quotes_append, ih, quotes_blank,
      Nat.add_zero, ← quotes_append]
    rfl

/-- A text that has the quoting characters of the words it was put together from is split into
them just when they are plain. -/
theorem words_eq_iff (hquotes : quotes text = quotes ws.flatten)
    (hplain : (∀ w ∈ ws, Plain w) → words text = some ws) :
    words text = some ws ↔ ∀ w ∈ ws, Plain w :=
  ⟨fun h => plain_of_words h (Nat.le_of_eq hquotes), hplain⟩

theorem forall₂_reads (h : ∀ w ∈ ws, Plain w) : List.Forall₂ Reads ws ws :=
  forall₂_same.mpr fun w hw => (h w hw).reads

/-- **Words joined with blanks are split into themselves if they are plain, and only then** does
the text alone say so: a word with a `[` may still be left as it is. -/
theorem words_intercalate_iff (ws : List (List UInt8)) :
    words (List.intercalate [32] ws) = some ws ↔ ∀ w ∈ ws, Plain w :=
  words_eq_iff (quotes_intercalate ws) fun h => words_intercalate (forall₂_reads h)

/-- The same for words with a blank behind each. -/
theorem words_terminated_iff (ws : List (List UInt8)) :
    words (terminated ws) = some ws ↔ ∀ w ∈ ws, Plain w := by
  refine words_eq_iff (quotes_terminated ws) fun h => ?_
  have hscan := scan_terminated (forall₂_reads h) []
  rw [append_nil] at hscan
  rw [words, hscan]
  simp [scan]

end Count

end ShellWords
