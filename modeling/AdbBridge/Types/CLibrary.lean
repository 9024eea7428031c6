import AdbBridge.Requests.Lengths

/-!
# From the C and C++ libraries

`strtol` and `strtoll` in base 10, on a machine where both have 64 bits, read what they can of a
string: blanks, a sign and digits, each of them optional, and give 0 if there are no digits.

`find` and `rfind` of a `std::string_view` are the first and the last place of something. In a
longer string the first place stays where it is or moves forward, the last place stays or moves
back.
-/

namespace AdbBridge

open List Option

/-- `BUFSIZ`, the size of a buffer of the library. -/
def bufsiz : ℕ := 8192

/-! ### Numbers -/

/-- The value of a string of decimal digits. -/
def digitsValue (s : Bytes) : ℕ := s.foldl (fun n c => 10 * n + (c.toNat - 48)) 0

/-- `strtoll` in base 10. What does not fit becomes the nearest value that does. -/
def strtoll (s : Bytes) : ℤ :=
  let (negative, digits) := takeSign (s.dropWhile isSpace)
  let value : ℤ := digitsValue (digits.takeWhile isDigit)
  max (-2 ^ 63) (min (2 ^ 63 - 1) (if negative then -value else value))

variable {n i : ℕ} {b : UInt8}

theorem toNat_of_mem_toDigits {c : Char} (h : c ∈ Nat.toDigits 10 n) :
    48 ≤ c.toNat ∧ c.toNat ≤ 57 := by
  have hdigit := Nat.isDigit_of_mem_toDigits (by decide) le_rfl h
  rwa [Char.isDigit, Bool.and_eq_true, decide_eq_true_eq, decide_eq_true_eq] at hdigit

theorem isDigit_of_mem_decimal (h : b ∈ decimal n) : isDigit b = true := by
  obtain ⟨c, hc, rfl⟩ := List.mem_map.mp h
  obtain ⟨hlow, hhigh⟩ := toNat_of_mem_toDigits (by simpa using hc)
  simp only [isDigit, Bool.and_eq_true, decide_eq_true_eq, UInt8.le_iff_toNat_le,
    UInt8.toNat_ofNat', UInt8.reduceToNat]
  omega

theorem notMem_decimal (hb : isDigit b = false) (n : ℕ) : b ∉ decimal n := fun hmem =>
  absurd (isDigit_of_mem_decimal hmem) (by simp [hb])

theorem decimal_ne_nil (n : ℕ) : decimal n ≠ [] := by simp [decimal, ascii]

/-- A number is the value of its digits. -/
theorem digitsValue_decimal (n : ℕ) : digitsValue (decimal n) = n := by
  have hchars : (toString n).toList = Nat.toDigits 10 n := by simp
  rw [digitsValue, decimal, ascii, foldl_map, hchars]
  calc (Nat.toDigits 10 n).foldl (fun m c => 10 * m + ((UInt8.ofNat c.toNat).toNat - 48)) 0
      = (Nat.toDigits 10 n).foldl (fun m c => 10 * m + (c.toNat - '0'.toNat)) 0 := by
        refine foldl_ext _ _ _ fun m c hc => ?_
        obtain ⟨-, hhigh⟩ := toNat_of_mem_toDigits hc
        rw [UInt8.toNat_ofNat', Nat.mod_eq_of_lt (by omega)]
        rfl
    _ = n := by rw [← Nat.ofDigitChars_eq_foldl, Nat.ofDigitChars_toDigits (by decide) le_rfl]

theorem isSome_unhexDigit (h : isDigit b = true) : (unhexDigit b).isSome := by
  rw [isDigit, Bool.and_eq_true, decide_eq_true_eq, decide_eq_true_eq] at h
  rw [unhexDigit, if_pos h]
  rfl

/-! ### Searching -/

/-- `find` of a string: the first index. -/
def find (s pattern : Bytes) : Option ℕ :=
  match s with
  | [] => if pattern = [] then some 0 else none
  | b :: s => if startsWith (b :: s) pattern then some 0 else (find s pattern).map (· + 1)

/-- `rfind` of a character: the last index. -/
def rfind (s : Bytes) (c : UInt8) : Option ℕ :=
  match s with
  | [] => none
  | b :: s => ((rfind s c).map (· + 1)).orElse fun _ => if b = c then some 0 else none

/-- `rfind` of a string: the last index. -/
def rfindString (s pattern : Bytes) : Option ℕ :=
  match s with
  | [] => if pattern = [] then some 0 else none
  | b :: s => ((rfindString s pattern).map (· + 1)).orElse fun _ =>
      if startsWith (b :: s) pattern then some 0 else none

/-- What is found in a text is not found later in a longer one. -/
theorem find_append_le {s pattern : Bytes} (h : find s pattern = some i) (t : Bytes) :
    ∃ j ≤ i, find (s ++ t) pattern = some j := by
  induction s generalizing i with
  | nil =>
    have hnil : pattern = [] := by
      by_contra hne
      rw [find, if_neg hne] at h
      exact nomatch h
    subst hnil
    refine ⟨0, Nat.zero_le _, ?_⟩
    cases t <;> rfl
  | cons b s ih =>
    rw [find] at h
    rw [cons_append, find]
    split_ifs at h with hstarts
    · have hlonger : startsWith (b :: (s ++ t)) pattern :=
        List.isPrefixOf_iff_prefix.mpr
          ((List.isPrefixOf_iff_prefix.mp hstarts).trans ⟨t, rfl⟩)
      exact ⟨0, Nat.zero_le _, if_pos hlonger⟩
    · obtain ⟨k, hk, rfl⟩ := map_eq_some_iff.mp h
      obtain ⟨j, hj, hfind⟩ := ih hk
      split_ifs
      · exact ⟨0, Nat.zero_le _, rfl⟩
      · exact ⟨j + 1, by omega, by rw [hfind]; rfl⟩

/-- What is found from the end is not found earlier in a longer text. -/
theorem rfind_append_le {s : Bytes} {c : UInt8} (h : rfind s c = some i) (t : Bytes) :
    ∃ j, i ≤ j ∧ rfind (s ++ t) c = some j := by
  induction s generalizing i with
  | nil => exact nomatch h
  | cons b s ih =>
    rw [rfind] at h
    rw [cons_append, rfind]
    cases hs : rfind s c with
    | some k =>
      obtain ⟨j, hj, hfind⟩ := ih hs
      rw [hs] at h
      obtain rfl := some.inj h
      exact ⟨j + 1, Nat.succ_le_succ hj, by rw [hfind]; rfl⟩
    | none =>
      rw [hs, map_none, orElse_none] at h
      split_ifs at h with hbc
      obtain rfl := some.inj h
      cases rfind (s ++ t) c with
      | some j => exact ⟨j + 1, Nat.zero_le _, rfl⟩
      | none => exact ⟨0, le_rfl, if_pos hbc⟩

end AdbBridge
