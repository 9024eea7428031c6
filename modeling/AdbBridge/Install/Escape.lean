import AdbBridge.Lib.ShellWords
import AdbBridge.Types.Bytes

/-!
# Arguments for a shell

`escape_arg` puts an argument in single quotes and writes `'\''` for a quote in it. A shell
reads such a text as the one word that went in, whatever is in it, and a list of arguments as
that list (`AdbBridge.words_escapeArg`).
-/

namespace AdbBridge

open List

/-- What is written for a quote. -/
def quoteEscape : Bytes := ascii "'\\''"

/-- The loop of `escape_arg`, from `base` on. Each round but the last uses up a quote, so the
length of the string bounds the rounds. -/
def escapeLoop (s : Bytes) : ℕ → ℕ → Bytes
  | 0, _ => []
  | fuel + 1, base =>
    let piece := (s.drop base).takeWhile (· != 39)
    if base + piece.length < s.length then
      piece ++ quoteEscape ++ escapeLoop s fuel (base + piece.length + 1)
    else piece

/-- `escape_arg`. -/
def escapeArg (s : Bytes) : Bytes := [39] ++ escapeLoop s (s.length + 1) 0 ++ [39]

/-- What the loop comes to, byte by byte. -/
def escaped (s : Bytes) : Bytes := s.flatMap fun b => if b = 39 then quoteEscape else [b]

theorem escaped_append (s s' : Bytes) : escaped (s ++ s') = escaped s ++ escaped s' :=
  flatMap_append

variable {s : Bytes}

theorem escaped_of_notMem (h : 39 ∉ s) : escaped s = s := by
  have hbyte : ∀ b ∈ s, (if b = 39 then quoteEscape else [b]) = [b] := by
    intro b hb
    exact if_neg fun hquote : b = 39 => h (hquote ▸ hb)
  rw [escaped, flatMap_congr hbyte, flatMap_singleton']

/-- The loop escapes what it has not come to yet. -/
theorem escapeLoop_eq (s : Bytes) {fuel base : ℕ} (hfuel : s.length < base + fuel) :
    escapeLoop s fuel base = escaped (s.drop base) := by
  induction fuel generalizing base with
  | zero =>
    rw [escapeLoop, drop_eq_nil_of_le (by omega)]
    rfl
  | succ fuel ih =>
    rw [escapeLoop]
    by_cases hmem : 39 ∈ s.drop base
    · obtain ⟨front, back, hsplit, hfront⟩ := eq_append_cons_of_mem hmem
      have hlen := congrArg List.length hsplit
      rw [length_drop, length_append, length_cons] at hlen
      have hback : s.drop (base + front.length + 1) = back := by
        rw [Nat.add_assoc, ← drop_drop, hsplit, ← drop_drop, drop_left]
        rfl
      rw [hsplit, takeWhile_bne_append_cons hfront, if_pos (by omega), ih (by omega), hback,
        escaped_append, escaped_of_notMem hfront, append_assoc]
      rfl
    · rw [takeWhile_bne_of_notMem hmem, if_neg (by rw [length_drop]; omega),
        escaped_of_notMem hmem]

/-- Inside of the quotes. -/
theorem scan_single_escaped (c s rest : Bytes) (hs : 0 ∉ s) :
    ShellWords.scan .single (some c) (escaped s ++ 39 :: rest) =
      ShellWords.scan .plain (some (c ++ s)) rest := by
  induction s generalizing c with
  | nil =>
    rw [append_nil]
    rfl
  | cons b s ih =>
    obtain ⟨hzero, hs⟩ := not_or.mp (mt mem_cons.mpr hs)
    have hcons : escaped (b :: s) ++ 39 :: rest =
        (if b = 39 then quoteEscape else [b]) ++ (escaped s ++ 39 :: rest) := by
      rw [escaped, flatMap_cons, append_assoc]
      rfl
    have hword : c ++ b :: s = c ++ [b] ++ s := by rw [append_assoc, singleton_append]
    rw [hcons, hword, ← ih (c ++ [b]) hs]
    by_cases hquote : b = 39
    · -- The quote is closed, one is written behind a backslash, and the next one is opened.
      rw [hquote, if_pos rfl]
      rfl
    · have hne : (b == 39) = false := beq_eq_false_iff_ne.mpr hquote
      have hne' : (b == 0) = false := beq_eq_false_iff_ne.mpr (Ne.symm hzero)
      rw [if_neg hquote]
      simp [ShellWords.scan, ShellWords.extend, hne, hne']

/-- **An escaped argument is read as the argument.** -/
theorem reads_escapeArg (hs : 0 ∉ s) : ShellWords.Reads (escapeArg s) s := by
  intro rest
  rw [escapeArg, escapeLoop_eq s (by omega), drop_zero, append_assoc, append_assoc]
  exact scan_single_escaped [] s rest hs

/-- **`escape_arg` is a right inverse of splitting into words.** -/
theorem words_escapeArg (l : List Bytes) (h : ∀ s ∈ l, 0 ∉ s) :
    ShellWords.words (List.intercalate [32] (l.map escapeArg)) = some l := by
  refine ShellWords.words_intercalate ?_
  rw [forall₂_map_left_iff, forall₂_same]
  exact fun s hs => reads_escapeArg (h s hs)

/-- An empty argument, one with a blank, and one of quotes only. -/
theorem words_escapeArg_quotes :
    ShellWords.words (ascii "'' 'a b' ''\\'''\\'''") = some [[], ascii "a b", ascii "''"] := by
  have hwords := words_escapeArg [[], ascii "a b", ascii "''"] (by decide)
  have htext : List.intercalate [32] ([[], ascii "a b", ascii "''"].map escapeArg) =
      ascii "'' 'a b' ''\\'''\\'''" := by decide
  rw [← htext]
  exact hwords

end AdbBridge
