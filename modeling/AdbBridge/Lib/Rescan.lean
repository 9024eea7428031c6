import Mathlib.Data.List.Basic

/-!
# Looking again at a growing buffer

A stream is read in pieces into one buffer, and after each piece the whole buffer is looked at
again, until there is a verdict. How the stream is cut into pieces is not up to the reader: a
piece is not empty, and not longer than the room there is.

If a buffer with a verdict keeps having one, though perhaps another, when it grows, then what can
come out for some way of cutting is easy to say (`Rescan.exists_rescan_iff`): the verdict on a
beginning of the stream that one piece can reach from a beginning without a verdict.
-/

namespace Rescan

open List

variable {α β : Type*} (verdict : List α → Option β)

/-- The verdict after the first piece that gives one. -/
def rescan (buffer : List α) : List (List α) → Option β
  | [] => none
  | piece :: pieces =>
    match verdict (buffer ++ piece) with
    | some r => some r
    | none => rescan (buffer ++ piece) pieces

/-- The ways of cutting a stream into pieces. -/
structure Pieces (limit : ℕ) (stream : List α) (pieces : List (List α)) : Prop where
  flatten : pieces.flatten = stream
  nonempty : ∀ piece ∈ pieces, piece ≠ []
  le : ∀ piece ∈ pieces, piece.length ≤ limit

/-- There is no verdict on the first `a` elements, and one piece leads from them to the first
`b`. -/
structure Window (limit : ℕ) (stream : List α) (a b : ℕ) : Prop where
  lt : a < b
  le : b ≤ a + limit
  le_length : b ≤ stream.length
  undecided : verdict (stream.take a) = none

/-- A verdict that there is on a beginning of a buffer is followed by one on the buffer. -/
def Persists : Prop := ∀ s t, verdict (s ++ t) = none → verdict s = none

theorem take_append_between (stream : List α) {a b : ℕ} (hab : a ≤ b) :
    stream.take a ++ (stream.take b).drop a = stream.take b := by
  conv_rhs => rw [← take_append_drop a (stream.take b), take_take, Nat.min_eq_left hab]

variable {verdict} {limit : ℕ} {buffer stream s : List α} {pieces : List (List α)}

theorem Persists.take (h : Persists verdict) {a b : ℕ} (hab : a ≤ b)
    (hb : verdict (stream.take b) = none) : verdict (stream.take a) = none := by
  refine h _ ((stream.take b).drop a) ?_
  rwa [take_append_between stream hab]

theorem rescan_append
    (h : rescan verdict buffer pieces = none) (pieces' : List (List α)) :
    rescan verdict buffer (pieces ++ pieces') =
      rescan verdict (buffer ++ pieces.flatten) pieces' := by
  induction pieces generalizing buffer with
  | nil => rw [nil_append, flatten_nil, append_nil]
  | cons piece pieces ih =>
    rw [rescan] at h
    rw [cons_append, rescan, flatten_cons, ← append_assoc]
    cases hpiece : verdict (buffer ++ piece) with
    | some r => simp [hpiece] at h
    | none =>
      rw [hpiece] at h
      exact ih h

/-- No piece gives a verdict if there is none at the end. -/
theorem rescan_of_undecided (h : Persists verdict)
    (hend : verdict (buffer ++ pieces.flatten) = none) : rescan verdict buffer pieces = none := by
  induction pieces generalizing buffer with
  | nil => rfl
  | cons piece pieces ih =>
    rw [flatten_cons, ← append_assoc] at hend
    rw [rescan, h _ _ hend]
    exact ih hend

/-- A verdict is that on the buffer at the end of some piece, and there was none before it. -/
theorem exists_of_rescan {r : β}
    (hbuffer : verdict buffer = none) (h : rescan verdict buffer pieces = some r) :
    ∃ front piece back, pieces = front ++ piece :: back ∧
      verdict (buffer ++ front.flatten) = none ∧
      verdict (buffer ++ front.flatten ++ piece) = some r := by
  induction pieces generalizing buffer with
  | nil => exact nomatch h
  | cons piece pieces ih =>
    rw [rescan] at h
    split at h
    · next r' hr' =>
      refine ⟨[], piece, pieces, rfl, ?_, ?_⟩
      · rwa [flatten_nil, append_nil]
      · rwa [flatten_nil, append_nil, ← h]
    · next hpiece =>
      obtain ⟨front, last, back, rfl, hfront, hlast⟩ := ih hpiece h
      refine ⟨piece :: front, last, back, rfl, ?_, ?_⟩
      · rwa [flatten_cons, ← append_assoc]
      · rwa [flatten_cons, ← append_assoc]

/-- One element at a time. -/
theorem pieces_singletons (hlimit : 0 < limit) (stream : List α) :
    Pieces limit stream (stream.map ([·])) where
  flatten := by simp [flatten_eq_flatMap, flatMap_map]
  nonempty := by simp
  le := by simpa using fun _ _ => Nat.succ_le_of_lt hlimit

theorem Pieces.append {t : List α} {ps qs : List (List α)} (hp : Pieces limit s ps)
    (hq : Pieces limit t qs) : Pieces limit (s ++ t) (ps ++ qs) where
  flatten := by rw [flatten_append, hp.flatten, hq.flatten]
  nonempty := forall_mem_append.mpr ⟨hp.nonempty, hq.nonempty⟩
  le := forall_mem_append.mpr ⟨hp.le, hq.le⟩

theorem pieces_singleton (hs : s ≠ []) (hle : s.length ≤ limit) : Pieces limit s [s] where
  flatten := flatten_singleton
  nonempty := forall_mem_singleton.mpr hs
  le := forall_mem_singleton.mpr hle

/-- **What can come out.** -/
theorem exists_rescan_iff (h : Persists verdict) (hnil : verdict [] = none) {r : β} :
    (∃ pieces, Pieces limit stream pieces ∧ rescan verdict [] pieces = some r) ↔
      ∃ a b, Window verdict limit stream a b ∧ verdict (stream.take b) = some r := by
  constructor
  · rintro ⟨pieces, hpieces, hr⟩
    obtain ⟨front, piece, back, rfl, hfront, hpiece⟩ := exists_of_rescan hnil hr
    obtain ⟨hstream, hne, hle⟩ := hpieces
    have hmem : piece ∈ front ++ piece :: back := by simp
    have hpos := length_pos_iff.mpr (hne piece hmem)
    have hlimit := hle piece hmem
    rw [flatten_append, flatten_cons, ← append_assoc] at hstream
    have hlen := congrArg List.length hstream
    rw [length_append, length_append] at hlen
    rw [nil_append] at hfront hpiece
    refine ⟨front.flatten.length, front.flatten.length + piece.length,
      ⟨by omega, by omega, by omega, ?_⟩, ?_⟩
    · rwa [← hstream, append_assoc, take_left]
    · rwa [← hstream, ← length_append, take_left]
  · rintro ⟨a, b, hwindow, hr⟩
    obtain ⟨hlt, hle, hlength, hundecided⟩ := hwindow
    have hlimit : 0 < limit := by omega
    -- Up to `a` and from `b` on the stream comes one element at a time.
    let middle := (stream.take b).drop a
    have hlen : middle.length = b - a := by
      rw [length_drop, length_take, Nat.min_eq_left hlength]
    have hbegin : stream.take a ++ middle = stream.take b :=
      take_append_between stream (Nat.le_of_lt hlt)
    have hpieces := ((pieces_singletons hlimit (stream.take a)).append
      (pieces_singleton (s := middle) (length_pos_iff.mp (by omega)) (by omega))).append
      (pieces_singletons hlimit (stream.drop b))
    rw [hbegin, take_append_drop] at hpieces
    refine ⟨_, hpieces, ?_⟩
    have hflat := (pieces_singletons hlimit (stream.take a)).flatten
    have hsilent : rescan verdict [] ((stream.take a).map ([·])) = none := by
      refine rescan_of_undecided h ?_
      rwa [hflat]
    rw [append_assoc, rescan_append hsilent, hflat, nil_append, singleton_append,
      rescan, hbegin, hr]

/-- There is no verdict at the end if no piece gave one. -/
theorem undecided_of_rescan (hbuffer : verdict buffer = none)
    (h : rescan verdict buffer pieces = none) : verdict (buffer ++ pieces.flatten) = none := by
  induction pieces generalizing buffer with
  | nil => rwa [flatten_nil, append_nil]
  | cons piece pieces ih =>
    rw [rescan] at h
    rw [flatten_cons, ← append_assoc]
    cases hpiece : verdict (buffer ++ piece) with
    | some r => simp [hpiece] at h
    | none =>
      rw [hpiece] at h
      exact ih hpiece h

/-- Nothing comes out if there is no verdict on the stream, and only then. -/
theorem rescan_eq_none_iff (h : Persists verdict) (hnil : verdict [] = none) (hpieces :
    Pieces limit stream pieces) :
    rescan verdict [] pieces = none ↔ verdict stream = none := by
  constructor
  · intro hnone
    have hend := undecided_of_rescan hnil hnone
    rwa [nil_append, hpieces.flatten] at hend
  · intro hnone
    refine rescan_of_undecided h ?_
    rwa [hpieces.flatten]

end Rescan
