import AdbBridge.Incremental.Blocks
import AdbBridge.Lib.Slices

/-!
# The search for the central directory

A zip file ends with a record that tells where its central directory is, and the record ends with a
comment of at most 65535 bytes. `CentralDirOffset` tries the possible lengths of the comment, from 0
on. The length it tries is an `int16_t`, and so is the length it finds in the file. So the longest
comment it can find has 32767 bytes; after that it tries the negative lengths, which are places
behind the last one a record could be at, and then everything from the beginning.

Of the negative lengths only one can be found: for `-1`, the place of the length of the comment is
not in the file as a whole, and what cannot be read counts as `-1`. It is the signature 21 bytes
before the end, `AdbBridge.Incremental.Trailing`. If there is none either, the search does not end
in a file of more than 32767 bytes (`AdbBridge.Incremental.centralDirOffset_iff`).
-/

namespace AdbBridge.Incremental

open Option

/-! ### The code -/

/-- An `adb_pread` that gives all the bytes it is asked for. -/
def preadExactly (file : Bytes) (offset : ℤ) (n : ℕ) : Option Bytes :=
  if 0 ≤ offset ∧ offset + n ≤ file.length then some (sliceOf file offset.toNat n) else none

/-- `valueAt`, of a signed integer of `n` bytes: what cannot be read is all ones. -/
def valueAt (n : ℕ) (file : Bytes) (offset : ℤ) : ℤ :=
  match preadExactly file offset n with
  | some bytes => Int.bmod (leNat bytes) (256 ^ n)
  | none => -1

def kZipEocdRecMinSize : ℕ := 22

def kZipEocdRecSig : ℤ := 0x06054b50

def kZipEocdCentralDirSizeFieldOffset : ℕ := 12

def kZipEocdCommentLengthFieldOffset : ℕ := 20

/-- `maxEocdOffset`. -/
def maxEocdOffset (file : Bytes) : ℤ := file.length - kZipEocdRecMinSize

/-- Whether the search ends at a record, for this length of the comment. -/
def Matches (file : Bytes) (commentLen : ℤ) : Prop :=
  valueAt 4 file (maxEocdOffset file - commentLen) = kZipEocdRecSig ∧
    valueAt 2 file (maxEocdOffset file - commentLen + kZipEocdCommentLengthFieldOffset) =
      commentLen

instance decidableMatches (file : Bytes) (commentLen : ℤ) : Decidable (Matches file commentLen) :=
  inferInstanceAs (Decidable (_ ∧ _))

/-- The loop, with at most so many turns: `eocdOffset` where it ends. -/
def eocdLoop (file : Bytes) : ℕ → ℤ → Option ℤ
  | 0, _ => none
  | turns + 1, commentLen =>
    if commentLen < file.length then
      if Matches file commentLen then some (maxEocdOffset file - commentLen)
      else eocdLoop file turns (toInt16 (commentLen + 1))
    else some (-1)

/-- `CentralDirOffset`, with at most so many turns of its loop. -/
def centralDirOffset (turns : ℕ) (file : Bytes) : Option ℤ :=
  (eocdLoop file turns 0).map fun eocdOffset =>
    if eocdOffset < 0 then -1
    else eocdOffset - valueAt 4 file (eocdOffset + kZipEocdCentralDirSizeFieldOffset)

/-! ### What is to be found -/

/-- The signature of a record, as it is in the file. -/
def eocdSignature : Bytes := [0x50, 0x4b, 0x05, 0x06]

/-- **There is a record with a comment of `n` bytes**, up to the end of the file. -/
def IsRecord (file : Bytes) (n : ℕ) : Prop :=
  n + kZipEocdRecMinSize ≤ file.length ∧
    sliceOf file (file.length - kZipEocdRecMinSize - n) 4 = eocdSignature ∧
      leNat (sliceOf file (file.length - kZipEocdRecMinSize - n + kZipEocdCommentLengthFieldOffset)
        2) = n

instance decidableIsRecord (file : Bytes) (n : ℕ) : Decidable (IsRecord file n) :=
  inferInstanceAs (Decidable (_ ∧ _ ∧ _))

/-- The size of the central directory, in the record at this place. -/
def centralDirSize (file : Bytes) (place : ℕ) : ℕ :=
  leNat (sliceOf file (place + kZipEocdCentralDirSizeFieldOffset) 4)

/-- The record with the shortest comment. -/
def LeastRecord (file : Bytes) (n : ℕ) : Prop :=
  IsRecord file n ∧ ∀ m < n, ¬IsRecord file m

/-- **The search ends, and finds the record with the shortest comment.** -/
def SearchComplete (file : Bytes) : Prop :=
  (∃ turns offset, centralDirOffset turns file = some offset) ∧
    ∀ n, LeastRecord file n →
      centralDirSize file (file.length - kZipEocdRecMinSize - n) < 2 ^ 31 →
        ∃ turns, centralDirOffset turns file =
          some (file.length - kZipEocdRecMinSize - n -
            centralDirSize file (file.length - kZipEocdRecMinSize - n) : ℤ)

/-- A signature right behind the last place a record could be at. -/
def Trailing (file : Bytes) : Prop :=
  kZipEocdRecMinSize ≤ file.length + 1 ∧
    sliceOf file (file.length + 1 - kZipEocdRecMinSize) 4 = eocdSignature

/-- What is returned for a trailing signature: the size in it is signed. -/
def trailingOffset (file : Bytes) : ℤ :=
  file.length + 1 - kZipEocdRecMinSize - Int.bmod
    (centralDirSize file (file.length + 1 - kZipEocdRecMinSize)) (256 ^ 4)

/-! ### Values in the file -/

section Values

variable {file : Bytes} {offset : ℤ} {n : ℕ} {place : ℕ}

theorem valueAt_of_inside (h : place + n ≤ file.length) :
    valueAt n file place = Int.bmod (leNat (sliceOf file place n)) (256 ^ n) := by
  rw [valueAt, preadExactly, if_pos ⟨by omega, by omega⟩, Int.toNat_natCast]

theorem valueAt_of_outside (h : offset < 0 ∨ file.length < offset + n) :
    valueAt n file offset = -1 := by
  rw [valueAt, preadExactly, if_neg (by omega)]

/-- A value that is not negative is the number in the file. -/
theorem bmod_eq_natCast_iff {x k m v : ℕ} (hk : k = 2 * m) (hx : x < k) (hv : v < m) :
    Int.bmod x k = v ↔ x = v := by
  have hmod : (x : ℤ) % k = x := Int.emod_eq_of_lt (by omega) (by omega)
  rw [Int.bmod, hmod]
  split_ifs with hlt <;> omega

theorem leNat_sliceOf_lt (place : ℕ) (h : place + n ≤ file.length) :
    leNat (sliceOf file place n) < 256 ^ n := by
  have hlt := leNat_lt (sliceOf file place n)
  rwa [length_sliceOf h] at hlt

theorem valueAt_eq_signature_iff (h : place + 4 ≤ file.length) :
    valueAt 4 file place = kZipEocdRecSig ↔ sliceOf file place 4 = eocdSignature := by
  have hlt := leNat_sliceOf_lt place h
  rw [valueAt_of_inside h]
  have hsig : kZipEocdRecSig = ((leNat eocdSignature : ℕ) : ℤ) := rfl
  rw [hsig]
  have hsmall : leNat eocdSignature < 2 ^ 31 := by decide
  rw [bmod_eq_natCast_iff (by norm_num) hlt hsmall]
  exact leNat_inj ((length_sliceOf h).trans rfl)

end Values

/-! ### Where the search ends -/

section Search

variable {file : Bytes} {commentLen : ℤ} {n turns : ℕ}

/-- A length that is not negative is found where the record is. -/
theorem matches_natCast (hn : n < 2 ^ 15) : Matches file n ↔ IsRecord file n := by
  rw [Matches, IsRecord, maxEocdOffset]
  by_cases hfits : n + kZipEocdRecMinSize ≤ file.length
  · have hsize : kZipEocdRecMinSize = 22 := rfl
    have hfield : kZipEocdCommentLengthFieldOffset = 20 := rfl
    have hplace : (file.length - kZipEocdRecMinSize - n : ℤ) =
        (file.length - kZipEocdRecMinSize - n : ℕ) := by omega
    have hlength : file.length - kZipEocdRecMinSize - n + kZipEocdCommentLengthFieldOffset + 2 ≤
        file.length := by omega
    rw [hplace, valueAt_eq_signature_iff (by omega), ← Nat.cast_add, valueAt_of_inside hlength,
      bmod_eq_natCast_iff (by norm_num) (leNat_sliceOf_lt _ hlength) hn]
    exact (and_iff_right hfits).symm
  · have hoffset : (file.length - kZipEocdRecMinSize - n : ℤ) < 0 := by omega
    rw [valueAt_of_outside (Or.inl hoffset)]
    exact iff_of_false (fun h => absurd h.1 (by decide)) fun h => hfits h.1

/-- **A negative length is found only at a trailing signature.** -/
theorem matches_of_neg (hneg : commentLen < 0) :
    Matches file commentLen ↔ commentLen = -1 ∧ Trailing file := by
  have hsize : kZipEocdRecMinSize = 22 := rfl
  have hfield : kZipEocdCommentLengthFieldOffset = 20 := rfl
  have hbeyond :
      valueAt 2 file (maxEocdOffset file - commentLen + kZipEocdCommentLengthFieldOffset) =
      -1 := by
    refine valueAt_of_outside (Or.inr ?_)
    rw [maxEocdOffset]
    omega
  rw [Matches, hbeyond, and_comm, eq_comm]
  refine and_congr_right ?_
  rintro rfl
  rw [maxEocdOffset, Trailing]
  by_cases hfits : kZipEocdRecMinSize ≤ file.length + 1
  · have hplace : (file.length - kZipEocdRecMinSize - -1 : ℤ) =
        (file.length + 1 - kZipEocdRecMinSize : ℕ) := by omega
    rw [hplace, valueAt_eq_signature_iff (by omega)]
    exact (and_iff_right hfits).symm
  · have hoffset : (file.length - kZipEocdRecMinSize - -1 : ℤ) < 0 := by omega
    rw [valueAt_of_outside (Or.inl hoffset)]
    exact iff_of_false (by decide) fun h => hfits h.1

theorem toInt16_of_lt {i : ℤ} (hlower : -2 ^ 15 ≤ i) (hupper : i < 2 ^ 15) : toInt16 i = i := by
  simp only [toInt16, Int.bmod]
  omega

theorem toInt16_top : toInt16 (2 ^ 15) = -2 ^ 15 := by
  simp only [toInt16, Int.bmod]
  omega

theorem eocdLoop_succ (hlt : commentLen < file.length) (hmiss : ¬Matches file commentLen) :
    eocdLoop file (turns + 1) commentLen = eocdLoop file turns (toInt16 (commentLen + 1)) := by
  rw [eocdLoop, if_pos hlt, if_neg hmiss]

theorem eocdLoop_match (hlt : commentLen < file.length) (hmatch : Matches file commentLen) :
    eocdLoop file (turns + 1) commentLen = some (maxEocdOffset file - commentLen) := by
  rw [eocdLoop, if_pos hlt, if_pos hmatch]

/-- **Lengths that are not found are passed over**, up to where the counter wraps. -/
theorem eocdLoop_add (k : ℕ) (hlower : -2 ^ 15 ≤ commentLen) (hupper : commentLen + k < 2 ^ 15)
    (hsize : commentLen + k ≤ file.length) (hmiss : ∀ i : ℕ, i < k →
      ¬Matches file (commentLen + i)) :
    eocdLoop file (turns + k) commentLen = eocdLoop file turns (commentLen + k) := by
  induction k generalizing commentLen with
  | zero => rw [Nat.add_zero, Nat.cast_zero, add_zero]
  | succ k ih =>
    rw [Nat.cast_succ] at hupper hsize ⊢
    have hfirst := hmiss 0 k.succ_pos
    rw [Nat.cast_zero, add_zero] at hfirst
    rw [← Nat.add_assoc, eocdLoop_succ (by omega) hfirst, toInt16_of_lt (by omega) (by omega),
      ih (by omega) (by omega) (by omega), add_assoc, add_comm (1 : ℤ)]
    intro i hi
    have hnext := hmiss (i + 1) (Nat.succ_lt_succ hi)
    rwa [Nat.cast_succ, add_comm (i : ℤ), ← add_assoc] at hnext

/-- **Without any match, a file that is large enough is searched for ever.** -/
theorem eocdLoop_eq_none (hlarge : 2 ^ 15 ≤ file.length)
    (hmiss : ∀ i : ℤ, -2 ^ 15 ≤ i → i < 2 ^ 15 → ¬Matches file i) (turns : ℕ)
    (hlower : -2 ^ 15 ≤ commentLen) (hupper : commentLen < 2 ^ 15) :
    eocdLoop file turns commentLen = none := by
  induction turns generalizing commentLen with
  | zero => rfl
  | succ turns ih =>
    rw [eocdLoop_succ (by omega) (hmiss commentLen hlower hupper)]
    rcases eq_or_lt_of_le (Int.add_one_le_of_lt hupper) with htop | hbelow
    · rw [htop, toInt16_top]
      exact ih le_rfl (by norm_num)
    · rw [toInt16_of_lt (by omega) hbelow]
      exact ih (by omega) hbelow

/-- The record with the shortest comment is found, if the comment is not too long. -/
theorem eocdLoop_of_least (hn : n < 2 ^ 15) (h : LeastRecord file n) :
    eocdLoop file (1 + n) 0 = some (maxEocdOffset file - n) := by
  have hfits := h.1.1
  have hsize : kZipEocdRecMinSize = 22 := rfl
  have hmiss : ∀ i : ℕ, i < n → ¬Matches file (0 + i) := by
    intro i hi
    rw [zero_add, matches_natCast (by omega)]
    exact h.2 i hi
  rw [eocdLoop_add n (by omega) (by omega) (by omega) hmiss, zero_add]
  exact @eocdLoop_match _ _ 0 (by omega) ((matches_natCast hn).mpr h.1)

/-- A small file without a record is searched to its end. -/
theorem eocdLoop_of_small (hsmall : file.length < 2 ^ 15) (hnone : ∀ n, ¬IsRecord file n) :
    eocdLoop file (1 + file.length) 0 = some (-1) := by
  have hmiss : ∀ i : ℕ, i < file.length → ¬Matches file (0 + i) := by
    intro i hi
    rw [zero_add, matches_natCast (by omega)]
    exact hnone i
  rw [eocdLoop_add file.length (by omega) (by omega) (by omega) hmiss, zero_add, eocdLoop,
    if_neg (lt_irrefl _)]

/-- A large file in which no record is found from the beginning: the counter wraps, and a trailing
signature is found. -/
theorem eocdLoop_of_trailing (hlarge : 2 ^ 15 ≤ file.length)
    (hnone : ∀ n < 2 ^ 15, ¬IsRecord file n) (h : Trailing file) :
    eocdLoop file (1 + (2 ^ 15 - 1) + 1 + (2 ^ 15 - 1)) 0 = some (maxEocdOffset file + 1) := by
  have hup : ∀ i : ℕ, i < 2 ^ 15 - 1 → ¬Matches file (0 + i) := by
    intro i hi
    rw [zero_add, matches_natCast (by omega)]
    exact hnone i (by omega)
  have htop : ¬Matches file (2 ^ 15 - 1 : ℕ) := by
    rw [matches_natCast (by norm_num)]
    exact hnone _ (by norm_num)
  have hdown : ∀ i : ℕ, i < 2 ^ 15 - 1 → ¬Matches file (-2 ^ 15 + i) := by
    intro i hi
    rw [matches_of_neg (by omega)]
    exact fun hmatch => absurd hmatch.1 (by omega)
  rw [eocdLoop_add (2 ^ 15 - 1) (by norm_num) (by norm_num) (by omega) hup, zero_add,
    eocdLoop_succ (by omega) htop]
  have hwrap : toInt16 (((2 ^ 15 - 1 : ℕ) : ℤ) + 1) = -2 ^ 15 := toInt16_top
  rw [hwrap, eocdLoop_add (2 ^ 15 - 1) le_rfl (by norm_num) (by omega) hdown]
  have hlast : (-2 ^ 15 + (2 ^ 15 - 1 : ℕ) : ℤ) = -1 := by norm_num
  rw [hlast]
  exact @eocdLoop_match _ _ 0 (by omega) ((matches_of_neg (by norm_num)).mpr ⟨rfl, h⟩)

/-- More turns than needed make no difference. -/
theorem eocdLoop_more {offset : ℤ} (h : eocdLoop file turns commentLen = some offset) (k : ℕ) :
    eocdLoop file (turns + k) commentLen = some offset := by
  induction turns generalizing commentLen with
  | zero => exact absurd h (some_ne_none _).symm
  | succ turns ih =>
    rw [Nat.add_right_comm]
    rw [eocdLoop] at h ⊢
    split_ifs at h ⊢ with hlt hmatch
    · exact h
    · exact ih h
    · exact h

/-- What is returned does not depend on how many turns are allowed. -/
theorem centralDirOffset_unique {turns' : ℕ} {offset offset' : ℤ}
    (h : centralDirOffset turns file = some offset)
    (h' : centralDirOffset turns' file = some offset') : offset = offset' := by
  obtain ⟨eocd, hloop, rfl⟩ := map_eq_some_iff.mp h
  obtain ⟨eocd', hloop', rfl⟩ := map_eq_some_iff.mp h'
  have hsame : some eocd = some eocd' := by
    rw [← eocdLoop_more hloop turns', ← eocdLoop_more hloop' turns, Nat.add_comm]
  rw [some_inj.mp hsame]

end Search

/-! ### What is returned -/

section Returned

variable {file : Bytes} {n : ℕ}

theorem centralDirOffset_of_loop {turns place : ℕ} (h : eocdLoop file turns 0 = some (place : ℤ))
    (hfits : place + kZipEocdCentralDirSizeFieldOffset + 4 ≤ file.length) :
    centralDirOffset turns file =
      some (place - Int.bmod (centralDirSize file place) (256 ^ 4)) := by
  rw [centralDirOffset, h, map_some, if_neg (by omega), ← Nat.cast_add,
    valueAt_of_inside hfits]
  rfl

theorem LeastRecord.unique {m : ℕ} (h : LeastRecord file n) (h' : LeastRecord file m) : n = m := by
  rcases lt_trichotomy n m with hlt | heq | hgt
  · exact absurd h.1 (h'.2 n hlt)
  · exact heq
  · exact absurd h'.1 (h.2 m hgt)

/-- A record with a comment that is not too long is found. -/
theorem searchComplete_of_least (hn : n < 2 ^ 15) (h : LeastRecord file n) :
    SearchComplete file := by
  have hfits := h.1.1
  have hsize : kZipEocdRecMinSize = 22 := rfl
  have hfield : kZipEocdCentralDirSizeFieldOffset = 12 := rfl
  have hplace : maxEocdOffset file - n = (file.length - kZipEocdRecMinSize - n : ℕ) := by
    rw [maxEocdOffset]
    omega
  have hloop := eocdLoop_of_least hn h
  rw [hplace] at hloop
  have hreturn := centralDirOffset_of_loop hloop (by omega)
  refine ⟨⟨_, _, hreturn⟩, fun m hm hsmall => ⟨1 + n, ?_⟩⟩
  obtain rfl := h.unique hm
  have hvalue : Int.bmod (centralDirSize file (file.length - kZipEocdRecMinSize - n)) (256 ^ 4) =
      centralDirSize file (file.length - kZipEocdRecMinSize - n) :=
    (bmod_eq_natCast_iff (m := 2 ^ 31) (by norm_num) (by omega) hsmall).mpr rfl
  rw [hreturn, hvalue, ← hplace]
  rfl

/-- A small file without a record is searched to its end, and there is nothing to be found. -/
theorem searchComplete_of_small (hsmall : file.length < 2 ^ 15) (hnone : ∀ n, ¬IsRecord file n) :
    SearchComplete file := by
  refine ⟨⟨1 + file.length, -1, ?_⟩, fun n h => absurd h.1 (hnone n)⟩
  rw [centralDirOffset, eocdLoop_of_small hsmall hnone, map_some, if_pos (by decide)]

/-- What comes of a trailing signature. -/
theorem centralDirOffset_of_trailing (hlarge : 2 ^ 15 ≤ file.length)
    (hnone : ∀ n < 2 ^ 15, ¬IsRecord file n) (h : Trailing file) :
    centralDirOffset (1 + (2 ^ 15 - 1) + 1 + (2 ^ 15 - 1)) file = some (trailingOffset file) := by
  have hsize : kZipEocdRecMinSize = 22 := rfl
  have hfield : kZipEocdCentralDirSizeFieldOffset = 12 := rfl
  have hplace : maxEocdOffset file + 1 = (file.length + 1 - kZipEocdRecMinSize : ℕ) := by
    rw [maxEocdOffset]
    omega
  have hloop := eocdLoop_of_trailing hlarge hnone h
  rw [hplace] at hloop
  have hcast : (file.length + 1 - kZipEocdRecMinSize : ℤ) =
      (file.length + 1 - kZipEocdRecMinSize : ℕ) := by omega
  rw [centralDirOffset_of_loop hloop (by omega), trailingOffset, hcast]

end Returned

/-- **The search ends and is complete exactly if** the file has less than 32768 bytes, or there is
a record whose comment has less than 32768 bytes, or what comes of a trailing signature happens to
be right. -/
theorem centralDirOffset_iff (file : Bytes) :
    SearchComplete file ↔ file.length < 2 ^ 15 ∨ (∃ n < 2 ^ 15, IsRecord file n) ∨
      Trailing file ∧ ∀ n, LeastRecord file n →
        centralDirSize file (file.length - kZipEocdRecMinSize - n) < 2 ^ 31 →
          trailingOffset file = file.length - kZipEocdRecMinSize - n -
            centralDirSize file (file.length - kZipEocdRecMinSize - n) := by
  by_cases hshort : ∃ n < 2 ^ 15, IsRecord file n
  · refine iff_of_true ?_ (Or.inr (Or.inl hshort))
    have hfirst : ∃ n, IsRecord file n := hshort.imp fun n hn => hn.2
    obtain ⟨n, hn, hrecord⟩ := hshort
    have hle := Nat.find_min' hfirst hrecord
    exact searchComplete_of_least (hle.trans_lt hn)
      ⟨Nat.find_spec hfirst, fun m hm => Nat.find_min hfirst hm⟩
  have hnone : ∀ n < 2 ^ 15, ¬IsRecord file n := fun n hn hrecord => hshort ⟨n, hn, hrecord⟩
  by_cases hsmall : file.length < 2 ^ 15
  · refine iff_of_true (searchComplete_of_small hsmall fun n hrecord => ?_) (Or.inl hsmall)
    have hfits := hrecord.1
    exact hnone n (by omega) hrecord
  rw [or_iff_right hsmall, or_iff_right hshort]
  have hlarge := not_lt.mp hsmall
  by_cases htrailing : Trailing file
  · have hreturn := centralDirOffset_of_trailing hlarge hnone htrailing
    rw [and_iff_right htrailing]
    constructor
    · intro h n hleast hsize
      obtain ⟨turns, hturns⟩ := h.2 n hleast hsize
      exact centralDirOffset_unique hreturn hturns
    · intro h
      refine ⟨⟨_, _, hreturn⟩, fun n hleast hsize => ?_⟩
      rw [← h n hleast hsize]
      exact ⟨_, hreturn⟩
  · -- nothing matches, for any value of the counter
    refine iff_of_false ?_ fun h => htrailing h.1
    rintro ⟨⟨turns, offset, hturns⟩, -⟩
    have hloop : eocdLoop file turns 0 = none := by
      refine eocdLoop_eq_none hlarge (fun i hlower hupper hmatch => ?_) turns (by norm_num)
        (by norm_num)
      rcases lt_or_ge i 0 with hneg | hpos
      · exact htrailing ((matches_of_neg hneg).mp hmatch).2
      · obtain ⟨n, rfl⟩ := Int.eq_ofNat_of_zero_le hpos
        exact hnone n (by omega) ((matches_natCast (by omega)).mp hmatch)
    rw [centralDirOffset, hloop] at hturns
    exact absurd hturns (some_ne_none _).symm

/-- A file of zeros. -/
def zeros (size : ℕ) : Bytes := List.replicate size 0

theorem sliceOf_zeros_ne (size place : ℕ) : sliceOf (zeros size) place 4 ≠ eocdSignature := by
  intro h
  have hmem : (0x50 : UInt8) ∈ sliceOf (zeros size) place 4 := by
    rw [h]
    decide
  have hzero := List.mem_of_mem_drop (List.mem_of_mem_take hmem)
  exact absurd (List.eq_of_mem_replicate hzero) (by decide)

/-- **The search in 32768 zeros does not end.** -/
theorem not_searchComplete_zeros :
    ¬SearchComplete (zeros 32768) ∧ ∀ turns, centralDirOffset turns (zeros 32768) = none := by
  have hlarge : 2 ^ 15 ≤ (zeros 32768).length := by
    rw [zeros, List.length_replicate]
    norm_num
  have hmiss : ∀ i : ℤ, -2 ^ 15 ≤ i → i < 2 ^ 15 → ¬Matches (zeros 32768) i := by
    intro i hlower hupper hmatch
    rcases lt_or_ge i 0 with hneg | hpos
    · exact sliceOf_zeros_ne _ _ ((matches_of_neg hneg).mp hmatch).2.2
    · obtain ⟨n, rfl⟩ := Int.eq_ofNat_of_zero_le hpos
      exact sliceOf_zeros_ne _ _ ((matches_natCast (by omega)).mp hmatch).2.1
  have hnone : ∀ turns, centralDirOffset turns (zeros 32768) = none := by
    intro turns
    rw [centralDirOffset, eocdLoop_eq_none hlarge hmiss turns (by norm_num) (by norm_num),
      map_none]
  refine ⟨?_, hnone⟩
  rintro ⟨⟨turns, offset, hturns⟩, -⟩
  rw [hnone turns] at hturns
  exact absurd hturns (some_ne_none _).symm

end AdbBridge.Incremental
