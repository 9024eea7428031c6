import Mathlib

/-!
# Slices and little-endian numbers

What a program finds in a file is a slice of it: so many elements from some place on. The
lemmas say how slices that meet are put together; a window is the same for a memory, which has
no end. The numbers in a file are written lowest byte first; reading `n` bytes back gives the
number modulo `256 ^ n`.
-/

/-! ### Slices -/

section Slice

variable {α : Type*} {l : List α} {off m n : ℕ} {k : ℕ}

/-- The `len` elements from `off` on, or as many as there are. -/
def sliceOf (l : List α) (off len : ℕ) : List α := (l.drop off).take len

theorem sliceOf_zero : sliceOf l off 0 = [] := List.take_zero

theorem length_sliceOf (h : off + n ≤ l.length) : (sliceOf l off n).length = n := by
  rw [sliceOf, List.length_take, List.length_drop]
  omega

theorem length_sliceOf_le : (sliceOf l off n).length ≤ n := List.length_take_le _ _

/-- Two slices that meet. -/
theorem sliceOf_add : sliceOf l off (m + n) = sliceOf l off m ++ sliceOf l (off + m) n := by
  rw [sliceOf, List.take_add, List.drop_drop]
  rfl

/-- What comes before a slice, and the slice. -/
theorem take_append_sliceOf : l.take off ++ sliceOf l off n = l.take (off + n) :=
  List.take_add.symm

/-- A slice of the beginning of a list. -/
theorem sliceOf_take (h : off + n ≤ m) : sliceOf (l.take m) off n = sliceOf l off n := by
  rw [sliceOf, List.drop_take, List.take_take, min_eq_left (by omega)]
  rfl

/-- A slice of a slice. -/
theorem sliceOf_sliceOf (h : k + m ≤ n) :
    sliceOf (sliceOf l off n) k m = sliceOf l (off + k) m := by
  rw [sliceOf, sliceOf, List.drop_take, List.drop_drop, List.take_take, min_eq_left (by omega)]
  rfl

/-- A slice of the end of a list. -/
theorem sliceOf_drop : sliceOf (l.drop k) off n = sliceOf l (k + off) n := by
  rw [sliceOf, List.drop_drop]
  rfl

/-- The first element of a slice, and the others. -/
theorem sliceOf_succ {x : α} (h : l[off]? = some x) :
    sliceOf l off (n + 1) = x :: sliceOf l (off + 1) n := by
  obtain ⟨hlt, rfl⟩ := List.getElem?_eq_some_iff.mp h
  rw [sliceOf, List.drop_eq_getElem_cons hlt, List.take_succ_cons]
  rfl

/-! ### Overwriting -/

/-- `data` is copied over what is at `off`. -/
def overwrite (l : List α) (off : ℕ) (data : List α) : List α :=
  l.take off ++ (data ++ l.drop (off + data.length))

variable {data : List α}

theorem length_overwrite (h : off + data.length ≤ l.length) :
    (overwrite l off data).length = l.length := by
  rw [overwrite, List.length_append, List.length_append, List.length_take, List.length_drop]
  omega

theorem take_overwrite (h : off ≤ l.length) : (overwrite l off data).take off = l.take off :=
  List.take_left' (List.length_take_of_le h)

theorem drop_overwrite (h : off ≤ l.length) :
    (overwrite l off data).drop off = data ++ l.drop (off + data.length) :=
  List.drop_left' (List.length_take_of_le h)

end Slice

/-! ### Windows of a memory -/

section Window

variable {α : Type*} {mem : ℕ → α} {a m n len : ℕ}

/-- The `n` elements of a memory from the address `a` on. -/
def window (mem : ℕ → α) (a n : ℕ) : List α := (List.range' a n).map mem

@[simp]
theorem length_window (mem : ℕ → α) (a n : ℕ) : (window mem a n).length = n := by
  rw [window, List.length_map, List.length_range']

/-- Two windows that meet. -/
theorem window_add : window mem a (m + n) = window mem a m ++ window mem (a + m) n := by
  rw [window, ← List.range'_append_1, List.map_append]
  rfl

/-- A window of a window. -/
theorem sliceOf_window (h : m + n ≤ len) :
    sliceOf (window mem a len) m n = window mem (a + m) n := by
  obtain ⟨k, rfl⟩ := Nat.exists_eq_add_of_le h
  rw [Nat.add_assoc, window_add, window_add, sliceOf,
    List.drop_left' (length_window mem a m), List.take_left' (length_window mem (a + m) n)]

/-- A memory that begins with the elements of a list has them in its window. -/
theorem window_getD (l : List α) (d : α) : window (fun i => l.getD i d) 0 l.length = l := by
  refine List.ext_getElem (by rw [length_window]) fun i _ hi => ?_
  simp [window, hi]

end Window

/-! ### Little-endian numbers -/

/-- The lowest `n` bytes of a number, lowest first. -/
def leBytes : ℕ → ℕ → List UInt8
  | 0, _ => []
  | n + 1, v => UInt8.ofNat v :: leBytes n (v / 256)

/-- The number that bytes stand for, lowest first. -/
def leNat : List UInt8 → ℕ
  | [] => 0
  | b :: bs => b.toNat + 256 * leNat bs

@[simp]
theorem length_leBytes (n v : ℕ) : (leBytes n v).length = n := by
  induction n generalizing v with
  | zero => rfl
  | succ n ih => rw [leBytes, List.length_cons, ih]

theorem leNat_lt (bs : List UInt8) : leNat bs < 256 ^ bs.length := by
  induction bs with
  | nil => exact Nat.one_pos
  | cons b bs ih =>
    have hb : b.toNat < 256 := b.toNat_lt
    rw [leNat, List.length_cons, pow_succ]
    omega

/-- Bytes that stand for the same number are the same, if they are as many. -/
theorem leNat_inj {bs cs : List UInt8} (hlength : bs.length = cs.length) :
    leNat bs = leNat cs ↔ bs = cs := by
  refine ⟨fun h => ?_, congrArg leNat⟩
  induction bs generalizing cs with
  | nil => exact (List.eq_nil_of_length_eq_zero hlength.symm).symm
  | cons b bs ih =>
    obtain ⟨c, cs, rfl⟩ : ∃ c rest, cs = c :: rest :=
      List.exists_cons_of_length_eq_add_one hlength.symm
    have hb := b.toNat_lt
    have hc := c.toNat_lt
    rw [leNat, leNat] at h
    have hhead : b = c := UInt8.toNat_inj.mp (by omega)
    have htail : bs = cs := ih (Nat.succ.inj hlength) (by omega)
    rw [hhead, htail]

/-- **Reading back what was written.** -/
theorem leNat_leBytes (n v : ℕ) : leNat (leBytes n v) = v % 256 ^ n := by
  induction n generalizing v with
  | zero => rw [leBytes, leNat, pow_zero, Nat.mod_one]
  | succ n ih =>
    have hb : (UInt8.ofNat v).toNat = v % 256 := UInt8.toNat_ofNat'
    rw [leBytes, leNat, ih, hb, pow_succ', Nat.mod_mul]

/-- The lowest `n` bytes of a number, highest first. -/
def beBytes (n v : ℕ) : List UInt8 := (leBytes n v).reverse

@[simp]
theorem length_beBytes (n v : ℕ) : (beBytes n v).length = n := by
  rw [beBytes, List.length_reverse, length_leBytes]
