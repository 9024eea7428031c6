import AdbBridge.Types.Bytes

/-!
# Blocks

A `Block` owns a buffer that never grows; only a part of it at the front is in use. The
model keeps the whole buffer, so that a `memcpy` behind the part in use and a `resize` that
takes it in can be told apart from one another. A `CHECK` that fails and an access outside
of the buffer are `none`.
-/

namespace AdbBridge

open List

theorem Block.fits_empty : 0 ≤ ([] : Bytes).length := Nat.zero_le 0

/-- A buffer and how much of it is in use. A block without a buffer has an empty one. -/
structure Block where
  /-- All the bytes of the buffer, as many as its capacity. -/
  buf : Bytes := []
  size : ℕ := 0
  fits : size ≤ buf.length := by exact Block.fits_empty
  deriving DecidableEq, Repr

namespace Block

variable {b b' : Block} {n offset : ℕ}

def capacity (b : Block) : ℕ := b.buf.length

/-- The bytes between `begin()` and `end()`. -/
def data (b : Block) : Bytes := b.buf.take b.size

/-- A block made of a range of bytes. -/
def ofBytes (bs : Bytes) : Block := ⟨bs, bs.length, le_rfl⟩

/-- `allocate`. The source leaves the bytes of the buffer as they happen to be. -/
def allocate (size : ℕ) : Block := ofBytes (List.replicate size 0)

/-- `resize` allocates only where there is no buffer. -/
def resize (b : Block) (newSize : ℕ) : Option Block :=
  if b.buf = [] then some (allocate newSize)
  else if h : newSize ≤ b.capacity then some { b with size := newSize, fits := h }
  else none

/-- Copying bytes into the buffer, whether they are in use or not. The bytes are taken
before any of them is written, as `memmove` does. -/
def memcpy (b : Block) (offset : ℕ) (bs : Bytes) : Option Block :=
  if h : offset + bs.length ≤ b.capacity then
    some
      { buf := b.buf.take offset ++ (bs ++ b.buf.drop (offset + bs.length))
        size := b.size
        fits := by
          have hfits := b.fits
          simp only [capacity] at h
          simp only [length_append, length_take, length_drop]
          omega }
  else none

theorem size_le_capacity (b : Block) : b.size ≤ b.capacity := b.fits

@[simp]
theorem length_data (b : Block) : b.data.length = b.size := by
  rw [data, length_take, min_eq_left b.fits]

@[simp]
theorem data_ofBytes (bs : Bytes) : (ofBytes bs).data = bs := take_length

@[simp]
theorem size_ofBytes (bs : Bytes) : (ofBytes bs).size = bs.length := rfl

theorem data_eq_nil_iff : b.data = [] ↔ b.size = 0 := by
  rw [← length_eq_zero_iff, length_data]

/-- A block with a buffer may be resized to anything that the buffer can hold. -/
theorem resize_of_capacity (hb : 0 < b.capacity) (hn : n ≤ b.capacity) :
    ∃ b', b.resize n = some b' ∧ b'.size = n ∧ b'.capacity = b.capacity ∧
      b'.data = b.buf.take n := by
  rw [resize, if_neg (ne_nil_of_length_pos hb), dif_pos hn]
  exact ⟨_, rfl, rfl, rfl, rfl⟩

/-- So may a block that is in use. -/
theorem resize_of_le (hb : 0 < b.size) (hn : n ≤ b.capacity) :
    ∃ b', b.resize n = some b' ∧ b'.size = n ∧ b'.data = b.buf.take n := by
  obtain ⟨b', hresize, hsize, -, hdata⟩ := resize_of_capacity (hb.trans_le b.size_le_capacity) hn
  exact ⟨b', hresize, hsize, hdata⟩

/-- A copy that fits changes neither size nor capacity. -/
theorem memcpy_of_le (offset : ℕ) (bs : Bytes) (h : offset + bs.length ≤ b.capacity) :
    ∃ b', b.memcpy offset bs = some b' ∧ b'.size = b.size ∧ b'.capacity = b.capacity ∧
      b'.buf.take (offset + bs.length) = b.buf.take offset ++ bs := by
  rw [memcpy, dif_pos h]
  refine ⟨_, rfl, rfl, ?_, ?_⟩
  · simp only [capacity, length_append, length_take, length_drop] at h ⊢
    omega
  · have hoffset : offset ≤ b.buf.length := (Nat.le_add_right _ _).trans h
    have hlen : (b.buf.take offset ++ bs).length = offset + bs.length := by
      rw [length_append, length_take, min_eq_left hoffset]
    dsimp only
    rw [← append_assoc, ← hlen, take_left]

/-- Bytes that are put behind what is in use, and then taken in. -/
theorem memcpy_end_resize {bs : Bytes} (hb : 0 < b.capacity) (h : b.size + bs.length ≤ b.capacity) :
    ∃ b' b'', b.memcpy b.size bs = some b' ∧ b'.resize (b'.size + bs.length) = some b'' ∧
      b''.data = b.data ++ bs ∧ b''.capacity = b.capacity := by
  obtain ⟨b', hb', hsize, hcap, htake⟩ := memcpy_of_le (b := b) b.size bs h
  obtain ⟨b'', hb'', -, hcap', hdata⟩ := resize_of_capacity (b := b') (n := b'.size + bs.length)
    (by omega) (by omega)
  refine ⟨b', b'', hb', hb'', ?_, hcap'.trans hcap⟩
  rw [hdata, hsize, htake, data]

/-- Moving what is in use to the front of the buffer, and forgetting the rest. -/
theorem memmove_resize (h : offset < b.size) :
    ∃ b' b'', b.memcpy 0 (b.data.drop offset) = some b' ∧
      b'.resize (b.size - offset) = some b'' ∧ b''.size = b.size - offset ∧
        b''.data = b.data.drop offset := by
  have hcap := b.size_le_capacity
  have hlen : (b.data.drop offset).length = b.size - offset := by simp
  obtain ⟨b', hb', hsize, hcap', htake⟩ := memcpy_of_le (b := b) 0 (b.data.drop offset) (by omega)
  obtain ⟨b'', hb'', hsize'', hdata⟩ := resize_of_le (b := b') (n := b.size - offset) (by omega)
    (by omega)
  refine ⟨b', b'', hb', hb'', hsize'', ?_⟩
  rw [hdata, ← hlen]
  simpa using htake

/-! ### Copying several pieces -/

/-- The loops that copy one piece after the other into a buffer, and where they end. -/
def copyAll : List Bytes → Block → ℕ → Option (Block × ℕ)
  | [], b, offset => some (b, offset)
  | piece :: pieces, b, offset =>
    (b.memcpy offset piece).bind fun b' => copyAll pieces b' (offset + piece.length)

/-- Pieces that fit together are copied one behind the other. -/
theorem copyAll_of_le {pieces : List Bytes} (h : offset + pieces.flatten.length ≤ b.capacity) :
    ∃ b', copyAll pieces b offset = some (b', offset + pieces.flatten.length) ∧
      b'.size = b.size ∧ b'.capacity = b.capacity ∧
        b'.buf.take (offset + pieces.flatten.length) = b.buf.take offset ++ pieces.flatten := by
  induction pieces generalizing b offset with
  | nil => exact ⟨b, rfl, rfl, rfl, by simp⟩
  | cons piece pieces ih =>
    rw [flatten_cons, length_append, ← add_assoc] at h
    obtain ⟨b₁, hb₁, hsize₁, hcap₁, htake₁⟩ := memcpy_of_le (b := b) offset piece (by omega)
    have hroom : offset + piece.length + pieces.flatten.length ≤ b₁.capacity := by omega
    obtain ⟨b₂, hb₂, hsize₂, hcap₂, htake₂⟩ := ih hroom
    have hend : offset + (piece :: pieces).flatten.length =
        offset + piece.length + pieces.flatten.length := by simp [add_assoc]
    rw [copyAll, hb₁, hend]
    refine ⟨b₂, hb₂, hsize₂.trans hsize₁, hcap₂.trans hcap₁, ?_⟩
    rw [htake₂, htake₁, append_assoc, flatten_cons]

end Block

end AdbBridge
