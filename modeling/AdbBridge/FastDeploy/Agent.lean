import AdbBridge.FastDeploy.Archive

/-!
# Applying a patch on the device

A patch says how a new file is put together: a stretch of new data, then a stretch of the file
that is on the device already, and so on until the new file has its size. `Segment` is one such
pair, `render` the bytes of a list of them and `patched` what they stand for.

The agent on the device reads the bytes. It knows nothing of segments: it reads one number after
the other and copies in pieces, and it stops when it has written as many bytes as the header says.
`applyLoop_render` says that it writes `patched`.
-/

namespace AdbBridge.FastDeploy

open List

/-! ### Numbers in a patch -/

/-- The `int64_t` or `long` with the same bits. -/
def int64 (z : ℤ) : ℤ := Int.bmod z (2 ^ 64)

theorem int64_eq {z : ℤ} (hlow : -(2 ^ 63) ≤ z) (hhigh : z < 2 ^ 63) : int64 z = z := by
  unfold int64
  rw [Int.bmod_eq_of_le] <;> omega

/-- `PatchUtils::WriteLong`. -/
def writeLong (v : ℤ) : Bytes := leBytes 8 (v % 2 ^ 64).toNat

@[simp]
theorem length_writeLong (v : ℤ) : (writeLong v).length = 8 := length_leBytes _ _

variable {v : ℤ} {path : Bytes} {segs : List Segment}

theorem int64_leNat_writeLong (hlow : -(2 ^ 63) ≤ v) (hhigh : v < 2 ^ 63) :
    int64 (leNat (writeLong v)) = v := by
  have hcast : ((leNat (writeLong v) : ℕ) : ℤ) = v % 2 ^ 64 := by
    rw [writeLong, leNat_leBytes]
    omega
  rw [hcast, int64, show ((2 : ℤ) ^ 64) = ((2 ^ 64 : ℕ) : ℤ) from rfl, Int.emod_bmod]
  exact int64_eq hlow hhigh

/-! ### Segments -/

/-- New data, and a stretch of the file on the device. -/
structure Segment where
  fresh : Bytes
  offset : ℕ
  length : ℕ

namespace Segment

/-- The bytes of a segment in a patch. -/
def bytes (s : Segment) : Bytes :=
  writeLong s.fresh.length ++ s.fresh ++ writeLong s.offset ++ writeLong s.length

/-- How many bytes a segment stands for. -/
def size (s : Segment) : ℕ := s.fresh.length + s.length

/-- The bytes a segment stands for. -/
def apply (old : Bytes) (s : Segment) : Bytes := s.fresh ++ sliceOf old s.offset s.length

/-- The numbers of a segment are positive `long`s. -/
structure Fits (s : Segment) : Prop where
  size_lt : s.size < 2 ^ 63
  offset_lt : s.offset < 2 ^ 63
  size_pos : 0 < s.size

end Segment

/-- The bytes of a list of segments. -/
def render (segs : List Segment) : Bytes := segs.flatMap Segment.bytes

/-- The file a list of segments stands for. -/
def patched (old : Bytes) (segs : List Segment) : Bytes := segs.flatMap (Segment.apply old)

/-- How many bytes that are. -/
def totalSize (segs : List Segment) : ℕ := (segs.map Segment.size).sum

/-! ### Reading the patch -/

/-- What can be wrong with a patch. -/
inductive PatchError
  /-- `PatchFormatException("truncated signature")`. -/
  | truncatedSignature
  /-- `PatchFormatException("bad signature")`. -/
  | badSignature
  /-- `PatchFormatException("bad newSize: ")`. -/
  | badNewSize (newSize : ℤ)
  /-- `IOException("truncated input stream")`. -/
  | truncatedInputStream
  /-- `NegativeArraySizeException`. -/
  | negativeArraySize
  /-- `IllegalArgumentException` of `transferTo`. -/
  | illegalPosition
  deriving DecidableEq, Repr

/-- `PatchUtils.readFully`: the bytes read and the rest of the stream. -/
def readFully (n : ℕ) (s : Bytes) : Except PatchError (Bytes × Bytes) :=
  if n ≤ s.length then .ok (s.take n, s.drop n) else .error .truncatedInputStream

/-- `PatchUtils.readLELong`. -/
def readLELong (s : Bytes) : Except PatchError (ℤ × Bytes) := do
  let (buffer, s) ← readFully 8 s
  return (int64 (leNat buffer), s)

/-- `PatchUtils.readString`. The length is cast to an `int`. -/
def readString (s : Bytes) : Except PatchError (Bytes × Bytes) := do
  let (n, s) ← readLELong s
  let size := Int.bmod n (2 ^ 32)
  if size < 0 then throw .negativeArraySize
  readFully size.toNat s

/-- `BUFFER_SIZE`. -/
def bufferSize : ℕ := 128 * 1024

/-- The loop of `PatchUtils.pipe`: what it writes, and the rest of the stream. A round copies a
byte at least. -/
def pipeLoop : ℕ → ℕ → Bytes → Except PatchError (Bytes × Bytes)
  | 0, _, s => return ([], s)
  | n + 1, copyLength, s => do
    if copyLength = 0 then return ([], s)
    let maxCopy := min bufferSize copyLength
    let (chunk, s) ← readFully maxCopy s
    let (rest, s) ← pipeLoop n (copyLength - maxCopy) s
    return (chunk ++ rest, s)

/-- `PatchUtils.pipe`. -/
def pipe (copyLength : ℕ) (s : Bytes) : Except PatchError (Bytes × Bytes) :=
  pipeLoop copyLength copyLength s

/-- The transfers from the old file, in pieces of a gigabyte at most. -/
def transferLoop (old : Bytes) : ℕ → ℕ → ℕ → Bytes
  | 0, _, _ => []
  | n + 1, offset, len =>
    if len = 0 then []
    else
      let chunkLen := min len (1024 * 1024 * 1024)
      sliceOf old offset chunkLen ++ transferLoop old n (offset + chunkLen) (len - chunkLen)

/-- One round of `writePatchedDataToStream`: what it writes, what it adds to
`newDataBytesWritten`, and the rest of the patch. -/
def applyEntry (old s : Bytes) : Except PatchError (Bytes × ℤ × Bytes) := do
  let (newDataLen, s) ← readLELong s
  let (fresh, s) ← if 0 < newDataLen then pipe newDataLen.toNat s else pure ([], s)
  let (oldDataOffset, s) ← readLELong s
  let (oldDataLen, s) ← readLELong s
  if 0 < oldDataLen ∧ oldDataOffset < 0 then throw .illegalPosition
  return (fresh ++ transferLoop old oldDataLen.toNat oldDataOffset.toNat oldDataLen.toNat,
    newDataLen + oldDataLen, s)

/-- The `while` loop of `writePatchedDataToStream`: what it writes and how much it takes that to
be; `none` as long as it is running. -/
def applyLoop (old : Bytes) (newSize : ℤ) :
    ℕ → ℤ → Bytes → Option (Except PatchError (Bytes × ℤ))
  | 0, _, _ => none
  | n + 1, written, s =>
    if newSize ≤ written then some (.ok ([], written))
    else
      match applyEntry old s with
      | .error e => some (.error e)
      | .ok (data, count, s) =>
        (applyLoop old newSize n (int64 (written + count)) s).map
          (·.map fun (rest, written) => (data ++ rest, written))

/-- `readPatchHeader`. -/
def readPatchHeader (s : Bytes) : Except PatchError (ℤ × Bytes) :=
  match readFully 10 s with
  | .error _ => .error .truncatedSignature
  | .ok (signature, s) =>
    if signature ≠ ascii "FASTDEPLOY" then .error .badSignature
    else do
      let (newSize, s) ← readLELong s
      if newSize < 0 then throw (.badNewSize newSize)
      return (newSize, s)

/-- `writePatchedDataToStream`, where `old` is the file of the name in the patch. -/
def writePatchedDataToStream (old : Bytes) (rounds : ℕ) (newSize : ℤ) (s : Bytes) :
    Option (Except PatchError (Bytes × ℤ)) :=
  match readString s with
  | .error e => some (.error e)
  | .ok (_, s) => applyLoop old newSize rounds 0 s

/-- The application of a patch: `readPatchHeader`, then `writePatchedDataToStream`. -/
def applyPatch (old : Bytes) (rounds : ℕ) (patch : Bytes) :
    Option (Except PatchError (Bytes × ℤ)) :=
  match readPatchHeader patch with
  | .error e => some (.error e)
  | .ok (newSize, s) => writePatchedDataToStream old rounds newSize s

/-! ### What the agent reads -/

variable {old s : Bytes} {n len : ℕ}

theorem ok_bind {α β : Type} (a : α) (f : α → Except PatchError β) : (.ok a >>= f) = f a := rfl

theorem readFully_append (b : Bytes) : readFully b.length (b ++ s) = .ok (b, s) := by
  rw [readFully, if_pos (by simp), take_left, drop_left]

theorem readLELong_writeLong (hlow : -(2 ^ 63) ≤ v) (hhigh : v < 2 ^ 63) :
    readLELong (writeLong v ++ s) = .ok (v, s) := by
  have hread : readFully 8 (writeLong v ++ s) = .ok (writeLong v, s) :=
    length_writeLong v ▸ readFully_append (writeLong v)
  rw [readLELong, hread]
  exact congrArg (fun v => Except.ok (v, s)) (int64_leNat_writeLong hlow hhigh)

/-- A length that is not too large. -/
theorem readLELong_length (h : n < 2 ^ 63) : readLELong (writeLong n ++ s) = .ok ((n : ℤ), s) :=
  readLELong_writeLong (by omega) (by omega)

/-- A copy of as many bytes as stand in front returns them, and leaves what comes behind. -/
theorem pipeLoop_append {data : Bytes} (h : data.length ≤ n) :
    pipeLoop n data.length (data ++ s) = .ok (data, s) := by
  induction n generalizing data with
  | zero =>
    obtain rfl := eq_nil_of_length_eq_zero (Nat.le_zero.mp h)
    rfl
  | succ n ih =>
    rw [pipeLoop]
    split
    · rename_i hnil
      obtain rfl := eq_nil_of_length_eq_zero hnil
      rfl
    · rename_i hpos
      set k := min bufferSize data.length with hk
      have hkle : k ≤ data.length := min_le_right _ _
      have hkpos : 0 < k := lt_min (by decide) (Nat.pos_of_ne_zero hpos)
      have htake : (data.take k).length = k := length_take_of_le hkle
      have hdrop : (data.drop k).length = data.length - k := length_drop
      have hread : readFully k (data ++ s) = .ok (data.take k, data.drop k ++ s) := by
        have happ := readFully_append (s := data.drop k ++ s) (data.take k)
        rwa [htake, ← append_assoc, take_append_drop] at happ
      have hrest : pipeLoop n (data.drop k).length (data.drop k ++ s) = .ok (data.drop k, s) :=
        ih (by omega)
      rw [hdrop] at hrest
      simp only [hread, ok_bind, hrest, take_append_drop]
      rfl

theorem pipe_append (data : Bytes) : pipe data.length (data ++ s) = .ok (data, s) :=
  pipeLoop_append le_rfl

/-- The transfers copy what was asked for. -/
theorem transferLoop_eq {off : ℕ} (h : len ≤ n) :
    transferLoop old n off len = sliceOf old off len := by
  induction n generalizing off len with
  | zero =>
    obtain rfl := Nat.le_zero.mp h
    exact sliceOf_zero.symm
  | succ n ih =>
    rw [transferLoop]
    split
    · rename_i hzero
      rw [hzero, sliceOf_zero]
    · rename_i hpos
      have hchunk : 0 < min len (1024 * 1024 * 1024) := lt_min (Nat.pos_of_ne_zero hpos) (by decide)
      simp only
      rw [ih (by omega), ← sliceOf_add, Nat.add_sub_cancel' (min_le_left _ _)]

/-- **A round of the loop takes one segment.** -/
theorem applyEntry_bytes {seg : Segment} (h : seg.Fits) :
    applyEntry old (seg.bytes ++ s) = .ok (seg.apply old, (seg.size : ℤ), s) := by
  have hsize : seg.fresh.length + seg.length < 2 ^ 63 := h.size_lt
  have hfresh : readLELong (seg.bytes ++ s) = .ok ((seg.fresh.length : ℤ),
      seg.fresh ++ (writeLong seg.offset ++ (writeLong seg.length ++ s))) := by
    rw [Segment.bytes, append_assoc, append_assoc, append_assoc]
    exact readLELong_length (by omega)
  have hoffset := readLELong_length (s := writeLong seg.length ++ s) h.offset_lt
  have hlength := readLELong_length (s := s) (n := seg.length) (by omega)
  have hsign : ¬(0 < (seg.length : ℤ) ∧ (seg.offset : ℤ) < 0) := by omega
  have hsum : (seg.size : ℤ) = seg.fresh.length + seg.length := Nat.cast_add _ _
  rw [applyEntry, hfresh]
  simp only [bind, Except.bind]
  -- Nothing is piped where there is nothing new; the stream is the same either way.
  split
  · rw [Int.toNat_natCast, pipe_append]
    simp only [hoffset, hlength, if_neg hsign, Int.toNat_natCast, transferLoop_eq le_rfl, hsum]
    rfl
  · have hnil : seg.fresh = [] := eq_nil_of_length_eq_zero (by omega)
    simp only [hnil, nil_append, pure, Except.pure, hoffset, hlength, if_neg hsign,
      Int.toNat_natCast, transferLoop_eq le_rfl, hsum, Segment.apply]

/-- **The loop writes what the segments stand for**, and no more. -/
theorem applyLoop_render (h : ∀ seg ∈ segs, seg.Fits) {written newSize : ℕ}
    (hsize : written + totalSize segs = newSize) (hlt : newSize < 2 ^ 63) (hn : segs.length < n) :
    applyLoop old newSize n written (render segs ++ s) =
      some (.ok (patched old segs, (newSize : ℤ))) := by
  induction segs generalizing n written with
  | nil =>
    obtain ⟨n, rfl⟩ := Nat.exists_eq_succ_of_ne_zero (by omega : n ≠ 0)
    obtain rfl : written = newSize := hsize
    rw [applyLoop, if_pos le_rfl]
    rfl
  | cons seg segs ih =>
    obtain ⟨n, rfl⟩ := Nat.exists_eq_succ_of_ne_zero (by omega : n ≠ 0)
    have hfits := h seg mem_cons_self
    have hpos := hfits.size_pos
    rw [totalSize, map_cons, sum_cons, ← totalSize] at hsize
    have hrest : applyLoop old newSize n ((written + seg.size : ℕ) : ℤ) (render segs ++ s) =
        some (.ok (patched old segs, (newSize : ℤ))) :=
      ih (fun seg' hseg' => h seg' (mem_cons_of_mem _ hseg')) (by omega)
        (Nat.lt_of_succ_lt_succ hn)
    rw [applyLoop, if_neg (by omega), render, flatMap_cons, ← render, append_assoc,
      applyEntry_bytes hfits]
    simp only
    rw [int64_eq (by omega) (by omega), ← Nat.cast_add, hrest]
    rfl

/-- The header of a patch. -/
def header (newSize : ℕ) (path : Bytes) : Bytes :=
  ascii "FASTDEPLOY" ++ writeLong newSize ++ writeLong path.length ++ path

theorem readPatchHeader_header {newSize : ℕ} (h : newSize < 2 ^ 63) (path : Bytes) :
    readPatchHeader (header newSize path ++ s) =
      .ok ((newSize : ℤ), writeLong path.length ++ (path ++ s)) := by
  have hten : (ascii "FASTDEPLOY").length = 10 := by decide
  have hsig := readFully_append (ascii "FASTDEPLOY")
    (s := writeLong newSize ++ (writeLong path.length ++ (path ++ s)))
  rw [hten] at hsig
  rw [readPatchHeader, header, append_assoc, append_assoc, append_assoc, hsig]
  simp only [ne_eq, not_true_eq_false, if_false, readLELong_length h, ok_bind]
  rw [if_neg (by omega)]
  rfl

theorem readString_path (h : path.length < 2 ^ 31) :
    readString (writeLong path.length ++ (path ++ s)) = .ok (path, s) := by
  have hlength := readLELong_length (s := path ++ s) (show path.length < 2 ^ 63 by omega)
  have hcast : Int.bmod (path.length : ℤ) (2 ^ 32) = path.length := by
    rw [Int.bmod_eq_of_le] <;> omega
  rw [readString, hlength, ok_bind]
  simp only [hcast]
  rw [if_neg (by omega), Int.toNat_natCast]
  exact readFully_append path

/-- **The agent writes what the segments of a patch stand for.** -/
theorem applyPatch_render (h : ∀ seg ∈ segs, seg.Fits)
    (hpath : path.length < 2 ^ 31) (hlt : totalSize segs < 2 ^ 63) (hn : segs.length < n) :
    applyPatch old n (header (totalSize segs) path ++ render segs) =
      some (.ok (patched old segs, (totalSize segs : ℤ))) := by
  have hloop : applyLoop old (totalSize segs) n ((0 : ℕ) : ℤ) (render segs ++ []) =
      some (.ok (patched old segs, (totalSize segs : ℤ))) :=
    applyLoop_render h (Nat.zero_add _) hlt hn
  rw [append_nil, Nat.cast_zero] at hloop
  have hrest : writePatchedDataToStream old n (totalSize segs)
      (writeLong path.length ++ (path ++ render segs)) =
        some (.ok (patched old segs, (totalSize segs : ℤ))) := by
    rw [writePatchedDataToStream, readString_path hpath]
    exact hloop
  rw [applyPatch, readPatchHeader_header hlt]
  exact hrest

end AdbBridge.FastDeploy
