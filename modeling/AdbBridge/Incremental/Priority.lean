import AdbBridge.Incremental.CentralDir
import AdbBridge.Install.Arguments

/-!
# The blocks that are sent first

Before an incremental installation the server sends the blocks of an APK that will be needed at
once: the end of the file, where the central directory is, from the block of the signer on; the
first block; and the blocks of some entries. `PriorityBlocksForFile` puts their indexes in a list,
most urgent first, by calls of `appendBlocks` with the start and the length of a range, and then
takes out what is there twice.

All offsets come from the file, and are signed. `SignerBlockOffset` may look behind the end of the
file, but what it finds there never agrees with the rest: the block it returns is in the file. The
indexes of the blocks are of 32 bits, and `std::iota` counts one further than the last of them, so a
file may have at most 2^43 bytes less two blocks (`AdbBridge.Incremental.priorityBlocks_spec`).
-/

namespace AdbBridge.Incremental

open List Option

/-! ### The code -/

def kApkSigBlockMinSize : ℕ := 32

def kApkSigBlockFooterSize : ℕ := 24

def apkSigBlockMagicHi : ℤ := 0x3234206b636f6c42

def apkSigBlockMagicLo : ℤ := 0x20676953204b5041

/-- `SignerBlockOffset`, after `CentralDirOffset` has returned. -/
def signerBlockOffsetAt (file : Bytes) (cdOffset : ℤ) : ℤ :=
  let signerSizeInFooter := valueAt 4 file (cdOffset - kApkSigBlockFooterSize)
  let signerBlockOffset := cdOffset - signerSizeInFooter - 8
  if cdOffset < 0 then -1
  else if cdOffset < kApkSigBlockMinSize ∨ valueAt 8 file (cdOffset - 2 * 8) ≠ apkSigBlockMagicLo ∨
      valueAt 8 file (cdOffset - 8) ≠ apkSigBlockMagicHi then -1
  else if signerBlockOffset < 0 then -1
  else if signerSizeInFooter ≠ valueAt 4 file signerBlockOffset then -1
  else signerBlockOffset

/-- `SignerBlockOffset`, with at most so many turns of the loop in `CentralDirOffset`. -/
def signerBlockOffset (turns : ℕ) (file : Bytes) : Option ℤ :=
  (centralDirOffset turns file).map (signerBlockOffsetAt file)

def offsetToBlockIndex (offset : ℤ) : ℤ := toInt32 (offset / kBlockSize)

/-- The indexes of a range of blocks. -/
def blockRange (start count : ℤ) : List ℤ := (List.range count.toNat).map fun i : ℕ => start + i

/-- `appendBlocks`. A negative count makes no sense, and `std::iota` increments an `int32_t` once
for each block. -/
def appendBlocks (blocks : List ℤ) : ℤ × ℤ → Option (List ℤ)
  | (start, count) =>
    if count = 1 then some (blocks ++ [start])
    else if count < 0 ∨ 2 ^ 31 ≤ start + count then none
    else some (blocks ++ blockRange start count)

/-- `unduplicate`: the first of every value stays. -/
def unduplicateAfter (uniques : List ℤ) : List ℤ → List ℤ
  | [] => []
  | t :: v =>
    if t ∈ uniques then unduplicateAfter uniques v else t :: unduplicateAfter (t :: uniques) v

def kNumBlocksInEocdSearch : ℤ := 64 * 1024 / kBlockSize + 1

/-- The calls of `appendBlocks` in `ZipPriorityBlocks`. -/
def zipPriorityBlocks (signerBlockOffset : ℤ) (fileSize : ℕ) : List (ℤ × ℤ) :=
  let signerBlockIndex := offsetToBlockIndex signerBlockOffset
  let lastBlockIndex := offsetToBlockIndex fileSize
  let numPriorityBlocks := toInt32 (lastBlockIndex - signerBlockIndex + 1)
  (if kNumBlocksInEocdSearch < numPriorityBlocks then
    [(lastBlockIndex - kNumBlocksInEocdSearch + 1, kNumBlocksInEocdSearch),
      (signerBlockIndex, numPriorityBlocks - kNumBlocksInEocdSearch)]
  else [(signerBlockIndex, numPriorityBlocks)]) ++ [(0, 1)]

/-- `ZipEntry64`. -/
structure ZipEntry where
  name : Bytes
  offset : ℤ
  /-- The method is `kCompressStored`. -/
  stored : Bool
  compressedLength : ℕ
  uncompressedLength : ℕ
  hasDataDescriptor : Bool
  deriving DecidableEq

namespace ZipEntry

/-- Whether an entry is needed for the installation. -/
def isNeeded (e : ZipEntry) : Bool :=
  startsWith e.name (ascii "lib/") && (ascii ".so").isSuffixOf e.name ||
    [ascii "resources.arsc", ascii "AndroidManifest.xml", ascii "classes.dex"].contains e.name

/-- How long the data is. -/
def length (e : ZipEntry) : ℕ := if e.stored then e.uncompressedLength else e.compressedLength

def endOffset (e : ZipEntry) : ℤ :=
  e.offset + e.length + if e.hasDataDescriptor then 16 else 0

/-- The call of `appendBlocks` for an entry. -/
def blocks (e : ZipEntry) : ℤ × ℤ :=
  if e.name = ascii "classes.dex" then (offsetToBlockIndex e.offset, 2)
  else (offsetToBlockIndex e.offset,
    toInt32 (offsetToBlockIndex e.endOffset - offsetToBlockIndex e.offset + 1))

/-- The data is in a file of this size. -/
def Inside (e : ZipEntry) (fileSize : ℕ) : Prop := 0 ≤ e.offset ∧ e.offset + e.length ≤ fileSize

end ZipEntry

/-- The calls of `appendBlocks` in `InstallationPriorityBlocks`, with what is in the archive, if it
can be opened. -/
def installationPriorityBlocks (zip : Option (List ZipEntry)) : List (ℤ × ℤ) :=
  ((zip.getD []).filter ZipEntry.isNeeded).map ZipEntry.blocks

/-- All calls of `appendBlocks`. There are none if there is no signer. -/
def priorityCalls (signerOffset : ℤ) (fileSize : ℕ) (zip : Option (List ZipEntry)) : List (ℤ × ℤ) :=
  if signerOffset < 0 then []
  else zipPriorityBlocks signerOffset fileSize ++ installationPriorityBlocks zip

/-- `PriorityBlocksForFile`. The blocks of the entries come behind the others. -/
def priorityBlocksForFile (turns : ℕ) (filepath file : Bytes) (zip : Option (List ZipEntry)) :
    Option (List ℤ) :=
  if endsWithIgnoreCase filepath (ascii ".apk") then
    (signerBlockOffset turns file).bind fun signerOffset =>
      ((priorityCalls signerOffset file.length zip).foldlM appendBlocks []).map
        (unduplicateAfter [])
  else some []

/-! ### Where the signer is -/

section Signer

variable {file : Bytes} {turns : ℕ}

theorem valueAt_four_lt (file : Bytes) (offset : ℤ) : valueAt 4 file offset < 2 ^ 31 := by
  rw [valueAt]
  cases preadExactly file offset 4 with
  | none => norm_num
  | some bytes => exact @Int.bmod_lt (leNat bytes) (256 ^ 4) (by norm_num)

/-- The record that is found is at most 32767 bytes before the place of the last. -/
theorem eocdLoop_bound {commentLen offset : ℤ} (hupper : commentLen < 2 ^ 15)
    (h : eocdLoop file turns commentLen = some offset) :
    offset = -1 ∨ maxEocdOffset file < offset + 2 ^ 15 := by
  induction turns generalizing commentLen with
  | zero => exact nomatch h
  | succ turns ih =>
    rw [eocdLoop] at h
    split_ifs at h
    · obtain rfl := some.inj h
      exact Or.inr (by omega)
    · refine ih ?_ h
      have := @Int.bmod_lt (commentLen + 1) (2 ^ 16) (by norm_num)
      rw [toInt16]
      omega
    · exact Or.inl (some.inj h).symm

/-- **The signer is in the file**, and not more than two sizes of 31 bits before its end. -/
theorem signerBlockOffset_bound {s : ℤ} (h : signerBlockOffset turns file = some s) (hs : 0 ≤ s) :
    s < file.length ∧ (file.length : ℤ) ≤ s + 2 ^ 33 := by
  obtain ⟨cdOffset, hcd, hat⟩ := map_eq_some_iff.mp h
  simp only [signerBlockOffsetAt] at hat
  split_ifs at hat with hneg hmagic hoffset hsize <;> try omega
  simp only [not_or, not_not] at hmagic hsize
  -- A magic number is not what cannot be read.
  have hinside : cdOffset ≤ file.length := by
    by_contra hbehind
    have hnone := @valueAt_of_outside file (cdOffset - 8) 8 (Or.inr (by push_cast; omega))
    rw [hnone] at hmagic
    exact absurd hmagic.2.2 (by decide)
  have hfooter := valueAt_four_lt file (cdOffset - kApkSigBlockFooterSize)
  refine ⟨?_, ?_⟩
  · by_contra hbehind
    have hnone := @valueAt_of_outside file s 4 (Or.inr (by push_cast; omega))
    rw [hat, hnone] at hsize
    omega
  · obtain ⟨eocdOffset, hloop, hcdOffset⟩ := map_eq_some_iff.mp hcd
    have hvalue := valueAt_four_lt file (eocdOffset + kZipEocdCentralDirSizeFieldOffset)
    have hbound := eocdLoop_bound (by norm_num) hloop
    have hmax : maxEocdOffset file = file.length - 22 := rfl
    split_ifs at hcdOffset <;> omega

end Signer

/-! ### Ranges of blocks -/

section Ranges

variable {start count b : ℤ}

theorem mem_blockRange : b ∈ blockRange start count ↔ start ≤ b ∧ b < start + count := by
  simp only [blockRange, List.mem_map, mem_range]
  constructor
  · rintro ⟨i, hi, rfl⟩
    omega
  · exact fun h => ⟨(b - start).toNat, by omega, by omega⟩

theorem nodup_blockRange (start count : ℤ) : (blockRange start count).Nodup :=
  nodup_range.map fun i j h => by simpa using h

/-- A call that appends a range of indexes that are not negative. -/
def IsRange (call : ℤ × ℤ) : Prop := 0 ≤ call.1 ∧ 1 ≤ call.2 ∧ call.1 + call.2 < 2 ^ 31

theorem IsRange.appendBlocks {call : ℤ × ℤ} (h : IsRange call) (blocks : List ℤ) :
    appendBlocks blocks call = some (blocks ++ blockRange call.1 call.2) := by
  obtain ⟨start, count⟩ := call
  obtain ⟨hstart, hcount, hend⟩ := h
  dsimp only at *
  rw [Incremental.appendBlocks]
  split_ifs with hone hbad
  · subst hone
    simp [blockRange]
  · omega
  · rfl

theorem foldlM_appendBlocks {calls : List (ℤ × ℤ)} (h : ∀ call ∈ calls, IsRange call)
    (blocks : List ℤ) :
    calls.foldlM appendBlocks blocks =
      some (blocks ++ calls.flatMap fun call => blockRange call.1 call.2) := by
  induction calls generalizing blocks with
  | nil => simp
  | cons call calls ih =>
    obtain ⟨hcall, hcalls⟩ := forall_mem_cons.mp h
    rw [foldlM_cons, hcall.appendBlocks, flatMap_cons, ← append_assoc]
    exact ih hcalls _

theorem mem_unduplicateAfter {uniques v : List ℤ} :
    b ∈ unduplicateAfter uniques v ↔ b ∈ v ∧ b ∉ uniques := by
  induction v generalizing uniques with
  | nil => simp [unduplicateAfter]
  | cons t v ih =>
    rw [unduplicateAfter]
    split_ifs with ht
    · rw [ih, mem_cons]
      refine and_congr_left fun hb => (or_iff_right ?_).symm
      rintro rfl
      exact hb ht
    · rw [mem_cons, ih, mem_cons, mem_cons]
      by_cases hbt : b = t
      · subst hbt
        simp [ht]
      · simp [hbt]

theorem nodup_unduplicateAfter (uniques v : List ℤ) : (unduplicateAfter uniques v).Nodup := by
  induction v generalizing uniques with
  | nil => exact nodup_nil
  | cons t v ih =>
    rw [unduplicateAfter]
    split_ifs
    · exact ih uniques
    · refine nodup_cons.mpr ⟨fun ht => ?_, ih _⟩
      exact (mem_unduplicateAfter.mp ht).2 mem_cons_self

/-- What comes first and is there once stays where it is. -/
theorem unduplicateAfter_append {l : List ℤ} (hl : l.Nodup) (v uniques : List ℤ)
    (hnew : ∀ b ∈ l, b ∉ uniques) : ∃ rest, unduplicateAfter uniques (l ++ v) = l ++ rest := by
  induction l generalizing uniques with
  | nil => exact ⟨_, rfl⟩
  | cons t l ih =>
    obtain ⟨ht, hl⟩ := nodup_cons.mp hl
    obtain ⟨htnew, hnew⟩ := forall_mem_cons.mp hnew
    obtain ⟨rest, hrest⟩ := ih hl (t :: uniques) fun b hb hmem => by
      rcases mem_cons.mp hmem with rfl | hmem
      · exact ht hb
      · exact hnew b hb hmem
    exact ⟨rest, by rw [cons_append, unduplicateAfter, if_neg htnew, hrest]; rfl⟩

end Ranges

/-! ### The calls -/

section Calls

variable {fileSize : ℕ} {s : ℤ}

theorem offsetToBlockIndex_eq {offset : ℤ} (h : 0 ≤ offset) (hlt : offset < 2 ^ 43) :
    offsetToBlockIndex offset = offset / 4096 :=
  toInt32_of_lt (Int.ediv_nonneg h (by norm_num)) (by rw [kBlockSize]; push_cast; omega)

/-- The blocks of an entry. -/
theorem ZipEntry.Inside.isRange {e : ZipEntry} (h : e.Inside fileSize)
    (hsize : fileSize < 2 ^ 43 - 8192) : IsRange e.blocks := by
  obtain ⟨hoffset, hinside⟩ := h
  have hend : e.offset ≤ e.endOffset ∧ e.endOffset ≤ fileSize + 16 := by
    rw [endOffset]
    split_ifs <;> omega
  rw [ZipEntry.blocks, offsetToBlockIndex_eq hoffset (by omega),
    offsetToBlockIndex_eq (by omega) (by omega)]
  split_ifs
  · exact ⟨by omega, by norm_num, by dsimp only; omega⟩
  · rw [toInt32_of_lt (by omega) (by omega)]
    exact ⟨by omega, by dsimp only; omega, by dsimp only; omega⟩

/-- The block with which the list begins: the 17th from the end, or that of the signer. -/
def firstBlock (s : ℤ) (fileSize : ℕ) : ℤ := max (s / 4096) ((fileSize : ℤ) / 4096 - 16)

/-- The range from there to the end comes first, then what is between the signer and it. -/
theorem zipPriorityBlocks_eq (hs : 0 ≤ s) (hlt : s < fileSize) (hnear : (fileSize : ℤ) ≤ s + 2 ^ 33)
    (hsize : fileSize < 2 ^ 43 - 8192) :
    zipPriorityBlocks s fileSize =
      (firstBlock s fileSize, (fileSize : ℤ) / 4096 + 1 - firstBlock s fileSize) ::
        (if s / 4096 < firstBlock s fileSize then
          [(s / 4096, firstBlock s fileSize - s / 4096)] else []) ++ [(0, 1)] := by
  have hnum : kNumBlocksInEocdSearch = 17 := rfl
  simp only [zipPriorityBlocks, hnum, offsetToBlockIndex_eq hs (by omega),
    offsetToBlockIndex_eq (Int.natCast_nonneg fileSize) (by omega)]
  rw [toInt32_of_lt (by omega) (by omega)]
  split_ifs with hmany hfirst hfirst <;> rw [firstBlock] at *
  · have hmax : max (s / 4096) ((fileSize : ℤ) / 4096 - 16) = (fileSize : ℤ) / 4096 - 16 := by omega
    rw [hmax]
    norm_num
    omega
  · omega
  · omega
  · have hmax : max (s / 4096) ((fileSize : ℤ) / 4096 - 16) = s / 4096 := by omega
    rw [hmax]
    norm_num
    omega

end Calls

section Blocks

variable {filepath file : Bytes} {turns : ℕ} {s : ℤ} {zip : Option (List ZipEntry)}

/-- Every call for priority blocks is for a range, if the entries are inside the file. -/
theorem isRange_priorityCalls (hsize : file.length < 2 ^ 43 - 8192)
    (hs : signerBlockOffset turns file = some s)
    (hinside : ∀ e ∈ zip.getD [], e.Inside file.length) :
    ∀ call ∈ priorityCalls s file.length zip, IsRange call := by
  rw [priorityCalls]
  split_ifs with hneg
  · exact nofun
  have hpos := not_lt.mp hneg
  obtain ⟨hlt, hnear⟩ := signerBlockOffset_bound hs hpos
  rw [forall_mem_append, zipPriorityBlocks_eq hpos hlt hnear hsize]
  refine ⟨fun call hcall => ?_, fun call hcall => ?_⟩
  · have hfirst : firstBlock s file.length = max (s / 4096) ((file.length : ℤ) / 4096 - 16) := rfl
    rw [IsRange]
    simp only [cons_append, mem_cons, mem_append, mem_ite_nil_right,
      not_mem_nil, or_false] at hcall
    rcases hcall with rfl | ⟨hbefore, rfl⟩ | rfl <;> dsimp only <;> omega
  · obtain ⟨e, he, rfl⟩ := List.mem_map.mp hcall
    exact (hinside e (mem_filter.mp he).1).isRange hsize

/-- **No priority block is negative**, whatever the name of the file is and whether it has a
signer. -/
theorem priorityBlocks_nonneg {blocks : List ℤ} (hsize : file.length < 2 ^ 43 - 8192)
    (hinside : ∀ e ∈ zip.getD [], e.Inside file.length)
    (h : priorityBlocksForFile turns filepath file zip = some blocks) : ∀ b ∈ blocks, 0 ≤ b := by
  rw [priorityBlocksForFile] at h
  split_ifs at h
  · obtain ⟨s, hs, h⟩ := bind_eq_some_iff.mp h
    have hranges := isRange_priorityCalls hsize hs hinside
    rw [foldlM_appendBlocks hranges, map_some, nil_append] at h
    obtain rfl := some.inj h
    intro b hb
    obtain ⟨call, hcall, hmem⟩ := mem_flatMap.mp (mem_unduplicateAfter.mp hb).1
    exact (hranges call hcall).1.trans (mem_blockRange.mp hmem).1
  · obtain rfl := some.inj h
    exact nofun

/-- **The blocks that are sent first.** Every call of `appendBlocks` has a count of at least 1, and
the list has indexes that are not negative, each once. If there is a signer, it is in the file, and
the list has the first block and all from the signer on, the last 17 of them before the others. -/
theorem priorityBlocks_spec (hname : endsWithIgnoreCase filepath (ascii ".apk"))
    (hsize : file.length < 2 ^ 43 - 8192) (hs : signerBlockOffset turns file = some s)
    (hinside : ∀ e ∈ zip.getD [], e.Inside file.length) :
    (∀ call ∈ priorityCalls s file.length zip, 1 ≤ call.2) ∧
      ∃ blocks, priorityBlocksForFile turns filepath file zip = some blocks ∧
        (∀ b ∈ blocks, 0 ≤ b) ∧ blocks.Nodup ∧
        (0 ≤ s → s < file.length ∧ 0 ∈ blocks ∧
          (∀ b, s / 4096 ≤ b → b ≤ (file.length : ℤ) / 4096 → b ∈ blocks) ∧
          ∃ rest, blocks = blockRange (firstBlock s file.length)
            ((file.length : ℤ) / 4096 + 1 - firstBlock s file.length) ++ rest) := by
  have hranges := isRange_priorityCalls hsize hs hinside
  have hblocks : priorityBlocksForFile turns filepath file zip = some (unduplicateAfter []
      ((priorityCalls s file.length zip).flatMap fun call => blockRange call.1 call.2)) := by
    rw [priorityBlocksForFile, if_pos hname, hs, bind_some, foldlM_appendBlocks hranges,
      map_some, nil_append]
  refine ⟨fun call hcall => (hranges call hcall).2.1, _, hblocks,
    priorityBlocks_nonneg hsize hinside hblocks, nodup_unduplicateAfter _ _, ?_⟩
  intro hpos
  obtain ⟨hlt, hnear⟩ := signerBlockOffset_bound hs hpos
  rw [priorityCalls, if_neg (not_lt.mpr hpos)]
  have hmem : ∀ b, ∀ call ∈ zipPriorityBlocks s file.length, call.1 ≤ b → b < call.1 + call.2 →
      b ∈ unduplicateAfter [] ((zipPriorityBlocks s file.length ++
        installationPriorityBlocks zip).flatMap fun call => blockRange call.1 call.2) := by
    intro b call hcall hlower hupper
    refine mem_unduplicateAfter.mpr ⟨mem_flatMap.mpr ⟨call, ?_, ?_⟩, not_mem_nil⟩
    · exact mem_append_left _ hcall
    · exact mem_blockRange.mpr ⟨hlower, hupper⟩
  rw [zipPriorityBlocks_eq hpos hlt hnear hsize] at hmem ⊢
  refine ⟨hlt, hmem 0 (0, 1) (by simp) le_rfl (by norm_num), fun b hlower hupper => ?_, ?_⟩
  · rcases lt_or_ge b (firstBlock s file.length) with hb | hb
    · refine hmem b (s / 4096, firstBlock s file.length - s / 4096) ?_ hlower (by dsimp only; omega)
      simp [hlower.trans_lt hb]
    · exact hmem b _ mem_cons_self hb (by dsimp only; omega)
  · exact unduplicateAfter_append (nodup_blockRange _ _) _ [] fun _ _ => not_mem_nil

end Blocks

/-! ### A signer at the end of a file -/

/-- A signer block with nothing in it, and the record of an empty central directory. -/
def signedTail : Bytes :=
  [24, 0, 0, 0, 0, 0, 0, 0, 24, 0, 0, 0, 0, 0, 0, 0] ++ ascii "APK Sig Block 42" ++
    eocdSignature ++ zeros 18

/-- So many zeros, and then a signer. -/
def signedFile (n : ℕ) : Bytes := zeros n ++ signedTail

theorem length_signedFile (n : ℕ) : (signedFile n).length = n + 54 := by
  rw [signedFile, length_append, zeros, length_replicate]
  rfl

theorem valueAt_signedFile {k n : ℕ} {offset : ℤ} (i : ℕ) (h : offset = n + i) :
    valueAt k (signedFile n) offset = valueAt k signedTail i := by
  obtain rfl : offset = ((n + i : ℕ) : ℤ) := h
  have htail : signedTail.length = 54 := rfl
  have hslice : sliceOf (signedFile n) (n + i) k = sliceOf signedTail i k := by
    have hzeros : (zeros n).length = n := length_replicate
    rw [← sliceOf_drop, signedFile, drop_left' hzeros]
  rw [valueAt, valueAt, preadExactly, preadExactly, length_signedFile, htail, Int.toNat_natCast,
    Int.toNat_natCast, hslice]
  split_ifs <;> first | rfl | omega

/-- The signing block of `signedFile n` begins at `n`. -/
theorem signerBlockOffset_signedFile (n : ℕ) :
    signerBlockOffset 1 (signedFile n) = some (n : ℤ) := by
  have hsize := length_signedFile n
  have hmax : maxEocdOffset (signedFile n) - 0 = n + 32 := by
    rw [maxEocdOffset, hsize, kZipEocdRecMinSize]
    omega
  have hmatch : Matches (signedFile n) 0 := by
    rw [Matches, hmax, valueAt_signedFile 32 (by omega),
      valueAt_signedFile 52 (by rw [kZipEocdCommentLengthFieldOffset]; omega)]
    decide
  have hloop : eocdLoop (signedFile n) 1 0 = some ((n : ℤ) + 32) := by
    rw [← hmax]
    exact @eocdLoop_match _ _ 0 (by omega) hmatch
  have hcd : centralDirOffset 1 (signedFile n) = some ((n : ℤ) + 32) := by
    rw [centralDirOffset, hloop, map_some, if_neg (by omega),
      valueAt_signedFile 44 (by rw [kZipEocdCentralDirSizeFieldOffset]; omega)]
    have hzero : valueAt 4 signedTail (44 : ℕ) = 0 := by decide
    rw [hzero, sub_zero]
  have hfooter : valueAt 4 (signedFile n) ((n : ℤ) + 32 - kApkSigBlockFooterSize) = 24 := by
    rw [valueAt_signedFile 8 (by rw [kApkSigBlockFooterSize]; omega)]
    decide
  have hoffset : (n : ℤ) + 32 - 24 - 8 = n := by omega
  rw [signerBlockOffset, hcd, map_some, signerBlockOffsetAt, hfooter, hoffset,
    if_neg (by omega), if_neg, if_neg (by omega), if_neg]
  · rw [valueAt_signedFile 0 (add_zero _).symm]
    decide
  · rw [valueAt_signedFile 16 (by omega), valueAt_signedFile 24 (by omega), kApkSigBlockMinSize]
    have hmagic : valueAt 8 signedTail (16 : ℕ) = apkSigBlockMagicLo ∧
        valueAt 8 signedTail (24 : ℕ) = apkSigBlockMagicHi := by decide
    simp only [hmagic, ne_eq, not_true_eq_false, or_false]
    omega

/-- A file of three blocks. -/
theorem priorityBlocks_spec_small :
    ∃ blocks, priorityBlocksForFile 1 (ascii "a.apk") (signedFile 8192)
        (some [⟨ascii "classes.dex", 4096, true, 1, 1, false⟩]) = some blocks ∧
      blocks.Nodup ∧ 0 ∈ blocks := by
  obtain ⟨-, blocks, hblocks, -, hnodup, hsigner⟩ := @priorityBlocks_spec (ascii "a.apk")
    (signedFile 8192) 1 8192 (some [⟨ascii "classes.dex", 4096, true, 1, 1, false⟩]) (by decide)
    (by rw [length_signedFile]; norm_num) (signerBlockOffset_signedFile 8192) fun e he => by
      rw [mem_singleton.mp he, ZipEntry.Inside, length_signedFile]
      decide
  exact ⟨blocks, hblocks, hnodup, (hsigner (by norm_num)).2.1⟩

/-- **The second block of `classes.dex` has no index**, in a file of less than 2^43 bytes. -/
theorem priorityBlocks_undefined :
    (signedFile (2 ^ 43 - 4096)).length < 2 ^ 43 ∧
      (⟨ascii "classes.dex", 2 ^ 43 - 4096, true, 1, 1, false⟩ : ZipEntry).Inside
        (signedFile (2 ^ 43 - 4096)).length ∧
      priorityBlocksForFile 1 (ascii "a.apk") (signedFile (2 ^ 43 - 4096))
        (some [⟨ascii "classes.dex", 2 ^ 43 - 4096, true, 1, 1, false⟩]) = none := by
  rw [priorityBlocksForFile, signerBlockOffset_signedFile, ZipEntry.Inside, length_signedFile]
  refine ⟨by norm_num, ⟨by norm_num, by decide⟩, ?_⟩
  rw [if_pos (by decide), bind_some]
  decide +kernel

end AdbBridge.Incremental
