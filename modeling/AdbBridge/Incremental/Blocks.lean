import AdbBridge.Types.Bytes

/-!
# Files in blocks

The incremental server sends a file in blocks of 4 KiB, in any order, and with them the
blocks of its verity tree: one hash for every block of the level below, 128 hashes in a
block, up to a single block. The blocks of the tree are numbered from the top, so that the
leaves come last.

The number of blocks is an `int32_t`, and a `File` is made only where it did not wrap to
something negative. Where a signature gives the size of the tree, the size is an `int32_t`
as well, and has to be the one that is expected: such a file is far too small to wrap.

`leafNodesOffset` is where the leaves begin. A file of one block has no tree at all, but the
code that counts the leaves still finds one: the leaves then begin at `-1`.
-/

namespace AdbBridge.Incremental

def kBlockSize : ℕ := 4096

def kDigestSize : ℕ := 32

def kHashesPerBlock : ℕ := kBlockSize / kDigestSize

/-- A conversion to `int16_t`. -/
def toInt16 (n : ℤ) : ℤ := n.bmod (2 ^ 16)

/-- A conversion to `int32_t`. -/
def toInt32 (n : ℤ) : ℤ := n.bmod (2 ^ 32)

theorem toInt32_of_lt {n : ℤ} (h : 0 ≤ n) (hlt : n < 2 ^ 31) : toInt32 n = n := by
  simp only [toInt32, Int.bmod]
  omega

/-- An element of a vector. The vector is not asked whether it has one. -/
def entry {α : Type*} (v : List α) (i : ℤ) : Option α := if 0 ≤ i then v[i.toNat]? else none

/-- An assignment to an element of a vector. -/
def assign {α : Type*} (v : List α) (i : ℤ) (x : α) : List α := v.set i.toNat x

/-! ### Counting blocks -/

/-- How many blocks hold so many things, `perBlock` in each. -/
def blocksFor (perBlock n : ℕ) : ℕ := (n + perBlock - 1) / perBlock

def numBytesToNumBlocks (bytes : ℕ) : ℤ := toInt32 (blocksFor kBlockSize bytes)

/-- The loop of `verity_tree_blocks_for_file`: the levels above one of `hashBlockCount`
blocks. Every level is smaller than the one below, so the number of blocks is fuel enough. -/
def levelsAbove : ℕ → ℕ → ℕ
  | 0, _ => 0
  | fuel + 1, hashBlockCount =>
    if 1 < hashBlockCount then
      blocksFor kHashesPerBlock hashBlockCount +
        levelsAbove fuel (blocksFor kHashesPerBlock hashBlockCount)
    else 0

def verityTreeBlocksForFile (fileSize : ℕ) : ℕ :=
  let blockCount := blocksFor kBlockSize fileSize
  levelsAbove blockCount blockCount

def verityTreeSizeForFile (fileSize : ℕ) : ℕ := verityTreeBlocksForFile fileSize * kBlockSize

variable {n : ℕ}

theorem blocksFor_hashes_lt (h : 1 < n) : blocksFor kHashesPerBlock n < n := by
  simp only [blocksFor, kHashesPerBlock, kBlockSize, kDigestSize]
  omega

/-- More fuel than blocks changes nothing. -/
theorem levelsAbove_of_le {fuel : ℕ} (h : n ≤ fuel) : levelsAbove fuel n = levelsAbove n n := by
  induction n using Nat.strong_induction_on generalizing fuel with
  | _ n ih =>
    match fuel, n with
    | 0, 0 => rfl
    | fuel + 1, 0 => simp [levelsAbove]
    | fuel + 1, n + 1 =>
      rw [levelsAbove, levelsAbove]
      by_cases hn : 1 < n + 1
      · have hlt := blocksFor_hashes_lt hn
        rw [if_pos hn, if_pos hn, ih _ hlt (by omega : _ ≤ fuel), ih _ hlt (by omega : _ ≤ n)]
      · rw [if_neg hn, if_neg hn]

/-- The tree over more than one block has the leaves and the tree over them. -/
theorem levelsAbove_self (h : 1 < n) :
    levelsAbove n n = blocksFor kHashesPerBlock n +
      levelsAbove (blocksFor kHashesPerBlock n) (blocksFor kHashesPerBlock n) := by
  have hlt := blocksFor_hashes_lt h
  obtain ⟨m, rfl⟩ : ∃ m, n = m + 1 := ⟨n - 1, by omega⟩
  conv_lhs => rw [levelsAbove, if_pos h, levelsAbove_of_le (by omega : _ ≤ m)]

theorem levelsAbove_of_le_one (h : n ≤ 1) : levelsAbove n n = 0 := by
  match n with
  | 0 => rfl
  | 1 => rfl

/-! ### Files -/

/-- What the command line names: the size of a file, the size of the verity tree in its
signature file if it has one, and the blocks `PriorityBlocksForFile` finds. -/
structure Source where
  size : ℕ
  signature : Option ℤ := none
  priorityBlocks : List ℤ := []
  deriving DecidableEq, Repr

/-- The streaming state of a file. -/
structure File where
  id : ℤ
  size : ℕ
  hasTree : Bool
  priorityBlocks : List ℤ
  sentBlocks : List Bool
  sentBlocksCount : ℤ
  sentTreeBlocks : List Bool
  /-- There is a flag for every block. -/
  blocks : (sentBlocks.length : ℤ) = numBytesToNumBlocks size
  /-- There is a flag for every block of the tree. -/
  treeBlocks : sentTreeBlocks.length = verityTreeBlocksForFile size
  /-- The size of a tree is an `int32_t`. -/
  small : hasTree = true → verityTreeSizeForFile size < 2 ^ 31
  deriving DecidableEq, Repr

/-- `open_signature` and the constructor of `File`. There is no file where the tree has
not the size that is expected, and where the number of blocks is negative. -/
def Source.open (src : Source) (i : ℕ) : Option File :=
  if hblocks : 0 ≤ numBytesToNumBlocks src.size then
    if hsig : ∀ t ∈ src.signature, t = verityTreeSizeForFile src.size ∧ t < 2 ^ 31 then
      some
        { id := toInt16 i
          size := src.size
          hasTree := src.signature.isSome
          priorityBlocks := src.priorityBlocks
          sentBlocks := List.replicate (numBytesToNumBlocks src.size).toNat false
          sentBlocksCount := 0
          sentTreeBlocks := List.replicate (verityTreeBlocksForFile src.size) false
          blocks := by rw [List.length_replicate, Int.toNat_of_nonneg hblocks]
          treeBlocks := List.length_replicate
          small := by
            intro h
            obtain ⟨t, ht⟩ := Option.isSome_iff_exists.mp h
            have := hsig t ht
            omega }
    else none
  else none

namespace File

variable {f : File} {i : ℤ}

/-- A data block has been sent. -/
def markBlock (f : File) (i : ℤ) : File :=
  { f with
    sentBlocks := assign f.sentBlocks i true
    sentBlocksCount := f.sentBlocksCount + 1
    blocks := by rw [assign, List.length_set, f.blocks] }

/-- A block of the tree has been sent. -/
def markTreeBlock (f : File) (j : ℤ) : File :=
  { f with
    sentTreeBlocks := assign f.sentTreeBlocks j true
    treeBlocks := by rw [assign, List.length_set, f.treeBlocks] }

/-- How many blocks of the tree are leaves, as `SendTreeBlocksForDataBlock` counts them. -/
def leafNodesCount (f : File) : ℤ :=
  (numBytesToNumBlocks f.size + kHashesPerBlock - 1).tdiv kHashesPerBlock

/-- Where the leaves begin. -/
def leafNodesOffset (f : File) : ℤ := toInt32 f.sentTreeBlocks.length - f.leafNodesCount

/-- The leaf that a data block is hashed in. -/
def leafIdx (f : File) (i : ℤ) : ℤ := f.leafNodesOffset + i.tdiv kHashesPerBlock

/-- Every block has been sent, as `Serve` counts. -/
def complete (f : File) : Bool := f.sentBlocksCount == toInt32 f.sentBlocks.length

/-! ### Where the leaves are -/

theorem length_sentBlocks_lt (f : File) : (f.sentBlocks.length : ℤ) < 2 ^ 31 := by
  rw [f.blocks, numBytesToNumBlocks, toInt32]
  exact Int.bmod_lt (by norm_num)

theorem toInt32_length (f : File) : toInt32 f.sentBlocks.length = f.sentBlocks.length :=
  toInt32_of_lt (Int.natCast_nonneg _) f.length_sentBlocks_lt

/-- With a tree, the number of blocks has not wrapped. -/
theorem length_sentBlocks_of_hasTree (h : f.hasTree = true) :
    f.sentBlocks.length = blocksFor kBlockSize f.size := by
  have hlt : blocksFor kBlockSize f.size < 2 ^ 31 := by
    have hsmall := f.small h
    rw [verityTreeSizeForFile, verityTreeBlocksForFile] at hsmall
    generalize blocksFor kBlockSize f.size = n at hsmall ⊢
    by_cases hn : 1 < n
    · -- The leaves alone are fewer than `2 ^ 19`.
      simp only [levelsAbove_self hn] at hsmall
      simp only [blocksFor, kHashesPerBlock, kBlockSize, kDigestSize] at hsmall
      omega
    · omega
  have hblocks := f.blocks
  rw [numBytesToNumBlocks, toInt32_of_lt (Int.natCast_nonneg _) (by exact_mod_cast hlt)] at hblocks
  exact_mod_cast hblocks

theorem leafNodesCount_eq (f : File) :
    f.leafNodesCount = blocksFor kHashesPerBlock f.sentBlocks.length := by
  rw [leafNodesCount, ← f.blocks, blocksFor]
  have hpos : (0 : ℤ) ≤ f.sentBlocks.length + kHashesPerBlock - 1 := by
    simp only [kHashesPerBlock, kBlockSize, kDigestSize]
    omega
  rw [Int.tdiv_eq_ediv_of_nonneg hpos]
  simp only [kHashesPerBlock, kBlockSize, kDigestSize]
  omega

theorem length_sentTreeBlocks_of_hasTree (h : f.hasTree = true) :
    f.sentTreeBlocks.length = levelsAbove f.sentBlocks.length f.sentBlocks.length := by
  rw [f.treeBlocks, verityTreeBlocksForFile, length_sentBlocks_of_hasTree h]

theorem toInt32_length_sentTreeBlocks (h : f.hasTree = true) :
    toInt32 f.sentTreeBlocks.length = f.sentTreeBlocks.length := by
  refine toInt32_of_lt (Int.natCast_nonneg _) ?_
  have hsmall := f.small h
  rw [verityTreeSizeForFile, ← f.treeBlocks, kBlockSize] at hsmall
  omega

/-- **The leaves of a tree are its last blocks**, one of them for every data block. -/
theorem leafNodesOffset_add (h : f.hasTree = true) :
    f.leafNodesOffset + blocksFor kHashesPerBlock f.sentBlocks.length =
      f.sentTreeBlocks.length := by
  rw [leafNodesOffset, toInt32_length_sentTreeBlocks h, leafNodesCount_eq]
  omega

theorem leafNodesOffset_nonneg (h : f.hasTree = true) (hone : f.sentBlocks.length ≠ 1) :
    0 ≤ f.leafNodesOffset := by
  have hadd := leafNodesOffset_add h
  rw [length_sentTreeBlocks_of_hasTree h] at hadd
  generalize f.sentBlocks.length = n at hadd hone
  by_cases hn : 1 < n
  · rw [levelsAbove_self hn] at hadd
    omega
  · obtain rfl : n = 0 := by omega
    simp only [blocksFor, kHashesPerBlock, kBlockSize, kDigestSize, levelsAbove] at hadd
    omega

/-- **The leaf of a data block is a leaf.** -/
theorem leafIdx_range (h : f.hasTree = true) (hi : 0 ≤ i) (hlt : i < f.sentBlocks.length) :
    f.leafNodesOffset ≤ f.leafIdx i ∧ f.leafIdx i < f.sentTreeBlocks.length := by
  have hadd := leafNodesOffset_add h
  rw [leafIdx, Int.tdiv_eq_ediv_of_nonneg hi]
  simp only [blocksFor, kHashesPerBlock, kBlockSize, kDigestSize] at hadd ⊢
  omega

/-- **A file of one block has its only leaf before the beginning of its tree.** -/
theorem leafIdx_of_one_block (h : f.hasTree = true) (hone : f.sentBlocks.length = 1) :
    f.leafIdx 0 = -1 := by
  have hadd := leafNodesOffset_add h
  rw [length_sentTreeBlocks_of_hasTree h, hone, levelsAbove_of_le_one le_rfl] at hadd
  rw [leafIdx, Int.zero_tdiv]
  simp only [blocksFor, kHashesPerBlock, kBlockSize, kDigestSize] at hadd ⊢
  omega

end File

end AdbBridge.Incremental
