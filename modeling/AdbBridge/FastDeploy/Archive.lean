import AdbBridge.Lib.Slices
import AdbBridge.Types.Bytes

/-!
# The central directory of an APK

A fast deployment sends only what has changed of an APK. What is on the device already is
found by the records of the central directory: the device sends its directory, the host
reads its own, and two entries are taken for the same if their records have the same MD5
digest. A record holds the place of the entry in the file, so that entries with the same
record are at the same place (`AdbBridge.FastDeploy.ofRecord`); that is what the generator
of the patch relies on.

The length of a record is not compared with what is left of the directory. A directory whose
last record is cut short is read past its end; there is no result for it here.
-/

namespace AdbBridge.FastDeploy

/-! ### Numbers in a file -/

/-- The `uint16_t` at an offset. -/
def u16 (bs : Bytes) (off : ℕ) : ℕ := leNat (sliceOf bs off 2)

/-- The `uint32_t` at an offset. -/
def u32 (bs : Bytes) (off : ℕ) : ℕ := leNat (sliceOf bs off 4)

variable {bs : Bytes} {off n : ℕ}

theorem leNat_sliceOf_lt : leNat (sliceOf bs off n) < 256 ^ n :=
  (leNat_lt _).trans_le (Nat.pow_le_pow_right (by decide) length_sliceOf_le)

theorem u16_lt : u16 bs off < 2 ^ 16 := leNat_sliceOf_lt

theorem u32_lt : u32 bs off < 2 ^ 32 := leNat_sliceOf_lt

theorem u16_take (h : off + 2 ≤ n) : u16 (bs.take n) off = u16 bs off := by
  rw [u16, sliceOf_take h, u16]

theorem u32_take (h : off + 4 ≤ n) : u32 (bs.take n) off = u32 bs off := by
  rw [u32, sliceOf_take h, u32]

/-! ### Central directory records -/

/-- `sizeof(CentralDirectoryRecord)`. -/
def cdRecordSize : ℕ := 46

/-- `sizeof(LocalFileHeader)`. -/
def kLocalFileHeaderSize : ℕ := 30

/-- `sizeof(DataDescriptor)`. -/
def kDataDescriptorSize : ℕ := 12

/-- `APKEntry`. -/
structure ApkEntry (Digest : Type) where
  md5 : Digest
  dataOffset : ℕ
  dataSize : ℕ
  deriving DecidableEq, Repr

/-- The length of the record at the beginning of the input, with the name, the extra field
and the comment. -/
def recordLength (input : Bytes) : ℕ :=
  cdRecordSize + u16 input 28 + u16 input 30 + u16 input 32

/-- What `ParseCentralDirectoryRecord` comes to. -/
inductive Parsed (Digest : Type)
  /-- `0`: there is no record. -/
  | nothing
  /-- The record does not end within the input. -/
  | overrun
  /-- The number of bytes consumed, the digest of the record, and what it says about the
  entry. -/
  | record (consumed : ℕ) (md5Hash : Digest) (localFileHeaderOffset dataSize : ℕ)

variable {Digest : Type}

/-- `ApkArchive::ParseCentralDirectoryRecord`. -/
def parseCentralDirectoryRecord (md5 : Bytes → Digest) (input : Bytes) : Parsed Digest :=
  if input.length < cdRecordSize then .nothing
  else if u32 input 0 ≠ 0x02014b50 then .nothing
  else if input.length < recordLength input then .overrun
  else
    .record (recordLength input) (md5 (input.take (recordLength input))) (u32 input 42)
      (if u16 input 10 = 0 then u32 input 24 else u32 input 20)

/-- The loop of `PatchUtils::GetDeviceAPKMetaData`. A round consumes a byte at least, so that
as many rounds as there are bytes are enough. -/
def parseEntries (md5 : Bytes → Digest) : ℕ → Bytes → Option (List (ApkEntry Digest))
  | 0, _ => some []
  | n + 1, cur =>
    match parseCentralDirectoryRecord md5 cur with
    | .nothing => some []
    | .overrun => none
    | .record consumed md5Hash offset dataSize =>
      (parseEntries md5 n (cur.drop consumed)).map (⟨md5Hash, offset, dataSize⟩ :: ·)

/-- `PatchUtils::GetDeviceAPKMetaData`: the entries of a central directory. -/
def getDeviceAPKMetaData (md5 : Bytes → Digest) (cd : Bytes) : Option (List (ApkEntry Digest)) :=
  parseEntries md5 cd.length cd

/-- The bytes of the records, one after the other. -/
def splitRecords : ℕ → Bytes → List Bytes
  | 0, _ => []
  | n + 1, cur =>
    if cur.length < cdRecordSize ∨ u32 cur 0 ≠ 0x02014b50 then []
    else cur.take (recordLength cur) :: splitRecords n (cur.drop (recordLength cur))

/-- The records of a central directory. -/
def cdRecords (cd : Bytes) : List Bytes := splitRecords cd.length cd

/-- The entry a record describes. -/
def ofRecord (md5 : Bytes → Digest) (r : Bytes) : ApkEntry Digest where
  md5 := md5 r
  dataOffset := u32 r 42
  dataSize := if u16 r 10 = 0 then u32 r 24 else u32 r 20

variable {md5 : Bytes → Digest} {cd input : Bytes} {entries : List (ApkEntry Digest)}

theorem cdRecordSize_le_recordLength : cdRecordSize ≤ recordLength input := by
  unfold recordLength
  omega

/-- What is read from the fixed fields of a record is in the record. -/
theorem ofRecord_take : ofRecord md5 (input.take (recordLength input)) =
    ⟨md5 (input.take (recordLength input)), u32 input 42,
      if u16 input 10 = 0 then u32 input 24 else u32 input 20⟩ := by
  have h : cdRecordSize ≤ recordLength input := cdRecordSize_le_recordLength
  unfold cdRecordSize at h
  unfold ofRecord
  rw [u32_take (by omega), u16_take (by omega), u32_take (by omega), u32_take (by omega)]

/-- The entries are those of the records. -/
theorem parseEntries_eq (h : parseEntries md5 n cd = some entries) :
    entries = (splitRecords n cd).map (ofRecord md5) := by
  induction n generalizing cd entries with
  | zero => exact (Option.some.inj h).symm
  | succ n ih =>
    rw [parseEntries, parseCentralDirectoryRecord] at h
    rw [splitRecords]
    by_cases hshort : cd.length < cdRecordSize
    · rw [if_pos hshort] at h
      rw [if_pos (Or.inl hshort)]
      exact (Option.some.inj h).symm
    rw [if_neg hshort] at h
    by_cases hmagic : u32 cd 0 ≠ 0x02014b50
    · rw [if_pos hmagic] at h
      rw [if_pos (Or.inr hmagic)]
      exact (Option.some.inj h).symm
    rw [if_neg hmagic] at h
    rw [if_neg (by tauto)]
    by_cases hover : cd.length < recordLength cd
    · rw [if_pos hover] at h
      exact absurd h (by simp)
    rw [if_neg hover] at h
    obtain ⟨rest, hrest, rfl⟩ := Option.map_eq_some_iff.mp h
    rw [List.map_cons, ← ih hrest, ofRecord_take]

theorem getDeviceAPKMetaData_eq (h : getDeviceAPKMetaData md5 cd = some entries) :
    entries = (cdRecords cd).map (ofRecord md5) := parseEntries_eq h

/-- A record takes 46 bytes at least. -/
theorem length_splitRecords (n : ℕ) : cdRecordSize * (splitRecords n cd).length ≤ cd.length := by
  induction n generalizing cd with
  | zero => exact Nat.zero_le _
  | succ n ih =>
    rw [splitRecords]
    split
    · exact Nat.zero_le _
    · rename_i hrecord
      have hrest := @ih (cd.drop (recordLength cd))
      have hpos : cdRecordSize ≤ recordLength cd := cdRecordSize_le_recordLength
      have hlong : cdRecordSize ≤ cd.length := not_lt.mp fun hshort => hrecord (Or.inl hshort)
      rw [List.length_drop] at hrest
      rw [List.length_cons, Nat.mul_succ]
      omega

/-! ### Local file entries -/

/-- The size that a header or a descriptor gives, with the compressed size at one offset and
the uncompressed size right after it. -/
def sizeField (file : Bytes) (header sizes : ℕ) : ℕ :=
  if u16 file (header + 8) = 0 then u32 file (sizes + 4) else u32 file sizes

/-- `ApkArchive::CalculateLocalFileEntrySize`: `0` for an entry that is not as the record
says. -/
def calculateLocalFileEntrySize (file : Bytes) (localFileHeaderOffset dataSize : ℕ) : ℕ :=
  let lfh := localFileHeaderOffset
  if file.length < lfh + kLocalFileHeaderSize then 0
  else if u32 file lfh ≠ 0x04034b50 then 0
  else
    let length := kLocalFileHeaderSize + u16 file (lfh + 26) + u16 file (lfh + 28) + dataSize
    let ddOffset := lfh + length
    if (u16 file (lfh + 6)).testBit 3 then
      -- There is a data descriptor behind the data, with or without a signature.
      if file.length < ddOffset + 4 then 0
      else
        let magic := if u32 file ddOffset = 0x08074b50 then 4 else 0
        if file.length < ddOffset + magic + kDataDescriptorSize then 0
        else if sizeField file lfh (ddOffset + magic + 4) ≠ dataSize then 0
        else length + magic + kDataDescriptorSize
    else if sizeField file lfh (lfh + 18) ≠ dataSize then 0
    else length

/-- An entry is not larger than its parts can be. -/
theorem calculateLocalFileEntrySize_le (file : Bytes) (lfh dataSize : ℕ) :
    calculateLocalFileEntrySize file lfh dataSize ≤ dataSize + 2 ^ 18 := by
  have hname : u16 file (lfh + 26) < 2 ^ 16 := u16_lt
  have hextra : u16 file (lfh + 28) < 2 ^ 16 := u16_lt
  unfold calculateLocalFileEntrySize kLocalFileHeaderSize kDataDescriptorSize
  simp only
  split_ifs <;> omega

/-- The size of the local file entry that belongs to a record. -/
def entrySize (file r : Bytes) : ℕ :=
  calculateLocalFileEntrySize file (u32 r 42) (if u16 r 10 = 0 then u32 r 24 else u32 r 20)

/-- The local file entry that belongs to a record. -/
def localFileEntry (file r : Bytes) : Bytes := sliceOf file (u32 r 42) (entrySize file r)

/-- The entry of the host that belongs to a record. -/
def hostEntry (md5 : Bytes → Digest) (file r : Bytes) : ApkEntry Digest :=
  { ofRecord md5 r with dataSize := entrySize file r }

theorem entrySize_lt (file r : Bytes) : entrySize file r < 2 ^ 33 := by
  have hsize : (if u16 r 10 = 0 then u32 r 24 else u32 r 20) < 2 ^ 32 := by
    split <;> exact u32_lt
  have hle := calculateLocalFileEntrySize_le file (u32 r 42)
    (if u16 r 10 = 0 then u32 r 24 else u32 r 20)
  unfold entrySize
  omega

end AdbBridge.FastDeploy
