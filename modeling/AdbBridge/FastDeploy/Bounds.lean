import AdbBridge.FastDeploy.Archive

/-!
# Reading a central directory within its bounds

`ParseCentralDirectoryRecord` gets a pointer and a size. It compares the size with the fixed
part of a record only; the three lengths in the record then say how far it hashes and how much
it consumes. The loop around it keeps the remaining size in an `int64_t` and passes it on as a
`size_t`, so that a size below zero is a very large one.

Here the directory is the beginning of a memory, and every call records what it reads. The
parser stays inside the directory, whatever comes behind it, exactly if every record that the
walk over the directory arrives at ends within the directory
(`AdbBridge.FastDeploy.staysInside_iff_recordsEnd`). Then it finds what
`AdbBridge.FastDeploy.getDeviceAPKMetaData` finds.
-/

namespace AdbBridge.FastDeploy

open List

/-- `kCDFileHeaderMagic`. -/
def kCDFileHeaderMagic : ℕ := 0x02014b50

/-! ### The parser over a memory -/

/-- The `uint16_t` at an address. -/
def u16At (mem : ℕ → UInt8) (a : ℕ) : ℕ := leNat (window mem a 2)

/-- The `uint32_t` at an address. -/
def u32At (mem : ℕ → UInt8) (a : ℕ) : ℕ := leNat (window mem a 4)

/-- A range of addresses. -/
structure Extent where
  start : ℕ
  size : ℕ
  deriving DecidableEq, Repr

/-- The range ends within so many bytes. -/
def Extent.Inside (e : Extent) (n : ℕ) : Prop := e.start + e.size ≤ n

/-- What a call of `ParseCentralDirectoryRecord` does: what it reads and hashes, what it
returns, and the entry that it stores. -/
structure ParseCall (Digest : Type) where
  reads : List Extent
  consumed : ℕ
  entry : Option (ApkEntry Digest)

variable {Digest : Type}

/-- `ApkArchive::ParseCentralDirectoryRecord`, with the input at an address. -/
def parseCentralDirectoryRecordAt (md5 : Bytes → Digest) (mem : ℕ → UInt8) (input size : ℕ) :
    ParseCall Digest :=
  if size < cdRecordSize then ⟨[], 0, none⟩
  else if u32At mem input ≠ kCDFileHeaderMagic then ⟨[⟨input, 4⟩], 0, none⟩
  else
    let length := cdRecordSize + u16At mem (input + 28) + u16At mem (input + 30) +
      u16At mem (input + 32)
    let dataSizeAt := if u16At mem (input + 10) = 0 then input + 24 else input + 20
    { reads := [⟨input, 4⟩, ⟨input + 28, 2⟩, ⟨input + 30, 2⟩, ⟨input + 32, 2⟩, ⟨input, length⟩,
        ⟨input + 42, 4⟩, ⟨input + 10, 2⟩, ⟨dataSizeAt, 4⟩]
      consumed := length
      entry := some ⟨md5 (window mem input length), u32At mem (input + 42),
        u32At mem dataSizeAt⟩ }

/-- An `int64_t` passed for a `size_t`. -/
def asSize (size : ℤ) : ℕ := if size < 0 then (size + 2 ^ 64).toNat else size.toNat

/-- The loop of `PatchUtils::GetDeviceAPKMetaData`: the calls with the size that remains before
each, or `none` if the loop is not over after so many rounds. -/
def parseEntriesAt (md5 : Bytes → Digest) (mem : ℕ → UInt8) :
    ℕ → ℕ → ℤ → Option (List (ℤ × ParseCall Digest))
  | 0, _, _ => none
  | n + 1, cur, size =>
    let call := parseCentralDirectoryRecordAt md5 mem cur (asSize size)
    if call.consumed = 0 then some [(size, call)]
    else
      (parseEntriesAt md5 mem n (cur + call.consumed) (size - call.consumed)).map
        ((size, call) :: ·)

/-- **The parser stays inside its input**: whatever the memory holds behind the directory, the
loop comes to its end, all that is read or hashed is in the directory, and no call consumes
more than what remains. -/
def StaysInside (md5 : Bytes → Digest) (cd : Bytes) : Prop :=
  ∀ mem : ℕ → UInt8, window mem 0 cd.length = cd → ∃ n calls,
    parseEntriesAt md5 mem n 0 cd.length = some calls ∧
      ∀ c ∈ calls, (∀ e ∈ c.2.reads, e.Inside cd.length) ∧ (c.2.consumed : ℤ) ≤ c.1

/-! ### The records of a directory -/

/-- Bytes that begin with the fixed part of a record. -/
def BeginsRecord (bs : Bytes) : Prop := cdRecordSize ≤ bs.length ∧ u32 bs 0 = kCDFileHeaderMagic

/-- Bytes that are a record. -/
def IsRecord (bs : Bytes) : Prop := BeginsRecord bs ∧ recordLength bs = bs.length

/-- **Every record ends within the directory**: behind any number of records from the
beginning on, the next one has all its bytes. -/
def RecordsEnd (cd : Bytes) : Prop :=
  ∀ (records : List Bytes) (rest : Bytes), cd = records.flatten ++ rest → (∀ r ∈ records,
    IsRecord r) →
    BeginsRecord rest → recordLength rest ≤ rest.length

variable {md5 : Bytes → Digest} {mem : ℕ → UInt8} {cur off : ℕ} {rest : Bytes} {n : ℕ}

/-- A record that is cut off what begins with it. -/
theorem isRecord_take (h : BeginsRecord rest) (hlen : recordLength rest ≤ rest.length) :
    IsRecord (rest.take (recordLength rest)) := by
  have hpos : cdRecordSize ≤ recordLength rest := cdRecordSize_le_recordLength
  have hlength : (rest.take (recordLength rest)).length = recordLength rest :=
    length_take_of_le hlen
  refine ⟨⟨hpos.trans hlength.ge, ?_⟩, ?_⟩
  · rw [u32_take (by unfold cdRecordSize at hpos; omega)]
    exact h.2
  · unfold cdRecordSize at hpos
    rw [hlength, recordLength, u16_take (by omega), u16_take (by omega), u16_take (by omega)]
    rfl

/-- A record with something behind it. -/
theorem IsRecord.append {r : Bytes} (h : IsRecord r) (rest : Bytes) :
    BeginsRecord (r ++ rest) ∧ recordLength (r ++ rest) = r.length := by
  obtain ⟨⟨hlong, hmagic⟩, hlen⟩ := h
  have htake : (r ++ rest).take r.length = r := take_left
  unfold cdRecordSize at hlong
  constructor
  · refine ⟨by rw [length_append, cdRecordSize]; omega, ?_⟩
    rw [← hmagic, ← u32_take (n := r.length) (by omega), htake]
  · have hfield : ∀ off, off + 2 ≤ r.length → u16 (r ++ rest) off = u16 r off := by
      intro off hoff
      rw [← u16_take hoff, htake]
    rw [← hlen, recordLength, hfield 28 (by omega), hfield 30 (by omega), hfield 32 (by omega)]
    rfl

/-- Behind a record, the others still end. -/
theorem RecordsEnd.drop (h : RecordsEnd rest) (hbegins : BeginsRecord rest) :
    RecordsEnd (rest.drop (recordLength rest)) := by
  intro records rest' heq hrecords hbegins'
  have hlen : recordLength rest ≤ rest.length := h [] rest rfl (by simp) hbegins
  refine h (rest.take (recordLength rest) :: records) rest' ?_ ?_ hbegins'
  · rw [flatten_cons, append_assoc, ← heq, take_append_drop]
  · intro r hr
    rcases mem_cons.mp hr with rfl | hr
    · exact isRecord_take hbegins hlen
    · exact hrecords r hr

/-! ### A call inside the directory -/

theorem u16At_eq (h : window mem cur rest.length = rest) (hoff : off + 2 ≤ rest.length) :
    u16At mem (cur + off) = u16 rest off := by
  rw [u16, ← h, sliceOf_window hoff]
  rfl

theorem u32At_eq (h : window mem cur rest.length = rest) (hoff : off + 4 ≤ rest.length) :
    u32At mem (cur + off) = u32 rest off := by
  rw [u32, ← h, sliceOf_window hoff]
  rfl

@[simp]
theorem asSize_natCast (n : ℕ) : asSize n = n := by
  rw [asSize, if_neg (not_lt.mpr (Int.natCast_nonneg n)), Int.toNat_natCast]

/-- A call that finds no record. -/
theorem parseAt_of_not_beginsRecord (md5 : Bytes → Digest)
    (h : window mem cur rest.length = rest) (hbegins : ¬ BeginsRecord rest) :
    let call := parseCentralDirectoryRecordAt md5 mem cur rest.length
    call.consumed = 0 ∧ call.entry = none ∧ ∀ e ∈ call.reads, e.Inside (cur + rest.length) := by
  unfold parseCentralDirectoryRecordAt
  by_cases hshort : rest.length < cdRecordSize
  · rw [if_pos hshort]
    exact ⟨rfl, rfl, by simp⟩
  have hmagic : u32At mem cur ≠ kCDFileHeaderMagic := by
    have h0 : u32At mem (cur + 0) = u32 rest 0 :=
      u32At_eq h (by unfold cdRecordSize at hshort; omega)
    rw [Nat.add_zero] at h0
    rw [h0]
    exact fun hm => hbegins ⟨not_lt.mp hshort, hm⟩
  rw [if_neg hshort, if_pos hmagic]
  refine ⟨rfl, rfl, fun e he => ?_⟩
  rw [mem_singleton.mp he, Extent.Inside]
  unfold cdRecordSize at hshort
  simp only
  omega

/-- What a call on a record consumes. -/
theorem parseAt_consumed (md5 : Bytes → Digest) (h : window mem cur rest.length = rest)
    (hbegins : BeginsRecord rest) :
    (parseCentralDirectoryRecordAt md5 mem cur rest.length).consumed = recordLength rest := by
  obtain ⟨hlong, hmagic⟩ := hbegins
  have hmagicAt : u32At mem (cur + 0) = u32 rest 0 :=
    u32At_eq h (by unfold cdRecordSize at hlong; omega)
  rw [Nat.add_zero, hmagic] at hmagicAt
  unfold parseCentralDirectoryRecordAt
  rw [if_neg (not_lt.mpr hlong), if_neg (not_not.mpr hmagicAt)]
  unfold cdRecordSize at hlong
  simp only
  rw [u16At_eq h (by omega), u16At_eq h (by omega), u16At_eq h (by omega)]
  rfl

/-- A call on a record with all its bytes reads nothing else, and finds the entry. -/
theorem parseAt_of_recordLength_le (md5 : Bytes → Digest)
    (h : window mem cur rest.length = rest) (hbegins : BeginsRecord rest)
    (hlen : recordLength rest ≤ rest.length) :
    let call := parseCentralDirectoryRecordAt md5 mem cur rest.length
    call.entry = some (ofRecord md5 (rest.take (recordLength rest))) ∧
      ∀ e ∈ call.reads, e.Inside (cur + rest.length) := by
  have hconsumed := parseAt_consumed md5 h hbegins
  obtain ⟨hlong, hmagic⟩ := hbegins
  have hmagicAt : u32At mem (cur + 0) = u32 rest 0 :=
    u32At_eq h (by unfold cdRecordSize at hlong; omega)
  rw [Nat.add_zero, hmagic] at hmagicAt
  unfold parseCentralDirectoryRecordAt at hconsumed ⊢
  rw [if_neg (not_lt.mpr hlong), if_neg (not_not.mpr hmagicAt)] at hconsumed ⊢
  simp only at hconsumed ⊢
  have hwindow : window mem cur (recordLength rest) = rest.take (recordLength rest) := by
    have hslice : sliceOf (window mem cur rest.length) 0 (recordLength rest) =
        window mem (cur + 0) (recordLength rest) := sliceOf_window (by omega)
    rw [h] at hslice
    exact hslice.symm
  unfold cdRecordSize at hlong
  rw [hconsumed, u16At_eq h (show 10 + 2 ≤ rest.length by omega)]
  constructor
  · rw [hwindow, u32At_eq h (by omega), ofRecord_take]
    split
    · rw [u32At_eq h (by omega)]
    · rw [u32At_eq h (by omega)]
  · simp only [mem_cons, not_mem_nil, or_false, forall_eq_or_imp, forall_eq,
      Extent.Inside]
    refine ⟨by omega, by omega, by omega, by omega, by omega, by omega, by omega, ?_⟩
    split <;> omega

/-! ### The loop -/

/-- The pointer moves on within the directory. -/
theorem window_drop {k : ℕ} (h : window mem cur rest.length = rest) (hk : k ≤ rest.length) :
    window mem (cur + k) (rest.drop k).length = rest.drop k := by
  have hsum : k + (rest.length - k) = rest.length := by omega
  have hdrop : (window mem cur (k + (rest.length - k))).drop k =
      window mem (cur + k) (rest.length - k) := by
    rw [window_add, drop_left' (length_window mem cur k)]
  rw [length_drop, ← hdrop, hsum, h]

/-- **The loop over a directory whose records end**: it is over, it stays inside, and it finds
the entries of the records. -/
theorem parseEntriesAt_of_recordsEnd (h : window mem cur rest.length = rest)
    (hend : RecordsEnd rest) (hn : rest.length < n) :
    ∃ calls, parseEntriesAt md5 mem n cur rest.length = some calls ∧
      (∀ c ∈ calls, (∀ e ∈ c.2.reads, e.Inside (cur + rest.length)) ∧ (c.2.consumed : ℤ) ≤ c.1) ∧
      calls.filterMap (·.2.entry) = (splitRecords n rest).map (ofRecord md5) := by
  -- By induction on the rounds; what is left of the directory gets shorter with each.
  induction n generalizing cur rest with
  | zero => omega
  | succ n ih =>
    rw [parseEntriesAt, splitRecords, asSize_natCast]
    by_cases hbegins : BeginsRecord rest
    · have hlen : recordLength rest ≤ rest.length := hend [] rest rfl (by simp) hbegins
      have hpos : cdRecordSize ≤ recordLength rest := cdRecordSize_le_recordLength
      have hconsumed := parseAt_consumed md5 h hbegins
      obtain ⟨hentry, hreads⟩ := parseAt_of_recordLength_le md5 h hbegins hlen
      have hlength : (rest.drop (recordLength rest)).length = rest.length - recordLength rest :=
        length_drop
      unfold cdRecordSize at hpos
      obtain ⟨calls, hcalls, hinside, hentries⟩ :=
        ih (window_drop h hlen) (hend.drop hbegins) (by omega)
      rw [hconsumed, if_neg (by omega), ← Nat.cast_sub hlen, ← hlength, hcalls]
      refine ⟨_, rfl, ?_, ?_⟩
      · intro c hc
        rcases mem_cons.mp hc with rfl | hc
        · exact ⟨hreads, by rw [hconsumed]; exact Int.ofNat_le.mpr hlen⟩
        · refine ⟨fun e he => ?_, (hinside c hc).2⟩
          have hin := (hinside c hc).1 e he
          rw [Extent.Inside] at hin ⊢
          omega
      · rw [if_neg (by rw [not_or]; exact ⟨not_lt.mpr hbegins.1, not_not.mpr hbegins.2⟩)]
        simp only [filterMap_cons, hentry, hentries, map_cons]
    · obtain ⟨hconsumed, hentry, hreads⟩ := parseAt_of_not_beginsRecord md5 h hbegins
      rw [hconsumed, if_pos rfl, if_pos]
      · refine ⟨_, rfl, fun c hc => ?_, ?_⟩
        · rw [mem_singleton.mp hc]
          exact ⟨hreads, by rw [hconsumed]; positivity⟩
        · simp only [filterMap_cons, hentry, filterMap_nil, map_nil]
      · by_contra hnot
        rw [not_or] at hnot
        exact hbegins ⟨not_lt.mp hnot.1, not_not.mp hnot.2⟩

/-- The loop comes to whatever is behind records. -/
theorem call_mem_of_records {calls : List (ℤ × ParseCall Digest)} (records : List Bytes)
    (h : window mem cur (records.flatten ++ rest).length = records.flatten ++ rest)
    (hrecords : ∀ r ∈ records, IsRecord r)
    (hcalls : parseEntriesAt md5 mem n cur (records.flatten ++ rest).length = some calls) :
    ∃ a, window mem a rest.length = rest ∧
      ((rest.length : ℤ), parseCentralDirectoryRecordAt md5 mem a rest.length) ∈ calls := by
  induction records generalizing cur n calls with
  | nil =>
    refine ⟨cur, h, ?_⟩
    cases n with
    | zero => cases hcalls
    | succ n =>
      rw [parseEntriesAt, asSize_natCast] at hcalls
      rw [flatten_nil, nil_append] at hcalls
      split at hcalls
      · rw [← Option.some.inj hcalls]
        exact mem_singleton.mpr rfl
      · obtain ⟨_, -, rfl⟩ := Option.map_eq_some_iff.mp hcalls
        exact mem_cons_self
  | cons r records ih =>
    cases n with
    | zero => cases hcalls
    | succ n =>
      rw [flatten_cons, append_assoc] at h hcalls
      obtain ⟨hbegins', hlen⟩ :=
        (hrecords r mem_cons_self).append (records.flatten ++ rest)
      have hlength : (r ++ (records.flatten ++ rest)).length =
          r.length + (records.flatten ++ rest).length := length_append
      have hle : r.length ≤ (r ++ (records.flatten ++ rest)).length := by omega
      have hconsumed := parseAt_consumed md5 h hbegins'
      have hpos : cdRecordSize ≤ r.length := (hrecords r mem_cons_self).1.1
      have hdrop := window_drop h hle
      rw [drop_left] at hdrop
      rw [parseEntriesAt, asSize_natCast, hconsumed, hlen,
        if_neg (by unfold cdRecordSize at hpos; omega)] at hcalls
      obtain ⟨calls', hcalls', rfl⟩ := Option.map_eq_some_iff.mp hcalls
      rw [hlength, Nat.cast_add, add_sub_cancel_left] at hcalls'
      obtain ⟨a, ha, hmem⟩ :=
        ih hdrop (fun r hr => hrecords r (mem_cons_of_mem _ hr)) hcalls'
      exact ⟨a, ha, mem_cons_of_mem _ hmem⟩

/-- If the parser stays inside, the records end. -/
theorem StaysInside.recordsEnd {cd : Bytes} (h : StaysInside md5 cd) : RecordsEnd cd := by
  intro records rest hcd hrecords hbegins
  subst hcd
  obtain ⟨n, calls, hcalls, hbounds⟩ := h _ (window_getD _ 0)
  obtain ⟨a, ha, hmem⟩ := call_mem_of_records records (window_getD _ 0) hrecords hcalls
  have hle := (hbounds _ hmem).2
  rw [parseAt_consumed md5 ha hbegins] at hle
  exact Int.ofNat_le.mp hle

/-- **The parser stays inside its input exactly if every record ends within it.** -/
theorem staysInside_iff_recordsEnd (md5 : Bytes → Digest) (cd : Bytes) :
    StaysInside md5 cd ↔ RecordsEnd cd := by
  refine ⟨StaysInside.recordsEnd, fun hend mem hmem => ?_⟩
  obtain ⟨calls, hcalls, hbounds, -⟩ :=
    parseEntriesAt_of_recordsEnd hmem hend (Nat.lt_succ_self cd.length)
  rw [Nat.zero_add] at hbounds
  exact ⟨cd.length + 1, calls, hcalls, hbounds⟩

/-- A directory of one record without the one byte of the name. -/
def shortDirectory : Bytes :=
  leBytes 4 kCDFileHeaderMagic ++ List.replicate 24 0 ++ leBytes 2 1 ++ List.replicate 16 0

/-- The name is hashed and consumed from behind the directory. -/
theorem not_staysInside_shortDirectory : ¬ StaysInside id shortDirectory := by
  intro hinside
  have hbegins : BeginsRecord shortDirectory := by
    unfold BeginsRecord
    decide
  have hle : recordLength shortDirectory ≤ shortDirectory.length :=
    hinside.recordsEnd [] shortDirectory rfl (by simp) hbegins
  revert hle
  decide

end AdbBridge.FastDeploy
