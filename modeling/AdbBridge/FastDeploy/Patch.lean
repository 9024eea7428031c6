import AdbBridge.FastDeploy.Locations

/-!
# Making a patch on the host

The host pairs its entries with those of the device that have the same digest and goes through
the pairs in the order of the places in its file. An entry that begins where the last one ended
is added to the stretch that is pending; before an entry that begins later, what is pending is
written to the patch, and the data in between becomes the new data of the next segment.

Two sizes are kept: `currentSizeOut` is the end of the last entry, `realSizeOut` what the segments
in the patch stand for. Entries that overlap make the second one larger than the first, and the
host gives up then.

A read from the file may come back with less than was asked for, or fail; `disk` says what each
of them comes to. At the end of the file a read gives nothing, and the loop that copies goes on
reading: so every copy is given a number of turns, and a run may be `unfinished` after them.
-/

namespace AdbBridge.FastDeploy

open List

/-! ### Runs -/

/-- Why a run does not return. -/
inductive Stop
  /-- The program exits with an error. -/
  | exits
  /-- Memory is read that is not there. -/
  | faults
  /-- More turns are needed. -/
  | unfinished
  deriving DecidableEq, Repr

/-- What a run comes to: it returns, or it does not. -/
abbrev Run := Except Stop

theorem Run.bind_eq_ok {α β : Type} {r : Run α} {next : α → Run β} {b : β} :
    r >>= next = .ok b ↔ ∃ a, r = .ok a ∧ next a = .ok b := by
  cases r with
  | error e => exact ⟨nofun, fun ⟨_, h, _⟩ => nomatch h⟩
  | ok a => exact ⟨fun h => ⟨a, rfl, h⟩, fun ⟨_, h, h'⟩ => Except.ok.inj h ▸ h'⟩

/-! ### The entries of the host -/

section

variable {Digest : Type} {md5 : Bytes → Digest} {file cd : Bytes}
  {entries : List (ApkEntry Digest)}

/-- An entry with the size of its local file entry. The host exits where there is none. -/
def withEntrySize (file : Bytes) (e : ApkEntry Digest) : Run (ApkEntry Digest) :=
  let dataSize := calculateLocalFileEntrySize file e.dataOffset e.dataSize
  if dataSize = 0 then .error .exits else .ok { e with dataSize := dataSize }

/-- `PatchUtils::GetHostAPKMetaData`, from the directory of the file on. -/
def hostEntries (md5 : Bytes → Digest) (file cd : Bytes) : Run (List (ApkEntry Digest)) :=
  if cd.isEmpty then .error .exits
  else
    match getDeviceAPKMetaData md5 cd with
    | none => .error .faults
    | some entries => entries.mapM (withEntrySize file)

/-- `PatchUtils::GetHostAPKMetaData`. -/
def getHostAPKMetaData (md5 : Bytes → Digest) (regions : FileRegions file) :
    Run (List (ApkEntry Digest)) :=
  match Host.extractMetadata regions with
  | .gives dump => hostEntries md5 file dump.cd
  | .fails => .error .exits
  | .faults => .error .faults

/-- The entries of the host are those of the records, and none is empty. -/
theorem hostEntries_eq (h : hostEntries md5 file cd = .ok entries) :
    entries = (cdRecords cd).map (hostEntry md5 file) ∧
      ∀ r ∈ cdRecords cd, 0 < entrySize file r := by
  rw [hostEntries] at h
  split_ifs at h with hempty
  split at h
  · cases h
  rename_i parsed hparsed
  rw [getDeviceAPKMetaData_eq hparsed] at h
  generalize cdRecords cd = records at h ⊢
  clear hparsed
  induction records generalizing entries with
  | nil =>
    cases h
    exact ⟨rfl, by simp⟩
  | cons r rs ih =>
    rw [map_cons, mapM_cons] at h
    obtain ⟨e, he, h⟩ := Run.bind_eq_ok.mp h
    obtain ⟨es, hes, h⟩ := Run.bind_eq_ok.mp h
    cases h
    obtain ⟨rfl, hpos⟩ := ih hes
    rw [withEntrySize] at he
    split_ifs at he with hsize
    cases he
    exact ⟨rfl, forall_mem_cons.mpr ⟨Nat.pos_of_ne_zero hsize, hpos⟩⟩

/-- What is found comes from a directory. -/
theorem getHostAPKMetaData_eq {regions : FileRegions file}
    (h : getHostAPKMetaData md5 regions = .ok entries) :
    ∃ cd : Bytes, cd.length < 2 ^ 32 ∧ hostEntries md5 file cd = .ok entries := by
  rw [getHostAPKMetaData] at h
  split at h
  · rename_i dump hdump
    exact ⟨dump.cd, Host.extractMetadata_cd_lt hdump, h⟩
  · cases h
  · cases h

end

/-! ### The file of the host -/

/-- A file opened for reading: its bytes, the place of the next read, and how many reads there
have been. -/
structure Input where
  file : Bytes
  pos : ℕ
  reads : ℕ

namespace Input

variable (disk : ℕ → Option ℕ)

/-- `adb_read`: a byte at least unless the file is at its end, and as many as `disk` says; `none`
for a failure, at which the host exits. -/
def read (n : ℕ) (f : Input) : Option (Bytes × Input) :=
  (disk f.reads).map fun m =>
    let data := sliceOf f.file f.pos (min n (max 1 m))
    (data, { f with pos := f.pos + data.length, reads := f.reads + 1 })

/-- `PatchUtils::Pipe`, with at most so many turns of its loop: the bytes written to the output. -/
def pipe : ℕ → ℕ → Input → Run (Bytes × Input)
  | 0, amount, f => if amount = 0 then .ok ([], f) else .error .unfinished
  | n + 1, amount, f =>
    if amount = 0 then .ok ([], f)
    else
      match f.read disk (min amount bufferSize) with
      | none => .error .exits
      | some (buffer, f) => do
        let (rest, f) ← pipe n (amount - buffer.length) f
        return (buffer ++ rest, f)

/-- `adb_lseek` from the current place, which fails rather than go before the beginning. -/
def lseek (offset : ℤ) (f : Input) : Input :=
  if f.pos + offset < 0 then f else { f with pos := (f.pos + offset).toNat }

variable {disk} {f f' : Input} {turns amount : ℕ} {data : Bytes}

theorem read_eq (h : f.read disk amount = some (data, f')) :
    data = sliceOf f.file f.pos data.length ∧ data.length ≤ amount ∧ f'.file = f.file ∧
      f'.pos = f.pos + data.length ∧ f'.reads = f.reads + 1 := by
  obtain ⟨m, -, hread⟩ := Option.map_eq_some_iff.mp h
  obtain ⟨rfl, rfl⟩ := Prod.mk.inj hread
  refine ⟨?_, length_sliceOf_le.trans (min_le_left _ _), rfl, rfl, rfl⟩
  -- A slice is cut short at the end of the list only, so its length gives it again.
  rw [sliceOf, sliceOf, length_take, ← take_eq_take_min]

theorem pipe_zero : f.pipe disk turns 0 = .ok ([], f) := by
  cases turns <;> rw [pipe, if_pos rfl]

/-- A turn of the loop that returns. -/
theorem pipe_eq_ok (hamount : amount ≠ 0) (h : f.pipe disk turns amount = .ok (data, f')) :
    ∃ n buffer f₁ rest, turns = n + 1 ∧ f.read disk (min amount bufferSize) = some (buffer, f₁) ∧
      f₁.pipe disk n (amount - buffer.length) = .ok (rest, f') ∧ data = buffer ++ rest := by
  cases turns with
  | zero =>
    rw [pipe, if_neg hamount] at h
    cases h
  | succ n =>
    rw [pipe, if_neg hamount] at h
    cases hread : f.read disk (min amount bufferSize) with
    | none =>
      rw [hread] at h
      cases h
    | some next =>
      rw [hread] at h
      obtain ⟨⟨rest, f₂⟩, hrest, hlast⟩ := Run.bind_eq_ok.mp h
      cases hlast
      exact ⟨n, next.1, next.2, rest, rfl, rfl, hrest, rfl⟩

/-- A copy that ends has copied what it was to copy. -/
theorem pipe_eq (h : f.pipe disk turns amount = .ok (data, f')) :
    data = sliceOf f.file f.pos amount ∧ data.length = amount ∧ f'.file = f.file ∧
      f'.pos = f.pos + amount := by
  induction turns generalizing amount f data with
  | zero =>
    by_cases hamount : amount = 0
    · subst hamount
      cases h
      exact ⟨sliceOf_zero.symm, rfl, rfl, rfl⟩
    · obtain ⟨n, -, -, -, hn, -⟩ := pipe_eq_ok hamount h
      exact absurd hn.symm n.succ_ne_zero
  | succ turns ih =>
    by_cases hamount : amount = 0
    · subst hamount
      cases h
      exact ⟨sliceOf_zero.symm, rfl, rfl, rfl⟩
    obtain ⟨n, buffer, f₁, rest, hn, hread, hrest, rfl⟩ := pipe_eq_ok hamount h
    obtain rfl := Nat.succ.inj hn
    obtain ⟨hbuffer, hle, hfile, hpos, -⟩ := read_eq hread
    obtain ⟨hslice, hlength, hfile', hpos'⟩ := ih hrest
    have hsum : amount = buffer.length + (amount - buffer.length) := by omega
    rw [hfile, hpos] at hslice
    refine ⟨?_, ?_, hfile'.trans hfile, ?_⟩
    · rw [hsum, sliceOf_add, ← hbuffer, ← hslice]
    · rw [length_append]
      omega
    · omega

/-- More turns do not change what is copied. -/
theorem pipe_mono {n : ℕ} (h : f.pipe disk turns amount = .ok (data, f')) (hle : turns ≤ n) :
    f.pipe disk n amount = .ok (data, f') := by
  induction turns generalizing amount f data n with
  | zero =>
    by_cases hamount : amount = 0
    · subst hamount
      rw [← h, pipe_zero, pipe_zero]
    · obtain ⟨m, -, -, -, hm, -⟩ := pipe_eq_ok hamount h
      exact absurd hm.symm m.succ_ne_zero
  | succ turns ih =>
    by_cases hamount : amount = 0
    · subst hamount
      rw [← h, pipe_zero, pipe_zero]
    obtain ⟨m, buffer, f₁, rest, hm, hread, hrest, rfl⟩ := pipe_eq_ok hamount h
    obtain rfl := Nat.succ.inj hm
    obtain ⟨n, rfl⟩ := Nat.exists_eq_add_of_le' (le_trans (Nat.le_add_left 1 turns) hle)
    rw [pipe, if_neg hamount, hread]
    exact Run.bind_eq_ok.mpr ⟨_, ih hrest (by omega), rfl⟩

theorem lseek_cast (n : ℕ) : f.lseek n = { f with pos := f.pos + n } := by
  rw [lseek, if_neg (by omega), ← Nat.cast_add, Int.toNat_natCast]

end Input

/-! ### The generator -/

/-- `PatchEntry`. -/
structure PatchEntry where
  deltaFromDeviceDataStart : ℤ := 0
  deviceDataOffset : ℤ := 0
  deviceDataLength : ℤ := 0
  deriving DecidableEq, Repr

/-- The `size_t` with the same bits. -/
def sizeT (z : ℤ) : ℕ := (z % 2 ^ 64).toNat

theorem sizeT_cast {n : ℕ} (h : n < 2 ^ 64) : sizeT n = n := by
  unfold sizeT
  omega

/-- The variables of `GeneratePatch`, with what has been written to the output. -/
structure Generator where
  input : Input
  output : Bytes
  realSizeOut : ℕ := 0
  currentSizeOut : ℕ := 0
  patchEntry : PatchEntry := {}

/-- `SimpleEntry`. -/
structure SimpleEntry (Digest : Type) where
  localEntry : ApkEntry Digest
  deviceEntry : ApkEntry Digest

/-- What `WritePatchEntry` leaves, after it has copied `data`. -/
def Generator.wrote (g : Generator) (data : Bytes) (input : Input) : Generator :=
  let e := g.patchEntry
  { g with
    input := input.lseek e.deviceDataLength
    output := g.output ++ (writeLong e.deltaFromDeviceDataStart ++ data ++
      writeLong e.deviceDataOffset ++ writeLong e.deviceDataLength)
    realSizeOut := sizeT (g.realSizeOut + (e.deltaFromDeviceDataStart + e.deviceDataLength)) }

section

variable {Digest : Type} (disk : ℕ → Option ℕ) (turns : ℕ)

/-- `WritePatchEntry`. -/
def writePatchEntry (g : Generator) : Run Generator :=
  let e := g.patchEntry
  if e.deltaFromDeviceDataStart = 0 ∧ e.deviceDataOffset = 0 ∧ e.deviceDataLength = 0 then .ok g
  else
    (if 0 < e.deltaFromDeviceDataStart then
      g.input.pipe disk turns e.deltaFromDeviceDataStart.toNat
    else .ok ([], g.input)) >>= fun (data, input) => .ok (g.wrote data input)

/-- One round of the loop of `GeneratePatch`. -/
def addEntry (g : Generator) (entry : SimpleEntry Digest) : Run Generator :=
  let hostDataOffset : ℤ := entry.localEntry.dataOffset
  let hostDataLength : ℤ := entry.localEntry.dataSize
  let deviceDataOffset : ℤ := entry.deviceEntry.dataOffset
  let deltaFromDeviceDataStart := int64 (hostDataOffset - g.currentSizeOut)
  let currentSizeOut := sizeT (g.currentSizeOut + (deltaFromDeviceDataStart + hostDataLength))
  if 0 < deltaFromDeviceDataStart then do
    let g ← writePatchEntry disk turns g
    return { g with
      patchEntry := ⟨deltaFromDeviceDataStart, deviceDataOffset, hostDataLength⟩
      currentSizeOut := currentSizeOut }
  else
    return { g with
      patchEntry := { g.patchEntry with
        deviceDataLength := int64 (g.patchEntry.deviceDataLength + hostDataLength) }
      currentSizeOut := currentSizeOut }

/-- What `GeneratePatch` does behind its loop. -/
def finishPatch (newApkSize : ℕ) (g : Generator) : Run Bytes := do
  let g ← writePatchEntry disk turns g
  if g.realSizeOut ≠ g.currentSizeOut then .error .exits
  else if g.currentSizeOut < newApkSize then do
    let rest := newApkSize - g.currentSizeOut
    let (data, _) ← g.input.pipe disk turns rest
    return g.output ++ (writeLong rest ++ data ++ writeLong 0 ++ writeLong 0)
  else return g.output

/-- `GeneratePatch`, with at most so many turns for each copy: the bytes of the patch. -/
def generatePatch (entriesToUseOnDevice : List (SimpleEntry Digest))
    (localApk deviceApkPath : Bytes) : Run Bytes := do
  let g ← entriesToUseOnDevice.foldlM (addEntry disk turns)
    { input := ⟨localApk, 0, 0⟩, output := header localApk.length deviceApkPath }
  finishPatch disk turns localApk.length g

end

/-! ### Pairing the entries -/

section

variable {Digest : Type} [DecidableEq Digest]

/-- `BuildIdenticalEntries`: each local entry with the first entry of the device that has its
digest. `sort` is the `std::sort` by the place in the file of the host. -/
def buildIdenticalEntries (sort : List (SimpleEntry Digest) → List (SimpleEntry Digest))
    (localApk deviceApk : List (ApkEntry Digest)) : List (SimpleEntry Digest) :=
  sort (localApk.filterMap fun localEntry =>
    (deviceApk.find? (·.md5 = localEntry.md5)).map (SimpleEntry.mk localEntry))

/-- An APK: the file, its central directory and where it is. The size of the file is an `off_t`,
that of the directory is a 32 bit field of the file, and the path is part of a message, which
has less than 2 GiB. -/
structure Apk where
  file : Bytes
  cd : Bytes
  absolutePath : Bytes
  file_lt : file.length < 2 ^ 63
  cd_lt : cd.length < 2 ^ 32
  absolutePath_lt : absolutePath.length < 2 ^ 31

/-- `CreatePatch`, from the directories of the two files on. -/
def createPatch (md5 : Bytes → Digest) (disk : ℕ → Option ℕ) (turns : ℕ)
    (sort : List (SimpleEntry Digest) → List (SimpleEntry Digest)) (host device : Apk) :
    Run Bytes :=
  match getDeviceAPKMetaData md5 device.cd with
  | none => .error .faults
  | some deviceApk => do
    let localApk ← hostEntries md5 host.file host.cd
    generatePatch disk turns (buildIdenticalEntries sort localApk deviceApk) host.file
      device.absolutePath

end

end AdbBridge.FastDeploy
