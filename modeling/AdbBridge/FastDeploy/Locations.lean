import AdbBridge.FastDeploy.Agent

/-!
# Where the central directory and the signature are

The host and the agent on the device look for the same two places in an APK, in two programs. Both
search backwards for the signature of the record that ends the file, but the host begins 4 bytes
before the end, where a signature just fits, and the agent 22 bytes before the end, where a record
does. So the host takes a signature in the last 21 bytes for a record
(`AdbBridge.FastDeploy.Trailing`), and reads a directory from it that the agent does not see.

The directory of the record may lie past the end of the file. The agent then cannot map the place
where the signature would be and throws; for the host it is not said what is there. Apart from
that, the two agree (`AdbBridge.FastDeploy.locationsAgree_iff`).
-/

namespace AdbBridge.FastDeploy

/-- `ApkArchive::Location`, valid. -/
structure Location where
  offset : ℤ
  size : ℤ
  deriving DecidableEq, Repr

/-- What looking for something comes to. -/
inductive Outcome (α : Type)
  | gives (a : α)
  /-- There is an error, or an exception. -/
  | fails
  /-- Memory is read that is not there. -/
  | faults
  deriving DecidableEq, Repr

/-- One thing after the other. -/
def Outcome.andThen {α β : Type} (o : Outcome α) (next : α → Outcome β) : Outcome β :=
  match o with
  | .gives a => next a
  | .fails => .fails
  | .faults => .faults

theorem Outcome.andThen_eq_gives {α β : Type} {o : Outcome α} {next : α → Outcome β} {b : β} :
    o.andThen next = .gives b ↔ ∃ a, o = .gives a ∧ next a = .gives b := by
  cases o <;> simp [andThen]

/-- The signature of the end of central directory record. -/
def endOfCDSignature : ℕ := 0x06054b50

/-- The smallest size of an end of central directory record. -/
def endOfCDMinSize : ℕ := 22

/-- The largest size, with a comment. -/
def endOfCDMaxSize : ℕ := 65535 + endOfCDMinSize

/-- `APK Sig Block 42`. -/
def apkSigBlockMagic : Bytes := ascii "APK Sig Block 42"

/-- The signature is looked for from this place of a region down to its beginning. -/
def scanBack (region : Bytes) : ℕ → Option ℕ
  | 0 => if u32 region 0 = endOfCDSignature then some 0 else none
  | cursor + 1 =>
    if u32 region (cursor + 1) = endOfCDSignature then some (cursor + 1)
    else scanBack region cursor

/-- How much of the end of a file is searched. -/
def sizeToRead (file : Bytes) : ℕ := min file.length endOfCDMaxSize

/-- Where the search ends. -/
def readOffset (file : Bytes) : ℕ := file.length - sizeToRead file

/-! ### The host -/

/-- **What the host sees of a file**: a byte of the region that begins at `offset` and has `length`
bytes. Inside the file, it is the file; a region that reaches over the end may show anything, or
fault, as the operating system has it. A `MappedFile` of such a region, or the `pread` in place of
one, is copied by `beyond`. -/
structure FileRegions (file : Bytes) where
  byte : (offset length i : ℕ) → Option UInt8
  inside : ∀ {offset length i : ℕ}, offset + length ≤ file.length → i < length →
    byte offset length i = file[offset + i]?
  beyond : Location → Outcome Bytes
  beyond_le : ∀ {loc bytes}, beyond loc = .gives bytes → bytes.length ≤ loc.size.toNat

/-- `APKDump`. -/
structure ApkDump where
  cd : Bytes := []
  signature : Bytes := []

namespace Host

variable {file : Bytes} (regions : FileRegions file)

/-- Some bytes of a region. -/
def bytesAt (offset length : ℕ) : ℕ → ℕ → Option Bytes
  | _, 0 => some []
  | i, n + 1 => (regions.byte offset length i).bind fun b =>
    (bytesAt offset length (i + 1) n).map (b :: ·)

/-- `ApkArchive::FindEndOfCDRecord`. -/
def findEndOfCDRecord (file : Bytes) : Option ℕ :=
  if sizeToRead file < 4 then none
  else
    (scanBack (file.drop (readOffset file)) (sizeToRead file - 4)).map (readOffset file + ·)

/-- `ApkArchive::FindCDRecord`, of the region of a record at this place. -/
def findCDRecord (eocdRecord : ℕ) : Outcome Location :=
  match bytesAt regions eocdRecord endOfCDMinSize 12 4,
    bytesAt regions eocdRecord endOfCDMinSize 16 4 with
  | some crSize, some offsetToCdHeader => .gives ⟨leNat offsetToCdHeader, leNat crSize⟩
  | _, _ => .faults

/-- `ApkArchive::GetCDLocation`. -/
def getCDLocation : Outcome Location :=
  match findEndOfCDRecord file with
  | none => .fails
  | some eocdRecord => findCDRecord regions eocdRecord

/-- `ApkArchive::GetSignatureLocation`. -/
def getSignatureLocation (cdRecordOffset : ℤ) : Outcome (Option Location) :=
  let signatureOffset := cdRecordOffset - 24
  if signatureOffset < 0 then .gives none
  else
    match bytesAt regions signatureOffset.toNat 24 0 8,
      bytesAt regions signatureOffset.toNat 24 8 16 with
    | some signatureSize, some signature =>
      if signature ≠ apkSigBlockMagic then .gives none
      else
        let size := int64 (leNat signatureSize)
        .gives (some ⟨int64 (cdRecordOffset - size - 8), size⟩)
    | _, _ => .faults

/-- `ApkArchive::ReadMetadata`. -/
def readMetadata (loc : Location) : Outcome Bytes :=
  if 0 ≤ loc.offset ∧ 0 ≤ loc.size ∧ loc.offset + loc.size ≤ file.length then
    .gives (sliceOf file loc.offset.toNat loc.size.toNat)
  else regions.beyond loc

/-- `ApkArchive::ExtractMetadata`, of a file that could be opened. There is nothing in the dump of
one without an end of central directory record. -/
def extractMetadata : Outcome ApkDump :=
  match getCDLocation regions with
  | .fails => .gives {}
  | .faults => .faults
  | .gives cdLoc =>
    (readMetadata regions cdLoc).andThen fun cd =>
    (getSignatureLocation regions cdLoc.offset).andThen fun
      | none => .gives { cd := cd }
      | some sigLoc => (readMetadata regions sigLoc).andThen fun signature =>
        .gives { cd := cd, signature := signature }

end Host

/-! ### The agent -/

namespace Agent

/-- A read-only `FileChannel.map`: an exception if the file does not reach that far. -/
def map (file : Bytes) (position size : ℕ) : Option Bytes :=
  if position + size ≤ file.length then some (sliceOf file position size) else none

/-- `findEndOfCDRecord`, of a file that has room for a record; there is an exception in a smaller
one. -/
def findEndOfCDRecord (file : Bytes) : Option ℕ :=
  if sizeToRead file < endOfCDMinSize then none
  else
    (scanBack (file.drop (readOffset file)) (sizeToRead file - endOfCDMinSize)).map
      (readOffset file + ·)

/-- `findCDRecord`. -/
def findCDRecord (buf : Bytes) : Option Location :=
  if buf.length < endOfCDMinSize ∨ u32 buf 0 ≠ endOfCDSignature then none
  else some ⟨u32 buf 16, u32 buf 12⟩

/-- `getCDLocation`. -/
def getCDLocation (file : Bytes) : Outcome Location :=
  match ((findEndOfCDRecord file).bind fun eocdRecord => map file eocdRecord endOfCDMinSize).bind
    findCDRecord with
  | none => .fails
  | some location => .gives location

/-- `getSignatureLocation`. -/
def getSignatureLocation (file : Bytes) (cdRecordOffset : ℤ) : Outcome (Option Location) :=
  let signatureOffset := cdRecordOffset - 24
  if signatureOffset < 0 then .gives none
  else
    match map file signatureOffset.toNat 24 with
    | none => .fails
    | some signature =>
      let size := int64 (leNat (sliceOf signature 0 8))
      if sliceOf signature 8 16 ≠ apkSigBlockMagic then .gives none
      else .gives (some ⟨int64 (cdRecordOffset - size - 8), size⟩)

end Agent

/-! ### Agreement -/

/-- **The two programs agree** on the directory, and then on the signature. -/
def LocationsAgree {file : Bytes} (regions : FileRegions file) : Prop :=
  Host.getCDLocation regions = Agent.getCDLocation file ∧
    ∀ location, Host.getCDLocation regions = .gives location →
      Host.getSignatureLocation regions location.offset =
        Agent.getSignatureLocation file location.offset

/-- The last place of a signature with at least so many bytes from there to the end of the file. -/
structure LastSignature (file : Bytes) (room p : ℕ) : Prop where
  fits : p + room ≤ file.length
  searched : readOffset file ≤ p
  signature : u32 file p = endOfCDSignature
  last : ∀ q, p < q → q + room ≤ file.length → u32 file q ≠ endOfCDSignature

/-- A signature behind the last place a record could be at. -/
def Trailing (file : Bytes) (p : ℕ) : Prop :=
  file.length < p + endOfCDMinSize ∧ p + 4 ≤ file.length ∧ u32 file p = endOfCDSignature

/-- The directory, from a record at this place. -/
def locationAt (file : Bytes) (p : ℕ) : Location := ⟨u32 file (p + 16), u32 file (p + 12)⟩

/-! ### The searches -/

section Search

variable {region file : Bytes} {cursor p room : ℕ}

/-- The search backwards finds the last signature that is not behind the cursor. -/
theorem scanBack_eq_some : scanBack region cursor = some p ↔
    p ≤ cursor ∧ u32 region p = endOfCDSignature ∧
      ∀ q, p < q → q ≤ cursor → u32 region q ≠ endOfCDSignature := by
  induction cursor with
  | zero =>
    rw [scanBack]
    split_ifs with hhere
    · rw [Option.some_inj]
      refine ⟨?_, fun h => (Nat.le_zero.mp h.1).symm⟩
      rintro rfl
      exact ⟨le_rfl, hhere, fun q hlt hle => absurd hlt (by omega)⟩
    · refine iff_of_false id fun h => hhere ?_
      rw [← Nat.le_zero.mp h.1]
      exact h.2.1
  | succ cursor ih =>
    rw [scanBack]
    split_ifs with hhere
    · rw [Option.some_inj]
      constructor
      · rintro rfl
        exact ⟨le_rfl, hhere, fun q hlt hle => absurd hlt (by omega)⟩
      · rintro ⟨hle, -, hlast⟩
        by_contra hne
        exact hlast (cursor + 1) (by omega) le_rfl hhere
    · rw [ih]
      constructor
      · rintro ⟨hle, hsig, hlast⟩
        refine ⟨by omega, hsig, fun q hlt hle' => ?_⟩
        rcases Nat.le_succ_iff.mp hle' with hle' | rfl
        · exact hlast q hlt hle'
        · exact hhere
      · rintro ⟨hle, hsig, hlast⟩
        refine ⟨?_, hsig, fun q hlt hle' => hlast q hlt (by omega)⟩
        rcases Nat.le_succ_iff.mp hle with hle | rfl
        · exact hle
        · exact absurd hsig hhere

/-- It finds nothing exactly if there is no signature up to the cursor. -/
theorem scanBack_eq_none : scanBack region cursor = none ↔
    ∀ q ≤ cursor, u32 region q ≠ endOfCDSignature := by
  induction cursor with
  | zero =>
    rw [scanBack]
    split_ifs with hhere
    · exact iff_of_false id fun h => h 0 le_rfl hhere
    · refine iff_of_true rfl fun q hq => ?_
      rwa [Nat.le_zero.mp hq]
  | succ cursor ih =>
    rw [scanBack]
    split_ifs with hhere
    · exact iff_of_false id fun h => h (cursor + 1) le_rfl hhere
    · rw [ih]
      refine ⟨fun h q hq => ?_, fun h q hq => h q (by omega)⟩
      rcases Nat.le_succ_iff.mp hq with hq | rfl
      · exact h q hq
      · exact hhere

theorem u32_drop (k : ℕ) : u32 (file.drop k) p = u32 file (k + p) := by
  rw [u32, sliceOf_drop, u32]

theorem u32_sliceOf {offset n k : ℕ} (h : k + 4 ≤ n) :
    u32 (sliceOf file offset n) k = u32 file (offset + k) := by
  rw [u32, sliceOf_sliceOf h, u32]

theorem readOffset_add : readOffset file + sizeToRead file = file.length := by
  rw [readOffset, sizeToRead]
  omega

/-- **A search finds the last signature** that has so much room behind it. -/
theorem search_eq_some (hroom : room ≤ sizeToRead file) :
    (scanBack (file.drop (readOffset file)) (sizeToRead file - room)).map (readOffset file + ·) =
      some p ↔ LastSignature file room p := by
  have hsum := @readOffset_add file
  simp only [Option.map_eq_some_iff, scanBack_eq_some, u32_drop]
  constructor
  · rintro ⟨q, ⟨hle, hsig, hlast⟩, rfl⟩
    refine ⟨by omega, by omega, hsig, fun r hlt hfits => ?_⟩
    obtain ⟨k, rfl⟩ := Nat.exists_eq_add_of_le (show readOffset file ≤ r by omega)
    exact hlast k (by omega) (by omega)
  · rintro ⟨hfits, hsearched, hsig, hlast⟩
    obtain ⟨k, rfl⟩ := Nat.exists_eq_add_of_le hsearched
    exact ⟨k, ⟨by omega, hsig, fun q hlt hle => hlast _ (by omega) (by omega)⟩, rfl⟩

theorem search_eq_none (hroom : room ≤ sizeToRead file) :
    (scanBack (file.drop (readOffset file)) (sizeToRead file - room)).map (readOffset file + ·) =
      none ↔
      ∀ p, readOffset file ≤ p → p + room ≤ file.length → u32 file p ≠ endOfCDSignature := by
  have hsum := @readOffset_add file
  simp only [Option.map_eq_none_iff, scanBack_eq_none, u32_drop]
  constructor
  · intro h p hsearched hfits
    obtain ⟨k, rfl⟩ := Nat.exists_eq_add_of_le hsearched
    exact h k (by omega)
  · exact fun h q hq => h _ (by omega) (by omega)

end Search

/-! ### The two programs -/

section Programs

variable {file : Bytes} {regions : FileRegions file} {p e o : ℕ}

theorem LastSignature.unique {room q : ℕ} (h : LastSignature file room p)
    (h' : LastSignature file room q) : p = q := by
  rcases lt_trichotomy p q with hlt | heq | hgt
  · exact absurd h'.signature (h.last q hlt h'.fits)
  · exact heq
  · exact absurd h.signature (h'.last p hgt h.fits)

theorem le_sizeToRead (h : endOfCDMinSize ≤ file.length) : endOfCDMinSize ≤ sizeToRead file :=
  le_min h (by decide)

theorem Host.findEndOfCDRecord_eq (h : endOfCDMinSize ≤ file.length) :
    Host.findEndOfCDRecord file = some p ↔ LastSignature file 4 p := by
  have hroom : 4 ≤ sizeToRead file := le_trans (by decide) (le_sizeToRead h)
  rw [Host.findEndOfCDRecord, if_neg (not_lt.mpr hroom), search_eq_some hroom]

theorem Agent.findEndOfCDRecord_eq (h : endOfCDMinSize ≤ file.length) :
    Agent.findEndOfCDRecord file = some p ↔ LastSignature file endOfCDMinSize p := by
  rw [Agent.findEndOfCDRecord, if_neg (not_lt.mpr (le_sizeToRead h)),
    search_eq_some (le_sizeToRead h)]

/-- If there is a signature with some room behind it, there is a last one. -/
theorem exists_lastSignature {room : ℕ} (hroom : room ≤ sizeToRead file)
    (hsearched : readOffset file ≤ p) (hfits : p + room ≤ file.length)
    (hsig : u32 file p = endOfCDSignature) : ∃ q, p ≤ q ∧ LastSignature file room q := by
  cases hsearch : (scanBack (file.drop (readOffset file)) (sizeToRead file - room)).map
      (readOffset file + ·) with
  | none => exact absurd hsig ((search_eq_none hroom).mp hsearch p hsearched hfits)
  | some q =>
    have hlast := (search_eq_some hroom).mp hsearch
    refine ⟨q, ?_, hlast⟩
    by_contra hlt
    exact hlast.last p (by omega) hfits hsig

theorem Host.bytesAt_inside {offset length i n : ℕ} (h : offset + length ≤ file.length)
    (hn : i + n ≤ length) :
    Host.bytesAt regions offset length i n = some (sliceOf file (offset + i) n) := by
  induction n generalizing i with
  | zero => rw [Host.bytesAt, sliceOf_zero]
  | succ n ih =>
    have hbyte := regions.inside h (show i < length by omega)
    have hlt : offset + i < file.length := by omega
    rw [List.getElem?_eq_getElem hlt] at hbyte
    rw [Host.bytesAt, hbyte, Option.bind_some, ih (by omega), Option.map_some,
      sliceOf_succ (List.getElem?_eq_getElem hlt)]
    rfl

theorem Host.length_bytesAt {offset length i n : ℕ} {bytes : Bytes}
    (h : Host.bytesAt regions offset length i n = some bytes) : bytes.length = n := by
  induction n generalizing i bytes with
  | zero =>
    cases h
    rfl
  | succ n ih =>
    obtain ⟨b, -, h⟩ := Option.bind_eq_some_iff.mp h
    obtain ⟨rest, hrest, rfl⟩ := Option.map_eq_some_iff.mp h
    rw [List.length_cons, ih hrest]

/-- A directory has less than 4 GiB. -/
theorem Host.extractMetadata_cd_lt {dump : ApkDump}
    (h : Host.extractMetadata regions = .gives dump) : dump.cd.length < 2 ^ 32 := by
  rw [Host.extractMetadata] at h
  split at h
  · cases h
    exact Nat.two_pow_pos 32
  · cases h
  rename_i loc hloc
  obtain ⟨cd, hcd, h⟩ := Outcome.andThen_eq_gives.mp h
  obtain ⟨sigLoc, -, h⟩ := Outcome.andThen_eq_gives.mp h
  have hdump : dump.cd = cd := by
    cases sigLoc with
    | none =>
      cases h
      rfl
    | some sigLoc =>
      obtain ⟨signature, -, h⟩ := Outcome.andThen_eq_gives.mp h
      cases h
      rfl
  have hle : cd.length ≤ loc.size.toNat := by
    rw [Host.readMetadata] at hcd
    split_ifs at hcd
    · cases hcd
      exact length_sliceOf_le
    · exact regions.beyond_le hcd
  have hsize : loc.size.toNat < 256 ^ 4 := by
    rw [Host.getCDLocation] at hloc
    split at hloc
    · cases hloc
    rw [Host.findCDRecord] at hloc
    split at hloc
    · rename_i crSize _ hsize _
      cases hloc
      rw [Int.toNat_natCast, ← Host.length_bytesAt hsize]
      exact leNat_lt _
    · cases hloc
  rw [hdump]
  exact hle.trans_lt (by simpa using hsize)

theorem Host.findCDRecord_inside (h : p + endOfCDMinSize ≤ file.length) :
    Host.findCDRecord regions p = .gives (locationAt file p) := by
  rw [Host.findCDRecord, Host.bytesAt_inside h (by decide), Host.bytesAt_inside h (by decide)]
  rfl

/-- The agent takes the location from the last signature. -/
theorem Agent.getCDLocation_of_last (h : endOfCDMinSize ≤ file.length)
    (hlast : LastSignature file endOfCDMinSize e) :
    Agent.getCDLocation file = .gives (locationAt file e) := by
  have hlength : (sliceOf file e endOfCDMinSize).length = endOfCDMinSize :=
    length_sliceOf hlast.fits
  have hsig : u32 (sliceOf file e endOfCDMinSize) 0 = endOfCDSignature := by
    rw [u32_sliceOf (by decide)]
    exact hlast.signature
  have hrecord : Agent.findCDRecord (sliceOf file e endOfCDMinSize) = some (locationAt file e) := by
    rw [Agent.findCDRecord, if_neg (by rw [hlength, hsig]; simp), u32_sliceOf (by decide),
      u32_sliceOf (by decide)]
    rfl
  rw [Agent.getCDLocation, (Agent.findEndOfCDRecord_eq h).mpr hlast, Option.bind_some, Agent.map,
    if_pos hlast.fits, Option.bind_some, hrecord]

theorem Agent.getCDLocation_of_none (h : endOfCDMinSize ≤ file.length)
    (hnone : ∀ e, ¬LastSignature file endOfCDMinSize e) : Agent.getCDLocation file = .fails := by
  have hfind : Agent.findEndOfCDRecord file = none := by
    refine Option.eq_none_iff_forall_ne_some.mpr fun e hsome => ?_
    exact hnone e ((Agent.findEndOfCDRecord_eq h).mp hsome)
  rw [Agent.getCDLocation, hfind, Option.bind_none, Option.bind_none]

/-- **The two agree on the signature exactly if the directory does not lie past the end**, or is
so near to the beginning that there is no room for a signature. -/
theorem getSignatureLocation_eq_iff :
    Host.getSignatureLocation regions o = Agent.getSignatureLocation file o ↔
      o < 24 ∨ o ≤ file.length := by
  rw [Host.getSignatureLocation, Agent.getSignatureLocation]
  simp only
  by_cases hsmall : o < 24
  · rw [if_pos (by omega), if_pos (by omega)]
    exact iff_of_true rfl (Or.inl hsmall)
  have hoffset : ((o : ℤ) - 24).toNat = o - 24 := by omega
  rw [if_neg (by omega), if_neg (by omega), hoffset, or_iff_right hsmall, Agent.map]
  by_cases hinside : o ≤ file.length
  · have hfits : o - 24 + 24 ≤ file.length := by omega
    rw [if_pos hfits, Host.bytesAt_inside hfits (by decide), Host.bytesAt_inside hfits (by decide)]
    simp only
    rw [sliceOf_sliceOf (by decide), sliceOf_sliceOf (by decide)]
    exact iff_of_true rfl hinside
  · -- the agent throws, and the host does something else
    rw [if_neg (by omega)]
    refine iff_of_false (fun heq => ?_) hinside
    split at heq
    · split at heq
      · cases heq
      · cases heq
    · cases heq

/-- Where both have found the same directory, only the signature matters. -/
theorem agree_iff_of_gives (hhost : Host.getCDLocation regions = .gives (locationAt file e))
    (hagent : Agent.getCDLocation file = .gives (locationAt file e)) :
    LocationsAgree regions ↔ u32 file (e + 16) < 24 ∨ u32 file (e + 16) ≤ file.length := by
  rw [LocationsAgree, hhost, hagent, ← @getSignatureLocation_eq_iff _ regions]
  constructor
  · exact fun h => h.2 _ rfl
  · rintro h
    refine ⟨rfl, ?_⟩
    rintro location hlocation
    cases hlocation
    exact h

/-- Without a trailing signature, the two searches find the same. -/
theorem lastSignature_iff (h : ∀ p, ¬Trailing file p) :
    LastSignature file 4 p ↔ LastSignature file endOfCDMinSize p := by
  have hmin : endOfCDMinSize = 22 := rfl
  constructor
  · intro hlast
    refine ⟨?_, hlast.searched, hlast.signature, fun q hlt hfits => ?_⟩
    · by_contra hover
      exact h p ⟨not_le.mp hover, hlast.fits, hlast.signature⟩
    · exact hlast.last q hlt (by omega)
  · intro hlast
    have hfits := hlast.fits
    refine ⟨by omega, hlast.searched, hlast.signature, fun q hlt hfits' hsig => ?_⟩
    by_cases hroom : q + endOfCDMinSize ≤ file.length
    · exact hlast.last q hlt hroom hsig
    · exact h q ⟨not_le.mp hroom, hfits', hsig⟩

end Programs

/-! ### When the two agree -/

variable {file : Bytes}

theorem Host.findCDRecord_ne_fails (regions : FileRegions file) (p : ℕ) :
    Host.findCDRecord regions p ≠ .fails := by
  rw [Host.findCDRecord]
  split <;> simp

theorem Host.getCDLocation_of_last (regions : FileRegions file) {p : ℕ}
    (h : endOfCDMinSize ≤ file.length) (hlast : LastSignature file 4 p) :
    Host.getCDLocation regions = Host.findCDRecord regions p := by
  rw [Host.getCDLocation, (Host.findEndOfCDRecord_eq h).mpr hlast]

/-- **The host and the agent find the same places exactly if** there is no signature in the last
21 bytes, unless what the host reads there happens to be what the record says; and the directory
does not lie past the end of the file. -/
theorem locationsAgree_iff {file : Bytes} (regions : FileRegions file)
    (h : endOfCDMinSize ≤ file.length) :
    LocationsAgree regions ↔
      ((∀ p, ¬Trailing file p) ∨ ∃ p e, Trailing file p ∧ LastSignature file 4 p ∧
        LastSignature file endOfCDMinSize e ∧
          Host.findCDRecord regions p = .gives (locationAt file e)) ∧
      ∀ e, LastSignature file endOfCDMinSize e →
        u32 file (e + 16) < 24 ∨ u32 file (e + 16) ≤ file.length := by
  by_cases htrailing : ∀ p, ¬Trailing file p
  · by_cases hsome : ∃ e, LastSignature file endOfCDMinSize e
    · obtain ⟨e, he⟩ := hsome
      have hhost : Host.getCDLocation regions = .gives (locationAt file e) := by
        rw [Host.getCDLocation_of_last regions h ((lastSignature_iff htrailing).mpr he),
          Host.findCDRecord_inside he.fits]
      rw [agree_iff_of_gives hhost (Agent.getCDLocation_of_last h he)]
      refine ⟨fun hsig => ⟨Or.inl htrailing, fun e' he' => ?_⟩, fun hall => hall.2 e he⟩
      rwa [he'.unique he]
    · have hnone : ∀ e, ¬LastSignature file endOfCDMinSize e := not_exists.mp hsome
      have hhost : Host.getCDLocation regions = .fails := by
        have hfind : Host.findEndOfCDRecord file = none := by
          refine Option.eq_none_iff_forall_ne_some.mpr fun e hfound => ?_
          exact hnone e ((lastSignature_iff htrailing).mp ((Host.findEndOfCDRecord_eq h).mp hfound))
        rw [Host.getCDLocation, hfind]
      refine iff_of_true ⟨?_, fun location hlocation => ?_⟩
        ⟨Or.inl htrailing, fun e he => absurd he (hnone e)⟩
      · rw [hhost, Agent.getCDLocation_of_none h hnone]
      · rw [hhost] at hlocation
        cases hlocation
  · -- the host takes the last signature of the file for a record
    obtain ⟨q, hover, hfits, hsig⟩ := not_forall_not.mp htrailing
    have hsum := @readOffset_add file
    have hread := le_sizeToRead h
    obtain ⟨p, hle, hp⟩ :=
      exists_lastSignature (le_trans (by decide) hread) (by omega) hfits hsig
    have hhost := Host.getCDLocation_of_last regions h hp
    constructor
    · intro hagree
      have hcd := hhost.symm.trans hagree.1
      by_cases hsome : ∃ e, LastSignature file endOfCDMinSize e
      · obtain ⟨e, he⟩ := hsome
        have hagent := Agent.getCDLocation_of_last h he
        rw [hagent] at hcd
        refine ⟨Or.inr ⟨p, e, ⟨by omega, hp.fits, hp.signature⟩, hp, he, hcd⟩, fun e' he' => ?_⟩
        rw [he'.unique he]
        exact (agree_iff_of_gives (hhost.trans hcd) hagent).mp hagree
      · rw [Agent.getCDLocation_of_none h (not_exists.mp hsome)] at hcd
        exact absurd hcd (Host.findCDRecord_ne_fails regions p)
    · rintro ⟨hcase, hinside⟩
      obtain ⟨p', e, -, hp', he, hgives⟩ := hcase.resolve_left htrailing
      obtain rfl := hp'.unique hp
      exact (agree_iff_of_gives (hhost.trans hgives) (Agent.getCDLocation_of_last h he)).mpr
        (hinside e he)

/-- The end of the last page of a file. -/
def pagesEnd (file : Bytes) : ℕ := (file.length + 4095) / 4096 * 4096

/-- A file that is mapped page by page: behind its end there are zeros, up to the end of the
page. There is no mapping with an offset below zero, and no buffer with such a size. -/
def mappedPages (file : Bytes) : FileRegions file where
  byte offset _ i :=
    if offset + i < file.length then file[offset + i]?
    else if offset + i < pagesEnd file then some 0 else none
  inside := by
    intro offset length i hfits hi
    rw [if_pos (by omega)]
  beyond loc :=
    if loc.size < 0 then .fails
    else if loc.offset < 0 then .gives []
    else if loc.offset + loc.size ≤ pagesEnd file then
      .gives (sliceOf (file ++ List.replicate 4095 0) loc.offset.toNat loc.size.toNat)
    else .faults
  beyond_le := by
    intro loc bytes h
    split_ifs at h
    · cases h
      exact Nat.zero_le _
    · cases h
      exact length_sliceOf_le

/-- A file that is nothing but an end of central directory record. -/
def emptyArchive : Bytes := [0x50, 0x4b, 5, 6] ++ List.replicate 18 0

theorem locationsAgree_iff_emptyArchive : LocationsAgree (mappedPages emptyArchive) := by
  refine (locationsAgree_iff (mappedPages emptyArchive) (by decide)).mpr ⟨Or.inl ?_, ?_⟩
  · rintro p ⟨hover, hfits, hsig⟩
    have hfirst : ∀ q ≤ 18, u32 emptyArchive q = endOfCDSignature → q = 0 := by decide
    obtain rfl := hfirst p (by simpa [emptyArchive] using hfits) hsig
    exact absurd hover (by decide)
  · intro e he
    obtain rfl : e = 0 := by simpa [emptyArchive, endOfCDMinSize] using he.fits
    exact Or.inl (by decide)

/-- An archive whose comment begins with the signature of a record. -/
def strayComment : Bytes :=
  [0x50, 0x4b, 5, 6] ++ List.replicate 16 0 ++ [21, 0] ++
    ([0x50, 0x4b, 5, 6] ++ List.replicate 8 0 ++ [1, 0, 0, 0] ++ [2, 0, 0, 0] ++ [0])

/-- **The host reads the directory from the comment.** -/
theorem not_locationsAgree_strayComment :
    Host.getCDLocation (mappedPages strayComment) = .gives ⟨2, 1⟩ ∧
      Agent.getCDLocation strayComment = .gives ⟨0, 0⟩ ∧
        ¬LocationsAgree (mappedPages strayComment) := by
  have hhost : Host.getCDLocation (mappedPages strayComment) = .gives ⟨2, 1⟩ := by decide
  have hagent : Agent.getCDLocation strayComment = .gives ⟨0, 0⟩ := by decide
  refine ⟨hhost, hagent, fun hagree => ?_⟩
  have heq := hhost.symm.trans (hagree.1.trans hagent)
  exact absurd heq (by decide)

end AdbBridge.FastDeploy
