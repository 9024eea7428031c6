import AdbBridge.FastDeploy.Patch

/-!
# A patch gives the file of the host

The agent that is given a patch and the old file writes the file the patch was made from.

The loop of the generator keeps two things apart. The numbers always add up: what the segments in
the patch stand for, with what is pending, is the end of the last entry and an *excess*, and the
excess never gets smaller (`Counted`). As long as there is none, every entry began where the last
one ended or later, and the segments stand for the beginning of the file (`Settled`, `Pending`).
The comparison of the two sizes at the end is the test that there is no excess.

A pending stretch is one stretch on the device because an entry and its pair are at the same place
of their files: the place is part of the record that the digest is made of.
-/

namespace AdbBridge.FastDeploy

open List

variable {Digest : Type} {old new path : Bytes} {disk : ℕ → Option ℕ} {turns : ℕ}
  {g g' : Generator} {segs : List Segment} {delta off len excess n : ℕ}
  {entries : List (SimpleEntry Digest)}

/-! ### The state of the generator -/

/-- The numbers of the generator after `n` entries. -/
structure Counted (g : Generator) (delta off len excess n : ℕ) : Prop where
  entry : g.patchEntry = ⟨delta, off, len⟩
  sum : g.realSizeOut + delta + len = g.currentSizeOut + excess
  current_lt : g.currentSizeOut < 2 ^ 34
  excess_le : excess ≤ n * 2 ^ 34

theorem Counted.excess_lt (h : Counted g delta off len excess n) (hn : n < 2 ^ 28) :
    excess < 2 ^ 62 := by
  have hexcess := h.excess_le
  omega

/-- What has been written to the patch stands for the beginning of the new file, up to the place
of the next read. -/
structure Settled (old new path : Bytes) (g : Generator) (segs : List Segment) : Prop where
  file : g.input.file = new
  pos : g.input.pos = g.realSizeOut
  output : g.output = header new.length path ++ render segs
  fits : ∀ seg ∈ segs, seg.Fits
  patched_eq : patched old segs = new.take g.realSizeOut
  total : totalSize segs = g.realSizeOut

/-- What is pending stands for what comes next in the new file. -/
structure Pending (old new : Bytes) (g : Generator) (delta off len : ℕ) : Prop where
  start : len = 0 → delta = 0 ∧ off = 0
  place : off = g.realSizeOut + delta
  same : sliceOf old off len = sliceOf new off len
  within : off + len ≤ new.length
  offset_lt : off < 2 ^ 32

/-- The state after `n` entries. -/
def Progress (old new path : Bytes) (n : ℕ) (g : Generator) : Prop :=
  ∃ delta off len excess, Counted g delta off len excess n ∧
    (excess = 0 → (∃ segs, Settled old new path g segs) ∧ Pending old new g delta off len)

/-! ### Writing what is pending -/

theorem render_append (segs : List Segment) (seg : Segment) :
    render (segs ++ [seg]) = render segs ++ seg.bytes := by
  rw [render, flatMap_append, flatMap_singleton, ← render]

theorem patched_append (segs : List Segment) (seg : Segment) :
    patched old (segs ++ [seg]) = patched old segs ++ seg.apply old := by
  rw [patched, flatMap_append, flatMap_singleton, ← patched]

theorem totalSize_append (segs : List Segment) (seg : Segment) :
    totalSize (segs ++ [seg]) = totalSize segs + seg.size := by
  rw [totalSize, map_append, sum_append, map_singleton, sum_singleton,
    ← totalSize]

/-- What `writePatchEntry` does: nothing, if nothing is pending, or it writes a segment with the
next bytes of the file as new data. -/
theorem writePatchEntry_cases (h : Counted g delta off len excess n) (hn : n < 2 ^ 28)
    (hwrite : writePatchEntry disk turns g = .ok g') :
    g'.currentSizeOut = g.currentSizeOut ∧ g'.realSizeOut = g.realSizeOut + delta + len ∧
      (delta = 0 ∧ off = 0 ∧ len = 0 ∧ g' = g ∨
        ¬(delta = 0 ∧ off = 0 ∧ len = 0) ∧ ∃ data : Bytes, data.length = delta ∧
          data = sliceOf g.input.file g.input.pos delta ∧
          g'.output = g.output ++ Segment.bytes ⟨data, off, len⟩ ∧
          g'.input.file = g.input.file ∧ g'.input.pos = g.input.pos + delta + len) := by
  have hsum := h.sum
  have hcurrent := h.current_lt
  have hexcess := h.excess_lt hn
  have hreal : sizeT (g.realSizeOut + ((delta : ℤ) + (len : ℤ))) = g.realSizeOut + delta + len := by
    rw [← Nat.cast_add, ← Nat.cast_add, sizeT_cast (by omega), Nat.add_assoc]
  unfold writePatchEntry at hwrite
  simp only [h.entry, Nat.cast_eq_zero] at hwrite
  split at hwrite
  · rename_i hzero
    obtain ⟨rfl, rfl, rfl⟩ := hzero
    cases hwrite
    exact ⟨rfl, rfl, Or.inl ⟨rfl, rfl, rfl, rfl⟩⟩
  rename_i hzero
  obtain ⟨⟨data, input⟩, hpipe, hlast⟩ := Run.bind_eq_ok.mp hwrite
  cases hlast
  have hdata : data = sliceOf g.input.file g.input.pos delta ∧ data.length = delta ∧
      input.file = g.input.file ∧ input.pos = g.input.pos + delta := by
    split at hpipe
    · exact Input.pipe_eq hpipe
    · cases hpipe
      obtain rfl : delta = 0 := by omega
      exact ⟨sliceOf_zero.symm, rfl, rfl, rfl⟩
  obtain ⟨hdata, hlength, hfile, hpos⟩ := hdata
  simp only [Generator.wrote, h.entry]
  refine ⟨trivial, hreal, Or.inr ⟨hzero, data, hlength, hdata, ?_, ?_, ?_⟩⟩
  · rw [Segment.bytes, hlength]
  · rw [Input.lseek_cast, hfile]
  · rw [Input.lseek_cast, hpos]

/-- **Writing what is pending** keeps the patch in step with the file. -/
theorem Settled.write (hnew : new.length < 2 ^ 63) (h : Counted g delta off len excess n)
    (hn : n < 2 ^ 28) (hs : Settled old new path g segs) (hp : Pending old new g delta off len)
    (hwrite : writePatchEntry disk turns g = .ok g') : ∃ segs', Settled old new path g' segs' := by
  obtain ⟨-, hreal, hcases⟩ := writePatchEntry_cases h hn hwrite
  rcases hcases with ⟨-, -, -, rfl⟩ | ⟨hzero, data, hlength, hdata, hout, hfile, hpos⟩
  · exact ⟨segs, hs⟩
  have hplace := hp.place
  have hwithin := hp.within
  have hoffset := hp.offset_lt
  have hsize : (⟨data, off, len⟩ : Segment).size = delta + len := congrArg (· + len) hlength
  rw [hs.file, hs.pos] at hdata
  have hfits : (⟨data, off, len⟩ : Segment).Fits := by
    refine ⟨?_, ?_, ?_⟩
    · rw [hsize]
      omega
    · change off < 2 ^ 63
      omega
    · rw [hsize]
      by_contra hnone
      obtain rfl : len = 0 := by omega
      exact hzero ⟨(hp.start rfl).1, (hp.start rfl).2, rfl⟩
  refine ⟨segs ++ [⟨data, off, len⟩], hfile.trans hs.file, ?_, ?_, ?_, ?_, ?_⟩
  · rw [hpos, hs.pos, hreal]
  · rw [hout, hs.output, render_append, append_assoc]
  · intro seg hseg
    rcases mem_append.mp hseg with hseg | hseg
    · exact hs.fits seg hseg
    · exact mem_singleton.mp hseg ▸ hfits
  · -- The new data goes up to the stretch, and the stretch is the same in both files.
    rw [patched_append, hs.patched_eq, Segment.apply]
    change _ ++ (data ++ sliceOf old off len) = _
    rw [hp.same, hdata, ← append_assoc, take_append_sliceOf, ← hplace, take_append_sliceOf,
      hreal, hplace]
  · rw [totalSize_append, hs.total, hsize, hreal, Nat.add_assoc]

/-! ### One entry -/

/-- An entry of the host and its pair, as far as the generator relies on them. -/
structure Shared (old new : Bytes) (e : SimpleEntry Digest) : Prop where
  offset_eq : e.deviceEntry.dataOffset = e.localEntry.dataOffset
  offset_lt : e.localEntry.dataOffset < 2 ^ 32
  size_pos : 0 < e.localEntry.dataSize
  size_lt : e.localEntry.dataSize < 2 ^ 33
  within : e.localEntry.dataOffset + e.localEntry.dataSize ≤ new.length
  same : sliceOf old e.localEntry.dataOffset e.localEntry.dataSize =
    sliceOf new e.localEntry.dataOffset e.localEntry.dataSize

/-- **One entry.** -/
theorem Progress.addEntry (hnew : new.length < 2 ^ 63) (hn : n < 2 ^ 28) {e : SimpleEntry Digest}
    (he : Shared old new e) (h : Progress old new path n g)
    (hadd : FastDeploy.addEntry disk turns g e = .ok g') : Progress old new path (n + 1) g' := by
  obtain ⟨delta, off, len, excess, hc, hkept⟩ := h
  have hoffset := he.offset_lt
  have hlength := he.size_lt
  have hpos := he.size_pos
  have hsum := hc.sum
  have hcurrent := hc.current_lt
  have hexcess : excess < 2 ^ 62 := hc.excess_lt hn
  have hdelta : int64 ((e.localEntry.dataOffset : ℤ) - g.currentSizeOut) =
      (e.localEntry.dataOffset : ℤ) - g.currentSizeOut := int64_eq (by omega) (by omega)
  -- Whatever the entry is, it leaves off at its end.
  have hend : sizeT (g.currentSizeOut + ((e.localEntry.dataOffset : ℤ) - g.currentSizeOut +
      e.localEntry.dataSize)) = e.localEntry.dataOffset + e.localEntry.dataSize := by
    rw [show (g.currentSizeOut : ℤ) + ((e.localEntry.dataOffset : ℤ) - g.currentSizeOut +
      e.localEntry.dataSize) = ((e.localEntry.dataOffset + e.localEntry.dataSize : ℕ) : ℤ) by
        push_cast; ring]
    exact sizeT_cast (by omega)
  unfold FastDeploy.addEntry at hadd
  simp only [hdelta, hend, hc.entry] at hadd
  clear hdelta hend
  split at hadd
  · -- The entry begins later: what was pending is written.
    rename_i hlater
    obtain ⟨g₁, hwrite, hlast⟩ := Run.bind_eq_ok.mp hadd
    cases hlast
    obtain ⟨-, hreal, -⟩ := writePatchEntry_cases hc hn hwrite
    have hgap : (e.localEntry.dataOffset : ℤ) - g.currentSizeOut =
        ((e.localEntry.dataOffset - g.currentSizeOut : ℕ) : ℤ) := by omega
    refine ⟨e.localEntry.dataOffset - g.currentSizeOut, e.localEntry.dataOffset,
      e.localEntry.dataSize, excess, ⟨?_, ?_, ?_, ?_⟩, fun hnone => ?_⟩
    · rw [hgap, he.offset_eq]
    · simp only [hreal]
      omega
    · simp only
      omega
    · exact hc.excess_le.trans (Nat.mul_le_mul_right _ n.le_succ)
    obtain ⟨⟨segs, hs⟩, hp⟩ := hkept hnone
    obtain ⟨segs', hs'⟩ := hs.write hnew hc hn hp hwrite
    refine ⟨⟨segs', hs'.file, hs'.pos, hs'.output, hs'.fits, hs'.patched_eq, hs'.total⟩,
      fun hzero => absurd hzero hpos.ne', ?_, he.same, he.within, hoffset⟩
    simp only [hreal]
    omega
  · -- The entry begins where the last one ended, or before that.
    rename_i hearlier
    cases hadd
    refine ⟨delta, off, len + e.localEntry.dataSize,
      excess + (g.currentSizeOut - e.localEntry.dataOffset), ⟨?_, ?_, ?_, ?_⟩, fun hnone => ?_⟩
    · rw [int64_eq (by omega) (by omega), Nat.cast_add]
    · simp only
      omega
    · simp only
      omega
    · rw [Nat.succ_mul]
      exact Nat.add_le_add hc.excess_le (by omega)
    obtain ⟨⟨segs, hs⟩, hp⟩ := hkept (by omega)
    have hplace := hp.place
    have hmeet : off + len = e.localEntry.dataOffset := by omega
    refine ⟨⟨segs, hs.file, hs.pos, hs.output, hs.fits, hs.patched_eq, hs.total⟩,
      fun hzero => by omega, hplace, ?_, ?_, hp.offset_lt⟩
    · rw [sliceOf_add, sliceOf_add, hp.same, hmeet, he.same]
    · rw [← Nat.add_assoc, hmeet]
      exact he.within

/-! ### A whole run -/

theorem progress_start : Progress old new path 0
    { input := ⟨new, 0, 0⟩, output := header new.length path } :=
  ⟨0, 0, 0, 0, ⟨rfl, rfl, Nat.two_pow_pos _, le_rfl⟩, fun _ =>
    ⟨⟨[], rfl, rfl, (append_nil _).symm, by simp, rfl, rfl⟩,
      fun _ => ⟨rfl, rfl⟩, rfl, rfl, Nat.zero_le _, by decide⟩⟩

/-- The entries one after the other. -/
theorem Progress.run (hnew : new.length < 2 ^ 63) (hentries : ∀ e ∈ entries, Shared old new e)
    (hn : n + entries.length ≤ 2 ^ 28) (h : Progress old new path n g)
    (hrun : entries.foldlM (FastDeploy.addEntry disk turns) g = .ok g') :
    Progress old new path (n + entries.length) g' := by
  induction entries generalizing n g with
  | nil =>
    cases hrun
    exact h
  | cons e entries ih =>
    rw [length_cons] at hn
    rw [foldlM_cons] at hrun
    obtain ⟨g₁, hadd, hrun⟩ := Run.bind_eq_ok.mp hrun
    have hfirst := h.addEntry hnew (by omega) (hentries e mem_cons_self) hadd
    have hrest := ih (fun e' he' => hentries e' (mem_cons_of_mem _ he')) (by omega) hfirst hrun
    rw [length_cons, Nat.add_comm entries.length, ← Nat.add_assoc]
    exact hrest

/-- **A patch that is made stands for the new file.** -/
theorem generatePatch_eq (hnew : new.length < 2 ^ 63)
    (hentries : ∀ e ∈ entries, Shared old new e) (hn : entries.length < 2 ^ 28) {patch : Bytes}
    (h : generatePatch disk turns entries new path = .ok patch) :
    ∃ segs, (∀ seg ∈ segs, Segment.Fits seg) ∧ patched old segs = new ∧
      totalSize segs = new.length ∧ patch = header new.length path ++ render segs := by
  obtain ⟨g₁, hrun, h⟩ := Run.bind_eq_ok.mp h
  obtain ⟨g₂, hwrite, h⟩ := Run.bind_eq_ok.mp h
  have hprogress := progress_start.run hnew hentries (by omega) hrun
  rw [Nat.zero_add] at hprogress
  obtain ⟨delta, off, len, excess, hc, hkept⟩ := hprogress
  obtain ⟨hcurrent, hreal, -⟩ := writePatchEntry_cases hc hn hwrite
  have hsum := hc.sum
  split at h
  · exact absurd h (by simp)
  -- The sizes agree, so that there is no excess.
  rename_i hagree
  have hnone : excess = 0 := by omega
  obtain ⟨⟨segs, hs⟩, hp⟩ := hkept hnone
  obtain ⟨segs, hs⟩ := hs.write hnew hc hn hp hwrite
  have hplace := hp.place
  have hwithin := hp.within
  split at h
  · rename_i hmore
    obtain ⟨⟨data, input⟩, hpipe, h⟩ := Run.bind_eq_ok.mp h
    cases h
    obtain ⟨hdata, hlength, -, -⟩ := Input.pipe_eq hpipe
    rw [hs.file, hs.pos] at hdata
    have hsize : (⟨data, 0, 0⟩ : Segment).size = new.length - g₂.currentSizeOut := hlength
    refine ⟨segs ++ [⟨data, 0, 0⟩], ?_, ?_, ?_, ?_⟩
    · intro seg hseg
      rcases mem_append.mp hseg with hseg | hseg
      · exact hs.fits seg hseg
      · obtain rfl := mem_singleton.mp hseg
        exact ⟨by omega, Nat.two_pow_pos _, by omega⟩
    · rw [patched_append, hs.patched_eq, Segment.apply]
      change _ ++ (data ++ sliceOf old 0 0) = _
      rw [sliceOf_zero, append_nil, hdata, take_append_sliceOf]
      exact take_of_length_le (by omega)
    · rw [totalSize_append, hs.total, hsize]
      omega
    · rw [hs.output, render_append, append_assoc, Segment.bytes, hlength]
      rfl
  · rename_i hall
    cases h
    refine ⟨segs, hs.fits, ?_, ?_, hs.output⟩
    · rw [hs.patched_eq]
      exact take_of_length_le (by omega)
    · rw [hs.total]
      omega

/-! ### The two files -/

section

variable [DecidableEq Digest] {md5 : Bytes → Digest} {host device : Apk}
  {sort : List (SimpleEntry Digest) → List (SimpleEntry Digest)}

/-- Every local file entry lies inside its file. -/
def Apk.Sound (apk : Apk) : Prop :=
  ∀ r ∈ cdRecords apk.cd, u32 r 42 + entrySize apk.file r ≤ apk.file.length

/-- Entries with the same record are the same. -/
def Agree (host device : Apk) : Prop :=
  ∀ r ∈ cdRecords host.cd, r ∈ cdRecords device.cd →
    localFileEntry host.file r = localFileEntry device.file r

/-- What a pair of entries is: one record in both directories. -/
theorem shared_of_mem (hinj : Set.InjOn md5 {r | r ∈ cdRecords host.cd ∨ r ∈ cdRecords device.cd})
    (hhost : host.Sound) (hdevice : device.Sound) (hagree : Agree host device)
    (hpos : ∀ r ∈ cdRecords host.cd, 0 < entrySize host.file r)
    (hsort : ∀ entries, (sort entries).Perm entries) {e : SimpleEntry Digest}
    (he : e ∈ buildIdenticalEntries sort ((cdRecords host.cd).map (hostEntry md5 host.file))
      ((cdRecords device.cd).map (ofRecord md5))) : Shared device.file host.file e := by
  rw [buildIdenticalEntries, (hsort _).mem_iff, mem_filterMap] at he
  obtain ⟨l, hl, he⟩ := he
  obtain ⟨r, hr, rfl⟩ := mem_map.mp hl
  obtain ⟨d, hfind, rfl⟩ := Option.map_eq_some_iff.mp he
  obtain ⟨r', hr', rfl⟩ := mem_map.mp (List.mem_of_find?_eq_some hfind)
  have hdigest : md5 r' = md5 r := by
    have hfound := List.find?_some hfind
    exact of_decide_eq_true hfound
  obtain rfl : r' = r := hinj (Or.inr hr') (Or.inl hr) hdigest
  -- The entries are inside their files, so that their sizes are the same as well.
  have hsame := hagree r' hr hr'
  have hlength := congrArg List.length hsame
  unfold localFileEntry at hlength
  rw [length_sliceOf (hhost r' hr), length_sliceOf (hdevice r' hr')] at hlength
  refine ⟨rfl, u32_lt, hpos r' hr, entrySize_lt _ _, hhost r' hr, ?_⟩
  unfold localFileEntry at hsame
  rw [← hlength] at hsame
  exact hsame.symm

/-- There are not too many pairs: a record takes 46 bytes at least, and a directory has less than
4 GiB. -/
theorem length_buildIdenticalEntries {file cd : Bytes} {localApk : List (ApkEntry Digest)}
    (hsort : ∀ entries, (sort entries).Perm entries) (h : hostEntries md5 file cd = .ok localApk)
    (hcd : cd.length < 2 ^ 32) (deviceApk : List (ApkEntry Digest)) :
    (buildIdenticalEntries sort localApk deviceApk).length < 2 ^ 28 := by
  obtain ⟨rfl, -⟩ := hostEntries_eq h
  have hle : (buildIdenticalEntries sort ((cdRecords cd).map (hostEntry md5 file))
      deviceApk).length ≤ (cdRecords cd).length := by
    rw [buildIdenticalEntries, (hsort _).length_eq, ← length_map (hostEntry md5 file)]
    exact length_filterMap_le _ _
  have hrecords : cdRecordSize * (cdRecords cd).length ≤ cd.length := length_splitRecords _
  rw [cdRecordSize] at hrecords
  omega

/-- **The round trip of a patch.** If the digest tells the records of the two directories apart,
the local file entries are inside their files and those with the same record are the same, then
the agent that is given a patch and the file on the device comes to an end and has written the file
of the host. -/
theorem applyPatch_createPatch {patch : Bytes}
    (hinj : Set.InjOn md5 {r | r ∈ cdRecords host.cd ∨ r ∈ cdRecords device.cd})
    (hhost : host.Sound) (hdevice : device.Sound) (hagree : Agree host device)
    (hsort : ∀ entries, (sort entries).Perm entries)
    (h : createPatch md5 disk turns sort host device = .ok patch) :
    ∃ n, ∀ rounds ≥ n, applyPatch device.file rounds patch =
      some (.ok (host.file, (host.file.length : ℤ))) := by
  rw [createPatch] at h
  split at h
  · cases h
  rename_i deviceApk hremote
  obtain ⟨localApk, hlocal, h⟩ := Run.bind_eq_ok.mp h
  have hcount := length_buildIdenticalEntries hsort hlocal host.cd_lt deviceApk
  obtain ⟨rfl, hpos⟩ := hostEntries_eq hlocal
  obtain rfl := getDeviceAPKMetaData_eq hremote
  obtain ⟨segs, hfits, hpatched, htotal, rfl⟩ := generatePatch_eq host.file_lt
    (fun e he => shared_of_mem hinj hhost hdevice hagree hpos hsort he) hcount h
  refine ⟨segs.length + 1, fun rounds hrounds => ?_⟩
  have hlt := host.file_lt
  rw [← htotal] at hlt ⊢
  rw [applyPatch_render hfits device.absolutePath_lt hlt hrounds, hpatched]

end

/-! ### Two small archives -/

/-- A local file entry with one byte of data, which also stands for the checksum. -/
def tinyEntry (c : UInt8) : Bytes :=
  [0x50, 0x4b, 3, 4] ++ List.replicate 10 0 ++ [c, 0, 0, 0, 1, 0, 0, 0, 1, 0, 0, 0] ++
    List.replicate 4 0 ++ [c]

/-- The record of such an entry. -/
def tinyRecord (c offset : UInt8) : Bytes :=
  [0x50, 0x4b, 1, 2] ++ List.replicate 12 0 ++ [c, 0, 0, 0, 1, 0, 0, 0, 1, 0, 0, 0] ++
    List.replicate 14 0 ++ [offset, 0, 0, 0]

/-- The record at the end of an archive whose directory has this size and begins here. -/
def endRecord (size offset : UInt8) : Bytes :=
  [0x50, 0x4b, 5, 6] ++ List.replicate 8 0 ++ [size, 0, 0, 0, offset, 0, 0, 0, 0, 0]

/-- An archive of two entries. -/
def tinyApk (a b : UInt8) : Apk where
  file := tinyEntry a ++ tinyEntry b ++ (tinyRecord a 0 ++ tinyRecord b 31) ++ endRecord 92 62
  cd := tinyRecord a 0 ++ tinyRecord b 31
  absolutePath := ascii "/data/app/base.apk"
  file_lt := by
    change 176 < 2 ^ 63
    decide
  cd_lt := by simp [tinyRecord]
  absolutePath_lt := by decide

/-- The order of the entries of the host. -/
def byOffset (entries : List (SimpleEntry Bytes)) : List (SimpleEntry Bytes) :=
  entries.insertionSort (fun e e' => e.localEntry.dataOffset ≤ e'.localEntry.dataOffset)

/-- The second of the two entries is on the device already. -/
theorem applyPatch_createPatch_tinyApk : ∃ patch,
    createPatch id (fun _ => some 100) 200 byOffset (tinyApk 7 8) (tinyApk 9 8) = .ok patch ∧
      ∃ n, ∀ rounds ≥ n, applyPatch (tinyApk 9 8).file rounds patch =
        some (.ok ((tinyApk 7 8).file, ((tinyApk 7 8).file.length : ℤ))) := by
  obtain ⟨patch, hpatch⟩ : ∃ patch,
      createPatch id (fun _ => some 100) 200 byOffset (tinyApk 7 8) (tinyApk 9 8) = .ok patch :=
    ⟨(createPatch id (fun _ => some 100) 200 byOffset (tinyApk 7 8) (tinyApk 9 8)).toOption.getD [],
      by decide +kernel⟩
  refine ⟨patch, hpatch, applyPatch_createPatch (Set.injOn_id _) ?_ ?_ ?_
    (fun entries => perm_insertionSort _ entries) hpatch⟩
  · unfold Apk.Sound
    decide +kernel
  · unfold Apk.Sound
    decide +kernel
  · unfold Agree
    decide +kernel

end AdbBridge.FastDeploy
