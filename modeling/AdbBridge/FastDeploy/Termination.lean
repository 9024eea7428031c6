import AdbBridge.FastDeploy.RoundTrip

/-!
# Whether the generator of a patch comes to an end

`PatchUtils::Pipe` copies until it has copied so many bytes; at the end of the file a read gives
none, and it goes on reading. So a patch is made, or given up, only if the generator never copies
over the end of the file of the host.

The place in the file and the number of bytes that are accounted for go together, but the bytes of
an entry are counted once for each time it occurs. Entries that overlap, or that are listed twice,
so push the place forward, and what comes between two entries may then be looked for behind the end
of the file: `AdbBridge.FastDeploy.CopiesInside` is the condition that this does not happen
(`AdbBridge.FastDeploy.generatePatch_ends_iff`).
-/

namespace AdbBridge.FastDeploy

open List

/-- A run that comes to an end, and returns only what is in `P`. -/
def Run.Stops {α : Type} (r : Run α) (P : α → Prop) : Prop :=
  match r with
  | .ok a => P a
  | .error stop => stop ≠ .unfinished

theorem Run.Stops.ne_unfinished {α : Type} {r : Run α} {P : α → Prop} (h : r.Stops P) :
    r ≠ .error .unfinished := by
  rintro rfl
  exact h rfl

theorem Run.Stops.bind {α β : Type} {r : Run α} {next : α → Run β} {P : α → Prop} {Q : β → Prop}
    (h : r.Stops P) (hnext : ∀ a, P a → (next a).Stops Q) : (r >>= next).Stops Q := by
  cases r with
  | error stop => exact h
  | ok a => exact hnext a h

/-- A run that comes to an end, if it is given enough turns. -/
def Ends {α : Type} (run : ℕ → Run α) : Prop :=
  ∃ enough, ∀ turns ≥ enough, run turns ≠ .error .unfinished

/-- The loop of `GeneratePatch`, and what comes behind it. -/
def addEntries {Digest : Type} (disk : ℕ → Option ℕ) (turns newApkSize : ℕ) (g : Generator)
    (entries : List (SimpleEntry Digest)) : Run Bytes :=
  entries.foldlM (addEntry disk turns) g >>= finishPatch disk turns newApkSize

theorem addEntries_cons {Digest : Type} (disk : ℕ → Option ℕ) (turns newApkSize : ℕ)
    (g : Generator) (entry : SimpleEntry Digest) (entries : List (SimpleEntry Digest)) :
    addEntries disk turns newApkSize g (entry :: entries) =
      addEntry disk turns g entry >>= fun g => addEntries disk turns newApkSize g entries := by
  rw [addEntries, foldlM_cons, bind_assoc]
  rfl

/-- The generator with another entry pending, and another end of the last entry. -/
def Generator.pend (g : Generator) (delta off len last : ℕ) : Generator :=
  { g with patchEntry := ⟨delta, off, len⟩, currentSizeOut := last }

/-- **No copy goes over the end of the file.** The file is at `pos`, the last entry ended at `last`,
and each entry is given by its place and its size: before an entry that begins behind the last one,
what is in between is copied, and then the file is moved on by the size of the entry. -/
def CopiesInside (size : ℕ) : (pos last : ℕ) → List (ℕ × ℕ) → Prop
  | _, _, [] => True
  | pos, last, (offset, length) :: entries =>
    (last < offset → pos + (offset - last) ≤ size) ∧
      CopiesInside size (pos + (offset - last) + length) (offset + length) entries

instance decidableCopiesInside (size : ℕ) :
    ∀ (pos last : ℕ) (entries : List (ℕ × ℕ)), Decidable (CopiesInside size pos last entries)
  | _, _, [] => inferInstanceAs (Decidable True)
  | pos, last, (offset, length) :: entries =>
    have := decidableCopiesInside size (pos + (offset - last) + length) (offset + length) entries
    inferInstanceAs (Decidable ((last < offset → pos + (offset - last) ≤ size) ∧ _))

/-- The place and the size of the entry of the host. -/
def SimpleEntry.extent {Digest : Type} (e : SimpleEntry Digest) : ℕ × ℕ :=
  (e.localEntry.dataOffset, e.localEntry.dataSize)

/-! ### One copy -/

namespace Input

variable {disk : ℕ → Option ℕ} {f f' : Input} {turns amount k : ℕ} {data : Bytes}

/-- A read that is not at the end of the file gives something. -/
theorem read_pos (h : f.read disk amount = some (data, f')) (hamount : 0 < amount)
    (hpos : f.pos < f.file.length) : 0 < data.length := by
  obtain ⟨m, -, hread⟩ := Option.map_eq_some_iff.mp h
  obtain ⟨rfl, -⟩ := Prod.mk.inj hread
  rw [sliceOf, length_take, length_drop]
  omega

theorem bufferSize_pos : 0 < bufferSize := by decide

/-- **A copy over the end of the file does not return.** -/
theorem add_le_of_pipe (h : f.pipe disk turns amount = .ok (data, f')) (hamount : 0 < amount) :
    f.pos + amount ≤ f.file.length := by
  obtain ⟨hdata, hlength, -, -⟩ := pipe_eq h
  have hle : data.length ≤ f.file.length - f.pos := by
    rw [hdata, sliceOf, length_take, length_drop]
    exact min_le_right _ _
  omega

/-- Without a read that fails, a copy returns or needs more turns. -/
theorem pipe_eq_error {stop : Stop} (hdisk : ∀ k, disk k ≠ none)
    (h : f.pipe disk turns amount = .error stop) : stop = .unfinished := by
  induction turns generalizing amount f with
  | zero =>
    rw [pipe] at h
    split_ifs at h
    exact (Except.error.inj h).symm
  | succ turns ih =>
    rw [pipe] at h
    split_ifs at h with hzero
    cases hread : f.read disk (min amount bufferSize) with
    | none => exact absurd (Option.map_eq_none_iff.mp hread) (hdisk _)
    | some next =>
      rw [hread] at h
      change (next.2.pipe disk turns (amount - next.1.length) >>= _) = _ at h
      cases hrest : next.2.pipe disk turns (amount - next.1.length) with
      | error stop' =>
        rw [hrest] at h
        obtain rfl : stop' = stop := Except.error.inj h
        exact ih hrest
      | ok r =>
        rw [hrest] at h
        cases h

/-- **A copy inside the file returns**, if no read fails. -/
theorem pipe_inside (hdisk : ∀ k, disk k ≠ none) (hinside : f.pos + amount ≤ f.file.length)
    (hturns : amount ≤ turns) : ∃ data f', f.pipe disk turns amount = .ok (data, f') := by
  induction turns generalizing amount f with
  | zero => exact ⟨[], f, by rw [pipe, if_pos (Nat.le_zero.mp hturns)]⟩
  | succ turns ih =>
    rw [pipe]
    split_ifs with hzero
    · exact ⟨[], f, rfl⟩
    cases hread : f.read disk (min amount bufferSize) with
    | none => exact absurd (Option.map_eq_none_iff.mp hread) (hdisk _)
    | some next =>
      obtain ⟨buffer, f₁⟩ := next
      obtain ⟨-, hle, hfile, hpos, -⟩ := read_eq hread
      have hbuffer := read_pos hread (lt_min (by omega) bufferSize_pos) (by omega)
      have hmin : min amount bufferSize ≤ amount := min_le_left _ _
      have hinside' : f₁.pos + (amount - buffer.length) ≤ f₁.file.length := by
        rw [hfile, hpos]
        omega
      obtain ⟨rest, f', hrest⟩ := ih hinside' (by omega)
      exact ⟨_, _, Run.bind_eq_ok.mpr ⟨_, hrest, rfl⟩⟩

/-- A read that fails ends the copy, whatever it copies. -/
theorem pipe_of_failure (hk : disk k = none) (hreads : f.reads ≤ k) (hturns : k < f.reads + turns) :
    (f.pipe disk turns amount).Stops fun r => r.2.reads ≤ k := by
  induction turns generalizing amount f with
  | zero => exact absurd hturns (by omega)
  | succ turns ih =>
    rw [pipe]
    split_ifs with hzero
    · exact hreads
    cases hread : f.read disk (min amount bufferSize) with
    | none =>
      intro hstop
      cases hstop
    | some next =>
      obtain ⟨-, -, -, -, hcount⟩ := read_eq hread
      have hne : f.reads ≠ k := by
        rintro rfl
        rw [read, hk] at hread
        cases hread
      exact (ih (f := next.2) (by omega) (by omega)).bind fun _ hrest => hrest

end Input

/-! ### The place in the file -/

section Kept

variable {Digest : Type} {disk : ℕ → Option ℕ} {turns : ℕ} {file : Bytes} {g g' : Generator}
  {delta off len pos last n : ℕ} {entry : SimpleEntry Digest} {entries : List (SimpleEntry Digest)}

/-- **Where the generator is after `n` entries**: `pos` is the place in the file once what is
pending has been written, and `last` the end of the last entry. -/
structure Kept (file : Bytes) (g : Generator) (delta off len pos last n : ℕ) : Prop where
  file_eq : g.input.file = file
  pending : g.patchEntry = ⟨delta, off, len⟩
  place : g.input.pos + delta + len = pos
  real : g.realSizeOut = g.input.pos
  current : g.currentSizeOut = last
  last_lt : last < 2 ^ 34
  last_le : last ≤ pos
  pos_le : pos ≤ last + n * 2 ^ 34

theorem Kept.counted (h : Kept file g delta off len pos last n) :
    Counted g delta off len (pos - last) n where
  entry := h.pending
  sum := by
    have hplace := h.place
    have hle := h.last_le
    rw [h.real, h.current]
    omega
  current_lt := h.current ▸ h.last_lt
  excess_le := by
    have hpos := h.pos_le
    omega

/-- More turns do not change what is written. -/
theorem writePatchEntry_mono {turns' : ℕ} (h : writePatchEntry disk turns g = .ok g')
    (hle : turns ≤ turns') : writePatchEntry disk turns' g = .ok g' := by
  rw [writePatchEntry] at h ⊢
  split_ifs at h ⊢ with hzero hdelta
  · exact h
  · obtain ⟨r, hpipe, hlast⟩ := Run.bind_eq_ok.mp h
    exact Run.bind_eq_ok.mpr ⟨r, Input.pipe_mono hpipe hle, hlast⟩
  · exact h

/-- What is pending has been written. -/
theorem Kept.write (h : Kept file g delta off len pos last n) (hn : n < 2 ^ 28)
    (hwrite : writePatchEntry disk turns g = .ok g') :
    g'.input.file = file ∧ g'.input.pos = pos ∧ g'.realSizeOut = pos ∧
      g'.currentSizeOut = last := by
  obtain ⟨hcurrent, hreal, hcases⟩ :=
    writePatchEntry_cases h.counted hn hwrite
  have hplace := h.place
  rw [h.real, hplace] at hreal
  rw [h.current] at hcurrent
  rcases hcases with ⟨rfl, -, rfl, rfl⟩ | ⟨-, data, -, -, -, hfile, hpos⟩
  · exact ⟨h.file_eq, by omega, hreal, hcurrent⟩
  · exact ⟨hfile.trans h.file_eq, by omega, hreal, hcurrent⟩

/-- It is written, if that does not copy over the end of the file. -/
theorem Kept.exists_write (h : Kept file g delta off len pos last n)
    (hdisk : ∀ k, disk k ≠ none) (hinside : 0 < delta → g.input.pos + delta ≤ file.length)
    (hturns : delta ≤ turns) : ∃ g', writePatchEntry disk turns g = .ok g' := by
  rw [writePatchEntry]
  simp only [h.pending]
  split_ifs with hzero hdelta
  · exact ⟨g, rfl⟩
  · have hfits : g.input.pos + delta ≤ g.input.file.length := by
      rw [h.file_eq]
      exact hinside (by omega)
    obtain ⟨data, f, hpipe⟩ := Input.pipe_inside hdisk hfits hturns
    rw [Int.toNat_natCast, hpipe]
    exact ⟨_, rfl⟩
  · exact ⟨_, rfl⟩

/-- It is never written, if that copies over the end of the file. -/
theorem Kept.write_unfinished (h : Kept file g delta off len pos last n)
    (hdisk : ∀ k, disk k ≠ none) (hdelta : 0 < delta) (hover : file.length < g.input.pos + delta) :
    writePatchEntry disk turns g = .error .unfinished := by
  rw [writePatchEntry]
  simp only [h.pending]
  rw [if_neg (by omega), if_pos (by omega), Int.toNat_natCast]
  cases hpipe : g.input.pipe disk turns delta with
  | ok r =>
    have hle := Input.add_le_of_pipe hpipe hdelta
    rw [h.file_eq] at hle
    omega
  | error stop =>
    obtain rfl := Input.pipe_eq_error hdisk hpipe
    rfl

/-- An entry that begins behind the last one. -/
theorem Kept.addEntry_of_lt (h : Kept file g delta off len pos last n)
    (hlt : last < entry.localEntry.dataOffset) (hoffset : entry.localEntry.dataOffset < 2 ^ 32)
    (hsize : entry.localEntry.dataSize < 2 ^ 33) :
    addEntry disk turns g entry = (writePatchEntry disk turns g).bind fun g =>
      .ok (g.pend (entry.localEntry.dataOffset - last) entry.deviceEntry.dataOffset
        entry.localEntry.dataSize (entry.localEntry.dataOffset + entry.localEntry.dataSize)) := by
  have hdelta : int64 (entry.localEntry.dataOffset - g.currentSizeOut) =
      (entry.localEntry.dataOffset - last : ℕ) := by
    rw [h.current, int64_eq (by omega) (by omega)]
    omega
  have hend : sizeT (g.currentSizeOut + (((entry.localEntry.dataOffset - last : ℕ) : ℤ) +
      entry.localEntry.dataSize)) = entry.localEntry.dataOffset + entry.localEntry.dataSize := by
    rw [h.current, ← Nat.cast_add, ← Nat.cast_add, sizeT_cast (by omega)]
    omega
  rw [addEntry]
  simp only [hdelta, hend]
  rw [if_pos (by omega)]
  rfl

/-- An entry that begins where the last one ended, or before. -/
theorem Kept.addEntry_of_le (h : Kept file g delta off len pos last n) (hn : n < 2 ^ 28)
    (hle : entry.localEntry.dataOffset ≤ last) (hsize : entry.localEntry.dataSize < 2 ^ 33) :
    addEntry disk turns g entry =
      .ok (g.pend delta off (len + entry.localEntry.dataSize)
        (entry.localEntry.dataOffset + entry.localEntry.dataSize)) := by
  have hlast := h.last_lt
  have hplace := h.place
  have hpos := h.pos_le
  have hdelta : int64 (entry.localEntry.dataOffset - g.currentSizeOut) =
      entry.localEntry.dataOffset - last := by
    rw [h.current, int64_eq (by omega) (by omega)]
  have hend : sizeT (g.currentSizeOut + ((entry.localEntry.dataOffset - last : ℤ) +
      entry.localEntry.dataSize)) = entry.localEntry.dataOffset + entry.localEntry.dataSize := by
    have hsum : (g.currentSizeOut + ((entry.localEntry.dataOffset - last : ℤ) +
        entry.localEntry.dataSize)) =
          (entry.localEntry.dataOffset + entry.localEntry.dataSize : ℕ) := by
      rw [h.current]
      omega
    rw [hsum, sizeT_cast (by omega)]
  have hlength : int64 (len + entry.localEntry.dataSize) =
      (len + entry.localEntry.dataSize : ℕ) := by
    rw [int64_eq (by omega) (by omega), Nat.cast_add]
  rw [addEntry]
  simp only [hdelta, hend, h.pending, hlength]
  rw [if_neg (by omega)]
  rfl

/-- Where the generator is after an entry that begins behind the last one. -/
theorem Kept.next_of_lt (h : Kept file g delta off len pos last n) (hn : n < 2 ^ 28)
    (hlt : last < entry.localEntry.dataOffset) (hoffset : entry.localEntry.dataOffset < 2 ^ 32)
    (hsize : entry.localEntry.dataSize < 2 ^ 33) (hwrite : writePatchEntry disk turns g = .ok g') :
    Kept file (g'.pend (entry.localEntry.dataOffset - last) entry.deviceEntry.dataOffset
        entry.localEntry.dataSize (entry.localEntry.dataOffset + entry.localEntry.dataSize))
      (entry.localEntry.dataOffset - last) entry.deviceEntry.dataOffset entry.localEntry.dataSize
      (pos + (entry.localEntry.dataOffset - last) + entry.localEntry.dataSize)
      (entry.localEntry.dataOffset + entry.localEntry.dataSize) (n + 1) := by
  obtain ⟨hfile, hpos, hreal, -⟩ := h.write hn hwrite
  have hle := h.last_le
  have hbound := h.pos_le
  refine ⟨hfile, rfl, ?_, hreal.trans hpos.symm, rfl, by omega, by omega, by omega⟩
  show g'.input.pos + _ + _ = _
  rw [hpos]

/-- Where it is after an entry that is added to what is pending. -/
theorem Kept.next_of_le (h : Kept file g delta off len pos last n)
    (hle : entry.localEntry.dataOffset ≤ last) (hoffset : entry.localEntry.dataOffset < 2 ^ 32)
    (hsize : entry.localEntry.dataSize < 2 ^ 33) :
    Kept file (g.pend delta off (len + entry.localEntry.dataSize)
        (entry.localEntry.dataOffset + entry.localEntry.dataSize))
      delta off (len + entry.localEntry.dataSize)
      (pos + (entry.localEntry.dataOffset - last) + entry.localEntry.dataSize)
      (entry.localEntry.dataOffset + entry.localEntry.dataSize) (n + 1) := by
  have hplace := h.place
  have hlast := h.last_le
  have hlt := h.last_lt
  have hbound := h.pos_le
  refine ⟨h.file_eq, rfl, ?_, h.real, rfl, by omega, by omega, by omega⟩
  show g.input.pos + delta + (len + entry.localEntry.dataSize) = _
  omega

/-- An entry whose numbers are those of a record. -/
def SimpleEntry.Sized (e : SimpleEntry Digest) : Prop :=
  e.localEntry.dataOffset < 2 ^ 32 ∧ e.localEntry.dataSize < 2 ^ 33

/-- **If what is pending copies over the end of the file, nothing comes to an end any more.** -/
theorem Kept.unfinished (h : Kept file g delta off len pos last n) (hdisk : ∀ k, disk k ≠ none)
    (hdelta : 0 < delta) (hover : file.length < g.input.pos + delta)
    (hsized : ∀ e ∈ entries, e.Sized) (hn : n + entries.length < 2 ^ 28) :
    addEntries disk turns file.length g entries = .error .unfinished := by
  induction entries generalizing g len pos last n with
  | nil =>
    change finishPatch disk turns file.length g = _
    rw [finishPatch, h.write_unfinished hdisk hdelta hover]
    rfl
  | cons entry entries ih =>
    obtain ⟨hoffset, hsize⟩ := hsized entry mem_cons_self
    rw [length_cons] at hn
    rw [addEntries_cons]
    by_cases hlt : last < entry.localEntry.dataOffset
    · rw [h.addEntry_of_lt hlt hoffset hsize, h.write_unfinished hdisk hdelta hover]
      rfl
    · have hle := not_lt.mp hlt
      rw [h.addEntry_of_le (by omega) hle hsize]
      exact ih (h.next_of_le hle hoffset hsize) hover
        (fun e he => hsized e (mem_cons_of_mem _ he)) (by omega)

end Kept

/-! ### Coming to an end -/

section Ending

variable {Digest : Type} {disk : ℕ → Option ℕ} {file : Bytes} {g : Generator}
  {delta off len pos last n k turns : ℕ} {entries : List (SimpleEntry Digest)}

/-- Only the runs with enough turns matter. -/
theorem Ends.congr {α : Type} {run run' : ℕ → Run α} (enough : ℕ)
    (h : ∀ turns ≥ enough, run turns = run' turns) : Ends run ↔ Ends run' := by
  constructor
  · rintro ⟨N, hN⟩
    refine ⟨max N enough, fun turns hturns => ?_⟩
    rw [← h turns (le_trans (le_max_right _ _) hturns)]
    exact hN turns (le_trans (le_max_left _ _) hturns)
  · rintro ⟨N, hN⟩
    refine ⟨max N enough, fun turns hturns => ?_⟩
    rw [h turns (le_trans (le_max_right _ _) hturns)]
    exact hN turns (le_trans (le_max_left _ _) hturns)

/-- Behind the loop, everything comes to an end: the rest of the file is copied only if the two
sizes agree. -/
theorem Kept.ends_finish (h : Kept file g delta off len pos last n) (hn : n < 2 ^ 28)
    (hdisk : ∀ k, disk k ≠ none) (hinside : 0 < delta → g.input.pos + delta ≤ file.length) :
    Ends fun turns => finishPatch disk turns file.length g := by
  refine ⟨max delta file.length, fun turns hturns => ?_⟩
  obtain ⟨g', hwrite⟩ := h.exists_write hdisk hinside (le_trans (le_max_left _ _) hturns)
  obtain ⟨hfile, hpos, hreal, hcurrent⟩ := h.write hn hwrite
  have hlength := le_trans (le_max_right _ _) hturns
  show finishPatch disk turns file.length g ≠ .error .unfinished
  rw [finishPatch, hwrite]
  change (if g'.realSizeOut ≠ g'.currentSizeOut then _ else _) ≠ _
  split_ifs with hsizes hmore
  · simp
  · have hfits : g'.input.pos + (file.length - g'.currentSizeOut) ≤ g'.input.file.length := by
      rw [hfile]
      omega
    obtain ⟨data, f, hpipe⟩ :=
      Input.pipe_inside hdisk hfits (show file.length - g'.currentSizeOut ≤ turns by omega)
    change (g'.input.pipe disk turns (file.length - g'.currentSizeOut) >>= _) ≠ _
    rw [hpipe]
    exact nofun
  · exact nofun

/-- **The generator comes to an end exactly if no copy goes over the end of the file**, if no read
fails. The induction is on the entries; what is pending is copied later than it is accounted for. -/
theorem Kept.ends_iff (h : Kept file g delta off len pos last n) (hdisk : ∀ k, disk k ≠ none)
    (hinside : 0 < delta → g.input.pos + delta ≤ file.length) (hsized : ∀ e ∈ entries, e.Sized)
    (hn : n + entries.length < 2 ^ 28) :
    (Ends fun turns => addEntries disk turns file.length g entries) ↔
      CopiesInside file.length pos last (entries.map SimpleEntry.extent) := by
  induction entries generalizing g delta off len pos last n with
  | nil => exact iff_of_true (h.ends_finish hn hdisk hinside) trivial
  | cons entry entries ih =>
    obtain ⟨hoffset, hsize⟩ := hsized entry mem_cons_self
    have hsized' : ∀ e ∈ entries, e.Sized := fun e he => hsized e (mem_cons_of_mem _ he)
    rw [length_cons] at hn
    rw [map_cons, SimpleEntry.extent, CopiesInside]
    by_cases hlt : last < entry.localEntry.dataOffset
    · -- what is pending is written, and the data before the entry is pending then
      obtain ⟨g', hwrite⟩ := h.exists_write hdisk hinside le_rfl
      have hnext := h.next_of_lt (by omega) hlt hoffset hsize hwrite
      have hrun : ∀ turns ≥ delta, addEntries disk turns file.length g (entry :: entries) =
          addEntries disk turns file.length (g'.pend (entry.localEntry.dataOffset - last)
            entry.deviceEntry.dataOffset entry.localEntry.dataSize
              (entry.localEntry.dataOffset + entry.localEntry.dataSize)) entries := by
        intro turns hturns
        rw [addEntries_cons, h.addEntry_of_lt hlt hoffset hsize, writePatchEntry_mono hwrite hturns]
        rfl
      rw [Ends.congr delta hrun]
      obtain ⟨-, hpos, -, -⟩ := h.write (by omega) hwrite
      by_cases hfits : pos + (entry.localEntry.dataOffset - last) ≤ file.length
      · have hpending : 0 < entry.localEntry.dataOffset - last →
            g'.input.pos + (entry.localEntry.dataOffset - last) ≤ file.length := by
          intro _
          rw [hpos]
          exact hfits
        rw [ih hnext hpending hsized' (by omega)]
        exact (and_iff_right fun _ => hfits).symm
      · refine iff_of_false ?_ fun hcopies => hfits (hcopies.1 hlt)
        rintro ⟨enough, hends⟩
        refine hends enough le_rfl (hnext.unfinished hdisk (by omega) ?_ hsized' (by omega))
        show file.length < g'.input.pos + _
        rw [hpos]
        exact not_le.mp hfits
    · have hle := not_lt.mp hlt
      have hrun : ∀ turns ≥ 0, addEntries disk turns file.length g (entry :: entries) =
          addEntries disk turns file.length (g.pend delta off (len + entry.localEntry.dataSize)
            (entry.localEntry.dataOffset + entry.localEntry.dataSize)) entries := by
        intro turns _
        rw [addEntries_cons, h.addEntry_of_le (by omega) hle hsize]
        rfl
      rw [Ends.congr 0 hrun, ih (h.next_of_le hle hoffset hsize) hinside hsized' (by omega)]
      exact (and_iff_right fun hgt => absurd hgt hlt).symm

/-- A read that fails ends everything. -/
theorem writePatchEntry_of_failure (hk : disk k = none) (hreads : g.input.reads ≤ k)
    (hturns : k < turns) : (writePatchEntry disk turns g).Stops (·.input.reads ≤ k) := by
  have hlseek : ∀ (f : Input) (z : ℤ), (f.lseek z).reads = f.reads := by
    intro f z
    rw [Input.lseek]
    split_ifs <;> rfl
  rw [writePatchEntry]
  simp only
  split_ifs with hzero hdelta
  · exact hreads
  · exact (Input.pipe_of_failure hk hreads (by omega)).bind fun r hr =>
      (hlseek r.2 _).trans_le hr
  · exact (hlseek g.input _).trans_le hreads

theorem addEntry_of_failure (hk : disk k = none) (hreads : g.input.reads ≤ k) (hturns : k < turns)
    (entry : SimpleEntry Digest) : (addEntry disk turns g entry).Stops (·.input.reads ≤ k) := by
  rw [addEntry]
  simp only
  split_ifs with hdelta
  · exact (writePatchEntry_of_failure hk hreads hturns).bind fun _ hrest => hrest
  · exact hreads

theorem addEntries_of_failure {newApkSize : ℕ} (hk : disk k = none) (hreads : g.input.reads ≤ k)
    (hturns : k < turns) : (addEntries disk turns newApkSize g entries).Stops fun _ => True := by
  induction entries generalizing g with
  | nil =>
    refine (writePatchEntry_of_failure hk hreads hturns).bind fun g' hg' => ?_
    split_ifs with hsizes hmore
    · exact nofun
    · exact (Input.pipe_of_failure hk hg' (by omega)).bind fun _ _ => trivial
    · trivial
  | cons entry entries ih =>
    rw [addEntries_cons]
    exact (addEntry_of_failure hk hreads hturns entry).bind fun _ hg' => ih hg'

end Ending

/-! ### The generator -/

theorem kept_start (file output : Bytes) : Kept file ⟨⟨file, 0, 0⟩, output, 0, 0, {}⟩ 0 0 0 0 0 0 :=
  ⟨rfl, rfl, rfl, rfl, rfl, by decide, le_rfl, le_rfl⟩

/-- From the beginning on, if no read fails. -/
theorem ends_iff_of_sized {Digest : Type} {disk : ℕ → Option ℕ}
    {entries : List (SimpleEntry Digest)} (hdisk : ∀ k, disk k ≠ none)
    (hsized : ∀ e ∈ entries, e.Sized) (hcount : entries.length < 2 ^ 28) (localApk path : Bytes) :
    (Ends fun turns => generatePatch disk turns entries localApk path) ↔
      CopiesInside localApk.length 0 0 (entries.map SimpleEntry.extent) :=
  (kept_start localApk _).ends_iff hdisk (fun hpos => absurd hpos (lt_irrefl 0)) hsized
    (by rwa [Nat.zero_add])

/-- The entries come from records. -/
theorem sized_buildIdenticalEntries {Digest : Type} [DecidableEq Digest] {md5 : Bytes → Digest}
    {sort : List (SimpleEntry Digest) → List (SimpleEntry Digest)} {file cd : Bytes}
    {localApk : List (ApkEntry Digest)} (hsort : ∀ entries, (sort entries).Perm entries)
    (h : hostEntries md5 file cd = .ok localApk) (deviceApk : List (ApkEntry Digest)) :
    ∀ e ∈ buildIdenticalEntries sort localApk deviceApk, e.Sized := by
  obtain ⟨rfl, -⟩ := hostEntries_eq h
  intro e he
  rw [buildIdenticalEntries, (hsort _).mem_iff, mem_filterMap] at he
  obtain ⟨l, hl, he⟩ := he
  obtain ⟨r, -, rfl⟩ := mem_map.mp hl
  obtain ⟨d, -, rfl⟩ := Option.map_eq_some_iff.mp he
  exact ⟨u32_lt, entrySize_lt _ _⟩

/-- **The generation of a patch comes to an end exactly if** a read fails, or no copy goes over the
end of the file of the host. The host has found the entries in its file; what the device has sent is
arbitrary. -/
theorem generatePatch_ends_iff {Digest : Type} [DecidableEq Digest] (md5 : Bytes → Digest)
    (disk : ℕ → Option ℕ) (sort : List (SimpleEntry Digest) → List (SimpleEntry Digest))
    {file : Bytes} (regions : FileRegions file) (localApk deviceApk : List (ApkEntry Digest))
    (deviceApkPath : Bytes) (hsort : ∀ entries, (sort entries).Perm entries)
    (h : getHostAPKMetaData md5 regions = .ok localApk) :
    (Ends fun turns => generatePatch disk turns (buildIdenticalEntries sort localApk deviceApk)
        file deviceApkPath) ↔
      (∃ k, disk k = none) ∨ CopiesInside file.length 0 0
        ((buildIdenticalEntries sort localApk deviceApk).map SimpleEntry.extent) := by
  by_cases hfailure : ∃ k, disk k = none
  · refine iff_of_true ?_ (Or.inl hfailure)
    obtain ⟨k, hk⟩ := hfailure
    exact ⟨k + 1, fun turns hturns =>
      (addEntries_of_failure hk (Nat.zero_le k) hturns).ne_unfinished⟩
  · obtain ⟨cd, hcd, hentries⟩ := getHostAPKMetaData_eq h
    have hcount := length_buildIdenticalEntries hsort hentries hcd deviceApk
    rw [or_iff_right hfailure]
    exact ends_iff_of_sized (fun k hk => hfailure ⟨k, hk⟩)
      (sized_buildIdenticalEntries hsort hentries deviceApk) hcount _ _

/-- The pairs of entries of two archives, as the programs find them. -/
def pairsOf (host device : Apk) : List (SimpleEntry Bytes) :=
  buildIdenticalEntries byOffset ((cdRecords host.cd).map (hostEntry id host.file))
    ((cdRecords device.cd).map (ofRecord id))

/-- A patch is made of an archive that has one of its entries from the device. -/
theorem generatePatch_ends_iff_tinyApk :
    getHostAPKMetaData id (mappedPages (tinyApk 7 8).file) =
        .ok ((cdRecords (tinyApk 7 8).cd).map (hostEntry id (tinyApk 7 8).file)) ∧
      Ends fun turns => generatePatch (fun _ => some 100) turns
        (pairsOf (tinyApk 7 8) (tinyApk 9 8)) (tinyApk 7 8).file [] := by
  have hfound : getHostAPKMetaData id (mappedPages (tinyApk 7 8).file) =
      .ok ((cdRecords (tinyApk 7 8).cd).map (hostEntry id (tinyApk 7 8).file)) := by
    decide +kernel
  refine ⟨hfound, (generatePatch_ends_iff id _ byOffset _ _ _ []
    (fun entries => perm_insertionSort _ entries) hfound).mpr (Or.inr ?_)⟩
  decide +kernel

/-! ### An archive that lists an entry three times -/

/-- A local file entry with a hundred bytes of data. -/
def largeEntry : Bytes :=
  [0x50, 0x4b, 3, 4] ++ List.replicate 14 0 ++ [100, 0, 0, 0, 100, 0, 0, 0] ++
    List.replicate 4 0 ++ List.replicate 100 1

/-- The record of such an entry, at the beginning of the file. -/
def largeRecord : Bytes :=
  [0x50, 0x4b, 1, 2] ++ List.replicate 16 0 ++ [100, 0, 0, 0, 100, 0, 0, 0] ++
    List.replicate 14 0 ++ List.replicate 4 0

/-- Two entries with four bytes in between, and a directory that lists the first one three
times. -/
def repeatedApk : Apk where
  file := largeEntry ++ List.replicate 4 0 ++ tinyEntry 7 ++
    (largeRecord ++ largeRecord ++ largeRecord ++ tinyRecord 7 134) ++ endRecord 184 165
  cd := largeRecord ++ largeRecord ++ largeRecord ++ tinyRecord 7 134
  absolutePath := ascii "/data/app/base.apk"
  file_lt := by decide +kernel
  cd_lt := by decide +kernel
  absolutePath_lt := (tinyApk 7 8).absolutePath_lt

/-- **The host reads at the end of its file for ever**, if the device has the same file. -/
theorem not_ends_repeatedApk :
    getHostAPKMetaData id (mappedPages repeatedApk.file) =
        .ok ((cdRecords repeatedApk.cd).map (hostEntry id repeatedApk.file)) ∧
      ¬Ends fun turns => generatePatch (fun _ => some 100) turns (pairsOf repeatedApk repeatedApk)
        repeatedApk.file [] := by
  have hsized : ∀ e ∈ pairsOf repeatedApk repeatedApk, e.Sized := by
    unfold SimpleEntry.Sized
    decide +kernel
  have hcount : (pairsOf repeatedApk repeatedApk).length < 2 ^ 28 := by decide +kernel
  have hnot : ¬CopiesInside repeatedApk.file.length 0 0
      ((pairsOf repeatedApk repeatedApk).map SimpleEntry.extent) := by decide +kernel
  have hiff := @ends_iff_of_sized _ (fun _ => some 100) (pairsOf repeatedApk repeatedApk)
    (fun _ => Option.some_ne_none _) hsized hcount repeatedApk.file []
  refine ⟨by decide +kernel, ?_⟩
  rw [hiff]
  exact hnot

end AdbBridge.FastDeploy
