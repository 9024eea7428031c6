import AdbBridge.Incremental.Server

/-!
# What sending a block does

A call of `SendDataBlock` sends a few blocks of the tree of the file, one after the other, and
then the data block; it stops at the first `pread` that fails. `TreeStep` is one block of the
tree or one failure, and `sendDataBlock_cases` says what the whole call comes to.

For the tree it is known where the blocks come from: a leaf, or a block above the leaves whose
predecessors have all been sent before. Two flags decide whether the blocks above the leaves are
sent at all, so what a set flag says about the others is an invariant between two calls: the
`Trees` of a file.
-/

namespace AdbBridge.Incremental

open List Option

/-! ### Elements of vectors -/

section Entry

variable {α : Type*} {v : List α} {i j : ℤ} {x y : α}

theorem entry_eq_some : entry v i = some x ↔ 0 ≤ i ∧ v[i.toNat]? = some x := by
  rw [entry]
  split <;> simp [*]

theorem entry_natCast (v : List α) (k : ℕ) : entry v k = v[k]? := by simp [entry]

theorem entry_eq_none : entry v i = none ↔ i < 0 ∨ v.length ≤ i := by
  rw [entry]
  split
  · rw [List.getElem?_eq_none_iff]
    omega
  · simp only [true_iff]
    omega

theorem entry_assign_self (h : entry v i = some x) : entry (assign v i y) i = some y := by
  obtain ⟨hi, hx⟩ := entry_eq_some.mp h
  refine entry_eq_some.mpr ⟨hi, ?_⟩
  obtain ⟨hlt, -⟩ := List.getElem?_eq_some_iff.mp hx
  rw [assign, List.getElem?_set_self hlt]

theorem entry_assign_ne (hi : 0 ≤ i) (h : j ≠ i) : entry (assign v i y) j = entry v j := by
  rw [entry, entry]
  split
  · rw [assign, List.getElem?_set_ne (by omega)]
  · rfl

end Entry

namespace IncrementalServer

variable {s s' : IncrementalServer} {id id' i j k : ℤ} {f : File} {bytes : Bytes} {r : Response}
  {f' : File} {n : ℤ}

/-! ### The stream and the rest -/

/-- What `Flush` and `Send` leave as it is. -/
structure SameState (s s' : IncrementalServer) : Prop where
  files : s'.files = s.files
  prefetches : s'.prefetches = s.prefetches
  prefetchedFiles : s'.prefetchedFiles = s.prefetchedFiles
  doneSent : s'.doneSent = s.doneSent
  ended : s'.ended = s.ended
  fault : s'.fault = s.fault
  log : s'.log = s.log

theorem flush_same (s : IncrementalServer) : SameState s s.flush := by
  rw [flush]
  split <;> constructor <;> rfl

theorem stream_flush (s : IncrementalServer) : s.flush.stream = s.stream := by
  rw [flush]
  split
  · rfl
  · simp [stream]

theorem send_same (s : IncrementalServer) (r : Response) (flushNow : Bool) :
    SameState s (s.send r flushNow) := by
  rw [send]
  split
  · have h := flush_same { s with pending := s.pending ++ [r] }
    exact ⟨h.files, h.prefetches, h.prefetchedFiles, h.doneSent, h.ended, h.fault, h.log⟩
  · constructor <;> rfl

theorem stream_send (s : IncrementalServer) (r : Response) (flushNow : Bool) :
    (s.send r flushNow).stream = s.stream ++ [r] := by
  rw [send]
  split
  · rw [stream_flush]
    simp [stream]
  · simp [stream]

@[simp]
theorem stream_updFile (s : IncrementalServer) (id : ℤ) (g : File → File) :
    (s.updFile id g).stream = s.stream := rfl

theorem file_eq_some : s.file id = some f ↔ 0 ≤ id ∧ s.files[id.toNat]? = some f :=
  entry_eq_some

theorem file_updFile_self (g : File → File) (h : s.file id = some f) :
    (s.updFile id g).file id = some (g f) := by
  obtain ⟨hid, hf⟩ := file_eq_some.mp h
  exact file_eq_some.mpr ⟨hid, by simp [updFile, hf]⟩

theorem file_updFile_ne (g : File → File) (hid : 0 ≤ id) (h : id' ≠ id) :
    (s.updFile id g).file id' = s.file id' := by
  rw [file, file, entry, entry]
  split
  · have hne : id.toNat ≠ id'.toNat := by omega
    simp [updFile, hne]
  · rfl

/-! ### Flags -/

/-- The flag of a data block, if there is one. -/
def flag (s : IncrementalServer) (id i : ℤ) : Option Bool :=
  (s.file id).bind fun f => entry f.sentBlocks i

/-- The flag of a block of the tree, if there is one. -/
def treeFlag (s : IncrementalServer) (id j : ℤ) : Option Bool :=
  (s.file id).bind fun f => entry f.sentTreeBlocks j

theorem flag_of_file (h : s.file id = some f) (i : ℤ) : s.flag id i = entry f.sentBlocks i := by
  rw [flag, h, bind_some]

theorem treeFlag_of_file (h : s.file id = some f) (j : ℤ) :
    s.treeFlag id j = entry f.sentTreeBlocks j := by
  rw [treeFlag, h, bind_some]

/-- What is in a file besides the flags of its tree. -/
def fileData (f : File) : ℤ × ℕ × Bool × List ℤ × List Bool × ℤ :=
  (f.id, f.size, f.hasTree, f.priorityBlocks, f.sentBlocks, f.sentBlocksCount)

/-- What does not change with any flag of a file. -/
def fileDesc (f : File) : ℤ × ℕ × Bool × List ℤ := (f.id, f.size, f.hasTree, f.priorityBlocks)

section Views

variable {β : Type*} {view : File → β} {g : File → File}

/-- A view of the files that does not change. -/
theorem exists_file_of_map_eq (h : s'.files.map view = s.files.map view)
    (hf : s.file id = some f) : ∃ f', s'.file id = some f' ∧ view f' = view f := by
  obtain ⟨hid, hf⟩ := file_eq_some.mp hf
  have hview : (s.files.map view)[id.toNat]? = some (view f) := by simp [hf]
  rw [← h, List.getElem?_map, map_eq_some_iff] at hview
  obtain ⟨f', hf', heq⟩ := hview
  exact ⟨f', file_eq_some.mpr ⟨hid, hf'⟩, heq⟩

theorem map_updFile (hg : ∀ f, view (g f) = view f) :
    (s.updFile id g).files.map view = s.files.map view := by
  refine ext_getElem? fun k => ?_
  simp only [updFile, List.getElem?_map, List.getElem?_modify]
  cases s.files[k]? with
  | none => rfl
  | some f =>
    by_cases hk : id.toNat = k
    · simp [hk, hg]
    · simp [hk]

end Views

theorem desc_of_data (h : s'.files.map fileData = s.files.map fileData) :
    s'.files.map fileDesc = s.files.map fileDesc := by
  have hcomp : fileDesc = (fun d => (d.1, d.2.1, d.2.2.1, d.2.2.2.1)) ∘ fileData := rfl
  rw [hcomp, ← List.map_map, h, List.map_map]

theorem length_of_desc (h : fileDesc f' = fileDesc f) :
    f'.sentBlocks.length = f.sentBlocks.length := by
  have hsize : f'.size = f.size := congrArg (fun d => d.2.1) h
  have hlen := f'.blocks
  rw [hsize, ← f.blocks] at hlen
  exact_mod_cast hlen

theorem leafNodesOffset_of_desc (h : fileDesc f' = fileDesc f) :
    f'.leafNodesOffset = f.leafNodesOffset := by
  have hsize : f'.size = f.size := congrArg (fun d => d.2.1) h
  rw [File.leafNodesOffset, File.leafNodesOffset, File.leafNodesCount, File.leafNodesCount, hsize,
    f'.treeBlocks, f.treeBlocks, hsize]

theorem flag_of_data (h : s'.files.map fileData = s.files.map fileData) (id i : ℤ) :
    s'.flag id i = s.flag id i := by
  cases hf : s.file id with
  | some f =>
    obtain ⟨f', hf', hdata⟩ := exists_file_of_map_eq h hf
    rw [flag_of_file hf, flag_of_file hf']
    rw [show f'.sentBlocks = f.sentBlocks from congrArg (fun d => d.2.2.2.2.1) hdata]
  | none =>
    cases hf' : s'.file id with
    | none => rw [flag, flag, hf, hf']
    | some f' =>
      obtain ⟨f, hsome, -⟩ := exists_file_of_map_eq h.symm hf'
      exact absurd (hf.symm.trans hsome) (by simp)

/-! ### One block -/

/-- A `pread` was made. -/
def logged (s : IncrementalServer) (p : Pread) : IncrementalServer := { s with log := s.log ++ [p] }

/-- A block of the tree was read, sent and marked. -/
def sentTree (s : IncrementalServer) (id j : ℤ) (bytes : Bytes) : IncrementalServer :=
  ((s.logged ⟨id, .hash, j, true⟩).send ⟨id, .hash, .none, j, bytes⟩ false).updFile id
    (·.markTreeBlock j)

/-- A data block was read, marked and sent. -/
def sentData (host : Host) (s : IncrementalServer) (id i : ℤ) (raw : Bytes) (flushNow : Bool) :
    IncrementalServer :=
  ((s.logged ⟨id, .data, i, true⟩).updFile id (·.markBlock i)).send
    (dataResponse host id i raw) flushNow

theorem stream_logged (s : IncrementalServer) (p : Pread) : (s.logged p).stream = s.stream := rfl

theorem stream_sentTree (s : IncrementalServer) (id j : ℤ) (bytes : Bytes) :
    (s.sentTree id j bytes).stream = s.stream ++ [⟨id, .hash, .none, j, bytes⟩] := by
  rw [sentTree, stream_updFile, stream_send, stream_logged]

theorem stream_sentData (host : Host) (s : IncrementalServer) (id i : ℤ) (raw : Bytes)
    (flushNow : Bool) : (s.sentData host id i raw flushNow).stream =
      s.stream ++ [dataResponse host id i raw] := by
  rw [sentData, stream_send, stream_updFile, stream_logged]

theorem log_sentTree (s : IncrementalServer) (id j : ℤ) (bytes : Bytes) :
    (s.sentTree id j bytes).log = s.log ++ [⟨id, .hash, j, true⟩] :=
  (send_same (s.logged ⟨id, .hash, j, true⟩) _ _).log

theorem files_sentTree (s : IncrementalServer) (id j : ℤ) (bytes : Bytes) :
    (s.sentTree id j bytes).files = (s.updFile id (·.markTreeBlock j)).files := by
  have h := (send_same (s.logged ⟨id, .hash, j, true⟩) ⟨id, .hash, .none, j, bytes⟩ false).files
  rw [sentTree, updFile, h]
  rfl

theorem data_sentTree (s : IncrementalServer) (id j : ℤ) (bytes : Bytes) :
    (s.sentTree id j bytes).files.map fileData = s.files.map fileData := by
  rw [files_sentTree]
  exact map_updFile fun _ => rfl

theorem treeFlag_sentTree_self (h : s.treeFlag id j ≠ none) (bytes : Bytes) :
    (s.sentTree id j bytes).treeFlag id j = some true := by
  obtain ⟨f, hf, -⟩ := bind_eq_some_iff.mp (ne_none_iff_exists'.mp h).choose_spec
  obtain ⟨b, hb⟩ := ne_none_iff_exists'.mp h
  rw [treeFlag_of_file hf] at hb
  have hf' : (s.sentTree id j bytes).file id = some (f.markTreeBlock j) := by
    rw [file, files_sentTree]
    exact file_updFile_self _ hf
  rw [treeFlag_of_file hf']
  exact entry_assign_self hb

/-- Sending a block of a tree leaves the flags of all others alone. -/
theorem treeFlag_sentTree_ne (h : s.treeFlag id j ≠ none) (bytes : Bytes)
    (hne : id' ≠ id ∨ k ≠ j) : (s.sentTree id j bytes).treeFlag id' k = s.treeFlag id' k := by
  obtain ⟨f, hf, hj⟩ := bind_eq_some_iff.mp (ne_none_iff_exists'.mp h).choose_spec
  have hfile (x : ℤ) : (s.sentTree id j bytes).file x =
      (s.updFile id (·.markTreeBlock j)).file x := by
    rw [file, files_sentTree]
    rfl
  by_cases hid : id' = id
  · subst hid
    have hk : k ≠ j := hne.resolve_left (by simp)
    have hf' := (hfile id').trans (file_updFile_self _ hf)
    rw [treeFlag_of_file hf', treeFlag_of_file hf]
    exact entry_assign_ne (entry_eq_some.mp hj).1 hk
  · rw [treeFlag, treeFlag, hfile, file_updFile_ne _ (file_eq_some.mp hf).1 hid]

theorem read_cases (host : Host) (s : IncrementalServer) (id : ℤ) (type : BlockType) (idx : ℤ) :
    s.read host id type idx = (s.logged ⟨id, type, idx, false⟩, none) ∨
      ∃ bytes, s.read host id type idx = (s.logged ⟨id, type, idx, true⟩, some bytes) := by
  rw [read]
  generalize Option.filter _ _ = res
  cases res with
  | none => exact .inl rfl
  | some bytes => exact .inr ⟨bytes, rfl⟩

theorem sendTreeBlockAndMark_cases (host : Host) (s : IncrementalServer) (id j : ℤ) :
    s.sendTreeBlockAndMark host id j = (s.logged ⟨id, .hash, j, false⟩, false) ∨
      ∃ bytes, s.sendTreeBlockAndMark host id j = (s.sentTree id j bytes, true) := by
  rw [sendTreeBlockAndMark, sendTreeBlock]
  rcases read_cases host s id .hash j with h | ⟨bytes, h⟩
  · rw [h]
    exact .inl rfl
  · rw [h]
    exact .inr ⟨bytes, rfl⟩

/-! ### The blocks of the tree -/

/-- A block of the tree is sent that has not been sent before, or cannot be read. -/
inductive TreeStep (id : ℤ) (s : IncrementalServer) : IncrementalServer → Prop
  | failed (j : ℤ) : TreeStep id s (s.logged ⟨id, .hash, j, false⟩)
  | sent {j : ℤ} (bytes : Bytes) (h : s.treeFlag id j = some false) :
    TreeStep id s (s.sentTree id j bytes)

/-- Some blocks of the tree of a file, one after the other. -/
def TreeSteps (id : ℤ) : IncrementalServer → IncrementalServer → Prop :=
  Relation.ReflTransGen (TreeStep id)

/-- Nothing but the stream, the log and the flags of trees has changed. -/
structure TreeFrame (s s' : IncrementalServer) : Prop where
  data : s'.files.map fileData = s.files.map fileData
  prefetches : s'.prefetches = s.prefetches
  prefetchedFiles : s'.prefetchedFiles = s.prefetchedFiles
  doneSent : s'.doneSent = s.doneSent
  ended : s'.ended = s.ended
  fault : s'.fault = s.fault
  log : s.log <+: s'.log
  treeFlag : ∀ id j, s.treeFlag id j = some true → s'.treeFlag id j = some true

theorem TreeFrame.refl (s : IncrementalServer) : TreeFrame s s :=
  ⟨rfl, rfl, rfl, rfl, rfl, rfl, prefix_rfl, fun _ _ h => h⟩

theorem TreeFrame.trans {s'' : IncrementalServer} (h : TreeFrame s s') (h' : TreeFrame s' s'') :
    TreeFrame s s'' :=
  ⟨h'.data.trans h.data, h'.prefetches.trans h.prefetches,
    h'.prefetchedFiles.trans h.prefetchedFiles, h'.doneSent.trans h.doneSent,
    h'.ended.trans h.ended, h'.fault.trans h.fault, h.log.trans h'.log,
    fun id j hj => h'.treeFlag id j (h.treeFlag id j hj)⟩

/-- One block of a tree changes nothing but the stream, the log and the flags of trees. -/
theorem TreeStep.frame (h : TreeStep id s s') : TreeFrame s s' := by
  cases h with
  | failed j => exact ⟨rfl, rfl, rfl, rfl, rfl, rfl, prefix_append _ _, fun _ _ h => h⟩
  | @sent j bytes hj =>
    have h := send_same (s.logged ⟨id, .hash, j, true⟩) ⟨id, .hash, .none, j, bytes⟩ false
    refine ⟨data_sentTree s id j bytes, h.prefetches, h.prefetchedFiles, h.doneSent, h.ended,
      h.fault, ?_, fun id' k hk => ?_⟩
    · rw [log_sentTree]
      exact prefix_append _ _
    · by_cases hne : id' ≠ id ∨ k ≠ j
      · rw [treeFlag_sentTree_ne (by simp [hj]) bytes hne, hk]
      · obtain ⟨rfl, rfl⟩ : id' = id ∧ k = j := by simpa using hne
        exact treeFlag_sentTree_self (by simp [hj]) bytes

theorem TreeStep.treeFlag_ne (h : TreeStep id s s') (hne : id' ≠ id) (k : ℤ) :
    s'.treeFlag id' k = s.treeFlag id' k := by
  cases h with
  | failed j => rfl
  | sent bytes hj => exact treeFlag_sentTree_ne (by simp [hj]) bytes (.inl hne)

theorem TreeSteps.frame (h : TreeSteps id s s') : TreeFrame s s' := by
  induction h with
  | refl => exact .refl s
  | tail _ hlast ih => exact ih.trans hlast.frame

theorem TreeSteps.treeFlag_ne (h : TreeSteps id s s') (hne : id' ≠ id) (k : ℤ) :
    s'.treeFlag id' k = s.treeFlag id' k := by
  induction h with
  | refl => rfl
  | tail _ hlast ih => exact (hlast.treeFlag_ne hne k).trans ih

/-- A `pread` has failed. -/
def Failed (s : IncrementalServer) : Prop := ∃ p ∈ s.log, p.ok = false

instance decidableFailed (s : IncrementalServer) : Decidable s.Failed :=
  inferInstanceAs (Decidable (∃ p ∈ s.log, p.ok = false))

/-- The `pread` of one of the first `n` blocks of the tree of a file has failed. -/
def UpperFailed (s : IncrementalServer) (id n : ℤ) : Prop :=
  ∃ p ∈ s.log, p.fileId = id ∧ p.blockType = .hash ∧ p.blockIdx < n ∧ p.ok = false

instance decidableUpperFailed (s : IncrementalServer) (id n : ℤ) : Decidable (s.UpperFailed id n) :=
  inferInstanceAs (Decidable (∃ p ∈ s.log, _ ∧ _ ∧ _ ∧ _))

theorem Failed.mono (h : s.Failed) (hlog : s.log <+: s'.log) : s'.Failed := by
  obtain ⟨p, hp, hok⟩ := h
  exact ⟨p, hlog.subset hp, hok⟩

theorem UpperFailed.mono (h : s.UpperFailed id n) (hlog : s.log <+: s'.log) :
    s'.UpperFailed id n := by
  obtain ⟨p, hp, hprop⟩ := h
  exact ⟨p, hlog.subset hp, hprop⟩

theorem UpperFailed.failed (h : s.UpperFailed id n) : s.Failed := by
  obtain ⟨p, hp, -, -, -, hok⟩ := h
  exact ⟨p, hp, hok⟩

theorem failed_logged (s : IncrementalServer) (id : ℤ) (type : BlockType) (j : ℤ) :
    (s.logged ⟨id, type, j, false⟩).Failed := ⟨_, mem_append_right _ (mem_singleton_self _), rfl⟩

/-- **The loop over the blocks above the leaves** sends some of them, and all of them unless
one of them cannot be read. -/
theorem sendUpperBlocks_spec (host : Host) {m : ℕ} (s : IncrementalServer)
    (hflags : ∀ k, i ≤ k → k < i + m → s.treeFlag id k = some false) :
    ∃ s' ok, ∃ c ≤ m, sendUpperBlocks host id m i s = (s', ok) ∧ TreeSteps id s s' ∧
      (∀ k, i ≤ k → k < i + c → s'.treeFlag id k = some true) ∧
      (∀ k, k < i ∨ i + c ≤ k → s'.treeFlag id k = s.treeFlag id k) ∧
      (ok = true → c = m) ∧ (ok = false → s'.UpperFailed id (i + m)) := by
  induction m generalizing i s with
  | zero =>
    exact ⟨s, true, 0, le_rfl, rfl, .refl, fun k h h' => by omega, fun _ _ => rfl, fun _ => rfl,
      fun h => absurd h (by simp)⟩
  | succ m ih =>
    rcases sendTreeBlockAndMark_cases host s id i with h | ⟨bytes, h⟩
    · refine ⟨s.logged ⟨id, .hash, i, false⟩, false, 0, Nat.zero_le _, ?_, .single (.failed i),
        fun k h h' => by omega, fun _ _ => rfl, fun h => absurd h (by simp), fun _ => ?_⟩
      · rw [sendUpperBlocks, h]
      · exact ⟨_, mem_append_right _ (mem_singleton_self _), rfl, rfl,
          by dsimp only; omega, rfl⟩
    · have hi : s.treeFlag id i = some false := hflags i le_rfl (by omega)
      have hne : s.treeFlag id i ≠ none := by simp [hi]
      obtain ⟨s', ok, c, hc, heq, hsteps, hsent, hother, hok, hfail⟩ :=
        ih (i := i + 1) (s.sentTree id i bytes) fun k hk hk' => by
          rw [treeFlag_sentTree_ne hne bytes (.inr (by omega))]
          exact hflags k (by omega) (by push_cast; omega)
      refine ⟨s', ok, c + 1, by omega, ?_, .head (.sent bytes hi) hsteps, ?_, ?_,
        fun h => by rw [hok h], fun h => ?_⟩
      · rw [sendUpperBlocks, h]
        exact heq
      · intro k hk hk'
        by_cases hki : k = i
        · subst hki
          rw [hother k (by omega)]
          exact treeFlag_sentTree_self hne bytes
        · exact hsent k (by omega) (by push_cast at hk'; omega)
      · intro k hk
        rw [hother k (by push_cast at hk; omega)]
        exact treeFlag_sentTree_ne hne bytes (.inr (by push_cast at hk; omega))
      · have heq' : i + ((m + 1 : ℕ) : ℤ) = i + 1 + m := by push_cast; ring
        rw [heq']
        exact hfail h

/-- The first `n` blocks of the tree of a file have been sent. -/
def UpperSent (s : IncrementalServer) (id n : ℤ) : Prop :=
  ∀ k, 0 ≤ k → k < n → s.treeFlag id k = some true

/-- **What the flags of a tree say between two calls.** A leaf, or the first block, has been
sent only after everything above the leaves – unless something could not be read. -/
structure Trees (s : IncrementalServer) (id n : ℤ) : Prop where
  leaf : ∀ j, n ≤ j → s.treeFlag id j = some true → s.UpperSent id n ∨ s.UpperFailed id n
  first : 0 < n → s.treeFlag id 0 = some true → s.UpperSent id n ∨ s.UpperFailed id n
  rest : s.treeFlag id 0 = some false → ∀ j, 0 ≤ j → j < n → s.treeFlag id j = some false

theorem upper_mono (hlog : s.log <+: s'.log)
    (hflags : ∀ j, s.treeFlag id j = some true → s'.treeFlag id j = some true)
    (h : s.UpperSent id n ∨ s.UpperFailed id n) : s'.UpperSent id n ∨ s'.UpperFailed id n :=
  h.imp (fun h k hk hkn => hflags k (h k hk hkn)) fun h => h.mono hlog

/-- Where no flag has changed, nothing has. -/
theorem Trees.congr (h : s.Trees id n) (hlog : s.log <+: s'.log)
    (hflags : ∀ j, s'.treeFlag id j = s.treeFlag id j) : s'.Trees id n where
  leaf j hj hflag :=
    upper_mono hlog (fun j hj => (hflags j).trans hj) (h.leaf j hj (hflags j ▸ hflag))
  first hn hflag :=
    upper_mono hlog (fun j hj => (hflags j).trans hj) (h.first hn (hflags 0 ▸ hflag))
  rest hflag j hj hjn := by
    rw [hflags]
    exact h.rest (hflags 0 ▸ hflag) j hj hjn

/-- Once the blocks above the leaves have been dealt with, a leaf more makes no difference. -/
theorem Trees.of_upper (h : s.UpperSent id n ∨ s.UpperFailed id n)
    (hrest : s.treeFlag id 0 = some false → ∀ j, 0 ≤ j → j < n → s.treeFlag id j = some false) :
    s.Trees id n :=
  ⟨fun _ _ _ => h, fun _ _ => h, hrest⟩

/-- **`SendTreeBlocksForDataBlock`** on a file that has a tree: the leaf has been sent, or
something could not be read. -/
theorem sendTreeBlocksForDataBlock_spec (host : Host) (hf : s.file id = some f)
    (htree : f.hasTree = true) (hone : f.sentBlocks.length ≠ 1) (hi : 0 ≤ i)
    (hlt : i < f.sentBlocks.length) (htrees : s.Trees id f.leafNodesOffset) :
    ∃ s' ok, s.sendTreeBlocksForDataBlock host id i = (s', ok) ∧ TreeSteps id s s' ∧
      s'.Trees id f.leafNodesOffset ∧
      (ok = true → s'.treeFlag id (f.leafIdx i) = some true) ∧ (ok = false → s'.Failed) := by
  have hn := File.leafNodesOffset_nonneg htree hone
  obtain ⟨hleaf, hleaf'⟩ := File.leafIdx_range htree hi hlt
  rw [sendTreeBlocksForDataBlock, hf]
  simp only [htree, Bool.not_true, Bool.false_eq_true, if_false]
  cases hflag : entry f.sentTreeBlocks (f.leafIdx i) with
  | none =>
    have := entry_eq_none.mp hflag
    omega
  | some b =>
    rw [← treeFlag_of_file hf] at hflag
    cases b with
    | true => exact ⟨s, true, rfl, .refl, htrees, fun _ => hflag, fun h => absurd h (by simp)⟩
    | false =>
      have hne : s.treeFlag id (f.leafIdx i) ≠ none := by simp [hflag]
      rcases sendTreeBlockAndMark_cases host s id (f.leafIdx i) with h | ⟨bytes, h⟩
      · have hstep : TreeStep id s (s.logged ⟨id, .hash, f.leafIdx i, false⟩) := .failed _
        rw [h]
        exact ⟨_, false, rfl, .single hstep, htrees.congr hstep.frame.log fun _ => rfl,
          fun h => absurd h (by simp), fun _ => failed_logged s id .hash _⟩
      · have hstep : TreeStep id s (s.sentTree id (f.leafIdx i) bytes) := .sent bytes hflag
        have hsent := treeFlag_sentTree_self hne bytes
        have hupper {k : ℤ} (hk : k < f.leafNodesOffset) :
            (s.sentTree id (f.leafIdx i) bytes).treeFlag id k = s.treeFlag id k :=
          treeFlag_sentTree_ne hne bytes (.inr (by omega))
        rw [h]
        set s₁ := s.sentTree id (f.leafIdx i) bytes
        dsimp only
        by_cases hzero : f.leafNodesOffset = 0
        · rw [if_pos hzero]
          refine ⟨s₁, true, rfl, .single hstep, ?_, fun _ => hsent, fun h => absurd h (by simp)⟩
          exact .of_upper (.inl fun k hk hkn => by omega) fun _ j hj hjn => by omega
        · rw [if_neg hzero]
          have hzeroth : ((s₁.file id).bind fun f => entry f.sentTreeBlocks 0) = s.treeFlag id 0 :=
            hupper (by omega)
          rw [hzeroth]
          cases hfirst : s.treeFlag id 0 with
          | none =>
            rw [treeFlag_of_file hf, entry_eq_none] at hfirst
            omega
          | some b =>
            cases b with
            | true =>
              have hdone := upper_mono hstep.frame.log (hstep.frame.treeFlag id)
                (htrees.first (by omega) hfirst)
              refine ⟨s₁, true, rfl, .single hstep, .of_upper hdone ?_, fun _ => hsent,
                fun h => absurd h (by simp)⟩
              intro hfalse
              exact absurd (hfalse.symm.trans ((hupper (by omega)).trans hfirst)) (by simp)
            | false =>
              obtain ⟨s₂, ok, c, hc, heq, hsteps, hnew, hold, hok, hfail⟩ :=
                sendUpperBlocks_spec host (i := 0) (m := f.leafNodesOffset.toNat) s₁
                  fun k hk hkn => by
                    rw [hupper (by omega)]
                    exact htrees.rest hfirst k hk (by omega)
              refine ⟨s₂, ok, heq, .head hstep hsteps, .of_upper ?_ ?_, fun h => ?_,
                fun h => (hfail h).failed⟩
              · cases ok with
                | true =>
                  left
                  intro k hk hkn
                  have := hok rfl
                  exact hnew k hk (by omega)
                | false =>
                  right
                  have := hfail rfl
                  rwa [zero_add, Int.toNat_of_nonneg hn] at this
              · -- If the first block has not been sent, none has.
                intro hfalse j hj hjn
                have hc0 : c = 0 := by
                  by_contra hc0
                  exact absurd (hfalse.symm.trans (hnew 0 le_rfl (by omega))) (by simp)
                rw [hold j (by omega), hupper hjn]
                exact htrees.rest hfirst j hj hjn
              · exact hsteps.frame.treeFlag id _ hsent

/-! ### A data block -/

/-- Every tree that can be sent is as it should be. -/
def AllTrees (s : IncrementalServer) : Prop :=
  ∀ id f, s.file id = some f → f.hasTree = true → f.sentBlocks.length ≠ 1 →
    s.Trees id f.leafNodesOffset

/-- Only the tree of the file whose flags have changed is to be looked at again. -/
theorem allTrees_of_desc (id : ℤ) (h : s.AllTrees) (hdesc : s'.files.map fileDesc =
    s.files.map fileDesc)
    (hlog : s.log <+: s'.log)
    (hother : ∀ id', id' ≠ id → ∀ k, s'.treeFlag id' k = s.treeFlag id' k)
    (hself : ∀ f, s.file id = some f → f.hasTree = true → f.sentBlocks.length ≠ 1 →
      s'.Trees id f.leafNodesOffset) : s'.AllTrees := by
  intro id' f' hf' htree hone
  obtain ⟨f, hf, hdesc⟩ := exists_file_of_map_eq hdesc.symm hf'
  have htree' : f.hasTree = true := (congrArg (fun d => d.2.2.1) hdesc).trans htree
  have hone' : f.sentBlocks.length ≠ 1 := length_of_desc hdesc ▸ hone
  rw [← leafNodesOffset_of_desc hdesc]
  by_cases hid : id' = id
  · subst hid
    exact hself f hf htree' hone'
  · exact (h id' f hf htree' hone').congr hlog (hother id' hid)

/-- A step that changes no flag of a tree. -/
theorem AllTrees.congr (h : s.AllTrees) (hdesc : s'.files.map fileDesc = s.files.map fileDesc)
    (hlog : s.log <+: s'.log) (hflags : ∀ id j, s'.treeFlag id j = s.treeFlag id j) : s'.AllTrees :=
  allTrees_of_desc 0 h hdesc hlog (fun id' _ => hflags id')
    fun f hf htree hone => (h 0 f hf htree hone).congr hlog (hflags 0)

/-- **What a call of `SendDataBlock` comes to.** -/
inductive SentBlock (host : Host) (s : IncrementalServer) (id i : ℤ) (flushNow : Bool) (f : File) :
    IncrementalServer × SendResult → Prop
  /-- There is no such block any more, or it has been sent. -/
  | skipped (h : f.sentBlocks.length ≤ i ∨ s.flag id i = some true) :
    SentBlock host s id i flushNow f (s, .skipped)
  /-- The block has no flag, or its leaf has none. -/
  | outOfRange (h : i < 0 ∨ f.hasTree = true ∧ f.sentBlocks.length = 1) :
    SentBlock host s id i flushNow f (s.outOfRange, .error)
  /-- A block of the tree or the block itself cannot be read. -/
  | failed {s' : IncrementalServer} (hsteps : TreeSteps id s s') (htrees : s'.AllTrees)
    (hfailed : s'.Failed) : SentBlock host s id i flushNow f (s', .error)
  | unread {s' : IncrementalServer} (hsteps : TreeSteps id s s') (htrees : s'.AllTrees) :
    SentBlock host s id i flushNow f (s'.logged ⟨id, .data, i, false⟩, .error)
  /-- The block is sent, and its leaf has been. -/
  | sent {s' : IncrementalServer} (hi : 0 ≤ i) (hlt : i < f.sentBlocks.length)
    (hflag : s.flag id i = some false) (hsteps : TreeSteps id s s') (htrees : s'.AllTrees)
    (hone : f.hasTree = true → f.sentBlocks.length ≠ 1)
    (hleaf : f.hasTree = true → s'.treeFlag id (f.leafIdx i) = some true) (raw : Bytes) :
    SentBlock host s id i flushNow f (s'.sentData host id i raw flushNow, .sent)

/-- **Every call of `SendDataBlock`** comes to one of these cases. -/
theorem sendDataBlock_cases (host : Host) (hf : s.file id = some f) (htrees : s.AllTrees) (i : ℤ)
    (flushNow : Bool) : SentBlock host s id i flushNow f (s.sendDataBlock host id i flushNow) := by
  rw [sendDataBlock, hf]
  dsimp only
  by_cases hlt : (f.sentBlocks.length : ℤ) ≤ i
  · rw [if_pos hlt]
    exact .skipped (.inl hlt)
  rw [if_neg hlt]
  cases hflag : entry f.sentBlocks i with
  | none =>
    have := entry_eq_none.mp hflag
    exact .outOfRange (.inl (by omega))
  | some b =>
    have hi : 0 ≤ i := (entry_eq_some.mp hflag).1
    rw [← flag_of_file hf] at hflag
    cases b with
    | true => exact .skipped (.inr hflag)
    | false =>
      by_cases hone : f.hasTree = true ∧ f.sentBlocks.length = 1
      · -- There is no tree above a single block.
        have hleaf : entry f.sentTreeBlocks (f.leafIdx i) = none := by
          obtain rfl : i = 0 := by omega
          rw [entry_eq_none, File.leafIdx_of_one_block hone.1 hone.2]
          omega
        rw [sendTreeBlocksForDataBlock, hf]
        simp only [hone.1, Bool.not_true, Bool.false_eq_true, if_false, hleaf]
        exact .outOfRange (.inr hone)
      replace hone : f.hasTree = true → f.sentBlocks.length ≠ 1 := fun h h' => hone ⟨h, h'⟩
      obtain ⟨s', ok, heq, hsteps, hall, hleaf, hfail⟩ : ∃ s' ok,
          s.sendTreeBlocksForDataBlock host id i = (s', ok) ∧ TreeSteps id s s' ∧ s'.AllTrees ∧
          (ok = true → f.hasTree = true → s'.treeFlag id (f.leafIdx i) = some true) ∧
          (ok = false → s'.Failed) := by
        by_cases htree : f.hasTree = true
        · obtain ⟨s', ok, heq, hsteps, htrees', hleaf, hfail⟩ :=
            sendTreeBlocksForDataBlock_spec host hf htree (hone htree) hi (by omega)
              (htrees id f hf htree (hone htree))
          refine ⟨s', ok, heq, hsteps, ?_, fun hok _ => hleaf hok, hfail⟩
          refine allTrees_of_desc id htrees (desc_of_data hsteps.frame.data) hsteps.frame.log
            (fun _ => hsteps.treeFlag_ne) ?_
          intro f' hf' _ _
          obtain rfl : f' = f := some.inj (hf'.symm.trans hf)
          exact htrees'
        · refine ⟨s, true, ?_, .refl, htrees, fun _ h => absurd h htree, fun h =>
            absurd h (by simp)⟩
          rw [sendTreeBlocksForDataBlock, hf]
          simp only [htree, Bool.not_false, if_true]
      rw [heq]
      cases ok with
      | false => exact .failed hsteps hall (hfail rfl)
      | true =>
        dsimp only
        rcases read_cases host s' id .data i with h | ⟨raw, h⟩
        · rw [h]
          exact .unread hsteps hall
        · rw [h]
          exact .sent hi (by omega) hflag hsteps hall hone (hleaf rfl) raw

end IncrementalServer

end AdbBridge.Incremental
