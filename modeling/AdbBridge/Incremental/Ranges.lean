import AdbBridge.Incremental.Calls
import AdbBridge.Incremental.Priority

/-!
# Indices that are out of range

What a device sends ends up as an index: a number of a file, a number of a block, and from the
latter the number of a leaf. A request for a missing block is checked in full. A request for
the prefetching of a file is checked only for a negative number, and a file of one block that
has a signature has its leaf at `-1`.

Without these two – and without negative priority blocks – every index is in range.
-/

namespace AdbBridge.Incremental

/-- A file whose blocks can all be sent: it has not a signature and a single block, and no
priority block is negative. -/
def Source.Indexable (src : Source) : Prop :=
  (src.signature.isSome = true → numBytesToNumBlocks src.size ≠ 1) ∧
    ∀ b ∈ src.priorityBlocks, 0 ≤ b

instance (src : Source) : Decidable src.Indexable := inferInstanceAs (Decidable (_ ∧ _))

/-- A file has no negative priority blocks if `PriorityBlocksForFile` computed them: it can be
indexed unless it has a signature and a single block. -/
theorem Source.indexable_of_file {src : Source} {turns : ℕ} {filepath file : Bytes}
    {zip : Option (List ZipEntry)} (hsize : file.length < 2 ^ 43 - 8192)
    (hinside : ∀ e ∈ zip.getD [], e.Inside file.length)
    (hblocks : priorityBlocksForFile turns filepath file zip = some src.priorityBlocks)
    (hone : src.signature.isSome = true → numBytesToNumBlocks src.size ≠ 1) : src.Indexable :=
  ⟨hone, priorityBlocks_nonneg hsize hinside hblocks⟩

namespace IncrementalServer

variable {host : Host} {s : IncrementalServer} {id i : ℤ} {f : File}

/-- The blocks of a file can all be sent. -/
def FileOk (f : File) : Prop :=
  (f.hasTree = true → f.sentBlocks.length ≠ 1) ∧ ∀ b ∈ f.priorityBlocks, 0 ≤ b

/-- No index was out of range, and none is going to be. -/
structure InBounds (s : IncrementalServer) : Prop where
  fault : s.fault = false
  files : ∀ id f, s.file id = some f → FileOk f

theorem FileOk.of_desc {f' : File} (h : FileOk f) (hdesc : fileDesc f' = fileDesc f) :
    FileOk f' := by
  rw [FileOk, length_of_desc hdesc, show f'.hasTree = f.hasTree from congrArg (fun d =>
    d.2.2.1) hdesc,
    show f'.priorityBlocks = f.priorityBlocks from congrArg (fun d => d.2.2.2) hdesc]
  exact h

theorem InBounds.of_desc {s' : IncrementalServer} (h : s.InBounds)
    (hdesc : s'.files.map fileDesc = s.files.map fileDesc) (hfault : s'.fault = false) :
    s'.InBounds :=
  ⟨hfault, fun id f' hf' => by
    obtain ⟨f, hf, heq⟩ := exists_file_of_map_eq hdesc.symm hf'
    exact (h.files id f hf).of_desc heq.symm⟩

/-- **A call of `SendDataBlock` stays in range** for a block that is not negative. -/
theorem SentBlock.fault {flushNow : Bool} {res : IncrementalServer × SendResult}
    (h : SentBlock host s id i flushNow f res) (hi : 0 ≤ i) (hf : FileOk f) :
    res.1.fault = s.fault := by
  cases h with
  | skipped => rfl
  | outOfRange h =>
    rcases h with hneg | ⟨htree, hone⟩
    · omega
    · exact absurd hone (hf.1 htree)
  | failed hsteps => exact hsteps.frame.fault
  | unread hsteps => exact hsteps.frame.fault
  | @sent s' _ _ _ hsteps _ _ _ raw =>
    refine Eq.trans ?_ hsteps.frame.fault
    exact (send_same ((s'.logged ⟨id, .data, i, true⟩).updFile id (·.markBlock i)) _ _).fault

/-- A call inside the range of the files leaves no index out of range. -/
theorem inBounds_call {c : Call} (hc : c.Enabled False s) (htidy : s.Tidy) (h : s.InBounds) :
    (c.run host s).InBounds := by
  cases c with
  | data id i flushNow =>
    obtain ⟨f, hf, hi⟩ := hc
    have hcases := sendDataBlock_cases host hf htidy.trees i flushNow
    have hok := h.files id f hf
    refine h.of_desc hcases.frame.desc ?_
    rw [Call.run, hcases.fault (hi.elim (fun h => h) (hok.2 i)) hok]
    exact h.fault
  | outOfRange => exact hc.elim
  | flush =>
    have hsame := flush_same s
    exact h.of_desc (congrArg _ hsame.files) (hsame.fault.trans h.fault)
  | done =>
    have hsame := sendDone_same s
    exact h.of_desc (congrArg _ hsame.files) (hsame.fault.trans h.fault)
  | _ => exact h.of_desc rfl h.fault

theorem inBounds_of_fresh {srcs : List Source} (hsrcs : ∀ src ∈ srcs, src.Indexable)
    (h : Fresh srcs s) : s.InBounds := by
  refine ⟨h.fault, fun id f hf => ?_⟩
  obtain ⟨src, hsrc, hopen⟩ := h.opened id f hf
  obtain ⟨-, hsize, htree, hprio, -⟩ := open_eq_some hopen
  obtain ⟨hone, hnonneg⟩ := hsrcs src hsrc
  refine ⟨fun h hlen => hone (htree ▸ h) ?_, hprio ▸ hnonneg⟩
  rw [← hsize, ← f.blocks, hlen]
  rfl

end IncrementalServer

/-- **Every index is in range** if all files that are to be prefetched exist, and all files can
be indexed. -/
theorem indices_in_range {host : Host} {srcs : List Source} (hsrcs : ∀ src ∈ srcs, src.Indexable)
    {s : IncrementalServer} (h : (boundedServe host srcs).Reach s) : s.fault = false :=
  (IncrementalServer.inv_of_bounded (P := IncrementalServer.InBounds)
    (fun _ => IncrementalServer.inBounds_of_fresh hsrcs)
    (fun _ _ htidy hs hc => IncrementalServer.inBounds_call hc htidy hs) h).fault

/-- A file of two blocks with the tree over them. -/
def twoBlocksTree : List Source := [{ size := 8192, signature := some 4096, priorityBlocks := [2] }]

/-- A file of one block with a signature. -/
def oneBlockTree : List Source := [{ size := 1, signature := some 0 }]

/-- A file of three blocks, the last of them with a signer, and with the tree over them. -/
def signedSource : Source :=
  { size := (signedFile 8192).length, signature := some 4096, priorityBlocks := [2, 0] }

theorem priorityBlocksForFile_signedSource :
    priorityBlocksForFile 1 (ascii "a.apk") (signedFile 8192) none =
      some signedSource.priorityBlocks := by
  rw [priorityBlocksForFile, signerBlockOffset_signedFile, length_signedFile]
  decide

/-- The device asks for a block and for a file, and both are served, the priority blocks that
`PriorityBlocksForFile` computed among them. -/
theorem indices_in_range_two : ((boundedServe plainHost [signedSource]).run
    (serverFor [signedSource]) [missing 1, prefetching 0]).fault = false := by
  have hsize : signedSource.size = 8246 := length_signedFile 8192
  refine indices_in_range (List.forall_mem_singleton.mpr ?_)
    (Machine.Reach.run (M := boundedServe plainHost [signedSource])
      (.init (serverFor_init plainHost (by decide +kernel))) (by decide +kernel))
  refine Source.indexable_of_file (by rw [length_signedFile]; norm_num) (List.forall_mem_nil _)
    priorityBlocksForFile_signedSource fun _ => ?_
  rw [hsize]
  decide

/-- **Two ways out of range**: the prefetching of a file that does not exist, and any block of
a file that has a signature and no other block. -/
theorem index_out_of_range :
    ((serve plainHost twoBlocksTree).init (serverFor twoBlocksTree) ∧
      ((serve plainHost twoBlocksTree).run (serverFor twoBlocksTree)
        [prefetching 1]).fault = true) ∧
    ((serve plainHost oneBlockTree).init (serverFor oneBlockTree) ∧
      ((serve plainHost oneBlockTree).run (serverFor oneBlockTree)
        [missing 0]).fault = true) :=
  ⟨⟨serverFor_init plainHost (by decide +kernel), by decide +kernel⟩,
    ⟨serverFor_init plainHost (by decide +kernel), by decide +kernel⟩⟩

end AdbBridge.Incremental
