import AdbBridge.Incremental.Sent

/-!
# Hashes before data

A device can check a block only if it has the hashes for it: the leaf of the tree the block is
hashed in, and the blocks above the leaves. `SendTreeBlocksForDataBlock` sends the leaf first
and then everything above the leaves, and it takes a leaf that has been sent to mean that all
of it has been sent.

That is so unless one of the blocks above the leaves could not be read. The leaf is marked by
then, and the next data block under it goes out without the missing hashes. No block of a tree
is ever sent twice.
-/

namespace AdbBridge.Incremental

open List

/-- The blocks of trees among some responses. -/
def treeBlocks (rs : List Response) : List (ℤ × ℤ) :=
  (rs.filter fun r => r.blockType = .hash).map fun r => (r.fileId, r.blockIdx)

theorem treeBlocks_append (rs rs' : List Response) :
    treeBlocks (rs ++ rs') = treeBlocks rs ++ treeBlocks rs' := by
  simp [treeBlocks]

theorem treeBlocks_data {r : Response} (h : r.blockType = .data) : treeBlocks [r] = [] := by
  simp [treeBlocks, h]

namespace IncrementalServer

variable {host : Host} {wild : Prop} {s s' : IncrementalServer} {id i j : ℤ} {f : File} {f' : File}
  {srcs : List Source}

/-- The hashes for a data block are among some responses. -/
def HashesIn (rs : List Response) (id : ℤ) (f : File) (i : ℤ) : Prop :=
  (id, f.leafIdx i) ∈ treeBlocks rs ∧
    ∀ k, 0 ≤ k → k < f.leafNodesOffset → (id, k) ∈ treeBlocks rs

/-- Each data block of a file comes after its leaf, and after everything above the leaves
unless that could not be read. -/
def HashesFirst (s : IncrementalServer) (id : ℤ) (f : File) : Prop :=
  ∀ pre r post, s.stream = pre ++ r :: post → r.blockType = .data → r.fileId = id →
    (id, f.leafIdx r.blockIdx) ∈ treeBlocks pre ∧
      (s.UpperFailed id f.leafNodesOffset ∨
        ∀ k, 0 ≤ k → k < f.leafNodesOffset → (id, k) ∈ treeBlocks pre)

/-- **What the flags of the trees have to do with the stream.** -/
structure TreeLedger (s : IncrementalServer) : Prop where
  once : ∀ id j, (treeBlocks s.stream).count (id, j) = if s.treeFlag id j = some true then 1 else 0
  first : ∀ id f, s.file id = some f → f.hasTree = true → s.HashesFirst id f

theorem TreeLedger.mem_of_treeFlag (h : s.TreeLedger) (hflag : s.treeFlag id j = some true) :
    (id, j) ∈ treeBlocks s.stream := by
  refine count_pos_iff.mp ?_
  rw [h.once, if_pos hflag]
  exact Nat.one_pos

theorem leafIdx_of_desc (h : fileDesc f' = fileDesc f) (i : ℤ) : f'.leafIdx i = f.leafIdx i := by
  rw [File.leafIdx, File.leafIdx, leafNodesOffset_of_desc h]

/-- The files may get other flags, and the log may grow. -/
theorem HashesFirst.congr (h : s.HashesFirst id f) (hdesc : fileDesc f' = fileDesc f)
    (hlog : s.log <+: s'.log) (hstream : s'.stream = s.stream) : s'.HashesFirst id f' := by
  intro pre r post heq hr hid
  rw [leafIdx_of_desc hdesc, leafNodesOffset_of_desc hdesc]
  obtain ⟨hleaf, hupper⟩ := h pre r post (hstream ▸ heq) hr hid
  exact ⟨hleaf, hupper.imp_left fun hfailed => hfailed.mono hlog⟩

/-- One more response: if it is a data block of the file, its hashes are there. -/
theorem HashesFirst.concat {r : Response} (h : s.HashesFirst id f)
    (hdesc : fileDesc f' = fileDesc f) (hlog : s.log <+: s'.log)
    (hstream : s'.stream = s.stream ++ [r])
    (hr : r.blockType = .data → r.fileId = id → (id, f.leafIdx r.blockIdx) ∈ treeBlocks s.stream ∧
      (s'.UpperFailed id f.leafNodesOffset ∨
        ∀ k, 0 ≤ k → k < f.leafNodesOffset → (id, k) ∈ treeBlocks s.stream)) :
    s'.HashesFirst id f' := by
  intro pre r' post heq hr' hid
  rw [leafIdx_of_desc hdesc, leafNodesOffset_of_desc hdesc]
  rw [hstream] at heq
  rcases eq_nil_or_concat post with rfl | ⟨post, x, rfl⟩
  · obtain ⟨rfl, hlast⟩ := append_inj' heq rfl
    obtain rfl : r = r' := by simpa using hlast
    exact hr hr' hid
  · rw [concat_eq_append, ← cons_append, ← append_assoc] at heq
    obtain ⟨heq', -⟩ := append_inj' heq rfl
    obtain ⟨hleaf, hupper⟩ := h pre r' post heq' hr' hid
    exact ⟨hleaf, hupper.imp_left fun hfailed => hfailed.mono hlog⟩

/-- Nothing is sent and no flag of a tree changes. -/
theorem TreeLedger.of_frame (h : s.TreeLedger)
    (hdesc : s'.files.map fileDesc = s.files.map fileDesc) (hlog : s.log <+: s'.log)
    (hstream : s'.stream = s.stream) (hflags : ∀ id j, s'.treeFlag id j = s.treeFlag id j) :
    s'.TreeLedger where
  once id j := by
    rw [hstream, hflags]
    exact h.once id j
  first id f' hf' htree := by
    obtain ⟨f, hf, heq⟩ := exists_file_of_map_eq hdesc.symm hf'
    have htree' : f.hasTree = true := (congrArg (fun d => d.2.2.1) heq).trans htree
    exact (h.first id f hf htree').congr heq.symm hlog hstream

/-- A block of a tree enters the stream together with its flag. -/
theorem TreeLedger.treeStep (h : s.TreeLedger) (hstep : TreeStep id s s') : s'.TreeLedger := by
  cases hstep with
  | failed j => exact h.of_frame rfl (prefix_append _ _) rfl fun _ _ => rfl
  | @sent j bytes hj =>
    have hne : s.treeFlag id j ≠ none := by simp [hj]
    have hframe := (TreeStep.sent bytes hj).frame
    have hstream := stream_sentTree s id j bytes
    refine ⟨fun id' k => ?_, fun id' f' hf' htree => ?_⟩
    · have hone : treeBlocks [⟨id, .hash, .none, j, bytes⟩] = [(id, j)] := rfl
      rw [hstream, treeBlocks_append, hone, count_append, h.once]
      by_cases hnew : id' ≠ id ∨ k ≠ j
      · have hpair : (id, j) ≠ (id', k) := by
          rintro heq
          simp only [Prod.mk.injEq] at heq
          omega
        rw [treeFlag_sentTree_ne hne bytes hnew, count_singleton]
        simp [hpair]
      · obtain ⟨rfl, rfl⟩ : id' = id ∧ k = j := by simpa using hnew
        rw [treeFlag_sentTree_self hne bytes, hj]
        simp
    · obtain ⟨f, hf, heq⟩ := exists_file_of_map_eq (desc_of_data hframe.data).symm hf'
      have htree' : f.hasTree = true := (congrArg (fun d => d.2.2.1) heq).trans htree
      exact (h.first id' f hf htree').concat heq.symm hframe.log hstream
        fun hr => absurd hr (by simp)

theorem TreeLedger.treeSteps (h : s.TreeLedger) (hsteps : TreeSteps id s s') : s'.TreeLedger := by
  induction hsteps with
  | refl => exact h
  | tail _ hlast ih => exact ih.treeStep hlast

theorem blockType_dataResponse (host : Host) (id i : ℤ) (raw : Bytes) :
    (dataResponse host id i raw).blockType = .data := by
  rw [dataResponse]
  split <;> rfl

theorem fileId_dataResponse (host : Host) (id i : ℤ) (raw : Bytes) :
    (dataResponse host id i raw).fileId = id := by
  rw [dataResponse]
  split <;> rfl

theorem blockIdx_dataResponse (host : Host) (id i : ℤ) (raw : Bytes) :
    (dataResponse host id i raw).blockIdx = i := by
  rw [dataResponse]
  split <;> rfl

/-- **A data block goes out after its leaf.** What is above the leaves has gone out before, or
could not be read. -/
theorem TreeLedger.sentData (h : s.TreeLedger) (htrees : s.AllTrees) (hf : s.file id = some f)
    (hflag : s.flag id i ≠ none) (hone : f.hasTree = true → f.sentBlocks.length ≠ 1)
    (hleaf : f.hasTree = true → s.treeFlag id (f.leafIdx i) = some true) (raw : Bytes)
    (flushNow : Bool) : (s.sentData host id i raw flushNow).TreeLedger := by
  have hframe := sentData_frame host raw flushNow hflag
  have hstream := stream_sentData host s id i raw flushNow
  have htype := blockType_dataResponse host id i raw
  refine ⟨fun id' k => ?_, fun id' f' hf' htree => ?_⟩
  · rw [hstream, treeBlocks_append, treeBlocks_data htype, append_nil,
      treeFlag_sentData _ _ _ _ _ _ (file_eq_some.mp hf).1]
    exact h.once id' k
  · obtain ⟨g, hg, heq⟩ := exists_file_of_map_eq hframe.desc.symm hf'
    have htree' : g.hasTree = true := (congrArg (fun d => d.2.2.1) heq).trans htree
    refine (h.first id' g hg htree').concat heq.symm hframe.log hstream fun _ hid => ?_
    rw [fileId_dataResponse] at hid
    subst hid
    obtain rfl : g = f := Option.some.inj (hg.symm.trans hf)
    rw [blockIdx_dataResponse]
    have hsent := hleaf htree'
    refine ⟨h.mem_of_treeFlag hsent, ?_⟩
    obtain ⟨b, hb⟩ := Option.ne_none_iff_exists'.mp hflag
    rw [flag_of_file hg] at hb
    have hrange := entry_eq_some.mp hb
    obtain ⟨hlt, -⟩ := List.getElem?_eq_some_iff.mp hrange.2
    have hplace := File.leafIdx_range htree' hrange.1 (by omega)
    rcases (htrees id g hg htree' (hone htree')).leaf _ hplace.1 hsent with hupper | hfailed
    · exact .inr fun k hk hkn => h.mem_of_treeFlag (hupper k hk hkn)
    · exact .inl (hfailed.mono hframe.log)

/-- Whatever a call of `SendDataBlock` comes to, the flags of the trees agree with the stream. -/
theorem SentBlock.treeLedger {flushNow : Bool} {res : IncrementalServer × SendResult}
    (h : SentBlock host s id i flushNow f res) (hf : s.file id = some f) (hs : s.TreeLedger) :
    res.1.TreeLedger := by
  cases h with
  | skipped => exact hs
  | outOfRange => exact hs.of_frame rfl prefix_rfl rfl fun _ _ => rfl
  | failed hsteps => exact hs.treeSteps hsteps
  | unread hsteps =>
    exact (hs.treeSteps hsteps).of_frame rfl (prefix_append _ _) rfl fun _ _ => rfl
  | @sent s' _ _ hflag hsteps htrees hone hleaf raw =>
    obtain ⟨f', hf', hdata⟩ := exists_file_of_map_eq hsteps.frame.data hf
    have hdesc : fileDesc f' = fileDesc f :=
      congrArg (fun d => (d.1, d.2.1, d.2.2.1, d.2.2.2.1)) hdata
    have htree : f'.hasTree = f.hasTree := congrArg (fun d => d.2.2.1) hdesc
    refine (hs.treeSteps hsteps).sentData htrees hf' ?_ ?_ ?_ raw flushNow
    · rw [flag_of_data hsteps.frame.data, hflag]
      simp
    · rw [htree, length_of_desc hdesc]
      exact hone
    · rw [htree, leafIdx_of_desc hdesc]
      exact hleaf

theorem treeFlag_of_files (h : s'.files = s.files) (id j : ℤ) :
    s'.treeFlag id j = s.treeFlag id j := by
  rw [treeFlag, treeFlag, file, file, h]

/-- They agree after every call. -/
theorem treeLedger_call {c : Call} (hc : c.Enabled wild s) (htidy : s.Tidy) (h : s.TreeLedger) :
    (c.run host s).TreeLedger := by
  cases c with
  | data id i flushNow =>
    obtain ⟨f, hf, -⟩ := hc
    exact (sendDataBlock_cases host hf htidy.trees i flushNow).treeLedger hf h
  | flush =>
    have hsame := flush_same s
    exact h.of_frame (congrArg _ hsame.files) (hsame.log ▸ prefix_rfl) (stream_flush s)
      (treeFlag_of_files hsame.files)
  | done =>
    have hsame := sendDone_same s
    have hstream : (Call.done.run host s).stream = s.stream ++ [.done] := stream_send s .done true
    refine ⟨fun id j => ?_, fun id f hf htree => ?_⟩
    · have hflag : (Call.done.run host s).treeFlag id j = s.treeFlag id j :=
        treeFlag_of_files hsame.files id j
      rw [hstream, treeBlocks_append, treeBlocks_data rfl, append_nil, hflag]
      exact h.once id j
    · rw [file, show (Call.done.run host s).files = s.files from hsame.files] at hf
      refine (h.first id f hf htree).concat rfl (hsame.log ▸ prefix_rfl) hstream ?_
      -- The header belongs to no file.
      rintro - rfl
      exact absurd (file_eq_some.mp hf).1 (by decide)
  | _ => exact h.of_frame rfl prefix_rfl rfl fun _ _ => rfl

theorem treeLedger_of_fresh (h : Fresh srcs s) : s.TreeLedger where
  once id j := by
    rw [if_neg (h.treeFlag id j), h.stream]
    rfl
  first id f _ _ pre r post heq := by simp [h.stream] at heq

theorem treeLedger_of_reach (h : (serve host srcs).Reach s) : s.TreeLedger :=
  inv_of_reach (fun _ => treeLedger_of_fresh) (fun _ _ htidy hs hc => treeLedger_call hc htidy hs) h

end IncrementalServer

open IncrementalServer

/-- **Hashes precede data where they can be read.** Whatever is asked for: no block of a tree is
sent twice; and in a file with a tree and more than one block, if no `pread` of a block above
the leaves has failed, every data block has its leaf and everything above the leaves before it
in the stream. -/
theorem hashes_precede_data {host : Host} {srcs : List Source} {s : IncrementalServer}
    (h : (serve host srcs).Reach s) :
    (treeBlocks s.stream).Nodup ∧
      ∀ id f, s.file id = some f → f.hasTree = true → 1 < f.sentBlocks.length →
        ¬ s.UpperFailed id f.leafNodesOffset →
        ∀ pre r post, s.stream = pre ++ r :: post → r.blockType = .data → r.fileId = id →
          HashesIn pre id f r.blockIdx := by
  have hledger := treeLedger_of_reach h
  refine ⟨nodup_iff_count_le_one.mpr fun ⟨id, j⟩ => ?_, ?_⟩
  · rw [hledger.once]
    split <;> omega
  · intro id f hf htree _ hread pre r post heq hr hid
    obtain ⟨hleaf, hupper⟩ := hledger.first id f hf htree pre r post heq hr hid
    exact ⟨hleaf, hupper.resolve_left hread⟩

/-- A file whose tree has two leaves and one block above them. -/
def twoLeaves : List Source := [{ size := 129 * 4096, signature := some 12288 }]

/-- The second `pread` fails. -/
def secondFails : Host := { pread := fun n => if n = 1 then none else some [1], lz4 := fun _ => [] }

/-- **A block goes out without its hashes.** The leaf is sent for block `0`, and then the block
above the leaves cannot be read. When block `1` is asked for, the leaf has been sent: the
block follows, and the one above the leaves never does. -/
theorem data_without_hashes :
    (serve secondFails twoLeaves).init (serverFor twoLeaves) ∧
      (serve secondFails twoLeaves).Legal (serverFor twoLeaves) [missing 0, missing 1] ∧
      dataBlocks ((serve secondFails twoLeaves).run (serverFor twoLeaves)
        [missing 0, missing 1]).stream = [(0, 1), (0, 2), (0, 3), (0, 4), (0, 5), (0, 6), (0, 7),
          (0, 8)] ∧
      treeBlocks ((serve secondFails twoLeaves).run (serverFor twoLeaves)
        [missing 0, missing 1]).stream = [(0, 1)] ∧
      ((serve secondFails twoLeaves).run (serverFor twoLeaves) [missing 0, missing 1]).files.map
        File.leafNodesOffset = [1] :=
  ⟨serverFor_init secondFails (by decide +kernel), by decide +kernel, by decide +kernel,
    by decide +kernel, by decide +kernel⟩

/-- The server once it has been asked for the first block, with nothing but successful
`pread`s. -/
def twoLeavesSent : IncrementalServer :=
  (serve plainHost twoLeaves).run (serverFor twoLeaves) [missing 0]

def twoLeavesFile : File := (twoLeavesSent.file 0).get (by decide +kernel)

/-- The leaf and the block above it come first. -/
theorem hashes_precede_data_two : HashesIn (twoLeavesSent.stream.take 2) 0 twoLeavesFile 0 := by
  have hreach : (serve plainHost twoLeaves).Reach twoLeavesSent :=
    Machine.Reach.run (.init (serverFor_init plainHost (by decide +kernel))) (by decide +kernel)
  exact (hashes_precede_data hreach).2 0 twoLeavesFile (Option.some_get _).symm (by decide +kernel)
    (by decide +kernel) (by decide +kernel) (twoLeavesSent.stream.take 2)
    ⟨0, .data, .none, 0, [1]⟩ (twoLeavesSent.stream.drop 3) (by decide +kernel) rfl rfl

end AdbBridge.Incremental
