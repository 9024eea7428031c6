import AdbBridge.Incremental.Calls

/-!
# Every block is sent once

The flags of a file say exactly which of its blocks are in the stream, and each of them is
there once. The done header goes out when all flags are set, so that no block can follow it.

Nothing that is to be prefetched gets lost: as long as no `pread` has failed, a block of a
prefetched file that has not been sent is one that an entry of the queue is still to send.
When the queue is empty, there is no such block.

Each is kept by every call, and so by every request.
-/

namespace AdbBridge.Incremental

open List Option

/-- The header `SendDone` sends. -/
def Response.isDone (r : Response) : Bool := r.blockType = .data && r.fileId = -1

/-- The data blocks among some responses. -/
def dataBlocks (rs : List Response) : List (ℤ × ℤ) :=
  (rs.filter fun r => r.blockType = .data && !r.isDone).map fun r => (r.fileId, r.blockIdx)

theorem dataBlocks_append (rs rs' : List Response) :
    dataBlocks (rs ++ rs') = dataBlocks rs ++ dataBlocks rs' := by
  simp [dataBlocks]

/-- The done header comes after all of some blocks. -/
def DoneLast (block : ℤ → ℤ → Prop) (rs : List Response) : Prop :=
  ∀ pre r post, rs = pre ++ r :: post → r.isDone = true → ∀ id i, block id i →
    (id, i) ∈ dataBlocks pre

variable {rs : List Response}

theorem DoneLast.mono {block block' : ℤ → ℤ → Prop}
    (h : DoneLast block rs) (hle : ∀ id i, block' id i → block id i) : DoneLast block' rs :=
  fun pre r post heq hr id i hi => h pre r post heq hr id i (hle id i hi)

/-- Something that is not the header makes no difference. -/
theorem DoneLast.concat {block : ℤ → ℤ → Prop} {r : Response}
    (h : DoneLast block rs) (hr : r.isDone = true → ∀ id i, block id i → (id, i) ∈ dataBlocks rs) :
    DoneLast block (rs ++ [r]) := by
  intro pre r' post heq hr' id i hi
  rcases eq_nil_or_concat post with rfl | ⟨post, x, rfl⟩
  · obtain ⟨rfl, hlast⟩ := append_inj' heq rfl
    obtain rfl : r = r' := by simpa using hlast
    exact hr hr' id i hi
  · rw [concat_eq_append, ← cons_append, ← append_assoc] at heq
    obtain ⟨rfl, -⟩ := append_inj' heq rfl
    exact h pre r' post rfl hr' id i hi

namespace IncrementalServer

variable {host : Host} {wild : Prop} {s s' : IncrementalServer} {id i : ℤ} {f : File}

/-- **What the flags, the queue and the stream have to do with one another.** -/
structure Ledger (s : IncrementalServer) : Prop where
  counted : ∀ id f, s.file id = some f → f.sentBlocksCount = f.sentBlocks.count true
  /-- A block is in the stream once if its flag is set, and not at all otherwise. -/
  once : ∀ id i, (dataBlocks s.stream).count (id, i) = if s.flag id i = some true then 1 else 0
  /-- What is to be prefetched is sent or queued. -/
  covered : ∀ id ∈ s.prefetchedFiles, ∀ i, s.flag id i = some false →
    s.Failed ∨ Queued s.prefetches id i
  doneOnce : s.stream.countP Response.isDone = if s.doneSent then 1 else 0
  doneLast : DoneLast (fun id i => s.flag id i ≠ none) s.stream

/-! ### Calls that send no data -/

/-- The stream has grown by blocks of trees only. -/
def OnlyTrees (s s' : IncrementalServer) : Prop :=
  ∃ rs, s'.stream = s.stream ++ rs ∧ ∀ r ∈ rs, r.blockType = .hash

theorem onlyTrees_of_eq (h : s'.stream = s.stream) : OnlyTrees s s' :=
  ⟨[], by rw [h, append_nil], by simp⟩

theorem TreeSteps.onlyTrees (h : TreeSteps id s s') : OnlyTrees s s' := by
  induction h with
  | refl => exact onlyTrees_of_eq rfl
  | tail _ hlast ih =>
    obtain ⟨rs, heq, hrs⟩ := ih
    cases hlast with
    | failed j => exact ⟨rs, heq, hrs⟩
    | @sent j bytes _ =>
      refine ⟨rs ++ [⟨id, .hash, .none, j, bytes⟩], ?_, ?_⟩
      · rw [stream_sentTree, heq, append_assoc]
      · intro r hr
        rcases mem_append.mp hr with hr | hr
        · exact hrs r hr
        · rw [mem_singleton.mp hr]

theorem doneLast_append {block : ℤ → ℤ → Prop} {rs rs' : List Response}
    (h : DoneLast block rs) (hrs' : ∀ r ∈ rs', r.isDone = false) : DoneLast block (rs ++ rs') := by
  induction rs' using List.reverseRecOn with
  | nil => simpa using h
  | append_singleton rs' r ih =>
    rw [← append_assoc]
    refine (ih fun x hx => hrs' x (by simp [hx])).concat fun hr => ?_
    exact absurd (hr.symm.trans (hrs' r (by simp))) (by simp)

/-- Blocks of a tree, a failure, a change of the queue that loses nothing. -/
theorem Ledger.of_frame (h : s.Ledger) (hdata : s'.files.map fileData = s.files.map fileData)
    (hstream : OnlyTrees s s') (hdone : s'.doneSent = s.doneSent)
    (hcovered : ∀ id ∈ s'.prefetchedFiles, ∀ i, s.flag id i = some false →
      s'.Failed ∨ Queued s'.prefetches id i) : s'.Ledger := by
  obtain ⟨rs, heq, hrs⟩ := hstream
  have hnone : dataBlocks rs = [] := by
    simp only [dataBlocks, map_eq_nil_iff, filter_eq_nil_iff]
    intro r hr
    simp [hrs r hr]
  have hnotDone : ∀ r ∈ rs, r.isDone = false := fun r hr => by simp [Response.isDone, hrs r hr]
  have hzero : rs.countP Response.isDone = 0 := countP_eq_zero.mpr fun r hr => by
    simp [hnotDone r hr]
  refine ⟨fun id f' hf' => ?_, fun id i => ?_, fun id hid i hi => ?_, ?_, ?_⟩
  · obtain ⟨f, hf, hfd⟩ := exists_file_of_map_eq hdata.symm hf'
    have hcount := h.counted id f hf
    rw [show f.sentBlocksCount = f'.sentBlocksCount from congrArg (fun d => d.2.2.2.2.2) hfd,
      show f.sentBlocks = f'.sentBlocks from congrArg (fun d => d.2.2.2.2.1) hfd] at hcount
    exact hcount
  · rw [heq, dataBlocks_append, hnone, append_nil, flag_of_data hdata]
    exact h.once id i
  · rw [flag_of_data hdata] at hi
    exact hcovered id hid i hi
  · rw [heq, countP_append, hzero, add_zero, hdone]
    exact h.doneOnce
  · rw [heq]
    refine (doneLast_append h.doneLast hnotDone).mono fun id i hi => ?_
    rwa [flag_of_data hdata] at hi

/-- A step that does not even touch the queue. -/
theorem Ledger.of_tree (h : s.Ledger) (hframe : TreeFrame s s') (hstream : OnlyTrees s s') :
    s'.Ledger := by
  refine h.of_frame hframe.data hstream hframe.doneSent fun id hid i hi => ?_
  rw [hframe.prefetchedFiles] at hid
  rw [hframe.prefetches]
  exact (h.covered id hid i hi).imp_left fun hfailed => hfailed.mono hframe.log

/-! ### A data block -/

theorem count_assign {v : List Bool} (h : entry v i = some false) :
    (assign v i true).count true = v.count true + 1 := by
  obtain ⟨-, hv⟩ := entry_eq_some.mp h
  obtain ⟨hlt, hget⟩ := List.getElem?_eq_some_iff.mp hv
  rw [assign, count_set hlt, hget]
  simp

theorem isDone_dataResponse (host : Host) (hid : 0 ≤ id) (i : ℤ) (raw : Bytes) :
    (dataResponse host id i raw).isDone = false := by
  have hne : id ≠ -1 := by omega
  rw [dataResponse]
  split <;> simp [Response.isDone, hne]

theorem dataBlocks_dataResponse (host : Host) (hid : 0 ≤ id) (i : ℤ) (raw : Bytes) :
    dataBlocks [dataResponse host id i raw] = [(id, i)] := by
  have hdone := isDone_dataResponse host hid i raw
  simp only [dataBlocks, filter_singleton, hdone]
  rw [dataResponse]
  split <;> simp

/-- The block that is sent was not in the stream before, since its flag was not set. -/
theorem Ledger.sentData (h : s.Ledger) (hflag : s.flag id i = some false) (raw : Bytes)
    (flushNow : Bool) : (s.sentData host id i raw flushNow).Ledger := by
  obtain ⟨f, hf, hi⟩ := bind_eq_some_iff.mp hflag
  have hid : 0 ≤ id := (file_eq_some.mp hf).1
  have hne : s.flag id i ≠ none := by simp [hflag]
  have hframe := sentData_frame host raw flushNow hne
  have hstream := stream_sentData host s id i raw flushNow
  refine ⟨fun id' f' hf' => ?_, fun id' j => ?_, fun id' hid' j hj => ?_, ?_, ?_⟩
  · rw [file_sentData] at hf'
    by_cases heq : id' = id
    · subst heq
      obtain rfl : f.markBlock i = f' := some.inj ((file_updFile_self _ hf).symm.trans hf')
      have hcount := h.counted id' f hf
      simp only [File.markBlock, count_assign hi, hcount]
      push_cast
      rfl
    · rw [file_updFile_ne _ hid heq] at hf'
      exact h.counted id' f' hf'
  · rw [hstream, dataBlocks_append, dataBlocks_dataResponse host hid, count_append, h.once]
    by_cases hnew : id' ≠ id ∨ j ≠ i
    · have hpair : (id, i) ≠ (id', j) := by
        rintro heq
        simp only [Prod.mk.injEq] at heq
        omega
      rw [flag_sentData_ne raw flushNow hne hnew, count_singleton]
      simp [hpair]
    · obtain ⟨rfl, rfl⟩ : id' = id ∧ j = i := by simpa using hnew
      rw [flag_sentData_self raw flushNow hne, hflag]
      simp
  · rw [hframe.prefetchedFiles] at hid'
    rcases hframe.flag id' j with heq | heq
    · rw [hframe.prefetches]
      exact (h.covered id' hid' j (heq ▸ hj)).imp_left fun hfailed => hfailed.mono hframe.log
    · exact absurd (heq.symm.trans hj) (by simp)
  · rw [hstream, countP_append, countP_singleton, isDone_dataResponse host hid,
      hframe.doneSent]
    simpa using h.doneOnce
  · rw [hstream]
    refine DoneLast.concat (h.doneLast.mono fun id' j hj => ?_) fun hdone => ?_
    · by_cases hnew : id' ≠ id ∨ j ≠ i
      · rwa [flag_sentData_ne raw flushNow hne hnew] at hj
      · obtain ⟨rfl, rfl⟩ : id' = id ∧ j = i := by simpa using hnew
        exact hne
    · exact absurd (hdone.symm.trans (isDone_dataResponse host hid i raw)) (by simp)

/-- Whatever a call of `SendDataBlock` comes to, flags, queue and stream agree. -/
theorem SentBlock.ledger {flushNow : Bool} {res : IncrementalServer × SendResult}
    (h : SentBlock host s id i flushNow f res) (hs : s.Ledger) : res.1.Ledger := by
  cases h with
  | skipped => exact hs
  | outOfRange => exact hs.of_frame rfl (onlyTrees_of_eq rfl) rfl hs.covered
  | failed hsteps => exact hs.of_tree hsteps.frame hsteps.onlyTrees
  | @unread s' hsteps =>
    refine (hs.of_tree hsteps.frame hsteps.onlyTrees).of_frame rfl (onlyTrees_of_eq rfl) rfl ?_
    exact fun _ _ _ _ => .inl (failed_logged s' id .data i)
  | sent _ _ hflag hsteps _ _ _ raw =>
    refine (hs.of_tree hsteps.frame hsteps.onlyTrees).sentData ?_ raw flushNow
    rw [flag_of_data hsteps.frame.data, hflag]

/-! ### Every call -/

theorem Ledger.flag_of_mem (h : s.Ledger) (hmem : (id, i) ∈ dataBlocks s.stream) :
    s.flag id i = some true := by
  by_contra hflag
  have hcount := h.once id i
  rw [if_neg hflag] at hcount
  exact count_eq_zero.mp hcount hmem

theorem Ledger.mem_of_flag (h : s.Ledger) (hflag : s.flag id i = some true) :
    (id, i) ∈ dataBlocks s.stream := by
  refine count_pos_iff.mp ?_
  rw [h.once, if_pos hflag]
  exact Nat.one_pos

/-- A file whose blocks have been counted as sent has sent them. -/
theorem Ledger.flag_of_complete (h : s.Ledger) (hall : s.files.all File.complete = true)
    (hne : s.flag id i ≠ none) : s.flag id i = some true := by
  obtain ⟨b, hb⟩ := ne_none_iff_exists'.mp hne
  obtain ⟨f, hf, hi⟩ := bind_eq_some_iff.mp hb
  have hmem : f ∈ s.files := mem_of_getElem? (file_eq_some.mp hf).2
  have hcomplete := List.all_eq_true.mp hall f hmem
  rw [File.complete, beq_iff_eq, f.toInt32_length, h.counted id f hf] at hcomplete
  have htrue : ∀ b ∈ f.sentBlocks, true = b := count_eq_length.mp (by exact_mod_cast hcomplete)
  rw [flag_of_file hf, hi, ← htrue b (mem_of_getElem? (entry_eq_some.mp hi).2)]

/-- They agree after every call. -/
theorem ledger_call {c : Call} (hc : c.Enabled wild s) (htidy : s.Tidy) (h : s.Ledger) :
    (c.run host s).Ledger := by
  cases c with
  | data id i flushNow =>
    obtain ⟨f, hf, -⟩ := hc
    exact (sendDataBlock_cases host hf htidy.trees i flushNow).ledger h
  | queue q =>
    refine h.of_frame rfl (onlyTrees_of_eq rfl) rfl fun id hid i hi => ?_
    rcases h.covered id hid i hi with hfailed | hqueued
    · exact .inl hfailed
    · rcases hc.2 id i hqueued with hq | hflag | hfailed
      · exact .inr hq
      · exact absurd hi hflag
      · exact .inl hfailed
  | prefetch id =>
    obtain ⟨⟨f, hf⟩, -⟩ := hc
    have hid := (file_eq_some.mp hf).1
    refine h.of_frame rfl (onlyTrees_of_eq rfl) rfl fun id' hid' i hi => ?_
    simp only [Call.run, hf, map_some, toList_some]
    by_cases heq : id' = id
    · -- The new entry is for all blocks of the file.
      subst heq
      rw [flag_of_file hf] at hi
      have hsome : ¬ (i < 0 ∨ (f.sentBlocks.length : ℤ) ≤ i) := by
        rw [← entry_eq_none, hi]
        simp
      refine .inr ⟨.ofFile id'.toNat f, by simp, ?_, ?_, ?_⟩
      · simpa [PrefetchState.ofFile, PrefetchState.ofRange] using hid
      · simp only [PrefetchState.ofFile, PrefetchState.ofRange]
        omega
      · simp only [PrefetchState.ofFile, PrefetchState.ofRange, zero_add, f.toInt32_length]
        omega
    · have hmem : id' ∈ s.prefetchedFiles := (mem_cons.mp hid').resolve_left heq
      rcases h.covered id' hmem i hi with hfailed | ⟨p, hp, hrest⟩
      · exact .inl hfailed
      · exact .inr ⟨p, mem_append_left _ hp, hrest⟩
  | servingComplete => exact h.of_frame rfl (onlyTrees_of_eq rfl) rfl h.covered
  | ended => exact h.of_frame rfl (onlyTrees_of_eq rfl) rfl h.covered
  | outOfRange => exact h.of_frame rfl (onlyTrees_of_eq rfl) rfl h.covered
  | flush =>
    have hsame := flush_same s
    refine h.of_frame (by rw [Call.run, hsame.files]) (onlyTrees_of_eq (stream_flush s))
      hsame.doneSent fun id hid i hi => ?_
    rw [Call.run, hsame.prefetchedFiles] at hid
    rw [Call.run, Failed, hsame.log, hsame.prefetches]
    exact h.covered id hid i hi
  | done =>
    have hsame := sendDone_same s
    have hstream : (Call.done.run host s).stream = s.stream ++ [.done] :=
      stream_send s .done true
    have hflag (id i : ℤ) : (Call.done.run host s).flag id i = s.flag id i := by
      rw [flag, flag, file, file]
      exact congrArg (fun v => (entry v id).bind fun f => entry f.sentBlocks i) hsame.files
    refine ⟨fun id f hf => h.counted id f ?_, fun id i => ?_, fun id hid i hi => ?_, ?_, ?_⟩
    · rw [file, show (Call.done.run host s).files = s.files from hsame.files] at hf
      exact hf
    · rw [hstream, dataBlocks_append, hflag]
      simpa [dataBlocks, Response.isDone, Response.done] using h.once id i
    · rw [hflag] at hi
      have hcovered := h.covered id (hsame.prefetchedFiles ▸ hid) i hi
      simp only [Call.run, Failed, hsame.log, hsame.prefetches]
      exact hcovered
    · have honce := h.doneOnce
      rw [hc.1] at honce
      rw [hstream, countP_append, honce]
      rfl
    · rw [hstream]
      refine DoneLast.concat (h.doneLast.mono fun id i hi => by rwa [hflag] at hi) ?_
      intro _ id i hne
      rw [hflag] at hne
      exact h.mem_of_flag (h.flag_of_complete hc.2.2 hne)

theorem ledger_of_fresh {srcs : List Source} (h : Fresh srcs s) : s.Ledger where
  counted id f hf := by
    obtain ⟨src, -, hopen⟩ := h.opened id f hf
    obtain ⟨-, -, -, -, hcount, hflags, -⟩ := open_eq_some hopen
    rw [hcount, count_eq_zero.mpr fun hmem => absurd (hflags true hmem) (by simp)]
    rfl
  once id i := by
    rw [if_neg (h.flag id i), h.stream]
    rfl
  covered := by simp [h.prefetchedFiles]
  doneOnce := by simp [h.stream, h.doneSent]
  doneLast pre r post heq := by simp [h.stream] at heq

theorem ledger_of_reach {srcs : List Source} (h : (serve host srcs).Reach s) : s.Ledger :=
  inv_of_reach (fun _ => ledger_of_fresh) (fun _ _ htidy hs hc => ledger_call hc htidy hs) h

/-! ### Files that are to be prefetched -/

/-- A file that has been taken up for prefetching stays on the list. -/
theorem prefetchedFiles_steps (h : (calls host wild).Steps s s') (hs : s.Tidy)
    (hid : id ∈ s.prefetchedFiles) : id ∈ s'.prefetchedFiles := by
  refine (h.inv (P := fun s => s.Tidy ∧ id ∈ s.prefetchedFiles) ?_ ⟨hs, hid⟩).2
  rintro s c ⟨htidy, hid⟩ hc
  refine ⟨tidy_call hc htidy, ?_⟩
  cases c with
  | data id' i flushNow =>
    obtain ⟨f, hf, -⟩ := hc
    exact (sendDataBlock_cases host hf htidy.trees i flushNow).frame.prefetchedFiles ▸ hid
  | prefetch id' => exact mem_cons_of_mem _ hid
  | flush => exact (flush_same s).prefetchedFiles ▸ hid
  | done => exact (sendDone_same s).prefetchedFiles ▸ hid
  | _ => exact hid

/-- A bounded request to prefetch a file puts it on the list. -/
theorem mem_prefetchedFiles_step {r : RequestCommand} (hs : s.Tidy) (hbounded : s.Bounded (some r))
    (htype : r.type = some .prefetch) (hid : 0 ≤ r.fileId.toInt) :
    r.fileId.toInt ∈ (s.step host (some r)).prefetchedFiles := by
  have hdispatch : (calls host _).Steps s _ := dispatch_calls hs (some r)
  refine prefetchedFiles_steps (step_after_dispatch False (some r) (tidy_of_steps hdispatch hs))
    (tidy_of_steps hdispatch hs) ?_
  rw [elim_some, dispatch, htype]
  dsimp only
  rw [servePrefetch, if_neg (by omega)]
  split
  · assumption
  · cases hf : s.file r.fileId.toInt with
    | none =>
      have hrange : r.fileId.toInt < s.files.length := hbounded r rfl htype
      have hnone := entry_eq_none.mp hf
      omega
    | some f => exact mem_cons_self

end IncrementalServer

open IncrementalServer

variable {host : Host} {srcs : List Source} {s : IncrementalServer}

/-- And it stays there to the end of a run. -/
theorem mem_prefetchedFiles_run {reqs : List (Option RequestCommand)} {r : RequestCommand}
    (hs : s.Tidy) (hlegal : (boundedServe host srcs).Legal s reqs) (hr : some r ∈ reqs)
    (htype : r.type = some .prefetch) (hid : 0 ≤ r.fileId.toInt) :
    r.fileId.toInt ∈ ((boundedServe host srcs).run s reqs).prefetchedFiles := by
  -- A file that has been asked for is not forgotten.
  have hkeep {reqs : List (Option RequestCommand)} {s : IncrementalServer} (hs : s.Tidy)
      (hmem : r.fileId.toInt ∈ s.prefetchedFiles) :
      r.fileId.toInt ∈ ((boundedServe host srcs).run s reqs).prefetchedFiles := by
    induction reqs generalizing s with
    | nil => exact hmem
    | cons req reqs ih =>
      exact ih (tidy_step hs req) (prefetchedFiles_steps (step_calls hs req) hs hmem)
  induction reqs generalizing s with
  | nil => simp at hr
  | cons req reqs ih =>
    rcases mem_cons.mp hr with rfl | hr
    · exact hkeep (s := s.step host (some r)) (tidy_step hs _)
        (mem_prefetchedFiles_step hs hlegal.1.2 htype hid)
    · exact ih (tidy_step hs req) hlegal.2 hr

/-- A data block of one of the files. -/
def IncrementalServer.IsBlock (s : IncrementalServer) (id i : ℤ) : Prop :=
  ∃ f, s.file id = some f ∧ 0 ≤ i ∧ i < f.sentBlocks.length

theorem isBlock_iff {id i : ℤ} : s.IsBlock id i ↔ s.flag id i ≠ none := by
  rw [IsBlock, flag]
  cases s.file id with
  | none => simp
  | some f =>
    rw [bind_some, ne_eq, entry_eq_none]
    simp

/-- **The incremental server sends every block once and announces its completion correctly.**
After any requests, whatever the `pread`s return:
* the counters of the files are right;
* every data block has been sent at most once, and only blocks that there are;
* the done header has been sent at most once, and after every data block of every file;
* if no `pread` has failed and the queue is empty, every block of every file that was to be
  prefetched has been sent. -/
theorem serve_sends_blocks_once {s₀ : IncrementalServer} (hinit : (boundedServe host srcs).init s₀)
    {reqs : List (Option RequestCommand)} (hlegal : (boundedServe host srcs).Legal s₀ reqs)
    (hs : s = (boundedServe host srcs).run s₀ reqs) :
    (∀ f ∈ s.files, f.sentBlocksCount = f.sentBlocks.count true) ∧
    ((dataBlocks s.stream).Nodup ∧ ∀ b ∈ dataBlocks s.stream, s.IsBlock b.1 b.2) ∧
    (s.stream.countP Response.isDone ≤ 1 ∧
      ∀ pre r post, s.stream = pre ++ r :: post → r.isDone = true → ∀ id i, s.IsBlock id i →
        (id, i) ∈ dataBlocks pre) ∧
    (¬ s.Failed → s.prefetches = [] → ∀ r, some r ∈ reqs → r.type = some .prefetch →
      ∀ i, s.IsBlock r.fileId.toInt i → (r.fileId.toInt, i) ∈ dataBlocks s.stream) := by
  have hreach₀ : (boundedServe host srcs).Reach s₀ := .init hinit
  have htidy : s₀.Tidy := tidy_of_reach hreach₀.of_restrict
  have h : s.Ledger := ledger_of_reach (hs ▸ (hreach₀.run hlegal).of_restrict)
  refine ⟨fun f hf => ?_, ⟨?_, fun b hb => ?_⟩, ⟨?_, fun pre r post heq hr id i hi => ?_⟩, ?_⟩
  · obtain ⟨k, hk⟩ := mem_iff_getElem?.mp hf
    exact h.counted k f ((entry_natCast s.files k).trans hk)
  · refine nodup_iff_count_le_one.mpr fun ⟨id, i⟩ => ?_
    rw [h.once]
    split <;> omega
  · rw [isBlock_iff, h.flag_of_mem hb]
    simp
  · rw [h.doneOnce]
    split <;> omega
  · exact h.doneLast pre r post heq hr id i (isBlock_iff.mp hi)
  · intro hfailed hempty r hr htype i hi
    have hid : 0 ≤ r.fileId.toInt := by
      obtain ⟨f, hf, -⟩ := hi
      exact (file_eq_some.mp hf).1
    have hmem := hs ▸ mem_prefetchedFiles_run htidy hlegal hr htype hid
    refine h.mem_of_flag ?_
    cases hflag : s.flag r.fileId.toInt i with
    | none => exact absurd hflag (isBlock_iff.mp hi)
    | some b =>
      cases b with
      | true => rfl
      | false =>
        -- Nothing is queued, so nothing is missing.
        rcases h.covered _ hmem i hflag with hf | ⟨p, hp, -⟩
        · exact absurd hf hfailed
        · rw [hempty] at hp
          simp at hp

/-- A file of two blocks. -/
def twoBlocks : List Source := [{ size := 8192 }]

/-- The file is prefetched, and then its blocks have been sent. -/
theorem serve_sends_blocks_once_two :
    (0, 1) ∈ dataBlocks ((boundedServe plainHost twoBlocks).run (serverFor twoBlocks)
      [prefetching 0]).stream :=
  (serve_sends_blocks_once (serverFor_init plainHost (by decide +kernel))
    (by decide +kernel : (boundedServe plainHost twoBlocks).Legal _ [prefetching 0])
    rfl).2.2.2 (by decide +kernel) (by decide +kernel) ⟨2, 0, 0⟩ (by decide) (by decide) 1 ⟨_, rfl, by decide +kernel, by decide +kernel⟩

end AdbBridge.Incremental
