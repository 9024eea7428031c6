import AdbBridge.Incremental.Sending

/-!
# A request as a sequence of calls

From one `ReadRequest` to the next the server makes some calls of `SendDataBlock`, changes its
queue, flushes and perhaps announces that it is done. A `Call` is one of these, with a guard
that says when the server makes it; `step_calls` takes every request apart. What all calls
keep, every request keeps.

The guard on a change of the queue is where prefetching is accounted for: a block that some
entry was still to send is still to be sent by one, or does not have to be any more – or a
`pread` has failed.
-/

namespace AdbBridge.Incremental

open List Option

/-- Some entry of the queue is still to send a block. -/
def Queued (q : List PrefetchState) (id i : ℤ) : Prop :=
  ∃ p ∈ q, (p.file : ℤ) = id ∧ p.overallIndex ≤ i ∧ i < p.overallEnd

namespace IncrementalServer

/-- An entry of the queue belongs to a file that a request can name, and its indices are
those of blocks. -/
def EntryOk (s : IncrementalServer) (p : PrefetchState) : Prop :=
  (∃ f, s.file p.file = some f) ∧ p.file < 2 ^ 15 ∧ 0 ≤ p.overallIndex ∧ 0 ≤ p.priorityIndex

/-- What the server is made of is in order between two calls. -/
structure Tidy (s : IncrementalServer) : Prop where
  ids : ∀ id f, s.file id = some f → f.id = toInt16 id
  queue : ∀ p ∈ s.prefetches, s.EntryOk p
  trees : s.AllTrees

end IncrementalServer

/-- What the server does to serve a request. -/
inductive Call
  | data (id i : ℤ) (flushNow : Bool)
  | queue (q : List PrefetchState)
  | prefetch (id : ℤ)
  | servingComplete
  | ended
  | outOfRange
  | flush
  | done

namespace Call

open IncrementalServer

def run (host : Host) (s : IncrementalServer) : Call → IncrementalServer
  | data id i flushNow => (s.sendDataBlock host id i flushNow).1
  | queue q => { s with prefetches := q }
  | prefetch id =>
    { s with
      prefetchedFiles := id :: s.prefetchedFiles
      prefetches := s.prefetches ++ ((s.file id).map (.ofFile id.toNat)).toList }
  | servingComplete => { s with servingComplete := true }
  | ended => { s with ended := true }
  | outOfRange => s.outOfRange
  | flush => s.flush
  | done => { s.sendDone with doneSent := true }

/-- When the server makes a call. It leaves the range of the files only if `wild` allows it. -/
def Enabled (wild : Prop) (s : IncrementalServer) : Call → Prop
  | data id i _ => ∃ f, s.file id = some f ∧ (0 ≤ i ∨ i ∈ f.priorityBlocks)
  | queue q => (∀ p ∈ q, s.EntryOk p) ∧
    ∀ id i, Queued s.prefetches id i → Queued q id i ∨ s.flag id i ≠ some false ∨ s.Failed
  | prefetch id => (∃ f, s.file id = some f) ∧ id < 2 ^ 15
  | outOfRange => wild
  | done => s.doneSent = false ∧ s.prefetches = [] ∧ s.files.all File.complete = true
  | servingComplete | ended | flush => True

end Call

def calls (host : Host) (wild : Prop) : Machine IncrementalServer Call where
  init _ := True
  enabled s c := c.Enabled wild s
  step s c := c.run host s

namespace IncrementalServer

variable {host : Host} {wild : Prop} {s s' : IncrementalServer} {id id' i : ℤ} {f : File}
  {flushNow : Bool} {res : IncrementalServer × SendResult} {p : PrefetchState} {c : Call} {n k : ℕ}
  {rest : List PrefetchState} {srcs : List Source} {files : List File}

/-! ### What sending a block leaves as it is -/

/-- What a call of `SendDataBlock` keeps. -/
structure DataFrame (s s' : IncrementalServer) : Prop where
  desc : s'.files.map fileDesc = s.files.map fileDesc
  prefetches : s'.prefetches = s.prefetches
  prefetchedFiles : s'.prefetchedFiles = s.prefetchedFiles
  doneSent : s'.doneSent = s.doneSent
  ended : s'.ended = s.ended
  log : s.log <+: s'.log
  flag : ∀ id i, s'.flag id i = s.flag id i ∨ s'.flag id i = some true

theorem TreeFrame.dataFrame (h : TreeFrame s s') : DataFrame s s' :=
  ⟨desc_of_data h.data, h.prefetches, h.prefetchedFiles, h.doneSent, h.ended, h.log,
    fun id i => .inl (flag_of_data h.data id i)⟩

theorem DataFrame.refl (s : IncrementalServer) : DataFrame s s := (TreeFrame.refl s).dataFrame

theorem DataFrame.trans {s'' : IncrementalServer} (h : DataFrame s s') (h' : DataFrame s' s'') :
    DataFrame s s'' where
  desc := h'.desc.trans h.desc
  prefetches := h'.prefetches.trans h.prefetches
  prefetchedFiles := h'.prefetchedFiles.trans h.prefetchedFiles
  doneSent := h'.doneSent.trans h.doneSent
  ended := h'.ended.trans h.ended
  log := h.log.trans h'.log
  flag id i := by
    rcases h'.flag id i with heq | heq
    · rw [heq]
      exact h.flag id i
    · exact .inr heq

theorem DataFrame.outOfRange (h : DataFrame s s') : DataFrame s s'.outOfRange :=
  ⟨h.desc, h.prefetches, h.prefetchedFiles, h.doneSent, h.ended, h.log, h.flag⟩

theorem files_sentData (host : Host) (s : IncrementalServer) (id i : ℤ) (raw : Bytes)
    (flushNow : Bool) :
    (s.sentData host id i raw flushNow).files = (s.updFile id (·.markBlock i)).files :=
  (send_same ((s.logged ⟨id, .data, i, true⟩).updFile id (·.markBlock i)) _ _).files

theorem log_sentData (host : Host) (s : IncrementalServer) (id i : ℤ) (raw : Bytes)
    (flushNow : Bool) : (s.sentData host id i raw flushNow).log = s.log ++ [⟨id, .data, i, true⟩] :=
  (send_same ((s.logged ⟨id, .data, i, true⟩).updFile id (·.markBlock i)) _ _).log

theorem file_sentData (host : Host) (s : IncrementalServer) (id i : ℤ) (raw : Bytes)
    (flushNow : Bool) (id' : ℤ) : (s.sentData host id i raw flushNow).file id' =
      (s.updFile id (·.markBlock i)).file id' := by
  rw [file, files_sentData]
  rfl

theorem flag_sentData_self (raw : Bytes) (flushNow : Bool) (h : s.flag id i ≠ none) :
    (s.sentData host id i raw flushNow).flag id i = some true := by
  obtain ⟨b, hb⟩ := ne_none_iff_exists'.mp h
  obtain ⟨f, hf, hi⟩ := bind_eq_some_iff.mp hb
  rw [flag_of_file ((file_sentData ..).trans (file_updFile_self _ hf))]
  exact entry_assign_self hi

theorem flag_sentData_ne (raw : Bytes) (flushNow : Bool) (h : s.flag id i ≠ none) {j : ℤ}
    (hne : id' ≠ id ∨ j ≠ i) : (s.sentData host id i raw flushNow).flag id' j = s.flag id' j := by
  obtain ⟨b, hb⟩ := ne_none_iff_exists'.mp h
  obtain ⟨f, hf, hi⟩ := bind_eq_some_iff.mp hb
  by_cases hid : id' = id
  · subst hid
    rw [flag_of_file ((file_sentData ..).trans (file_updFile_self _ hf)), flag_of_file hf]
    exact entry_assign_ne (entry_eq_some.mp hi).1 (hne.resolve_left (by simp))
  · rw [flag, flag, file_sentData, file_updFile_ne _ (file_eq_some.mp hf).1 hid]

theorem treeFlag_sentData (host : Host) (s : IncrementalServer) (id i : ℤ) (raw : Bytes)
    (flushNow : Bool) (h : 0 ≤ id) (id' j : ℤ) :
    (s.sentData host id i raw flushNow).treeFlag id' j = s.treeFlag id' j := by
  rw [treeFlag, treeFlag, file_sentData]
  by_cases hid : id' = id
  · subst hid
    cases hf : s.file id' with
    | none =>
      have hnone : (s.updFile id' (·.markBlock i)).file id' = none := by
        rw [file, entry, if_pos h] at hf ⊢
        simp [updFile, hf]
      rw [hnone]
    | some f =>
      rw [file_updFile_self _ hf]
      rfl
  · rw [file_updFile_ne _ h hid]

/-- When a block of data is sent, flags are only ever set, and the log only grows. -/
theorem sentData_frame (host : Host) (raw : Bytes) (flushNow : Bool) (h : s.flag id i ≠ none) :
    DataFrame s (s.sentData host id i raw flushNow) := by
  have hsame := send_same ((s.logged ⟨id, .data, i, true⟩).updFile id (·.markBlock i))
    (dataResponse host id i raw) flushNow
  refine ⟨?_, hsame.prefetches, hsame.prefetchedFiles, hsame.doneSent, hsame.ended, ?_, ?_⟩
  · rw [files_sentData]
    exact map_updFile fun _ => rfl
  · rw [log_sentData]
    exact prefix_append _ _
  · intro id' j
    by_cases hne : id' ≠ id ∨ j ≠ i
    · exact .inl (flag_sentData_ne raw flushNow h hne)
    · obtain ⟨rfl, rfl⟩ : id' = id ∧ j = i := by simpa using hne
      exact .inr (flag_sentData_self raw flushNow h)

theorem SentBlock.frame (h : SentBlock host s id i flushNow f res) : DataFrame s res.1 := by
  cases h with
  | skipped => exact .refl s
  | outOfRange => exact (DataFrame.refl s).outOfRange
  | failed hsteps => exact hsteps.frame.dataFrame
  | unread hsteps =>
    refine hsteps.frame.dataFrame.trans ⟨rfl, rfl, rfl, rfl, rfl, ?_, fun _ _ => .inl rfl⟩
    exact prefix_append _ _
  | sent hi hlt hflag hsteps _ _ _ raw =>
    refine hsteps.frame.dataFrame.trans (sentData_frame host raw flushNow ?_)
    rw [flag_of_data hsteps.frame.data, hflag]
    simp

/-- Whatever a call comes to, every tree is still as it should be. -/
theorem SentBlock.trees (h : SentBlock host s id i flushNow f res) (hid : 0 ≤ id)
    (htrees : s.AllTrees) : res.1.AllTrees := by
  cases h with
  | skipped => exact htrees
  | outOfRange => exact htrees.congr rfl prefix_rfl fun _ _ => rfl
  | failed _ htrees' => exact htrees'
  | unread _ htrees' => exact htrees'.congr rfl (prefix_append _ _) fun _ _ => rfl
  | @sent s' hi hlt hflag hsteps htrees' _ _ raw =>
    have hframe : DataFrame s' (s'.sentData host id i raw flushNow) := by
      refine sentData_frame host raw flushNow ?_
      rw [flag_of_data hsteps.frame.data, hflag]
      simp
    exact htrees'.congr hframe.desc hframe.log fun id' j =>
      treeFlag_sentData host s' id i raw flushNow hid id' j

/-- **A call gets the block sent**, unless a `pread` fails or there is no such block. -/
theorem SentBlock.progress (hf : s.file id = some f) (h : SentBlock host s id i flushNow f res)
    (hfault : res.1.fault = false) : res.1.flag id i ≠ some false ∨ res.1.Failed := by
  cases h with
  | skipped h =>
    left
    rcases h with hlen | hsent
    · rw [flag_of_file hf, entry_eq_none.mpr (.inr hlen)]
      simp
    · simp [hsent]
  | outOfRange =>
    have habs : true = false := hfault
    exact absurd habs (by simp)
  | failed _ _ hfailed => exact .inr hfailed
  | @unread s' => exact .inr (failed_logged s' id .data i)
  | @sent s' _ _ hflag hsteps _ _ _ raw =>
    left
    rw [flag_sentData_self]
    · simp
    · rw [flag_of_data hsteps.frame.data, hflag]
      simp

/-! ### What calls keep -/

theorem EntryOk.of_desc (h : s.EntryOk p)
    (hdesc : s'.files.map fileDesc = s.files.map fileDesc) : s'.EntryOk p := by
  obtain ⟨⟨f, hf⟩, hrest⟩ := h
  obtain ⟨f', hf', -⟩ := exists_file_of_map_eq hdesc hf
  exact ⟨⟨f', hf'⟩, hrest⟩

theorem Tidy.of_desc (h : s.Tidy) (hdesc : s'.files.map fileDesc = s.files.map fileDesc)
    (hqueue : ∀ p ∈ s'.prefetches, s.EntryOk p) (htrees : s'.AllTrees) : s'.Tidy where
  ids id f' hf' := by
    obtain ⟨f, hf, heq⟩ := exists_file_of_map_eq hdesc.symm hf'
    exact (congrArg (·.1) heq).symm.trans (h.ids id f hf)
  queue p hp := (hqueue p hp).of_desc hdesc
  trees := htrees

/-- Where the files are the same, and the log. -/
theorem Tidy.of_same (h : s.Tidy) (hfiles : s'.files = s.files) (hlog : s'.log = s.log)
    (hqueue : ∀ p ∈ s'.prefetches, s.EntryOk p) : s'.Tidy := by
  refine h.of_desc (by rw [hfiles]) hqueue (h.trees.congr (by rw [hfiles]) (by rw [hlog]) ?_)
  intro id j
  rw [treeFlag, treeFlag, file, file, hfiles]

theorem sendDone_same (s : IncrementalServer) : SameState s s.sendDone := send_same s .done true

/-- A call that is enabled leaves what the server is made of in order. -/
theorem tidy_call (hc : c.Enabled wild s) (h : s.Tidy) : (c.run host s).Tidy := by
  cases c with
  | data id i flushNow =>
    obtain ⟨f, hf, -⟩ := hc
    have hcases := sendDataBlock_cases host hf h.trees i flushNow
    refine h.of_desc hcases.frame.desc (fun p hp => h.queue p ?_)
      (hcases.trees (file_eq_some.mp hf).1 h.trees)
    rwa [← hcases.frame.prefetches]
  | queue q => exact h.of_same rfl rfl hc.1
  | prefetch id =>
    obtain ⟨⟨f, hf⟩, hlt⟩ := hc
    have hid := (file_eq_some.mp hf).1
    refine h.of_same rfl rfl fun p hp => ?_
    simp only [Call.run, hf, map_some, toList_some, mem_append,
      mem_singleton] at hp
    rcases hp with hp | rfl
    · exact h.queue p hp
    · refine ⟨⟨f, ?_⟩, ?_, le_rfl, le_rfl⟩
      · simpa [PrefetchState.ofFile, PrefetchState.ofRange, hid] using hf
      · simp only [PrefetchState.ofFile, PrefetchState.ofRange]
        omega
  | servingComplete => exact h.of_same rfl rfl h.queue
  | ended => exact h.of_same rfl rfl h.queue
  | outOfRange => exact h.of_same rfl rfl h.queue
  | flush =>
    have hsame := flush_same s
    refine h.of_same hsame.files hsame.log fun p hp => h.queue p ?_
    rwa [← hsame.prefetches]
  | done =>
    have hsame := sendDone_same s
    refine h.of_same hsame.files hsame.log fun p hp => h.queue p ?_
    rwa [← hsame.prefetches]

theorem steps_of_call (hc : c.Enabled wild s) : (calls host wild).Steps s (c.run host s) :=
  Machine.Steps.single (M := calls host wild) hc

theorem tidy_of_steps (h : (calls host wild).Steps s s') (hs : s.Tidy) : s'.Tidy :=
  h.inv (fun _ _ h hc => tidy_call hc h) hs

/-! ### Prefetching -/

/-- **A loop over some blocks of a file.** Those that the index has passed have been sent; if
some are left, no more may be sent. -/
theorem sendBlocks_spec (wild : Prop) (is : List ℤ) (blocksToSend : ℕ) (hs : s.Tidy)
    (hf : s.file id = some f) (his : ∀ i ∈ is, 0 ≤ i ∨ i ∈ f.priorityBlocks) :
    ∃ s' b n, sendBlocks host id is blocksToSend s = (s', b, n) ∧
      (calls host wild).Steps s s' ∧ DataFrame s s' ∧ n ≤ is.length ∧
      (∀ i ∈ is.take n, s'.flag id i ≠ some false ∨ s'.Failed) ∧
      (s'.fault = false → n = is.length ∨ b = 0) := by
  induction is generalizing s f blocksToSend with
  | nil => exact ⟨s, blocksToSend, 0, rfl, .refl, .refl s, le_rfl, by simp, fun _ => .inl rfl⟩
  | cons i is ih =>
    rw [sendBlocks]
    by_cases hzero : blocksToSend = 0
    · rw [if_pos hzero]
      exact ⟨s, blocksToSend, 0, rfl, .refl, .refl s, Nat.zero_le _, by simp, fun _ => .inr hzero⟩
    rw [if_neg hzero]
    have hcases := sendDataBlock_cases host hf hs.trees i false
    have hstep : (calls host wild).Steps s (s.sendDataBlock host id i false).1 :=
      steps_of_call (c := .data id i false) ⟨f, hf, his i (by simp)⟩
    have hprogress := SentBlock.progress hf hcases
    have hframe := hcases.frame
    clear hcases
    generalize s.sendDataBlock host id i false = call at hstep hprogress hframe ⊢
    obtain ⟨s₁, res⟩ := call
    dsimp only at hstep hprogress hframe ⊢
    by_cases hfault : s₁.fault = true
    · rw [if_pos hfault]
      exact ⟨s₁, blocksToSend, 0, rfl, hstep, hframe, Nat.zero_le _, by simp,
        fun h => absurd (hfault.symm.trans h) (by simp)⟩
    rw [if_neg hfault]
    obtain ⟨f₁, hf₁, hdesc⟩ := exists_file_of_map_eq hframe.desc hf
    have hprio : f₁.priorityBlocks = f.priorityBlocks := congrArg (fun d => d.2.2.2) hdesc
    obtain ⟨s', b, n, heq, hsteps, hframe', hn, hsent, hstop⟩ :=
      ih (if res = .sent then blocksToSend - 1 else blocksToSend) (tidy_of_steps hstep hs) hf₁
        fun j hj => hprio ▸ his j (by simp [hj])
    rw [heq]
    refine ⟨s', b, n + 1, rfl, hstep.trans hsteps, hframe.trans hframe', by simp [hn], ?_, ?_⟩
    · rw [take_succ_cons]
      rintro j (_ | hj)
      · rcases hprogress (by simpa using hfault) with hflag | hfailed
        · rcases hframe'.flag id i with heq | heq
          · exact .inl (heq ▸ hflag)
          · exact .inl (by simp [heq])
        · exact .inr (hfailed.mono hframe'.log)
      · exact hsent j ‹_›
    · intro h
      rcases hstop h with rfl | hb
      · exact .inl rfl
      · exact .inr hb

theorem mem_take_indices {n x : ℤ} {m : ℕ} (hm : m ≤ (indices i n).length) (hi : i ≤ x)
    (hx : x < i + m) : x ∈ (indices i n).take m := by
  rw [indices, ← map_take, take_range]
  rw [indices, length_map, length_range] at hm
  exact List.mem_map.mpr ⟨(x - i).toNat, mem_range.mpr (by omega), by omega⟩

theorem toInt16_of_lt (h : n < 2 ^ 15) : toInt16 n = n := by
  simp only [toInt16, Int.bmod]
  omega

/-- **The two loops for an entry of the queue.** -/
theorem prefetch_spec (host : Host) (wild : Prop) (blocksToSend : ℕ) (hs : s.Tidy)
    (hp : s.EntryOk p) (hf : s.file p.file = some f) :
    ∃ s' b p', prefetch host f p blocksToSend s = (s', b, p') ∧ (calls host wild).Steps s s' ∧
      DataFrame s s' ∧ s'.EntryOk p' ∧ p'.file = p.file ∧ p'.overallEnd = p.overallEnd ∧
      (∀ i, p.overallIndex ≤ i → i < p'.overallIndex →
        s'.flag p.file i ≠ some false ∨ s'.Failed) ∧
      (s'.fault = false → p'.done f = true ∨ b = 0) := by
  obtain ⟨-, hfile, hover, hprio⟩ := hp
  have hid : f.id = p.file := (hs.ids _ f hf).trans (toInt16_of_lt hfile)
  obtain ⟨s₁, b₁, n, heq₁, hsteps₁, hframe₁, hn, -, hstop₁⟩ :=
    sendBlocks_spec wild (f.priorityBlocks.drop p.priorityIndex.toNat) blocksToSend hs hf
      fun i hi => .inr (mem_of_mem_drop hi)
  obtain ⟨f₁, hf₁, -⟩ := exists_file_of_map_eq hframe₁.desc hf
  rw [prefetch, hid, heq₁]
  dsimp only
  by_cases hfault : s₁.fault = true
  · rw [if_pos hfault]
    exact ⟨s₁, b₁, _, rfl, hsteps₁, hframe₁, ⟨⟨f₁, hf₁⟩, hfile, hover, by dsimp only; omega⟩, rfl,
      rfl, fun i h h' => by dsimp only at h'; omega, fun h =>
        absurd (hfault.symm.trans h) (by simp)⟩
  rw [if_neg hfault]
  obtain ⟨s₂, b₂, m, heq₂, hsteps₂, hframe₂, hm, hsent, hstop₂⟩ :=
    sendBlocks_spec wild (indices p.overallIndex p.overallEnd) b₁ (tidy_of_steps hsteps₁ hs) hf₁
      fun i hi => by
        obtain ⟨k, -, rfl⟩ := List.mem_map.mp hi
        exact .inl (by omega)
  obtain ⟨f₂, hf₂, -⟩ := exists_file_of_map_eq hframe₂.desc hf₁
  rw [heq₂]
  refine ⟨s₂, b₂, _, rfl, hsteps₁.trans hsteps₂, hframe₁.trans hframe₂,
    ⟨⟨f₂, hf₂⟩, hfile, by dsimp only; omega, by dsimp only; omega⟩, rfl, rfl, ?_, ?_⟩
  · intro i hi hlt
    exact hsent i (mem_take_indices hm hi hlt)
  · intro h
    rcases hstop₁ (by simpa using hfault) with hn' | hb
    · rcases hstop₂ h with hm' | hb
      · left
        simp only [indices, length_map, length_range] at hm'
        rw [length_drop] at hn'
        simp only [PrefetchState.done]
        split
        · exact decide_eq_true (by omega)
        · exact Bool.and_eq_true_iff.mpr ⟨decide_eq_true (by omega), decide_eq_true (by omega)⟩
      · exact .inr hb
    · -- Nothing more may be sent: the second loop is not entered.
      right
      rw [hb] at heq₂
      cases his : indices p.overallIndex p.overallEnd with
      | nil =>
        rw [his, sendBlocks] at heq₂
        exact congrArg (fun x => x.2.1) heq₂.symm
      | cons i is =>
        rw [his, sendBlocks, if_pos rfl] at heq₂
        exact congrArg (fun x => x.2.1) heq₂.symm

/-- What is left of the queue after its first entry has been served. -/
theorem queue_enabled {p' : PrefetchState}
    (hqueue : s.prefetches = p :: rest) (hrest : ∀ x ∈ s.prefetches, s.EntryOk x)
    (hp : s.EntryOk p') (hfile : p'.file = p.file) (hend : p'.overallEnd = p.overallEnd)
    (hsent : ∀ i, p.overallIndex ≤ i → i < p'.overallIndex →
      s.flag p.file i ≠ some false ∨ s.Failed) :
    (Call.queue (if p'.done f then rest else p' :: rest)).Enabled wild s := by
  constructor
  · intro x hx
    have hrest' : ∀ x ∈ rest, s.EntryOk x := fun x hx => hrest x (by simp [hqueue, hx])
    split at hx
    · exact hrest' x hx
    · rcases mem_cons.mp hx with rfl | hx
      · exact hp
      · exact hrest' x hx
  · rintro id i ⟨x, hx, rfl, hle, hlt⟩
    rw [hqueue] at hx
    rcases mem_cons.mp hx with rfl | hx
    · by_cases hi : i < p'.overallIndex
      · exact .inr (hsent i hle hi)
      · left
        have hdone : ¬ p'.done f = true := by
          intro hdone
          simp only [PrefetchState.done] at hdone
          split at hdone
          · have := of_decide_eq_true hdone
            omega
          · have := of_decide_eq_true (Bool.and_eq_true_iff.mp hdone).1
            omega
        rw [if_neg hdone]
        exact ⟨p', by simp, by rw [hfile], by omega, by omega⟩
    · left
      refine ⟨x, ?_, rfl, hle, hlt⟩
      split
      · exact hx
      · exact mem_cons_of_mem _ hx

theorem runPrefetchingLoop_nil (fuel blocksToSend : ℕ) (h : s.prefetches = []) :
    runPrefetchingLoop host fuel blocksToSend s = s := by
  cases fuel with
  | zero => rfl
  | succ fuel => simp only [runPrefetchingLoop, h]

theorem runPrefetchingLoop_zero (fuel : ℕ) (s : IncrementalServer) :
    runPrefetchingLoop host fuel 0 s = s := by
  cases fuel with
  | zero => rfl
  | succ fuel =>
    rw [runPrefetchingLoop]
    cases s.prefetches with
    | nil => rfl
    | cons p rest => rfl

/-- **One round of the loop.** -/
theorem runPrefetchingLoop_cons (wild : Prop) {blocksToSend : ℕ} (hs : s.Tidy)
    (hqueue : s.prefetches = p :: rest) (hpos : blocksToSend ≠ 0) :
    ∃ s' b, (∀ fuel, runPrefetchingLoop host (fuel + 1) blocksToSend s =
        if s'.fault then s' else runPrefetchingLoop host fuel b s') ∧
      (calls host wild).Steps s s' ∧ (s'.fault = false → s'.prefetches = rest ∨ b = 0) := by
  obtain ⟨⟨f, hf⟩, -⟩ := hs.queue p (by simp [hqueue])
  have hf' : s.files[p.file]? = some f := by
    rw [← entry_natCast]
    exact hf
  obtain ⟨s', b, p', heq, hsteps, hframe, hp', hfile, hend, hsent, hstop⟩ :=
    prefetch_spec host wild blocksToSend hs (hs.queue p (by simp [hqueue])) hf
  have hqueue' : s'.prefetches = p :: rest := hframe.prefetches.trans hqueue
  have hstep : (calls host wild).Steps s' _ := steps_of_call
    (queue_enabled hqueue' (tidy_of_steps hsteps hs).queue hp' hfile hend hsent (f := f))
  refine ⟨_, b, fun fuel => ?_, hsteps.trans hstep, fun hfault => ?_⟩
  · rw [runPrefetchingLoop]
    simp only [hqueue, hf', heq, hpos, if_false]
    rfl
  · rcases hstop hfault with hdone | hb
    · exact .inl (if_pos hdone)
    · exact .inr hb

/-- The prefetching is a sequence of calls. -/
theorem runPrefetchingLoop_steps (wild : Prop) (fuel blocksToSend : ℕ) (hs : s.Tidy) :
    (calls host wild).Steps s (runPrefetchingLoop host fuel blocksToSend s) := by
  induction fuel generalizing s blocksToSend with
  | zero => exact .refl
  | succ fuel ih =>
    cases hqueue : s.prefetches with
    | nil =>
      rw [runPrefetchingLoop_nil _ _ hqueue]
      exact .refl
    | cons p rest =>
      by_cases hzero : blocksToSend = 0
      · rw [hzero, runPrefetchingLoop_zero]
        exact .refl
      obtain ⟨s', b, heq, hsteps, -⟩ := runPrefetchingLoop_cons wild hs hqueue hzero
      rw [heq]
      split
      · exact hsteps
      · exact hsteps.trans (ih b (tidy_of_steps hsteps hs))

/-! ### Requests -/

/-- Serving a missing block is a sequence of calls as well. -/
theorem serveMissing_steps (wild : Prop) (hs : s.Tidy) (hid : id < 2 ^ 15) (i : ℤ) :
    (calls host wild).Steps s (s.serveMissing host id i) := by
  rw [serveMissing]
  split
  · exact .refl
  rename_i hvalid
  cases hf : s.file id with
  | none =>
    -- The number of files does not grow when it is converted.
    have hnone := entry_eq_none.mp hf
    simp only [toInt16, Int.bmod] at hvalid
    omega
  | some f =>
    dsimp only
    split
    · exact .refl
    have hcases := sendDataBlock_cases host hf hs.trees i true
    have hstep : (calls host wild).Steps s (s.sendDataBlock host id i true).1 :=
      steps_of_call (c := .data id i true) ⟨f, hf, .inl (by omega)⟩
    have hframe := hcases.frame
    clear hcases
    generalize s.sendDataBlock host id i true = call at hstep hframe ⊢
    obtain ⟨s', res⟩ := call
    cases res with
    | skipped => exact hstep
    | error => exact hstep
    | sent =>
      have htidy := tidy_of_steps hstep hs
      obtain ⟨f', hf', -⟩ := exists_file_of_map_eq hframe.desc hf
      have hnonneg := (file_eq_some.mp hf).1
      refine hstep.trans (steps_of_call (c := .queue _) ⟨fun p hp => ?_, ?_⟩)
      · rcases mem_cons.mp hp with rfl | hp
        · refine ⟨⟨f', ?_⟩, ?_, ?_, le_rfl⟩
          · simpa [PrefetchState.ofRange, hnonneg] using hf'
          · simp only [PrefetchState.ofRange]
            omega
          · simp only [PrefetchState.ofRange]
            omega
        · exact htidy.queue p hp
      · rintro id' j ⟨p, hp, hrest⟩
        exact .inl ⟨p, mem_cons_of_mem _ hp, hrest⟩

/-- A request for the prefetching of a file that there is. -/
def InRange (s : IncrementalServer) (id : ℤ) : Prop := id < s.files.length

theorem servePrefetch_steps (hid : id < 2 ^ 15) (hwild : s.InRange id ∨ wild) :
    (calls host wild).Steps s (s.servePrefetch id) := by
  rw [servePrefetch]
  split
  · exact .refl
  split
  · exact .refl
  cases hf : s.file id with
  | none =>
    have hnone := entry_eq_none.mp hf
    rcases hwild with hrange | hwild
    · rw [InRange] at hrange
      omega
    · exact steps_of_call (c := .outOfRange) hwild
  | some f =>
    have hstep : (calls host wild).Steps s ((Call.prefetch id).run host s) :=
      steps_of_call ⟨⟨f, hf⟩, hid⟩
    simpa only [Call.run, hf, map_some, toList_some] using hstep

theorem announce_steps (host : Host) (wild : Prop) (s : IncrementalServer) :
    (calls host wild).Steps s s.announce := by
  have hflush (s : IncrementalServer) :
      (calls host wild).Steps s (if s.prefetches.isEmpty then s.flush else s) := by
    split
    · exact steps_of_call (c := .flush) trivial
    · exact .refl
  rw [announce]
  split
  · rename_i h
    simp only [Bool.and_eq_true, Bool.not_eq_true', List.isEmpty_iff] at h
    exact (steps_of_call (c := .done) ⟨h.1.1, h.1.2, h.2⟩).trans (hflush _)
  · exact hflush s

/-- The request is not for the prefetching of a file that there is not. -/
def Bounded (s : IncrementalServer) (req : Option RequestCommand) : Prop :=
  ∀ r ∈ req, r.type = some .prefetch → s.InRange r.fileId.toInt

instance decidableBounded (s : IncrementalServer) : ∀ req, Decidable (s.Bounded req)
  | none => isTrue (by simp [Bounded])
  | some r => decidable_of_iff (r.type = some .prefetch → r.fileId.toInt < s.files.length)
    (by simp [Bounded, InRange])

/-- A request is a sequence of calls, and leaves the range of the files only if it is not bounded.
-/
theorem dispatch_calls (hs : s.Tidy) (req : Option RequestCommand) :
    (calls host (¬ s.Bounded req)).Steps s (req.elim s (s.dispatch host)) := by
  cases req with
  | none => exact .refl
  | some r =>
    have hid : r.fileId.toInt < 2 ^ 15 := r.fileId.toInt_lt
    rw [elim_some, dispatch]
    cases htype : r.type with
    | none => exact .refl
    | some t =>
      cases t with
      | servingComplete => exact steps_of_call (c := .servingComplete) trivial
      | destroy => exact steps_of_call (c := .ended) trivial
      | blockMissing => exact serveMissing_steps _ hs hid _
      | prefetch =>
        refine servePrefetch_steps hid ?_
        by_cases h : s.InRange r.fileId.toInt
        · exact .inl h
        · exact .inr fun hbounded => h (hbounded r rfl htype)

/-- What follows the `switch`. -/
theorem step_after_dispatch (wild : Prop) (req : Option RequestCommand)
    (hs : (req.elim s (s.dispatch host)).Tidy) :
    (calls host wild).Steps (req.elim s (s.dispatch host)) (s.step host req) := by
  rw [step]
  split
  · exact .refl
  · have hloop : (calls host wild).Steps _ ((req.elim s (s.dispatch host)).runPrefetching host) :=
      runPrefetchingLoop_steps _ _ _ hs
    dsimp only
    split
    · exact hloop
    · exact hloop.trans (announce_steps _ _ _)

/-- **A request is served by a sequence of calls.** -/
theorem step_calls (hs : s.Tidy) (req : Option RequestCommand) :
    (calls host (¬ s.Bounded req)).Steps s (s.step host req) :=
  have hdispatch := dispatch_calls hs req
  hdispatch.trans (step_after_dispatch _ req (tidy_of_steps hdispatch hs))

theorem tidy_step (hs : s.Tidy) (req : Option RequestCommand) : (s.step host req).Tidy :=
  tidy_of_steps (step_calls hs req) hs

/-! ### The beginning -/

/-- Each file was opened from one of the sources, under its own number. -/
theorem openFiles_getElem? (h : openFiles n srcs = some files) (hf : files[k]? = some f) :
    ∃ src ∈ srcs, src.open (n + k) = some f := by
  induction srcs generalizing n files k with
  | nil =>
    obtain rfl : [] = files := by simpa [openFiles] using h
    simp at hf
  | cons src srcs ih =>
    obtain ⟨g, hg, hrest⟩ := bind_eq_some_iff.mp h
    obtain ⟨gs, hgs, rfl⟩ := map_eq_some_iff.mp hrest
    cases k with
    | zero =>
      obtain rfl : g = f := by simpa using hf
      exact ⟨src, by simp, hg⟩
    | succ k =>
      obtain ⟨src', hsrc', hopen⟩ := ih hgs (by simpa using hf)
      exact ⟨src', by simp [hsrc'], by rwa [show n + (k + 1) = n + 1 + k by omega]⟩

/-- A file that has just been opened. -/
theorem open_eq_some {src : Source} (h : src.open k = some f) :
    f.id = toInt16 k ∧ f.size = src.size ∧ f.hasTree = src.signature.isSome ∧
      f.priorityBlocks = src.priorityBlocks ∧ f.sentBlocksCount = 0 ∧
      (∀ b ∈ f.sentBlocks, b = false) ∧ ∀ b ∈ f.sentTreeBlocks, b = false := by
  rw [Source.open] at h
  split at h
  · split at h
    · obtain rfl := some.inj h
      dsimp only
      exact ⟨rfl, rfl, rfl, rfl, rfl, fun b hb => eq_of_mem_replicate hb,
        fun b hb => eq_of_mem_replicate hb⟩
    · exact absurd h (by simp)
  · exact absurd h (by simp)

/-- The server before it does anything. -/
structure Fresh (srcs : List Source) (s : IncrementalServer) : Prop where
  opened : ∀ id f, s.file id = some f → ∃ src ∈ srcs, src.open id.toNat = some f
  stream : s.stream = []
  prefetches : s.prefetches = []
  prefetchedFiles : s.prefetchedFiles = []
  doneSent : s.doneSent = false
  fault : s.fault = false
  log : s.log = []

theorem fresh_of_openFiles (h : openFiles 0 srcs = some files) : Fresh srcs { files } := by
  refine ⟨fun id f hf => ?_, rfl, rfl, rfl, rfl, rfl, rfl⟩
  obtain ⟨src, hsrc, hopen⟩ := openFiles_getElem? h (file_eq_some.mp hf).2
  exact ⟨src, hsrc, by rwa [zero_add] at hopen⟩

theorem entry_ne_true {v : List Bool} (h : ∀ b ∈ v, b = false) : entry v i ≠ some true :=
  fun hi => absurd (h true (mem_of_getElem? (entry_eq_some.mp hi).2)) (by simp)

theorem Fresh.flag (h : Fresh srcs s) (id i : ℤ) : s.flag id i ≠ some true := by
  intro hflag
  obtain ⟨f, hf, hi⟩ := bind_eq_some_iff.mp hflag
  obtain ⟨src, -, hopen⟩ := h.opened id f hf
  exact entry_ne_true (open_eq_some hopen).2.2.2.2.2.1 hi

theorem Fresh.treeFlag (h : Fresh srcs s) (id j : ℤ) : s.treeFlag id j ≠ some true := by
  intro hflag
  obtain ⟨f, hf, hj⟩ := bind_eq_some_iff.mp hflag
  obtain ⟨src, -, hopen⟩ := h.opened id f hf
  exact entry_ne_true (open_eq_some hopen).2.2.2.2.2.2 hj

/-- The server is tidy before it does anything. -/
theorem Fresh.tidy (h : Fresh srcs s) : s.Tidy where
  ids id f hf := by
    obtain ⟨src, -, hopen⟩ := h.opened id f hf
    rw [(open_eq_some hopen).1, Int.toNat_of_nonneg (file_eq_some.mp hf).1]
  queue := by simp [h.prefetches]
  trees id f hf htree hone := by
    refine ⟨fun j _ hj => absurd hj (h.treeFlag id j), fun _ h0 => absurd h0 (h.treeFlag id 0),
      fun _ j hj hlt => ?_⟩
    have hadd := File.leafNodesOffset_add htree
    cases hflag : s.treeFlag id j with
    | none =>
      rw [treeFlag_of_file hf, entry_eq_none] at hflag
      omega
    | some b =>
      cases b with
      | true => exact absurd hflag (h.treeFlag id j)
      | false => rfl

/-- **Reachable servers are tidy.** -/
theorem tidy_of_reach (h : (serve host srcs).Reach s) : s.Tidy := by
  refine h.inv (P := Tidy) (fun s hinit => ?_) fun s req _ hs _ => tidy_step hs req
  obtain ⟨files, hfiles, rfl⟩ := hinit
  exact tidy_of_steps (announce_steps host False _) (fresh_of_openFiles hfiles).tidy

/-- A weaker guard admits more. -/
theorem calls_mono {wild' : Prop} (hle : wild → wild') (h : (calls host wild).Steps s s') :
    (calls host wild').Steps s s' := by
  refine Machine.Steps.mono (M := calls host wild) (N := calls host wild') rfl
    (fun s c (hc : c.Enabled wild s) => ?_) h
  change c.Enabled wild' s
  cases c with
  | outOfRange => exact hle hc
  | _ => exact hc

theorem inv_of_steps {P : IncrementalServer → Prop}
    (hcall : ∀ s c, s.Tidy → P s → Call.Enabled wild s c → P (c.run host s)) (hs : s.Tidy)
    (hP : P s) (h : (calls host wild).Steps s s') : P s' :=
  (h.inv (P := fun s => s.Tidy ∧ P s)
    (fun s c hs hc => ⟨tidy_call hc hs.1, hcall s c hs.1 hs.2 hc⟩) ⟨hs, hP⟩).2

end IncrementalServer

open IncrementalServer

/-- `Serve`, where all files that are to be prefetched exist. -/
def boundedServe (host : Host) (srcs : List Source) :
    Machine IncrementalServer (Option RequestCommand) :=
  (serve host srcs).restrict Bounded

instance decidableBoundedServe (host : Host) (srcs : List Source) (s : IncrementalServer)
    (req : Option RequestCommand) : Decidable ((boundedServe host srcs).enabled s req) :=
  inferInstanceAs (Decidable ((s.ended = false ∧ s.fault = false) ∧ s.Bounded req))

namespace IncrementalServer

variable {host : Host} {s : IncrementalServer} {srcs : List Source} {P : IncrementalServer → Prop}

/-- **The rule for servers.** What holds in the beginning and is kept by every call holds
always. -/
theorem inv_of_reach (hinit : ∀ s, Fresh srcs s → P s)
    (hcall : ∀ s c, s.Tidy → P s → Call.Enabled True s c → P (c.run host s))
    (h : (serve host srcs).Reach s) : P s := by
  refine h.inv (P := P) (fun s hs => ?_) fun s req hreach hP _ =>
    inv_of_steps hcall (tidy_of_reach hreach) hP
      (calls_mono (fun _ => trivial) (step_calls (tidy_of_reach hreach) req))
  obtain ⟨files, hfiles, rfl⟩ := hs
  have hfresh := fresh_of_openFiles hfiles
  exact inv_of_steps hcall hfresh.tidy (hinit _ hfresh) (announce_steps _ _ _)

/-- **The rule where all files exist.** -/
theorem inv_of_bounded (hinit : ∀ s, Fresh srcs s → P s)
    (hcall : ∀ s c, s.Tidy → P s → Call.Enabled False s c → P (c.run host s))
    (h : (boundedServe host srcs).Reach s) : P s := by
  refine h.inv (P := P) (fun s hs => ?_) fun s req hreach hP hreq => ?_
  · obtain ⟨files, hfiles, rfl⟩ := hs
    have hfresh := fresh_of_openFiles hfiles
    exact inv_of_steps hcall hfresh.tidy (hinit _ hfresh) (announce_steps _ _ _)
  · have htidy := tidy_of_reach hreach.of_restrict
    exact inv_of_steps hcall htidy hP
      (calls_mono (fun hwild => absurd hreq.2 hwild) (step_calls htidy req))

end IncrementalServer

/-! ### Servers to try things on -/

/-- The server for some files. -/
def serverFor (srcs : List Source) : IncrementalServer :=
  ({ files := ((openFiles 0 srcs).getD []) } : IncrementalServer).announce

theorem serverFor_init (host : Host) {srcs : List Source} (h : (openFiles 0 srcs).isSome = true) :
    (serve host srcs).init (serverFor srcs) := by
  obtain ⟨files, hfiles⟩ := isSome_iff_exists.mp h
  exact ⟨files, hfiles, by rw [serverFor, hfiles, getD_some]⟩

/-- A host that can read everything and compress nothing. -/
def plainHost : Host := { pread := fun _ => some [1], lz4 := fun _ => [] }

/-- A request for a block of the first file. -/
def missing (i : Int32) : Option RequestCommand := some ⟨1, 0, i⟩

/-- A request for the prefetching of a file. -/
def prefetching (id : Int16) : Option RequestCommand := some ⟨2, id, 0⟩

end AdbBridge.Incremental
