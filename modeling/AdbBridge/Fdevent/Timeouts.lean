import AdbBridge.Server

/-!
# Timeouts of the event loop

An `fdevent` may have a timeout. After every `epoll_wait` the loop looks at all the `fdevent`s for
which nothing was reported; the ones whose deadline is over get an `FDE_TIMEOUT`, and their
deadlines are counted anew from now. But `HandleEvents` invokes a single `fdevent`, the first one
in the list of events. The others wait for another full timeout.

So a timeout is not lost exactly if its event is the first, or the functions that run in the
iteration destroy the `fdevent`, or it is due again by the next iteration
(`AdbBridge.Looper.kept_iff`).

Times are 64 bit numbers of nanoseconds, and the time `epoll_wait` is given is an `int` of
milliseconds. As long as the timeouts fit into an `int`, nothing wraps around, and the loop is awake
in time (`AdbBridge.Looper.Context.pollDuration_in_time`).
-/

namespace AdbBridge.Looper

open List Option

/-! ### The context -/

/-- What the loop uses of an `fdevent`. The timeout is in milliseconds, the clock in
nanoseconds. -/
structure InstalledFde where
  id : ℕ
  fd : ℕ
  state : Fdevent := {}
  timeout : Option ℤ := none
  lastActive : ℤ := 0
  deriving DecidableEq, Repr

/-- The `int64_t` with the same bits. -/
def wrap64 (z : ℤ) : ℤ := z.bmod (2 ^ 64)

theorem wrap64_eq {z : ℤ} (hlow : -2 ^ 63 ≤ z) (hhigh : z < 2 ^ 63) : wrap64 z = z := by
  rw [wrap64, Int.bmod_eq_of_le] <;> omega

/-- When a timeout that counts from some time is over. -/
def deadlineFrom (timeout : Option ℤ) (lastActive : ℤ) : Option ℤ :=
  timeout.map fun t => wrap64 (lastActive + wrap64 (1000000 * t))

def InstalledFde.deadline (f : InstalledFde) : Option ℤ := deadlineFrom f.timeout f.lastActive

/-- The deadline is over. -/
def InstalledFde.expired (f : InstalledFde) (now : ℤ) : Bool := f.deadline.any (· < now)

/-- An `fdevent_context`: `installed_fdevents_`, in the order of the descriptors, and the id of
the next `fdevent`. -/
structure Context where
  installed : List InstalledFde
  nextId : ℕ

/-- No two `fdevent`s have the same id, and ids are not used again. -/
structure Context.WF (c : Context) : Prop where
  nodup : (c.installed.map InstalledFde.id).Nodup
  fresh : ∀ f ∈ c.installed, f.id < c.nextId

/-- What the function of an `fdevent`, or one from the run queue, does with the context. -/
inductive ContextOp
  | create (fd : ℕ)
  | destroy (id : ℕ)
  | set (id : ℕ) (state : Fdevent)
  | setTimeout (id : ℕ) (timeout : Option ℤ) (now : ℤ)
  deriving DecidableEq, Repr

/-- Write to an `fdevent`. There has to be one. -/
def Context.update (c : Context) (id : ℕ) (f : InstalledFde → InstalledFde) : Option Context :=
  if c.installed.any (·.id == id) then
    some { c with installed := c.installed.map fun g => if g.id = id then f g else g }
  else none

/-- `Create`, `Destroy`, `Set` and `SetTimeout`. A `CHECK` that fails is a `none`. -/
def Context.apply (c : Context) : ContextOp → Option Context
  | .create fd =>
    if c.installed.any (·.fd == fd) then none
    else
      some
        { installed := c.installed.orderedInsert (fun f g => f.fd ≤ g.fd)
            { id := c.nextId, fd := fd }
          nextId := c.nextId + 1 }
  | .destroy id =>
    if c.installed.any (·.id == id) then
      some { c with installed := c.installed.filter (·.id != id) }
    else none
  | .set id state => c.update id fun f => { f with state := state }
  | .setTimeout id timeout now =>
    c.update id fun f => { f with timeout := timeout, lastActive := now }

/-- A round of `CalculatePollDuration`: how long to wait at most, in milliseconds. -/
def shorter (now : ℤ) (result : Option ℤ) (f : InstalledFde) : Option ℤ :=
  match f.deadline with
  | none => result
  | some deadline =>
    let timeLeft := max ((wrap64 (deadline - now)).tdiv 1000000) 0
    some (result.elim timeLeft (min · timeLeft))

/-- `CalculatePollDuration`. -/
def Context.calculatePollDuration (c : Context) (now : ℤ) : Option ℤ :=
  c.installed.foldl (shorter now) none

/-- The time that `Loop` gives to `epoll_wait`, as an `int`; `-1` is no limit. -/
def Context.epollTimeout (c : Context) (now : ℤ) : ℤ :=
  (c.calculatePollDuration now).elim (-1) (·.bmod (2 ^ 32))

/-! ### An iteration of the loop -/

/-- The events that an `fdevent` is invoked with. -/
structure FdeEvents where
  read : Bool := false
  write : Bool := false
  error : Bool := false
  timeout : Bool := false
  deriving DecidableEq, Repr

/-- The events that are made of those of `epoll_wait`. -/
def eventsOf (e : EpollEvents) : FdeEvents :=
  { read := e.epollin || e.epollhup, write := e.epollout, error := e.epollhup }

/-- The events in `event_map`: the last ones reported for an `fdevent`. -/
def mapped (reports : List (ℕ × EpollEvents)) (id : ℕ) : FdeEvents :=
  ((reports.reverse.find? fun r => r.1 == id).map fun r => eventsOf r.2).getD {}

/-- The first loop over the events: what is reported is a sign of life. -/
def InstalledFde.report (reports : List (ℕ × EpollEvents)) (postPoll : ℤ) (f : InstalledFde) :
    InstalledFde :=
  if reports.any (·.1 == f.id) then { f with lastActive := postPoll } else f

/-- The test of the second loop: nothing happened until the deadline. -/
def InstalledFde.timesOut (reports : List (ℕ × EpollEvents)) (postPoll : ℤ) (f : InstalledFde) :
    Bool :=
  mapped reports f.id == {} && f.expired postPoll

/-- The second loop over the `fdevent`s: an expired timeout starts again. -/
def InstalledFde.restart (reports : List (ℕ × EpollEvents)) (postPoll : ℤ) (f : InstalledFde) :
    InstalledFde :=
  if f.timesOut reports postPoll then { f with lastActive := postPoll } else f

/-- `fde_events` after both loops, with the `fdevent`s as the first loop leaves them. -/
def fdeEvents (reports : List (ℕ × EpollEvents)) (postPoll : ℤ) (installed : List InstalledFde) :
    List (ℕ × FdeEvents) :=
  reports.map (fun r => (r.1, eventsOf r.2)) ++
    (installed.filter (·.timesOut reports postPoll)).map fun f => (f.id, { timeout := true })

/-- What comes of an iteration: the `fdevent` that was invoked, and the context. -/
structure Iteration where
  invoked : Option (ℕ × FdeEvents)
  context : Context

/-- An iteration of `fdevent_context_epoll::Loop` after `epoll_wait`, with what was reported, the
time, and what the functions do that `HandleEvents` and `FlushRunQueue` call. -/
def Context.iterate (c : Context) (reports : List (ℕ × EpollEvents)) (postPoll : ℤ)
    (ops : List ContextOp) : Option Iteration :=
  if reports.all fun r => c.installed.any fun f => f.id == r.1 && r.2.expected f.state then
    let reported := c.installed.map (·.report reports postPoll)
    let events := fdeEvents reports postPoll reported
    let c' := { c with installed := reported.map (·.restart reports postPoll) }
    (ops.foldlM Context.apply c').map fun c'' =>
      { invoked := events.find? fun e => c'.installed.any (·.id == e.1), context := c'' }
  else none

/-- **The timeout is not lost**: the `fdevent` is invoked with it, or destroyed, or its deadline is
over when the next iteration starts. -/
def Kept (f : InstalledFde) (it : Iteration) (next : ℤ) : Prop :=
  it.invoked = some (f.id, { timeout := true }) ∨ (∀ g ∈ it.context.installed, g.id ≠ f.id) ∨
    ∃ g ∈ it.context.installed, g.id = f.id ∧ g.expired next = true

/-! ### What becomes of a deadline -/

/-- What becomes of an `fdevent` and its deadline. -/
inductive Fate
  | destroyed
  | waiting (deadline : Option ℤ)
  deriving DecidableEq, Repr

/-- What an operation does to the `fdevent` with an id. -/
def Fate.after (id : ℕ) : Fate → ContextOp → Fate
  | .waiting d, .setTimeout id' timeout now =>
    if id' = id then .waiting (deadlineFrom timeout now) else .waiting d
  | .waiting d, .destroy id' => if id' = id then .destroyed else .waiting d
  | fate, _ => fate

/-- The `fdevent` is gone, or is due by this time. -/
def Fate.Settled (next : ℤ) : Fate → Prop
  | .destroyed => True
  | .waiting d => ∃ t ∈ d, t < next

/-- What the context has of the `fdevent`. -/
def Context.Tracks (c : Context) (id : ℕ) : Fate → Prop
  | .destroyed => ∀ g ∈ c.installed, g.id ≠ id
  | .waiting d => (∃ g ∈ c.installed, g.id = id) ∧ ∀ g ∈ c.installed, g.id = id → g.deadline = d

variable {c c' : Context} {id : ℕ} {fate : Fate}

theorem Context.update_eq {f : InstalledFde → InstalledFde} {id' : ℕ}
    (h : c.update id' f = some c') :
    c' = { c with installed := c.installed.map fun g => if g.id = id' then f g else g } := by
  unfold Context.update at h
  split at h
  · exact (some.inj h).symm
  · exact absurd h (by simp)

/-- Other `fdevent`s that come or go change nothing. -/
theorem Context.Tracks.congr (h : c.Tracks id fate)
    (hmem : ∀ g : InstalledFde, g.id = id → (g ∈ c'.installed ↔ g ∈ c.installed)) :
    c'.Tracks id fate := by
  cases fate with
  | destroyed => exact fun g hg hgid => h g ((hmem g hgid).mp hg) hgid
  | waiting d =>
    obtain ⟨⟨g, hg, hgid⟩, hall⟩ := h
    exact ⟨⟨g, (hmem g hgid).mpr hg, hgid⟩, fun k hk hkid => hall k ((hmem k hkid).mp hk) hkid⟩

/-- Writing to `fdevent`s. -/
theorem Context.Tracks.map {F : InstalledFde → InstalledFde} (hF : ∀ g, (F g).id = g.id)
    {fate' : Fate} (h : c.Tracks id fate)
    (hdestroyed : fate = .destroyed → fate' = .destroyed)
    (hwaiting : ∀ d, fate = .waiting d → ∃ d', fate' = .waiting d' ∧
      ∀ g, g.id = id → g.deadline = d → (F g).deadline = d') :
    Context.Tracks { c with installed := c.installed.map F } id fate' := by
  cases fate with
  | destroyed =>
    rw [hdestroyed rfl]
    intro g' hg'
    obtain ⟨g, hg, rfl⟩ := List.mem_map.mp hg'
    rw [hF]
    exact h g hg
  | waiting d =>
    obtain ⟨d', rfl, hdeadline⟩ := hwaiting d rfl
    obtain ⟨⟨g, hg, hgid⟩, hall⟩ := h
    refine ⟨⟨F g, List.mem_map_of_mem hg, (hF g).trans hgid⟩, fun k' hk' hkid => ?_⟩
    obtain ⟨k, hk, rfl⟩ := List.mem_map.mp hk'
    rw [hF] at hkid
    exact hdeadline k hkid (hall k hk hkid)

/-- **What the context has of an `fdevent` follows from the operations.** -/
theorem Context.Tracks.apply (h : c.Tracks id fate) (hid : id < c.nextId) {op : ContextOp}
    (hop : c.apply op = some c') : c'.Tracks id (fate.after id op) ∧ id < c'.nextId := by
  cases op with
  | create fd =>
    rw [Context.apply] at hop
    split_ifs at hop with hused
    obtain rfl := some.inj hop
    have hsame : fate.after id (.create fd) = fate := by cases fate <;> rfl
    rw [hsame]
    refine ⟨h.congr fun g hg => ?_, Nat.lt_succ_of_lt hid⟩
    rw [mem_orderedInsert]
    -- The new `fdevent` has a fresh id, so it is not the one in question.
    refine or_iff_right fun hnew => ?_
    rw [hnew] at hg
    exact hid.ne' hg
  | destroy id' =>
    rw [Context.apply] at hop
    split_ifs at hop with hinstalled
    obtain rfl := some.inj hop
    refine ⟨?_, hid⟩
    by_cases hsame : id' = id
    · subst hsame
      have hgone : fate.after id' (.destroy id') = .destroyed := by
        cases fate with
        | destroyed => rfl
        | waiting d => exact if_pos rfl
      rw [hgone]
      intro g hg hgid
      simp [hgid] at hg
    · have hstays : fate.after id (.destroy id') = fate := by
        cases fate with
        | destroyed => rfl
        | waiting d => exact if_neg hsame
      rw [hstays]
      refine h.congr fun g hg => ?_
      rw [mem_filter, hg]
      exact and_iff_left (by simpa using Ne.symm hsame)
  | set id' state =>
    obtain rfl := Context.update_eq hop
    have hsame : fate.after id (.set id' state) = fate := by cases fate <;> rfl
    rw [hsame]
    refine ⟨h.map (fun g => by split <;> rfl) (fun hd => hd) fun d hd => ?_, hid⟩
    exact ⟨d, hd, fun g _ hg => by split <;> exact hg⟩
  | setTimeout id' timeout now =>
    obtain rfl := Context.update_eq hop
    refine ⟨h.map (fun g => by split <;> rfl) (fun hd => by rw [hd]; rfl) (fun d hd => ?_), hid⟩
    rw [hd]
    by_cases hsame : id' = id
    · refine ⟨deadlineFrom timeout now, if_pos hsame, fun g hg _ => ?_⟩
      rw [if_pos (hg.trans hsame.symm)]
      rfl
    · refine ⟨d, if_neg hsame, fun g hg hgd => ?_⟩
      rw [if_neg (fun h => hsame (h.symm.trans hg))]
      exact hgd

/-- The operations of an iteration. -/
theorem Context.Tracks.applyAll {ops : List ContextOp} (h : c.Tracks id fate)
    (hid : id < c.nextId) (hops : ops.foldlM Context.apply c = some c') :
    c'.Tracks id (ops.foldl (Fate.after id) fate) := by
  induction ops generalizing c fate with
  | nil =>
    obtain rfl : c = c' := some.inj hops
    exact h
  | cons op ops ih =>
    obtain ⟨c₁, hop, hops⟩ := bind_eq_some_iff.mp hops
    obtain ⟨htracks, hid⟩ := h.apply hid hop
    exact ih htracks hid hops

/-! ### One iteration -/

section Iterate

variable {reports : List (ℕ × EpollEvents)} {postPoll : ℤ} {f : InstalledFde} {ops : List ContextOp}
  {it : Iteration}

@[simp]
theorem InstalledFde.id_report (f : InstalledFde) : (f.report reports postPoll).id = f.id := by
  unfold report
  split <;> rfl

@[simp]
theorem InstalledFde.id_restart (f : InstalledFde) : (f.restart reports postPoll).id = f.id := by
  unfold restart
  split <;> rfl

/-- The context when the functions are called. -/
def Context.afterPoll (c : Context) (reports : List (ℕ × EpollEvents)) (postPoll : ℤ) : Context :=
  { c with installed :=
      (c.installed.map (·.report reports postPoll)).map (·.restart reports postPoll) }

theorem Context.exists_afterPoll_iff (P : ℕ → Prop) :
    (∃ g ∈ (c.afterPoll reports postPoll).installed, P g.id) ↔ ∃ g ∈ c.installed, P g.id := by
  simp [Context.afterPoll]

/-- Two installed `fdevent`s with the same id are one. -/
theorem Context.WF.eq_of_id (h : c.WF) {g : InstalledFde} (hf : f ∈ c.installed)
    (hg : g ∈ c.installed) (hid : g.id = f.id) : g = f :=
  inj_on_of_nodup_map h.nodup hg hf hid

theorem mapped_of_quiet (hquiet : ∀ r ∈ reports, r.1 ≠ id) : mapped reports id = {} := by
  have hnone : (reports.reverse.find? fun r => r.1 == id) = none := by
    rw [List.find?_eq_none]
    intro r hr
    simpa using hquiet r (mem_reverse.mp hr)
  rw [mapped, hnone]
  rfl

theorem InstalledFde.report_of_quiet (hquiet : ∀ r ∈ reports, r.1 ≠ f.id) :
    f.report reports postPoll = f := by
  refine if_neg fun hany => ?_
  obtain ⟨r, hr, hrid⟩ := List.any_eq_true.mp hany
  exact hquiet r hr (by simpa using hrid)

/-- **The expired timeout starts again.** -/
theorem Context.WF.tracks_afterPoll (h : c.WF) (hf : f ∈ c.installed)
    (hexpired : f.expired postPoll = true) (hquiet : ∀ r ∈ reports, r.1 ≠ f.id) :
    (c.afterPoll reports postPoll).Tracks f.id (.waiting (deadlineFrom f.timeout postPoll)) := by
  have hrestart : ((f.report reports postPoll).restart reports postPoll).deadline =
      deadlineFrom f.timeout postPoll := by
    rw [InstalledFde.report_of_quiet hquiet, InstalledFde.restart, InstalledFde.timesOut,
      mapped_of_quiet hquiet, hexpired]
    rfl
  refine ⟨⟨_, List.mem_map_of_mem (List.mem_map_of_mem hf), by simp⟩, fun g hg hgid => ?_⟩
  obtain ⟨k, hk, rfl⟩ := List.mem_map.mp hg
  obtain ⟨g, hinstalled, rfl⟩ := List.mem_map.mp hk
  rw [InstalledFde.id_restart, InstalledFde.id_report] at hgid
  rw [h.eq_of_id hf hinstalled hgid, hrestart]

/-- What an iteration comes to. -/
theorem Context.iterate_eq (h : c.iterate reports postPoll ops = some it) :
    (∀ r ∈ reports, ∃ g ∈ c.installed, g.id = r.1) ∧
      ops.foldlM Context.apply (c.afterPoll reports postPoll) = some it.context ∧
      it.invoked = (fdeEvents reports postPoll (c.installed.map (·.report reports postPoll))).find?
        fun e => (c.afterPoll reports postPoll).installed.any (·.id == e.1) := by
  unfold Context.iterate at h
  split at h
  · rename_i hcheck
    obtain ⟨c', hops, rfl⟩ := map_eq_some_iff.mp h
    refine ⟨fun r hr => ?_, hops, rfl⟩
    obtain ⟨g, hg, hcheck⟩ := List.any_eq_true.mp (List.all_eq_true.mp hcheck r hr)
    exact ⟨g, hg, by simpa using (Bool.and_eq_true_iff.mp hcheck).1⟩
  · exact absurd h (by simp)

theorem find?_eq_head? {α : Type*} {l : List α} {p : α → Bool} (h : ∀ a ∈ l, p a = true) :
    l.find? p = l.head? := by
  cases l with
  | nil => rfl
  | cons a l => exact List.find?_cons_of_pos (h a mem_cons_self)

/-- **Only the first event is handled.** All the events are for installed `fdevent`s. -/
theorem Context.invoked_eq_head? (h : c.iterate reports postPoll ops = some it) :
    it.invoked =
      (fdeEvents reports postPoll (c.installed.map (·.report reports postPoll))).head? := by
  obtain ⟨hinstalled, -, hinvoked⟩ := Context.iterate_eq h
  rw [hinvoked]
  refine find?_eq_head? fun e he => ?_
  have hexists : ∃ g ∈ c.installed, g.id = e.1 := by
    rcases mem_append.mp he with he | he
    · obtain ⟨r, hr, rfl⟩ := List.mem_map.mp he
      exact hinstalled r hr
    · obtain ⟨k, hk, rfl⟩ := List.mem_map.mp he
      obtain ⟨g, hg, rfl⟩ := List.mem_map.mp (mem_filter.mp hk).1
      exact ⟨g, hg, g.id_report.symm⟩
  obtain ⟨g, hg, hgid⟩ := (Context.exists_afterPoll_iff (· = e.1)).mpr hexists
  exact List.any_eq_true.mpr ⟨g, hg, by simpa using hgid⟩

/-- A timeout is the first event if nothing was reported and no other comes before it. -/
theorem Context.WF.invoked_iff (h : c.WF) (hf : f ∈ c.installed)
    (hquiet : ∀ r ∈ reports, r.1 ≠ f.id) (hit : c.iterate reports postPoll ops = some it) :
    it.invoked = some (f.id, { timeout := true }) ↔
      reports = [] ∧ c.installed.find? (·.expired postPoll) = some f := by
  rw [Context.invoked_eq_head? hit]
  cases reports with
  | cons r reports =>
    -- A report comes before every timeout, and this one is for another `fdevent`.
    refine iff_of_false (fun heq => ?_) (by simp)
    exact hquiet r mem_cons_self (congrArg Prod.fst (some.inj heq))
  | nil =>
    have hreport : c.installed.map (·.report [] postPoll) = c.installed := List.map_id _
    rw [hreport, fdeEvents, map_nil, nil_append, List.head?_map, and_iff_right rfl]
    have hfilter : (c.installed.filter (·.timesOut [] postPoll)).head? =
        c.installed.find? (·.expired postPoll) := List.head?_filter
    rw [hfilter, map_eq_some_iff]
    constructor
    · rintro ⟨g, hg, heq⟩
      rw [hg, h.eq_of_id hf (List.mem_of_find?_eq_some hg) (congrArg Prod.fst heq)]
    · intro hfirst
      exact ⟨f, hfirst, rfl⟩

/-- A fate is settled exactly if the `fdevent` is not installed any more, or has expired. -/
theorem Fate.settled_iff {next : ℤ} (h : c.Tracks id fate) :
    fate.Settled next ↔
      (∀ g ∈ c.installed, g.id ≠ id) ∨ ∃ g ∈ c.installed, g.id = id ∧ g.expired next = true := by
  cases fate with
  | destroyed => exact iff_of_true trivial (.inl h)
  | waiting d =>
    obtain ⟨⟨g, hg, hgid⟩, hall⟩ := h
    have hexpired : ∀ k ∈ c.installed, k.id = id → (k.expired next = true ↔ ∃ t ∈ d, t < next) := by
      intro k hk hkid
      rw [InstalledFde.expired, hall k hk hkid]
      cases d <;> simp
    constructor
    · intro hsettled
      exact .inr ⟨g, hg, hgid, (hexpired g hg hgid).mpr hsettled⟩
    · rintro (hnone | ⟨k, hk, hkid, hk'⟩)
      · exact absurd hgid (hnone g hg)
      · exact (hexpired k hk hkid).mp hk'

/-- **An expired timeout is not lost exactly if** nothing else comes before it, or what is done in
this iteration destroys the `fdevent`, or the deadline – counted from now, or set in this
iteration – is over by the next one. -/
theorem kept_iff (h : c.WF) (hf : f ∈ c.installed) (hexpired : f.expired postPoll = true)
    (hquiet : ∀ r ∈ reports, r.1 ≠ f.id) {ops : List ContextOp} {it : Iteration}
    (hit : c.iterate reports postPoll ops = some it) (next : ℤ) :
    Kept f it next ↔
      (reports = [] ∧ c.installed.find? (·.expired postPoll) = some f) ∨
        (ops.foldl (Fate.after f.id)
          (.waiting (deadlineFrom f.timeout postPoll))).Settled next := by
  obtain ⟨-, hops, -⟩ := Context.iterate_eq hit
  have htracks := (h.tracks_afterPoll hf hexpired hquiet).applyAll (h.fresh f hf) hops
  rw [Kept, h.invoked_iff hf hquiet hit, Fate.settled_iff htracks]

end Iterate

/-! ### The next iteration -/

/-- The time that an `fdevent` leaves, in milliseconds. -/
def InstalledFde.timeLeft (now : ℤ) (f : InstalledFde) : Option ℤ :=
  f.deadline.map fun deadline => max ((wrap64 (deadline - now)).tdiv 1000000) 0

/-- The loop looks for the least of the times that are left. -/
theorem foldl_shorter (now : ℤ) (fs : List InstalledFde) (result : Option ℤ) :
    fs.foldl (shorter now) result = (result.toList ++ fs.filterMap (·.timeLeft now)).min? := by
  induction fs generalizing result with
  | nil => cases result <;> rfl
  | cons f fs ih =>
    rw [foldl_cons, ih, filterMap_cons, InstalledFde.timeLeft, shorter]
    cases f.deadline with
    | none => rfl
    | some d => cases result <;> rfl

/-- The whole milliseconds in a number of nanoseconds, if there are any. -/
theorem milliseconds_bounds (x : ℤ) : 1000000 * max (x.tdiv 1000000) 0 ≤ max x 0 ∧
    x < 1000000 * (max (x.tdiv 1000000) 0 + 1) := by
  rcases le_total 0 x with hx | hx
  · rw [Int.tdiv_eq_ediv_of_nonneg hx]
    omega
  · have hneg : 0 ≤ (-x).tdiv 1000000 := Int.tdiv_nonneg (by omega) (by omega)
    rw [Int.neg_tdiv] at hneg
    omega

/-- **The clock and the timeouts are in range**: the clock has run for less than 2 ^ 62 nanoseconds,
which are 146 years, and a timeout is an `int` of milliseconds. -/
structure Context.InRange (c : Context) (now : ℤ) : Prop where
  clock : now < 2 ^ 62
  active : ∀ f ∈ c.installed, 0 ≤ f.lastActive ∧ f.lastActive ≤ now
  timeout : ∀ f ∈ c.installed, ∀ t ∈ f.timeout, 0 ≤ t ∧ t < 2 ^ 31

/-- Nothing wraps around then. -/
theorem Context.InRange.timeLeft_eq {now : ℤ} (h : c.InRange now) {f : InstalledFde}
    (hf : f ∈ c.installed) : f.timeLeft now = f.timeout.map fun t =>
      max ((f.lastActive + 1000000 * t - now).tdiv 1000000) 0 := by
  rw [InstalledFde.timeLeft, InstalledFde.deadline, deadlineFrom, Option.map_map]
  refine Option.map_congr fun t ht => ?_
  have hclock := h.clock
  obtain ⟨hlow, hhigh⟩ := h.active f hf
  obtain ⟨hpos, hlt⟩ := h.timeout f hf t ht
  rw [Function.comp_apply, wrap64_eq (z := 1000000 * t) (by omega) (by omega),
    wrap64_eq (z := _ + _) (by omega) (by omega), wrap64_eq (by omega) (by omega)]

/-- **The loop waits for the first deadline.** While the clock and the timeouts are in range:
`epoll_wait` is given no limit exactly if there is no timeout; otherwise it is awake by every
deadline that is still to come, and when it wakes up there is one that is less than a millisecond
away. -/
theorem Context.pollDuration_in_time (c : Context) (now : ℤ) (h : c.InRange now) :
    (c.epollTimeout now = -1 ↔ ∀ f ∈ c.installed, f.timeout = none) ∧
      (c.epollTimeout now ≠ -1 → 0 ≤ c.epollTimeout now ∧
        (∀ f ∈ c.installed, ∀ t ∈ f.timeout,
          now + 1000000 * c.epollTimeout now ≤ max (f.lastActive + 1000000 * t) now) ∧
        ∃ f ∈ c.installed, ∃ t ∈ f.timeout,
          f.lastActive + 1000000 * t < now + 1000000 * (c.epollTimeout now + 1)) := by
  have hduration : c.calculatePollDuration now = (c.installed.filterMap fun f =>
      f.timeout.map fun t => max ((f.lastActive + 1000000 * t - now).tdiv 1000000) 0).min? := by
    rw [show c.calculatePollDuration now = _ from foldl_shorter now c.installed none,
      toList_none, nil_append]
    exact congrArg _ (filterMap_congr fun f hf => h.timeLeft_eq hf)
  -- Without a timeout the list of times is empty; otherwise `epoll_wait` is given its least one.
  cases hms : c.calculatePollDuration now with
  | none =>
    have hminus : c.epollTimeout now = -1 := by rw [Context.epollTimeout, hms, elim_none]
    rw [hduration, List.min?_eq_none_iff, filterMap_eq_nil_iff] at hms
    exact ⟨iff_of_true hminus fun f hf => map_eq_none_iff.mp (hms f hf),
      fun hne => absurd hminus hne⟩
  | some ms =>
    obtain ⟨hmem, hleast⟩ := List.min?_eq_some_iff.mp (hduration.symm.trans hms)
    obtain ⟨f, hf, hleft⟩ := mem_filterMap.mp hmem
    obtain ⟨t, ht, hleft⟩ := map_eq_some_iff.mp hleft
    have hbounds := milliseconds_bounds (f.lastActive + 1000000 * t - now)
    rw [hleft] at hbounds
    have hpos : 0 ≤ ms := hleft ▸ le_max_right _ _
    -- The least time fits into the `int` of `epoll_wait`.
    have hlt : ms < 2 ^ 31 := by
      have hactive := (h.active f hf).2
      have htimeout := (h.timeout f hf t ht).2
      omega
    have hwait : c.epollTimeout now = ms := by
      rw [Context.epollTimeout, hms, elim_some, Int.bmod_eq_of_le] <;> omega
    rw [hwait]
    refine ⟨iff_of_false (by omega) fun hnone => ?_, fun _ => ⟨hpos, fun g hg u hu => ?_, ?_⟩⟩
    · rw [hnone f hf] at ht
      cases ht
    · have hle := hleast _ (mem_filterMap.mpr ⟨g, hg, map_eq_some_iff.mpr ⟨u, hu, rfl⟩⟩)
      have hbound := (milliseconds_bounds (g.lastActive + 1000000 * u - now)).1
      omega
    · exact ⟨f, hf, t, ht, by omega⟩

/-- Timeouts of five milliseconds and of one, which was set later, and an `fdevent` without. -/
def mixedTimeouts : Context where
  installed := [⟨1, 5, {}, some 5, 0⟩, ⟨2, 6, {}, none, 0⟩, ⟨3, 7, {}, some 1, 500000⟩]
  nextId := 4

/-- The loop waits for the millisecond. -/
theorem pollDuration_mixedTimeouts :
    mixedTimeouts.epollTimeout 500000 = 1 ∧ ∀ f ∈ mixedTimeouts.installed, ∀ t ∈ f.timeout,
      500000 + 1000000 * mixedTimeouts.epollTimeout 500000 ≤
        max (f.lastActive + 1000000 * t) 500000 := by
  have hrange : mixedTimeouts.InRange 500000 := by
    refine ⟨by decide, by decide, ?_⟩
    simp [mixedTimeouts]
  exact ⟨by decide, ((mixedTimeouts.pollDuration_in_time 500000 hrange).2 (by decide)).2.1⟩

/-- With a timeout that does not fit into an `int`, the loop may wait for ever. -/
example : Context.epollTimeout ⟨[⟨1, 5, {}, some (2 ^ 32 - 1), 0⟩], 2⟩ 0 = -1 := by decide

/-- Two `fdevent`s with a timeout of a millisecond, both set at the time `0`. -/
def twoTimeouts : Context where
  installed := [⟨1, 5, { read := true }, some 1, 0⟩, ⟨2, 6, { read := true }, some 1, 0⟩]
  nextId := 3

/-- The timeout of the first one is reported. -/
theorem kept_iff_twoTimeouts :
    ∃ it, twoTimeouts.iterate [] 2000000 [] = some it ∧
      Kept ⟨1, 5, { read := true }, some 1, 0⟩ it 2000001 := by
  have hwf : twoTimeouts.WF := ⟨by decide, by decide⟩
  obtain ⟨it, hit⟩ : ∃ it, twoTimeouts.iterate [] 2000000 [] = some it := ⟨_, rfl⟩
  exact ⟨it, hit, (kept_iff hwf (by decide) (by decide) (by simp) hit _).mpr
    (.inl ⟨rfl, by decide⟩)⟩

/-- **The timeout of the second one is lost**: it starts again without having been reported. -/
theorem not_kept_twoTimeouts :
    twoTimeouts.WF ∧ ∃ it, twoTimeouts.iterate [] 2000000 [] = some it ∧
      ¬ Kept ⟨2, 6, { read := true }, some 1, 0⟩ it 2000001 := by
  refine ⟨⟨by decide, by decide⟩, _, rfl, ?_⟩
  rintro (hinvoked | hdestroyed | ⟨g, hg, hgid, hexpired⟩)
  · revert hinvoked
    decide
  · revert hdestroyed
    decide
  · revert g
    decide

end AdbBridge.Looper
