import AdbBridge.Threads.Reconnect

/-!
# Waiting for something to reconnect

The reconnect handler sleeps on a condition variable: with a deadline while there are attempts
in its queue, and without one when there are none. `ReconnectHandler::Stop` clears `running_`
under the mutex, notifies the handler and joins it. A notification wakes a thread that is
waiting at that moment and is forgotten otherwise, and the handler looks at `running_` only
after it has waited. So everything depends on where the handler is when `Stop` comes: if it is
waiting, it wakes up and ends; if it is elsewhere, outside of the mutex in a `Reconnect` or not
yet at its first wait, it may go to sleep after the notification, and then nobody wakes it.

The machine `waiting` has the handler with its waits, and the threads that notify it. Here a
section under `reconnect_mutex_` is one step, with the start of the wait at its end.
-/

namespace AdbBridge

/-! ### State -/

/-- Where the thread of the handler is in `Run`. -/
inductive RunState
  /-- Before its next wait, without the mutex. -/
  | looping
  /-- In `reconnect_cv_.wait`. -/
  | waiting
  /-- In `reconnect_cv_.wait_until`. -/
  | waitingUntil
  /-- The wait is over, and it is about to get the mutex back. -/
  | woken
  /-- In `Reconnect`, without the mutex. -/
  | attempting (a : Attempt)
  | finished
  deriving DecidableEq, Repr

/-- Where the looper is in `ReconnectHandler::Stop`. -/
inductive StopCall
  | notCalled
  /-- `running_` is cleared. -/
  | cleared
  /-- The handler has been notified, and is joined. -/
  | joining
  | returned
  deriving DecidableEq, Repr

/-- What `Reconnect` came to. -/
inductive ReconnectResult
  | retry
  | success
  | abort
  deriving DecidableEq, Repr

/-- A `ReconnectHandler` and its threads. -/
structure ReconnectHandler where
  running : Bool := true
  reconnectQueue : List Attempt := []
  thread : RunState := .looping
  stop : StopCall := .notCalled
  /-- The looper is in `TrackTransport`, and about to notify the handler. -/
  tracked : Bool := false
  /-- The value of `running_` at each start of an untimed wait. -/
  entered : List Bool := []
  deriving DecidableEq, Repr

namespace ReconnectHandler

variable (s : ReconnectHandler)

/-- `notify_one`. -/
def notify : ReconnectHandler :=
  if s.thread = .waiting ∨ s.thread = .waitingUntil then { s with thread := .woken } else s

/-- `reconnect_queue_.emplace`. The queue is a set: of two attempts with the same time and
transport the first stays. -/
def emplace (a : Attempt) : ReconnectHandler :=
  if s.reconnectQueue.any fun b => b.reconnectTime = a.reconnectTime ∧ b.transport = a.transport
  then s
  else { s with reconnectQueue := s.reconnectQueue.orderedInsert Attempt.Before a }

/-- From the top of the loop to the start of a wait. -/
def startWait : ReconnectHandler :=
  if s.reconnectQueue ≠ [] then { s with thread := .waitingUntil }
  else { s with thread := .waiting, entered := s.entered ++ [s.running] }

/-- From the end of the wait to the end of the section. The transports that have been kicked are
given up, and the first attempt that is left is taken if its time has come. -/
def afterWait (kicked : List ℕ) (now : ℕ) : ReconnectHandler :=
  if s.running = false then { s with thread := .finished }
  else
    let queue := s.reconnectQueue.filter fun a => a.transport ∉ kicked
    match queue with
    | [] => { s with reconnectQueue := [], thread := .looping }
    | a :: rest =>
      if now < a.reconnectTime then { s with reconnectQueue := queue, thread := .looping }
      else { s with reconnectQueue := rest, thread := .attempting a }

/-- What is done with the result of `Reconnect`. -/
def attempted (a : Attempt) (result : ReconnectResult) (now : ℕ) : ReconnectHandler :=
  match result with
  | .retry =>
    if a.attemptsLeft = 0 then { s with thread := .looping }
    else
      { s.emplace ⟨a.transport, now + kDefaultTimeout, a.attemptsLeft - 1⟩ with
        thread := .looping }
  | .success => { s with thread := .looping }
  | .abort => { s with thread := .looping }

/-- `TrackTransport` up to its notification. -/
def trackTransport (t now : ℕ) : ReconnectHandler :=
  if s.running then
    { s.emplace ⟨t, now + 250, kMaxAttempts⟩ with tracked := true }
  else s

end ReconnectHandler

/-! ### Steps -/

/-- The steps of the threads. -/
inductive WaitOp
  | startWait
  /-- The deadline of a timed wait passes, or a wait ends without a reason. -/
  | wakeUp
  | afterWait (kicked : List ℕ) (now : ℕ)
  | attempted (a : Attempt) (result : ReconnectResult) (now : ℕ)
  | trackTransport (t now : ℕ)
  | trackNotify
  | checkForKicked
  /-- The section of `Stop`. -/
  | stopClear
  | stopNotify
  /-- The handler is joined. -/
  | stopJoin
  deriving DecidableEq, Repr

/-- What a step does. -/
def WaitOp.step (s : ReconnectHandler) : WaitOp → ReconnectHandler
  | .startWait => s.startWait
  | .wakeUp => { s with thread := .woken }
  | .afterWait kicked now => s.afterWait kicked now
  | .attempted a result now => s.attempted a result now
  | .trackTransport t now => s.trackTransport t now
  | .trackNotify => { s.notify with tracked := false }
  | .checkForKicked => s.notify
  | .stopClear => { s with running := false, stop := .cleared }
  | .stopNotify => { s.notify with stop := .joining }
  | .stopJoin => { s with stop := .returned, reconnectQueue := [] }

/-- When a step can be taken. `TrackTransport` and `Stop` run on the looper. -/
def WaitOp.Enabled (s : ReconnectHandler) : WaitOp → Prop
  | .startWait => s.thread = .looping
  | .wakeUp => s.thread = .waiting ∨ s.thread = .waitingUntil
  | .afterWait _ _ => s.thread = .woken
  | .attempted a _ _ => s.thread = .attempting a
  | .trackTransport _ _ => s.tracked = false ∧ (s.stop = .notCalled ∨ s.stop = .returned)
  | .trackNotify => s.tracked = true
  | .checkForKicked => True
  | .stopClear => s.tracked = false ∧ s.stop = .notCalled
  | .stopNotify => s.stop = .cleared
  | .stopJoin => s.stop = .joining ∧ s.thread = .finished

instance decidableWaitEnabled (s : ReconnectHandler) (op : WaitOp) : Decidable (op.Enabled s) := by
  cases op <;> dsimp only [WaitOp.Enabled] <;> infer_instance

/-- The handler, from the start of its thread on. -/
def waiting : Machine ReconnectHandler WaitOp where
  init s := s = {}
  enabled s op := op.Enabled s
  step := WaitOp.step

instance decidableWaiting (s : ReconnectHandler) (op : WaitOp) : Decidable (waiting.enabled s op) :=
  inferInstanceAs (Decidable (op.Enabled s))

/-! ### What Stop is owed -/

/-- No untimed wait has been entered with `running_` cleared, and a handler that is being joined
is not in one. -/
structure ReconnectHandler.Heard (s : ReconnectHandler) : Prop where
  entered : ∀ b ∈ s.entered, b = true
  joining : s.stop = .joining → s.thread ≠ .waiting

/-- The handler is in a wait, or has been woken out of one, or has ended: it looks at `running_`
before it waits again. -/
def RunState.asleep : RunState → Bool
  | .waiting | .waitingUntil | .woken | .finished => true
  | .looping | .attempting _ => false

namespace ReconnectHandler

/-- When `Stop` may clear `running_`: the handler is asleep, or its next wait has a deadline. -/
def Timely (s : ReconnectHandler) : Prop := s.thread.asleep = true ∨ s.reconnectQueue ≠ []

variable {s : ReconnectHandler} {op : WaitOp}

/-! ### Small steps -/

/-- A notification changes nothing but where the handler is. -/
theorem notify_eq (s : ReconnectHandler) : ∃ th, s.notify = { s with thread := th } ∧
    th ≠ .waiting ∧ (th = .woken ∨ th = s.thread) := by
  rw [notify]
  split_ifs with hw
  · exact ⟨.woken, rfl, by simp, .inl rfl⟩
  · exact ⟨s.thread, rfl, fun h => hw (.inl h), .inr rfl⟩

/-- One more attempt changes nothing but the queue, which is not empty afterwards. -/
theorem emplace_eq (s : ReconnectHandler) (a : Attempt) :
    ∃ q, s.emplace a = { s with reconnectQueue := q } ∧ q ≠ [] := by
  rw [emplace]
  split_ifs with hany
  · refine ⟨s.reconnectQueue, rfl, fun hq => ?_⟩
    simp [hq] at hany
  · refine ⟨_, rfl, fun hq => ?_⟩
    have hlen := List.orderedInsert_length Attempt.Before s.reconnectQueue a
    simp [hq] at hlen

/-- The result of an attempt brings the handler back to the top of its loop. It does not make a
queue empty. -/
theorem attempted_eq (s : ReconnectHandler) (a : Attempt) (result : ReconnectResult) (now : ℕ) :
    ∃ q, s.attempted a result now = { s with reconnectQueue := q, thread := .looping } ∧
      (s.reconnectQueue ≠ [] → q ≠ []) := by
  cases result with
  | retry =>
    by_cases hleft : a.attemptsLeft = 0
    · exact ⟨s.reconnectQueue, by simp [attempted, hleft], id⟩
    · obtain ⟨q, hq, hne⟩ :=
        s.emplace_eq ⟨a.transport, now + kDefaultTimeout, a.attemptsLeft - 1⟩
      exact ⟨q, by simp [attempted, hleft, hq], fun _ => hne⟩
  | success => exact ⟨s.reconnectQueue, rfl, id⟩
  | abort => exact ⟨s.reconnectQueue, rfl, id⟩

/-- Neither the flag nor the log nor `Stop` is touched after a wait. -/
theorem afterWait_eq (s : ReconnectHandler) (kicked : List ℕ) (now : ℕ) :
    ∃ q th, s.afterWait kicked now = { s with reconnectQueue := q, thread := th } := by
  rw [afterWait]
  split_ifs
  · exact ⟨_, _, rfl⟩
  · dsimp only
    split
    · exact ⟨_, _, rfl⟩
    · split_ifs
      · exact ⟨_, _, rfl⟩
      · exact ⟨_, _, rfl⟩

/-! ### Before Stop -/

/-- Nothing but `Stop` clears `running_`. -/
structure Fresh (s : ReconnectHandler) : Prop where
  running : s.running = true
  entered : ∀ b ∈ s.entered, b = true

/-- An operation other than the section of `Stop` keeps a handler running. -/
theorem Fresh.step (hs : s.Fresh) (hop : op ≠ .stopClear) : (WaitOp.step s op).Fresh := by
  cases op with
  | startWait =>
    simp only [WaitOp.step, startWait]
    split_ifs
    · exact ⟨hs.running, hs.entered⟩
    · refine ⟨hs.running, fun b hb => ?_⟩
      rcases List.mem_append.mp hb with hb | hb
      · exact hs.entered b hb
      · rw [List.mem_singleton.mp hb]
        exact hs.running
  | wakeUp => exact ⟨hs.running, hs.entered⟩
  | afterWait kicked now =>
    obtain ⟨q, th, heq⟩ := s.afterWait_eq kicked now
    simp only [WaitOp.step, heq]
    exact ⟨hs.running, hs.entered⟩
  | attempted a result now =>
    obtain ⟨q, heq, -⟩ := s.attempted_eq a result now
    simp only [WaitOp.step, heq]
    exact ⟨hs.running, hs.entered⟩
  | trackTransport t now =>
    obtain ⟨q, heq, -⟩ := s.emplace_eq ⟨t, now + 250, kMaxAttempts⟩
    simp only [WaitOp.step, trackTransport, if_pos hs.running, heq]
    exact ⟨hs.running, hs.entered⟩
  | trackNotify | checkForKicked | stopNotify =>
    obtain ⟨th, heq, -⟩ := s.notify_eq
    simp only [WaitOp.step, heq]
    exact ⟨hs.running, hs.entered⟩
  | stopClear => exact absurd rfl hop
  | stopJoin => exact ⟨hs.running, hs.entered⟩

/-- Where `Stop` is after an operation. -/
theorem stop_of_step (hop : (WaitOp.step s op).stop = .notCalled) :
    s.stop = .notCalled ∧ op ≠ .stopClear := by
  cases op with
  | startWait =>
    simp only [WaitOp.step, startWait] at hop
    split_ifs at hop
    · exact ⟨hop, by simp⟩
    · exact ⟨hop, by simp⟩
  | wakeUp => exact ⟨hop, by simp⟩
  | afterWait kicked now =>
    obtain ⟨q, th, heq⟩ := s.afterWait_eq kicked now
    exact ⟨by simpa only [WaitOp.step, heq] using hop, by simp⟩
  | attempted a result now =>
    obtain ⟨q, heq, -⟩ := s.attempted_eq a result now
    exact ⟨by simpa only [WaitOp.step, heq] using hop, by simp⟩
  | trackTransport t now =>
    obtain ⟨q, heq, -⟩ := s.emplace_eq ⟨t, now + 250, kMaxAttempts⟩
    simp only [WaitOp.step, trackTransport, heq] at hop
    split_ifs at hop
    · exact ⟨hop, by simp⟩
    · exact ⟨hop, by simp⟩
  | trackNotify | checkForKicked =>
    obtain ⟨th, heq, -⟩ := s.notify_eq
    exact ⟨by simpa only [WaitOp.step, heq] using hop, by simp⟩
  | stopClear | stopNotify | stopJoin => cases hop

theorem fresh_of_reach (h : waiting.Reach s) : s.stop = .notCalled → s.Fresh := by
  refine h.inv (P := fun s => s.stop = .notCalled → s.Fresh) ?_ ?_
  · rintro s rfl -
    exact ⟨rfl, by simp⟩
  · intro s op _ ih _ hstop
    obtain ⟨hbefore, hop⟩ := stop_of_step hstop
    exact (ih hbefore).step hop

/-! ### After Stop -/

/-- What a timely `Stop` leaves, and every later step keeps: the handler does not come to an
untimed wait again. -/
structure Settled (s : ReconnectHandler) : Prop where
  running : s.running = false
  entered : ∀ b ∈ s.entered, b = true
  timely : s.Timely
  called : s.stop ≠ .notCalled
  woken : s.stop ≠ .cleared → s.thread ≠ .waiting

theorem Settled.heard (hs : s.Settled) : s.Heard :=
  ⟨hs.entered, fun hj => hs.woken (by simp [hj])⟩

/-- A handler that is not asleep has attempts left. -/
theorem Settled.queue (hs : s.Settled) (hth : s.thread.asleep = false) : s.reconnectQueue ≠ [] :=
  hs.timely.resolve_left (by simp [hth])

/-- A step that puts the handler to a place where it is asleep, but not into the untimed wait. -/
theorem Settled.sleep (hs : s.Settled) {th : RunState} (hth : th.asleep = true)
    (hw : th ≠ .waiting) : ({ s with thread := th } : ReconnectHandler).Settled :=
  ⟨hs.running, hs.entered, .inl hth, hs.called, fun _ => hw⟩

theorem Settled.notify (hs : s.Settled) : s.notify.Settled := by
  obtain ⟨th, heq, hw, hth | hth⟩ := s.notify_eq
  · rw [heq, hth]
    exact hs.sleep rfl (by simp)
  · rw [heq, hth]
    exact hs

/-- Every later step keeps what a timely `Stop` leaves. -/
theorem Settled.step (hs : s.Settled) (hen : waiting.enabled s op) :
    (WaitOp.step s op).Settled := by
  cases op with
  | startWait =>
    -- the handler was not asleep, so the queue is not empty and the wait has a deadline
    have hq := hs.queue (by rw [show s.thread = .looping from hen]; rfl)
    simp only [WaitOp.step, startWait, if_pos hq]
    exact hs.sleep rfl (by simp)
  | wakeUp => exact hs.sleep rfl (by simp)
  | afterWait kicked now =>
    simp only [WaitOp.step, afterWait, if_pos hs.running]
    exact hs.sleep rfl (by simp)
  | attempted a result now =>
    have hq := hs.queue (by rw [show s.thread = .attempting a from hen]; rfl)
    obtain ⟨q, heq, hne⟩ := s.attempted_eq a result now
    simp only [WaitOp.step, heq]
    exact ⟨hs.running, hs.entered, .inr (hne hq), hs.called, fun _ => by simp⟩
  | trackTransport t now =>
    simp only [WaitOp.step, trackTransport, hs.running]
    exact hs
  | trackNotify =>
    have h := hs.notify
    exact ⟨h.running, h.entered, h.timely, h.called, h.woken⟩
  | checkForKicked => exact hs.notify
  | stopClear => exact absurd hen.2 hs.called
  | stopNotify =>
    have h := hs.notify
    obtain ⟨th, heq, hw, -⟩ := s.notify_eq
    refine ⟨h.running, h.entered, h.timely, by simp [WaitOp.step], fun _ => ?_⟩
    simpa only [WaitOp.step, heq] using hw
  | stopJoin =>
    have hth : s.thread = .finished := hen.2
    refine ⟨hs.running, hs.entered, .inl ?_, by simp [WaitOp.step], fun _ => ?_⟩
    · simp only [WaitOp.step, hth]
      rfl
    · simp [WaitOp.step, hth]

/-- A handler that is not asleep and has nothing in its queue can go to sleep for good. -/
theorem exists_not_heard (hrun : s.running = false) (hs : ¬s.Timely) :
    ∃ s', waiting.Steps s s' ∧ ¬s'.Heard := by
  rw [Timely, not_or, not_not] at hs
  -- back at the top of the loop, with the queue as it was
  have hloop : ∃ s₁, waiting.Steps s s₁ ∧ s₁.thread = .looping ∧ s₁.reconnectQueue = [] ∧
      s₁.running = false := by
    cases hth : s.thread with
    | looping => exact ⟨s, .refl, hth, hs.2, hrun⟩
    | attempting a =>
      have hen : waiting.enabled s (.attempted a .success 0) := hth
      exact ⟨_, Machine.Steps.single hen, rfl, hs.2, hrun⟩
    | waiting | waitingUntil | woken | finished => simp [hth, RunState.asleep] at hs
  obtain ⟨s₁, hsteps, hth, hq, hrun₁⟩ := hloop
  have hen : waiting.enabled s₁ .startWait := hth
  refine ⟨_, hsteps.tail hen, fun hheard => ?_⟩
  have hlog := hheard.entered false (by simp [waiting, WaitOp.step, startWait, hq, hrun₁])
  cases hlog

end ReconnectHandler

/-! ### Stopping the handler -/

/-- **When Stop is heard.** Up to `Stop` the handler enters its untimed wait only while it is
running. From there on this stays so in every run, and the join does not meet a handler in that
wait, exactly if `Stop` cleared `running_` while the handler was asleep or had attempts in its
queue. -/
theorem stop_heard_iff {s : ReconnectHandler} (hs : waiting.Reach s)
    (hen : waiting.enabled s .stopClear) :
    s.Heard ∧ ((∀ s', waiting.Steps (waiting.step s .stopClear) s' → s'.Heard) ↔ s.Timely) := by
  have hfresh := ReconnectHandler.fresh_of_reach hs hen.2
  refine ⟨⟨hfresh.entered, fun hj => ?_⟩, fun hall => ?_, fun ht s' hsteps => ?_⟩
  · rw [hen.2] at hj
    cases hj
  · by_contra ht
    obtain ⟨s', hsteps, hnot⟩ :=
      ReconnectHandler.exists_not_heard (s := waiting.step s .stopClear) rfl ht
    exact hnot (hall s' hsteps)
  · have hsettled : (waiting.step s .stopClear).Settled :=
      ⟨rfl, hfresh.entered, ht, by simp [waiting, WaitOp.step],
        fun hne => absurd rfl hne⟩
    exact (hsteps.inv (fun _ _ h hi => h.step hi) hsettled).heard

/-- A handler that was waiting when `Stop` came. -/
theorem stop_heard_iff_waiting :
    (waiting.run {} [.startWait]).Heard ∧
      ((∀ s', waiting.Steps (waiting.step (waiting.run {} [.startWait]) .stopClear) s' →
        s'.Heard) ↔ (waiting.run {} [.startWait]).Timely) :=
  stop_heard_iff ((Machine.Reach.init rfl).run (by decide)) (by decide)

/-- `Stop` comes while the handler is in `Reconnect`, with nothing else in its queue. The
notification is lost, and the handler is joined while it waits for another one. -/
theorem stop_missed_in_reconnect :
    let s := waiting.run {}
      [.startWait, .trackTransport 0 0, .trackNotify, .afterWait [] 250, .stopClear, .stopNotify,
        .attempted ⟨0, 250, kMaxAttempts⟩ .success 250, .startWait]
    waiting.Reach s ∧ s.stop = .joining ∧ s.thread = .waiting ∧ s.entered = [true, false] := by
  exact ⟨(Machine.Reach.init rfl).run (by decide), by decide, by decide, by decide⟩

end AdbBridge
