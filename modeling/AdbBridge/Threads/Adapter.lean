import AdbBridge.Lib.Machine

/-!
# A connection and its threads

A `BlockingConnectionAdapter` runs a read thread and a write thread around a connection
that blocks. `Start` is called once, from the looper; `Stop` is called from the looper and
from whoever kicks or resets the transport. When the device asks for TLS, the read thread
returns, and a thread that nobody waits for makes the handshake and starts another read
thread.

The steps of `adapter` are what can be told apart from outside of `mutex_`: the critical
sections of `Start` and of `Stop` are one step each, and `DoTlsHandshake`, which waits
inside of its own, has one step for each of its calls. Any number of threads may be inside
of `Stop`, and any number of handshakes may have been asked for.

Nothing tells a handshake that the adapter has been stopped. If it gets hold of the mutex
after `Stop` has moved the read thread out, it starts a thread that nobody joins.
`quiet_of_reach` says that this, a `Stop` that comes before `Start`, and a second `Stop`
that does not wait for the first one, are the only ways in which a read thread outlives
`Stop`.
-/

namespace AdbBridge

open Function

/-! ### The adapter -/

/-- A thread of the adapter. -/
inductive ThreadState
  | unborn
  | running
  | finished
  deriving DecidableEq, Repr

/-- Where a caller of `Stop` is. -/
inductive StopState
  | idle
  /-- It has set `stopped_`. -/
  | closing
  /-- It has closed the connection. -/
  | moving
  /-- It has moved the threads out, and joins this read thread. -/
  | joiningRead (r : Option ℕ)
  | joiningWrite
  /-- Both threads have been joined, and the error is to be reported. -/
  | reporting
  | returned
  deriving DecidableEq, Repr

/-- Where a thread of `adb_auth_tls_handshake` is. -/
inductive HandshakeState
  | unborn
  /-- It has not entered `DoTlsHandshake`, or waits for the mutex. -/
  | spawned
  /-- It has the mutex, and joins the read thread if there is one. -/
  | joining
  /-- It has the mutex and makes the handshake. -/
  | shaking
  | done
  deriving DecidableEq, Repr

/-- A `BlockingConnectionAdapter`. -/
structure Adapter where
  started : Bool := false
  stopped : Bool := false
  /-- Whether the call guarded by `error_flag_` has been made. -/
  reported : Bool := false
  /-- The handshake that is inside of its critical section. All others are one step. -/
  mutex : Option ℕ := none
  /-- `read_thread_`, if it is joinable. -/
  readThread : Option ℕ := none
  /-- The read threads, by the order in which they were started. -/
  reads : ℕ → ThreadState := fun _ => .unborn
  nextRead : ℕ := 0
  write : ThreadState := .unborn
  /-- The `A_STLS` packets that are on the way to the looper. -/
  stls : ℕ := 0
  stops : ℕ → StopState := fun _ => .idle
  handshakes : ℕ → HandshakeState := fun _ => .unborn

namespace Adapter

/-- `StartReadThread`. -/
def startReadThread (x : Adapter) : Adapter :=
  { x with
    readThread := some x.nextRead
    reads := Function.update x.reads x.nextRead .running
    nextRead := x.nextRead + 1 }

def setStop (x : Adapter) (j : ℕ) (st : StopState) : Adapter :=
  { x with stops := Function.update x.stops j st }

def setHandshake (x : Adapter) (h : ℕ) (st : HandshakeState) : Adapter :=
  { x with handshakes := Function.update x.handshakes h st }

def finishRead (x : Adapter) (r : ℕ) : Adapter :=
  { x with reads := Function.update x.reads r .finished }

variable (x : Adapter) (j k : ℕ)

theorem stops_setStop (st : StopState) :
    (x.setStop j st).stops k = if k = j then st else x.stops k := update_apply ..

theorem handshakes_setHandshake (st : HandshakeState) :
    (x.setHandshake j st).handshakes k = if k = j then st else x.handshakes k :=
  update_apply ..

theorem reads_startReadThread :
    x.startReadThread.reads k = if k = x.nextRead then .running else x.reads k :=
  update_apply ..

theorem reads_finishRead : (x.finishRead j).reads k = if k = j then .finished else x.reads k :=
  update_apply ..

end Adapter

/-- What the threads do. -/
inductive AdapterOp
  /-- `Start`. -/
  | start
  /-- The read thread has read `A_STLS`, and returns. -/
  | readStls (r : ℕ)
  /-- The read thread has read `A_STLS` with a header that `check_header` does not accept, and
  returns. The packet is dropped. -/
  | readDrop (r : ℕ)
  /-- The read thread fails to read, and reports it. -/
  | readFail (r : ℕ)
  /-- The write thread sees `stopped_`. -/
  | writeReturn
  /-- The write thread fails to write, and reports it. -/
  | writeFail
  /-- The first section of `Stop`. -/
  | stopEnter (j : ℕ)
  | stopClose (j : ℕ)
  /-- The second section of `Stop`. -/
  | stopMove (j : ℕ)
  | stopJoinRead (j : ℕ)
  | stopJoinWrite (j : ℕ)
  | stopReport (j : ℕ)
  /-- The looper handles `A_STLS` and spawns a thread. -/
  | spawn (h : ℕ)
  | handshakeLock (h : ℕ)
  | handshakeJoin (h : ℕ)
  /-- The handshake is over, with or without success. -/
  | handshakeEnd (h : ℕ)
  deriving DecidableEq, Repr

/-- What an operation does. -/
def AdapterOp.step (x : Adapter) : AdapterOp → Adapter
  | .start => { x.startReadThread with write := .running, started := true }
  | .readStls r => { x.finishRead r with stls := x.stls + 1 }
  | .readDrop r => x.finishRead r
  | .readFail r => { x.finishRead r with reported := true }
  | .writeReturn => { x with write := .finished }
  | .writeFail => { x with write := .finished, reported := true }
  | .stopEnter j =>
    if !x.started || x.stopped then x.setStop j .returned
    else { x.setStop j .closing with stopped := true }
  | .stopClose j => x.setStop j .moving
  | .stopMove j => { x.setStop j (.joiningRead x.readThread) with readThread := none }
  | .stopJoinRead j => x.setStop j .joiningWrite
  | .stopJoinWrite j => x.setStop j .reporting
  | .stopReport j => { x.setStop j .returned with reported := true }
  | .spawn h => { x.setHandshake h .spawned with stls := x.stls - 1 }
  | .handshakeLock h => { x.setHandshake h .joining with mutex := some h }
  | .handshakeJoin h => { x.setHandshake h .shaking with readThread := none }
  | .handshakeEnd h => { (x.setHandshake h .done).startReadThread with mutex := none }

/-- When an operation can be made. A thread can be joined once it has finished, and a
critical section entered while no handshake is inside of its own. To start an adapter twice
is fatal. -/
def AdapterOp.Enabled (x : Adapter) : AdapterOp → Prop
  | .start => x.mutex = none ∧ x.started = false
  | .readStls r | .readDrop r | .readFail r => x.reads r = .running
  | .writeReturn => x.write = .running ∧ x.stopped = true ∧ x.mutex = none
  | .writeFail => x.write = .running
  | .stopEnter j => x.stops j = .idle ∧ x.mutex = none
  | .stopClose j => x.stops j = .closing
  | .stopMove j => x.stops j = .moving ∧ x.mutex = none
  | .stopJoinRead j =>
    match x.stops j with
    | .joiningRead (some r) => x.reads r = .finished
    | _ => False
  | .stopJoinWrite j => x.stops j = .joiningWrite ∧ x.write = .finished
  | .stopReport j => x.stops j = .reporting
  | .spawn h => 0 < x.stls ∧ x.handshakes h = .unborn
  | .handshakeLock h => x.handshakes h = .spawned ∧ x.mutex = none
  | .handshakeJoin h => x.handshakes h = .joining ∧
      ∀ r ∈ x.readThread, x.reads r = .finished
  | .handshakeEnd h => x.handshakes h = .shaking

instance AdapterOp.decidableEnabled (x : Adapter) (op : AdapterOp) : Decidable (op.Enabled x) := by
  cases op <;> dsimp only [AdapterOp.Enabled] <;> first | infer_instance | split <;> infer_instance

/-- The adapter and its threads. -/
def adapter : Machine Adapter AdapterOp where
  init := fun x => x = {}
  enabled := fun x op => op.Enabled x
  step := AdapterOp.step

instance (x : Adapter) (op : AdapterOp) : Decidable (adapter.enabled x op) :=
  inferInstanceAs (Decidable (op.Enabled x))

/-! ### Before the start -/

/-- Nothing happens to an adapter before it is started, but for calls of `Stop` that have
nothing to do. -/
def Adapter.Sound (x : Adapter) : Prop :=
  x.started = false → (∀ r, x.reads r = .unborn) ∧ x.write = .unborn ∧ x.stls = 0 ∧
    (∀ h, x.handshakes h = .unborn) ∧ (∀ k, x.stops k = .idle ∨ x.stops k = .returned) ∧
      x.reported = false ∧ x.stopped = false ∧ x.readThread = none

namespace Adapter

variable {x : Adapter} {op : AdapterOp}

theorem Sound.init : Sound {} := fun _ =>
  ⟨fun _ => rfl, rfl, rfl, fun _ => rfl, fun _ => Or.inl rfl, rfl, rfl, rfl⟩

theorem started_step (h : op ≠ .start) : (op.step x).started = x.started := by
  cases op with
  | start => exact absurd rfl h
  | stopEnter j =>
    rw [AdapterOp.step]
    split <;> rfl
  | _ => rfl

theorem reported_step (h : x.reported = true) : (op.step x).reported = true := by
  cases op with
  | readFail | writeFail | stopReport => rfl
  | stopEnter j =>
    rw [AdapterOp.step]
    split <;> exact h
  | _ => exact h

/-- Before the start, no operation but a `Stop` with nothing to do can be made. -/
theorem Sound.step (hx : x.Sound) (hen : op.Enabled x) : (op.step x).Sound := by
  intro hs
  by_cases hop : op = .start
  · subst hop
    exact absurd hs (by simp [AdapterOp.step])
  rw [started_step hop] at hs
  obtain ⟨hreads, hwrite, hstls, hshakes, hstops, hrest⟩ := hx hs
  -- All but one of the operations need a thread that has been started.
  cases op with
  | start => exact absurd rfl hop
  | stopEnter j =>
    rw [AdapterOp.step, if_pos (by simp [hs])]
    refine ⟨hreads, hwrite, hstls, hshakes, fun k => ?_, hrest⟩
    rw [stops_setStop]
    split_ifs
    · exact .inr rfl
    · exact hstops k
  | readStls r | readDrop r | readFail r => exact absurd ((hreads r).symm.trans hen) (by simp)
  | writeReturn => exact absurd (hwrite.symm.trans hen.1) (by simp)
  | writeFail => exact absurd (hwrite.symm.trans hen) (by simp)
  | stopClose j | stopReport j =>
    rcases hstops j with hj | hj <;> exact absurd (hj.symm.trans hen) (by simp)
  | stopMove j | stopJoinWrite j =>
    rcases hstops j with hj | hj <;> exact absurd (hj.symm.trans hen.1) (by simp)
  | stopJoinRead j =>
    rcases hstops j with hj | hj <;> simp [AdapterOp.Enabled, hj] at hen
  | spawn h => exact absurd hen.1 (by omega)
  | handshakeLock h | handshakeJoin h => exact absurd ((hshakes h).symm.trans hen.1) (by simp)
  | handshakeEnd h => exact absurd ((hshakes h).symm.trans hen) (by simp)

/-- Only an adapter that has been started reports an error. -/
theorem Sound.started_of_report (hx : x.Sound) (hen : op.Enabled x) (hop : op ≠ .start)
    (hr : (op.step x).reported = true) : x.started = true := by
  by_contra hs
  have hs' : (op.step x).started = false := by
    rw [started_step hop]
    simpa using hs
  exact absurd ((hx.step hen hs').2.2.2.2.2.1.symm.trans hr) (by simp)

end Adapter

/-! ### What `Stop` promises -/

/-- A call of `Stop` that has not joined the read thread yet. -/
def StopState.isBusy : StopState → Bool
  | .closing | .moving | .joiningRead _ => true
  | _ => false

/-- A call of `Stop` that has moved the threads out, or has nothing to do. -/
def StopState.isPast : StopState → Bool
  | .joiningRead _ | .joiningWrite | .reporting | .returned => true
  | _ => false

/-- **No read thread after `Stop`**: once a call of it has returned, no read thread is
running, and none is left to be joined, neither by the adapter nor by a caller of
`Stop`. -/
def Adapter.Quiet (x : Adapter) : Prop :=
  ∀ j, x.stops j = .returned → x.readThread = none ∧ (∀ r, x.reads r ≠ .running) ∧
    ∀ k r, x.stops k ≠ .joiningRead (some r)

/-- What the callers would have to keep to: an adapter is not started after it has been
stopped, a second `Stop` does not come before the first one has joined the read thread, and a
handshake does not enter its critical section after a `Stop` has been through its second
one. -/
def AdapterOp.InOrder (x : Adapter) : AdapterOp → Prop
  | .start => ∀ k, x.stops k ≠ .returned
  | .stopEnter _ => x.stopped = true → ∀ k, (x.stops k).isBusy = false
  | .handshakeLock _ => ∀ k, (x.stops k).isPast = false
  | _ => True

/-- The runs in which the callers do. -/
def orderlyAdapter : Machine Adapter AdapterOp := adapter.restrict fun x op => op.InOrder x

/-! ### The invariant -/

/-- A handshake that has the mutex. -/
def HandshakeState.isInside : HandshakeState → Bool
  | .joining | .shaking => true
  | _ => false

/-- What holds in the runs in which the callers keep to the order. -/
structure Adapter.Ok (x : Adapter) : Prop where
  /-- Nothing has happened before `Start`. -/
  sound : x.Sound
  /-- The mutex is held by the handshake that is inside of its section. -/
  mutex : ∀ h, x.mutex = some h ↔ (x.handshakes h).isInside = true
  /-- A read thread that is running is the adapter's, or one that `Stop` waits for. -/
  owned : ∀ r, x.reads r = .running →
    x.readThread = some r ∨ ∃ k, x.stops k = .joiningRead (some r)
  /-- While a handshake is made there is no read thread. -/
  shaking : ∀ h, x.handshakes h = .shaking → x.readThread = none
  /-- Once `Stop` has moved the read thread out, there is none, and none is going to be. -/
  past : ∀ k, (x.stops k).isPast = true → x.readThread = none ∧ x.mutex = none
  /-- As long as a call of `Stop` has not joined the read thread, it is the only one. -/
  alone : ∀ k, (x.stops k).isBusy = true → ∀ k', k' ≠ k → x.stops k' = .idle
  stopped : x.started = true → (x.stopped = true ↔ ∃ k, x.stops k ≠ .idle)

namespace Adapter.Ok

variable {x : Adapter} {op : AdapterOp} {j h r : ℕ}

/-- Everything follows from the invariant. -/
theorem quiet (hx : x.Ok) : x.Quiet := by
  intro j hj
  have hnone := (hx.past j (by rw [hj]; rfl)).1
  have hjoin : ∀ k r, x.stops k ≠ .joiningRead (some r) := by
    intro k r hk
    by_cases hjk : j = k
    · rw [← hjk, hj] at hk
      exact absurd hk (by simp)
    · exact absurd (hj.symm.trans (hx.alone k (by rw [hk]; rfl) j hjk)) (by simp)
  refine ⟨hnone, fun r hr => ?_, hjoin⟩
  rcases hx.owned r hr with hread | ⟨k, hk⟩
  · exact absurd (hnone.symm.trans hread) (by simp)
  · exact hjoin k r hk

/-- A read thread that has come to its end. -/
theorem finishRead (hx : x.Ok) :
    ∀ r', (x.finishRead r).reads r' = .running →
      x.readThread = some r' ∨ ∃ k, x.stops k = .joiningRead (some r') := by
  intro r' hr'
  rw [reads_finishRead] at hr'
  split_ifs at hr' with hrr
  exact hx.owned r' hr'

/-! ### Stopping -/

/-- A call of `Stop` goes on. It owns no thread that is still running. -/
theorem setStop (hx : x.Ok) {st : StopState} {b : Bool} (hold : x.stops j ≠ .idle)
    (hsound : Sound { x.setStop j st with reported := b }) (hnew : st ≠ .idle)
    (hbusy : st.isBusy = true → (x.stops j).isBusy = true)
    (hpast : st.isPast = true → (x.stops j).isPast = true)
    (hjoin : ∀ r, x.stops j = .joiningRead (some r) → x.reads r ≠ .running) :
    Ok { x.setStop j st with reported := b } := by
  refine ⟨hsound, hx.mutex, fun r hr => ?_, hx.shaking, fun k hk => ?_, fun k hk k' hk' => ?_,
    fun hs => ?_⟩
  · rcases hx.owned r hr with hread | ⟨k, hk⟩
    · exact Or.inl hread
    · have hkj : k ≠ j := by
        rintro rfl
        exact hjoin r hk hr
      exact Or.inr ⟨k, by rwa [stops_setStop, if_neg hkj]⟩
  · rw [stops_setStop] at hk
    split_ifs at hk with hkj
    · exact hx.past k (hkj ▸ hpast hk)
    · exact hx.past k hk
  · rw [stops_setStop] at hk
    split_ifs at hk with hkj
    · subst hkj
      rw [stops_setStop, if_neg hk']
      exact hx.alone k (hbusy hk) k' hk'
    · -- No other call has anything to do while this one is under way.
      exact absurd (hx.alone k hk j (Ne.symm hkj)) hold
  · exact iff_of_true ((hx.stopped hs).mpr ⟨j, hold⟩) ⟨j, by rwa [stops_setStop, if_pos rfl]⟩

/-- Nothing to do: the adapter has not been started, or it has been stopped already. -/
theorem stopReturn (hx : x.Ok) (hsound : (x.setStop j .returned).Sound)
    (hen : (AdapterOp.stopEnter j).Enabled x) (hord : (AdapterOp.stopEnter j).InOrder x)
    (hreturn : (!x.started || x.stopped) = true) : (x.setStop j .returned).Ok := by
  have hquiet : x.readThread = none ∧ ∀ k, (x.stops k).isBusy = false := by
    rcases Bool.eq_false_or_eq_true x.started with hs | hs
    · have hstopped : x.stopped = true := by simpa [hs] using hreturn
      obtain ⟨k, hk⟩ := (hx.stopped hs).mp hstopped
      have hbusy := hord hstopped
      refine ⟨(hx.past k ?_).1, hbusy⟩
      have hkb := hbusy k
      cases hst : x.stops k <;> simp_all [StopState.isBusy, StopState.isPast]
    · obtain ⟨-, -, -, -, hstops, -, -, hnone⟩ := hx.sound hs
      refine ⟨hnone, fun k => ?_⟩
      rcases hstops k with hk | hk <;> rw [hk] <;> rfl
  refine ⟨hsound, hx.mutex, fun r hr => ?_, hx.shaking, fun k hk => ⟨hquiet.1, hen.2⟩,
    fun k hk => ?_, fun hs => ?_⟩
  · rcases hx.owned r hr with hread | ⟨k, hk⟩
    · exact Or.inl hread
    · exact absurd (hquiet.2 k) (by simp [hk, StopState.isBusy])
  · rw [stops_setStop] at hk
    split_ifs at hk
    · exact nomatch hk
    · exact absurd ((hquiet.2 k).symm.trans hk) (by simp)
  · have hstopped : x.stopped = true := by simpa [show x.started = true from hs] using hreturn
    exact iff_of_true hstopped ⟨j, by simp [stops_setStop]⟩

/-- The first section of `Stop`: there is nothing to do, or the adapter is marked as stopped. -/
theorem stopEnter (hx : x.Ok) (hsound : ((AdapterOp.stopEnter j).step x).Sound)
    (hen : (AdapterOp.stopEnter j).Enabled x) (hord : (AdapterOp.stopEnter j).InOrder x) :
    ((AdapterOp.stopEnter j).step x).Ok := by
  rw [AdapterOp.step] at hsound ⊢
  split_ifs at hsound ⊢ with hgo
  · exact hx.stopReturn hsound hen hord hgo
  · obtain ⟨hstarted, hstopped⟩ : x.started = true ∧ x.stopped = false := by simpa using hgo
    have hall : ∀ k, x.stops k = .idle := by
      intro k
      by_contra hk
      exact absurd (((hx.stopped hstarted).mpr ⟨k, hk⟩).symm.trans hstopped) (by simp)
    refine ⟨hsound, hx.mutex, fun r hr => ?_, hx.shaking, fun k hk => ?_, fun k hk k' hk' => ?_,
      fun _ => iff_of_true rfl ⟨j, by simp [stops_setStop]⟩⟩
    · rcases hx.owned r hr with hread | ⟨k, hk⟩
      · exact Or.inl hread
      · exact absurd ((hall k).symm.trans hk) (by simp)
    · rw [stops_setStop, hall k] at hk
      split_ifs at hk <;> exact nomatch hk
    · rw [stops_setStop, hall k] at hk
      split_ifs at hk with hkj
      · rw [stops_setStop, if_neg (hkj ▸ hk')]
        exact hall k'
      · exact nomatch hk

/-- The second section of `Stop`: the read thread changes hands. -/
theorem stopMove (hx : x.Ok) (hsound : ((AdapterOp.stopMove j).step x).Sound)
    (hen : (AdapterOp.stopMove j).Enabled x) : ((AdapterOp.stopMove j).step x).Ok := by
  obtain ⟨hmoving, hmutex⟩ := hen
  have hothers := hx.alone j (by rw [hmoving]; rfl)
  refine ⟨hsound, hx.mutex, fun r hr => Or.inr ⟨j, ?_⟩, fun _ _ => rfl, fun _ _ => ⟨rfl, hmutex⟩,
    fun k hk k' hk' => ?_, fun hs => ?_⟩
  · refine (stops_setStop x j j _).trans ?_
    rw [if_pos rfl]
    rcases hx.owned r hr with hread | ⟨k, hk⟩
    · rw [hread]
    · have hkj : k ≠ j := by
        rintro rfl
        exact absurd (hmoving.symm.trans hk) (by simp)
      exact absurd ((hothers k hkj).symm.trans hk) (by simp)
  · change ((x.setStop j _).stops k).isBusy = true at hk
    change (x.setStop j _).stops k' = .idle
    rw [stops_setStop] at hk ⊢
    split_ifs at hk with hkj
    · rw [if_neg (hkj ▸ hk')]
      exact hothers k' (hkj ▸ hk')
    · exact absurd hk (by simp [hothers k hkj, StopState.isBusy])
  · have hstopped : x.stopped = true := (hx.stopped hs).mpr ⟨j, by rw [hmoving]; simp⟩
    exact iff_of_true hstopped ⟨j, by simp [AdapterOp.step, Adapter.setStop]⟩

/-! ### Handshakes -/

/-- A handshake goes on inside of its critical section, or outside of it. -/
theorem setHandshake (hx : x.Ok) {st : HandshakeState}
    (hinside : st.isInside = (x.handshakes h).isInside) :
    ∀ h', x.mutex = some h' ↔ ((x.setHandshake h st).handshakes h').isInside = true := by
  intro h'
  rw [hx.mutex h', handshakes_setHandshake]
  split_ifs with hhh
  · rw [hhh, hinside]
  · rfl

/-- One that does not get to the handshake leaves the read thread alone. -/
theorem setHandshake_shaking (hx : x.Ok) {st : HandshakeState} (hst : st ≠ .shaking) :
    ∀ h', (x.setHandshake h st).handshakes h' = .shaking → x.readThread = none := by
  intro h' hh'
  rw [handshakes_setHandshake] at hh'
  split_ifs at hh'
  · exact absurd hh' hst
  · exact hx.shaking h' hh'

/-- A handshake takes the lock, and keeps it until it is over. -/
theorem handshakeLock (hx : x.Ok) (hsound : ((AdapterOp.handshakeLock h).step x).Sound)
    (hen : (AdapterOp.handshakeLock h).Enabled x) (hord : (AdapterOp.handshakeLock h).InOrder x) :
    ((AdapterOp.handshakeLock h).step x).Ok := by
  refine ⟨hsound, fun h' => ?_, hx.owned, hx.setHandshake_shaking nofun, fun k hk => ?_, hx.alone,
    hx.stopped⟩
  · change some h = some h' ↔ ((x.setHandshake h _).handshakes h').isInside = true
    rw [handshakes_setHandshake]
    split_ifs with hhh
    · exact iff_of_true (congrArg some hhh.symm) rfl
    · -- No handshake is inside of its section while the mutex is free.
      rw [← hx.mutex h', hen.2]
      simpa using Ne.symm hhh
  · exact absurd ((hord k).symm.trans hk) (by simp)

/-- A handshake that has joined the read thread. -/
theorem handshakeJoin (hx : x.Ok) (hsound : ((AdapterOp.handshakeJoin h).step x).Sound)
    (hen : (AdapterOp.handshakeJoin h).Enabled x) : ((AdapterOp.handshakeJoin h).step x).Ok := by
  obtain ⟨hjoining, hfinished⟩ := hen
  refine ⟨hsound, hx.setHandshake (by rw [hjoining]; rfl), fun r hr => ?_, fun _ _ => rfl,
    fun k hk => ⟨rfl, (hx.past k hk).2⟩, hx.alone, hx.stopped⟩
  rcases hx.owned r hr with hread | hstop
  · exact absurd ((hfinished r hread).symm.trans hr) (by simp)
  · exact Or.inr hstop

/-- The end of a handshake: there is a read thread again. -/
theorem handshakeEnd (hx : x.Ok) (hsound : ((AdapterOp.handshakeEnd h).step x).Sound)
    (hen : (AdapterOp.handshakeEnd h).Enabled x) : ((AdapterOp.handshakeEnd h).step x).Ok := by
  have hshaking : x.handshakes h = .shaking := hen
  have hmutex : x.mutex = some h := (hx.mutex h).mpr (by rw [hshaking]; rfl)
  -- No call of `Stop` has been through its second section, since the mutex is held.
  have hpast : ∀ k, (x.stops k).isPast = false := by
    intro k
    by_contra hk
    exact absurd (hmutex.symm.trans (hx.past k (by simpa using hk)).2) (by simp)
  have hnew : ∀ r, x.reads r ≠ .running := by
    intro r hr
    rcases hx.owned r hr with hread | ⟨k, hk⟩
    · exact absurd ((hx.shaking h hshaking).symm.trans hread) (by simp)
    · exact absurd (hpast k) (by simp [hk, StopState.isPast])
  have houtside : ∀ h', ((x.setHandshake h .done).handshakes h').isInside = false := by
    intro h'
    rw [handshakes_setHandshake]
    split_ifs with hhh
    · rfl
    · have hout := mt (hx.mutex h').mpr (by rw [hmutex]; simpa using Ne.symm hhh)
      simpa using hout
  refine ⟨hsound, fun h' => iff_of_false nofun ?_, fun r hr => Or.inl ?_, fun h' hh' => ?_,
    fun k hk => absurd ((hpast k).symm.trans hk) (by simp), hx.alone, hx.stopped⟩
  · exact Bool.eq_false_iff.mp (houtside h')
  · change (x.setHandshake h .done).startReadThread.reads r = .running at hr
    rw [reads_startReadThread] at hr
    split_ifs at hr with hrn
    · exact congrArg some hrn.symm
    · exact absurd hr (hnew r)
  · have hout := houtside h'
    rw [show (x.setHandshake h .done).handshakes h' = .shaking from hh'] at hout
    exact nomatch hout

/-! ### Starting -/

/-- `Start` makes the first read thread and the write thread. -/
theorem start (hx : x.Ok) (hsound : (AdapterOp.start.step x).Sound)
    (hen : AdapterOp.start.Enabled x) (hord : AdapterOp.start.InOrder x) :
    (AdapterOp.start.step x).Ok := by
  obtain ⟨hreads, -, -, hshakes, hstops, -, hstopped, -⟩ := hx.sound hen.2
  have hidle : ∀ k, x.stops k = .idle := fun k => (hstops k).resolve_right (hord k)
  refine ⟨hsound, hx.mutex, fun r hr => Or.inl ?_, fun h hh => ?_, fun k hk => ?_, hx.alone,
    fun _ => ?_⟩
  · change x.startReadThread.reads r = .running at hr
    rw [reads_startReadThread, hreads r] at hr
    split_ifs at hr with hrn
    exact congrArg some hrn.symm
  · exact absurd ((hshakes h).symm.trans hh) (by simp)
  · rw [show (AdapterOp.start.step x).stops k = x.stops k from rfl, hidle k] at hk
    exact nomatch hk
  · refine iff_of_false ?_ fun ⟨k, hk⟩ => hk (hidle k)
    rw [show (AdapterOp.start.step x).stopped = x.stopped from rfl, hstopped]
    simp

/-- **One step.** -/
theorem step (hx : x.Ok) (hen : op.Enabled x) (hord : op.InOrder x) : (op.step x).Ok := by
  have hsound := hx.sound.step hen
  cases op with
  | start => exact hx.start hsound hen hord
  | readStls r | readDrop r | readFail r =>
    exact ⟨hsound, hx.mutex, hx.finishRead, hx.shaking, hx.past, hx.alone, hx.stopped⟩
  | writeReturn | writeFail =>
    exact ⟨hsound, hx.mutex, hx.owned, hx.shaking, hx.past, hx.alone, hx.stopped⟩
  | stopEnter j => exact hx.stopEnter hsound hen hord
  | stopClose j =>
    have hj : x.stops j = .closing := hen
    refine hx.setStop (b := x.reported) ?_ hsound ?_ ?_ ?_ ?_ <;>
      simp [hj, StopState.isBusy, StopState.isPast]
  | stopMove j => exact hx.stopMove hsound hen
  | stopJoinRead j =>
    obtain ⟨r, hj, hr⟩ : ∃ r, x.stops j = .joiningRead (some r) ∧ x.reads r = .finished := by
      unfold AdapterOp.Enabled at hen
      dsimp only at hen
      split at hen
      · rename_i r hj
        exact ⟨r, hj, hen⟩
      · exact hen.elim
    refine hx.setStop (b := x.reported) ?_ hsound ?_ ?_ ?_ ?_ <;>
      simp [hj, hr, StopState.isBusy, StopState.isPast]
  | stopJoinWrite j =>
    have hj : x.stops j = .joiningWrite := hen.1
    refine hx.setStop (b := x.reported) ?_ hsound ?_ ?_ ?_ ?_ <;>
      simp [hj, StopState.isBusy, StopState.isPast]
  | stopReport j =>
    have hj : x.stops j = .reporting := hen
    refine hx.setStop ?_ hsound ?_ ?_ ?_ ?_ <;> simp [hj, StopState.isBusy, StopState.isPast]
  | spawn h =>
    exact ⟨hsound, hx.setHandshake (by rw [hen.2]; rfl), hx.owned, hx.setHandshake_shaking nofun,
      hx.past, hx.alone, hx.stopped⟩
  | handshakeLock h => exact hx.handshakeLock hsound hen hord
  | handshakeJoin h => exact hx.handshakeJoin hsound hen
  | handshakeEnd h => exact hx.handshakeEnd hsound hen

theorem init : Ok {} where
  sound := .init
  mutex _ := iff_of_false nofun nofun
  owned := nofun
  shaking := nofun
  past := nofun
  alone := nofun
  stopped := nofun

end Adapter.Ok

/-- **No read thread after `Stop`**, in every run in which an adapter is not started after it
has been stopped, no second `Stop` comes before the first one has joined the read thread,
and no handshake enters its critical section once `Stop` has left its second one. -/
theorem quiet_of_reach {x : Adapter} (h : orderlyAdapter.Reach x) : x.Quiet := by
  have hok : x.Ok := by
    refine Machine.Reach.inv (M := orderlyAdapter) (P := Adapter.Ok) ?_ ?_ h
    · rintro x rfl
      exact .init
    · exact fun x op _ hx hen => hx.step hen.1 hen.2
  exact hok.quiet

/-- A handshake that has the mutex before `Stop` moves the read thread out. -/
def timelyHandshake : List AdapterOp :=
  [.start, .readStls 0, .spawn 0, .stopEnter 0, .handshakeLock 0, .handshakeJoin 0,
    .handshakeEnd 0, .stopClose 0, .stopMove 0, .readFail 1, .stopJoinRead 0, .writeReturn,
    .stopJoinWrite 0, .stopReport 0]

theorem quiet_of_reach_handshake : (adapter.run {} timelyHandshake).Quiet := by
  have hlegal : adapter.Legal {} timelyHandshake := by decide +kernel
  have horder : adapter.Meets (fun x op => op.InOrder x) {} timelyHandshake := by
    refine ⟨nofun, trivial, trivial, nofun, fun k => ?_, trivial, trivial, trivial, trivial,
      trivial,
      trivial, trivial, trivial, trivial, trivial⟩
    rcases k with _ | k <;> rfl
  have hinit : orderlyAdapter.Reach {} := .init rfl
  exact quiet_of_reach (hinit.run (hlegal.restrict horder))

/-- A handshake that gets the mutex once `Stop` has returned. -/
def lateHandshake : List AdapterOp :=
  [.start, .readStls 0, .spawn 0, .stopEnter 0, .stopClose 0, .stopMove 0, .stopJoinRead 0,
    .writeReturn, .stopJoinWrite 0, .stopReport 0, .handshakeLock 0, .handshakeJoin 0,
    .handshakeEnd 0]

/-- **A read thread outlives `Stop`** if a handshake comes late, if the adapter is started
after it has been stopped, and if a second `Stop` does not wait for the first one. -/
theorem not_quiet :
    (adapter.Legal {} lateHandshake ∧ ¬(adapter.run {} lateHandshake).Quiet) ∧
      (adapter.Legal {} [.stopEnter 0, .start] ∧ ¬(adapter.run {} [.stopEnter 0, .start]).Quiet) ∧
      (adapter.Legal {} [.start, .stopEnter 0, .stopEnter 1] ∧
        ¬(adapter.run {} [.start, .stopEnter 0, .stopEnter 1]).Quiet) := by
  refine ⟨⟨by decide +kernel, fun h => ?_⟩, ⟨by decide +kernel, fun h => ?_⟩,
    ⟨by decide +kernel, fun h => ?_⟩⟩
  · exact (h 0 rfl).2.1 1 rfl
  · exact (h 0 rfl).2.1 0 rfl
  · exact (h 1 rfl).2.1 0 rfl

/-! ### Who may read -/

/-- A handshake that has been asked for and is not over. -/
def HandshakeState.isOpen : HandshakeState → Bool
  | .spawned | .joining | .shaking => true
  | _ => false

/-- What a new read thread can come from. -/
inductive Reader
  | thread (r : ℕ)
  | stls
  | handshake (h : ℕ)

/-- There is one of them at most: a read thread that runs, an `A_STLS` packet on its way to the
looper, or a handshake. Each of them makes way for the next. -/
structure Adapter.Reads (x : Adapter) (reader : Reader) : Prop where
  thread : ∀ r, x.reads r = .running → reader = .thread r
  stls : 0 < x.stls → reader = .stls ∧ x.stls = 1
  handshake : ∀ h, (x.handshakes h).isOpen = true → reader = .handshake h

namespace Adapter.Reads

variable {x : Adapter} {reader : Reader} {h r : ℕ}

theorem stls_eq_zero (hx : x.Reads reader) (hne : reader ≠ .stls) : x.stls = 0 :=
  Nat.eq_zero_of_not_pos fun hpos => hne (hx.stls hpos).1

theorem finishRead (hx : x.Reads reader) (r : ℕ) : (x.finishRead r).Reads reader := by
  refine ⟨fun r' hr' => ?_, hx.stls, hx.handshake⟩
  rw [reads_finishRead] at hr'
  split_ifs at hr'
  exact hx.thread r' hr'

/-- A handshake goes on. -/
theorem setHandshake (hx : x.Reads reader) (hopen : (x.handshakes h).isOpen = true)
    (st : HandshakeState) : (x.setHandshake h st).Reads reader := by
  refine ⟨hx.thread, hx.stls, fun h' hh' => hx.handshake h' ?_⟩
  rw [handshakes_setHandshake] at hh'
  split_ifs at hh' with hhh
  · rwa [hhh]
  · exact hh'

/-- A read thread is started where there is no other. -/
theorem startReadThread (hreads : ∀ r, x.reads r ≠ .running) (hstls : x.stls = 0)
    (hshakes : ∀ h, (x.handshakes h).isOpen = false) :
    x.startReadThread.Reads (.thread x.nextRead) := by
  refine ⟨fun r hr => ?_, fun hpos => absurd hstls hpos.ne', fun h hh => ?_⟩
  · rw [reads_startReadThread] at hr
    split_ifs at hr with hrn
    · rw [hrn]
    · exact absurd hr (hreads r)
  · exact absurd ((hshakes h).symm.trans hh) (by simp)

theorem readStls (hx : x.Reads reader) (hr : x.reads r = .running) :
    ((AdapterOp.readStls r).step x).Reads .stls := by
  obtain rfl := hx.thread r hr
  have hzero := hx.stls_eq_zero nofun
  refine ⟨fun r' hr' => ?_, fun _ => ⟨rfl, by simp [AdapterOp.step, hzero]⟩,
    fun h hh => nomatch hx.handshake h hh⟩
  change (x.finishRead r).reads r' = .running at hr'
  rw [reads_finishRead] at hr'
  split_ifs at hr' with hrr
  exact absurd (Reader.thread.inj (hx.thread r' hr')).symm hrr

theorem spawn (hx : x.Reads reader) (hen : (AdapterOp.spawn h).Enabled x) :
    ((AdapterOp.spawn h).step x).Reads (.handshake h) := by
  obtain ⟨rfl, hone⟩ := hx.stls hen.1
  refine ⟨fun r hr => (nomatch hx.thread r hr), fun hpos => ?_, fun h' hh' => ?_⟩
  · simp [AdapterOp.step, hone] at hpos
  · change ((x.setHandshake h .spawned).handshakes h').isOpen = true at hh'
    rw [handshakes_setHandshake] at hh'
    split_ifs at hh' with hhh
    · rw [hhh]
    · exact nomatch hx.handshake h' hh'

/-- A handshake makes way for the next read thread. -/
theorem handshakeEnd (hx : x.Reads reader) (hen : (AdapterOp.handshakeEnd h).Enabled x) :
    ((AdapterOp.handshakeEnd h).step x).Reads (.thread x.nextRead) := by
  obtain rfl := hx.handshake h (by rw [show x.handshakes h = .shaking from hen]; rfl)
  have hstart := startReadThread (x := x.setHandshake h .done) (fun r hr => nomatch hx.thread r hr)
    (hx.stls_eq_zero nofun) fun h' => ?_
  · exact ⟨hstart.thread, hstart.stls, hstart.handshake⟩
  · rw [handshakes_setHandshake]
    split_ifs with hhh
    · rfl
    · refine Bool.eq_false_iff.mpr fun hopen => ?_
      exact hhh (Reader.handshake.inj (hx.handshake h' hopen)).symm

/-- Each operation leaves one reader at most. -/
theorem step (hx : x.Reads reader) (hsound : x.Sound) {op : AdapterOp} (hen : op.Enabled x) :
    ∃ reader, (op.step x).Reads reader := by
  cases op with
  | start =>
    obtain ⟨hreads, -, hstls, hshakes, -⟩ := hsound hen.2
    have hstart := startReadThread (fun r => by simp [hreads r]) hstls fun h => by
      rw [hshakes h]
      rfl
    exact ⟨_, hstart.thread, hstart.stls, hstart.handshake⟩
  | readStls r => exact ⟨_, hx.readStls hen⟩
  | readDrop r => exact ⟨_, hx.finishRead r⟩
  | readFail r => exact ⟨_, (hx.finishRead r).thread, hx.stls, hx.handshake⟩
  | spawn h => exact ⟨_, hx.spawn hen⟩
  | handshakeLock h =>
    have hopen : (x.handshakes h).isOpen = true := by rw [hen.1]; rfl
    exact ⟨_, hx.thread, hx.stls, (hx.setHandshake hopen .joining).handshake⟩
  | handshakeJoin h =>
    have hopen : (x.handshakes h).isOpen = true := by rw [hen.1]; rfl
    exact ⟨_, hx.thread, hx.stls, (hx.setHandshake hopen .shaking).handshake⟩
  | handshakeEnd h => exact ⟨_, hx.handshakeEnd hen⟩
  | stopEnter j =>
    rw [AdapterOp.step]
    split <;> exact ⟨_, hx.thread, hx.stls, hx.handshake⟩
  | writeReturn | writeFail | stopClose | stopMove | stopJoinRead | stopJoinWrite | stopReport =>
    exact ⟨_, hx.thread, hx.stls, hx.handshake⟩

end Adapter.Reads

end AdbBridge
