import AdbBridge.Lib.Machine

/-!
# Starting a pairing

`Start` of a `PairingConnectionCtx` puts the descriptor it is given into `fd_` first, and only then
looks whether a pairing has been started before. So of two calls with a descriptor the second
returns false and yet has closed the descriptor of the pairing and put its own in the place; the
result is then reported for that one. `AdbBridge.pairing_undisturbed` says that nothing else can go
wrong: while there is only one call with a descriptor, the calls that return false do nothing, the
result is reported once and for the descriptor of the call that returned true, and the worker never
sees a state it does not expect.
-/

namespace AdbBridge

open List

variable {κ ο : Type}

/-! ### The worker -/

/-- `PairingConnectionCtx::State`. -/
inductive PairingState
  | ready
  | exchangingMsgs
  | exchangingPeerInfo
  | stopped
  deriving DecidableEq

/-- Where `StartWorker` is. -/
inductive PairingWorker
  /-- There is no thread yet. -/
  | none
  | setupTlsConnection
  /-- At the `switch`. -/
  | switch
  | doExchangeMsgs
  /-- The messages have been exchanged. -/
  | exchanged
  | doExchangePeerInfo
  /-- At `NotifyResult`, with the information of the peer or without. -/
  | notifyResult (paired : Bool)
  /-- The callback has returned. -/
  | notified
  | returned
  /-- `LOG(FATAL)`. -/
  | fatal
  deriving DecidableEq

/-- How something the worker does ends. -/
inductive PairingOutcome
  | success
  /-- `WriteHeader` has failed. -/
  | writeFails
  | failure
  deriving DecidableEq

/-- A call of the result callback. -/
structure PairingResult (κ ο : Type) where
  cb : Option κ
  fd : ℤ
  opaque_ : Option ο
  paired : Bool
  deriving DecidableEq

/-- The members of a `PairingConnectionCtx` that change, and what its worker has done. -/
structure PairingConnection (κ ο : Type) where
  state : PairingState := .ready
  fd : ℤ := -1
  /-- Not set before the first `Start`. -/
  cb : Option κ := none
  opaque_ : Option ο := none
  /-- The descriptor `tls_` is on. -/
  tls : Option ℤ := none
  /-- The descriptors that have been closed. -/
  closed : List ℤ := []
  worker : PairingWorker := .none
  results : List (PairingResult κ ο) := []
  deriving DecidableEq

namespace PairingConnection

/-- `fd_.reset`. -/
def resetFd (c : PairingConnection κ ο) (fd : ℤ) : PairingConnection κ ο :=
  { c with fd, closed := if c.fd = -1 then c.closed else c.closed ++ [c.fd] }

/-- `StartWorker`, up to the next thing that another thread could see. -/
def work (c : PairingConnection κ ο) (o : PairingOutcome) : PairingConnection κ ο :=
  match c.worker with
  | .none | .returned | .fatal => c
  | .setupTlsConnection =>
    { c with
      tls := some c.fd
      worker := if o = .success then .switch else .notifyResult false }
  | .switch =>
    match c.state with
    | .exchangingMsgs => { c with worker := .doExchangeMsgs }
    | .exchangingPeerInfo => { c with worker := .doExchangePeerInfo }
    | .ready | .stopped => { c with worker := .fatal }
  | .doExchangeMsgs =>
    match o with
    | .success => { c with worker := .exchanged }
    | .writeFails => { c with state := .stopped, worker := .notifyResult false }
    | .failure => { c with worker := .notifyResult false }
  | .exchanged => { c with state := .exchangingPeerInfo, worker := .switch }
  | .doExchangePeerInfo => { c with worker := .notifyResult (o = .success) }
  | .notifyResult paired =>
    { c with results := c.results ++ [⟨c.cb, c.fd, c.opaque_, paired⟩], worker := .notified }
  | .notified => { c with state := .stopped, worker := .returned }

end PairingConnection

/-! ### The caller -/

/-- The arguments of a `Start`. -/
structure StartCall (κ ο : Type) where
  fd : ℤ
  cb : κ
  opaque_ : ο
  deriving DecidableEq

/-- Where a `Start` is. -/
inductive StartPlace
  /-- `fd_` has been set. -/
  | fdSet
  /-- `state_` has been exchanged. -/
  | exchanged
  deriving DecidableEq

/-- A `Start`: the connection before it, and what the worker has done since. -/
structure StartRun (κ ο : Type) where
  call : StartCall κ ο
  before : PairingConnection κ ο
  since : List PairingOutcome := []
  deriving DecidableEq

/-- A `Start` that has returned. -/
structure StartReturn (κ ο : Type) extends StartRun κ ο where
  value : Bool
  after : PairingConnection κ ο
  deriving DecidableEq

/-- A thread that calls `Start` again and again, and the worker. -/
structure PairingThreads (κ ο : Type) where
  conn : PairingConnection κ ο := {}
  /-- The calls that are still to come. -/
  calls : List (StartCall κ ο)
  current : Option (StartPlace × StartRun κ ο) := none
  returns : List (StartReturn κ ο) := []
  deriving DecidableEq

/-- A step of the thread that calls `Start`, or of the worker. -/
inductive PairingOp
  | call
  | work (o : PairingOutcome)
  deriving DecidableEq

def PairingOp.isWork : PairingOp → Bool
  | .call => false
  | .work _ => true

namespace PairingThreads

/-- The call returns. -/
def ret (p : PairingThreads κ ο) (run : StartRun κ ο) (value : Bool) : PairingThreads κ ο :=
  { p with
    current := none
    returns := p.returns ++ [{ run with value, after := p.conn }] }

/-- `Start`, up to the next thing that another thread could see. -/
def call (p : PairingThreads κ ο) : PairingThreads κ ο :=
  match p.current with
  | none =>
    match p.calls with
    | [] => p
    | call :: calls =>
      if call.fd < 0 then ret { p with calls } { call, before := p.conn } false
      else { p with
        calls
        conn := p.conn.resetFd call.fd
        current := some (.fdSet, { call, before := p.conn }) }
  | some (.fdSet, run) =>
    if p.conn.state = .ready then
      { p with
        conn := { p.conn with state := .exchangingMsgs }
        current := some (.exchanged, run) }
    else p.ret run false
  | some (.exchanged, run) =>
    -- There is no other thread yet that could see one of the members set without the other.
    let conn := { p.conn with
      cb := some run.call.cb
      opaque_ := some run.call.opaque_
      worker := .setupTlsConnection }
    ret { p with conn } run true

/-- A step of the worker, which a call that is being made may notice. -/
def work (p : PairingThreads κ ο) (o : PairingOutcome) : PairingThreads κ ο :=
  { p with
    conn := p.conn.work o
    current := p.current.map fun (place, run) => (place, { run with since := run.since ++ [o] }) }

def step (p : PairingThreads κ ο) : PairingOp → PairingThreads κ ο
  | .call => p.call
  | .work o => p.work o

def Enabled (p : PairingThreads κ ο) : PairingOp → Prop
  | .call => p.current ≠ none ∨ p.calls ≠ []
  | .work _ => p.conn.worker ≠ .none ∧ p.conn.worker ≠ .returned ∧ p.conn.worker ≠ .fatal

/-- The two threads, as a machine: any calls, one after the other. -/
def machine : Machine (PairingThreads κ ο) PairingOp where
  init p := ∃ calls, p = { calls }
  enabled := Enabled
  step := step

end PairingThreads

/-! ### One call with a descriptor -/

/-- The call did nothing: if it returned false, the connection is what the worker alone has made of
it. -/
def StartReturn.Unchanged (r : StartReturn κ ο) : Prop :=
  r.value = false → r.after = r.since.foldl PairingConnection.work r.before

/-- **A pairing goes its way.** Calls that return false do nothing, one call at most returns true,
the result is reported once, to the callback and for the descriptor of this call, and there is no
invalid state. -/
structure PairingThreads.Undisturbed (p : PairingThreads κ ο) : Prop where
  unchanged : ∀ r ∈ p.returns, r.Unchanged
  once : (p.returns.filter (·.value)).length ≤ 1
  reported : p.conn.results.length =
    if p.conn.worker = .notified ∨ p.conn.worker = .returned then 1 else 0
  given : ∀ n ∈ p.conn.results, ∃ r ∈ p.returns, r.value = true ∧ n.cb = some r.call.cb ∧
    n.fd = r.call.fd ∧ n.opaque_ = some r.call.opaque_
  not_fatal : p.conn.worker ≠ .fatal

/-- What the worker meets, after the call. -/
def PairingConnection.Works (c : PairingConnection κ ο) (call : StartCall κ ο) : Prop :=
  c.fd = call.fd ∧ c.cb = some call.cb ∧ c.opaque_ = some call.opaque_ ∧
  (∃ paired, c.results = if c.worker = .notified ∨ c.worker = .returned then
    [⟨c.cb, c.fd, c.opaque_, paired⟩] else []) ∧
  match c.worker with
  | .none | .fatal => False
  | .setupTlsConnection | .doExchangeMsgs | .exchanged => c.state = .exchangingMsgs
  | .switch => c.state = .exchangingMsgs ∨ c.state = .exchangingPeerInfo
  | .doExchangePeerInfo => c.state = .exchangingPeerInfo
  | .notifyResult _ | .notified | .returned => True

/-- How many steps the worker still has. -/
def PairingConnection.left (c : PairingConnection κ ο) : ℕ :=
  match c.worker with
  | .none | .setupTlsConnection => 8
  | .switch => if c.state = .exchangingMsgs then 7 else 4
  | .doExchangeMsgs => 6
  | .exchanged => 5
  | .doExchangePeerInfo => 3
  | .notifyResult _ => 2
  | .notified => 1
  | .returned | .fatal => 0

/-- What a call has made of a new connection, at each of its places. -/
def StartCall.conn (call : StartCall κ ο) : StartPlace → PairingConnection κ ο
  | .fdSet => { fd := call.fd }
  | .exchanged => { fd := call.fd, state := .exchangingMsgs }

/-- The stages of a pairing with one call that has a descriptor. -/
inductive PairingThreads.Stage : PairingThreads κ ο → Prop
  | fresh {calls : List (StartCall κ ο)} {returns : List (StartReturn κ ο)}
      (hcalls : (calls.filter (0 ≤ ·.fd)).length ≤ 1)
      (hreturns : ∀ r ∈ returns, r.value = false ∧ r.Unchanged) :
      Stage ⟨{}, calls, none, returns⟩
  | starting (place : StartPlace) {calls : List (StartCall κ ο)}
      {returns : List (StartReturn κ ο)} {call : StartCall κ ο} (hcalls : ∀ c ∈ calls, c.fd < 0)
      (hreturns : ∀ r ∈ returns, r.value = false ∧ r.Unchanged) :
      Stage ⟨call.conn place, calls, some (place, ⟨call, {}, []⟩), returns⟩
  | started {calls : List (StartCall κ ο)} {returns : List (StartReturn κ ο)}
      {conn : PairingConnection κ ο} {r : StartReturn κ ο} (hcalls : ∀ c ∈ calls, c.fd < 0)
      (hreturns : ∀ r ∈ returns, r.Unchanged) (hr : returns.filter (·.value) = [r])
      (hworks : conn.Works r.call) : Stage ⟨conn, calls, none, returns⟩

/-! ### From one stage to the next -/

theorem PairingConnection.Works.work {c : PairingConnection κ ο} {call : StartCall κ ο}
    (h : c.Works call) (hrun : c.worker ≠ .returned) (o : PairingOutcome) :
    (c.work o).Works call ∧ (c.work o).left + 1 ≤ c.left := by
  obtain ⟨state, fd, cb, opaque_, tls, closed, worker, results⟩ := c
  obtain ⟨hfd, hcb, hopaque, hresults, hstate⟩ := h
  -- The cases are the places of the worker, and where it branches the outcomes.
  cases worker with
  | none | fatal => exact hstate.elim
  | returned => exact absurd rfl hrun
  | switch =>
    rcases hstate with hstate | hstate <;> dsimp only at hstate <;> subst hstate <;>
      exact ⟨⟨hfd, hcb, hopaque, hresults, rfl⟩, le_rfl⟩
  | setupTlsConnection =>
    dsimp only at hstate
    subst hstate
    cases o with
    | success => exact ⟨⟨hfd, hcb, hopaque, hresults, Or.inl rfl⟩, le_rfl⟩
    | writeFails | failure =>
      exact ⟨⟨hfd, hcb, hopaque, hresults, trivial⟩, (by decide : 2 + 1 ≤ 8)⟩
  | doExchangeMsgs =>
    cases o with
    | success => exact ⟨⟨hfd, hcb, hopaque, hresults, hstate⟩, le_rfl⟩
    | writeFails | failure =>
      exact ⟨⟨hfd, hcb, hopaque, hresults, trivial⟩, (by decide : 2 + 1 ≤ 6)⟩
  | exchanged => exact ⟨⟨hfd, hcb, hopaque, hresults, Or.inr rfl⟩, le_rfl⟩
  | doExchangePeerInfo => exact ⟨⟨hfd, hcb, hopaque, hresults, trivial⟩, le_rfl⟩
  | notifyResult paired =>
    obtain ⟨_, hresults⟩ := hresults
    exact ⟨⟨hfd, hcb, hopaque, ⟨paired, congrArg (· ++ _) hresults⟩, trivial⟩, le_rfl⟩
  | notified => exact ⟨⟨hfd, hcb, hopaque, hresults, trivial⟩, le_rfl⟩

namespace PairingThreads

variable {p : PairingThreads κ ο}

theorem filter_value_eq_nil {returns : List (StartReturn κ ο)}
    (h : ∀ r ∈ returns, r.value = false ∧ r.Unchanged) : returns.filter (·.value) = [] :=
  filter_eq_nil_iff.mpr fun r hr => by simp [(h r hr).1]

theorem Stage.step (h : p.Stage) {op : PairingOp} (hop : p.Enabled op) :
    (p.step op).Stage ∧ (p.step op).conn.left + (if op.isWork then 1 else 0) ≤ p.conn.left := by
  cases h with
  | @fresh calls returns hcalls hreturns =>
    cases op with
    | work o => exact absurd rfl hop.1
    | call =>
      cases calls with
      | nil => exact absurd rfl (hop.resolve_left fun hne => hne rfl)
      | cons c calls =>
        by_cases hfd : c.fd < 0
        · -- The call returns at once.
          rw [filter_cons_of_neg (by simpa using hfd)] at hcalls
          simp only [PairingThreads.step, call, if_pos hfd, ret]
          refine ⟨.fresh hcalls ?_, le_rfl⟩
          rw [forall_mem_append, forall_mem_singleton]
          exact ⟨hreturns, rfl, fun _ => rfl⟩
        · rw [filter_cons_of_pos (by simpa using hfd), length_cons] at hcalls
          have hnone := length_eq_zero_iff.mp (Nat.le_zero.mp (Nat.le_of_succ_le_succ hcalls))
          simp only [PairingThreads.step, call, if_neg hfd]
          refine ⟨.starting .fdSet (fun c' hc' => ?_) hreturns, le_rfl⟩
          simpa using filter_eq_nil_iff.mp hnone c' hc'
  | @starting place calls returns c hcalls hreturns =>
    cases op with
    | work o => cases place <;> exact absurd rfl hop.1
    | call =>
      cases place with
      | fdSet => exact ⟨.starting .exchanged hcalls hreturns, le_rfl⟩
      | exchanged =>
        simp only [PairingThreads.step, call, ret]
        have htrue : ∀ r : StartReturn κ ο, r.value = true →
            (returns ++ [r]).filter (·.value) = [r] := by
          intro r hr
          rw [filter_append, filter_value_eq_nil hreturns, filter_singleton, hr]
          rfl
        refine ⟨.started hcalls ?_ (htrue _ rfl) ⟨rfl, rfl, rfl, ⟨true, rfl⟩, rfl⟩, le_rfl⟩
        rw [forall_mem_append, forall_mem_singleton]
        exact ⟨fun r hr => (hreturns r hr).2, nofun⟩
  | @started calls returns conn r hcalls hreturns hr hworks =>
    cases op with
    | work o =>
      obtain ⟨hnext, hleft⟩ := hworks.work hop.2.1 o
      exact ⟨.started hcalls hreturns hr hnext, hleft⟩
    | call =>
      cases calls with
      | nil => exact absurd rfl (hop.resolve_left fun hne => hne rfl)
      | cons c calls =>
        have hfd := hcalls c mem_cons_self
        simp only [PairingThreads.step, call, if_pos hfd, ret]
        refine ⟨.started (fun c' hc' => hcalls c' (mem_cons_of_mem c hc')) ?_ ?_ hworks, le_rfl⟩
        · rw [forall_mem_append, forall_mem_singleton]
          exact ⟨hreturns, fun _ => rfl⟩
        · rw [filter_append, hr]
          rfl

theorem Stage.undisturbed (h : p.Stage) : p.Undisturbed := by
  cases h with
  | fresh hcalls hreturns =>
    refine ⟨fun r hr => (hreturns r hr).2, ?_, rfl, nofun, nofun⟩
    rw [filter_value_eq_nil hreturns]
    exact Nat.zero_le 1
  | @starting place calls returns c hcalls hreturns =>
    have hnone : (returns.filter (·.value)).length ≤ 1 := by
      rw [filter_value_eq_nil hreturns]
      exact Nat.zero_le 1
    cases place <;> exact ⟨fun r hr => (hreturns r hr).2, hnone, rfl, nofun, nofun⟩
  | @started calls returns conn r hcalls hreturns hr hworks =>
    obtain ⟨hfd, hcb, hopaque, ⟨paired, hresults⟩, hstate⟩ := hworks
    have hmem := mem_filter.mp (hr ▸ mem_singleton_self r)
    refine ⟨hreturns, by rw [hr]; exact le_rfl, ?_, fun n hn => ?_, fun hfatal => ?_⟩
    · rw [hresults, apply_ite List.length]
      rfl
    · -- There is only one result, of the call that returned true.
      rw [hresults] at hn
      split_ifs at hn
      · rw [mem_singleton.mp hn]
        exact ⟨r, hmem.1, hmem.2, hcb, hfd, hopaque⟩
      · exact nomatch hn
    · rw [hfatal] at hstate
      exact hstate

/-- Every step of the worker is one less to go. -/
theorem Stage.run {ops : List PairingOp} (h : p.Stage) (hlegal : machine.Legal p ops) :
    (machine.run p ops).Stage ∧
      (machine.run p ops).conn.left + ops.countP PairingOp.isWork ≤ p.conn.left := by
  induction ops generalizing p with
  | nil => exact ⟨h, le_rfl⟩
  | cons op ops ih =>
    obtain ⟨hstage, hleft⟩ := h.step hlegal.1
    obtain ⟨hrun, hcount⟩ := ih hstage hlegal.2
    refine ⟨hrun, ?_⟩
    rw [Machine.run_cons, countP_cons, ← Nat.add_assoc]
    exact (Nat.add_le_add_right hcount _).trans hleft

end PairingThreads

/-- **A second start has no effect**, however the two threads take turns, if at most one of the
calls has a descriptor. The worker has returned after eight steps at most. -/
theorem pairing_undisturbed (calls : List (StartCall κ ο)) (ops : List PairingOp)
    (hone : (calls.filter (0 ≤ ·.fd)).length ≤ 1)
    (hlegal : PairingThreads.machine.Legal { calls } ops) :
    (PairingThreads.machine.run { calls } ops).Undisturbed ∧
      ops.countP PairingOp.isWork ≤ 8 := by
  have hfresh := PairingThreads.Stage.fresh hone fun _ hr => absurd hr not_mem_nil
  obtain ⟨hstage, hcount⟩ := hfresh.run hlegal
  exact ⟨hstage.undisturbed, (Nat.le_add_left _ _).trans hcount⟩

instance decidablePairing (p : PairingThreads κ ο) (op : PairingOp) :
    Decidable (PairingThreads.machine.enabled p op) := by
  cases op <;> dsimp only [PairingThreads.machine, PairingThreads.Enabled] <;> infer_instance

/-- A call without a descriptor comes before the one that counts, and another after it. -/
theorem pairing_undisturbed_twice :
    (PairingThreads.machine.run { calls := [⟨-1, 1, 1⟩, ⟨5, 2, 2⟩, ⟨-1, 3, 3⟩] }
      [.call, .call, .call, .call, .work .success, .work .success, .call, .work .writeFails,
        .work .success, .work .success] : PairingThreads ℕ ℕ).Undisturbed :=
  (pairing_undisturbed _ _ (by decide) (by decide)).1

/-- A second call with a descriptor, and then a result. -/
def secondStart : PairingThreads ℕ ℕ :=
  PairingThreads.machine.run { calls := [⟨5, 1, 1⟩, ⟨6, 2, 2⟩] }
    [.call, .call, .call, .call, .call, .work .failure, .work .success]

/-- **A second start with a descriptor** returns false, and its descriptor is in the place of that
of the pairing, which is closed; the callback of the first call is told about it. -/
theorem pairing_disturbed :
    (∃ r ∈ secondStart.returns, r.value = false ∧ r.before.fd = 5 ∧ r.since = [] ∧
      r.after.fd = 6 ∧ r.after.closed = [5]) ∧
      secondStart.conn.results = [⟨some 1, 6, some 1, false⟩] ∧ ¬secondStart.Undisturbed := by
  refine ⟨by decide, by decide, fun h => ?_⟩
  obtain ⟨r, hr, hvalue, -, hfd, -⟩ := h.given ⟨some 1, 6, some 1, false⟩ (by decide)
  have hone : ∀ r ∈ secondStart.returns, r.value = true → 6 ≠ r.call.fd := by decide
  exact hone r hr hvalue hfd

end AdbBridge
