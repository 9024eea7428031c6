import AdbBridge.Usb.Live

/-!
# Handles and interfaces

A device handle is opened by `OpenDevice`, which claims the interface, or it comes with the
connection from `register_device`. In the second case nobody claims the interface, yet transfers
are submitted and the interface is released in the end. A connection from `process_device` has no
handle, and asks for a serial number all the same.

`claims` is what has been claimed and not released after a list of calls, and `Disciplined` says
that every call gets a handle, that transfers go to a handle with a claim, and that what is
released was claimed. Since a handle that comes with the connection is never claimed, and is only
given up by releasing the interface, no run from the creation of a connection keeps to that for
long: `Spares` says how long. But from a state in which the connection has no handle, or one with
a claim (`Held`), every run does, as long as it does not use a handle that is not there
(`Handled`).
-/

namespace AdbBridge.Usb

open List Option

/-! ### What is claimed -/

/-- What a call does to the claims. -/
def Call.claim (claims : List (ℕ × ℕ)) : Call → List (ℕ × ℕ)
  | .claimInterface (some handle) num true => (handle, num) :: claims
  | .releaseInterface (some handle) num => claims.filter (· ≠ (handle, num))
  | _ => claims

/-- What has been claimed after some calls: handles, with the numbers of the interfaces. -/
def claims (calls : List Call) : List (ℕ × ℕ) := calls.foldl Call.claim []

theorem claims_concat (calls : List Call) (k : Call) :
    claims (calls ++ [k]) = k.claim (claims calls) := by
  rw [claims, foldl_append, ← claims]
  rfl

/-- A call is in order, with the claims there are. -/
def Call.Proper (claims : List (ℕ × ℕ)) : Call → Prop
  | .getStringDescriptor handle | .clearHalt handle | .getBosDescriptor handle |
    .claimInterface handle _ _ | .resetDevice handle => handle ≠ none
  | .releaseInterface handle num => ∃ claim ∈ claims, some claim.1 = handle ∧ claim.2 = num
  | .submitTransfer handle => ∃ claim ∈ claims, some claim.1 = handle

instance decidableProper (claims : List (ℕ × ℕ)) (k : Call) : Decidable (k.Proper claims) := by
  cases k <;> dsimp only [Call.Proper] <;> infer_instance

/-- Calls that are in order, each after those before it. -/
def Disciplined : List Call → List Call → Prop
  | _, [] => True
  | before, k :: ks => k.Proper (claims before) ∧ Disciplined (before ++ [k]) ks

instance decidableDisciplined : ∀ before calls, Decidable (Disciplined before calls)
  | _, [] => isTrue trivial
  | before, k :: ks =>
    have := decidableDisciplined (before ++ [k]) ks
    inferInstanceAs (Decidable (k.Proper (claims before) ∧ Disciplined (before ++ [k]) ks))

theorem Disciplined.append {before ks ks' : List Call} (h : Disciplined before ks)
    (h' : Disciplined (before ++ ks) ks') : Disciplined before (ks ++ ks') := by
  induction ks generalizing before with
  | nil => simpa using h'
  | cons k ks ih => exact ⟨h.1, ih h.2 (by simpa using h')⟩

/-! ### What is done with a handle -/

/-- A call on a handle, for which the handle has to be there. -/
def Call.On (handle : Option ℕ) : Call → Prop
  | .clearHalt handle' | .getBosDescriptor handle' | .resetDevice handle' |
    .submitTransfer handle' => handle' = handle
  | .getStringDescriptor _ | .claimInterface .. | .releaseInterface .. => False

namespace LibusbConnection

/-- What a connection does with handles, step by step. A handle that is opened is claimed, or it
is closed. -/
inductive Account.Use : Account → Account → Prop
  | call {a : Account} {k : Call} (hk : k.On a.handle) (hsome : a.handle ≠ none) :
    Use a (a.calling [k])
  | claim {a : Account} (handle num : ℕ) (ok : Bool) :
    Use a { (a.calling [.getStringDescriptor (some handle)]).calling
        [.claimInterface (some handle) num ok] with
      handle := if ok then some handle else none, num := num }
  | release {a : Account} (hsome : a.handle ≠ none) :
    Use a { a.calling [.releaseInterface a.handle a.num] with handle := none }
  | reply {a : Account} (replies : List Reply) : Use a { a with replies := replies }

/-- The interface is claimed on the handle, if there is one. -/
def Account.Held (a : Account) : Prop :=
  ∀ handle, a.handle = some handle → (handle, a.num) ∈ claims a.calls

/-- **Claiming is kept up**: with a handle that is claimed, or none, all that is done with handles
is in order, and leads to such a handle again. -/
theorem Account.Held.use {a a' : Account} (h : a.Held) (hu : a.Use a') :
    (∃ new, a'.calls = a.calls ++ new ∧ Disciplined a.calls new) ∧ a'.Held := by
  cases hu with
  | @call k hk hsome =>
    obtain ⟨handle, hhandle⟩ := ne_none_iff_exists'.mp hsome
    refine ⟨⟨[k], rfl, ?_, trivial⟩, fun handle' h' => ?_⟩
    · cases k with
      | clearHalt | getBosDescriptor | resetDevice => exact hk.trans_ne hsome
      | submitTransfer => exact ⟨_, h handle hhandle, hhandle.symm.trans hk.symm⟩
      | getStringDescriptor | claimInterface | releaseInterface => exact hk.elim
    · change _ ∈ claims (a.calls ++ [k])
      rw [claims_concat]
      cases k <;> first | exact h handle' h' | exact hk.elim
  | claim handle num ok =>
    -- The handle is kept only if the interface was claimed on it, which is the last call.
    refine ⟨⟨_, append_assoc _ _ _, some_ne_none _, some_ne_none _, trivial⟩,
      fun handle' h' => ?_⟩
    cases ok with
    | false => exact nomatch h'
    | true =>
      obtain rfl : handle = handle' := some.inj h'
      change _ ∈ claims (_ ++ [Call.claimInterface _ _ _])
      rw [claims_concat]
      exact mem_cons_self
  | release hsome =>
    obtain ⟨handle, hhandle⟩ := ne_none_iff_exists'.mp hsome
    exact ⟨⟨_, rfl, ⟨_, h handle hhandle, hhandle.symm, rfl⟩, trivial⟩, nofun⟩
  | reply => exact ⟨⟨[], (append_nil _).symm, trivial⟩, h⟩

/-- A number of such things. -/
def Account.Uses : Account → Account → Prop := Relation.ReflTransGen Account.Use

theorem Account.Uses.of_eq {a a' : Account} (h : a' = a) : a.Uses a' := h ▸ .refl

theorem Account.Uses.of_use {a a' : Account} (h : a.Use a') : a.Uses a' := .single h

theorem Account.Held.uses {a a' : Account} (h : a.Held) (hu : a.Uses a') :
    (∃ new, a'.calls = a.calls ++ new ∧ Disciplined a.calls new) ∧ a'.Held := by
  induction hu with
  | refl => exact ⟨⟨[], (append_nil _).symm, trivial⟩, h⟩
  | tail _ hlast ih =>
    obtain ⟨⟨new, hnew, hd⟩, hheld⟩ := ih
    obtain ⟨⟨new', hnew', hd'⟩, hheld'⟩ := hheld.use hlast
    refine ⟨⟨new ++ new', ?_, hd.append (hnew ▸ hd')⟩, hheld'⟩
    rw [hnew', hnew, append_assoc]

variable {c c' : LibusbConnection}

theorem uses_clearHalts (hsome : c.deviceHandle ≠ none) (halts : Bool × Bool) :
    c.account.Uses (c.clearHalts halts).2.account := by
  have hclear (a : Account) (h : a.handle ≠ none) : a.Use (a.calling [.clearHalt a.handle]) :=
    .call rfl h
  have hfirst := Account.Uses.of_use (hclear c.account hsome)
  have hsecond := hfirst.tail (hclear _ hsome)
  rw [clearHalts]
  split_ifs
  · exact hfirst.tail (.release hsome)
  · exact hsecond.tail (.release hsome)
  · exact hsecond.tail (.call rfl hsome)

/-- A handle that is opened and claimed is used properly. -/
theorem uses_initHandle (hnone : c.deviceHandle = none) (o : Opening) :
    c.account.Uses (c.initHandle o).2.account ∧
      ((c.initHandle o).1 = true → (c.initHandle o).2.deviceHandle ≠ none) := by
  have hclosed : ({ c with deviceHandle := none } : LibusbConnection).account = c.account := by
    rw [account, account, hnone]
  rcases o with ⟨_ | _, _ | _, _ | interface, _ | _, halts⟩
  case true.true.some.false => exact ⟨.of_use (.claim _ _ false), nofun⟩
  case true.true.some.true => exact ⟨.of_use (.claim _ _ true), fun _ => some_ne_none _⟩
  all_goals first | exact ⟨.refl, nofun⟩ | exact ⟨.of_eq hclosed, nofun⟩

theorem uses_openDevice (c : LibusbConnection) (o : Opening) :
    c.account.Uses (c.openDevice o).2.account := by
  rw [openDevice]
  split_ifs with hsome
  · exact uses_clearHalts (isSome_iff_ne_none.mp hsome) _
  · obtain ⟨hinit, hhandle⟩ := uses_initHandle (by simpa using hsome) o
    split
    · next c₁ hc₁ =>
      rw [hc₁] at hinit hhandle
      exact hinit.trans (uses_clearHalts (hhandle rfl) _)
    · next c₁ hc₁ =>
      rw [hc₁] at hinit
      exact hinit

/-- Writing submits its transfers on the handle there is. -/
theorem uses_write (payloadLength : ℕ) (header payload zero : Bool)
    (hhandle : c.terminated = true ∨ c.detached = true ∨ c.deviceHandle ≠ none) :
    c.account.Uses (c.write payloadLength header payload zero).account := by
  have hsubmit {c : LibusbConnection} (hsome : c.deviceHandle ≠ none) (taken : Bool) :
      c.account.Use (c.submitWrite taken).account ∧ (c.submitWrite taken).deviceHandle ≠ none := by
    have heq := account_submitWrite c taken
    exact ⟨heq ▸ .call rfl hsome, (congrArg Account.handle heq).trans_ne hsome⟩
  rw [write]
  split_ifs with hterm hdetached hlength hzero
  · exact .of_use (.reply _)
  · exact .of_use (.reply _)
  all_goals
    obtain ⟨h₁, hsome₁⟩ :=
      hsubmit ((hhandle.resolve_left hterm).resolve_left hdetached) header
  · exact (Account.Uses.of_use h₁).tail (.reply _)
  all_goals obtain ⟨h₂, hsome₂⟩ := hsubmit hsome₁ payload
  · exact (((Account.Uses.of_use h₁).tail h₂).tail (hsubmit hsome₂ zero).1).tail (.reply _)
  · exact ((Account.Uses.of_use h₁).tail h₂).tail (.reply _)

/-- The steps that use no handle that is not there. -/
def Handled (c : LibusbConnection) : Op → Prop
  | .reset _ => c.deviceHandle ≠ none
  | .write .. => c.terminated = true ∨ c.detached = true ∨ c.deviceHandle ≠ none
  | .readCb _ status _ _ =>
    c.terminated = true ∨ status ≠ .completed ∨ c.deviceHandle ≠ none
  | _ => True

instance decidableHandled (c : LibusbConnection) (op : Op) : Decidable (c.Handled op) := by
  induction op using Op.casesOn <;> dsimp only [Handled] <;> infer_instance

/-- **One step.** -/
theorem uses_step {op : Op} (hop : c.Handled op) : c.account.Uses (c.step op).account := by
  cases op with
  | start o | attach o =>
    rw [step, account_attach]
    exact uses_openDevice { c with terminated := false, detached := false } o
  -- `CloseDevice` only starts here: the handle is released in the section of its own below.
  | detach | stop | destroy => exact .of_eq (account_closeDevice _ _)
  | reset ok =>
    have hreset : c.account.Uses (c.call (.resetDevice c.deviceHandle)).account :=
      .of_use (.call rfl hop)
    rw [step, reset]
    split_ifs
    · rwa [account_closeDevice]
    · exact hreset
  | startImpl caller taken =>
    rw [step, startImpl]
    split_ifs with hnone
    · exact .of_eq (account_closeDevice c caller)
    · rcases account_submitRead _ false headerSize taken with heq | heq <;> rw [heq]
      · exact .refl
      · exact .of_use (.call rfl hnone)
  | cancelWrites | awaitWrites | awaitReads => exact .refl
  | cancelReads caller header payload =>
    exact .of_eq ((account_cancelReadTransfer _ true payload).trans
      (account_cancelReadTransfer c false header))
  | release caller =>
    rw [step, releaseHandle, account_closed]
    split_ifs with hsome
    · exact .of_use (.release (isSome_iff_ne_none.mp hsome))
    · exact .refl
  | readCb t status data taken =>
    rcases account_readCb c t status data taken with heq | ⟨hterm, hstatus, heq⟩
    · exact .of_eq heq
    · rw [step, heq]
      exact .of_use (.call rfl ((hop.resolve_left hterm).resolve_left (not_not.mpr hstatus)))
  | write payloadLength header payload zero => exact uses_write _ _ _ _ hop
  | writeCb id status =>
    rw [step, writeCb]
    split_ifs
    · exact .of_eq (account_onError _ _)
    · exact .refl

theorem uses_run {ops : List Op} (hops : connection.Meets Handled c ops) :
    c.account.Uses (connection.run c ops).account := by
  induction ops generalizing c with
  | nil => exact .refl
  | cons op ops ih => exact (uses_step hops.1).trans (ih hops.2)

end LibusbConnection

/-! ### Before anything is claimed -/

/-- An interface is claimed. -/
def Call.isClaim : Call → Bool
  | .claimInterface .. => true
  | _ => false

/-- As long as nothing is claimed, calls are in order if and only if they need no claim. -/
theorem disciplined_iff_forall {before ks : List Call} (hbefore : claims before = [])
    (hks : ∀ k ∈ ks, k.isClaim = false) : Disciplined before ks ↔ ∀ k ∈ ks, k.Proper [] := by
  induction ks generalizing before with
  | nil => simp [Disciplined]
  | cons k ks ih =>
    rw [forall_mem_cons] at hks ⊢
    have hnext : claims (before ++ [k]) = [] := by
      rw [claims_concat, hbefore]
      cases k with
      | claimInterface => exact nomatch hks.1
      | releaseInterface handle num => cases handle <;> rfl
      | _ => rfl
    rw [Disciplined, hbefore, ih hnext hks.2]

/-- A connection that is being destroyed, or has been. -/
def Phase.isDestroying : Phase → Bool
  | .cancelWrites .destroy | .awaitWrites .destroy | .cancelReads .destroy | .awaitReads .destroy |
    .release .destroy | .gone => true
  | _ => false

namespace LibusbConnection

variable {c c' : LibusbConnection} {ok : Prop} {op : Op}

/-- Nothing has been claimed or submitted, and a connection without handle is being destroyed. -/
structure Early (c : LibusbConnection) : Prop where
  calls : ∀ k ∈ c.calls, k.isClaim = false ∧ k.Proper []
  header : c.headerRead = {}
  inflight : c.inflight = []
  handle : c.deviceHandle = none → c.terminated = true ∧ c.phase.isDestroying = true

/-- The steps that submit nothing and do not give up a handle. -/
def Spares (c : LibusbConnection) : Op → Prop
  | .start o | .attach o => o.haltCleared = (true, true)
  | .startImpl .. => False
  | .release _ => c.deviceHandle = none
  | .write .. => c.terminated = true ∨ c.detached = true
  | _ => True

/-- A connection that calls can be made on has a handle. -/
theorem Early.exists_handle (h : c.Early) (hphase : c.phase.isDestroying = false) :
    ∃ handle, c.deviceHandle = some handle := by
  refine ne_none_iff_exists'.mp fun hnone => ?_
  exact absurd (h.handle hnone).2 (by simp [hphase])

/-- Nothing is claimed between two states, and the calls are in order exactly under a
condition. -/
def Makes (c c' : LibusbConnection) (ok : Prop) : Prop :=
  ∃ ks, c'.calls = c.calls ++ ks ∧ (∀ k ∈ ks, k.isClaim = false) ∧ ((∀ k ∈ ks, k.Proper []) ↔ ok)

theorem Makes.of_eq (heq : c'.calls = c.calls) (hok : ok) : c.Makes c' ok :=
  ⟨[], by rw [heq, append_nil], forall_mem_nil _, iff_of_true (forall_mem_nil _) hok⟩

theorem Makes.of_submits {n : ℕ}
    (heq : c'.calls = c.calls ++ List.replicate (n + 1) (.submitTransfer c.deviceHandle))
    (hok : ¬ok) : c.Makes c' ok := by
  refine ⟨_, heq, fun k hk => eq_of_mem_replicate hk ▸ rfl, iff_of_false (fun h => ?_) hok⟩
  simpa [Call.Proper] using h (.submitTransfer c.deviceHandle) mem_cons_self

/-- A halt that cannot be cleared gives up a handle without claim. -/
theorem Early.makes_attach (h : c.Early) (hphase : c.phase.isDestroying = false) (caller : Caller)
    (o : Opening) : c.Makes (c.attach caller o) (o.haltCleared = (true, true)) := by
  obtain ⟨handle, hhandle⟩ := h.exists_handle hphase
  have hcalls := congrArg Account.calls (account_attach c caller o)
  rcases o with ⟨opened, descriptor, interface, claimed, ⟨_ | _, _ | _⟩⟩ <;>
    simp only [account, openDevice, hhandle, clearHalts, call] at hcalls
  case true.true =>
    exact ⟨[.clearHalt (some handle), .clearHalt (some handle), .getBosDescriptor (some handle)],
      by simp [hcalls], by simp [Call.isClaim], by simp [Call.Proper]⟩
  case true.false =>
    exact ⟨[.clearHalt (some handle), .clearHalt (some handle),
      .releaseInterface (some handle) c.interface.num], by simp [hcalls], by simp [Call.isClaim],
      by simp [Call.Proper]⟩
  all_goals
    exact ⟨[.clearHalt (some handle), .releaseInterface (some handle) c.interface.num],
      by simp [hcalls], by simp [Call.isClaim], by simp [Call.Proper]⟩

/-- Before a claim, writing is in order only if it submits nothing. -/
theorem makes_write (c : LibusbConnection) (payloadLength : ℕ) (header payload zero : Bool) :
    c.Makes (c.write payloadLength header payload zero)
      (c.terminated = true ∨ c.detached = true) := by
  have hwrite (c : LibusbConnection) (taken : Bool) :
      (c.submitWrite taken).calls = c.calls ++ [.submitTransfer c.deviceHandle] ∧
        (c.submitWrite taken).deviceHandle = c.deviceHandle :=
    ⟨congrArg Account.calls (account_submitWrite c taken),
      congrArg Account.handle (account_submitWrite c taken)⟩
  rw [write]
  split_ifs with hterm hdetached hlength hzero
  · exact .of_eq rfl (.inl hterm)
  · exact .of_eq rfl (.inr hdetached)
  all_goals have hout := not_or.mpr ⟨hterm, hdetached⟩
  · exact .of_submits (n := 0) (hwrite c header).1 hout
  · exact .of_submits (n := 2) (by simp [hwrite, List.replicate]) hout
  · exact .of_submits (n := 1) (by simp [hwrite, List.replicate]) hout

/-- **What a step calls** before anything is claimed is in order if and only if the step spares
the handle. -/
theorem Early.makes_step (h : c.Early) (hop : c.Enabled op) :
    c.Makes (c.step op) (c.Spares op) := by
  have hsame {c' : LibusbConnection} {ok : Prop} (heq : c'.account = c.account) (hok : ok) :
      c.Makes c' ok := .of_eq (congrArg Account.calls heq) hok
  have hidle (hop : c.phase = .idle) : c.phase.isDestroying = false := by rw [hop]; rfl
  cases op with
  | start o => exact h.makes_attach (hidle hop) .start o
  | attach o => exact h.makes_attach (hidle hop) .attach o
  | detach | stop | destroy => exact hsame (account_closeDevice _ _) trivial
  | reset ok =>
    obtain ⟨handle, hhandle⟩ := h.exists_handle (hidle hop)
    refine ⟨[.resetDevice (some handle)], ?_, by simp [Call.isClaim], by simp [Call.Proper, Spares]⟩
    rw [step, reset, hhandle]
    split_ifs
    · exact congrArg Account.calls (account_closeDevice _ .stop)
    · rfl
  | startImpl caller taken =>
    obtain ⟨handle, hhandle⟩ := h.exists_handle (by rw [hop]; rfl)
    refine .of_submits (n := 0) ?_ id
    rw [step, startImpl, if_neg (by simp [hhandle]),
      submitRead_eq _ (b := Block.allocate headerSize) ?_ rfl]
    · rfl
    · simp [createRead, readBlock, setReadBlock, h.header, Block.resize]
  | cancelWrites | awaitWrites | awaitReads => exact .of_eq rfl trivial
  | cancelReads caller header payload =>
    exact hsame ((account_cancelReadTransfer _ true payload).trans
      (account_cancelReadTransfer c false header)) trivial
  | release caller =>
    have hcalls := congrArg Account.calls (account_closed
      (if c.deviceHandle.isSome then
        { c.call (.releaseInterface c.deviceHandle c.interface.num) with deviceHandle := none }
      else c) caller)
    by_cases hnone : c.deviceHandle = none
    · exact .of_eq (hcalls.trans (by simp [account, hnone])) hnone
    · refine ⟨[.releaseInterface c.deviceHandle c.interface.num], hcalls.trans ?_,
        by simp [Call.isClaim], by simp [Call.Proper, Spares, hnone]⟩
      rw [if_pos (isSome_iff_ne_none.mpr hnone)]
      rfl
  | readCb t status data taken =>
    -- Nothing has been submitted that could be called back.
    have hmem : t ∈ c.inflight := hop
    rw [h.inflight] at hmem
    exact absurd hmem not_mem_nil
  | write payloadLength header payload zero => exact makes_write c payloadLength header payload zero
  | writeCb id status =>
    rw [step, writeCb]
    split_ifs
    · exact hsame (account_onError _ _) trivial
    · exact .of_eq rfl trivial

theorem closeDevice_same (c : LibusbConnection) (caller : Caller) :
    SameReads c (c.closeDevice caller) := by
  rw [closeDevice]
  split_ifs
  · exact (closed_same c caller).1
  · exact ⟨rfl, rfl, rfl, rfl, rfl⟩

/-- **The steps that spare the handle** leave everything as it was. -/
theorem Early.step (h : c.Early) (hop : c.Enabled op) (hspares : c.Spares op) :
    (c.step op).Early := by
  obtain ⟨ks, hcalls, hclaim, hproper⟩ := h.makes_step hop
  have hkeep (hheader : (c.step op).headerRead = c.headerRead)
      (hinflight : (c.step op).inflight = c.inflight) (hhandle : (c.step op).deviceHandle = none →
        (c.step op).terminated = true ∧ (c.step op).phase.isDestroying = true) :
      (c.step op).Early := by
    refine ⟨?_, hheader.trans h.header, hinflight.trans h.inflight, hhandle⟩
    rw [hcalls, forall_mem_append]
    exact ⟨h.calls, fun k hk => ⟨hclaim k hk, hproper.mpr hspares k hk⟩⟩
  have hidle (hop : c.phase = .idle) : ∃ handle, c.deviceHandle = some handle :=
    h.exists_handle (by rw [hop]; rfl)
  have hclose {d : LibusbConnection} {caller : Caller} (hsame : SameReads c d)
      (hstep : c.step op = d.closeDevice caller) (heq : d.deviceHandle = c.deviceHandle)
      (hop : c.phase = .idle) : (c.step op).Early := by
    obtain ⟨handle, hhandle⟩ := hidle hop
    have hreads := closeDevice_same d caller
    refine hkeep ?_ ?_ fun hnone => ?_ <;> rw [hstep] at *
    · exact hreads.header.trans hsame.header
    · exact hreads.inflight.trans hsame.inflight
    · have hsome := (congrArg Account.handle (account_closeDevice d caller)).trans heq
      exact absurd (hsome.symm.trans hnone) (by simp [hhandle])
  -- A section of `CloseDevice` goes on to the next one for the same caller.
  have hnext {p q : Caller → Phase} {caller : Caller} (hp : c.phase = p caller)
      (hpq : (p caller).isDestroying = (q caller).isDestroying) (hnone : c.deviceHandle = none) :
      c.terminated = true ∧ (q caller).isDestroying = true :=
    ⟨(h.handle hnone).1, hpq ▸ hp ▸ (h.handle hnone).2⟩
  cases op with
  | start o | attach o =>
    obtain ⟨handle, hhandle⟩ := hidle hop
    have ho : o.haltCleared = (true, true) := hspares
    refine hkeep ?_ ?_ ?_ <;>
      simp [LibusbConnection.step, LibusbConnection.attach, openDevice, hhandle, ho, clearHalts,
        call]
  | detach => exact hclose (d := { c with detached := true }) ⟨rfl, rfl, rfl, rfl, rfl⟩ rfl rfl hop
  | stop | destroy => exact hclose (d := c) ⟨rfl, rfl, rfl, rfl, rfl⟩ rfl rfl hop
  | reset ok =>
    cases ok with
    | false => exact hkeep rfl rfl h.handle
    | true => exact hclose (d := c.call _) ⟨rfl, rfl, rfl, rfl, rfl⟩ rfl rfl hop
  | startImpl caller taken => exact hspares.elim
  | cancelWrites caller cancelled =>
    exact hkeep rfl rfl (hnext (p := .cancelWrites) hop (by cases caller <;> rfl))
  | awaitWrites caller =>
    exact hkeep rfl rfl (hnext (p := .awaitWrites) hop.1 (by cases caller <;> rfl))
  | cancelReads caller header payload =>
    have hheader : c.cancelReadTransfer false header = c := by
      rw [cancelReadTransfer, readBlock, h.header]
      rfl
    have hdestroying := hnext (p := .cancelReads) (q := .awaitReads) hop (by cases caller <;> rfl)
    rcases cancelReadTransfer_eq c true payload with heq | heq
    all_goals refine hkeep ?_ ?_ ?_ <;> rw [LibusbConnection.step, hheader, heq]
    · exact hdestroying
    · rfl
    · rfl
    · exact hdestroying
  | awaitReads caller =>
    exact hkeep rfl rfl (hnext (p := .awaitReads) hop.1 (by cases caller <;> rfl))
  | release caller =>
    -- Without a handle the caller is the destructor, and the connection is gone afterwards.
    have hphase := (h.handle hspares).2
    rw [show c.phase = .release caller from hop] at hphase
    obtain rfl : caller = .destroy := by cases caller <;> simp_all [Phase.isDestroying]
    have hnone : ¬c.deviceHandle.isSome := by simp [show c.deviceHandle = none from hspares]
    refine hkeep ?_ ?_ ?_ <;>
      rw [LibusbConnection.step, releaseHandle, if_neg hnone, closed, onError_eq]
    exact fun hnone => ⟨(h.handle hnone).1, rfl⟩
  | readCb t status data taken =>
    have hmem : t ∈ c.inflight := hop
    rw [h.inflight] at hmem
    exact absurd hmem not_mem_nil
  | write payloadLength header payload zero =>
    obtain ⟨_, _, _, _, _, heq⟩ := write_eq c payloadLength header payload zero
    refine hkeep ?_ ?_ ?_ <;> rw [LibusbConnection.step, heq]
    exact h.handle
  | writeCb id status =>
    have heq : ∃ error, c.step (.writeCb id status) = { c with
        inflightWrites := c.inflightWrites.erase id, writes := c.writes.erase id,
        error := error } := by
      rw [LibusbConnection.step, writeCb, onError_eq]
      split_ifs <;> exact ⟨_, rfl⟩
    obtain ⟨_, heq⟩ := heq
    refine hkeep ?_ ?_ ?_ <;> rw [heq]
    exact h.handle

/-- **A run without claims** is in order exactly as long as its steps spare the handle. -/
theorem Early.run_iff (h : c.Early) {ops : List Op} (hl : connection.Legal c ops) :
    (∀ before, before <+: ops → Disciplined [] (connection.run c before).calls) ↔
      connection.Meets Spares c ops := by
  have hcalls {c : LibusbConnection} (hc : ∀ k ∈ c.calls, k.isClaim = false) :
      Disciplined [] c.calls ↔ ∀ k ∈ c.calls, k.Proper [] := disciplined_iff_forall rfl hc
  refine Machine.forall_prefix_iff_of_inv (P := fun c => Disciplined [] c.calls) (fun c h => ?_)
    (fun c op h hop => ?_) (fun c op h hop => h.step hop.2) h hl
  · exact (hcalls fun k hk => (h.calls k hk).1).mpr fun k hk => (h.calls k hk).2
  · obtain ⟨ks, heq, hclaim, hproper⟩ := h.makes_step hop.2
    change Disciplined [] (c.step op).calls ↔ _
    rw [hcalls, ← hproper, heq, forall_mem_append]
    · exact and_iff_right fun k hk => (h.calls k hk).2
    · rw [heq, forall_mem_append]
      exact ⟨fun k hk => (h.calls k hk).1, hclaim⟩

theorem early_create {handle : Option ℕ} {k : Creation}
    (hk : handle ≠ none ∨ k.descriptor = false ∨ k.interface = none) : (create handle k).Early := by
  rcases k with ⟨_ | _, _ | interface, owned⟩
  case true.some =>
    have hsome : handle ≠ none := by simpa using hk
    have hcalls : ∀ k ∈ [Call.getStringDescriptor handle], k.isClaim = false ∧ k.Proper [] :=
      forall_mem_singleton.mpr ⟨rfl, hsome⟩
    cases owned <;> exact ⟨hcalls, rfl, rfl, fun hnone => absurd hnone hsome⟩
  all_goals exact ⟨forall_mem_nil _, rfl, rfl, fun _ => ⟨rfl, rfl⟩⟩

end LibusbConnection

/-- A connection that `process_device` has made. -/
def unopened : LibusbConnection := LibusbConnection.create none ⟨true, some {}, true⟩

/-- `Start`, `Detach` and what comes with it. -/
def startAndDetach : List Op :=
  [.start goodOpening, .startImpl .start true, .detach, .cancelWrites .detach [],
    .awaitWrites .detach, .cancelReads .detach true true, .readCb ⟨0, false, 24⟩ .cancelled [] true,
    .awaitReads .detach, .release .detach]

end AdbBridge.Usb
