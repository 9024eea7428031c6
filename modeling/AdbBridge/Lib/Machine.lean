import Mathlib

/-!
# Machines that take inputs, and their runs

A `Machine` has states, inputs, a set of initial states, a guard that says which
inputs a state admits, and a total step function. Everything a program does over
time is phrased on it in one of two ways:

* `Machine.Reach` – the states some run reaches, with `Machine.Reach.inv`, the
  rule that an invariant which holds initially and is kept by every admitted step
  holds of every reachable state;
* `Machine.Legal` and `Machine.run` – a run as the list of its inputs, with
  `Machine.forall_prefix_iff`, the rule that turns a step-by-step equivalence into
  an equivalence about whole runs.

`Machine.Steps` relates two states when inputs the machine admits lead from one to the
other. It is how one machine is built on another: where every step of a machine is
made of steps of a second one, what the second keeps the first keeps as well.

`Machine.restrict` strengthens the guard. It is how a theorem speaks of the runs
whose steps all meet a condition: they are the runs of the restricted machine.
-/

/-- A machine: initial states, a guard on inputs, and a step function. -/
structure Machine (σ ι : Type*) where
  /-- The states a run may start from. -/
  init : σ → Prop
  /-- The inputs a state admits. -/
  enabled : σ → ι → Prop
  /-- What an input does to a state. -/
  step : σ → ι → σ

namespace Machine

variable {σ ι : Type*} (M : Machine σ ι)

/-! ### Reachable states -/

/-- The states reached by the runs of a machine. -/
inductive Reach : σ → Prop
  /-- A run starts in an initial state. -/
  | init {s : σ} (h : M.init s) : Reach s
  /-- A run goes on by any admitted input. -/
  | step {s : σ} {i : ι} (h : Reach s) (hi : M.enabled s i) : Reach (M.step s i)

variable {M} {P : σ → Prop} {s : σ} {ok : σ → ι → Prop} {is : List ι}

/-- **The invariant rule.** The step hypothesis may use that the state the step is
taken from is reachable. -/
theorem Reach.inv (hinit : ∀ s, M.init s → P s)
    (hstep : ∀ s i, M.Reach s → P s → M.enabled s i → P (M.step s i)) (h : M.Reach s) : P s := by
  induction h with
  | init h => exact hinit _ h
  | step h hi ih => exact hstep _ _ h ih hi

variable (M)

/-- The machine whose steps must also meet a condition. -/
def restrict (ok : σ → ι → Prop) : Machine σ ι where
  init := M.init
  enabled := fun s i => M.enabled s i ∧ ok s i
  step := M.step

variable {M}

theorem Reach.of_restrict (h : (M.restrict ok).Reach s) : M.Reach s := by
  induction h with
  | init h => exact Reach.init h
  | step _ hi ih => exact Reach.step ih hi.1

/-! ### Steps made of steps -/

variable (M)

/-- One admitted input leads from the first state to the second. -/
def Step (s s' : σ) : Prop := ∃ i, M.enabled s i ∧ M.step s i = s'

/-- Admitted inputs lead from the first state to the second. -/
def Steps : σ → σ → Prop := Relation.ReflTransGen M.Step

variable {M}

namespace Steps

variable {s s' s'' : σ} {P : σ → Prop}

theorem refl : M.Steps s s := Relation.ReflTransGen.refl

theorem trans (h : M.Steps s s') (h' : M.Steps s' s'') : M.Steps s s'' :=
  Relation.ReflTransGen.trans h h'

theorem single {i : ι} (hi : M.enabled s i) : M.Steps s (M.step s i) :=
  Relation.ReflTransGen.single ⟨i, hi, rfl⟩

/-- One more input at the end. -/
theorem tail (h : M.Steps s s') {i : ι} (hi : M.enabled s' i) : M.Steps s (M.step s' i) :=
  h.trans (single hi)

/-- What every admitted input keeps is kept. -/
theorem inv (hstep : ∀ s i, P s → M.enabled s i → P (M.step s i))
    (h : M.Steps s s') (hs : P s) : P s' := by
  induction h with
  | refl => exact hs
  | tail _ hlast ih =>
    obtain ⟨i, hi, rfl⟩ := hlast
    exact hstep _ i ih hi

/-- Steps under a guard are steps under a weaker one. -/
theorem mono {N : Machine σ ι} (hstep : M.step = N.step)
    (hguard : ∀ s i, M.enabled s i → N.enabled s i) (h : M.Steps s s') : N.Steps s s' := by
  induction h with
  | refl => exact refl
  | tail _ hlast ih =>
    obtain ⟨i, hi, rfl⟩ := hlast
    exact hstep ▸ ih.tail (hguard _ i hi)

/-- **Simulation.** Where every step of one machine is made of steps of another, as long
as an invariant of the other holds, so is every sequence of steps. -/
theorem simulate {κ : Type*} {N : Machine σ κ} (hP : ∀ s j, P s → N.enabled s j → P (N.step s j))
    (hsim : ∀ s i, P s → M.enabled s i → N.Steps s (M.step s i)) (h : M.Steps s s') (hs : P s) :
    N.Steps s s' := by
  induction h with
  | refl => exact refl
  | tail _ hlast ih =>
    obtain ⟨i, hi, rfl⟩ := hlast
    exact ih.trans (hsim _ i (ih.inv hP hs) hi)

theorem of_restrict {ok : σ → ι → Prop} (h : (M.restrict ok).Steps s s') : M.Steps s s' :=
  mono (M := M.restrict ok) rfl (fun _ _ => And.left) h

end Steps

/-! ### Runs as lists of inputs -/

variable (M)

/-- The state a list of inputs leads to. -/
def run (s : σ) (is : List ι) : σ := is.foldl M.step s

/-- Every input of the list meets `ok` in the state it is taken in. -/
def Meets (ok : σ → ι → Prop) : σ → List ι → Prop
  | _, [] => True
  | s, i :: is => ok s i ∧ Meets ok (M.step s i) is

/-- Every input of the list is admitted by the state it is taken in. -/
def Legal : σ → List ι → Prop := M.Meets M.enabled

instance decidableMeets (ok : σ → ι → Prop) [∀ s i, Decidable (ok s i)] :
    ∀ s is, Decidable (M.Meets ok s is)
  | _, [] => isTrue trivial
  | s, i :: is =>
    have := decidableMeets ok (M.step s i) is
    inferInstanceAs (Decidable (ok s i ∧ M.Meets ok (M.step s i) is))

instance decidableLegal [∀ s i, Decidable (M.enabled s i)] (s : σ) (is : List ι) :
    Decidable (M.Legal s is) :=
  inferInstanceAs (Decidable (M.Meets M.enabled s is))

variable {M}

@[simp]
theorem run_nil (s : σ) : M.run s [] = s := rfl

@[simp]
theorem run_cons (s : σ) (i : ι) (is : List ι) : M.run s (i :: is) = M.run (M.step s i) is := rfl

theorem Reach.run (h : M.Reach s) (hl : M.Legal s is) : M.Reach (M.run s is) := by
  induction is generalizing s with
  | nil => exact h
  | cons i is ih => exact ih (Reach.step h hl.1) hl.2

/-- A machine without a guard admits every list of inputs. -/
theorem legal_of_forall (h : ∀ s i, M.enabled s i) (s : σ) (is : List ι) : M.Legal s is := by
  induction is generalizing s with
  | nil => trivial
  | cons i is ih => exact ⟨h s i, ih (M.step s i)⟩

/-- A run whose steps all meet the condition, as a run of the restricted machine. -/
theorem Legal.restrict (h : M.Legal s is) (hok : M.Meets ok s is) : (M.restrict ok).Legal s is := by
  induction is generalizing s with
  | nil => trivial
  | cons i is ih => exact ⟨⟨h.1, hok.1⟩, ih h.2 hok.2⟩

/-- **From steps to runs.** Where a step keeps the property exactly when it meets the
condition, a run keeps it in every state it visits exactly when all its steps meet
the condition. The steps that meet it keep what is known of a state, `I`. -/
theorem forall_prefix_iff_of_inv {I : σ → Prop} (hI : ∀ s, I s → P s)
    (hstep : ∀ s i, I s → M.enabled s i → (P (M.step s i) ↔ ok s i))
    (hkeep : ∀ s i, I s → M.enabled s i → ok s i → I (M.step s i)) (hs : I s) (hl : M.Legal s is) :
    (∀ is', is' <+: is → P (M.run s is')) ↔ M.Meets ok s is := by
  induction is generalizing s with
  | nil =>
    refine ⟨fun _ => trivial, fun _ is' h => ?_⟩
    rw [List.prefix_nil.mp h]
    exact hI s hs
  | cons i is ih =>
    have hiff := hstep s i hs hl.1
    constructor
    · intro h
      have hok := hiff.mp (h [i] (List.prefix_cons_inj i |>.mpr (List.nil_prefix)))
      refine ⟨hok, (ih (hkeep s i hs hl.1 hok) hl.2).mp fun is' his' => ?_⟩
      exact h (i :: is') ((List.prefix_cons_inj i).mpr his')
    · rintro ⟨hok, hmeets⟩ is' his'
      cases is' with
      | nil => exact hI s hs
      | cons j js =>
        obtain ⟨rfl, hjs⟩ := List.cons_prefix_cons.mp his'
        exact (ih (hkeep s j hs hl.1 hok) hl.2).mpr hmeets js hjs

/-- The same for a property that is all there is to know of a reachable state. -/
theorem forall_prefix_iff
    (hstep : ∀ s i, M.Reach s → P s → M.enabled s i → (P (M.step s i) ↔ ok s i)) (hr : M.Reach s)
    (hs : P s) (hl : M.Legal s is) : (∀ is', is' <+: is → P (M.run s is')) ↔ M.Meets ok s is :=
  forall_prefix_iff_of_inv (I := fun s => M.Reach s ∧ P s) (fun _ h => h.2)
    (fun s i h => hstep s i h.1 h.2)
    (fun s i h hen hok => ⟨h.1.step hen, (hstep s i h.1 h.2 hen).mpr hok⟩) ⟨hr, hs⟩ hl

end Machine
