import AdbBridge.Lib.Listing
import AdbBridge.Lib.Machine

/-!
# Weak pointers

A `weak_ptr` is registered in the `weak_ptrs_` of the object it points to, and the destructor of the
object clears the pointers it finds there. Both sides are on the thread of the looper, so what
happens to them is one sequence of operations. The only class of the
program that derives from `enable_weak_from_this` is `atransport`, which cannot be copied or
assigned: an object is constructed and destroyed.

`AdbBridge.weakPtrs_consistent` says that the two sides agree after every sequence of operations.
-/

namespace AdbBridge

open List Option Function

variable {α ω : Type} [DecidableEq α] [DecidableEq ω]

/-! ### The pointers and the objects -/

/-- The pointers at addresses `ω` and the objects at addresses `α`. -/
structure WeakPtrs (α ω : Type) where
  /-- The `weak_ptrs_` of an object, if one lives there. -/
  weakPtrs : α → Option (List ω)
  /-- The `ptr_` of a pointer, if one lives there. -/
  ptr : ω → Option (Option α)
  /-- `erase` was called with an iterator that was not to an element. -/
  erasedEnd : Bool

/-- `erase(std::remove(…))`: what stays is moved to the front, and the element behind it is erased,
if there is one. -/
def eraseRemove (l : List ω) (p : ω) : Option (List ω) :=
  let kept := l.filter (· != p)
  let moved := kept ++ l.drop kept.length
  if kept.length < moved.length then some (moved.eraseIdx kept.length) else none

namespace WeakPtrs

/-- The first half of `reset`: the pointer leaves the list of its object. -/
def unlink (s : WeakPtrs α ω) (p : ω) : Option α → WeakPtrs α ω
  | none => s
  | some o =>
    match (s.weakPtrs o).bind (eraseRemove · p) with
    | some l => { s with weakPtrs := Function.update s.weakPtrs o (some l) }
    | none => { s with erasedEnd := true }

/-- The second half of `reset`: the pointer is set, and goes to the list of its new object. -/
def link (s : WeakPtrs α ω) (p : ω) : Option α → WeakPtrs α ω
  | none => { s with ptr := Function.update s.ptr p (some none) }
  | some o => { s with
      ptr := Function.update s.ptr p (some (some o))
      weakPtrs := Function.update s.weakPtrs o ((s.weakPtrs o).map (· ++ [p])) }

/-- `get`. -/
def get (s : WeakPtrs α ω) (p : ω) : Option α := (s.ptr p).join

/-- `reset`. -/
def reset (s : WeakPtrs α ω) (p : ω) (new : Option α) : WeakPtrs α ω :=
  if new = s.get p then s else (s.unlink p (s.get p)).link p new

/-- A pointer with the default `ptr_`. -/
def construct (s : WeakPtrs α ω) (p : ω) : WeakPtrs α ω :=
  { s with ptr := Function.update s.ptr p (some none) }

/-- `~weak_ptr`. -/
def destruct (s : WeakPtrs α ω) (p : ω) : WeakPtrs α ω :=
  let s := s.reset p none
  { s with ptr := Function.update s.ptr p none }

/-- `~enable_weak_from_this`. -/
def destroy (s : WeakPtrs α ω) (o : α) : WeakPtrs α ω :=
  { s with
    ptr := fun p => if p ∈ (s.weakPtrs o).getD [] then (s.ptr p).map fun _ => none else s.ptr p
    weakPtrs := Function.update s.weakPtrs o none }

end WeakPtrs

/-- What is done to a pointer or an object. -/
inductive WeakOp (α ω : Type)
  | object (o : α)
  | destroyObject (o : α)
  | default (p : ω)
  | explicit (p : ω) (ptr : Option α)
  | copy (p q : ω)
  | move (p q : ω)
  | assignCopy (p q : ω)
  | assignMove (p q : ω)
  | reset (p : ω) (ptr : Option α)
  | destroy (p : ω)

namespace WeakPtrs

/-- What is constructed is at a free address, and everything else that is named lives. -/
def Enabled (s : WeakPtrs α ω) : WeakOp α ω → Prop
  | .object o => s.weakPtrs o = none
  | .destroyObject o => (s.weakPtrs o).isSome
  | .default p => s.ptr p = none
  | .explicit p ptr => s.ptr p = none ∧ ∀ o ∈ ptr, (s.weakPtrs o).isSome
  | .copy p q | .move p q => s.ptr p = none ∧ (s.ptr q).isSome
  | .assignCopy p q | .assignMove p q => (s.ptr p).isSome ∧ (s.ptr q).isSome
  | .reset p ptr => (s.ptr p).isSome ∧ ∀ o ∈ ptr, (s.weakPtrs o).isSome
  | .destroy p => (s.ptr p).isSome

/-- The operations, as the members of the two classes have them. -/
def step (s : WeakPtrs α ω) : WeakOp α ω → WeakPtrs α ω
  | .object o => { s with weakPtrs := Function.update s.weakPtrs o (some []) }
  | .destroyObject o => s.destroy o
  | .default p => s.construct p
  | .explicit p ptr => (s.construct p).reset p ptr
  | .copy p q => (s.construct p).reset p (s.get q)
  | .move p q => ((s.construct p).reset p (s.get q)).reset q none
  | .assignCopy p q => if q = p then s else s.reset p (s.get q)
  | .assignMove p q => if q = p then s else (s.reset p (s.get q)).reset q none
  | .reset p ptr => s.reset p ptr
  | .destroy p => s.destruct p

/-- Nothing lives yet. -/
def empty : WeakPtrs α ω := ⟨fun _ => none, fun _ => none, false⟩

/-- The pointers and the objects, as a machine. -/
def machine : Machine (WeakPtrs α ω) (WeakOp α ω) where
  init s := s = empty
  enabled := Enabled
  step := step

/-- **The two sides agree.** The list of a live object has the live pointers to it, each once; what
a pointer points to is alive; and `erase` has always been given an element. -/
structure Consistent (s : WeakPtrs α ω) : Prop where
  listed : ∀ o l, s.weakPtrs o = some l → Listing l fun p => s.ptr p = some (some o)
  alive : ∀ p o, s.ptr p = some (some o) → (s.weakPtrs o).isSome
  erased : s.erasedEnd = false

variable {s : WeakPtrs α ω} {p q : ω} {o : α} {ptr : Option (Option α)}

/-! ### A reset -/

/-- A pointer on the list is the element that is erased. -/
theorem eraseRemove_eq {l : List ω} (hnodup : l.Nodup) (hp : p ∈ l) :
    eraseRemove l p = some (l.filter (· != p)) := by
  have hlength : (l.filter (· != p)).length + 1 = l.length := by
    rw [← hnodup.erase_eq_filter, length_erase_of_mem hp]
    have := length_pos_of_mem hp
    omega
  have hrest : (l.drop (l.filter (· != p)).length).tail = [] := by
    rw [tail_drop, drop_eq_nil_iff]
    omega
  rw [eraseRemove, if_pos (by rw [length_append, length_drop]; omega),
    eraseIdx_append_of_length_le le_rfl, Nat.sub_self, eraseIdx_zero, hrest,
    append_nil]

omit [DecidableEq α] in
/-- A pointer is on no list but that of the object it points to. -/
theorem Consistent.map_filter (h : s.Consistent) (hp : s.get p ≠ some o) :
    (s.weakPtrs o).map (·.filter (· != p)) = s.weakPtrs o := by
  cases hl : s.weakPtrs o with
  | none => rfl
  | some l =>
    refine congrArg some (filter_eq_self.mpr fun q hq => bne_iff_ne.mpr ?_)
    rintro rfl
    exact hp (congrArg Option.join (((h.listed o l hl).mem_iff q).mp hq))

/-- What a reset comes to: the pointer is taken off every list, and goes to that of the object it
now points to. -/
def retarget (s : WeakPtrs α ω) (p : ω) (ptr : Option (Option α)) : WeakPtrs α ω :=
  { s with
    ptr := Function.update s.ptr p ptr
    weakPtrs := fun o => (s.weakPtrs o).map fun l =>
      l.filter (· != p) ++ if ptr = some (some o) then [p] else [] }

/-- A pointer may be set to a live object, or to none. -/
theorem Consistent.retarget (h : s.Consistent)
    (halive : ∀ o, ptr = some (some o) → (s.weakPtrs o).isSome) :
    (s.retarget p ptr).Consistent := by
  have hptr : ∀ q o, (s.retarget p ptr).ptr q = some (some o) ↔
      s.ptr q = some (some o) ∧ q ≠ p ∨ q = p ∧ ptr = some (some o) := by
    intro q o
    rcases eq_or_ne q p with rfl | hqp
    · simp [WeakPtrs.retarget]
    · simp [WeakPtrs.retarget, hqp]
  refine ⟨fun o l' hl' => ?_, fun q o hq => ?_, h.erased⟩
  · obtain ⟨l, hl, rfl⟩ := map_eq_some_iff.mp hl'
    have hrest := (h.listed o l hl).filter_ne (a := p) fun q => Iff.rfl
    split_ifs with hto
    · exact hrest.concat (fun hp => hp.2 rfl) fun q => by
        rw [hptr, and_iff_left hto]
    · rw [append_nil]
      exact hrest.congr fun q => by simp [hptr, hto]
  · rw [WeakPtrs.retarget, isSome_map]
    rcases (hptr q o).mp hq with ⟨hq, -⟩ | ⟨-, hto⟩
    · exact h.alive q o hq
    · exact halive o hto

/-- A null pointer is set to null, constructed or destroyed. -/
theorem Consistent.setPtr (h : s.Consistent) (hp : s.get p = none)
    (hptr : ∀ o, ptr ≠ some (some o)) :
    ({ s with ptr := Function.update s.ptr p ptr } : WeakPtrs α ω).Consistent := by
  have heq : { s with ptr := Function.update s.ptr p ptr } = s.retarget p ptr := by
    simp only [WeakPtrs.retarget, hptr, if_false, append_nil, mk.injEq, and_true]
    exact funext fun o => (h.map_filter (by simp [hp])).symm
  rw [heq]
  exact h.retarget fun o ho => absurd ho (hptr o)

/-- A pointer is on the list of its own object only, so it is taken off all lists. -/
theorem unlink_eq (h : s.Consistent) : s.unlink p (s.get p) =
    { s with weakPtrs := fun o => (s.weakPtrs o).map (·.filter (· != p)) } := by
  cases hget : s.get p with
  | none =>
    have hsame := funext fun o => h.map_filter (p := p) (o := o) (by simp [hget])
    rw [hsame]
    rfl
  | some old =>
    have hptr : s.ptr p = some (some old) := join_eq_some_iff.mp hget
    obtain ⟨l, hl⟩ := isSome_iff_exists.mp (h.alive p old hptr)
    have hlisting := h.listed old l hl
    have herase := eraseRemove_eq hlisting.nodup ((hlisting.mem_iff p).mpr hptr)
    simp only [unlink, hl, bind_some, herase, mk.injEq, and_true]
    refine update_eq_iff.mpr ⟨by rw [hl]; rfl, fun o ho => (h.map_filter ?_).symm⟩
    rw [hget]
    exact fun heq => ho (some.inj heq).symm

/-- **A reset keeps the two sides in step**, and changes no other pointer. -/
theorem reset_spec (h : s.Consistent) (hp : (s.ptr p).isSome) (new : Option α)
    (hnew : ∀ o ∈ new, (s.weakPtrs o).isSome) :
    (s.reset p new).Consistent ∧ (s.reset p new).ptr = Function.update s.ptr p (some new) := by
  rw [reset]
  split_ifs with heq
  · obtain ⟨ptr, hptr⟩ := isSome_iff_exists.mp hp
    have hsame : s.ptr p = some new := by rw [heq, get, hptr]; rfl
    exact ⟨h, by rw [← hsame, update_eq_self]⟩
  · have hlink : (s.unlink p (s.get p)).link p new = s.retarget p (some new) := by
      rw [unlink_eq h]
      cases new with
      | none => simp [link, retarget]
      | some new =>
        simp only [link, retarget, mk.injEq, and_true]
        refine update_eq_iff.mpr ⟨by simp [comp_def], fun o ho => ?_⟩
        simp [ho.symm]
    rw [hlink]
    exact ⟨h.retarget fun o ho => hnew o (some.inj ho), rfl⟩

/-! ### Every operation -/

omit [DecidableEq α] [DecidableEq ω] in
theorem Consistent.get (h : s.Consistent) : ∀ o ∈ s.get q, (s.weakPtrs o).isSome := by
  intro o ho
  rw [mem_def, WeakPtrs.get, join_eq_some_iff] at ho
  exact h.alive q o ho

theorem Consistent.construct (h : s.Consistent) (hp : s.ptr p = none) :
    (s.construct p).Consistent :=
  h.setPtr (congrArg Option.join hp) nofun

theorem Consistent.destruct (h : s.Consistent) (hp : (s.ptr p).isSome) :
    (s.destruct p).Consistent := by
  obtain ⟨hreset, hptr⟩ := reset_spec h hp none (by simp)
  refine hreset.setPtr ?_ nofun
  rw [WeakPtrs.get, hptr, update_self]
  rfl

/-- The pointers to another object are not on the list. -/
theorem Consistent.destroy (h : s.Consistent) (ho : (s.weakPtrs o).isSome) :
    (s.destroy o).Consistent := by
  obtain ⟨l, hl⟩ := isSome_iff_exists.mp ho
  have hptr : ∀ q o', (s.destroy o).ptr q = some (some o') ↔
      s.ptr q = some (some o') ∧ o' ≠ o := by
    intro q o'
    simp only [WeakPtrs.destroy, hl, getD_some, (h.listed o l hl).mem_iff q]
    split_ifs with hq
    · simp only [hq, map_some, some.injEq, reduceCtorEq, false_iff, not_and,
        not_not]
      exact Eq.symm
    · refine ⟨fun hq' => ⟨hq', ?_⟩, And.left⟩
      rintro rfl
      exact hq hq'
  refine ⟨fun o' l' hl' => ?_, fun q o' hq => ?_, h.erased⟩
  · rcases eq_or_ne o' o with rfl | hne
    · simp [WeakPtrs.destroy] at hl'
    · simp only [WeakPtrs.destroy, update_of_ne hne] at hl'
      exact (h.listed o' l' hl').congr fun q => by rw [hptr]; simp [hne]
  · obtain ⟨hq, hne⟩ := (hptr q o').mp hq
    simp only [WeakPtrs.destroy, update_of_ne hne]
    exact h.alive q o' hq

/-- A new object has no pointers. -/
theorem Consistent.object (h : s.Consistent) (ho : s.weakPtrs o = none) :
    (s.step (.object o)).Consistent := by
  refine ⟨fun o' l hl => ?_, fun q o' hq => ?_, h.erased⟩
  · rcases eq_or_ne o' o with rfl | hne
    · obtain rfl : [] = l := by simpa [WeakPtrs.step] using hl
      -- Nothing points to where no object lives.
      refine Listing.nil fun q hq => ?_
      have := h.alive q o' hq
      rw [ho] at this
      exact nomatch this
    · exact h.listed o' l (by simpa [WeakPtrs.step, hne] using hl)
  · rcases eq_or_ne o' o with rfl | hne
    · simp [WeakPtrs.step]
    · simpa [WeakPtrs.step, hne] using h.alive q o' hq

/-- A pointer is set to what another points to, and the other is reset: an assignment, and the
second half of a construction. -/
theorem Consistent.take (h : s.Consistent) (hp : (s.ptr p).isSome) (hq : (s.ptr q).isSome) :
    (s.reset p (s.get q)).Consistent ∧ ((s.reset p (s.get q)).reset q none).Consistent := by
  obtain ⟨hset, hptr⟩ := reset_spec h hp _ h.get
  refine ⟨hset, (reset_spec hset ?_ none (by simp)).1⟩
  rcases eq_or_ne q p with rfl | hne
  · simp [hptr]
  · rwa [hptr, update_of_ne hne]

/-- **Every operation** keeps the registry consistent. -/
theorem Consistent.step (h : s.Consistent) {op : WeakOp α ω} (hop : s.Enabled op) :
    (s.step op).Consistent := by
  have hnew : ∀ p, ((s.construct p).ptr p).isSome := by simp [WeakPtrs.construct]
  have hget : ∀ {p q}, s.ptr p = none → (s.ptr q).isSome →
      s.get q = (s.construct p).get q ∧ ((s.construct p).ptr q).isSome := by
    intro p q hp hq
    have hne : q ≠ p := by
      rintro rfl
      rw [hp] at hq
      exact nomatch hq
    simp only [WeakPtrs.get, WeakPtrs.construct, update_of_ne hne]
    exact ⟨trivial, hq⟩
  cases op with
  | object o => exact h.object hop
  | destroyObject o => exact h.destroy hop
  | default p => exact h.construct hop
  | explicit p ptr => exact (reset_spec (h.construct hop.1) (hnew p) ptr hop.2).1
  | copy p q =>
    obtain ⟨heq, hq⟩ := hget hop.1 hop.2
    rw [WeakPtrs.step, heq]
    exact ((h.construct hop.1).take (hnew p) hq).1
  | move p q =>
    obtain ⟨heq, hq⟩ := hget hop.1 hop.2
    rw [WeakPtrs.step, heq]
    exact ((h.construct hop.1).take (hnew p) hq).2
  | assignCopy p q =>
    rw [WeakPtrs.step]
    split_ifs
    · exact h
    · exact (h.take hop.1 hop.2).1
  | assignMove p q =>
    rw [WeakPtrs.step]
    split_ifs
    · exact h
    · exact (h.take hop.1 hop.2).2
  | reset p ptr => exact (reset_spec h hop.1 ptr hop.2).1
  | destroy p => exact h.destruct hop

omit [DecidableEq α] [DecidableEq ω] in
theorem Consistent.empty : (empty : WeakPtrs α ω).Consistent :=
  ⟨fun _ _ h => (nomatch h), fun _ _ h => (nomatch h), rfl⟩

end WeakPtrs

open WeakPtrs in
/-- **The registry.** After every sequence of operations the list of each live object has the live
pointers to it, each once, every other pointer is null, and no `erase` was given the end of a
list. -/
theorem weakPtrs_consistent (ops : List (WeakOp α ω)) (h : machine.Legal empty ops) :
    (machine.run (empty : WeakPtrs α ω) ops).Consistent := by
  refine ((Machine.Reach.init rfl).run h).inv ?_ fun _ _ _ hs hop => hs.step hop
  rintro s rfl
  exact Consistent.empty

instance decidableWeakPtrs (s : WeakPtrs α ω) (op : WeakOp α ω) :
    Decidable (WeakPtrs.machine.enabled s op) := by
  cases op <;> dsimp only [WeakPtrs.machine, WeakPtrs.Enabled] <;> infer_instance

/-- A pointer is moved to one that points to the same object, copied, assigned to itself, and left
behind by the object. -/
theorem weakPtrs_consistent_left :
    (WeakPtrs.machine.run WeakPtrs.empty [.object 5, .explicit 1 (some 5), .copy 2 1,
      .assignMove 1 2, .assignCopy 1 1, .reset 2 (some 5), .destroyObject 5, .destroy 2]
        : WeakPtrs ℕ ℕ).Consistent :=
  weakPtrs_consistent _ (by decide)

end AdbBridge
