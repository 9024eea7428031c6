import Mathlib

/-!
# Pairings by pointers

Objects that point at each other two by two: a partial function from addresses to
addresses such that whatever points somewhere is pointed back at by that place. Every
pointer of a pairing is live in the sense that its target points as well; the two
operations that keep a pairing are to join two objects that point nowhere, and to part
two that point at each other.
-/

/-- Every pointer is answered, and by another object. -/
def Pairing {α : Type*} (f : α → Option α) : Prop :=
  ∀ a b, f a = some b → a ≠ b ∧ f b = some a

namespace Pairing

open Function

variable {α : Type*} {f : α → Option α} {a b c : α}

theorem empty : Pairing fun _ : α => none := fun _ _ h => absurd h (by simp)

theorem symm (h : Pairing f) (hab : f a = some b) : f b = some a := (h a b hab).2

theorem ne (h : Pairing f) (hab : f a = some b) : a ≠ b := (h a b hab).1

/-- Nobody points at an object that points nowhere. -/
theorem not_target (h : Pairing f) (ha : f a = none) (c : α) : f c ≠ some a := by
  intro hc
  have := h.symm hc
  rw [ha] at this
  exact absurd this (by simp)

/-- At most one object points at a given one. -/
theorem inj (h : Pairing f) (ha : f a = some c) (hb : f b = some c) : a = b :=
  Option.some.inj ((h.symm ha).symm.trans (h.symm hb))

variable [DecidableEq α]

/-- Part two objects that point at each other. -/
theorem unlink (h : Pairing f) (hab : f a = some b) :
    Pairing (Function.update (Function.update f b none) a none) := by
  intro c d hcd
  have hca : c ≠ a := by
    rintro rfl
    simp at hcd
  have hcb : c ≠ b := by
    rintro rfl
    simp [hca] at hcd
  rw [update_of_ne hca, update_of_ne hcb] at hcd
  have hda : d ≠ a := fun hd => hcb (h.inj (hd ▸ hcd) (h.symm hab))
  have hdb : d ≠ b := fun hd => hca (h.inj (hd ▸ hcd) hab)
  rw [update_of_ne hda, update_of_ne hdb]
  exact h c d hcd

/-- Join two objects that point nowhere. -/
theorem link (h : Pairing f) (hab : a ≠ b) (ha : f a = none) (hb : f b = none) :
    Pairing (Function.update (Function.update f a (some b)) b (some a)) := by
  intro c d hcd
  by_cases hcb : c = b
  · subst hcb
    rw [update_self] at hcd
    obtain rfl := Option.some.inj hcd
    exact ⟨hab.symm, by rw [update_of_ne hab, update_self]⟩
  · rw [update_of_ne hcb] at hcd
    by_cases hca : c = a
    · subst hca
      rw [update_self] at hcd
      obtain rfl := Option.some.inj hcd
      exact ⟨hab, update_self _ _ _⟩
    · rw [update_of_ne hca] at hcd
      have hda : d ≠ a := fun hd => h.not_target ha c (hd ▸ hcd)
      have hdb : d ≠ b := fun hd => h.not_target hb c (hd ▸ hcd)
      rw [update_of_ne hdb, update_of_ne hda]
      exact h c d hcd

end Pairing
