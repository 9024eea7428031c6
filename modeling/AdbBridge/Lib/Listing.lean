import Mathlib

/-!
# Lists of what has a property

A program that keeps the objects with some property on a list relies on two things:
every such object is on the list, once, and nothing else is. `Listing l P` says both,
and the lemmas say how the property has to change when the list does.
-/

/-- The list holds what has the property, each object once. -/
structure Listing {α : Type*} (l : List α) (P : α → Prop) : Prop where
  nodup : l.Nodup
  mem_iff : ∀ a, a ∈ l ↔ P a

namespace Listing

open List

variable {α : Type*} {l : List α} {P Q : α → Prop} {a : α}

theorem nil (h : ∀ a, ¬P a) : Listing [] P := ⟨nodup_nil, fun a => by simp [h a]⟩

theorem congr (h : Listing l P) (hPQ : ∀ a, P a ↔ Q a) : Listing l Q :=
  ⟨h.nodup, fun a => (h.mem_iff a).trans (hPQ a)⟩

/-- An object that gets the property goes to the front of the list. -/
theorem cons (h : Listing l P) (ha : ¬P a) (hQ : ∀ b, Q b ↔ P b ∨ b = a) : Listing (a :: l) Q where
  nodup := nodup_cons.mpr ⟨fun hmem => ha ((h.mem_iff a).mp hmem), h.nodup⟩
  mem_iff b := by rw [mem_cons, h.mem_iff, hQ, or_comm]

/-- An object that gets the property goes to the back of the list. -/
theorem concat (h : Listing l P) (ha : ¬P a) (hQ : ∀ b, Q b ↔ P b ∨ b = a) :
    Listing (l ++ [a]) Q where
  nodup := by
    rw [nodup_append_comm]
    exact (h.cons ha hQ).nodup
  mem_iff b := by rw [mem_append, mem_singleton, h.mem_iff, hQ]

variable [DecidableEq α]

/-- An object that loses the property is filtered out. -/
theorem filter_ne (h : Listing l P) (hQ : ∀ b, Q b ↔ P b ∧ b ≠ a) :
    Listing (l.filter (· != a)) Q where
  nodup := h.nodup.filter _
  mem_iff b := by rw [mem_filter, h.mem_iff, hQ, bne_iff_ne]

/-- An object that loses the property is erased. -/
theorem erase (h : Listing l P) (hQ : ∀ b, Q b ↔ P b ∧ b ≠ a) : Listing (l.erase a) Q where
  nodup := h.nodup.erase a
  mem_iff b := by rw [h.nodup.mem_erase_iff, h.mem_iff, hQ, and_comm]

end Listing
