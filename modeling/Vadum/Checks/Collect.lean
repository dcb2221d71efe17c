import Mathlib.Order.Lattice

/-!
# Checks that Collect

A sequence of checks that all run and collect what they find, where `Sequence`
stops at the first that fails. What is found is joined to what was found before,
so in the end it is the least that holds everything that any of the checks has
found. Neither the order of the checks nor how often one is made matters, and
more of them find more.

## Main definitions

* `Collects`: A check that adds what it finds to what was found before.

## Theorems

* `Collects.foldl_le_iff`: What all checks find together is the least upper bound.
* `Collects.foldl_mono`: More checks find more.
* `Collects.foldl_congr`: The same checks find the same, in any order.
-/

namespace Checks

variable {α β : Type} [SemilatticeSup α]

/-- A check adds what it finds by itself to what was found before. -/
def Collects (check : α → β → α) (finds : β → α) : Prop :=
  ∀ found item, check found item = found ⊔ finds item

variable {check : α → β → α} {finds : β → α}

/-- What all checks find together is the least that holds what each one finds. -/
theorem Collects.foldl_le_iff (h : Collects check finds) (items : List β) (found bound : α) :
    items.foldl check found ≤ bound ↔ found ≤ bound ∧ ∀ item ∈ items, finds item ≤ bound := by
  induction items generalizing found with
  | nil => simp only [List.foldl_nil, List.not_mem_nil, false_implies, implies_true, and_true]
  | cons item items ih =>
      rw [List.foldl_cons, ih, h, sup_le_iff, List.forall_mem_cons, and_assoc]

/-- What one check finds is found. -/
theorem Collects.finds_le_foldl (h : Collects check finds) {items : List β} (found : α) {item : β}
    (hitem : item ∈ items) : finds item ≤ items.foldl check found :=
  ((h.foldl_le_iff items found _).mp le_rfl).2 item hitem

/-- More checks find more. -/
theorem Collects.foldl_mono (h : Collects check finds) {items items' : List β} (found : α)
    (hsub : items ⊆ items') : items.foldl check found ≤ items'.foldl check found := by
  have hbound := (h.foldl_le_iff items' found _).mp le_rfl
  exact (h.foldl_le_iff items found _).mpr
    ⟨hbound.1, fun item hitem => hbound.2 item (hsub hitem)⟩

/-- The same checks find the same, in any order and however often each is made. -/
theorem Collects.foldl_congr (h : Collects check finds) {items items' : List β} (found : α)
    (hsame : ∀ item, item ∈ items ↔ item ∈ items') :
    items.foldl check found = items'.foldl check found :=
  le_antisymm (h.foldl_mono found fun item => (hsame item).mp)
    (h.foldl_mono found fun item => (hsame item).mpr)

end Checks
