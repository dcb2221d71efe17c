import Mathlib.Data.List.Basic
import Mathlib.Data.List.Nodup
import Mathlib.Data.List.Infix

/-!
# One-Way Registers

A register that takes on new values and never one it has held before. It may
be empty for a while, and then its next value is new too.

Values are compared by when they were held, their `rank`. The rank of a value
never changes, so what is learned about it early stays true. `floor` is the
least rank a later reading can have: a value below the floor is gone for good.

## Main definitions

* `Register`: The values held so far and the one held now.
* `Register.Next`: How a register may change.
* `Register.rank`, `Register.floor`: When values were held.

## Theorems

* `Next.refl`, `Next.trans`: Changes compose.
* `Next.rank_eq`: A rank never changes.
* `Next.floor_le`: The floor never falls.
* `rank_current`: The value held now is at the floor.
* `rank_inj`: A rank belongs to one value.
-/

namespace OneWay

/-- The values a register has held, in order, and the one it holds now. -/
structure Register (α : Type) where
  held : List α
  current : Option α
  nodup : held.Nodup
  last : ∀ v, current = some v → held.getLast? = some v

namespace Register

variable {α : Type}

/-- A register moves on: it keeps its past, and a value it takes on after
    being empty is new. -/
structure Next (r r' : Register α) : Prop where
  grows : r.held <+: r'.held
  renewed : r.current = none → r'.current ≠ none → r.held ≠ r'.held

/-- The least rank a later reading can have. -/
def floor (r : Register α) : Nat :=
  match r.current with
  | some _ => r.held.length - 1
  | none => r.held.length

/-- When a value was held. -/
def rank [DecidableEq α] (r : Register α) (x : α) : Nat := r.held.idxOf x

theorem Next.refl (r : Register α) : Next r r where
  grows := List.prefix_refl _
  renewed := fun hnone hsome => absurd hnone hsome

theorem Next.trans {r₁ r₂ r₃ : Register α} (h₁ : Next r₁ r₂) (h₂ : Next r₂ r₃) :
    Next r₁ r₃ where
  grows := h₁.grows.trans h₂.grows
  renewed := fun hnone hsome heq => by
    have hlen₁ := h₁.grows.length_le
    have hlen₂ := h₂.grows.length_le
    rw [heq] at hlen₁
    have heq₂ : r₂.held = r₃.held := h₂.grows.eq_of_length (by omega)
    by_cases hmid : r₂.current = none
    · exact h₂.renewed hmid hsome heq₂
    · exact h₁.renewed hnone hmid (heq.trans heq₂.symm)

theorem Next.mem {r r' : Register α} (h : Next r r') {x : α} (hx : x ∈ r.held) : x ∈ r'.held :=
  h.grows.subset hx

/-- The floor never falls. -/
theorem Next.floor_le {r r' : Register α} (h : Next r r') : r.floor ≤ r'.floor := by
  have hlen := h.grows.length_le
  unfold floor
  cases hr : r.current with
  | some v => cases r'.current <;> simp only <;> omega
  | none =>
      cases hr' : r'.current with
      | none => exact hlen
      | some v' =>
          have hne := h.renewed hr (by rw [hr']; exact Option.some_ne_none v')
          have hlt : r.held.length ≠ r'.held.length :=
            fun heq => hne (h.grows.eq_of_length heq)
          simp only
          omega

/-- A register whose past grew has left all of it below the floor. -/
theorem Next.length_le_floor {r r' : Register α} (h : Next r r') (hne : r.held ≠ r'.held) :
    r.held.length ≤ r'.floor := by
  have hlen := h.grows.length_le
  have hlt : r.held.length ≠ r'.held.length := fun heq => hne (h.grows.eq_of_length heq)
  unfold floor
  cases r'.current <;> simp only <;> omega

theorem mem_of_current {r : Register α} {v : α} (h : r.current = some v) : v ∈ r.held :=
  List.mem_of_getLast? (r.last v h)

section Rank

variable [DecidableEq α]

theorem Next.rank_eq {r r' : Register α} (h : Next r r') {x : α} (hx : x ∈ r.held) :
    r'.rank x = r.rank x := by
  rcases h.grows with ⟨later, hlater⟩
  unfold rank
  rw [← hlater, List.idxOf_append_of_mem hx]

theorem rank_lt_length {r : Register α} {x : α} (hx : x ∈ r.held) : r.rank x < r.held.length :=
  List.idxOf_lt_length_of_mem hx

theorem rank_le_floor {r : Register α} {x : α} (hx : x ∈ r.held) : r.rank x ≤ r.floor := by
  have := rank_lt_length hx
  unfold floor
  cases r.current <;> simp only <;> omega

/-- The value held now is at the floor. -/
theorem rank_current {r : Register α} {v : α} (h : r.current = some v) : r.rank v = r.floor := by
  rcases List.getLast?_eq_some_iff.mp (r.last v h) with ⟨earlier, hheld⟩
  have hnodup := r.nodup
  rw [hheld] at hnodup
  have hnot : v ∉ earlier := fun hmem =>
    (List.nodup_append.mp hnodup).2.2 v hmem v (List.mem_singleton_self v) rfl
  unfold rank floor
  rw [h, hheld, List.idxOf_append_of_notMem hnot]
  simp only [List.idxOf_cons_self, List.length_append, List.length_singleton]
  omega

/-- A rank belongs to one value. -/
theorem rank_inj {r : Register α} {x y : α} (hx : x ∈ r.held) (h : r.rank x = r.rank y) :
    x = y :=
  (List.idxOf_inj hx).mp h

end Rank

end Register

end OneWay
