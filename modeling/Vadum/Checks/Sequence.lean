import Mathlib.Logic.Basic

/-!
# Sequences of Checks

A function that checks its input throws at the first check that fails and
returns if none does. What such a sequence accepts is what passes every check in
it, and `bind_eq_ok` with `ite_throw_eq_ok` reads that off its text.

Two sequences written apart from each other agree when they fail together, and
at the same check. `Agree` says so for errors of two kinds, related by a
relation of the caller's. Where one sequence begins like the other and goes on
alone, `Covers` says that the other fails wherever it does. Both are carried
through the two texts a check at a time.

## Main definitions

* `Agree`: Two results that are both good, or wrong in the same way.
* `Covers`: A result that is wrong only where another is, in the same way.

## Theorems

* `bind_eq_ok`, `bind_eq_error`: A sequence ends well exactly if its parts do.
* `ite_throw_eq_ok`: A check is passed exactly if its condition is false.
* `Agree.check`, `Covers.check`: One more check on both sides.
-/

namespace Checks

variable {ε ε' α α' β : Type}

theorem throw_bind (e : ε) (f : α → Except ε β) : (throw e >>= f : Except ε β) = throw e := rfl

theorem ok_bind (a : α) (f : α → Except ε β) : Except.ok a >>= f = f a := rfl

/-- What follows a check is not reached if it fails. -/
theorem ite_throw_bind {c : Prop} [Decidable c] (e : ε) (x : Except ε α) (f : α → Except ε β) :
    (if c then throw e else x) >>= f = if c then throw e else x >>= f := by
  by_cases h : c
  · rw [if_pos h, if_pos h, throw_bind]
  · rw [if_neg h, if_neg h]

/-- A sequence ends well exactly if its parts do. -/
theorem bind_eq_ok {x : Except ε α} {f : α → Except ε β} {b : β} :
    x >>= f = .ok b ↔ ∃ a, x = .ok a ∧ f a = .ok b := by
  rcases x with e | a
  · refine ⟨fun h => ?_, fun ⟨a, h, _⟩ => ?_⟩
    · cases h
    · cases h
  · refine ⟨fun h => ⟨a, rfl, h⟩, fun ⟨a', h, hf⟩ => ?_⟩
    cases h
    exact hf

/-- A sequence ends badly exactly if a part does that is reached. -/
theorem bind_eq_error {x : Except ε α} {f : α → Except ε β} {e : ε} :
    x >>= f = .error e ↔ x = .error e ∨ ∃ a, x = .ok a ∧ f a = .error e := by
  rcases x with e' | a
  · refine ⟨fun h => .inl (by cases h; rfl), fun h => ?_⟩
    rcases h with h | ⟨a, h, _⟩
    · cases h
      rfl
    · cases h
  · refine ⟨fun h => .inr ⟨a, rfl, h⟩, fun h => ?_⟩
    rcases h with h | ⟨a', h, hf⟩
    · cases h
    · cases h
      exact hf

/-- A check is passed exactly if its condition is false. -/
theorem ite_throw_eq_ok {c : Prop} [Decidable c] {e : ε} {x : Except ε α} {a : α} :
    (if c then throw e else x) = .ok a ↔ ¬ c ∧ x = .ok a := by
  by_cases h : c
  · rw [if_pos h]
    refine ⟨fun h' => ?_, fun h' => absurd h h'.1⟩
    cases h'
  · rw [if_neg h]
    exact ⟨fun h' => ⟨h, h'⟩, fun h' => h'.2⟩

theorem pure_eq_ok {a b : α} : (pure a : Except ε α) = .ok b ↔ a = b :=
  ⟨Except.ok.inj, congrArg Except.ok⟩

theorem throw_eq_ok {e : ε} {a : α} : (throw e : Except ε α) = .ok a ↔ False :=
  ⟨fun h => (by cases h), False.elim⟩

/-- Two results that are both good, or wrong in the same way. -/
inductive Agree (R : ε → ε' → Prop) : Except ε α → Except ε' α' → Prop where
  | good (a : α) (a' : α') : Agree R (.ok a) (.ok a')
  | wrong {e : ε} {e' : ε'} (h : R e e') : Agree R (.error e) (.error e')

variable {R : ε → ε' → Prop}

/-- One more check on both sides, with the same condition. -/
theorem Agree.check {c c' : Prop} [Decidable c] [Decidable c'] {e : ε} {e' : ε'}
    {x : Except ε α} {x' : Except ε' α'} (hc : c ↔ c') (he : R e e')
    (hx : ¬ c → Agree R x x') :
    Agree R (if c then throw e else x) (if c' then throw e' else x') := by
  by_cases h : c
  · rw [if_pos h, if_pos (hc.mp h)]
    exact .wrong he
  · rw [if_neg h, if_neg (mt hc.mpr h)]
    exact hx h

/-- A result that is wrong only where another one is, in the same way. -/
def Covers (R : ε → ε' → Prop) (x : Except ε α) (x' : Except ε' α') : Prop :=
  ∀ e, x = .error e → ∃ e', x' = .error e' ∧ R e e'

theorem Covers.good (a : α) (x' : Except ε' α') : Covers R (.ok a) x' := fun _ h => by cases h

theorem Covers.wrong {e : ε} {e' : ε'} (h : R e e') :
    Covers R (.error e : Except ε α) (.error e' : Except ε' α') := by
  rintro _ ⟨⟩
  exact ⟨e', rfl, h⟩

theorem Covers.check {c c' : Prop} [Decidable c] [Decidable c'] {e : ε} {e' : ε'}
    {x : Except ε α} {x' : Except ε' α'} (hc : c ↔ c') (he : R e e')
    (hx : ¬ c → Covers R x x') :
    Covers R (if c then throw e else x) (if c' then throw e' else x') := by
  by_cases h : c
  · rw [if_pos h, if_pos (hc.mp h)]
    exact .wrong he
  · rw [if_neg h, if_neg (mt hc.mpr h)]
    exact hx h

theorem Agree.covers {x : Except ε α} {x' : Except ε' α'} (h : Agree R x x') : Covers R x x' := by
  cases h with
  | good a a' => exact .good a _
  | wrong h => exact .wrong h

/-- A sequence agrees with another that covers its first part, if the rest
    agrees with it wherever the first part is passed. -/
theorem Agree.bind {x : Except ε α} {f : α → Except ε β} {x' : Except ε' α'}
    (hx : Covers R x x') (hf : ∀ a, x = .ok a → Agree R (f a) x') : Agree R (x >>= f) x' := by
  rcases h : x with e | a
  · rcases hx e h with ⟨e', rfl, he⟩
    exact .wrong he
  · exact hf a h

/-- What cannot fail may follow. -/
theorem Agree.andThen {x : Except ε α} {f : α → Except ε β} {x' : Except ε' α'}
    (hx : Agree R x x') (hf : ∀ a, ∃ b, f a = .ok b) : Agree R (x >>= f) x' := by
  cases hx with
  | good a a' =>
      rcases hf a with ⟨b, hb⟩
      rw [ok_bind, hb]
      exact .good b a'
  | wrong h => exact .wrong h

end Checks
