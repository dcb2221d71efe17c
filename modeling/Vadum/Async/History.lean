import Mathlib.Data.List.Basic

/-!
# Histories of Operations

A component used one operation at a time: each operation takes the state to
the next one and returns a result. A history lists what happened, one `Event`
an operation, with the state on either side.

Most safety properties of such a component speak about the past: what was
handed out before, what was settled since. `history_rule` is the induction
they share. The invariant `J` relates the events so far to the state they led
to, and the assumption `A` is what the run promises about each event.

## Main definitions

* `Event`: An operation, its result, and the state on either side.
* `eventAt`: The event an operation makes of a state.
* `history`: The events of a sequence of operations.
* `final`: The state a sequence of operations leads to.

## Theorems

* `snoc_split`: Cutting a list with one more entry.
* `cut_twice`: Cutting a list in two places.
* `history_append`: A history splits where its operations do.
* `final_append`: So does the state it leads to.
* `eventAt_of_mem`: The events of a history are what its operations make.
* `history_split`: A prefix of a history is a history.
* `history_cut`: So is what comes after an event.
* `history_rule`: An invariant of the past and the present holds throughout.
* `history_invariant`: The same for an invariant of the present alone.
-/

namespace Async

/-- Where a list with one more entry at its end can be cut: at that entry, or
    before it. -/
theorem snoc_split {α : Type} {l l₁ l₂ : List α} {x y : α} (h : l ++ [x] = l₁ ++ y :: l₂) :
    (l = l₁ ∧ x = y ∧ l₂ = []) ∨ ∃ rest, l₂ = rest ++ [x] ∧ l = l₁ ++ y :: rest := by
  rcases List.eq_nil_or_concat' l₂ with rfl | ⟨rest, last, rfl⟩
  · have hlast := List.append_inj' h rfl
    exact .inl ⟨hlast.1, List.head_eq_of_cons_eq hlast.2, rfl⟩
  · have hcut : l ++ [x] = (l₁ ++ y :: rest) ++ [last] := by
      rw [h, List.append_assoc, List.cons_append]
    rcases List.append_inj' hcut rfl with ⟨heq, hlast⟩
    rw [← List.head_eq_of_cons_eq hlast]
    exact .inr ⟨rest, rfl, heq⟩

/-- Two places to cut the same list, at different entries: one comes first. -/
theorem cut_twice {α : Type} {l₁ l₂ l₁' l₂' : List α} {x y : α} (hne : x ≠ y)
    (h : l₁ ++ x :: l₂ = l₁' ++ y :: l₂') :
    (∃ between, l₂ = between ++ y :: l₂') ∨ ∃ between, l₂' = between ++ x :: l₂ := by
  rcases List.append_eq_append_iff.mp h with ⟨rest, _, hrest⟩ | ⟨rest, _, hrest⟩
  · cases rest with
    | nil => exact absurd (List.head_eq_of_cons_eq hrest) hne
    | cons _ rest => exact .inl ⟨rest, List.tail_eq_of_cons_eq hrest⟩
  · cases rest with
    | nil => exact absurd (List.head_eq_of_cons_eq hrest).symm hne
    | cons _ rest => exact .inr ⟨rest, List.tail_eq_of_cons_eq hrest⟩

variable {Op R S : Type}

/-- An operation that was run: its result, and the state on either side. -/
structure Event (Op R S : Type) where
  op : Op
  before : S
  result : R
  after : S

/-- What happens when `op` is run in `s`. -/
def eventAt (step : Op → S → R × S) (op : Op) (s : S) : Event Op R S :=
  ⟨op, s, (step op s).1, (step op s).2⟩

/-- What happens when operations are run one after another. -/
def history (step : Op → S → R × S) : S → List Op → List (Event Op R S)
  | _, [] => []
  | s, op :: ops => eventAt step op s :: history step (step op s).2 ops

/-- Where operations lead when they are run one after another. -/
def final (step : Op → S → R × S) : S → List Op → S
  | s, [] => s
  | s, op :: ops => final step (step op s).2 ops

variable (step : Op → S → R × S)

@[simp] theorem history_nil (s : S) : history step s [] = [] := rfl

@[simp] theorem history_cons (s : S) (op : Op) (ops : List Op) :
    history step s (op :: ops) = eventAt step op s :: history step (step op s).2 ops := rfl

@[simp] theorem final_nil (s : S) : final step s [] = s := rfl

@[simp] theorem final_cons (s : S) (op : Op) (ops : List Op) :
    final step s (op :: ops) = final step (step op s).2 ops := rfl

theorem history_append (s : S) (ops₁ ops₂ : List Op) :
    history step s (ops₁ ++ ops₂)
      = history step s ops₁ ++ history step (final step s ops₁) ops₂ := by
  induction ops₁ generalizing s with
  | nil => rfl
  | cons op ops ih => exact congrArg (eventAt step op s :: ·) (ih _)

theorem final_append (s : S) (ops₁ ops₂ : List Op) :
    final step s (ops₁ ++ ops₂) = final step (final step s ops₁) ops₂ := by
  induction ops₁ generalizing s with
  | nil => rfl
  | cons op ops ih => exact ih _

/-- Every event of a history is what its operation makes of its state. -/
theorem eventAt_of_mem {s : S} {ops : List Op} {e : Event Op R S} (h : e ∈ history step s ops) :
    e = eventAt step e.op e.before := by
  induction ops generalizing s with
  | nil => exact absurd h List.not_mem_nil
  | cons op ops ih =>
      rcases List.mem_cons.mp h with rfl | h
      · rfl
      · exact ih h

/-- The operations of a history's events are those that were run. -/
theorem op_mem_of_mem {s : S} {ops : List Op} {e : Event Op R S} (h : e ∈ history step s ops) :
    e.op ∈ ops := by
  induction ops generalizing s with
  | nil => exact absurd h List.not_mem_nil
  | cons op ops ih =>
      rcases List.mem_cons.mp h with rfl | h
      · exact List.mem_cons_self
      · exact List.mem_cons_of_mem _ (ih h)

/-- Cutting a history in two cuts its operations in two. -/
theorem history_split {s : S} {ops : List Op} {pre post : List (Event Op R S)}
    (h : history step s ops = pre ++ post) :
    ∃ ops₁ ops₂, ops = ops₁ ++ ops₂ ∧ history step s ops₁ = pre ∧
      history step (final step s ops₁) ops₂ = post := by
  induction pre generalizing s ops with
  | nil => exact ⟨[], ops, rfl, rfl, h⟩
  | cons e pre ih =>
      cases ops with
      | nil => exact absurd h (by simp only [history_nil, List.cons_append, reduceCtorEq,
          not_false_eq_true])
      | cons op ops =>
          rw [history_cons, List.cons_append, List.cons.injEq] at h
          rcases ih h.2 with ⟨ops₁, ops₂, rfl, hpre, hpost⟩
          refine ⟨op :: ops₁, ops₂, rfl, ?_, hpost⟩
          rw [history_cons, h.1, hpre]

/-- What comes after an event of a history is the history of the rest of its
    operations, from the state the event led to. -/
theorem history_cut {s : S} {ops : List Op} {pre post : List (Event Op R S)} {e : Event Op R S}
    (h : history step s ops = pre ++ e :: post) :
    e = eventAt step e.op e.before ∧ ∃ rest, post = history step e.after rest := by
  rcases history_split step h with ⟨ops₁, ops₂, _, _, hrest⟩
  cases ops₂ with
  | nil => cases hrest
  | cons op ops₂ =>
      rw [history_cons, List.cons.injEq] at hrest
      rcases hrest with ⟨rfl, rfl⟩
      exact ⟨rfl, ops₂, rfl⟩

/-- The induction over a history. `J` relates the events so far to the state
    they led to; each event keeps it, given what the run assumes about that
    event. It then holds at the end and before every event. -/
theorem history_rule {J : List (Event Op R S) → S → Prop}
    {A : List (Event Op R S) → Event Op R S → Prop}
    (hstep : ∀ pre op s, J pre s → A pre (eventAt step op s) →
      J (pre ++ [eventAt step op s]) (step op s).2)
    {pre₀ : List (Event Op R S)} {s : S} {ops : List Op} (h0 : J pre₀ s)
    (hA : ∀ pre e post, history step s ops = pre ++ e :: post → A (pre₀ ++ pre) e) :
    J (pre₀ ++ history step s ops) (final step s ops) ∧
      ∀ pre e post, history step s ops = pre ++ e :: post → J (pre₀ ++ pre) e.before := by
  induction ops generalizing pre₀ s with
  | nil =>
      refine ⟨by rwa [history_nil, List.append_nil], fun pre e post h => ?_⟩
      exact absurd h.symm (by simp only [history_nil, List.append_eq_nil_iff, reduceCtorEq,
        and_false, not_false_eq_true])
  | cons op ops ih =>
      have hfirst : A pre₀ (eventAt step op s) := by
        have := hA [] _ _ (history_cons step s op ops)
        rwa [List.append_nil] at this
      -- The rest starts after the first event, which is then in its past.
      have hrest := ih (hstep _ _ _ h0 hfirst) (fun pre e post h => by
        have := hA (eventAt step op s :: pre) e post (by rw [history_cons, h]; rfl)
        rwa [List.append_assoc])
      refine ⟨?_, fun pre e post h => ?_⟩
      · rw [history_cons, List.append_cons]
        exact hrest.1
      · cases pre with
        | nil =>
            rw [history_cons, List.nil_append, List.cons.injEq] at h
            rw [List.append_nil, ← h.1]
            exact h0
        | cons e' pre =>
            rw [history_cons, List.cons_append, List.cons.injEq] at h
            have := hrest.2 pre e post h.2
            rwa [h.1, List.append_assoc] at this

/-- An invariant of the present alone, given what is assumed of each event. -/
theorem history_invariant {P : S → Prop} {A : Event Op R S → Prop}
    (hstep : ∀ op s, P s → A (eventAt step op s) → P (step op s).2)
    {s : S} {ops : List Op} (h0 : P s) (hA : ∀ e ∈ history step s ops, A e) :
    P (final step s ops) ∧ ∀ e ∈ history step s ops, P e.before := by
  have h := @history_rule _ _ _ step (fun _ s => P s) (fun _ e => A e)
    (fun _ op s hs he => hstep op s hs he) [] s ops h0
    (fun pre e post heq => hA e (heq ▸ List.mem_append_right _ List.mem_cons_self))
  refine ⟨h.1, fun e he => ?_⟩
  rcases List.append_of_mem he with ⟨pre, post, hsplit⟩
  exact h.2 pre e post hsplit

end Async
