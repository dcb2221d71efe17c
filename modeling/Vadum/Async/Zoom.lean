import Vadum.Async.Process

/-!
# A Process Over a Part

An object may be made of others, and its code calls theirs. `Lens` is a part of
some variables, and `zoom` runs a process over the part inside the whole: what
it reads and writes is the part, and the rest stays as it is.

## Main definitions

* `Lens`: A part of the variables.
* `Process.zoom`: A process over a part, as one over the whole.

## Theorems

* `run_zoom`: It does to the part what it does alone, and leaves the rest.
* `requests_zoom`, `asks_zoom`: It asks for the same.
-/

namespace Async

/-- A part of some variables, which can be read and replaced. -/
structure Lens (σ τ : Type) where
  get : σ → τ
  set : τ → σ → σ
  get_set : ∀ t s, get (set t s) = t
  set_get : ∀ s, set (get s) s = s
  set_set : ∀ t t' s, set t (set t' s) = set t s

attribute [simp] Lens.get_set Lens.set_get Lens.set_set

namespace Process

variable {I : Interface} {σ τ ε ω α β : Type} (part : Lens σ τ)

/-- Run a process over a part of the variables. -/
def zoom : Process I τ ε α → Process I σ ε α
  | done a => done a
  | fail e => fail e
  | get k => .get fun s => (k (part.get s)).zoom
  | put t k => .get fun s => .put (part.set t s) k.zoom
  | await r k => await r fun a => (k a).zoom

/-- It does to the part what it does alone, and leaves the rest. -/
@[simp] theorem run_zoom (reply : Reply I ε ω) (p : Process I τ ε α) (s : σ) (w : ω) :
    run reply (zoom part p) s w = ⟨(run reply p (part.get s) w).result,
      part.set (run reply p (part.get s) w).vars s, (run reply p (part.get s) w).world⟩ := by
  induction p generalizing s w with
  | done a => simp only [zoom, run, Lens.set_get]
  | fail e => simp only [zoom, run, Lens.set_get]
  | get k ih => exact ih (part.get s) s w
  | put t k ih =>
      rw [zoom, run, run, run, ih, Lens.get_set, Lens.set_set]
  | await r k ih => exact ih _ s _

/-- It asks for the same. -/
@[simp] theorem requests_zoom (reply : Reply I ε ω) (p : Process I τ ε α) (s : σ) (w : ω) :
    requests reply (zoom part p) s w = requests reply p (part.get s) w := by
  induction p generalizing s w with
  | done a => rfl
  | fail e => rfl
  | get k ih => exact ih (part.get s) s w
  | put t k ih =>
      rw [zoom, requests, requests, requests, ih, Lens.get_set]
  | await r k ih => exact congrArg ((r, w) :: ·) (ih _ s _)

/-- So it asks for nothing that it does not ask for alone. -/
theorem asks_zoom {R : I.Req → Prop} {p : Process I τ ε α} (hp : Asks R p) :
    Asks R (zoom part p) := by
  have hobeys : ∀ past past' s,
      p.Obeys (fun _ _ _ => True) (fun _ _ r => R r) (fun _ _ _ => True) past (part.get s) →
      (zoom part p).Obeys (fun _ _ _ => True) (fun _ _ r => R r) (fun _ _ _ => True) past' s := by
    clear hp
    induction p with
    | done a => exact fun _ _ _ _ => trivial
    | fail e => exact fun _ _ _ _ => trivial
    | get k ih => exact fun past past' s h s' => ih (part.get s') past past' s' (h (part.get s'))
    | put t k ih =>
        refine fun past past' s h s' => ⟨trivial, ?_⟩
        refine ih (past ++ [.wrote (part.get s) t]) _ (part.set t s') ?_
        rw [Lens.get_set]
        exact h.2
    | await r k ih => exact fun past past' s h => ⟨h.1, fun a => ih a _ _ s (h.2 a)⟩
  exact fun past s => hobeys [] past s (hp [] (part.get s))

end Process

end Async
