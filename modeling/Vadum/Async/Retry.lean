import Vadum.Async.Process

/-!
# Trying Again

A process that may fail for a passing reason is run again after a pause, up to
a number of times. `again` says which exceptions are passing ones; any other
ends it at once. The pauses may depend on how many attempts were made.

A retried process has the contract of one attempt, as long as the pauses keep
what an attempt needs.

## Main definitions

* `Process.retry`: A process run again after a passing failure.

## Theorems

* `obeys_retry`: Its contract, from that of one attempt.
-/

namespace Async

namespace Process

variable {I : Interface} {σ ε α : Type}

/-- Run a process. Where it fails for a passing reason, pause and run it again,
    at most `n` times. The first attempt counts as number `k`. -/
def retry (again : ε → Bool) (pause : Nat → Process I σ ε Unit) (p : Process I σ ε α) :
    Nat → Nat → Process I σ ε α
  | _, 0 => p
  | k, n + 1 => tryCatch p fun e =>
    if again e then pause k >>= fun _ => retry again pause p (k + 1) n else fail e

variable (again : ε → Bool) (pause : Nat → Process I σ ε Unit) (p : Process I σ ε α)

/-- The contract of one attempt, and pauses that keep what an attempt needs, are
    the contract of all of them. -/
theorem obeys_retry {P : List (Act I σ ε) → σ → Prop} {G : List (Act I σ ε) → σ → σ → Prop}
    {R : List (Act I σ ε) → σ → I.Req → Prop} {Q : List (Act I σ ε) → σ → Except ε α → Prop}
    (hp : ∀ past s, P past s →
      p.Obeys G R (fun past s x => Q past s x ∧ ∀ e, x = .error e → P past s) past s)
    (hpause : ∀ k past s, P past s →
      (pause k).Obeys G R (fun past s x => match x with
        | .ok _ => P past s
        | .error e => Q past s (.error e)) past s)
    (k n : Nat) {past : List (Act I σ ε)} {s : σ} (h : P past s) :
    (retry again pause p k n).Obeys G R Q past s := by
  induction n generalizing k past s with
  | zero =>
      exact obeys_mono (fun _ _ _ h => h) (fun _ _ _ h => h) (fun _ _ _ h => h.1) (hp past s h)
  | succ n ih =>
      refine obeys_tryCatch (obeys_mono (fun _ _ _ h => h) (fun _ _ _ h => h)
        (fun past' s' x hx => ?_) (hp past s h))
      rcases x with e | a
      · simp only
        split
        · refine obeys_bind (obeys_mono (fun _ _ _ h => h) (fun _ _ _ h => h)
            (fun past'' s'' y hy => ?_) (hpause k past' s' (hx.2 e rfl)))
          rcases y with e' | _
          · exact hy
          · exact ih (k + 1) hy
        · exact hx.1
      · exact hx.1

end Process

end Async
