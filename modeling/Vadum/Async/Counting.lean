import Vadum.Async.Retry

/-!
# Counting Requests

How often a process asks for something, at most and whatever it is answered.
`AtMost q n` is read off the process: along every way through it there are no
more than `n` requests that `q` picks. Sequences and guards add their bounds
up, and trying again multiplies.

## Main definitions

* `Process.AtMost`: No more than so many requests of a kind.

## Theorems

* `atMost_mono`: A larger bound.
* `atMost_bind`, `atMost_tryCatch`, `atMost_retry`: The bound of a whole, from
  its parts.
* `countP_requests`: What it says of a run.
-/

namespace Async

namespace Process

variable {I : Interface} {σ ε ω α β : Type}

/-- However its reads and its requests turn out, a process makes no more than
    `n` of the requests that `q` picks. -/
def AtMost (q : I.Req → Bool) : Nat → Process I σ ε α → Prop
  | _, done _ => True
  | _, fail _ => True
  | n, get k => ∀ s, (k s).AtMost q n
  | n, put _ k => k.AtMost q n
  | n, await r k =>
    if q r then ∃ m, n = m + 1 ∧ ∀ a, (k a).AtMost q m else ∀ a, (k a).AtMost q n

variable {q : I.Req → Bool}

theorem atMost_mono {m n : Nat} (hmn : m ≤ n) {p : Process I σ ε α} (h : AtMost q m p) :
    AtMost q n p := by
  induction p generalizing m n with
  | done a => trivial
  | fail e => trivial
  | get k ih => exact fun s => ih s hmn (h s)
  | put s k ih => exact ih hmn h
  | await r k ih =>
      rw [AtMost] at h ⊢
      by_cases hq : q r = true
      · rw [if_pos hq] at h ⊢
        rcases h with ⟨m', rfl, h⟩
        rcases Nat.exists_eq_add_of_le hmn with ⟨d, rfl⟩
        exact ⟨m' + d, by omega, fun a => ih a (Nat.le_add_right m' d) (h a)⟩
      · rw [if_neg hq] at h ⊢
        exact fun a => ih a hmn (h a)

theorem atMost_pure (a : α) : AtMost q 0 (pure a : Process I σ ε α) := trivial

theorem atMost_throw (e : ε) : AtMost q 0 (throw e : Process I σ ε α) := trivial

/-- A request counts for one. -/
theorem atMost_request (r : I.Req) : AtMost q 1 (request r : Process I σ ε (I.Ans r)) := by
  rw [request, AtMost]
  split
  · exact ⟨0, rfl, fun a => by cases a <;> trivial⟩
  · exact fun a => by cases a <;> trivial

/-- One that is not picked counts for none. -/
theorem atMost_request_free {r : I.Req} (h : q r = false) :
    AtMost q 0 (request r : Process I σ ε (I.Ans r)) := by
  rw [request, AtMost, h]
  exact fun a => by cases a <;> trivial

theorem atMost_bind {m n : Nat} {p : Process I σ ε α} {f : α → Process I σ ε β}
    (hp : AtMost q m p) (hf : ∀ a, AtMost q n (f a)) : AtMost q (m + n) (p >>= f) := by
  change AtMost q (m + n) (p.bind f)
  induction p generalizing m with
  | done a => exact atMost_mono (Nat.le_add_left n m) (hf a)
  | fail e => trivial
  | get k ih => exact fun s => ih s (hp s)
  | put s k ih => exact ih hp
  | await r k ih =>
      rw [AtMost] at hp
      rw [Process.bind, AtMost]
      by_cases hq : q r = true
      · rw [if_pos hq] at hp ⊢
        rcases hp with ⟨m', rfl, hp⟩
        exact ⟨m' + n, by omega, fun a => ih a (hp a)⟩
      · rw [if_neg hq] at hp ⊢
        exact fun a => ih a (hp a)

theorem atMost_tryCatch {m n : Nat} {p : Process I σ ε α} {h : ε → Process I σ ε α}
    (hp : AtMost q m p) (hh : ∀ e, AtMost q n (h e)) : AtMost q (m + n) (tryCatch p h) := by
  induction p generalizing m with
  | done a => trivial
  | fail e => exact atMost_mono (Nat.le_add_left n m) (hh e)
  | get k ih => exact fun s => ih s (hp s)
  | put s k ih => exact ih hp
  | await r k ih =>
      rw [AtMost] at hp
      rw [tryCatch, AtMost]
      by_cases hq : q r = true
      · rw [if_pos hq] at hp ⊢
        rcases hp with ⟨m', rfl, hp⟩
        exact ⟨m' + n, by omega, fun a => ih a (hp a)⟩
      · rw [if_neg hq] at hp ⊢
        exact fun a => ih a (hp a)

/-- A process that is tried `n` times more counts so many times more. -/
theorem atMost_retry {again : ε → Bool} {pause : Nat → Process I σ ε Unit} {c : Nat}
    {p : Process I σ ε α} (hp : AtMost q c p) (hpause : ∀ k, AtMost q 0 (pause k)) (k n : Nat) :
    AtMost q ((n + 1) * c) (retry again pause p k n) := by
  induction n generalizing k with
  | zero => exact atMost_mono (by omega) hp
  | succ n ih =>
      have hmul : (n + 1 + 1) * c = c + (n + 1) * c := by rw [Nat.succ_mul, Nat.add_comm]
      rw [hmul]
      refine atMost_tryCatch hp fun e => ?_
      split
      · exact atMost_mono (by omega) (atMost_bind (hpause k) fun _ => ih (k + 1))
      · trivial

/-- A run makes no more of them. -/
theorem countP_requests (reply : Reply I ε ω) {n : Nat} {p : Process I σ ε α}
    (h : AtMost q n p) (s : σ) (w : ω) :
    (requests reply p s w).countP (fun entry => q entry.1) ≤ n := by
  induction p generalizing n s w with
  | done a => exact Nat.zero_le n
  | fail e => exact Nat.zero_le n
  | get k ih => exact ih s (h s) s w
  | put s' k ih => exact ih h s' w
  | await r k ih =>
      rw [AtMost] at h
      rw [requests, List.countP_cons]
      by_cases hq : q r = true
      · rw [if_pos hq] at h
        rcases h with ⟨m, rfl, h⟩
        have hrest := ih _ (h (reply r w).1) s (reply r w).2
        simp only [hq, if_true]
        omega
      · rw [if_neg hq] at h
        have hrest := ih _ (h (reply r w).1) s (reply r w).2
        simp only [hq, Bool.false_eq_true, if_false]
        omega

end Process

end Async
