import Vadum.Async.Alike
import Vadum.Async.Zoom

/-!
# Invariants of Variables and Outside

The simplest thing to say of code that runs is that it upholds something: what
held of the variables and of the outside before holds after, however it ends. A
value it returns has to meet a condition as well, or nothing could be said of
what is done with it, and so has each request it makes.

`Upholds` says so for an invariant `M` of the variables and an invariant `K` of
the outside. The two are apart, so that a write is judged by what is written and
a request by what it is answered.

## Main definitions

* `Process.Upheld`: What one run has kept, asked for and returned.
* `Process.Upholds`: The same of every run that starts well.

## Theorems

* `upholds_bind`, `upholds_tryCatch`: What the parts uphold, the whole does.
* `upholds_zoom`: What is upheld of a part is upheld of the whole.
-/

namespace Async.Process

variable {I : Interface} {σ τ ε ω α β : Type} (reply : Reply I ε ω)

/-- What holds of the variables and of the outside still holds at the end, what
    was asked for was allowed, and what is returned meets a condition. -/
structure Upheld (M : σ → Prop) (K : ω → Prop) (A : I.Req → Prop) (p : Process I σ ε α)
    (R : α → Prop) (s : σ) (w : ω) : Prop where
  vars : M (run reply p s w).vars
  world : K (run reply p s w).world
  asked : ∀ r w', (r, w') ∈ requests reply p s w → A r
  result : ∀ a, (run reply p s w).result = .ok a → R a

def Upholds (M : σ → Prop) (K : ω → Prop) (A : I.Req → Prop) (p : Process I σ ε α)
    (R : α → Prop) : Prop :=
  ∀ s w, M s → K w → Upheld reply M K A p R s w

section Rules

variable {reply} {M : σ → Prop} {K : ω → Prop} {A : I.Req → Prop} {R R' : α → Prop}
  {Q : β → Prop}

theorem upholds_pure {a : α} (h : R a) : Upholds reply M K A (pure a : Process I σ ε α) R :=
  fun _ _ hM hK => ⟨hM, hK, fun _ _ h => absurd h List.not_mem_nil,
    fun _ ha => Except.ok.inj ha ▸ h⟩

theorem upholds_throw (e : ε) : Upholds reply M K A (throw e : Process I σ ε α) R :=
  fun _ _ hM hK => ⟨hM, hK, fun _ _ h => absurd h List.not_mem_nil, fun _ ha => nomatch ha⟩

theorem upholds_ofResult {x : Except ε α} (h : ∀ a, x = .ok a → R a) :
    Upholds reply M K A (ofResult x : Process I σ ε α) R := by
  cases x with
  | ok a => exact upholds_pure (h a rfl)
  | error e => exact upholds_throw e

theorem upholds_read : Upholds reply M K A (read : Process I σ ε σ) M :=
  fun _ _ hM hK => ⟨hM, hK, fun _ _ h => absurd h List.not_mem_nil,
    fun _ ha => Except.ok.inj ha ▸ hM⟩

theorem upholds_write {s : σ} (h : M s) {R : Unit → Prop} (hR : R ()) :
    Upholds reply M K A (write s : Process I σ ε Unit) R :=
  fun _ _ _ hK => ⟨h, hK, fun _ _ h => absurd h List.not_mem_nil, fun _ _ => hR⟩

/-- A request is judged by what it leaves of the outside and what it is answered. -/
theorem upholds_request {r : I.Req} {R : I.Ans r → Prop} (hA : A r)
    (h : ∀ w, K w → K (reply r w).2 ∧ ∀ a, (reply r w).1 = .ok a → R a) :
    Upholds reply M K A (request r : Process I σ ε (I.Ans r)) R := fun s w hM hK => by
  constructor
  · rw [run_request]
    exact hM
  · rw [run_request]
    exact (h w hK).1
  · intro r' w' hr
    rw [requests_request] at hr
    rw [(Prod.mk.inj (List.mem_singleton.mp hr)).1]
    exact hA
  · rw [run_request]
    exact (h w hK).2

theorem upholds_bind {p : Process I σ ε α} {f : α → Process I σ ε β}
    (hp : Upholds reply M K A p R) (hf : ∀ a, R a → Upholds reply M K A (f a) Q) :
    Upholds reply M K A (p >>= f) Q := fun s w hM hK => by
  rcases hp s w hM hK with ⟨hM', hK', hA, hR⟩
  have hrequests := requests_bind reply p f s w
  rcases hresult : run reply p s w with ⟨e | a, s', w'⟩
  · rw [hresult] at hM' hK' hrequests
    rw [List.append_nil] at hrequests
    refine ⟨?_, ?_, hrequests ▸ hA, ?_⟩
    · rw [run_bind_error reply hresult]
      exact hM'
    · rw [run_bind_error reply hresult]
      exact hK'
    · rw [run_bind_error reply hresult]
      exact fun _ ha => nomatch ha
  · rw [hresult] at hM' hK' hR hrequests
    have hrest := hf a (hR a rfl) s' w' hM' hK'
    refine ⟨?_, ?_, fun r w'' hr => ?_, ?_⟩
    · rw [run_bind_ok reply hresult]
      exact hrest.vars
    · rw [run_bind_ok reply hresult]
      exact hrest.world
    · rw [hrequests] at hr
      exact (List.mem_append.mp hr).elim (hA r w'') (hrest.asked r w'')
    · rw [run_bind_ok reply hresult]
      exact hrest.result

theorem upholds_map {p : Process I σ ε α} {f : α → β} (hp : Upholds reply M K A p R)
    (h : ∀ a, R a → Q (f a)) : Upholds reply M K A (f <$> p) Q :=
  upholds_bind hp fun a ha => upholds_pure (h a ha)

theorem upholds_tryCatch {p : Process I σ ε α} {c : ε → Process I σ ε α}
    (hp : Upholds reply M K A p R) (hc : ∀ e, Upholds reply M K A (c e) R) :
    Upholds reply M K A (tryCatch p c) R := fun s w hM hK => by
  rcases hp s w hM hK with ⟨hM', hK', hA, hR⟩
  have hrequests := requests_tryCatch reply p c s w
  rcases hresult : run reply p s w with ⟨e | a, s', w'⟩
  · rw [hresult] at hM' hK' hrequests
    have hrest := hc e s' w' hM' hK'
    have hrun : run reply (tryCatch p c) s w = run reply (c e) s' w' := by
      rw [run_tryCatch, hresult]
    refine ⟨hrun ▸ hrest.vars, hrun ▸ hrest.world, fun r w'' hr => ?_, hrun ▸ hrest.result⟩
    rw [hrequests] at hr
    exact (List.mem_append.mp hr).elim (hA r w'') (hrest.asked r w'')
  · rw [hresult] at hM' hK' hR hrequests
    rw [List.append_nil] at hrequests
    have hrun : run reply (tryCatch p c) s w = ⟨.ok a, s', w'⟩ := by
      rw [run_tryCatch, hresult]
    exact ⟨hrun ▸ hM', hrun ▸ hK', hrequests ▸ hA, hrun ▸ hR⟩

theorem upholds_forM {p : α → Process I σ ε Unit} {as : List α} {R : Unit → Prop} (hR : R ())
    (h : ∀ a ∈ as, Upholds reply M K A (p a) R) : Upholds reply M K A (as.forM p) R := by
  induction as with
  | nil => exact upholds_pure hR
  | cons a as ih =>
      exact upholds_bind (h a List.mem_cons_self) fun _ _ =>
        ih fun a' ha' => h a' (List.mem_cons_of_mem a ha')

/-- Code without variables upholds what its requests do. -/
theorem upholds_stateless {p : Process I σ ε α} (hp : p.Stateless A)
    (h : ∀ r w, A r → K w → K (reply r w).2) : Upholds reply M K A p fun _ => True :=
  fun s w hM hK => by
    rcases run_stateless reply (fun r w' => h r w') hp hK with ⟨x, w', hK', hrun⟩
    have hasked : ∀ r w', (r, w') ∈ requests reply p s w → A r := fun r w' hr =>
      asks_requests reply (asks_stateless hp) hr
    exact ⟨(hrun s).symm ▸ hM, (hrun s).symm ▸ hK', hasked, fun _ _ => trivial⟩

/-- A part upholds its invariant, and so the whole one that asks it of the part. -/
theorem upholds_zoom {part : Lens σ τ} {N : τ → Prop} {p : Process I τ ε α}
    (hp : Upholds reply N K A p R) (hget : ∀ s, M s → N (part.get s))
    (hset : ∀ s t, M s → N t → M (part.set t s)) :
    Upholds reply M K A (zoom part p) R := fun s w hM hK => by
  rcases hp (part.get s) w (hget s hM) hK with ⟨hN, hK', hA, hR⟩
  have hrun := run_zoom part reply p s w
  exact ⟨hrun ▸ hset s _ hM hN, hrun ▸ hK', (requests_zoom part reply p s w).symm ▸ hA,
    hrun ▸ hR⟩

end Rules

end Async.Process
