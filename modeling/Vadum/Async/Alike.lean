import Vadum.Async.History
import Vadum.Async.Process

/-!
# Processes That Are Alike

The same code run over different variables. Two processes are alike for a
relation of variables if, from related variables and the same outside, they
come to the same result, leave the same outside, and related variables again.
It is proved piece by piece: where a process reads, its continuations have to
be alike for what related variables tell them, and where it writes, related
variables have to be written. The relation may look at the outside, for
variables that stand for something kept there.

A process that neither reads nor writes is `Stateless`. It does not depend on
the variables it is run with, and is alike to itself for every relation its
requests keep.

`history_alike` says the same of a whole history: operations that are alike
give the same results however many of them follow.

## Main definitions

* `Stateless`: A process that neither reads nor writes.
* `Alike`: The same result from related variables.

## Theorems

* `run_stateless`: A stateless process leaves the variables and does not depend
  on them.
* `run_congr`: A run depends on the answers it is given and on no others.
* `alike_bind`, `alike_tryCatch`, `alike_read`: What is alike in its parts.
* `history_alike`: The same results throughout.
-/

namespace Async

namespace Process

variable {I : Interface} {σ τ ε ω α β : Type}

/-- A process that neither reads nor writes, and asks only for what `R`
    allows. -/
def Stateless (R : I.Req → Prop) : Process I σ ε α → Prop
  | done _ => True
  | fail _ => True
  | get _ => False
  | put _ _ => False
  | await r k => R r ∧ ∀ a, (k a).Stateless R

section Stateless

variable {R : I.Req → Prop}

theorem stateless_pure (a : α) : Stateless R (pure a : Process I σ ε α) := trivial

theorem stateless_throw (e : ε) : Stateless R (throw e : Process I σ ε α) := trivial

theorem stateless_ofResult (x : Except ε α) : Stateless R (ofResult x : Process I σ ε α) := by
  cases x <;> trivial

theorem stateless_request {r : I.Req} (hr : R r) :
    Stateless R (request r : Process I σ ε (I.Ans r)) :=
  ⟨hr, fun a => by cases a <;> trivial⟩

theorem stateless_bind {p : Process I σ ε α} {f : α → Process I σ ε β} (hp : Stateless R p)
    (hf : ∀ a, Stateless R (f a)) : Stateless R (p >>= f) := by
  change Stateless R (p.bind f)
  induction p with
  | done a => exact hf a
  | fail e => trivial
  | get k _ => exact hp.elim
  | put s k _ => exact hp.elim
  | await r k ih => exact ⟨hp.1, fun a => ih a (hp.2 a)⟩

theorem stateless_tryCatch {p : Process I σ ε α} {h : ε → Process I σ ε α} (hp : Stateless R p)
    (hh : ∀ e, Stateless R (h e)) : Stateless R (tryCatch p h) := by
  induction p with
  | done a => trivial
  | fail e => exact hh e
  | get k _ => exact hp.elim
  | put s k _ => exact hp.elim
  | await r k ih => exact ⟨hp.1, fun a => ih a (hp.2 a)⟩

/-- It writes nothing, and asks for what it may. -/
theorem obeys_stateless {p : Process I σ ε α} (hp : Stateless R p) (past : List (Act I σ ε))
    (s : σ) :
    p.Obeys (fun _ _ _ => False) (fun _ _ r => R r) (fun _ _ _ => True) past s := by
  induction p generalizing past with
  | done a => trivial
  | fail e => trivial
  | get k _ => exact hp.elim
  | put s k _ => exact hp.elim
  | await r k ih => exact ⟨hp.1, fun a => ih a (hp.2 a) _⟩

theorem asks_stateless {p : Process I σ ε α} (hp : Stateless R p) : Asks R p := fun past s =>
  obeys_mono (fun _ _ _ _ => trivial) (fun _ _ _ h => h) (fun _ _ _ h => h)
    (obeys_stateless hp past s)

/-- What it comes to does not depend on the variables, and leaves them as they
    are; what its requests keep of the outside, it keeps. -/
theorem run_stateless (reply : Reply I ε ω) {J : ω → Prop}
    (hJ : ∀ r w, R r → J w → J (reply r w).2) {p : Process I σ ε α} (hp : Stateless R p) {w : ω}
    (h : J w) : ∃ x w', J w' ∧ ∀ s, run reply p s w = ⟨x, s, w'⟩ := by
  induction p generalizing w with
  | done a => exact ⟨.ok a, w, h, fun _ => rfl⟩
  | fail e => exact ⟨.error e, w, h, fun _ => rfl⟩
  | get k _ => exact hp.elim
  | put s k _ => exact hp.elim
  | await r k ih => exact ih _ (hp.2 _) (hJ r w hp.1 h)

end Stateless

/-- A run depends on the answers it is given and on no others. -/
theorem run_congr {reply reply' : Reply I ε ω} {p : Process I σ ε α} {s : σ} {w : ω}
    (h : ∀ entry ∈ requests reply p s w, reply entry.1 entry.2 = reply' entry.1 entry.2) :
    run reply p s w = run reply' p s w := by
  induction p generalizing s w with
  | done a => rfl
  | fail e => rfl
  | get k ih => exact ih s h
  | put s' k ih => exact ih h
  | await r k ih =>
      rw [run, run, ← h (r, w) List.mem_cons_self]
      exact ih _ fun entry hentry => h entry (List.mem_cons_of_mem _ hentry)

/-- From variables that stand in the relation, and the same outside, both come to
    the same result and to related variables again. -/
def Alike (reply : Reply I ε ω) (R : ω → σ → τ → Prop) (p : Process I σ ε α)
    (q : Process I τ ε α) : Prop :=
  ∀ s t w, R w s t → ∃ x s' t' w', run reply p s w = ⟨x, s', w'⟩ ∧ run reply q t w = ⟨x, t', w'⟩ ∧
    R w' s' t'

section Alike

variable {reply : Reply I ε ω} {R : ω → σ → τ → Prop}

theorem alike_pure (a : α) : Alike reply R (pure a) (pure a) := fun s t w h =>
  ⟨_, s, t, w, rfl, rfl, h⟩

theorem alike_throw (e : ε) :
    Alike reply R (throw e : Process I σ ε α) (throw e : Process I τ ε α) := fun s t w h =>
  ⟨_, s, t, w, rfl, rfl, h⟩

theorem alike_ofResult (x : Except ε α) : Alike reply R (ofResult x) (ofResult x) :=
  fun s t w h => ⟨x, s, t, w, run_ofResult reply x s w, run_ofResult reply x t w, h⟩

theorem alike_request {r : I.Req} (hr : ∀ w s t, R w s t → R (reply r w).2 s t) :
    Alike reply R (request r) (request r) := fun s t w h =>
  ⟨_, s, t, _, run_request reply r s w, run_request reply r t w, hr w s t h⟩

theorem alike_write {s : σ} {t : τ} (h : ∀ w s' t', R w s' t' → R w s t) :
    Alike reply R (write s) (write t) := fun s' t' w hs =>
  ⟨.ok (), s, t, w, rfl, rfl, h w s' t' hs⟩

theorem alike_bind {p : Process I σ ε α} {q : Process I τ ε α} {f : α → Process I σ ε β}
    {g : α → Process I τ ε β} (hp : Alike reply R p q) (hf : ∀ a, Alike reply R (f a) (g a)) :
    Alike reply R (p >>= f) (q >>= g) := fun s t w h => by
  rcases hp s t w h with ⟨e | a, s', t', w', hrun, hrun', h'⟩
  · exact ⟨.error e, s', t', w', run_bind_error _ hrun, run_bind_error _ hrun', h'⟩
  · rcases hf a s' t' w' h' with ⟨x, s'', t'', w'', hrest, hrest', h''⟩
    exact ⟨x, s'', t'', w'', (run_bind_ok _ hrun).trans hrest, (run_bind_ok _ hrun').trans hrest',
      h''⟩

theorem alike_map {p : Process I σ ε α} {q : Process I τ ε α} (f : α → β)
    (hp : Alike reply R p q) : Alike reply R (f <$> p) (f <$> q) :=
  alike_bind hp fun a => alike_pure (f a)

/-- What is read may differ; what is made of it has to be alike. -/
theorem alike_read {f : σ → Process I σ ε α} {g : τ → Process I τ ε α}
    (h : ∀ w s t, R w s t → Alike reply R (f s) (g t)) :
    Alike reply R (read >>= f) (read >>= g) := fun s t w hs =>
  h w s t hs s t w hs

theorem alike_tryCatch {p : Process I σ ε α} {q : Process I τ ε α} {c : ε → Process I σ ε α}
    {d : ε → Process I τ ε α} (hp : Alike reply R p q) (hc : ∀ e, Alike reply R (c e) (d e)) :
    Alike reply R (tryCatch p c) (tryCatch q d) := fun s t w h => by
  rcases hp s t w h with ⟨e | a, s', t', w', hrun, hrun', h'⟩
  · rcases hc e s' t' w' h' with ⟨x, s'', t'', w'', hrest, hrest', h''⟩
    exact ⟨x, s'', t'', w'', by rw [run_tryCatch, hrun]; exact hrest,
      by rw [run_tryCatch, hrun']; exact hrest', h''⟩
  · exact ⟨.ok a, s', t', w', by rw [run_tryCatch, hrun], by rw [run_tryCatch, hrun'], h'⟩

theorem alike_forM {items : List α} {f : α → Process I σ ε Unit} {g : α → Process I τ ε Unit}
    (h : ∀ a ∈ items, Alike reply R (f a) (g a)) : Alike reply R (items.forM f) (items.forM g) := by
  induction items with
  | nil => exact alike_pure ()
  | cons a items ih =>
      exact alike_bind (h a List.mem_cons_self) fun _ =>
        ih fun b hb => h b (List.mem_cons_of_mem _ hb)

/-- A stateless process is alike to itself for what its requests keep. -/
theorem alike_stateless {S : I.Req → Prop} {R : ω → σ → σ → Prop}
    (hS : ∀ r w s t, S r → R w s t → R (reply r w).2 s t) {p : Process I σ ε α}
    (hp : Stateless S p) : Alike reply R p p := fun s t w h => by
  rcases run_stateless reply (J := fun w => R w s t) (fun r w hr hw => hS r w s t hr hw) hp h with
    ⟨x, w', h', hrun⟩
  exact ⟨x, s, t, w', hrun s, hrun t, h'⟩

end Alike

end Process

/-- Operations that are alike for a relation of states give the same results in
    every history, and what related states show is the same after each of them. -/
theorem history_alike {Op R S T V : Type} {step : Op → S → R × S} {step' : Op → T → R × T}
    {Rel : S → T → Prop} {view : S → V} {view' : T → V}
    (hview : ∀ s t, Rel s t → view s = view' t)
    (hstep : ∀ op s t, Rel s t →
      (step op s).1 = (step' op t).1 ∧ Rel (step op s).2 (step' op t).2)
    {s : S} {t : T} (h : Rel s t) (ops : List Op) :
    (history step s ops).map (fun e => (e.result, view e.after))
      = (history step' t ops).map fun e => (e.result, view' e.after) := by
  induction ops generalizing s t with
  | nil => rfl
  | cons op ops ih =>
      rcases hstep op s t h with ⟨hresult, hafter⟩
      simp only [history_cons, List.map_cons, ih hafter, eventAt, hresult, hview _ _ hafter]

end Async
