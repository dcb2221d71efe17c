import Mathlib.Data.List.Nodup
import Vadum.Async.Process

/-!
# Interleaved Processes

Several processes over the same variables, as an object's async methods are
when they are called before the earlier calls have finished. A thread runs
alone from one `await` to the next. Between the two, its request is served and
other threads get their turn, in any order: a schedule is a list of `Choice`s,
and statements about every schedule are statements about every interleaving.

Every act goes to a common log, so the past of a thread is its part of the log,
and what happened between two acts can be asked.

What goes wrong is a thread writing over what it has not seen. `Process.Clean`
is the condition on a segment that rules it out, with a parameter for the
writes that do no harm, and `Orderly` extends it to a schedule, together with a
condition on the order in which requests are served. `orderly_rule` is the
induction over orderly schedules. It leaves three cases: a write, a request
made, a request served.

## Main definitions

* `Thread`, `Phase`: Where a process stands.
* `Process.settle`: One synchronous segment.
* `System`, `Choice`, `System.step`, `System.steps`: Threads and schedules.
* `pastOf`: The part of the log that is a thread's.
* `Process.Clean`, `Orderly`: Conditions on segments and schedules.
* `Sound`: Threads keep their contracts.

## Theorems

* `pastOf_split`: Cutting a thread's past cuts the log.
* `settle_rule`: What a segment does to an invariant.
* `step_rule`: What a step does.
* `orderly_rule`: What an orderly schedule does.
-/

namespace Async

/-- Where a process stands: about to run, waiting for an answer, or at its end. -/
inductive Phase (I : Interface) (σ ε α : Type) : Type where
  | ready (p : Process I σ ε α)
  | waiting (r : I.Req) (k : Except ε (I.Ans r) → Process I σ ε α)
  | ended (x : Except ε α)

/-- A process under way, and the variables as it last saw them. -/
structure Thread (I : Interface) (σ ε α : Type) where
  seen : σ
  phase : Phase I σ ε α

/-- Threads over common variables. -/
structure System (I : Interface) (σ ε ω α : Type) where
  vars : σ
  world : ω
  threads : List (Thread I σ ε α)
  /-- What has happened, by whom. -/
  log : List (Nat × Act I σ ε)
  /-- The requests not yet served, in the order they were made. -/
  queue : List (Nat × I.Req)

/-- What a synchronous segment does and leaves. -/
structure Segment (I : Interface) (σ ε α : Type) where
  acts : List (Act I σ ε)
  vars : σ
  thread : Thread I σ ε α

/-- What happens next: a thread runs to its next `await`, or its request is
    served. -/
inductive Choice where
  | resume (t : Nat)
  | serve (t : Nat)
deriving DecidableEq

variable {I : Interface} {σ ε ω α : Type}

namespace Process

/-- Run a process to its next `await`, from what it last saw and what is there. -/
def settle : Process I σ ε α → σ → σ → Segment I σ ε α
  | done a, seen, s => ⟨[], s, seen, .ended (.ok a)⟩
  | fail e, seen, s => ⟨[], s, seen, .ended (.error e)⟩
  | get k, _, s => (k s).settle s s
  | put s' k, seen, _ =>
    let rest := k.settle s' s'
    { rest with acts := .wrote seen s' :: rest.acts }
  | await r k, seen, s => ⟨[], s, seen, .waiting r k⟩

/-- Every write of a segment stands in this relation: what the process last
    saw, what is there, and what it writes. -/
def Clean (P : σ → σ → σ → Prop) : Process I σ ε α → σ → σ → Prop
  | done _, _, _ => True
  | fail _, _, _ => True
  | get k, _, s => (k s).Clean P s s
  | put s' k, seen, s => P seen s s' ∧ k.Clean P s' s'
  | await _ _, _, _ => True

instance decidableClean {P : σ → σ → σ → Prop} [∀ a b c, Decidable (P a b c)] :
    (p : Process I σ ε α) → (seen s : σ) → Decidable (p.Clean P seen s)
  | done _, _, _ => isTrue trivial
  | fail _, _, _ => isTrue trivial
  | get k, _, s => decidableClean (k s) s s
  | put s' k, seen, s =>
    have := decidableClean (P := P) k s' s'
    inferInstanceAs (Decidable (P seen s s' ∧ k.Clean P s' s'))
  | await _ _, _, _ => isTrue trivial

end Process

namespace System

variable (reply : Reply I ε ω)

/-- Give a thread its turn, or serve its request. A choice that does not apply
    changes nothing. -/
def step : Choice → System I σ ε ω α → System I σ ε ω α
  | .resume t, sys => match sys.threads[t]? with
    | some ⟨seen, .ready p⟩ =>
      let segment := p.settle seen sys.vars
      { vars := segment.vars
        world := sys.world
        threads := sys.threads.set t segment.thread
        log := sys.log ++ segment.acts.map fun act => (t, act)
        queue := match segment.thread.phase with
          | .waiting r _ => sys.queue ++ [(t, r)]
          | _ => sys.queue }
    | _ => sys
  | .serve t, sys => match sys.threads[t]? with
    | some ⟨seen, .waiting r k⟩ =>
      { vars := sys.vars
        world := (reply r sys.world).2
        threads := sys.threads.set t ⟨seen, .ready (k (reply r sys.world).1)⟩
        log := sys.log ++ [(t, .asked r (reply r sys.world).1)]
        queue := sys.queue.filter fun entry => entry.1 ≠ t }
    | _ => sys

/-- A thread's turn. -/
theorem step_resume {sys : System I σ ε ω α} {t : Nat} {seen : σ} {p : Process I σ ε α}
    (h : sys.threads[t]? = some ⟨seen, .ready p⟩) : sys.step reply (.resume t) =
      { vars := (p.settle seen sys.vars).vars
        world := sys.world
        threads := sys.threads.set t (p.settle seen sys.vars).thread
        log := sys.log ++ (p.settle seen sys.vars).acts.map fun act => (t, act)
        queue := match (p.settle seen sys.vars).thread.phase with
          | .waiting r _ => sys.queue ++ [(t, r)]
          | _ => sys.queue } := by
  simp only [System.step, h]

/-- A request is served. -/
theorem step_serve {sys : System I σ ε ω α} {t : Nat} {seen : σ} {r : I.Req}
    {k : Except ε (I.Ans r) → Process I σ ε α} (h : sys.threads[t]? = some ⟨seen, .waiting r k⟩) :
    sys.step reply (.serve t) =
      { vars := sys.vars
        world := (reply r sys.world).2
        threads := sys.threads.set t ⟨seen, .ready (k (reply r sys.world).1)⟩
        log := sys.log ++ [(t, .asked r (reply r sys.world).1)]
        queue := sys.queue.filter fun entry => entry.1 ≠ t } := by
  simp only [System.step, h]

/-- A choice gives a ready thread its turn, serves a waiting one, or changes
    nothing. -/
theorem step_cases (choice : Choice) (sys : System I σ ε ω α) :
    (∃ t seen p, choice = .resume t ∧ sys.threads[t]? = some ⟨seen, .ready p⟩) ∨
      (∃ t seen r k, choice = .serve t ∧ sys.threads[t]? = some ⟨seen, .waiting r k⟩) ∨
      sys.step reply choice = sys := by
  cases choice with
  | resume t =>
      rcases hthread : sys.threads[t]? with _ | ⟨seen, p | ⟨r, k⟩ | x⟩
      · exact .inr (.inr (by simp only [System.step, hthread]))
      · exact .inl ⟨t, seen, p, rfl, hthread⟩
      · exact .inr (.inr (by simp only [System.step, hthread]))
      · exact .inr (.inr (by simp only [System.step, hthread]))
  | serve t =>
      rcases hthread : sys.threads[t]? with _ | ⟨seen, p | ⟨r, k⟩ | x⟩
      · exact .inr (.inr (by simp only [System.step, hthread]))
      · exact .inr (.inr (by simp only [System.step, hthread]))
      · exact .inr (.inl ⟨t, seen, r, k, rfl, hthread⟩)
      · exact .inr (.inr (by simp only [System.step, hthread]))

/-- Follow a schedule. -/
def steps : List Choice → System I σ ε ω α → System I σ ε ω α
  | [], sys => sys
  | choice :: choices, sys => steps choices (sys.step reply choice)

theorem length_step (choice : Choice) (sys : System I σ ε ω α) :
    (sys.step reply choice).threads.length = sys.threads.length := by
  rcases System.step_cases reply choice sys with ⟨t, seen, p, rfl, h⟩ | ⟨t, seen, r, k, rfl, h⟩ | h
  · rw [step_resume reply h]
    exact List.length_set
  · rw [step_serve reply h]
    exact List.length_set
  · rw [h]

/-- All calls made, none begun. -/
def start (s : σ) (w : ω) (processes : List (Process I σ ε α)) : System I σ ε ω α where
  vars := s
  world := w
  threads := processes.map fun p => ⟨s, .ready p⟩
  log := []
  queue := []

/-- How a thread ended, if it has. -/
def result (sys : System I σ ε ω α) (t : Nat) : Option (Except ε α) :=
  match sys.threads[t]? with
  | some ⟨_, .ended x⟩ => some x
  | _ => none

theorem result_eq_some {sys : System I σ ε ω α} {t : Nat} {x : Except ε α} :
    sys.result t = some x ↔ ∃ seen, sys.threads[t]? = some ⟨seen, .ended x⟩ := by
  unfold System.result
  rcases sys.threads[t]? with _ | ⟨seen, p | ⟨r, k⟩ | y⟩ <;>
    simp only [reduceCtorEq, Option.some.injEq, Thread.mk.injEq, Phase.ended.injEq, and_false,
      exists_false, exists_eq_left']

end System

/-- What a thread would do next is clean. -/
def CleanNext (P : σ → σ → σ → Prop) (s : σ) : Option (Thread I σ ε α) → Prop
  | some ⟨seen, .ready p⟩ => p.Clean P seen s
  | _ => True

/-- A thread's request may be served, with these before it in the queue. -/
def InTurn (S : List (Nat × I.Req) → I.Req → Prop) (earlier : List (Nat × I.Req)) :
    Option (Thread I σ ε α) → Prop
  | some ⟨_, .waiting r _⟩ => S earlier r
  | _ => True

/-- A choice whose writes and whose order of serving meet the conditions. -/
def OrderlyStep (P : σ → σ → σ → Prop) (S : List (Nat × I.Req) → I.Req → Prop) :
    Choice → System I σ ε ω α → Prop
  | .resume t, sys => CleanNext P sys.vars sys.threads[t]?
  | .serve t, sys => InTurn S (sys.queue.takeWhile fun entry => entry.1 ≠ t) sys.threads[t]?

/-- A schedule all of whose choices do, each where it is made. -/
def Orderly (reply : Reply I ε ω) (P : σ → σ → σ → Prop)
    (S : List (Nat × I.Req) → I.Req → Prop) : List Choice → System I σ ε ω α → Prop
  | [], _ => True
  | choice :: choices, sys =>
    OrderlyStep P S choice sys ∧ Orderly reply P S choices (sys.step reply choice)

section Decidable

variable {P : σ → σ → σ → Prop} {S : List (Nat × I.Req) → I.Req → Prop}
  [∀ a b c, Decidable (P a b c)] [∀ l r, Decidable (S l r)]

instance decidableCleanNext (s : σ) :
    (thread : Option (Thread I σ ε α)) → Decidable (CleanNext P s thread)
  | some ⟨seen, .ready p⟩ => Process.decidableClean p seen s
  | some ⟨_, .waiting _ _⟩ => isTrue trivial
  | some ⟨_, .ended _⟩ => isTrue trivial
  | none => isTrue trivial

instance decidableInTurn (earlier : List (Nat × I.Req)) :
    (thread : Option (Thread I σ ε α)) → Decidable (InTurn S earlier thread)
  | some ⟨_, .ready _⟩ => isTrue trivial
  | some ⟨_, .waiting r _⟩ => inferInstanceAs (Decidable (S earlier r))
  | some ⟨_, .ended _⟩ => isTrue trivial
  | none => isTrue trivial

instance decidableOrderlyStep :
    (choice : Choice) → (sys : System I σ ε ω α) → Decidable (OrderlyStep P S choice sys)
  | .resume _, _ => decidableCleanNext _ _
  | .serve _, _ => decidableInTurn _ _

instance decidableOrderly (reply : Reply I ε ω) : (choices : List Choice) →
    (sys : System I σ ε ω α) → Decidable (Orderly reply P S choices sys)
  | [], _ => isTrue trivial
  | choice :: choices, sys =>
    have := decidableOrderly reply choices (sys.step reply choice)
    inferInstanceAs (Decidable (OrderlyStep P S choice sys ∧ _))

end Decidable

/-- What a thread has done. -/
def pastOf (t : Nat) (log : List (Nat × Act I σ ε)) : List (Act I σ ε) :=
  (log.filter fun entry => entry.1 = t).map Prod.snd

theorem pastOf_append (t : Nat) (log log' : List (Nat × Act I σ ε)) :
    pastOf t (log ++ log') = pastOf t log ++ pastOf t log' := by
  simp only [pastOf, List.filter_append, List.map_append]

@[simp] theorem pastOf_self (t : Nat) (act : Act I σ ε) : pastOf t [(t, act)] = [act] := by
  simp [pastOf]

@[simp] theorem pastOf_map_self (t : Nat) (acts : List (Act I σ ε)) :
    pastOf t (acts.map fun act => (t, act)) = acts := by
  simp [pastOf, List.filter_map, Function.comp_def]

theorem pastOf_of_ne {t t' : Nat} (h : t' ≠ t) (acts : List (Act I σ ε)) :
    pastOf t (acts.map fun act => (t', act)) = [] := by
  simp [pastOf, List.filter_map, Function.comp_def, h]

/-- Cutting a thread's past cuts the log. -/
theorem pastOf_split {t : Nat} {log : List (Nat × Act I σ ε)} {earlier later : List (Act I σ ε)}
    {act : Act I σ ε} (h : pastOf t log = earlier ++ act :: later) :
    ∃ log₁ log₂, log = log₁ ++ (t, act) :: log₂ ∧ pastOf t log₁ = earlier ∧
      pastOf t log₂ = later := by
  rcases List.map_eq_append_iff.mp h with ⟨mine₁, mine, hfilter, hearlier, hmine⟩
  rcases List.map_eq_cons_iff.mp hmine with ⟨⟨t', act'⟩, mine₂, rfl, hact, hlater⟩
  rcases List.filter_eq_append_iff.mp hfilter with ⟨log₁, rest, rfl, rfl, hrest⟩
  rcases List.filter_eq_cons_iff.mp hrest with ⟨others, log₂, rfl, hothers, hname, rfl⟩
  have hnone : pastOf t others = [] := by
    rw [pastOf, List.filter_eq_nil_iff.mpr hothers, List.map_nil]
  have hname' : t' = t := of_decide_eq_true hname
  have hact' : act' = act := hact
  subst hname' hact'
  refine ⟨log₁ ++ others, log₂, (List.append_assoc _ _ _).symm, ?_, hlater⟩
  rw [pastOf_append, hnone, List.append_nil]
  exact hearlier

section Rule

variable (G : Nat → List (Act I σ ε) → σ → σ → Prop)
  (R : Nat → List (Act I σ ε) → σ → I.Req → Prop)
  (Q : Nat → List (Act I σ ε) → σ → Except ε α → Prop)

/-- A thread keeps its contract from here on. One that is about to run has
    written nothing since its last request. -/
def ThreadSound (t : Nat) (past : List (Act I σ ε)) (thread : Thread I σ ε α) : Prop :=
  match thread.phase with
  | .ready p => p.Obeys (G t) (R t) (Q t) past thread.seen ∧
      ∀ earlier x y, past ≠ earlier ++ [.wrote x y]
  | .waiting r k =>
      ∀ a, (k a).Obeys (G t) (R t) (Q t) (past ++ [.asked r a]) thread.seen
  | .ended x => Q t past thread.seen x

/-- The threads keep their contracts, and the queue holds their requests. -/
structure Sound (sys : System I σ ε ω α) : Prop where
  threads : ∀ t thread, sys.threads[t]? = some thread →
    ThreadSound G R Q t (pastOf t sys.log) thread
  queue : ∀ t r, (t, r) ∈ sys.queue ↔ ∃ seen k, sys.threads[t]? = some ⟨seen, .waiting r k⟩
  nodup : (sys.queue.map Prod.fst).Nodup

/-- An invariant of the log, the variables, the outside and the requests not
    yet served, and the three things it has to survive. -/
structure Survives (reply : Reply I ε ω) (P : σ → σ → σ → Prop)
    (S : List (Nat × I.Req) → I.Req → Prop)
    (J : List (Nat × Act I σ ε) → σ → ω → List (Nat × I.Req) → Prop) : Prop where
  write : ∀ t log s w queue seen new, J log s w queue → (∀ r, (t, r) ∉ queue) →
    G t (pastOf t log) seen new → P seen s new → J (log ++ [(t, .wrote seen new)]) new w queue
  request : ∀ t log s w queue seen r, J log s w queue → (∀ r, (t, r) ∉ queue) →
    R t (pastOf t log) seen r →
    (∀ earlier x new, pastOf t log = earlier ++ [.wrote x new] → s = new) →
    J log s w (queue ++ [(t, r)])
  serve : ∀ t log s w earlier r later, J log s w (earlier ++ (t, r) :: later) → S earlier r →
    J (log ++ [(t, .asked r (reply r w).1)]) s (reply r w).2 (earlier ++ later)

variable {G R Q} {reply : Reply I ε ω} {P : σ → σ → σ → Prop}
  {S : List (Nat × I.Req) → I.Req → Prop}
  {J : List (Nat × Act I σ ε) → σ → ω → List (Nat × I.Req) → Prop}

/-- A clean segment keeps the invariant and the contract, and makes its request
    if it ends in one. -/
theorem settle_rule (h : Survives G R reply P S J) {t : Nat} {w : ω} {queue : List (Nat × I.Req)}
    (hqueue : ∀ r, (t, r) ∉ queue) {p : Process I σ ε α} {log : List (Nat × Act I σ ε)}
    {seen s : σ} (hJ : J log s w queue) (hp : p.Obeys (G t) (R t) (Q t) (pastOf t log) seen)
    (hclean : p.Clean P seen s)
    (hlast : ∀ earlier x new, pastOf t log = earlier ++ [.wrote x new] → s = new) :
    let segment := p.settle seen s
    let log' := log ++ segment.acts.map fun act => (t, act)
    ThreadSound G R Q t (pastOf t log') segment.thread ∧
      J log' segment.vars w (match segment.thread.phase with
        | .waiting r _ => queue ++ [(t, r)]
        | _ => queue) := by
  induction p generalizing log seen s with
  | done a =>
      simp only [Process.settle, List.map_nil, List.append_nil]
      exact ⟨hp, hJ⟩
  | fail e =>
      simp only [Process.settle, List.map_nil, List.append_nil]
      exact ⟨hp, hJ⟩
  | get k ih => exact ih s hJ (hp s) hclean hlast
  -- A write: the invariant takes it in, and the rest runs from the new variables.
  | put s' k ih =>
      have hpast : pastOf t (log ++ [(t, .wrote seen s')])
          = pastOf t log ++ [.wrote seen s'] := by
        rw [pastOf_append, pastOf_self]
      have hrest := ih (h.write _ _ _ _ _ _ _ hJ hqueue hp.1 hclean.1) (hpast ▸ hp.2) hclean.2
        (fun earlier x new heq => by
          rw [hpast] at heq
          exact (Act.wrote.inj (List.head_eq_of_cons_eq (List.append_inj' heq rfl).2)).2)
      simp only [Process.settle, List.map_cons]
      rw [List.append_cons]
      exact hrest
  -- A request ends the segment, and it is queued here.
  | await r k ih =>
      simp only [Process.settle, List.map_nil, List.append_nil]
      exact ⟨hp.2, h.request _ _ _ _ _ _ _ hJ hqueue hp.1 hlast⟩

/-- Replacing one thread keeps the contracts, if the new one keeps its own and
    the queue says of it what it waits for. -/
theorem sound_set {sys : System I σ ε ω α} (hsound : Sound G R Q sys) {t : Nat}
    {thread thread' : Thread I σ ε α} (hthread : sys.threads[t]? = some thread)
    {acts : List (Act I σ ε)} {s : σ} {w : ω} {queue : List (Nat × I.Req)}
    (hnew : ThreadSound G R Q t (pastOf t (sys.log ++ acts.map fun act => (t, act))) thread')
    (hself : ∀ r, (t, r) ∈ queue ↔ ∃ seen k, thread' = ⟨seen, .waiting r k⟩)
    (hother : ∀ t' r, t' ≠ t → ((t', r) ∈ queue ↔ (t', r) ∈ sys.queue))
    (hnodup : (queue.map Prod.fst).Nodup) :
    Sound G R Q (⟨s, w, sys.threads.set t thread', sys.log ++ acts.map fun act => (t, act),
      queue⟩ : System I σ ε ω α) := by
  have hset : (sys.threads.set t thread')[t]? = some thread' := by
    have hlt : t < sys.threads.length := (List.getElem?_eq_some_iff.mp hthread).1
    rw [List.getElem?_set_self hlt]
  refine ⟨fun t' th hth => ?_, fun t' r => ?_, hnodup⟩
  · -- Only this thread's past and phase have changed.
    by_cases ht : t' = t
    · subst ht
      rw [← Option.some.inj (hset.symm.trans hth)]
      exact hnew
    · rw [List.getElem?_set_ne (Ne.symm ht)] at hth
      have hpast : pastOf t' (sys.log ++ acts.map fun act => (t, act)) = pastOf t' sys.log := by
        rw [pastOf_append, pastOf_of_ne (Ne.symm ht), List.append_nil]
      rw [hpast]
      exact hsound.threads t' th hth
  · by_cases ht : t' = t
    · subst ht
      rw [hself]
      constructor
      · rintro ⟨seen, k, rfl⟩
        exact ⟨seen, k, hset⟩
      · rintro ⟨seen, k, heq⟩
        exact ⟨seen, k, Option.some.inj (hset.symm.trans heq)⟩
    · rw [hother t' r ht, hsound.queue]
      simp only [List.getElem?_set_ne (Ne.symm ht)]

/-- A thread that is not waiting has nothing in the queue. -/
theorem not_queued {sys : System I σ ε ω α} (hsound : Sound G R Q sys) {t : Nat} {seen : σ}
    {p : Process I σ ε α} (hthread : sys.threads[t]? = some ⟨seen, .ready p⟩) (r : I.Req) :
    (t, r) ∉ sys.queue := by
  intro hmem
  rcases (hsound.queue t r).mp hmem with ⟨seen', k, heq⟩
  rw [hthread] at heq
  cases heq

/-- Giving a thread its turn. -/
theorem resume_rule (h : Survives G R reply P S J) {sys : System I σ ε ω α}
    (hsound : Sound G R Q sys) (hJ : J sys.log sys.vars sys.world sys.queue) {t : Nat} {seen : σ}
    {p : Process I σ ε α} (hthread : sys.threads[t]? = some ⟨seen, .ready p⟩)
    (hclean : p.Clean P seen sys.vars) :
    Sound G R Q (sys.step reply (.resume t)) ∧
      J (sys.step reply (.resume t)).log (sys.step reply (.resume t)).vars
        (sys.step reply (.resume t)).world (sys.step reply (.resume t)).queue := by
  have hready := hsound.threads t _ hthread
  have hqueue := not_queued hsound hthread
  rcases settle_rule h hqueue hJ hready.1 hclean (fun earlier x new heq =>
    absurd heq (hready.2 earlier x new)) with ⟨hnew, hJ'⟩
  rw [System.step_resume reply hthread]
  refine ⟨sound_set hsound hthread hnew ?_ ?_ ?_, hJ'⟩
  · intro r
    -- It may have ended, or wait now, and then it is the one entry added to the queue.
    rcases hphase : (p.settle seen sys.vars).thread with ⟨seen', q | ⟨r', k⟩ | x⟩
    · simp only [hqueue r, Thread.mk.injEq, reduceCtorEq, and_false, exists_false]
    · simp only [List.mem_append, hqueue r, List.mem_singleton, Prod.mk.injEq, true_and, false_or,
        Thread.mk.injEq, Phase.waiting.injEq]
      constructor
      · rintro rfl
        exact ⟨seen', k, rfl, rfl, HEq.rfl⟩
      · rintro ⟨_, _, _, heq, _⟩
        exact heq.symm
    · simp only [hqueue r, Thread.mk.injEq, reduceCtorEq, and_false, exists_false]
  · intro t' r ht
    rcases (p.settle seen sys.vars).thread with ⟨seen', q | ⟨r', k⟩ | x⟩
    · exact Iff.rfl
    · simp only [List.mem_append, List.mem_singleton, Prod.mk.injEq, ht, false_and, or_false]
    · exact Iff.rfl
  · rcases (p.settle seen sys.vars).thread with ⟨seen', q | ⟨r', k⟩ | x⟩
    · exact hsound.nodup
    · simp only [List.map_append, List.map_cons, List.map_nil]
      refine List.nodup_append.mpr ⟨hsound.nodup, List.nodup_singleton _, fun x hx y hy => ?_⟩
      rw [List.mem_singleton.mp hy]
      rintro rfl
      rcases List.mem_map.mp hx with ⟨⟨_, r⟩, hmem, rfl⟩
      exact hqueue r hmem
    · exact hsound.nodup

/-- What a queue without repetitions holds is one entry and those around it. -/
theorem queue_split {queue : List (Nat × I.Req)} {t : Nat} {r : I.Req}
    (hnodup : (queue.map Prod.fst).Nodup) (hmem : (t, r) ∈ queue) :
    ∃ later, queue = (queue.takeWhile fun entry => entry.1 ≠ t) ++ (t, r) :: later ∧
      queue.filter (fun entry => entry.1 ≠ t)
        = (queue.takeWhile fun entry => entry.1 ≠ t) ++ later := by
  induction queue with
  | nil => exact absurd hmem List.not_mem_nil
  | cons entry queue ih =>
      rcases entry with ⟨t', r'⟩
      rw [List.map_cons, List.nodup_cons] at hnodup
      by_cases ht : t' = t
      · subst ht
        have hr : r' = r := by
          rcases List.mem_cons.mp hmem with heq | hmem
          · exact (Prod.mk.inj heq).2.symm
          · exact absurd (List.mem_map.mpr ⟨_, hmem, rfl⟩) hnodup.1
        subst hr
        -- Tags are distinct, so nothing behind the entry is filtered out with it.
        have hrest : queue.filter (fun entry => entry.1 ≠ t') = queue :=
          List.filter_eq_self.mpr fun entry he => by
            simp only [ne_eq, decide_not, Bool.not_eq_eq_eq_not, Bool.not_true,
              decide_eq_false_iff_not]
            rintro rfl
            exact hnodup.1 (List.mem_map.mpr ⟨entry, he, rfl⟩)
        refine ⟨queue, ?_, ?_⟩
        · simp
        · rw [List.filter_cons, hrest]
          simp
      · have hmem' : (t, r) ∈ queue := by
          rcases List.mem_cons.mp hmem with heq | hmem
          · exact absurd (Prod.mk.inj heq).1.symm ht
          · exact hmem
        rcases ih hnodup.2 hmem' with ⟨later, heq, hfilter⟩
        -- Another thread's entry stays in front, and the search goes on behind it.
        have hkeep : decide ((t', r').1 ≠ t) = true := by simpa using ht
        refine ⟨later, ?_, ?_⟩
        · rw [List.takeWhile_cons, if_pos hkeep, List.cons_append, ← heq]
        · rw [List.filter_cons, if_pos hkeep, List.takeWhile_cons, if_pos hkeep, List.cons_append,
            hfilter]

/-- Serving a thread's request. -/
theorem serve_rule (h : Survives G R reply P S J) {sys : System I σ ε ω α}
    (hsound : Sound G R Q sys) (hJ : J sys.log sys.vars sys.world sys.queue) {t : Nat} {seen : σ}
    {r : I.Req} {k : Except ε (I.Ans r) → Process I σ ε α}
    (hthread : sys.threads[t]? = some ⟨seen, .waiting r k⟩)
    (hturn : S (sys.queue.takeWhile fun entry => entry.1 ≠ t) r) :
    Sound G R Q (sys.step reply (.serve t)) ∧
      J (sys.step reply (.serve t)).log (sys.step reply (.serve t)).vars
        (sys.step reply (.serve t)).world (sys.step reply (.serve t)).queue := by
  have hwaiting := hsound.threads t _ hthread
  rcases queue_split hsound.nodup ((hsound.queue t r).mpr ⟨seen, k, hthread⟩) with
    ⟨later, hsplit, hfilter⟩
  have hacts : [(t, (.asked r (reply r sys.world).1 : Act I σ ε))]
      = [.asked r (reply r sys.world).1].map fun act => (t, act) := rfl
  rw [System.step_serve reply hthread, hacts]
  refine ⟨sound_set hsound hthread ?_ ?_ ?_ ?_, ?_⟩
  · rw [pastOf_append, List.map_cons, List.map_nil, pastOf_self]
    refine ⟨hwaiting _, fun earlier x y heq => ?_⟩
    cases List.head_eq_of_cons_eq (List.append_inj' heq rfl).2
  · intro r'
    simp only [List.mem_filter, ne_eq, not_true_eq_false, decide_false, Bool.false_eq_true,
      and_false, Thread.mk.injEq, reduceCtorEq, exists_false]
  · intro t' r' ht
    simp only [List.mem_filter, ne_eq, ht, not_false_eq_true, decide_true, and_true]
  · exact hsound.nodup.sublist (List.filter_sublist.map _)
  · rw [hfilter]
    rw [hsplit] at hJ
    exact h.serve _ _ _ _ _ _ _ hJ hturn

/-- A step that meets the conditions keeps the invariant and the contracts. -/
theorem step_rule (h : Survives G R reply P S J) {sys : System I σ ε ω α}
    (hsound : Sound G R Q sys) (hJ : J sys.log sys.vars sys.world sys.queue) {choice : Choice}
    (horderly : OrderlyStep P S choice sys) :
    Sound G R Q (sys.step reply choice) ∧
      J (sys.step reply choice).log (sys.step reply choice).vars (sys.step reply choice).world
        (sys.step reply choice).queue := by
  rcases System.step_cases reply choice sys with ⟨t, seen, p, rfl, hthread⟩ |
    ⟨t, seen, r, k, rfl, hthread⟩ | hsame
  · refine resume_rule h hsound hJ hthread ?_
    simpa only [OrderlyStep, hthread, CleanNext] using horderly
  · refine serve_rule h hsound hJ hthread ?_
    simpa only [OrderlyStep, hthread, InTurn] using horderly
  · rw [hsame]
    exact ⟨hsound, hJ⟩

/-- An orderly schedule keeps the invariant and the contracts. -/
theorem orderly_rule (h : Survives G R reply P S J) {choices : List Choice}
    {sys : System I σ ε ω α} (hsound : Sound G R Q sys)
    (hJ : J sys.log sys.vars sys.world sys.queue) (horderly : Orderly reply P S choices sys) :
    Sound G R Q (sys.steps reply choices) ∧
      J (sys.steps reply choices).log (sys.steps reply choices).vars
        (sys.steps reply choices).world (sys.steps reply choices).queue := by
  induction choices generalizing sys with
  | nil => exact ⟨hsound, hJ⟩
  | cons choice choices ih =>
      rcases step_rule h hsound hJ horderly.1 with ⟨hsound', hJ'⟩
      exact ih hsound' hJ' horderly.2

/-- Threads that keep their contracts alone keep them together. -/
theorem sound_start {s : σ} {w : ω} {processes : List (Process I σ ε α)}
    (h : ∀ t (p : Process I σ ε α), processes[t]? = some p → p.Obeys (G t) (R t) (Q t) [] s) :
    Sound G R Q (System.start s w processes : System I σ ε ω α) where
  threads := fun t thread hthread => by
    simp only [System.start, List.getElem?_map, Option.map_eq_some_iff] at hthread
    rcases hthread with ⟨p, hp, rfl⟩
    exact ⟨h t p hp, fun earlier x y heq => absurd heq (by
      simp only [System.start, pastOf, List.filter_nil, List.map_nil, List.nil_eq,
        List.append_eq_nil_iff, reduceCtorEq, and_false, not_false_eq_true])⟩
  queue := fun t r => by
    simp only [System.start, List.not_mem_nil, List.getElem?_map, Option.map_eq_some_iff,
      Thread.mk.injEq, reduceCtorEq, and_false, exists_false]
  nodup := List.nodup_nil

/-- How a thread ended meets its postcondition. -/
theorem Sound.result {sys : System I σ ε ω α} (h : Sound G R Q sys) {t : Nat} {x : Except ε α}
    (hresult : sys.result t = some x) : ∃ seen, Q t (pastOf t sys.log) seen x := by
  rcases System.result_eq_some.mp hresult with ⟨seen, hthread⟩
  exact ⟨seen, h.threads t _ hthread⟩

end Rule

end Async
