import Mathlib.Logic.Relation

/-!
# Asynchronous Processes

A small language for code that runs to the next `await` without being
interrupted, waits for the outside world, and goes on with the answer.

A `Process` reads and writes the variables of the object it belongs to (`get`
and `put`), asks the outside for something (`await`), and ends in a value or
an exception. Everything between two `await`s is one synchronous segment. The
outside is a state machine, a `Reply`: it answers a request from its own state
and moves on. Which answers come is decided by the `Reply`, so a statement
about every `Reply` is a statement about every way the outside can behave.

`run` is the sequential meaning, one process alone from start to end. It is a
structural recursion on the process, so every process that is always answered
ends.

`Obeys` is the open meaning: what a process does however its reads and its
requests turn out. Each write is checked by a relation, each request by
another, and the end by a postcondition, all of which may look at the process's
own past, its `Act`s. One `Obeys` fact about a process serves every way of
running it, and `obeys_run` carries it to the sequential one.

## Main definitions

* `Interface`: The requests a process may make and what answers them.
* `Process`: Synchronous segments separated by requests.
* `Process.run`: The sequential meaning.
* `Process.requests`: The requests a sequential run makes, with the state of
  the outside when each one is made.
* `Process.interrupt`: Where the outside stands when a run is cut short.
* `Act`: One thing a process did.
* `Process.Obeys`: What holds of a process whatever it reads and is answered.
* `Process.Asks`: What a process may ask for, with nothing said about the rest.

## Theorems

* `Act.asked_of_wrote`, `Act.wrote_of_asked`: What an act of the other kind
  leaves of a past.
* `bind_assoc`: Sequencing is associative.
* `run_bind`: Running a sequence runs its parts.
* `run_bind_eq_ok`: A sequence ends in a value if both parts do.
* `run_bind_congr`, `run_tryCatch_congr`: Runs that part ways only where they
  do not go.
* `vars_bind`: What a sequence leaves of the variables.
* `run_tryCatch`: Running a guarded process runs the guard on a failure.
* `run_reaches`: A run moves the outside only by its replies.
* `requests_reaches`: Where in a run a request is made.
* `interrupt_of_length_le`: A run that is not cut short leaves the outside where
  it ends.
* `requests_bind`, `requests_tryCatch`: A sequence makes its parts' requests in
  order, and so does a guarded process.
* `obeys_mono`: Weakening a contract.
* `obeys_and`: Joining two.
* `obeys_of_subset`: A contract that every longer past meets.
* `obeys_bind`: The contract of a sequence.
* `obeys_tryCatch`: The contract of a guarded process.
* `obeys_run`, `obeys_run_of_requests`: An invariant kept by every act is kept
  by a run.
* `obeys_interrupt`, `obeys_interrupt_of_requests`: And holds wherever the run
  is cut short.
* `obeys_requests`: Every request is one the contract allows.
* `obeys_run_asked`, `obeys_requests_asked`: What a run was told, it was told by
  the outside.
* `asks_bind`, `asks_tryCatch`: What the parts may ask for, the whole may.
* `asks_run`: What every request keeps of the outside, a run keeps.
-/

namespace Async

/-- The requests a process may make, and the type of each one's answer. -/
structure Interface where
  Req : Type
  Ans : Req → Type

/-- Code over the variables `σ` that may throw an `ε`: synchronous reads and
    writes, separated by requests whose answer may itself be an exception. -/
inductive Process (I : Interface) (σ ε α : Type) : Type where
  | done (a : α)
  | fail (e : ε)
  | get (k : σ → Process I σ ε α)
  | put (s : σ) (k : Process I σ ε α)
  | await (r : I.Req) (k : Except ε (I.Ans r) → Process I σ ε α)

/-- The outside: it answers a request from its state and moves on. -/
abbrev Reply (I : Interface) (ε ω : Type) : Type :=
  (r : I.Req) → ω → Except ε (I.Ans r) × ω

/-- How a run ended: its result, the variables and the outside it left. -/
structure Outcome (σ ε ω α : Type) where
  result : Except ε α
  vars : σ
  world : ω

/-- One thing a process did: a write, with what it had last seen, or a request
    with its answer. -/
inductive Act (I : Interface) (σ ε : Type) where
  | wrote (seen new : σ)
  | asked (r : I.Req) (a : Except ε (I.Ans r))

/-- A write is not an answer, so an answer was there before it. -/
theorem Act.asked_of_wrote {I : Interface} {σ ε : Type} {past : List (Act I σ ε)} {seen new : σ}
    {r : I.Req} {a : Except ε (I.Ans r)} (h : .asked r a ∈ past ++ [.wrote seen new]) :
    .asked r a ∈ past := by
  rcases List.mem_append.mp h with h | h
  · exact h
  · cases List.mem_singleton.mp h

/-- An answer is not a write, so a write was there before it. -/
theorem Act.wrote_of_asked {I : Interface} {σ ε : Type} {past : List (Act I σ ε)} {seen new : σ}
    {r : I.Req} {a : Except ε (I.Ans r)} (h : .wrote seen new ∈ past ++ [.asked r a]) :
    .wrote seen new ∈ past := by
  rcases List.mem_append.mp h with h | h
  · exact h
  · cases List.mem_singleton.mp h

namespace Process

variable {I : Interface} {σ ε ω α β : Type}

def bind : Process I σ ε α → (α → Process I σ ε β) → Process I σ ε β
  | done a, f => f a
  | fail e, _ => fail e
  | get k, f => get fun s => (k s).bind f
  | put s k, f => put s (k.bind f)
  | await r k, f => await r fun a => (k a).bind f

/-- Run a process, and a handler if it throws. -/
def tryCatch : Process I σ ε α → (ε → Process I σ ε α) → Process I σ ε α
  | done a, _ => done a
  | fail e, h => h e
  | get k, h => get fun s => (k s).tryCatch h
  | put s k, h => put s (k.tryCatch h)
  | await r k, h => await r fun a => (k a).tryCatch h

instance : Monad (Process I σ ε) where
  pure := done
  bind := bind

instance : MonadExceptOf ε (Process I σ ε) where
  throw := fail
  tryCatch := tryCatch

/-- Make a request and go on with its answer, or throw what it throws. -/
def request (r : I.Req) : Process I σ ε (I.Ans r) :=
  await r fun
    | .ok a => done a
    | .error e => fail e

/-- Read the variables. -/
def read : Process I σ ε σ := get done

/-- Replace the variables. -/
def write (s : σ) : Process I σ ε Unit := put s (done ())

/-- A computation that waits for nothing. -/
def ofResult : Except ε α → Process I σ ε α
  | .ok a => done a
  | .error e => fail e

/-- The sequential meaning: one process alone, from start to end. -/
def run (reply : Reply I ε ω) : Process I σ ε α → σ → ω → Outcome σ ε ω α
  | done a, s, w => ⟨.ok a, s, w⟩
  | fail e, s, w => ⟨.error e, s, w⟩
  | get k, s, w => (k s).run reply s w
  | put s' k, _, w => k.run reply s' w
  | await r k, s, w => (k (reply r w).1).run reply s (reply r w).2

/-- The requests of a sequential run, each with the state of the outside in
    which it is made. -/
def requests (reply : Reply I ε ω) : Process I σ ε α → σ → ω → List (I.Req × ω)
  | done _, _, _ => []
  | fail _, _, _ => []
  | get k, s, w => (k s).requests reply s w
  | put s' k, _, w => k.requests reply s' w
  | await r k, s, w => (r, w) :: (k (reply r w).1).requests reply s (reply r w).2

/-- The outside a run leaves when it is cut short after its first `n` requests:
    the variables of the process are lost with it. -/
def interrupt (reply : Reply I ε ω) : Process I σ ε α → Nat → σ → ω → ω
  | done _, _, _, w => w
  | fail _, _, _, w => w
  | get k, n, s, w => (k s).interrupt reply n s w
  | put s' k, n, _, w => k.interrupt reply n s' w
  | await _ _, 0, _, w => w
  | await r k, n + 1, s, w => (k (reply r w).1).interrupt reply n s (reply r w).2

/-- What a process does whatever it reads and is answered: `G` holds of every
    write, `R` of every request and `Q` of the end, each given the process's
    past and the variables as it last saw them. -/
def Obeys (G : List (Act I σ ε) → σ → σ → Prop) (R : List (Act I σ ε) → σ → I.Req → Prop)
    (Q : List (Act I σ ε) → σ → Except ε α → Prop) :
    List (Act I σ ε) → σ → Process I σ ε α → Prop
  | past, s, done a => Q past s (.ok a)
  | past, s, fail e => Q past s (.error e)
  | past, _, get k => ∀ s, (k s).Obeys G R Q past s
  | past, s, put s' k => G past s s' ∧ k.Obeys G R Q (past ++ [.wrote s s']) s'
  | past, s, await r k => R past s r ∧ ∀ a, (k a).Obeys G R Q (past ++ [.asked r a]) s

/-- Sequences may be grouped either way. -/
theorem bind_assoc {γ : Type} (p : Process I σ ε α) (f : α → Process I σ ε β)
    (g : β → Process I σ ε γ) : p >>= f >>= g = p >>= fun a => f a >>= g := by
  change (p.bind f).bind g = p.bind fun a => (f a).bind g
  induction p with
  | done a => rfl
  | fail e => rfl
  | get k ih => exact congrArg Process.get (funext ih)
  | put s k ih => exact congrArg (Process.put s) ih
  | await r k ih => exact congrArg (Process.await r) (funext ih)

section Run

variable (reply : Reply I ε ω)

@[simp] theorem run_pure (a : α) (s : σ) (w : ω) :
    run reply (pure a : Process I σ ε α) s w = ⟨.ok a, s, w⟩ := rfl

@[simp] theorem run_done (a : α) (s : σ) (w : ω) :
    run reply (done a : Process I σ ε α) s w = ⟨.ok a, s, w⟩ := rfl

@[simp] theorem run_throw (e : ε) (s : σ) (w : ω) :
    run reply (throw e : Process I σ ε α) s w = ⟨.error e, s, w⟩ := rfl

@[simp] theorem run_fail (e : ε) (s : σ) (w : ω) :
    run reply (fail e : Process I σ ε α) s w = ⟨.error e, s, w⟩ := rfl

@[simp] theorem run_ofResult (x : Except ε α) (s : σ) (w : ω) :
    run reply (ofResult x : Process I σ ε α) s w = ⟨x, s, w⟩ := by
  cases x <;> rfl

@[simp] theorem run_read (s : σ) (w : ω) :
    run reply (read : Process I σ ε σ) s w = ⟨.ok s, s, w⟩ := rfl

@[simp] theorem run_write (s' s : σ) (w : ω) :
    run reply (write s' : Process I σ ε Unit) s w = ⟨.ok (), s', w⟩ := rfl

@[simp] theorem run_request (r : I.Req) (s : σ) (w : ω) :
    run reply (request r : Process I σ ε (I.Ans r)) s w
      = ⟨(reply r w).1, s, (reply r w).2⟩ := by
  simp only [request, run]
  cases (reply r w).1 <;> rfl

/-- Running a sequence runs its first part and, if that ended in a value, the
    rest from where it left off. -/
theorem run_bind (p : Process I σ ε α) (f : α → Process I σ ε β) (s : σ) (w : ω) :
    run reply (p >>= f) s w = match (run reply p s w).result with
      | .ok a => run reply (f a) (run reply p s w).vars (run reply p s w).world
      | .error e => ⟨.error e, (run reply p s w).vars, (run reply p s w).world⟩ := by
  change run reply (p.bind f) s w = _
  induction p generalizing s w with
  | done a => rfl
  | fail e => rfl
  | get k ih => exact ih s s w
  | put s' k ih => exact ih s' w
  | await r k ih => exact ih _ s _

theorem run_bind_ok {p : Process I σ ε α} {f : α → Process I σ ε β} {s s' : σ} {w w' : ω} {a : α}
    (h : run reply p s w = ⟨.ok a, s', w'⟩) :
    run reply (p >>= f) s w = run reply (f a) s' w' := by
  rw [run_bind, h]

theorem run_bind_error {p : Process I σ ε α} {f : α → Process I σ ε β} {s s' : σ} {w w' : ω}
    {e : ε} (h : run reply p s w = ⟨.error e, s', w'⟩) :
    run reply (p >>= f) s w = ⟨.error e, s', w'⟩ := by
  rw [run_bind, h]

/-- A sequence ends in a value if both of its parts do. -/
theorem run_bind_eq_ok {p : Process I σ ε α} {f : α → Process I σ ε β} {s s'' : σ} {w w'' : ω}
    {b : β} : run reply (p >>= f) s w = ⟨.ok b, s'', w''⟩ ↔ ∃ a s' w',
      run reply p s w = ⟨.ok a, s', w'⟩ ∧ run reply (f a) s' w' = ⟨.ok b, s'', w''⟩ := by
  constructor
  · intro h
    rcases hp : run reply p s w with ⟨e | a, s', w'⟩
    · cases h.symm.trans (run_bind_error reply hp)
    · exact ⟨a, s', w', rfl, (run_bind_ok reply hp).symm.trans h⟩
  · rintro ⟨a, s', w', hp, hf⟩
    exact (run_bind_ok reply hp).trans hf

/-- Two sequences that begin alike run alike if the rest does, wherever the
    beginning ends in a value. -/
theorem run_bind_congr {p : Process I σ ε α} {f g : α → Process I σ ε β} {s : σ} {w : ω}
    (h : ∀ a s' w', run reply p s w = ⟨.ok a, s', w'⟩ →
      run reply (f a) s' w' = run reply (g a) s' w') :
    run reply (p >>= f) s w = run reply (p >>= g) s w := by
  rcases hp : run reply p s w with ⟨e | a, s', w'⟩
  · rw [run_bind_error reply hp, run_bind_error reply hp]
  · rw [run_bind_ok reply hp, run_bind_ok reply hp]
    exact h a s' w' hp

/-- What the first part leaves of the variables and the rest keeps, a sequence
    leaves. -/
theorem vars_bind {J : σ → Prop} {p : Process I σ ε α} {f : α → Process I σ ε β} {s : σ} {w : ω}
    (hp : J (run reply p s w).vars) (hf : ∀ a s' w', J s' → J (run reply (f a) s' w').vars) :
    J (run reply (p >>= f) s w).vars := by
  rw [run_bind]
  split
  · exact hf _ _ _ hp
  · exact hp

/-- Running a guarded process runs it and, if it threw, the handler from where
    it left off. -/
theorem run_tryCatch (p : Process I σ ε α) (h : ε → Process I σ ε α) (s : σ) (w : ω) :
    run reply (tryCatch p h) s w = match (run reply p s w).result with
      | .ok a => ⟨.ok a, (run reply p s w).vars, (run reply p s w).world⟩
      | .error e => run reply (h e) (run reply p s w).vars (run reply p s w).world := by
  induction p generalizing s w with
  | done a => rfl
  | fail e => rfl
  | get k ih => exact ih s s w
  | put s' k ih => exact ih s' w
  | await r k ih => exact ih _ s _

/-- Two guarded processes run alike if their handlers do, wherever they throw. -/
theorem run_tryCatch_congr {p : Process I σ ε α} {h h' : ε → Process I σ ε α} {s : σ} {w : ω}
    (heq : ∀ e s' w', run reply p s w = ⟨.error e, s', w'⟩ →
      run reply (h e) s' w' = run reply (h' e) s' w') :
    run reply (tryCatch p h) s w = run reply (tryCatch p h') s w := by
  rw [run_tryCatch, run_tryCatch]
  rcases hp : run reply p s w with ⟨e | a, s', w'⟩
  · exact heq e s' w' hp
  · rfl

@[simp] theorem run_map (p : Process I σ ε α) (f : α → β) (s : σ) (w : ω) :
    run reply (f <$> p) s w
      = ⟨(run reply p s w).result.map f, (run reply p s w).vars, (run reply p s w).world⟩ := by
  change run reply (p.bind (pure ∘ f)) s w = _
  induction p generalizing s w with
  | done a => rfl
  | fail e => rfl
  | get k ih => exact ih s s w
  | put s' k ih => exact ih s' w
  | await r k ih => exact ih _ s _

/-- A sequence makes its first part's requests and, if that ended in a value,
    the rest's. -/
theorem requests_bind (p : Process I σ ε α) (f : α → Process I σ ε β) (s : σ) (w : ω) :
    requests reply (p >>= f) s w = requests reply p s w ++ match (run reply p s w).result with
      | .ok a => requests reply (f a) (run reply p s w).vars (run reply p s w).world
      | .error _ => [] := by
  change requests reply (p.bind f) s w = _
  induction p generalizing s w with
  | done a => rfl
  | fail e => rfl
  | get k ih => exact ih s s w
  | put s' k ih => exact ih s' w
  | await r k ih => exact congrArg ((r, w) :: ·) (ih _ s _)

/-- A guarded process makes its requests and, if it threw, the handler's. -/
theorem requests_tryCatch (p : Process I σ ε α) (h : ε → Process I σ ε α) (s : σ) (w : ω) :
    requests reply (tryCatch p h) s w
      = requests reply p s w ++ match (run reply p s w).result with
        | .ok _ => []
        | .error e => requests reply (h e) (run reply p s w).vars (run reply p s w).world := by
  induction p generalizing s w with
  | done a => rfl
  | fail e => rfl
  | get k ih => exact ih s s w
  | put s' k ih => exact ih s' w
  | await r k ih => exact congrArg ((r, w) :: ·) (ih _ s _)

@[simp] theorem requests_ofResult (x : Except ε α) (s : σ) (w : ω) :
    requests reply (ofResult x : Process I σ ε α) s w = [] := by
  cases x <;> rfl

@[simp] theorem requests_map (p : Process I σ ε α) (f : α → β) (s : σ) (w : ω) :
    requests reply (f <$> p) s w = requests reply p s w := by
  change requests reply (p.bind (pure ∘ f)) s w = _
  induction p generalizing s w with
  | done a => rfl
  | fail e => rfl
  | get k ih => exact ih s s w
  | put s' k ih => exact ih s' w
  | await r k ih => exact congrArg ((r, w) :: ·) (ih _ s _)

/-- A run moves the outside only by its replies. -/
theorem run_reaches (p : Process I σ ε α) (s : σ) (w : ω) :
    Relation.ReflTransGen (fun w w' => ∃ r, (reply r w).2 = w') w (run reply p s w).world := by
  induction p generalizing s w with
  | done a => exact .refl
  | fail e => exact .refl
  | get k ih => exact ih s s w
  | put s' k ih => exact ih s' w
  | await r k ih => exact (ih _ s _).head ⟨r, rfl⟩

/-- A request is made at a point of its run: the outside comes to it, and goes on
    from the reply. -/
theorem requests_reaches {p : Process I σ ε α} {r : I.Req} {s : σ} {w w' : ω}
    (h : (r, w') ∈ requests reply p s w) :
    Relation.ReflTransGen (fun w w' => ∃ r, (reply r w).2 = w') w w' ∧
      Relation.ReflTransGen (fun w w' => ∃ r, (reply r w).2 = w') (reply r w').2
        (run reply p s w).world := by
  induction p generalizing s w with
  | done a => exact absurd h List.not_mem_nil
  | fail e => exact absurd h List.not_mem_nil
  | get k ih => exact ih s h
  | put s' k ih => exact ih h
  | await r k ih =>
      rcases List.mem_cons.mp h with h | h
      · cases h
        exact ⟨.refl, run_reaches reply _ _ _⟩
      · exact ⟨(ih _ h).1.head ⟨r, rfl⟩, (ih _ h).2⟩

/-- A run cut short moves it only by its replies, too. -/
theorem interrupt_reaches (p : Process I σ ε α) (n : Nat) (s : σ) (w : ω) :
    Relation.ReflTransGen (fun w w' => ∃ r, (reply r w).2 = w') w (interrupt reply p n s w) := by
  induction p generalizing n s w with
  | done a => exact .refl
  | fail e => exact .refl
  | get k ih => exact ih s n s w
  | put s' k ih => exact ih n s' w
  | await r k ih =>
      cases n with
      | zero => exact .refl
      | succ n => exact (ih _ n s _).head ⟨r, rfl⟩

/-- A run that is cut short after its last request has come to its end. -/
theorem interrupt_of_length_le (p : Process I σ ε α) {n : Nat} {s : σ} {w : ω}
    (h : (requests reply p s w).length ≤ n) :
    interrupt reply p n s w = (run reply p s w).world := by
  induction p generalizing n s w with
  | done a => rfl
  | fail e => rfl
  | get k ih => exact ih s h
  | put s' k ih => exact ih h
  | await r k ih =>
      cases n with
      | zero => exact absurd h (Nat.not_succ_le_zero _)
      | succ n => exact ih _ (Nat.le_of_succ_le_succ h)

@[simp] theorem requests_request (r : I.Req) (s : σ) (w : ω) :
    requests reply (request r : Process I σ ε (I.Ans r)) s w = [(r, w)] := by
  simp only [request, requests]
  cases (reply r w).1 <;> rfl

end Run

section Obeys

variable {G G' : List (Act I σ ε) → σ → σ → Prop} {R R' : List (Act I σ ε) → σ → I.Req → Prop}

/-- A contract may be weakened in all three of its parts. -/
theorem obeys_mono {Q Q' : List (Act I σ ε) → σ → Except ε α → Prop}
    (hG : ∀ past s s', G past s s' → G' past s s') (hR : ∀ past s r, R past s r → R' past s r)
    (hQ : ∀ past s x, Q past s x → Q' past s x) {p : Process I σ ε α}
    {past : List (Act I σ ε)} {s : σ} (h : p.Obeys G R Q past s) : p.Obeys G' R' Q' past s := by
  induction p generalizing past s with
  | done a => exact hQ _ _ _ h
  | fail e => exact hQ _ _ _ h
  | get k ih => exact fun s' => ih s' (h s')
  | put s' k ih => exact ⟨hG _ _ _ h.1, ih h.2⟩
  | await r k ih => exact ⟨hR _ _ _ h.1, fun a => ih a (h.2 a)⟩

/-- Two contracts of one process are one. -/
theorem obeys_and {Q Q' : List (Act I σ ε) → σ → Except ε α → Prop} {p : Process I σ ε α}
    {past : List (Act I σ ε)} {s : σ} (h : p.Obeys G R Q past s) (h' : p.Obeys G' R' Q' past s) :
    p.Obeys (fun past s s' => G past s s' ∧ G' past s s') (fun past s r => R past s r ∧ R' past s r)
      (fun past s x => Q past s x ∧ Q' past s x) past s := by
  induction p generalizing past s with
  | done a => exact ⟨h, h'⟩
  | fail e => exact ⟨h, h'⟩
  | get k ih => exact fun s' => ih s' (h s') (h' s')
  | put s' k ih => exact ⟨⟨h.1, h'.1⟩, ih h.2 h'.2⟩
  | await r k ih => exact ⟨⟨h.1, h'.1⟩, fun a => ih a (h.2 a) (h'.2 a)⟩

/-- What every longer past allows, any process obeys. -/
theorem obeys_of_subset {Q : List (Act I σ ε) → σ → Except ε α → Prop} {p : Process I σ ε α}
    {past : List (Act I σ ε)} {s : σ} (hG : ∀ past' s s', past ⊆ past' → G past' s s')
    (hR : ∀ past' s r, past ⊆ past' → R past' s r) (hQ : ∀ past' s x, past ⊆ past' → Q past' s x) :
    p.Obeys G R Q past s := by
  have hlonger : ∀ (past past' : List (Act I σ ε)) (act : Act I σ ε),
      past ++ [act] ⊆ past' → past ⊆ past' :=
    fun past past' act h => List.Subset.trans (List.subset_append_left past [act]) h
  induction p generalizing past s with
  | done a => exact hQ _ _ _ (List.Subset.refl past)
  | fail e => exact hQ _ _ _ (List.Subset.refl past)
  | get k ih => exact fun s' => ih s' hG hR hQ
  | put s' k ih =>
      exact ⟨hG _ _ _ (List.Subset.refl past), ih (fun _ _ _ h => hG _ _ _ (hlonger _ _ _ h))
        (fun _ _ _ h => hR _ _ _ (hlonger _ _ _ h)) fun _ _ _ h => hQ _ _ _ (hlonger _ _ _ h)⟩
  | await r k ih =>
      exact ⟨hR _ _ _ (List.Subset.refl past), fun a =>
        ih a (fun _ _ _ h => hG _ _ _ (hlonger _ _ _ h))
          (fun _ _ _ h => hR _ _ _ (hlonger _ _ _ h)) fun _ _ _ h => hQ _ _ _ (hlonger _ _ _ h)⟩

/-- The contract of a sequence: the first part's end must set up the rest. -/
theorem obeys_bind {Q : List (Act I σ ε) → σ → Except ε β → Prop} {p : Process I σ ε α}
    {f : α → Process I σ ε β} {past : List (Act I σ ε)} {s : σ}
    (h : p.Obeys G R (fun past s x => match x with
      | .ok a => (f a).Obeys G R Q past s
      | .error e => Q past s (.error e)) past s) :
    (p >>= f).Obeys G R Q past s := by
  change (p.bind f).Obeys G R Q past s
  induction p generalizing past s with
  | done a => exact h
  | fail e => exact h
  | get k ih => exact fun s' => ih s' (h s')
  | put s' k ih => exact ⟨h.1, ih h.2⟩
  | await r k ih => exact ⟨h.1, fun a => ih a (h.2 a)⟩

/-- The contract of a guarded process: a throw must set up the handler. -/
theorem obeys_tryCatch {Q : List (Act I σ ε) → σ → Except ε α → Prop} {p : Process I σ ε α}
    {c : ε → Process I σ ε α} {past : List (Act I σ ε)} {s : σ}
    (h : p.Obeys G R (fun past s x => match x with
      | .ok a => Q past s (.ok a)
      | .error e => (c e).Obeys G R Q past s) past s) :
    (tryCatch p c).Obeys G R Q past s := by
  induction p generalizing past s with
  | done a => exact h
  | fail e => exact h
  | get k ih => exact fun s' => ih s' (h s')
  | put s' k ih => exact ⟨h.1, ih h.2⟩
  | await r k ih => exact ⟨h.1, fun a => ih a (h.2 a)⟩

/-- A request is its answer, value or exception, put behind it in the past. -/
theorem obeys_request {r : I.Req} {Q : List (Act I σ ε) → σ → Except ε (I.Ans r) → Prop}
    {past : List (Act I σ ε)} {s : σ} (hR : R past s r)
    (hQ : ∀ a, Q (past ++ [.asked r a]) s a) :
    (request r : Process I σ ε (I.Ans r)).Obeys G R Q past s := by
  refine ⟨hR, fun a => ?_⟩
  cases a with
  | ok a => exact hQ (.ok a)
  | error e => exact hQ (.error e)

/-- An invariant of the past, the variables and the outside that survives every
    write and every request a contract allows survives a run, and the run's end
    meets the contract's postcondition. What is known of the requests of the run
    may be used. -/
theorem obeys_run_of_requests (reply : Reply I ε ω) {Q : List (Act I σ ε) → σ → Except ε α → Prop}
    {T : I.Req → ω → Prop} (J : List (Act I σ ε) → σ → ω → Prop)
    (hput : ∀ past s s' w, J past s w → G past s s' → J (past ++ [.wrote s s']) s' w)
    (hask : ∀ past s w r, T r w → J past s w → R past s r →
      J (past ++ [.asked r (reply r w).1]) s (reply r w).2)
    {p : Process I σ ε α} {past : List (Act I σ ε)} {s : σ} {w : ω}
    (hp : p.Obeys G R Q past s) (hJ : J past s w)
    (hT : ∀ entry ∈ requests reply p s w, T entry.1 entry.2) :
    ∃ past', J past' (run reply p s w).vars (run reply p s w).world ∧
      Q past' (run reply p s w).vars (run reply p s w).result := by
  induction p generalizing past s w with
  | done a => exact ⟨past, hJ, hp⟩
  | fail e => exact ⟨past, hJ, hp⟩
  | get k ih => exact ih s (hp s) hJ hT
  | put s' k ih => exact ih hp.2 (hput _ _ _ _ hJ hp.1) hT
  | await r k ih =>
      refine ih _ (hp.2 _) (hask _ _ _ _ (hT (r, w) List.mem_cons_self) hJ hp.1) ?_
      exact fun entry hentry => hT entry (List.mem_cons_of_mem _ hentry)

/-- Such an invariant also holds wherever the run is cut short. -/
theorem obeys_interrupt_of_requests (reply : Reply I ε ω)
    {Q : List (Act I σ ε) → σ → Except ε α → Prop} {T : I.Req → ω → Prop}
    (J : List (Act I σ ε) → σ → ω → Prop)
    (hput : ∀ past s s' w, J past s w → G past s s' → J (past ++ [.wrote s s']) s' w)
    (hask : ∀ past s w r, T r w → J past s w → R past s r →
      J (past ++ [.asked r (reply r w).1]) s (reply r w).2)
    {p : Process I σ ε α} {n : Nat} {past : List (Act I σ ε)} {s : σ} {w : ω}
    (hp : p.Obeys G R Q past s) (hJ : J past s w)
    (hT : ∀ entry ∈ (requests reply p s w).take n, T entry.1 entry.2) :
    ∃ past' s', J past' s' (interrupt reply p n s w) := by
  induction p generalizing n past s w with
  | done a => exact ⟨past, s, hJ⟩
  | fail e => exact ⟨past, s, hJ⟩
  | get k ih => exact ih s (hp s) hJ hT
  | put s' k ih => exact ih hp.2 (hput _ _ _ _ hJ hp.1) hT
  | await r k ih =>
      cases n with
      | zero => exact ⟨past, s, hJ⟩
      | succ n =>
          refine ih _ (hp.2 _) (hask _ _ _ _ (hT (r, w) List.mem_cons_self) hJ hp.1) ?_
          exact fun entry hentry => hT entry (List.mem_cons_of_mem _ hentry)

/-- Whatever the requests of a run are. -/
theorem obeys_run (reply : Reply I ε ω) {Q : List (Act I σ ε) → σ → Except ε α → Prop}
    (J : List (Act I σ ε) → σ → ω → Prop)
    (hput : ∀ past s s' w, J past s w → G past s s' → J (past ++ [.wrote s s']) s' w)
    (hask : ∀ past s w r, J past s w → R past s r →
      J (past ++ [.asked r (reply r w).1]) s (reply r w).2)
    {p : Process I σ ε α} {past : List (Act I σ ε)} {s : σ} {w : ω}
    (hp : p.Obeys G R Q past s) (hJ : J past s w) :
    ∃ past', J past' (run reply p s w).vars (run reply p s w).world ∧
      Q past' (run reply p s w).vars (run reply p s w).result :=
  @obeys_run_of_requests _ _ _ _ _ _ _ reply _ (fun _ _ => True) J hput
    (fun past s w r _ => hask past s w r) p past s w hp hJ fun _ _ => trivial

theorem obeys_interrupt (reply : Reply I ε ω) {Q : List (Act I σ ε) → σ → Except ε α → Prop}
    (J : List (Act I σ ε) → σ → ω → Prop)
    (hput : ∀ past s s' w, J past s w → G past s s' → J (past ++ [.wrote s s']) s' w)
    (hask : ∀ past s w r, J past s w → R past s r →
      J (past ++ [.asked r (reply r w).1]) s (reply r w).2)
    {p : Process I σ ε α} {n : Nat} {past : List (Act I σ ε)} {s : σ} {w : ω}
    (hp : p.Obeys G R Q past s) (hJ : J past s w) :
    ∃ past' s', J past' s' (interrupt reply p n s w) :=
  @obeys_interrupt_of_requests _ _ _ _ _ _ _ reply _ (fun _ _ => True) J hput
    (fun past s w r _ => hask past s w r) p n past s w hp hJ fun _ _ => trivial

/-- Every request of a run is one the contract allows. -/
theorem obeys_requests (reply : Reply I ε ω) {Q : List (Act I σ ε) → σ → Except ε α → Prop}
    {p : Process I σ ε α} {past : List (Act I σ ε)} {s : σ} {w : ω}
    (hp : p.Obeys G R Q past s) {entry : I.Req × ω} (h : entry ∈ requests reply p s w) :
    ∃ past' s', R past' s' entry.1 := by
  induction p generalizing past s w with
  | done a => exact absurd h List.not_mem_nil
  | fail e => exact absurd h List.not_mem_nil
  | get k ih => exact ih s (hp s) h
  | put s' k ih => exact ih hp.2 h
  | await r k ih =>
      rcases List.mem_cons.mp h with rfl | h
      · exact ⟨past, s, hp.1⟩
      · exact ih _ (hp.2 _) h

/-- A run ends as its contract says, with a past whose answers are those of its
    requests. -/
theorem obeys_run_asked (reply : Reply I ε ω) {Q : List (Act I σ ε) → σ → Except ε α → Prop}
    {p : Process I σ ε α} {past : List (Act I σ ε)} {s : σ} {w : ω}
    (hp : p.Obeys G R Q past s) :
    ∃ past', Q past' (run reply p s w).vars (run reply p s w).result ∧
      ∀ r a, .asked r a ∈ past' → .asked r a ∈ past ∨
        ∃ w', (r, w') ∈ requests reply p s w ∧ (reply r w').1 = a := by
  induction p generalizing past s w with
  | done a => exact ⟨past, hp, fun _ _ h => .inl h⟩
  | fail e => exact ⟨past, hp, fun _ _ h => .inl h⟩
  | get k ih => exact ih s (hp s)
  | put s' k ih =>
      rcases ih hp.2 (w := w) with ⟨past', hQ, hpast⟩
      exact ⟨past', hQ, fun r a h => (hpast r a h).imp_left Act.asked_of_wrote⟩
  | await r k ih =>
      rcases ih (reply r w).1 (hp.2 _) (w := (reply r w).2) with ⟨past', hQ, hpast⟩
      refine ⟨past', hQ, fun r' a h => ?_⟩
      rcases hpast r' a h with h | ⟨w', hmem, hans⟩
      · rcases List.mem_append.mp h with h | h
        · exact .inl h
        · cases List.mem_singleton.mp h
          exact .inr ⟨w, List.mem_cons_self, rfl⟩
      · exact .inr ⟨w', List.mem_cons_of_mem _ hmem, hans⟩

/-- Nor is a request made on the strength of anything else. -/
theorem obeys_requests_asked (reply : Reply I ε ω) {Q : List (Act I σ ε) → σ → Except ε α → Prop}
    {p : Process I σ ε α} {past : List (Act I σ ε)} {s : σ} {w : ω}
    (hp : p.Obeys G R Q past s) {entry : I.Req × ω} (h : entry ∈ requests reply p s w) :
    ∃ past' s', R past' s' entry.1 ∧ ∀ r a, .asked r a ∈ past' → .asked r a ∈ past ∨
      ∃ w', (r, w') ∈ requests reply p s w ∧ (reply r w').1 = a := by
  induction p generalizing past s w with
  | done a => exact absurd h List.not_mem_nil
  | fail e => exact absurd h List.not_mem_nil
  | get k ih => exact ih s (hp s) h
  | put s' k ih =>
      rcases ih hp.2 h with ⟨past', s'', hR, hpast⟩
      exact ⟨past', s'', hR, fun r a h => (hpast r a h).imp_left Act.asked_of_wrote⟩
  | await r k ih =>
      rcases List.mem_cons.mp h with rfl | h
      · exact ⟨past, s, hp.1, fun _ _ h => .inl h⟩
      rcases ih (reply r w).1 (hp.2 _) h with ⟨past', s', hR, hpast⟩
      refine ⟨past', s', hR, fun r' a h => ?_⟩
      rcases hpast r' a h with h | ⟨w', hmem, hans⟩
      · rcases List.mem_append.mp h with h | h
        · exact .inl h
        · cases List.mem_singleton.mp h
          exact .inr ⟨w, List.mem_cons_self, rfl⟩
      · exact .inr ⟨w', List.mem_cons_of_mem _ hmem, hans⟩

end Obeys

/-- Whatever it reads and is answered, a process asks only for what `R` has. -/
def Asks (R : I.Req → Prop) (p : Process I σ ε α) : Prop :=
  ∀ past s, p.Obeys (fun _ _ _ => True) (fun _ _ r => R r) (fun _ _ _ => True) past s

section Asks

variable {R : I.Req → Prop}

theorem asks_pure (a : α) : Asks R (pure a : Process I σ ε α) := fun _ _ => trivial

theorem asks_ofResult (x : Except ε α) : Asks R (ofResult x : Process I σ ε α) := fun _ _ => by
  cases x <;> trivial

theorem asks_read : Asks R (read : Process I σ ε σ) := fun _ _ _ => trivial

theorem asks_write (s : σ) : Asks R (write s : Process I σ ε Unit) := fun _ _ => ⟨trivial, trivial⟩

theorem asks_request {r : I.Req} (h : R r) : Asks R (request r : Process I σ ε (I.Ans r)) :=
  fun _ _ => obeys_request h fun _ => trivial

theorem asks_bind {p : Process I σ ε α} {f : α → Process I σ ε β} (hp : Asks R p)
    (hf : ∀ a, Asks R (f a)) : Asks R (p >>= f) := fun past s => by
  refine obeys_bind (obeys_mono (fun _ _ _ h => h) (fun _ _ _ h => h) (fun past' s' x _ => ?_)
    (hp past s))
  cases x with
  | ok a => exact hf a past' s'
  | error e => trivial

theorem asks_map {p : Process I σ ε α} (f : α → β) (hp : Asks R p) : Asks R (f <$> p) :=
  asks_bind hp fun a => asks_pure (f a)

theorem asks_tryCatch {p : Process I σ ε α} {c : ε → Process I σ ε α} (hp : Asks R p)
    (hc : ∀ e, Asks R (c e)) : Asks R (tryCatch p c) := fun past s => by
  refine obeys_tryCatch (obeys_mono (fun _ _ _ h => h) (fun _ _ _ h => h) (fun past' s' x _ => ?_)
    (hp past s))
  cases x with
  | ok a => trivial
  | error e => exact hc e past' s'

theorem asks_forM {p : α → Process I σ ε Unit} {as : List α} (h : ∀ a ∈ as, Asks R (p a)) :
    Asks R (as.forM p) := by
  induction as with
  | nil => exact asks_pure ()
  | cons a as ih =>
      exact asks_bind (h a List.mem_cons_self) fun _ =>
        ih fun a' ha' => h a' (List.mem_cons_of_mem a ha')

/-- So does every run of it. -/
theorem asks_requests (reply : Reply I ε ω) {p : Process I σ ε α} (hp : Asks R p) {s : σ} {w : ω}
    {entry : I.Req × ω} (h : entry ∈ requests reply p s w) : R entry.1 := by
  rcases obeys_requests reply (hp [] s) h with ⟨_, _, hR⟩
  exact hR

/-- What every reply to such a request keeps of the outside, a run keeps. -/
theorem asks_run (reply : Reply I ε ω) {P : ω → Prop}
    (hask : ∀ r w, R r → P w → P (reply r w).2) {p : Process I σ ε α} (hp : Asks R p) (s : σ)
    {w : ω} (h : P w) : P (run reply p s w).world := by
  rcases obeys_run reply (fun _ _ w => P w) (fun _ _ _ _ h _ => h)
    (fun _ _ w r h hR => hask r w hR h) (hp [] s) h with ⟨_, hrun, _⟩
  exact hrun

end Asks

end Process

end Async
