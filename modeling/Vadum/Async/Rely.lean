import Vadum.Async.Interleave

/-!
# Rely and Guarantee

A thread among others, one segment at a time. Nobody sees the variables in the
middle of a segment, so what a thread does to the others is what a whole
segment makes of the variables, and what they do to it happens while it waits.

`Process.Keeps` is the contract of a thread in these terms. `Rely` says what the
others keep while the thread waits, and may look at what the thread has done.
In return `Pauses` holds wherever a segment ends in a request, with what it
leaves to do, `Ask` of the request when it is served, and `Ends` of the end. A
`Moment` has all a contract can speak of: where the segment began and what it
has made of the variables.

`Kept` says of a system that every thread that has begun keeps its contract. It
survives a step if the step is one the others rely on, and `Kept.segment` is
what every segment guarantees.

## Main definitions

* `Moment`: Where a process stands within a segment.
* `Process.Keeps`, `Thread.Keeps`: The contract.
* `Unbegun`, `InProgress`, `Begins`: Where a thread stands.
* `Kept`: Threads that keep their contracts.
* `Process.Owes`: A request that is made before a process ends.

## Theorems

* `keeps_bind`, `keeps_request`, `keeps_of_obeys`: The contracts of the parts make
  up the contract of the whole.
* `settle_keeps`: What a segment guarantees and leaves.
* `Kept.resume`, `Kept.serve`: What the steps of a system keep.
* `owes_settle`: What a process owes, its segment leaves owed.
-/

namespace Async

variable {I : Interface} {σ ε ω α β : Type}

/-- Where a process stands within a segment: what it had done and found when the
    segment began, what it has done by now, and the variables as it last saw
    them and as they are. -/
structure Moment (I : Interface) (σ ε : Type) where
  before : List (Act I σ ε)
  start : σ
  past : List (Act I σ ε)
  seen : σ
  now : σ

namespace Moment

/-- A segment begins. -/
def opening (past : List (Act I σ ε)) (seen s : σ) : Moment I σ ε := ⟨past, s, past, seen, s⟩

def read (m : Moment I σ ε) : Moment I σ ε := { m with seen := m.now }

def wrote (m : Moment I σ ε) (s' : σ) : Moment I σ ε :=
  { m with past := m.past ++ [.wrote m.seen s'], seen := s', now := s' }

end Moment

namespace Process

section Keeps

variable (Rely : List (Act I σ ε) → σ → σ → Prop) (Ask : List (Act I σ ε) → σ → I.Req → Prop)

/-- What a process does among others that keep `Rely` while it waits. -/
def Keeps (Pauses : Moment I σ ε → Process I σ ε α → Prop)
    (Ends : Moment I σ ε → Except ε α → Prop) : Moment I σ ε → Process I σ ε α → Prop
  | m, done a => Ends m (.ok a)
  | m, fail e => Ends m (.error e)
  | m, get k => (k m.now).Keeps Pauses Ends m.read
  | m, put s' k => k.Keeps Pauses Ends (m.wrote s')
  | m, await r k => Pauses m (await r k) ∧ ∀ s', Rely m.past m.now s' → Ask m.past s' r ∧
      ∀ a s'', Rely (m.past ++ [.asked r a]) s' s'' →
        (k a).Keeps Pauses Ends (.opening (m.past ++ [.asked r a]) m.seen s'')

variable {Rely Ask} {Pauses : Moment I σ ε → Process I σ ε β → Prop}
  {Ends : Moment I σ ε → Except ε β → Prop}

variable (Rely Ask Pauses Ends) in
/-- Where the first part of a sequence ends, the rest must keep the contract, in
    the same segment. -/
def SetsUp (f : α → Process I σ ε β) (m : Moment I σ ε) : Except ε α → Prop
  | .ok a => (f a).Keeps Rely Ask Pauses Ends m
  | .error e => Ends m (.error e)

/-- The contract of a sequence. -/
theorem keeps_bind {p : Process I σ ε α} {f : α → Process I σ ε β} {m : Moment I σ ε}
    (h : p.Keeps Rely Ask (fun m rest => Pauses m (rest >>= f))
      (SetsUp Rely Ask Pauses Ends f) m) :
    (p >>= f).Keeps Rely Ask Pauses Ends m := by
  change (p.bind f).Keeps Rely Ask Pauses Ends m
  induction p generalizing m with
  | done a => exact h
  | fail e => exact h
  | get k ih => exact ih _ h
  | put s' k ih => exact ih h
  | await r k ih =>
      refine ⟨h.1, fun s' hs' => ⟨(h.2 s' hs').1, fun a s'' hs'' => ?_⟩⟩
      exact ih a ((h.2 s' hs').2 a s'' hs'')

/-- The contract of a process whose result is mapped. -/
theorem keeps_map_iff {f : α → β} {p : Process I σ ε α} {m : Moment I σ ε} :
    (f <$> p).Keeps Rely Ask Pauses Ends m ↔
      p.Keeps Rely Ask (fun m rest => Pauses m (f <$> rest)) (fun m x => Ends m (x.map f)) m := by
  change (p.bind (pure ∘ f)).Keeps Rely Ask Pauses Ends m ↔ _
  induction p generalizing m with
  | done a => exact Iff.rfl
  | fail e => exact Iff.rfl
  | get k ih => exact ih _
  | put s' k ih => exact ih
  | await r k ih =>
      refine and_congr Iff.rfl (forall₂_congr fun s' _ => and_congr Iff.rfl ?_)
      exact forall_congr' fun a => forall₂_congr fun s'' _ => ih a

theorem keeps_mono {Pauses' : Moment I σ ε → Process I σ ε β → Prop}
    {Ends' : Moment I σ ε → Except ε β → Prop} (hp : ∀ m rest, Pauses m rest → Pauses' m rest)
    (he : ∀ m x, Ends m x → Ends' m x) {p : Process I σ ε β} {m : Moment I σ ε}
    (h : p.Keeps Rely Ask Pauses Ends m) : p.Keeps Rely Ask Pauses' Ends' m := by
  induction p generalizing m with
  | done a => exact he _ _ h
  | fail e => exact he _ _ h
  | get k ih => exact ih _ h
  | put s' k ih => exact ih h
  | await r k ih =>
      refine ⟨hp _ _ h.1, fun s' hs' => ⟨(h.2 s' hs').1, fun a s'' hs'' => ?_⟩⟩
      exact ih a ((h.2 s' hs').2 a s'' hs'')

theorem keeps_request {r : I.Req} {Pauses : Moment I σ ε → Process I σ ε (I.Ans r) → Prop}
    {Ends : Moment I σ ε → Except ε (I.Ans r) → Prop} {m : Moment I σ ε}
    (hpause : Pauses m (request r)) (hask : ∀ s', Rely m.past m.now s' → Ask m.past s' r)
    (hend : ∀ a s' s'', Rely m.past m.now s' → Rely (m.past ++ [.asked r a]) s' s'' →
      Ends (.opening (m.past ++ [.asked r a]) m.seen s'') a) :
    (request r : Process I σ ε (I.Ans r)).Keeps Rely Ask Pauses Ends m := by
  refine ⟨hpause, fun s' hs' => ⟨hask s' hs', fun a s'' hs'' => ?_⟩⟩
  cases a with
  | ok a => exact hend (.ok a) s' s'' hs' hs''
  | error e => exact hend (.error e) s' s'' hs' hs''

theorem keeps_ofResult {x : Except ε β} {m : Moment I σ ε} (h : Ends m x) :
    (ofResult x : Process I σ ε β).Keeps Rely Ask Pauses Ends m := by
  cases x with
  | ok a => exact h
  | error e => exact h

/-- A process that writes nothing and only makes requests in `R`: whatever holds
    of a moment and survives its reads and its waits holds at its end. -/
theorem keeps_of_obeys {R : I.Req → Prop} (J : Moment I σ ε → Prop)
    (hread : ∀ m, J m → J m.read)
    (hwait : ∀ m r k, J m → R r → Pauses m (await r k) ∧
      ∀ s', Rely m.past m.now s' → Ask m.past s' r ∧
        ∀ a s'', Rely (m.past ++ [.asked r a]) s' s'' →
          J (.opening (m.past ++ [.asked r a]) m.seen s''))
    (hend : ∀ m x, J m → Ends m x) {p : Process I σ ε β} {past : List (Act I σ ε)} {s : σ}
    (hp : p.Obeys (fun _ _ _ => False) (fun _ _ r => R r) (fun _ _ _ => True) past s)
    {m : Moment I σ ε} (h : J m) : p.Keeps Rely Ask Pauses Ends m := by
  induction p generalizing past s m with
  | done a => exact hend m _ h
  | fail e => exact hend m _ h
  | get k ih => exact ih m.now (hp m.now) (hread m h)
  | put s' k ih => exact hp.1.elim
  | await r k ih =>
      rcases hwait m r k h hp.1 with ⟨hpause, hgo⟩
      refine ⟨hpause, fun s' hs' => ⟨(hgo s' hs').1, fun a s'' hs'' => ?_⟩⟩
      exact ih a (hp.2 a) ((hgo s' hs').2 a s'' hs'')

end Keeps

/-- Before it ends, the process makes this request. -/
def Owes (r : I.Req) : Process I σ ε α → Prop
  | done _ => False
  | fail _ => False
  | get k => ∀ s, (k s).Owes r
  | put _ k => k.Owes r
  | await r' k => r' = r ∨ ∀ a, (k a).Owes r

theorem owes_bind {r : I.Req} {p : Process I σ ε α} (h : p.Owes r) (f : α → Process I σ ε β) :
    (p >>= f).Owes r := by
  change (p.bind f).Owes r
  induction p with
  | done a => exact h.elim
  | fail e => exact h.elim
  | get k ih => exact fun s => ih s (h s)
  | put s' k ih => exact ih h
  | await r' k ih => exact h.imp_right fun h a => ih a (h a)

theorem owes_map {r : I.Req} {p : Process I σ ε α} (h : p.Owes r) (f : α → β) :
    (f <$> p).Owes r :=
  owes_bind h (pure ∘ f)

theorem owes_request (r : I.Req) : (request r : Process I σ ε (I.Ans r)).Owes r := .inl rfl

end Process

section Threads

variable (Rely : List (Act I σ ε) → σ → σ → Prop) (Ask : List (Act I σ ε) → σ → I.Req → Prop)
  (Pauses : Moment I σ ε → Process I σ ε α → Prop) (Ends : Moment I σ ε → Except ε α → Prop)

/-- A thread that keeps its contract from here on, whatever others make of the
    variables meanwhile. -/
def Thread.Keeps (past : List (Act I σ ε)) (s : σ) (thread : Thread I σ ε α) : Prop :=
  match thread.phase with
  | .ready p => ∀ s', Rely past s s' →
      p.Keeps Rely Ask Pauses Ends (.opening past thread.seen s')
  | .waiting r k => ∀ s', Rely past s s' → Ask past s' r ∧
      ∀ a s'', Rely (past ++ [.asked r a]) s' s'' →
        (k a).Keeps Rely Ask Pauses Ends (.opening (past ++ [.asked r a]) thread.seen s'')
  | .ended _ => True

/-- What a segment that began at a moment guarantees where it stops. -/
def Stops (m : Moment I σ ε) (segment : Segment I σ ε α) : Prop :=
  let end' : Moment I σ ε :=
    { m with past := m.past ++ segment.acts, seen := segment.thread.seen, now := segment.vars }
  match segment.thread.phase with
  | .ready _ => False
  | .waiting r k => Pauses end' (.await r k)
  | .ended x => Ends end' x

/-- A request that a thread makes before it ends. -/
def Thread.Owes (r : I.Req) (thread : Thread I σ ε α) : Prop :=
  match thread.phase with
  | .ready p => p.Owes r
  | .waiting r' k => r' = r ∨ ∀ a, (k a).Owes r
  | .ended _ => False

variable {Rely Ask Pauses Ends}

/-- What the others do is what the thread relies on. -/
theorem Thread.Keeps.stable {past : List (Act I σ ε)} {s s' : σ} {thread : Thread I σ ε α}
    (htrans : ∀ past s s' s'', Rely past s s' → Rely past s' s'' → Rely past s s'')
    (h : thread.Keeps Rely Ask Pauses Ends past s) (hs : Rely past s s') :
    thread.Keeps Rely Ask Pauses Ends past s' := by
  rcases thread with ⟨seen, p | ⟨r, k⟩ | x⟩
  · exact fun s'' hs'' => h s'' (htrans _ _ _ _ hs hs'')
  · exact fun s'' hs'' => h s'' (htrans _ _ _ _ hs hs'')
  · trivial

/-- A segment keeps what its process's contract says, and stops where the
    contract goes on. -/
theorem settle_keeps {p : Process I σ ε α} {m : Moment I σ ε}
    (h : p.Keeps Rely Ask Pauses Ends m) :
    (p.settle m.seen m.now).thread.Keeps Rely Ask Pauses Ends
        (m.past ++ (p.settle m.seen m.now).acts) (p.settle m.seen m.now).vars ∧
      Stops Pauses Ends m (p.settle m.seen m.now) := by
  induction p generalizing m with
  | done a =>
      simp only [Process.settle, List.append_nil]
      refine ⟨trivial, ?_⟩
      simp only [Stops, List.append_nil]
      exact h
  | fail e =>
      simp only [Process.settle, List.append_nil]
      refine ⟨trivial, ?_⟩
      simp only [Stops, List.append_nil]
      exact h
  | get k ih => exact ih m.now h
  | put s' k ih =>
      have hrest := ih h
      simp only [Process.settle, Stops] at hrest ⊢
      rw [List.append_cons]
      exact hrest
  -- The segment stops at the request, which is where something must be kept.
  | await r k ih =>
      simp only [Process.settle, List.append_nil]
      refine ⟨h.2, ?_⟩
      simp only [Stops, List.append_nil]
      exact h.1

/-- What a process owes, a segment of it leaves owed. -/
theorem owes_settle {r : I.Req} {p : Process I σ ε α} (h : p.Owes r) (seen s : σ) :
    (p.settle seen s).thread.Owes r := by
  induction p generalizing seen s with
  | done a => exact h.elim
  | fail e => exact h.elim
  | get k ih => exact ih s (h s) s s
  | put s' k ih => exact ih h s' s'
  | await r' k ih => exact h

end Threads

/-- A thread that has not begun. -/
def Unbegun (processes : List (Process I σ ε α)) (t : Nat) (past : List (Act I σ ε))
    (thread : Thread I σ ε α) : Prop :=
  past = [] ∧ ∃ seen p, thread = ⟨seen, .ready p⟩ ∧ processes[t]? = some p

/-- A thread that has begun and not ended. One that is about to run has begun if
    a request of it was served. -/
def InProgress (sys : System I σ ε ω α) (t : Nat) : Prop :=
  match sys.threads[t]? with
  | some ⟨_, .ready _⟩ => pastOf t sys.log ≠ []
  | some ⟨_, .waiting _ _⟩ => True
  | _ => False

/-- A thread that is about to begin. -/
def Begins (sys : System I σ ε ω α) (t : Nat) : Prop :=
  (∃ seen p, sys.threads[t]? = some ⟨seen, .ready p⟩) ∧ pastOf t sys.log = []

instance decidableInProgress (sys : System I σ ε ω α) (t : Nat) : Decidable (InProgress sys t) :=
  match h : sys.threads[t]? with
  | some ⟨_, .ready _⟩ =>
    decidable_of_iff (pastOf t sys.log ≠ []) (by simp only [InProgress, h])
  | some ⟨_, .waiting _ _⟩ => isTrue (by simp only [InProgress, h])
  | some ⟨_, .ended _⟩ => isFalse (by simp only [InProgress, h, not_false_eq_true])
  | none => isFalse (by simp only [InProgress, h, not_false_eq_true])

instance decidableBegins (sys : System I σ ε ω α) (t : Nat) : Decidable (Begins sys t) :=
  match h : sys.threads[t]? with
  | some ⟨seen, .ready p⟩ =>
    decidable_of_iff (pastOf t sys.log = []) (and_iff_right ⟨seen, p, h⟩).symm
  | some ⟨_, .waiting _ _⟩ => isFalse fun ⟨⟨_, _, heq⟩, _⟩ => by
    cases h.symm.trans heq
  | some ⟨_, .ended _⟩ => isFalse fun ⟨⟨_, _, heq⟩, _⟩ => by
    cases h.symm.trans heq
  | none => isFalse fun ⟨⟨_, _, heq⟩, _⟩ => by
    cases h.symm.trans heq

/-- A thread's turn leaves the other threads where they are. -/
theorem resume_other (reply : Reply I ε ω) {sys : System I σ ε ω α} {t t' : Nat} (ht : t' ≠ t) :
    (sys.step reply (.resume t)).threads[t']? = sys.threads[t']? ∧
      pastOf t' (sys.step reply (.resume t)).log = pastOf t' sys.log := by
  rcases hthread : sys.threads[t]? with _ | ⟨seen, p | ⟨r, k⟩ | x⟩
  · simp only [System.step, hthread, and_self]
  · rw [System.step_resume reply hthread]
    refine ⟨List.getElem?_set_ne (Ne.symm ht), ?_⟩
    rw [pastOf_append, pastOf_of_ne (Ne.symm ht), List.append_nil]
  · simp only [System.step, hthread, and_self]
  · simp only [System.step, hthread, and_self]

/-- So does serving its request. -/
theorem serve_other (reply : Reply I ε ω) {sys : System I σ ε ω α} {t t' : Nat} (ht : t' ≠ t) :
    (sys.step reply (.serve t)).threads[t']? = sys.threads[t']? ∧
      pastOf t' (sys.step reply (.serve t)).log = pastOf t' sys.log := by
  rcases hthread : sys.threads[t]? with _ | ⟨seen, p | ⟨r, k⟩ | x⟩
  · simp only [System.step, hthread, and_self]
  · simp only [System.step, hthread, and_self]
  · rw [System.step_serve reply hthread]
    refine ⟨List.getElem?_set_ne (Ne.symm ht), ?_⟩
    have hnone : pastOf t' [(t, Act.asked (σ := σ) r (reply r sys.world).1)] = [] :=
      pastOf_of_ne (Ne.symm ht) [Act.asked r (reply r sys.world).1]
    rw [pastOf_append, hnone, List.append_nil]
  · simp only [System.step, hthread, and_self]

theorem InProgress.lt {sys : System I σ ε ω α} {t : Nat} (h : InProgress sys t) :
    t < sys.threads.length := by
  by_contra hle
  simp only [InProgress, List.getElem?_eq_none (Nat.not_lt.mp hle)] at h

theorem not_inProgress_start (s : σ) (w : ω) (processes : List (Process I σ ε α)) (t : Nat) :
    ¬ InProgress (System.start s w processes : System I σ ε ω α) t := by
  intro h
  simp only [InProgress, System.start, List.getElem?_map] at h
  rcases hprocess : processes[t]? with _ | p <;> rw [hprocess] at h
  · exact h
  · exact h rfl

theorem inProgress_congr {sys sys' : System I σ ε ω α} {t : Nat}
    (h : sys'.threads[t]? = sys.threads[t]? ∧ pastOf t sys'.log = pastOf t sys.log) :
    InProgress sys' t ↔ InProgress sys t := by
  simp only [InProgress, h.1, h.2]

section Kept

variable (processes : List (Process I σ ε α))
  (Rely : Nat → List (Act I σ ε) → σ → σ → Prop) (Ask : Nat → List (Act I σ ε) → σ → I.Req → Prop)
  (Pauses : Nat → Moment I σ ε → Process I σ ε α → Prop)
  (Ends : Nat → Moment I σ ε → Except ε α → Prop)

/-- Contracts that fit together: what a thread relies on can happen in many
    steps or none, and every process keeps its contract wherever it begins. -/
structure Fits : Prop where
  refl : ∀ t past s, Rely t past s s
  trans : ∀ t past s s' s'', Rely t past s s' → Rely t past s' s'' → Rely t past s s''
  keeps : ∀ t (p : Process I σ ε α), processes[t]? = some p → ∀ seen s,
    p.Keeps (Rely t) (Ask t) (Pauses t) (Ends t) (.opening [] seen s)

/-- Every thread that has begun keeps its contract. -/
def Kept (sys : System I σ ε ω α) : Prop :=
  ∀ t (thread : Thread I σ ε α), sys.threads[t]? = some thread →
    Unbegun processes t (pastOf t sys.log) thread ∨
    ((∃ p, thread.phase = .ready p) → pastOf t sys.log ≠ []) ∧
      thread.Keeps (Rely t) (Ask t) (Pauses t) (Ends t) (pastOf t sys.log) sys.vars

variable {processes Rely Ask Pauses Ends} {reply : Reply I ε ω}

theorem kept_start (s : σ) (w : ω) :
    Kept processes Rely Ask Pauses Ends (System.start s w processes : System I σ ε ω α) := by
  intro t thread hthread
  simp only [System.start, List.getElem?_map, Option.map_eq_some_iff] at hthread
  rcases hthread with ⟨p, hp, rfl⟩
  exact .inl ⟨rfl, s, p, rfl, hp⟩

variable {sys : System I σ ε ω α} {t : Nat} {seen : σ}

/-- A thread that is about to run keeps its contract from what is there. -/
theorem Kept.ready (hfits : Fits processes Rely Ask Pauses Ends)
    (h : Kept processes Rely Ask Pauses Ends sys) {p : Process I σ ε α}
    (hthread : sys.threads[t]? = some ⟨seen, .ready p⟩) :
    p.Keeps (Rely t) (Ask t) (Pauses t) (Ends t) (.opening (pastOf t sys.log) seen sys.vars) := by
  rcases h t _ hthread with ⟨hpast, seen', p', heq, hp⟩ | ⟨_, hkeeps⟩
  · cases heq
    rw [hpast]
    exact hfits.keeps t p hp seen sys.vars
  · exact hkeeps sys.vars (hfits.refl _ _ _)

/-- What the segment of a thread's turn guarantees. -/
theorem Kept.segment (hfits : Fits processes Rely Ask Pauses Ends)
    (h : Kept processes Rely Ask Pauses Ends sys) {p : Process I σ ε α}
    (hthread : sys.threads[t]? = some ⟨seen, .ready p⟩) :
    Stops (Pauses t) (Ends t) (.opening (pastOf t sys.log) seen sys.vars)
      (p.settle seen sys.vars) :=
  (settle_keeps (h.ready hfits hthread)).2

/-- A request that is served is one its thread may make there. -/
theorem Kept.ask (hfits : Fits processes Rely Ask Pauses Ends)
    (h : Kept processes Rely Ask Pauses Ends sys) {r : I.Req}
    {k : Except ε (I.Ans r) → Process I σ ε α}
    (hthread : sys.threads[t]? = some ⟨seen, .waiting r k⟩) :
    Ask t (pastOf t sys.log) sys.vars r := by
  rcases h t _ hthread with ⟨_, _, _, heq, _⟩ | ⟨_, hkeeps⟩
  · cases heq
  · exact (hkeeps sys.vars (hfits.refl _ _ _)).1

/-- A turn keeps the contracts, if the others in progress rely on no more. -/
theorem Kept.resume (hfits : Fits processes Rely Ask Pauses Ends)
    (h : Kept processes Rely Ask Pauses Ends sys) {p : Process I σ ε α}
    (hthread : sys.threads[t]? = some ⟨seen, .ready p⟩)
    (hothers : ∀ t', t' ≠ t → InProgress sys t' →
      Rely t' (pastOf t' sys.log) sys.vars (p.settle seen sys.vars).vars) :
    Kept processes Rely Ask Pauses Ends (sys.step reply (.resume t)) := by
  intro t' thread hthread'
  by_cases ht : t' = t
  · -- The thread that ran keeps its promises to where it stops.
    rw [System.step_resume reply hthread] at hthread' ⊢
    subst ht
    rw [List.getElem?_set_self (List.getElem?_eq_some_iff.mp hthread).1] at hthread'
    rw [← Option.some.inj hthread', pastOf_append, pastOf_map_self]
    rcases settle_keeps (h.ready hfits hthread) with ⟨hkeeps, hstops⟩
    refine .inr ⟨?_, hkeeps⟩
    rintro ⟨p', hp'⟩
    simp only [Moment.opening, Stops, hp'] at hstops
  · -- The others rely on what it did to the variables, if they have begun.
    rw [(resume_other reply ht).1] at hthread'
    rw [(resume_other reply ht).2, System.step_resume reply hthread]
    refine (h t' thread hthread').imp_right fun ⟨hbegun, hkeeps⟩ => ⟨hbegun, ?_⟩
    rcases thread with ⟨seen', p' | ⟨r', k'⟩ | x⟩
    · refine hkeeps.stable (hfits.trans t') (hothers t' ht ?_)
      simp only [InProgress, hthread']
      exact hbegun ⟨p', rfl⟩
    · refine hkeeps.stable (hfits.trans t') (hothers t' ht ?_)
      simp only [InProgress, hthread']
    · trivial

/-- So does serving a request. -/
theorem Kept.serve (hfits : Fits processes Rely Ask Pauses Ends)
    (h : Kept processes Rely Ask Pauses Ends sys) {r : I.Req}
    {k : Except ε (I.Ans r) → Process I σ ε α}
    (hthread : sys.threads[t]? = some ⟨seen, .waiting r k⟩) :
    Kept processes Rely Ask Pauses Ends (sys.step reply (.serve t)) := by
  intro t' thread hthread'
  by_cases ht : t' = t
  · rw [System.step_serve reply hthread] at hthread' ⊢
    subst ht
    rw [List.getElem?_set_self (List.getElem?_eq_some_iff.mp hthread).1] at hthread'
    rw [← Option.some.inj hthread', pastOf_append, pastOf_self]
    refine .inr ⟨fun _ => List.append_ne_nil_of_right_ne_nil _ (List.cons_ne_nil _ _),
      fun s'' hs'' => ?_⟩
    rcases h t' _ hthread with ⟨_, _, _, heq, _⟩ | ⟨_, hkeeps⟩
    · cases heq
    · exact (hkeeps sys.vars (hfits.refl _ _ _)).2 _ s'' hs''
  · rw [(serve_other reply ht).1] at hthread'
    rw [(serve_other reply ht).2, System.step_serve reply hthread]
    exact h t' thread hthread'

end Kept

end Async
