import Vadum.Theory.Loops
import Vadum.Theory.PoolRuns

/-!
# Memory and Store in Step

A pool's ledger exists twice. Every write to memory is followed by a write of
the same ledger to the store before anything else happens, so as long as no
store write fails the two differ only in the middle of an operation, or where
the object has not read the ledger yet.

`Tidy` is this habit as a contract of its own, and `command_obeys` the rule it
is used by: a command keeps what its writes and its requests keep, where what
is known of the run's requests may be used.

## Main definitions

* `requestsOf`: The requests of a command.
* `WritesSucceed`: No store write of a command fails.
* `Unsaved`, `Tidy`: Nothing is asked for while a ledger waits to be stored.
* `InStep`: The ledger in memory, if it has been read, is the stored one.

## Theorems

* `command_obeys`: What every write and every request of a command keeps.
* `tidy_op`: Every operation is tidy.
* `inStep_final`, `same_final`: In step after every run whose store writes
  succeed.
-/

namespace Vadum

open Async (Act history final)
open Async.Process

variable {ρ : Type}

/-- The requests of a command that are served, with the world each is made in. -/
def requestsOf (network : Network ρ) (pool : PoolConfig) :
    PoolCommand → PoolSys ρ → List (Req × World ρ)
  | .call op, sys => requests (reply network) (op.process pool) sys.current sys.world
  | .reopen, _ => []
  | .crash op n, sys =>
    (requests (reply network) (op.process pool) sys.current sys.world).take n

/-- No store write of an event fails. -/
def WritesSucceed (network : Network ρ) (pool : PoolConfig) (e : PoolEvent ρ) : Prop :=
  ∀ k v w, (Req.storeSet k v, w) ∈ requestsOf network pool e.op e.before →
    (network.storage w.net).1 = none

theorem writesSucceed_of_works {network : Network ρ} (h : StorageWorks network)
    (pool : PoolConfig) (e : PoolEvent ρ) : WritesSucceed network pool e :=
  fun _ _ w _ => h w.net

/-- The ledger in memory, if it has been read, is the one in the store. -/
def InStep (pool : PoolConfig) (sys : PoolSys ρ) : Prop :=
  sys.current = none ∨ sys.current = sys.stored pool

section Rule

variable {network : Network ρ} {pool : PoolConfig} {command : PoolCommand} {sys : PoolSys ρ}
  {G : PoolOp → Past → Option PoolState → Option PoolState → Prop}
  {R : PoolOp → Past → Option PoolState → Req → Prop}
  {Q : PoolOp → Past → Option PoolState → Except Thrown PoolResult → Prop}
  {T : Req → World ρ → Prop} {J : Past → Option PoolState → World ρ → Prop}

/-- What every write and every request of its operation keeps, a command keeps,
    and if it ran to its end the operation's postcondition holds. -/
theorem command_obeys
    (hobeys : ∀ op, command.op = some op →
      (op.process pool).Obeys (G op) (R op) (Q op) [] sys.current)
    (hput : ∀ op past s s' w, command.op = some op → J past s w → G op past s s' →
      J (past ++ [.wrote s s']) s' w)
    (hask : ∀ op past s w r, command.op = some op → T r w → J past s w → R op past s r →
      J (past ++ [.asked (I := client) r (reply network r w).1]) s (reply network r w).2)
    (hT : ∀ entry ∈ requestsOf network pool command sys, T entry.1 entry.2)
    (h : J [] sys.current sys.world) :
    ∃ past s, J past s (poolStep network pool command sys).2.world ∧
      ((poolStep network pool command sys).2.current = none ∨
        (poolStep network pool command sys).2.current = s) ∧
      ∀ op, command = .call op →
        (poolStep network pool command sys).2.current = s ∧ ∃ x, Q op past s x := by
  cases command with
  | call op =>
      rcases obeys_run_of_requests (reply network) J (fun past s s' w => hput op past s s' w rfl)
        (fun past s w r => hask op past s w r rfl) (hobeys op rfl) h hT with ⟨past, hJ, hQ⟩
      refine ⟨past, _, hJ, .inr rfl, fun op' hop => ?_⟩
      cases hop
      exact ⟨rfl, _, hQ⟩
  | reopen => exact ⟨[], sys.current, h, .inl rfl, fun _ => nofun⟩
  | crash op n =>
      rcases obeys_interrupt_of_requests (reply network) J
        (fun past s s' w => hput op past s s' w rfl) (fun past s w r => hask op past s w r rfl)
        (hobeys op rfl) h hT with ⟨past, s, hJ⟩
      exact ⟨past, s, hJ, .inl rfl, fun _ => nofun⟩

end Rule

section Tidy

variable {pool : PoolConfig} {α β : Type}

/-- A ledger has been written to memory last, and it is not what was just read
    from the store. -/
def Unsaved (pool : PoolConfig) (past : Past) : Prop :=
  ∃ earlier seen state, past = earlier ++ [.wrote seen (some state)] ∧
    earlier.getLast? ≠
      some (.asked (I := client) (Req.storeGet (.pool pool.payer)) (.ok (some state)))

/-- What may be asked for: while a ledger waits to be stored, only that. -/
def AsksTidily (pool : PoolConfig) (past : Past) (s : Option PoolState) (r : Req) : Prop :=
  (∃ state, s = some state ∧ r = .storeSet (.pool pool.payer) state) ∨
    (∀ k v, r ≠ .storeSet k v) ∧ ¬ Unsaved pool past

/-- Only what was just read from the store is ever no ledger. -/
def WritesTidily (pool : PoolConfig) (past : Past) (_ s' : Option PoolState) : Prop :=
  s' = none → past.getLast? =
    some (.asked (I := client) (Req.storeGet (.pool pool.payer)) (.ok none))

/-- A process that stores what it writes before it does anything else. -/
def Tidy (pool : PoolConfig) (p : PoolM α) : Prop :=
  ∀ past s, ¬ Unsaved pool past → p.Obeys (WritesTidily pool) (AsksTidily pool)
    (fun past' _ _ => ¬ Unsaved pool past') past s

theorem not_unsaved_asked (past : Past) (r : Req) (a : Except Thrown r.Ans) :
    ¬ Unsaved pool (past ++ [.asked (I := client) r a]) := by
  rintro ⟨earlier, seen, state, heq, _⟩
  cases List.head_eq_of_cons_eq (List.append_inj' heq rfl).2

theorem not_unsaved_none (past : Past) (s : Option PoolState) :
    ¬ Unsaved pool (past ++ [.wrote s none]) := by
  rintro ⟨earlier, seen, state, heq, _⟩
  cases List.head_eq_of_cons_eq (List.append_inj' heq rfl).2

theorem tidy_pure (a : α) : Tidy pool (pure a : PoolM α) := fun _ _ h => h

theorem tidy_throw (e : Thrown) : Tidy pool (throw e : PoolM α) := fun _ _ h => h

theorem tidy_ofResult (x : Except Thrown α) : Tidy pool (ofResult x : PoolM α) := fun _ _ h => by
  cases x <;> exact h

theorem tidy_read : Tidy pool (read : PoolM (Option PoolState)) := fun _ _ h _ => h

theorem tidy_bind {p : PoolM α} {f : α → PoolM β} (hp : Tidy pool p) (hf : ∀ a, Tidy pool (f a)) :
    Tidy pool (p >>= f) := fun past s h => by
  refine obeys_bind (obeys_mono (fun _ _ _ h => h) (fun _ _ _ h => h) (fun past' s' x h' => ?_)
    (hp past s h))
  cases x with
  | ok a => exact hf a past' s' h'
  | error e => exact h'

theorem tidy_request {r : Req} (hr : ∀ k v, r ≠ .storeSet k v) :
    Tidy pool (request (I := client) r : PoolM r.Ans) := fun past _ h =>
  obeys_request (I := client) (.inr ⟨hr, h⟩) fun a => not_unsaved_asked past r a

/-- What keeps no variables and stores nothing is tidy. -/
theorem tidy_stateless {p : PoolM α} (hp : Stateless Req.Unstoring p) : Tidy pool p := by
  intro past s h
  induction p generalizing past with
  | done a => exact h
  | fail e => exact h
  | get k _ => exact hp.elim
  | put s k _ => exact hp.elim
  | await r k ih => exact ⟨.inr ⟨hp.1, h⟩, fun a => ih a (hp.2 a) _ (not_unsaved_asked past r a)⟩

theorem tidy_rpc (c : Call) : Tidy pool (rpc c : PoolM c.Answer) :=
  tidy_request fun _ _ => nofun

theorem tidy_awaited {p : PoolM α} (hp : Tidy pool p) : Tidy pool (awaited p) :=
  tidy_bind hp fun _ => tidy_bind (tidy_request fun _ _ => nofun) fun _ => tidy_pure _

/-- What was read from the store need not be stored again. -/
theorem tidy_loaded : Tidy pool (Pool.loaded pool) := by
  refine tidy_bind tidy_read fun seen => ?_
  cases seen with
  | some state => exact tidy_pure state
  | none =>
      intro past s h
      refine obeys_bind (obeys_request (I := client) (.inr ⟨fun _ _ => nofun, h⟩) fun a => ?_)
      cases a with
      | error e => exact not_unsaved_asked past _ _
      | ok stored =>
          -- What is loaded was read from the store, so the store holds it.
          cases stored with
          | none => exact ⟨fun _ => List.getLast?_concat, not_unsaved_none _ _⟩
          | some state =>
              refine ⟨nofun, ?_⟩
              rintro ⟨earlier, seen, state', heq, hnot⟩
              rcases List.append_inj' heq rfl with ⟨rfl, hlast⟩
              cases List.head_eq_of_cons_eq hlast
              exact hnot List.getLast?_concat

/-- A ledger is stored right after it is written. -/
theorem tidy_persist (state : PoolState) : Tidy pool (Pool.persist pool state) := fun past s _ => by
  refine obeys_bind ⟨nofun, obeys_bind (obeys_request (I := client)
    (r := .storeSet (.pool pool.payer) state) (.inl ⟨state, rfl, rfl⟩) fun a => ?_)⟩
  cases a with
  | ok _ => exact not_unsaved_asked _ _ _
  | error e => exact not_unsaved_asked _ _ _

theorem tidy_refresh : Tidy pool (Pool.refresh pool) :=
  tidy_bind (tidy_awaited tidy_loaded) fun _ => tidy_bind
    (tidy_stateless (stateless_refreshSlots unstoring_account _)) fun _ =>
    tidy_persist _

theorem tidy_currentOrStored : Tidy pool (Pool.currentOrStored pool) :=
  tidy_bind tidy_read fun seen => by
    cases seen with
    | some state => exact tidy_pure _
    | none => exact tidy_request fun _ _ => nofun

theorem tidy_priorSpendLog : Tidy pool (Pool.priorSpendLog pool) :=
  tidy_bind tidy_currentOrStored fun _ => tidy_pure _

theorem tidy_create (size : Int) (payerKey : CryptoKeyPair) :
    Tidy pool (Pool.create pool size payerKey) := by
  unfold Pool.create
  split
  · exact tidy_throw _
  refine tidy_bind (tidy_stateless (stateless_assertPayerKey payerKey)) fun _ => ?_
  refine tidy_bind (tidy_stateless (stateless_estimateSetupCost (unstoring_rpc _)
    (unstoring_rpc _) size)) fun cost => ?_
  refine tidy_bind (tidy_rpc _) fun balance => ?_
  dsimp only
  split
  · exact tidy_throw _
  refine tidy_bind (tidy_ofResult _) fun x => tidy_bind (tidy_rpc _) fun _ => ?_
  refine tidy_bind (tidy_request fun _ _ => nofun) fun _ => ?_
  refine tidy_bind (tidy_awaited tidy_priorSpendLog) fun _ => ?_
  exact tidy_bind (tidy_persist _) fun _ => tidy_refresh

theorem tidy_recover (maxProbe : Nat) : Tidy pool (Pool.recover pool maxProbe) := by
  refine tidy_bind (tidy_stateless (stateless_probe unstoring_account _))
    fun slots => ?_
  split
  · exact tidy_throw _
  refine tidy_bind (tidy_request fun _ _ => nofun) fun _ => ?_
  exact tidy_bind (tidy_awaited tidy_priorSpendLog) fun _ => tidy_persist _

theorem tidy_close (payerKey : CryptoKeyPair) : Tidy pool (Pool.close pool payerKey) := by
  refine tidy_bind (tidy_awaited tidy_loaded) fun state => ?_
  refine tidy_bind (tidy_stateless (stateless_assertPayerKey payerKey)) fun _ => ?_
  refine tidy_bind (tidy_rpc _) fun balance => tidy_bind (tidy_rpc _) fun minimum => ?_
  split
  · exact tidy_throw _
  refine tidy_bind (tidy_stateless (stateless_withdrawals unstoring_account _))
    fun x => ?_
  dsimp only
  split
  · exact tidy_bind (tidy_rpc _) fun _ => tidy_bind (tidy_persist _) fun _ => tidy_pure _
  · exact tidy_bind (tidy_persist _) fun _ => tidy_pure _

theorem tidy_reserveSlot (merchant : Address) (now amount : Int) :
    Tidy pool (Pool.reserveSlot pool merchant now amount) := by
  refine tidy_bind (tidy_awaited tidy_loaded) fun state => ?_
  dsimp only
  split
  · exact tidy_throw _
  split
  · exact tidy_throw _
  split
  · exact tidy_bind (tidy_persist _) fun _ => tidy_pure _
  · exact tidy_throw _

theorem tidy_applyNonceReturn (payload : NonceReturnPayload) :
    Tidy pool (Pool.applyNonceReturn pool payload) := by
  refine tidy_bind (tidy_awaited tidy_loaded) fun state => ?_
  dsimp only
  split
  · exact tidy_bind (tidy_ofResult _) fun _ => tidy_bind (tidy_request fun _ _ => nofun)
      fun _ => tidy_persist _
  · exact tidy_throw _

theorem tidy_reconcile (now : Int) : Tidy pool (Pool.reconcile pool now) :=
  tidy_bind (tidy_awaited tidy_loaded) fun _ => tidy_bind
    (tidy_stateless (stateless_reconcileSlots unstoring_account _ _ _ _)) fun _ =>
      tidy_bind (tidy_persist _) fun _ => tidy_pure _

theorem tidy_map {p : PoolM α} (f : α → β) (hp : Tidy pool p) : Tidy pool (f <$> p) :=
  tidy_bind hp fun _ => tidy_pure _

/-- Every operation stores what it writes before it does anything else. -/
theorem tidy_op (op : PoolOp) : Tidy pool (op.process pool) := by
  cases op with
  | create size payerKey => exact tidy_map _ (tidy_create size payerKey)
  | reserveSlot merchant now amount => exact tidy_map _ (tidy_reserveSlot merchant now amount)
  | allowance now =>
      exact tidy_map _ (tidy_bind tidy_currentOrStored fun _ => tidy_pure _)
  | applyNonceReturn payload => exact tidy_map _ (tidy_applyNonceReturn payload)
  | refresh => exact tidy_map _ tidy_refresh
  | recover maxProbe => exact tidy_map _ (tidy_recover maxProbe)
  | close payerKey => exact tidy_map _ (tidy_close payerKey)
  | reconcile now => exact tidy_map _ (tidy_reconcile now)
  | load => exact tidy_map _ (tidy_bind (tidy_awaited tidy_loaded) fun _ => tidy_pure _)

end Tidy

section Steps

variable {network : Network ρ} {pool : PoolConfig}

/-- What holds in the middle of an operation whose store writes succeed: the two
    ledgers are the same, or the one in memory is about to be stored, or it has
    not been read and the one in the store is what it was. And what was just
    read from the store is there. -/
structure Following (pool : PoolConfig) (sys : PoolSys ρ) (past : Past) (s : Option PoolState)
    (w : World ρ) : Prop where
  ledgers : s = w.store.lookup (.pool pool.payer) ∨ Unsaved pool past ∨
    s = none ∧ sys.current = none ∧ w.store.lookup (.pool pool.payer) = sys.stored pool
  read : ∀ stored, past.getLast? = some (.asked (I := client) (Req.storeGet (.pool pool.payer))
    (.ok stored)) → w.store.lookup (.pool pool.payer) = stored

theorem Following.put {sys : PoolSys ρ} {past : Past} {s s' : Option PoolState} {w : World ρ}
    (h : Following pool sys past s w) (hwrite : WritesTidily pool past s s') :
    Following pool sys (past ++ [.wrote s s']) s' w where
  ledgers := by
    cases s' with
    | none => exact .inl (h.read none (hwrite rfl)).symm
    | some state =>
        by_cases hread : past.getLast? = some (.asked (I := client)
            (Req.storeGet (.pool pool.payer)) (.ok (some state)))
        · exact .inl (h.read _ hread).symm
        · exact .inr (.inl ⟨past, s, state, rfl, hread⟩)
  read := fun stored hlast => by
    rw [List.getLast?_concat] at hlast
    cases hlast

theorem Following.ask {sys : PoolSys ρ} {past : Past} {s : Option PoolState} {w : World ρ}
    {r : Req} (h : Following pool sys past s w) (hr : AsksTidily pool past s r)
    (hsucceeds : ∀ k v, r = .storeSet k v → (network.storage w.net).1 = none) :
    Following pool sys (past ++ [.asked (I := client) r (reply network r w).1]) s
      (reply network r w).2 where
  ledgers := by
    rcases hr with ⟨state, rfl, rfl⟩ | ⟨hne, hsaved⟩
    · left
      have hworks := hsucceeds _ _ rfl
      rcases hs : network.storage w.net with ⟨_ | e, net⟩
      · simp only [reply, hs, AList.lookup_insert]
      · rw [hs] at hworks
        cases hworks
    · rcases reply_store network r w with ⟨hstore, _⟩ | ⟨k, v, rfl, _⟩
      · rw [hstore]
        exact h.ledgers.imp_right fun h => .inr (h.resolve_left hsaved)
      · exact absurd rfl (hne k v)
  read := fun stored hlast => by
    rw [List.getLast?_concat] at hlast
    rcases Act.asked.inj (Option.some.inj hlast) with ⟨rfl, ha⟩
    rcases reply_store network (.storeGet (.pool pool.payer)) w with ⟨hstore, _⟩ | ⟨k, v, hset, _⟩
    · rw [hstore]
      exact (reply_read (eq_of_heq ha)).symm
    · cases hset

theorem following_start {sys : PoolSys ρ} (h : InStep pool sys) :
    Following pool sys [] sys.current sys.world := by
  refine ⟨?_, fun _ h => by cases h⟩
  rcases h with hnone | hsame
  · exact .inr (.inr ⟨hnone, hnone, rfl⟩)
  · exact .inl hsame

/-- How a command whose store writes succeed leaves the ledgers. -/
theorem following_step {command : PoolCommand} {sys : PoolSys ρ} (h : InStep pool sys)
    (hwrites : WritesSucceed network pool (Async.eventAt (poolStep network pool) command sys)) :
    ∃ past s, Following pool sys past s (poolStep network pool command sys).2.world ∧
      ((poolStep network pool command sys).2.current = none ∨
        (poolStep network pool command sys).2.current = s) ∧
      ∀ op, command = .call op →
        (poolStep network pool command sys).2.current = s ∧ ¬ Unsaved pool past := by
  have hsaved : ¬ Unsaved pool [] := fun ⟨_, _, _, heq, _⟩ =>
    List.append_ne_nil_of_right_ne_nil _ (List.cons_ne_nil _ _) heq.symm
  rcases @command_obeys ρ network pool command sys (fun _ => WritesTidily pool)
    (fun _ => AsksTidily pool) (fun _ past _ _ => ¬ Unsaved pool past)
    (fun r w => ∀ k v, r = .storeSet k v → (network.storage w.net).1 = none)
    (Following pool sys) (fun op _ => tidy_op op [] _ hsaved)
    (fun _ _ _ _ _ _ h hwrite => h.put hwrite)
    (fun _ _ _ _ _ _ hT h hr => h.ask hr hT)
    (fun entry hentry k v hr => hwrites k v entry.2 (hr ▸ hentry)) (following_start h) with
    ⟨past, s, hend, hcurrent, hpost⟩
  refine ⟨past, s, hend, hcurrent, fun op hop => ?_⟩
  rcases hpost op hop with ⟨hs, _, hsaved⟩
  exact ⟨hs, hsaved⟩

/-- The ledgers stay in step. -/
theorem inStep_step {command : PoolCommand} {sys : PoolSys ρ} (h : InStep pool sys)
    (hwrites : WritesSucceed network pool (Async.eventAt (poolStep network pool) command sys)) :
    InStep pool (poolStep network pool command sys).2 := by
  rcases following_step h hwrites with ⟨past, s, hend, hcurrent, hpost⟩
  cases command with
  | call op =>
      rcases hpost op rfl with ⟨hs, hsaved⟩
      rcases hend.ledgers with hsame | hunsaved | ⟨hnone, _⟩
      · exact .inr (hs.trans hsame)
      · exact absurd hunsaved hsaved
      · exact .inl (hs.trans hnone)
  | reopen => exact .inl rfl
  | crash op n => exact .inl rfl

/-- If they are the same when an operation begins, they are when it ends. -/
theorem same_step {op : PoolOp} {sys : PoolSys ρ} (h : sys.current = sys.stored pool)
    (hwrites : WritesSucceed network pool
      (Async.eventAt (poolStep network pool) (.call op) sys)) :
    (poolStep network pool (.call op) sys).2.current
      = (poolStep network pool (.call op) sys).2.stored pool := by
  rcases following_step (.inr h) hwrites with ⟨past, s, hend, _, hpost⟩
  rcases hpost op rfl with ⟨hs, hsaved⟩
  rw [hs]
  rcases hend.ledgers with hsame | hunsaved | ⟨hnone, hcurrent, hstored⟩
  · exact hsame
  · exact absurd hunsaved hsaved
  · rw [hnone, ← hcurrent, h]
    exact hstored.symm

/-- In step after every run whose store writes succeed. -/
theorem inStep_final {sys : PoolSys ρ} {commands : List PoolCommand} (h : InStep pool sys)
    (hwrites : ∀ e ∈ poolHistory network pool sys commands, WritesSucceed network pool e) :
    InStep pool (final (poolStep network pool) sys commands) :=
  (Async.history_invariant (poolStep network pool) (fun _ _ h hwrites => inStep_step h hwrites)
    h hwrites).1

/-- The same after every run of one object whose store writes succeed. -/
theorem same_final {sys : PoolSys ρ} {commands : List PoolCommand}
    (h : sys.current = sys.stored pool) (hcalls : ∀ command ∈ commands, ∃ op, command = .call op)
    (hwrites : ∀ e ∈ poolHistory network pool sys commands, WritesSucceed network pool e) :
    (final (poolStep network pool) sys commands).current
      = (final (poolStep network pool) sys commands).stored pool := by
  induction commands generalizing sys with
  | nil => exact h
  | cons command commands ih =>
      rcases hcalls command List.mem_cons_self with ⟨op, rfl⟩
      refine ih (same_step h (hwrites _ List.mem_cons_self))
        (fun c hc => hcalls c (List.mem_cons_of_mem _ hc)) fun e he => ?_
      exact hwrites e (List.mem_cons_of_mem _ he)

end Steps

end Vadum
