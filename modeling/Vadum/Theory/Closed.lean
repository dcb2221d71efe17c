import Vadum.Client.FakeRpc
import Vadum.Theory.InStep
import Vadum.Theory.Slots

/-!
# Closed and Recovered Pools

A pool that was closed or recovered has every slot unknown, and stays so. The
values of its slots may be read again, and old returns for them still exist, but
`unknown` is absorbing: nothing that looks for an unspent or a spent slot finds
one. The only way out is a new ledger, which `create` writes once its setup
transaction is confirmed.

## Main definitions

* `AllUnknown`: A ledger, if there is one, whose slots are all unknown.
* `Unspendable`: A pool whose two ledgers are.
* `Confirms`: A `create` whose setup transaction was confirmed.

## Theorems

* `Move.allUnknown`: Every move of such a ledger leaves one.
* `unspendable_emptied`: `close` and `recover` leave such a pool.
* `unspendable_step`: It stays one, but for a `create` that is confirmed.
* `unspendable_until_created`: No slot is reserved before.
-/

namespace Vadum

open Async (Act history final)
open Async.Process

variable {ρ : Type} {network : Network ρ} {pool : PoolConfig}

/-- A ledger, if there is one, whose slots are all unknown. -/
def AllUnknown (ledger : Option PoolState) : Prop :=
  ∀ state, ledger = some state → ∀ slot ∈ state.slots, slot.state = .unknown

/-- Both ledgers have only unknown slots. -/
structure Unspendable (pool : PoolConfig) (sys : PoolSys ρ) : Prop where
  memory : AllUnknown sys.current
  store : AllUnknown (sys.stored pool)

/-- The event is one of `create`, and its setup transaction was confirmed. -/
def Confirms (network : Network ρ) (pool : PoolConfig) (e : PoolEvent ρ) : Prop :=
  (∃ size payerKey, e.op.op = some (.create size payerKey)) ∧
  ∃ instructions key signature w,
    (Req.rpc (.sendSetup instructions key), w) ∈ requestsOf network pool e.op e.before ∧
    (network.rpc (.sendSetup instructions key) w.net).1 = .ok signature

/-- Reconciling unknown slots changes nothing. -/
theorem Reconciled.eq_of_allUnknown {now : Int} {past : Past} {slots : List PoolSlot}
    {x y : PoolState × Reconciliation} (h : Reconciled pool now past slots x y)
    (hunknown : ∀ slot ∈ slots, slot.state = .unknown) : y = x := by
  have hnot : ∀ {slot : PoolSlot} {rest : List PoolSlot},
      (∀ s ∈ slot :: rest, s.state = .unknown) → slot.state ≠ .spent := fun hall hspent => by
    cases (hall _ List.mem_cons_self).symm.trans hspent
  induction h with
  | nil x => rfl
  | skip _ _ ih => exact ih fun s hs => hunknown s (List.mem_cons_of_mem _ hs)
  | gone spent => exact absurd spent (hnot hunknown)
  | settled spent => exact absurd spent (hnot hunknown)
  | released spent => exact absurd spent (hnot hunknown)
  | pending spent => exact absurd spent (hnot hunknown)

/-- Every move leaves unknown slots unknown. -/
theorem Move.allUnknown {past : Past} {op : PoolOp} {state state' : PoolState}
    (h : ∀ slot ∈ state.slots, slot.state = .unknown) (hmove : Move pool past op state state') :
    ∀ slot ∈ state'.slots, slot.state = .unknown := by
  cases hmove with
  -- Only unspent slots are chosen, and only spent ones returned: there are none of either.
  | reserve positive within chosen known =>
      rcases mem_of_chooseSlot chosen with ⟨hmem, hunspent, _⟩
      cases (h _ hmem).symm.trans hunspent
  | returned found spent against verified =>
      cases (h _ (List.mem_of_find?_eq_some found)).symm.trans spent
  | reread online values =>
      intro slot' hslot'
      rcases mem_of_reread values hslot' with ⟨slot, hslot, hreread⟩
      rcases hreread with ⟨_, account, _⟩
      exact h slot hslot
  | reconciled slots =>
      rw [(Prod.mk.inj (slots.eq_of_allUnknown h)).1]
      exact h
  | closed =>
      intro slot' hslot'
      rcases List.mem_map.mp hslot' with ⟨slot, _, rfl⟩
      rfl

/-- What holds while a command runs on an unspendable pool: both ledgers have only
    unknown slots, and so has what was read; and a `create` has had no setup
    transaction confirmed. -/
structure StaysUnknown (pool : PoolConfig) (command : PoolCommand) (past : Past)
    (s : Option PoolState) (w : World ρ) : Prop where
  memory : AllUnknown s
  store : AllUnknown (w.store.lookup (.pool pool.payer))
  read : ∀ stored, ReadStore pool past stored → AllUnknown stored
  sent : (∃ size payerKey, command.op = some (.create size payerKey)) →
    ∀ instructions key signature, ¬ Answered past (.sendSetup instructions key) signature

theorem StaysUnknown.put {command : PoolCommand} {op : PoolOp} {past : Past}
    {s s' : Option PoolState} {w : World ρ} (hop : command.op = some op)
    (h : StaysUnknown pool command past s w) (hwrite : Write pool op past s s') :
    StaysUnknown pool command (past ++ [.wrote s s']) s' w where
  memory := by
    cases hwrite with
    | load hread => exact h.read _ hread
    | move hmove =>
        intro state hstate
        cases hstate
        exact hmove.allUnknown (h.memory _ rfl)
    | new hnew =>
        cases hnew with
        -- Creating takes a setup that the network confirmed.
        | created bounds setup sent prior => exact absurd sent (h.sent ⟨_, _, hop⟩ _ _ _)
        | recovered probed prior increasing =>
            intro state hstate slot hslot
            cases hstate
            rcases probed slot hslot with ⟨_, _⟩
            rfl
  store := h.store
  read := fun stored hread => h.read stored (Act.asked_of_wrote hread)
  sent := fun hcreate instructions key signature hsent =>
    h.sent hcreate instructions key signature (Act.asked_of_wrote hsent)

theorem StaysUnknown.ask {command : PoolCommand} {past : Past} {s : Option PoolState} {w : World ρ}
    {r : Req} (h : StaysUnknown pool command past s w) (hr : Stores pool past s r)
    (hsent : (∃ size payerKey, command.op = some (.create size payerKey)) →
      ∀ instructions key signature, r = .rpc (.sendSetup instructions key) →
        (network.rpc (.sendSetup instructions key) w.net).1 ≠ .ok signature) :
    StaysUnknown pool command (past ++ [.asked (I := client) r (reply network r w).1]) s
      (reply network r w).2 where
  memory := h.memory
  store := by
    rcases stored_reply network hr w with heq | ⟨state, rfl, heq⟩
    · rw [heq]
      exact h.store
    · rw [heq]
      exact h.memory
  read := fun stored hread => by
    rcases read_snoc hread with hread | rfl
    · exact h.read stored hread
    · exact h.store
  sent := fun hcreate instructions key signature hanswered => by
    rcases answered_snoc hanswered with hanswered | ⟨hr, ha⟩
    · exact h.sent hcreate instructions key signature hanswered
    · exact hsent hcreate instructions key signature hr ha

/-- A command keeps a pool unspendable, but for a `create` that is confirmed. -/
theorem unspendable_step {command : PoolCommand} {sys : PoolSys ρ} (h : Unspendable pool sys)
    (hsent : ¬ Confirms network pool (Async.eventAt (poolStep network pool) command sys)) :
    Unspendable pool (poolStep network pool command sys).2 := by
  have hstart : StaysUnknown pool command [] sys.current sys.world :=
    ⟨h.memory, h.store, fun _ hread => absurd hread List.not_mem_nil,
      fun _ _ _ _ hsent => absurd hsent List.not_mem_nil⟩
  -- A setup that was confirmed would be a request of this command.
  have hunsent : ∀ entry ∈ requestsOf network pool command sys,
      (∃ size payerKey, command.op = some (.create size payerKey)) →
      ∀ instructions key signature, entry.1 = .rpc (.sendSetup instructions key) →
        (network.rpc (.sendSetup instructions key) entry.2.net).1 ≠ .ok signature :=
    fun entry hentry hcreate instructions key signature hr hok =>
      hsent ⟨hcreate, instructions, key, signature, entry.2, hr ▸ hentry, hok⟩
  rcases command_obeys (fun op _ => op_obeys pool op [] _)
    (fun _ _ _ _ _ hop h hwrite => StaysUnknown.put hop h hwrite)
    (fun _ _ _ _ _ _ hT h hr => StaysUnknown.ask h hr hT) hunsent hstart with
    ⟨past, s, hend, hcurrent, _⟩
  refine ⟨?_, hend.store⟩
  rcases hcurrent with hnone | hs
  · rw [hnone]
    exact fun state hstate => by cases hstate
  · rw [hs]
    exact hend.memory

/-- `close` and `recover`, if they resolve, leave a pool unspendable. -/
theorem unspendable_emptied {op : PoolOp} {sys : PoolSys ρ} {x : PoolResult}
    (hop : (∃ payerKey, op = .close payerKey) ∨ ∃ maxProbe, op = .recover maxProbe)
    (hresolved : (poolStep network pool (.call op) sys).1 = some (.ok x)) :
    Unspendable pool (poolStep network pool (.call op) sys).2 := by
  let Any : ρ → Option PoolState → Prop := fun _ _ => True
  -- Nothing is asked of the ledgers here but that the run ends with its own.
  have hany : Kept network pool op sys Any Any :=
    ⟨fun _ _ _ _ _ => trivial, fun _ _ _ _ _ => trivial, fun _ _ _ => trivial,
      fun _ _ _ _ => trivial, fun _ _ _ _ _ _ _ _ _ _ => trivial,
      fun _ _ _ _ _ _ _ _ _ => trivial⟩
  rcases obeys_run (reply network) (During network pool sys Any Any)
    (fun _ _ _ _ hd hput => hd.put hany hput) (fun _ _ _ _ hd hask => hd.ask hany hask)
    (obeys_emptied op hop) (.init ⟨fun _ _ => trivial, trivial⟩) with ⟨past, hd, hend⟩
  rcases hend x (Option.some.inj hresolved) with ⟨state, earlier, prior, hs, hunknown, hpast⟩
  have hstored := hd.stored state (by
    rw [hpast]
    simp only [List.getLast?_append, List.getLast?_cons_cons, List.getLast?_singleton,
      Option.some_or])
  refine ⟨fun state' hstate' => ?_, fun state' hstate' => ?_⟩
  · cases (hs.symm.trans hstate')
    exact hunknown
  · cases (hstored.symm.trans hstate')
    exact hunknown

/-- Nothing is reserved from an unspendable pool. -/
theorem Unspendable.not_made {sys : PoolSys ρ} (h : Unspendable pool sys) {command : PoolCommand} :
    made (Async.eventAt (poolStep network pool) command sys) = none := by
  by_contra hmade
  rcases Option.ne_none_iff_exists'.mp hmade with ⟨m, hm⟩
  have hop : command = .call (.reserveSlot m.merchant m.now m.amount) := (made_eq hm).1
  subst hop
  -- A reservation only ever moves a ledger, and moves keep slots unknown.
  have hkept : Kept network pool (.reserveSlot m.merchant m.now m.amount) sys
      (fun _ => AllUnknown) (fun _ => AllUnknown) :=
    { memory := fun _ _ _ _ h => h
      store := fun _ _ _ _ h => h
      persist := fun _ _ h => h
      load := fun _ _ _ h => h
      move := fun _ _ _ state state' _ _ _ h hmove s hs => by
        rw [← Option.some.inj hs]
        exact hmove.allUnknown (h state rfl)
      new := fun _ _ _ _ _ _ _ _ hnew => by cases hnew }
  rcases (op_kept hkept ⟨fun _ _ => h.memory, h.store⟩).2 m hm with ⟨state, slot, hmade'⟩
  rcases mem_of_chooseSlot hmade'.chosen with ⟨hmem, hunspent, _⟩
  cases (hmade'.kept state rfl slot hmem).symm.trans hunspent

/-- Once a pool was closed or recovered, no slot of it is reserved before the setup
    transaction of a new one is confirmed. -/
theorem unspendable_until_created (network : Network ρ) (pool : PoolConfig) (sys : PoolSys ρ)
    (commands : List PoolCommand) (pre mid post : List (PoolEvent ρ)) (e₁ e₂ : PoolEvent ρ)
    (hrun : poolHistory network pool sys commands = pre ++ e₁ :: (mid ++ e₂ :: post))
    (hclosed : (∃ payerKey, e₁.op = .call (.close payerKey)) ∨
      ∃ maxProbe, e₁.op = .call (.recover maxProbe))
    (x : PoolResult) (hresolved : e₁.result = some (.ok x))
    (m : MadeReservation) (hmade : made e₂ = some m) :
    ∃ e ∈ mid, Confirms network pool e := by
  by_contra hnone
  rw [not_exists] at hnone
  rcases Async.history_cut _ hrun with ⟨he₁, rest, hrest⟩
  have hstart : Unspendable pool e₁.after := by
    rw [he₁] at hresolved ⊢
    rcases hclosed with ⟨payerKey, hop⟩ | ⟨maxProbe, hop⟩
    · rw [hop] at hresolved ⊢
      exact unspendable_emptied (.inl ⟨payerKey, rfl⟩) hresolved
    · rw [hop] at hresolved ⊢
      exact unspendable_emptied (.inr ⟨maxProbe, rfl⟩) hresolved
  rcases Async.history_split _ hrest.symm with ⟨between, later, _, hmid, hpost⟩
  -- With nothing created in between, nothing is spendable when the reservation comes.
  have hmiddle := (Async.history_invariant (poolStep network pool)
    (fun _ _ h hsent => unspendable_step h hsent) hstart
    fun e he => fun hconfirms => hnone e ⟨hmid ▸ he, hconfirms⟩).1
  cases later with
  | nil => cases hpost
  | cons command later =>
      rw [Async.history_cons, List.cons.injEq] at hpost
      rw [← hpost.1, hmiddle.not_made] at hmade
      cases hmade

/-- A pool of one slot is closed, and made again. -/
def closingRun : List PoolCommand :=
  [.call (.create 1 (testKey 1)), .call (.close (testKey 1)), .call .refresh, .reopen,
    .call (.create 1 (testKey 1)), .call (.reserveSlot (testAddress 2) 5 10)]

def closingStart : PoolSys FakeRpc where
  current := none
  world := ⟨∅, { balance := 1000000000, setup := [testAccount 0 (testNonce 7)] }⟩

/-- The event of one of its commands. -/
def closingEvent (n : Fin 6) : PoolEvent FakeRpc :=
  (poolHistory fakeNetwork testPool closingStart closingRun).get n

theorem unspendable_until_created_closingRun :
    ∃ e ∈ [closingEvent 2, closingEvent 3, closingEvent 4], Confirms fakeNetwork testPool e :=
  unspendable_until_created fakeNetwork testPool closingStart closingRun [closingEvent 0]
    [closingEvent 2, closingEvent 3, closingEvent 4] [] (closingEvent 1) (closingEvent 5) rfl
    (.inl ⟨testKey 1, rfl⟩) (.refunded 1056640) (by decide +kernel)
    ⟨testAddress 2, 5, 10, ⟨0, testNonce 7⟩⟩ (by decide +kernel)

end Vadum
