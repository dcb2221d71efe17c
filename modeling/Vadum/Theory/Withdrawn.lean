import Vadum.Theory.Closed

/-!
# Withdrawn Accounts

`close` withdraws from the accounts first and writes that their slots are
unknown afterwards. Where the app dies in between, or the send or the store
write is refused, the withdrawal may have taken effect while the ledger that is
loaded next still has unspent slots with a value. They can be reserved, and a
payment signed against one is dead: `dead_slot_reserved`.

As long as every withdrawal takes effect in a `close` that gets to store its
ledger, no such slot is ever in the store.

## Main definitions

* `Spendable`, `Disarmed`: Slots that can be handed out, and a ledger without any
  at an account.
* `Withdrawals`: What has been withdrawn, and what the network says of it.
* `TakesEffect`, `Completes`, `Noted`: A withdrawal, and a `close` that goes on
  to store its ledger.
* `Guarded`: What an event has to meet.

## Theorems

* `Move.inert`: No move arms a slot of an account that is not there.
* `endsStored_close`: `close` stores its ledger at its end.
* `disarmed_step`: An event that is guarded leaves no slot of a withdrawn account
  armed.
* `withdrawn_disarmed`: Neither does a run of such events.
* `dead_slot_reserved`: A run in which such a slot is handed out.
-/

namespace Vadum

open Async (Act eventAt final)
open Async.Process

variable {ρ : Type}

/-- A slot that can be handed out: it is unspent and its value is known. -/
def Spendable (slot : PoolSlot) : Prop := slot.state = .unspent ∧ slot.value ≠ none

/-- What holds of the slots of an account in a ledger, if there is one: none can be
    handed out, and none is one of these. -/
def Inert (a : Address) (R : PoolSlot → Prop) (ledger : Option PoolState) : Prop :=
  ∀ state, ledger = some state → ∀ slot ∈ state.slots, slot.address = a →
    ¬ Spendable slot ∧ ¬ R slot

/-- No slot of the account can be handed out. -/
def Disarmed (a : Address) (ledger : Option PoolState) : Prop :=
  ∀ state, ledger = some state → ∀ slot ∈ state.slots, slot.address = a → ¬ Spendable slot

/-- The spent slot a nonce return is for. -/
def IsReturned (op : PoolOp) (slot : PoolSlot) : Prop :=
  ∃ payload, op = .applyNonceReturn payload ∧ slot.index = payload.nonceIndex ∧
    slot.state = .spent

/-- The operations that can make a slot one that can be handed out. -/
def PoolOp.arms : PoolOp → Bool
  | .create _ _ | .refresh | .applyNonceReturn _ | .reconcile _ => true
  | _ => false

/-- The withdrawals of a chain. -/
structure Withdrawals (network : Network ρ) where
  /-- A withdrawal that `close` has sent has taken effect for the account, and it
      has not been created since. -/
  withdrawn : ρ → Address → Prop
  /-- Such an account holds no value. -/
  absent : ∀ n n' a account, withdrawn n a →
    network.rpc (.getNonceAccount a) n = (.ok account, n') → account.value = none

section Moves

variable {pool : PoolConfig} {a : Address} {R : PoolSlot → Prop}

theorem Inert.disarmed {ledger : Option PoolState} (h : Inert a R ledger) : Disarmed a ledger :=
  fun state hstate slot hslot haddress => (h state hstate slot hslot haddress).1

theorem AllUnknown.disarmed {ledger : Option PoolState} (h : AllUnknown ledger) :
    Disarmed a ledger := fun state hstate slot hslot _ hspendable => by
  cases (h state hstate slot hslot).symm.trans hspendable.1

theorem Inert.mono {R' : PoolSlot → Prop} {ledger : Option PoolState} (h : Inert a R ledger)
    (hR : ∀ slot, R' slot → R slot) : Inert a R' ledger :=
  fun state hstate slot hslot haddress =>
    (h state hstate slot hslot haddress).imp_right fun h hslot => h (hR slot hslot)

/-- Putting a slot in that is not armed leaves none armed. -/
theorem Inert.withSlot {state : PoolState} {put : PoolSlot} (h : Inert a R (some state))
    (hput : put.address = a → ¬ Spendable put ∧ ¬ R put) :
    Inert a R (some (withSlot state put)) := by
  intro state' hstate' slot hslot haddress
  rw [← Option.some.inj hstate'] at hslot
  rcases mem_withSlot hslot with rfl | ⟨hslot, _⟩
  · exact hput haddress
  · exact h state rfl slot hslot haddress

/-- A move arms no slot of an account that is not there, unless it applies a
    nonce return for one. -/
theorem Move.inert {past : Past} {op : PoolOp} {state state' : PoolState}
    (h : Inert a (IsReturned op) (some state))
    (hanswered : ∀ account, Answered past (.getNonceAccount a) account → account.value = none)
    (hmove : Move pool past op state state') : Inert a (IsReturned op) (some state') := by
  -- The account is withdrawn, so no value can have been heard of it.
  have hnever : ∀ (slot : PoolSlot) (value : Nonce), ¬ ∃ account, slot.address = a ∧
      Heard past (.getNonceAccount slot.address) account ∧ account.value = some value := by
    rintro slot value ⟨account, rfl, hheard, hvalue⟩
    cases (hanswered account hheard.answered).symm.trans hvalue
  cases hmove with
  | reserve positive within chosen known =>
      intro state'' hstate'' slot' hslot' haddress
      rw [← Option.some.inj hstate''] at hslot'
      refine ⟨fun hspendable => ?_, fun ⟨_, hop, _⟩ => by cases hop⟩
      rcases mem_reserved hslot' with rfl | ⟨hslot, _⟩
      · cases hspendable.1
      · exact (h state rfl slot' hslot haddress).1 hspendable
  | @returned state slot record payload statement found spent against verified =>
      refine h.withSlot fun haddress => ?_
      have hindex : slot.index = payload.nonceIndex := by
        simpa only [decide_eq_true_eq] using List.find?_some found
      exact absurd ⟨payload, rfl, hindex, spent⟩
        (h _ rfl slot (List.mem_of_find?_eq_some found) haddress).2
  | reread online values =>
      intro state'' hstate'' slot' hslot' haddress
      rw [← Option.some.inj hstate''] at hslot'
      rcases mem_of_reread values hslot' with ⟨slot, hslot, hreread⟩
      rcases hreread with ⟨account, hheard⟩
      refine ⟨fun hspendable => hspendable.2 (hanswered account (haddress ▸ hheard.answered)), ?_⟩
      rintro ⟨payload, rfl, _⟩
      rcases online with hop | ⟨_, _, hop⟩ <;> cases hop
  | reconciled slots =>
      intro state'' hstate'' slot' hslot' haddress
      rw [← Option.some.inj hstate''] at hslot'
      refine ⟨fun hspendable => ?_, fun ⟨_, hop, _⟩ => by cases hop⟩
      rcases slots.slot_mem hslot' with hslot | ⟨slot, _, record, _, _, hrearmed⟩
      · exact (h state rfl slot' hslot haddress).1 hspendable
      · cases hrearmed with
        | gone heard value => cases hspendable.1
        | settled heard value moved => exact hnever slot _ ⟨_, haddress, heard, value⟩
        | released heard value elapsed => exact hnever slot _ ⟨_, haddress, heard, value⟩
  | closed =>
      intro state'' hstate'' slot' hslot' haddress
      rw [← Option.some.inj hstate''] at hslot'
      rcases List.mem_map.mp hslot' with ⟨slot, _, rfl⟩
      exact ⟨(fun hspendable => by cases hspendable.1), fun ⟨_, hop, _⟩ => by cases hop⟩

/-- The other operations arm no slot at all. -/
theorem Move.disarmed {past : Past} {op : PoolOp} {state state' : PoolState}
    (harms : op.arms = false) (h : Disarmed a (some state))
    (hmove : Move pool past op state state') : Disarmed a (some state') := by
  cases hmove with
  | reserve positive within chosen known =>
      intro state'' hstate'' slot' hslot' haddress hspendable
      rw [← Option.some.inj hstate''] at hslot'
      rcases mem_reserved hslot' with rfl | ⟨hslot, _⟩
      · cases hspendable.1
      · exact h state rfl slot' hslot haddress hspendable
  -- Only `reserveSlot` and `close` come here: the others may arm a slot.
  | returned => cases harms
  | reread online => rcases online with rfl | ⟨_, _, rfl⟩ <;> cases harms
  | reconciled => cases harms
  | closed =>
      intro state'' hstate'' slot' hslot' _ hspendable
      rw [← Option.some.inj hstate''] at hslot'
      rcases List.mem_map.mp hslot' with ⟨slot, _, rfl⟩
      cases hspendable.1

/-- In a new ledger no slot is armed, and none is spent. -/
theorem NewLedger.inert {past : Past} {op : PoolOp} {seen : Option PoolState} {state : PoolState}
    (hR : ∀ slot, R slot → slot.state = .spent) (h : NewLedger pool past op seen state) :
    Inert a R (some state) := by
  intro state' hstate' slot hslot _
  rw [← Option.some.inj hstate'] at hslot
  cases h with
  | created bounds setup sent prior =>
      rcases setupSlots_ok setup hslot with ⟨_, hvalue, hunspent, _⟩
      exact ⟨fun hspendable => hspendable.2 hvalue, fun h => by
        cases hunspent.symm.trans (hR slot h)⟩
  | recovered probed prior increasing =>
      rcases probed slot hslot with ⟨_, _⟩
      exact ⟨(fun hspendable => by cases hspendable.1), fun h => by cases hR _ h⟩

end Moves

section Completion

variable {network : Network ρ} {pool : PoolConfig} {α β : Type}

/-- Requests that write to the store. -/
def Req.Sets (r : Req) : Prop := ∃ k v, r = .storeSet k v

instance : DecidablePred Req.Sets
  | .storeSet k v => .isTrue ⟨k, v, rfl⟩
  | .tick | .storeGet _ | .storeKeys _ | .rpc _ | .sign _ _ | .now | .randomUUID =>
    .isFalse (by rintro ⟨_, _, ⟨⟩⟩)

/-- A store write is the last thing asked for, and the end is reached if it is not
    refused. -/
def EndsStored (network : Network ρ) (p : PoolM α) : Prop :=
  ∀ s w pre k v w' post, requests (reply network) p s w = pre ++ (Req.storeSet k v, w') :: post →
    post = [] ∧
      ((network.storage w'.net).1 = none → ∃ a, (run (reply network) p s w).result = .ok a)

theorem endsStored_of_asks {p : PoolM α} (h : Asks (fun r : Req => ¬ r.Sets) p) :
    EndsStored network p := fun s w _ k v _ _ hrequests =>
  absurd ⟨k, v, rfl⟩ (asks_requests (reply network) h (s := s) (w := w)
    (hrequests ▸ List.mem_append_right _ List.mem_cons_self))

theorem endsStored_bind {p : PoolM α} {f : α → PoolM β} (hp : Asks (fun r : Req => ¬ r.Sets) p)
    (hf : ∀ a, EndsStored network (f a)) : EndsStored network (p >>= f) := by
  intro s w pre k v w' post h
  have hnot : (Req.storeSet k v, w') ∉ requests (reply network) p s w := fun hmem =>
    asks_requests (reply network) hp hmem ⟨k, v, rfl⟩
  rw [requests_bind] at h
  rcases hrun : run (reply network) p s w with ⟨e | a, s', w''⟩
  · rw [hrun, List.append_nil] at h
    exact absurd (h ▸ List.mem_append_right _ List.mem_cons_self) hnot
  · rw [hrun] at h
    rw [run_bind_ok _ hrun]
    -- The write is not among the first part's requests, so the split falls behind them.
    rcases List.append_eq_append_iff.mp h with ⟨rest, _, hrest⟩ | ⟨rest, heq, hrest⟩
    · exact hf a s' w'' rest k v w' post hrest
    · cases rest with
      | nil => exact hf a s' w'' [] k v w' post hrest.symm
      | cons first rest =>
          rw [List.cons_append, List.cons.injEq] at hrest
          exact absurd (heq ▸ List.mem_append_right _ (hrest.1 ▸ List.mem_cons_self)) hnot

theorem endsStored_persist (state : PoolState) (a : α) :
    EndsStored network (do
      let _ ← Pool.persist pool state
      pure a) := by
  intro s w pre k v w' post h
  -- Nothing is asked here but the one write.
  have hrequests : requests (reply network) (do
      let _ ← Pool.persist pool state
      pure a) s w = [(Req.storeSet (.pool pool.payer) state, w)] := by
    simp only [Pool.persist, requests_bind, run_bind, run_write, storeSet]
    rw [run_request (I := client), requests_request (I := client)]
    rcases (reply network (.storeSet (.pool pool.payer) state) w).1 with e | ⟨⟩ <;> rfl
  rw [hrequests] at h
  rcases List.cons_eq_append_iff.mp h with ⟨rfl, hcons⟩ | ⟨rest, _, hrest⟩
  · cases hcons
    refine ⟨rfl, fun hstorage => ⟨a, ?_⟩⟩
    simp only [Pool.persist, run_bind, run_write, storeSet]
    rw [run_request (I := client)]
    simp only [reply]
    rcases hreply : network.storage w.net with ⟨_ | e, n⟩
    · rfl
    · rw [hreply] at hstorage
      cases hstorage
  · exact absurd hrest.symm (by simp only [List.append_eq_nil_iff, reduceCtorEq, and_false,
      not_false_eq_true])

theorem asks_rpc (c : Call) : Asks (fun r : Req => ¬ r.Sets) (rpc c : PoolM c.Answer) :=
  asks_request (I := client) fun ⟨_, _, h⟩ => Req.noConfusion h

/-- `close` stores its ledger at its end. -/
theorem endsStored_close (payerKey : CryptoKeyPair) :
    EndsStored network (Pool.close pool payerKey) := by
  have hnot : ∀ {r : Req}, (∀ k v, r ≠ .storeSet k v) → ¬ r.Sets := fun h ⟨k, v, hr⟩ => h k v hr
  have hloaded : Asks (fun r : Req => ¬ r.Sets) (awaited (Pool.loaded pool)) :=
    asks_awaited (hnot fun _ _ => Req.noConfusion) (asks_loaded (hnot fun _ _ => Req.noConfusion))
  have hwithdrawals (slots : List PoolSlot) :
      Asks (fun r : Req => ¬ r.Sets) (Pool.withdrawals pool slots) :=
    asks_stateless (stateless_withdrawals (fun address => hnot (unstoring_account address)) slots)
  refine endsStored_bind hloaded fun state => ?_
  refine endsStored_bind (asks_stateless (stateless_assertPayerKey payerKey)) fun _ => ?_
  refine endsStored_bind (asks_rpc _) fun balance => endsStored_bind (asks_rpc _) fun minimum => ?_
  split
  · exact endsStored_of_asks (asks_ofResult (.error _))
  refine endsStored_bind (hwithdrawals _) fun x => ?_
  dsimp only
  -- Whatever is withdrawn first, what comes last is the write.
  split
  · exact endsStored_bind (asks_rpc _) fun _ => endsStored_persist _ _
  · exact endsStored_persist _ _

end Completion

section Step

variable {network : Network ρ} (chain : Withdrawals network) (pool : PoolConfig)

/-- A withdrawal takes effect for the account while the event's requests are
    served. -/
def TakesEffect (e : PoolEvent ρ) (a : Address) : Prop :=
  ∃ r w, (r, w) ∈ requestsOf network pool e.op e.before ∧ ¬ chain.withdrawn w.net a ∧
    chain.withdrawn (reply network r w).2.net a

/-- The event is a `close` that gets to store its ledger, and the store does not
    refuse it. -/
def Completes (network : Network ρ) (pool : PoolConfig) (e : PoolEvent ρ) : Prop :=
  (∃ payerKey, e.op.op = some (.close payerKey)) ∧
    ∃ k v w, (Req.storeSet k v, w) ∈ requestsOf network pool e.op e.before ∧
      (network.storage w.net).1 = none

/-- A withdrawal for the account is noted in the event it takes effect in: that is
    a `close` that stores its ledger, or there was no slot to be handed out before
    and the operation arms none. -/
def Noted (network : Network ρ) (pool : PoolConfig) (e : PoolEvent ρ) (a : Address) : Prop :=
  Completes network pool e ∨ (∀ op, e.op.op = some op → op.arms = false) ∧
    Disarmed a e.before.current ∧ Disarmed a (e.before.stored pool)

/-- Every withdrawal that takes effect in the event is noted, and a nonce return
    is not for an account that was withdrawn before. -/
structure Guarded (e : PoolEvent ρ) : Prop where
  noted : ∀ a, TakesEffect chain pool e a → Noted network pool e a
  returned : ∀ op, e.op.op = some op → ∀ state,
    e.before.current.or (e.before.stored pool) = some state → ∀ slot ∈ state.slots,
    IsReturned op slot → ¬ chain.withdrawn e.before.world.net slot.address

/-- Neither ledger has a slot of the account that can be handed out. -/
structure BothDisarmed (a : Address) (sys : PoolSys ρ) : Prop where
  memory : Disarmed a sys.current
  store : Disarmed a (sys.stored pool)

variable {chain pool} {a : Address} {command : PoolCommand} {sys : PoolSys ρ}

/-- A slot the command returns. -/
def Returns (command : PoolCommand) (slot : PoolSlot) : Prop :=
  ∃ op, command.op = some op ∧ IsReturned op slot

/-- What holds while a command runs from `sys` and an account is not there. The
    store counts for the return only if the ledger is read from it. -/
structure StaysInert (pool : PoolConfig) (a : Address) (command : PoolCommand) (sys : PoolSys ρ)
    (past : Past) (s : Option PoolState) (w : World ρ) : Prop where
  held : s = none → sys.current = none
  memory : Inert a (Returns command) s
  store : Inert a (fun slot => sys.current = none ∧ Returns command slot)
    (w.store.lookup (.pool pool.payer))
  read : ∀ stored, ReadStore pool past stored →
    Inert a (fun slot => sys.current = none ∧ Returns command slot) stored
  answered : ∀ account, Answered past (.getNonceAccount a) account → account.value = none

theorem StaysInert.put {op : PoolOp} {past : Past} {s s' : Option PoolState} {w : World ρ}
    (hop : command.op = some op) (h : StaysInert pool a command sys past s w)
    (hwrite : Write pool op past s s') :
    StaysInert pool a command sys (past ++ [.wrote s s']) s' w where
  held := fun hs => by
    cases hwrite with
    | load _ => exact h.held rfl
    | move _ => cases hs
    | new _ => cases hs
  memory := by
    -- The command has one operation, so what it returns this operation returns.
    have hreturns : ∀ slot, Returns command slot → IsReturned op slot := by
      rintro slot ⟨op', hop', hreturned⟩
      cases hop.symm.trans hop'
      exact hreturned
    cases hwrite with
    | load hread => exact (h.read _ hread).mono fun slot hslot => ⟨h.held rfl, hslot⟩
    | move hmove =>
        exact (hmove.inert (h.memory.mono fun slot hslot => ⟨op, hop, hslot⟩) h.answered).mono
          hreturns
    | new hnew =>
        refine hnew.inert fun slot hslot => ?_
        rcases hreturns slot hslot with ⟨_, _, _, hspent⟩
        exact hspent
  store := h.store
  read := fun stored hread => h.read stored (Act.asked_of_wrote hread)
  answered := fun account hanswered => h.answered account (Act.asked_of_wrote hanswered)

theorem StaysInert.ask (chain : Withdrawals network) {past : Past} {s : Option PoolState}
    {w : World ρ} {r : Req} (h : StaysInert pool a command sys past s w)
    (hwithdrawn : chain.withdrawn w.net a) (hr : Stores pool past s r) :
    StaysInert pool a command sys (past ++ [.asked (I := client) r (reply network r w).1]) s
      (reply network r w).2 where
  held := h.held
  memory := h.memory
  store := by
    rcases stored_reply network hr w with heq | ⟨state, rfl, heq⟩
    · rw [heq]
      exact h.store
    · rw [heq]
      exact h.memory.mono fun slot hslot => hslot.2
  read := fun stored hread => by
    rcases read_snoc hread with hread | rfl
    · exact h.read stored hread
    · exact h.store
  answered := fun account hanswered => by
    rcases answered_snoc hanswered with hanswered | ⟨_, ha⟩
    · exact h.answered account hanswered
    · exact chain.absent w.net _ a account hwithdrawn (Prod.ext ha rfl)

/-- While no withdrawal takes effect for an account that is not there, none of its
    slots is armed. -/
theorem disarmed_of_absent (h : chain.withdrawn sys.world.net a → BothDisarmed pool a sys)
    (hguarded : Guarded chain pool (eventAt (poolStep network pool) command sys))
    (hnone : ¬ TakesEffect chain pool (eventAt (poolStep network pool) command sys) a)
    (hwithdrawn : chain.withdrawn (poolStep network pool command sys).2.world.net a) :
    BothDisarmed pool a (poolStep network pool command sys).2 := by
  -- None of its requests withdraws the account, so it was withdrawn before the first.
  have hbefore : ∀ entry ∈ requestsOf network pool command sys,
      chain.withdrawn (reply network entry.1 entry.2).2.net a →
      chain.withdrawn entry.2.net a := fun entry hentry hafter => by
    by_contra hnot
    exact hnone ⟨entry.1, entry.2, hentry, hnot, hafter⟩
  have hstart : chain.withdrawn sys.world.net a →
      StaysInert pool a command sys [] sys.current sys.world := by
    intro hw
    have hfree : ∀ state, sys.current.or (sys.stored pool) = some state → ∀ slot ∈ state.slots,
        slot.address = a → ¬ Returns command slot := by
      rintro state hstate slot hslot rfl ⟨op, hop, hreturned⟩
      exact hguarded.returned op hop state hstate slot hslot hreturned hw
    refine ⟨id, fun state hstate slot hslot haddress =>
      ⟨(h hw).memory state hstate slot hslot haddress, ?_⟩,
      fun state hstate slot hslot haddress => ⟨(h hw).store state hstate slot hslot haddress, ?_⟩,
      fun _ hread => absurd hread List.not_mem_nil, fun _ hans => absurd hans List.not_mem_nil⟩
    · exact hfree state (by rw [hstate, Option.some_or]) slot hslot haddress
    · rintro ⟨hcurrent, hreturns⟩
      exact hfree state (by rw [hcurrent, Option.none_or]; exact hstate) slot hslot haddress
        hreturns
  rcases @command_obeys _ network pool command sys (fun op => Write pool op)
    (fun _ => Stores pool) (Ends pool)
    (fun r w => chain.withdrawn (reply network r w).2.net a → chain.withdrawn w.net a)
    (fun past s w => chain.withdrawn w.net a → StaysInert pool a command sys past s w)
    (fun op _ => op_obeys pool op [] _)
    (fun _ _ _ _ _ hop h hwrite hw => (h hw).put hop hwrite)
    (fun _ _ _ _ _ _ hT h hr hw => (h (hT hw)).ask chain (hT hw) hr) hbefore hstart with
    ⟨past, s, hend, hcurrent, _⟩
  have hend := hend hwithdrawn
  refine ⟨?_, hend.store.disarmed⟩
  rcases hcurrent with hnone | hs
  · rw [hnone]
    exact fun state hstate => by cases hstate
  · rw [hs]
    exact hend.memory.disarmed

/-- An operation that arms no slot leaves none of the account armed. -/
theorem disarmed_of_not_arms (harms : ∀ op, command.op = some op → op.arms = false)
    (h : BothDisarmed pool a sys) : BothDisarmed pool a (poolStep network pool command sys).2 := by
  have hkept : ∀ op, command.op = some op → Kept network pool op sys (fun _ => Disarmed a)
      (fun _ => Disarmed a) := fun op hop =>
    { memory := fun _ _ _ _ h => h
      store := fun _ _ _ _ h => h
      persist := fun _ _ h => h
      load := fun _ _ _ h => h
      move := fun _ _ _ _ _ _ _ _ h hmove => hmove.disarmed (harms op hop) h
      new := fun _ _ _ _ _ _ _ _ hnew =>
        (hnew.inert (R := fun _ => False) fun _ hslot => hslot.elim).disarmed }
  have hledgers := command_kept hkept ⟨fun _ _ => h.memory, h.store⟩
  refine ⟨fun state hstate => ?_, hledgers.store⟩
  exact hledgers.memory state hstate state hstate

/-- A `close` that gets to store its ledger leaves no slot armed. -/
theorem disarmed_of_completes
    (h : Completes network pool (eventAt (poolStep network pool) command sys)) :
    BothDisarmed pool a (poolStep network pool command sys).2 := by
  rcases h with ⟨⟨payerKey, hop⟩, k, v, w, hmem, hstorage⟩
  -- It resolves, and nothing is asked for after the store write.
  have hends : ∀ pre post, requests (reply network) (Pool.close pool payerKey) sys.current sys.world
      = pre ++ (Req.storeSet k v, w) :: post → post = [] ∧
        Unspendable pool (poolStep network pool (.call (.close payerKey)) sys).2 := by
    intro pre post hrequests
    rcases endsStored_close payerKey sys.current sys.world pre k v w post hrequests with
      ⟨hpost, hresolves⟩
    rcases hresolves hstorage with ⟨refunded, hresult⟩
    refine ⟨hpost, unspendable_emptied (x := .refunded refunded) (.inl ⟨payerKey, rfl⟩) ?_⟩
    simp only [poolStep, PoolOp.process, run_map, hresult]
    rfl
  cases command with
  | call op =>
      cases Option.some.inj hop
      change _ ∈ requests (reply network) (PoolResult.refunded <$> Pool.close pool payerKey)
        sys.current sys.world at hmem
      rw [requests_map] at hmem
      rcases List.append_of_mem hmem with ⟨pre, post, hrequests⟩
      have hemptied := (hends pre post hrequests).2
      exact ⟨hemptied.memory.disarmed, hemptied.store.disarmed⟩
  | reopen => cases hop
  | crash op n =>
      cases Option.some.inj hop
      change _ ∈ (requests (reply network) (PoolResult.refunded <$> Pool.close pool payerKey)
        sys.current sys.world).take n at hmem
      rw [requests_map] at hmem
      rcases List.append_of_mem hmem with ⟨pre, post, htake⟩
      have hrequests := List.take_append_drop n
        (requests (reply network) (Pool.close pool payerKey) sys.current sys.world)
      rw [htake, List.append_assoc, List.cons_append] at hrequests
      rcases hends pre _ hrequests.symm with ⟨hpost, hemptied⟩
      have hlength := List.drop_eq_nil_iff.mp (List.append_eq_nil_iff.mp hpost).2
      have hworld : (poolStep network pool (.crash (.close payerKey) n) sys).2.world
          = (poolStep network pool (.call (.close payerKey)) sys).2.world :=
        interrupt_of_length_le (reply network) (PoolResult.refunded <$> Pool.close pool payerKey)
          (by rw [requests_map]; exact hlength)
      refine ⟨fun state hstate => (by cases hstate), ?_⟩
      rw [PoolSys.stored, hworld]
      exact hemptied.store.disarmed

/-- An event that is guarded leaves no slot of a withdrawn account armed. -/
theorem disarmed_step (h : ∀ a, chain.withdrawn sys.world.net a → BothDisarmed pool a sys)
    (hguarded : Guarded chain pool (eventAt (poolStep network pool) command sys)) (a : Address)
    (hwithdrawn : chain.withdrawn (poolStep network pool command sys).2.world.net a) :
    BothDisarmed pool a (poolStep network pool command sys).2 := by
  by_cases heffect : TakesEffect chain pool (eventAt (poolStep network pool) command sys) a
  · rcases hguarded.noted a heffect with hcompletes | ⟨harms, hmemory, hstore⟩
    · exact disarmed_of_completes hcompletes
    · exact disarmed_of_not_arms harms ⟨hmemory, hstore⟩
  · exact disarmed_of_absent (h a) hguarded heffect hwithdrawn

end Step

/-- In a run of guarded events no slot of a withdrawn account is ever in the store
    as one that can be handed out, wherever the run ends. -/
theorem withdrawn_disarmed {network : Network ρ} (chain : Withdrawals network) (pool : PoolConfig)
    (sys : PoolSys ρ) (hfresh : sys.Fresh pool) (commands : List PoolCommand)
    (hguarded : ∀ e ∈ poolHistory network pool sys commands, Guarded chain pool e) (a : Address)
    (hwithdrawn : chain.withdrawn (final (poolStep network pool) sys commands).world.net a) :
    Disarmed a ((final (poolStep network pool) sys commands).stored pool) := by
  have hstart : ∀ a, chain.withdrawn sys.world.net a → BothDisarmed pool a sys := fun a _ => by
    refine ⟨fun state hstate => ?_, fun state hstate => ?_⟩
    · cases hfresh.1.symm.trans hstate
    · cases hfresh.2.symm.trans hstate
  have hrule := @Async.history_invariant _ _ _ (poolStep network pool)
    (fun sys => ∀ a, chain.withdrawn sys.world.net a → BothDisarmed pool a sys) (Guarded chain pool)
    (fun _ _ h hguarded => disarmed_step h hguarded) sys commands hstart hguarded
  exact (hrule.1 a hwithdrawn).store

section OneAccount

/-- A chain with room for one account. -/
structure OneAccount where
  created : Bool
  withdrawn : Bool
deriving DecidableEq

/-- Executing setup instructions in order. -/
def OneAccount.execute (chain : OneAccount) : List SetupInstruction → OneAccount
  | [] => chain
  | .createAccountWithSeed .. :: rest => execute ⟨true, false⟩ rest
  | .initializeNonceAccount .. :: rest => execute chain rest
  | .withdrawNonceAccount .. :: rest => execute ⟨false, true⟩ rest

/-- A network on which setup transactions take effect at once. -/
def oneAccountNetwork : Network OneAccount where
  rpc := fun c chain => match c with
    | .getNonceRentExemption => (.ok 1056640, chain)
    | .getRentExemption _ => (.ok 890880, chain)
    | .getNonceAccount address =>
      (.ok (if chain.created ∧ address = (testAccount 0 (testNonce 7)).1 then
        .initialized testPool.payer (testNonce 7) 1056640 else .absent), chain)
    | .getBalance _ => (.ok 1000000000, chain)
    | .sendSetup instructions _ => (.ok [], chain.execute instructions)
    | _ => (.error (.error "TypeError" "fetch failed" none), chain)
  storage := fun chain => (none, chain)
  sign := fun key message chain => (testSignature key.publicKey message, chain)
  clock := fun _ => 0
  randomUUID := fun chain => ("epoch", chain)
  tick := id

/-- Where the account was withdrawn and not created again, it is not there. -/
def oneAccountWithdrawals : Withdrawals oneAccountNetwork where
  withdrawn := fun chain a =>
    chain.created = false ∧ chain.withdrawn = true ∧ a = (testAccount 0 (testNonce 7)).1
  absent := fun n n' a account h hans => by
    rcases Prod.mk.inj hans with ⟨haccount, _⟩
    rw [← Except.ok.inj haccount, if_neg (by rw [h.1]; exact fun hboth => nomatch hboth.1)]
    rfl

def emptyAccounts : PoolSys OneAccount := ⟨none, ⟨∅, ⟨false, false⟩⟩⟩

/-- The account of the one slot. -/
def slotAccount : Address := (testAccount 0 (testNonce 7)).1

/-- A pool is made and closed. -/
def closedRun : List PoolCommand := [.call (.create 1 (testKey 1)), .call (.close (testKey 1))]

theorem withdrawn_disarmed_closedRun :
    oneAccountWithdrawals.withdrawn
      (final (poolStep oneAccountNetwork testPool) emptyAccounts closedRun).world.net slotAccount ∧
    Disarmed slotAccount
      ((final (poolStep oneAccountNetwork testPool) emptyAccounts closedRun).stored testPool) := by
  have hwithdrawn : oneAccountWithdrawals.withdrawn
      (final (poolStep oneAccountNetwork testPool) emptyAccounts closedRun).world.net
        slotAccount := by
    refine ⟨by decide +kernel, by decide +kernel, rfl⟩
  refine ⟨hwithdrawn, withdrawn_disarmed oneAccountWithdrawals testPool emptyAccounts ⟨rfl, rfl⟩
    closedRun (fun e he => ?_) slotAccount hwithdrawn⟩
  -- Creating withdraws nothing, and closing ends with a write.
  have hcreate : ((requestsOf oneAccountNetwork testPool (.call (.create 1 (testKey 1)))
      emptyAccounts).all fun entry => ! (reply oneAccountNetwork entry.1 entry.2).2.net.withdrawn)
        = true := by decide +kernel
  have hclose : ((requestsOf oneAccountNetwork testPool (.call (.close (testKey 1)))
      (poolStep oneAccountNetwork testPool (.call (.create 1 (testKey 1))) emptyAccounts).2).any
        fun entry => decide entry.1.Sets) = true := by decide +kernel
  rcases List.mem_cons.mp he with rfl | he
  · refine ⟨fun a heffect => ?_, fun op hop _ _ _ _ hreturned => ?_⟩
    · rcases heffect with ⟨r, w, hmem, _, _, hafter, _⟩
      have hnot := List.all_eq_true.mp hcreate _ hmem
      rw [hafter] at hnot
      cases hnot
    · cases hop
      rcases hreturned with ⟨_, hop, _⟩
      cases hop
  · cases List.mem_singleton.mp he
    refine ⟨fun a _ => .inl ⟨⟨testKey 1, rfl⟩, ?_⟩, fun op hop _ _ _ _ hreturned => ?_⟩
    · rcases List.any_eq_true.mp hclose with ⟨⟨r, w⟩, hmem, hset⟩
      rcases of_decide_eq_true hset with ⟨k, v, rfl⟩
      exact ⟨k, v, w, hmem, rfl⟩
    cases hop
    rcases hreturned with ⟨_, hop, _⟩
    cases hop

/-- The app dies when the withdrawal was sent and the ledger is not yet stored,
    and reserves a slot when it is opened again. -/
def crashedRun : List PoolCommand :=
  [.call (.create 1 (testKey 1)), .crash (.close (testKey 1)) 5,
    .call (.reserveSlot (testAddress 2) 5 10)]

/-- One of its events. -/
def crashedEvent (n : Fin 3) : PoolEvent OneAccount :=
  (poolHistory oneAccountNetwork testPool emptyAccounts crashedRun).get n

/-- The withdrawal has taken effect, the slot is still there to be handed out, and
    it is. -/
theorem dead_slot_reserved :
    oneAccountWithdrawals.withdrawn (crashedEvent 1).after.world.net slotAccount ∧
    ¬ Disarmed slotAccount ((crashedEvent 1).after.stored testPool) ∧
    made (crashedEvent 2) = some ⟨testAddress 2, 5, 10, ⟨0, testNonce 7⟩⟩ := by
  refine ⟨⟨by decide +kernel, by decide +kernel, rfl⟩, fun hdisarmed => ?_, by decide +kernel⟩
  have hstored : ((crashedEvent 1).after.stored testPool).map (fun state =>
      state.slots.map fun slot => (slot.address, slot.state, slot.value))
        = some [(slotAccount, .unspent, some (testNonce 7))] := by decide +kernel
  rcases Option.map_eq_some_iff.mp hstored with ⟨state, hstate, hslots⟩
  rcases List.map_eq_cons_iff.mp hslots with ⟨slot, rest, hcons, hslot, _⟩
  simp only [Prod.mk.injEq] at hslot
  refine hdisarmed state hstate slot (hcons ▸ List.mem_cons_self) hslot.1 ⟨hslot.2.1, ?_⟩
  rw [hslot.2.2]
  exact nofun

end OneAccount

end Vadum
