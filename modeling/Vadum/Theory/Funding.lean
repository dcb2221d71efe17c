import Vadum.Theory.Allowance

/-!
# Paying for Setups

When `create` and `close` send a setup transaction, and what it costs the wallet
(D38). A wallet must end every transaction empty or with what it takes to exist,
so the balances between are as bad as those that are too low. `create` refuses
them all. `close` refuses all but one: a wallet with nothing in it passes the
check, and cannot pay.

## Main definitions

* `sentSetups`: The setups among the requests of a run.
* `CanPay`: What is left is nothing, or enough.
* `Underfunded`: A result that refuses for the balance.
* `moved`: What the instructions of a setup move.
* `ClosePaid`: A run of `close` that keeps the rule.

## Theorems

* `setupSlots_total`: The setup of a pool moves the rent of every slot.
* `sentSetups_create`: When a setup is sent.
* `run_close`: `close` refuses for the balance, or withdraws.
* `setups_paid_iff`: The balances for which the rule is kept.
-/

namespace Vadum

open Async.Process

variable {ρ : Type} {network : Network ρ} {pool : PoolConfig}

section Sending

/-- The setups among the requests of a run. -/
def sentSetups (entries : List (Req × World ρ)) : List (List SetupInstruction) :=
  entries.filterMap fun entry => match entry.1 with
    | .rpc (.sendSetup instructions _) => some instructions
    | _ => none

@[simp] theorem sentSetups_nil : sentSetups ([] : List (Req × World ρ)) = [] := rfl

@[simp] theorem sentSetups_append (entries entries' : List (Req × World ρ)) :
    sentSetups (entries ++ entries') = sentSetups entries ++ sentSetups entries' :=
  List.filterMap_append

/-- A request that submits no transaction. -/
def Req.SendsNothing : Req → Prop
  | .rpc (.sendSetup _ _) => False
  | .rpc (.sendPayment _ _) => False
  | _ => True

/-- A process that asks for no setup sends none. -/
theorem sentSetups_of_asks {α : Type} {p : PoolM α} (hp : Asks Req.SendsNothing p)
    (s : Option PoolState) (w : World ρ) : sentSetups (requests (reply network) p s w) = [] := by
  refine List.filterMap_eq_nil_iff.mpr fun entry hentry => ?_
  have hnothing := asks_requests (reply network) hp hentry
  rcases entry with ⟨r, w'⟩
  split
  · next instructions key heq =>
    dsimp only at heq hnothing
    rw [heq] at hnothing
    exact hnothing.elim
  · rfl

theorem sendless_loaded : Asks Req.SendsNothing (awaited (Pool.loaded pool)) :=
  asks_awaited trivial (asks_loaded trivial)

theorem sendless_persist (state : PoolState) : Asks Req.SendsNothing (Pool.persist pool state) :=
  asks_bind (asks_write _) fun _ =>
    asks_bind (asks_request (I := client) trivial) fun _ => asks_pure _

theorem sendless_refresh : Asks Req.SendsNothing (Pool.refresh pool) :=
  asks_bind sendless_loaded fun _ =>
    asks_bind (asks_stateless (stateless_refreshSlots (fun _ => trivial) _)) fun _ =>
      sendless_persist _

theorem sendless_withdrawals (slots : List PoolSlot) :
    Asks Req.SendsNothing (Pool.withdrawals pool slots) :=
  asks_stateless (stateless_withdrawals (fun _ => trivial) slots)

theorem sendless_priorSpendLog : Asks Req.SendsNothing (awaited (Pool.priorSpendLog pool)) :=
  asks_awaited trivial (asks_bind (asks_currentOrStored trivial) fun _ => asks_pure _)

end Sending

section Creating

/-- What is left after a payment is nothing, or what it takes to exist. -/
def CanPay (balance cost minimum : Int) : Prop :=
  balance - cost = 0 ∨ minimum ≤ balance - cost

instance (balance cost minimum : Int) : Decidable (CanPay balance cost minimum) :=
  inferInstanceAs (Decidable (_ ∨ _))

/-- The setup was refused for the balance. -/
def Underfunded {α : Type} (x : Except Thrown α) : Prop :=
  ∃ detail, x = .error (vadumError .noncePoolUnderfunded detail)

/-- What an instruction takes from the payer. -/
def SetupInstruction.moves : SetupInstruction → Int
  | .createAccountWithSeed _ _ _ _ amount _ _ => amount
  | _ => 0

/-- What the instructions of a setup take from the payer. -/
def moved (instructions : List SetupInstruction) : Int :=
  (instructions.map SetupInstruction.moves).sum

theorem nonceSeed_ok {index : Nat} (h : index ≤ 255) :
    nonceSeed index = .ok ("vadum-" ++ toString index) := if_neg (not_lt.mpr h)

/-- The setup of slots moves the same for each. -/
theorem setupSlots_total {indices : List Nat} (h : ∀ index ∈ indices, index ≤ 255)
    (perSlot : Int) : ∃ instructions slots,
      Pool.setupSlots pool perSlot indices = .ok (instructions, slots) ∧
        moved instructions = indices.length * perSlot := by
  induction indices with
  | nil => exact ⟨[], [], rfl, by simp only [moved, List.map_nil, List.sum_nil, List.length_nil,
      Nat.cast_zero, zero_mul]⟩
  | cons index indices ih =>
      rcases ih fun i hi => h i (List.mem_cons_of_mem _ hi) with
        ⟨instructions, slots, hrest, htotal⟩
      have hseed := nonceSeed_ok (h index List.mem_cons_self)
      refine ⟨_, _, by simp only [Pool.setupSlots, deriveNonceAddress, hseed, hrest]; rfl, ?_⟩
      simp only [moved, List.map_cons, List.sum_cons, SetupInstruction.moves, List.length_cons,
        Nat.cast_succ] at htotal ⊢
      rw [htotal, add_mul, one_mul]
      omega

/-- The code's test of a balance is the rule, where no minimum is negative. -/
theorem canPay_iff {balance cost minimum : Int} (hminimum : 0 ≤ minimum) :
    CanPay balance cost minimum ↔
      ¬ (balance < cost ∨ (balance > cost ∧ balance < cost + minimum)) := by
  unfold CanPay
  omega

/-- What the network answers when `create` asks for its prices and the balance. -/
def Quoted (network : Network ρ) (pool : PoolConfig) (rent minimum balance : Int) (net : ρ) :
    Prop :=
  ∃ n₁ n₂ n₃, network.rpc .getNonceRentExemption net = (.ok rent, n₁) ∧
    network.rpc (.getRentExemption 0) n₁ = (.ok minimum, n₂) ∧
    network.rpc (.getBalance pool.payer) n₂ = (.ok balance, n₃)

theorem run_answered {c : Call} {a : c.Answer} {net : ρ} {w : World ρ}
    (h : network.rpc c w.net = (.ok a, net)) (s : Option PoolState) :
    run (reply network) (rpc c : PoolM c.Answer) s w = ⟨.ok a, s, ⟨w.store, net⟩⟩ := by
  simp only [rpc, run_request (I := client), reply, h]

/-- What `create` does once the balance is enough. -/
def sendAndRecord (pool : PoolConfig) (size perSlot : Int) (key : CryptoKeyPair) :
    PoolM PoolStatus := do
  let (instructions, slots) ←
    ofResult (Pool.setupSlots pool perSlot (List.range size.toNat))
  let _ ← sendSetup instructions key
  let epoch ← randomUUID
  let spendLog ← awaited (Pool.priorSpendLog pool)
  let _ ← Pool.persist pool
    { payer := pool.payer, size := size.toNat, epoch, slots, spendLog := some spendLog }
  Pool.refresh pool

/-- The test of a balance against the cost of a setup. -/
def tooLittle (balance : Int) (cost : SetupCost) : Prop :=
  balance < cost.nonceRent + cost.fee ∨
    (balance > cost.nonceRent + cost.fee ∧
      balance < cost.nonceRent + cost.fee + cost.walletMinimum)

instance (balance : Int) (cost : SetupCost) : Decidable (tooLittle balance cost) :=
  inferInstanceAs (Decidable (_ ∨ _))

/-- `create` asks for the prices and the balance, and refuses or goes on. -/
theorem create_eq {size : Int} (hsize : 1 ≤ size ∧ size ≤ 256) {key : CryptoKeyPair}
    (hkey : key.publicKey = pool.payer) :
    Pool.create pool size key = (do
      let cost ← Pool.estimateSetupCost size
      let balance ← getBalance pool.payer
      if tooLittle balance cost then
        throw (vadumError .noncePoolUnderfunded
          [("balance", .number balance), ("nonceRent", .number cost.nonceRent),
            ("fee", .number cost.fee), ("walletMinimum", .number cost.walletMinimum)])
      else sendAndRecord pool size (cost.nonceRent.tdiv size) key) := by
  have hbounds : ¬ (size < 1 ∨ size > 256) := by omega
  rw [Pool.create, if_neg hbounds, Pool.assertPayerKey, if_neg (not_not.mpr hkey)]
  rfl

/-- A part that sends nothing may be left out. -/
theorem sentSetups_bind_ok {α β : Type} {p : PoolM α} (hp : Asks Req.SendsNothing p)
    {f : α → PoolM β} {s s' : Option PoolState} {w w' : World ρ} {a : α}
    (h : run (reply network) p s w = ⟨.ok a, s', w'⟩) :
    sentSetups (requests (reply network) (p >>= f) s w)
      = sentSetups (requests (reply network) (f a) s' w') := by
  rw [requests_bind, sentSetups_append, sentSetups_of_asks hp, List.nil_append, h]

/-- A setup that nothing is sent after is the only one. -/
theorem sentSetups_send {β : Type} {f : Signature → PoolM β}
    (hf : ∀ signature, Asks Req.SendsNothing (f signature))
    (instructions : List SetupInstruction) (key : CryptoKeyPair) (s : Option PoolState)
    (w : World ρ) :
    sentSetups (requests (reply network) (sendSetup instructions key >>= f) s w)
      = [instructions] := by
  have hsend : requests (reply network) (sendSetup instructions key : PoolM Signature) s w
      = [(.rpc (.sendSetup instructions key), w)] := requests_request (reply network) _ s w
  rw [requests_bind, sentSetups_append, hsend]
  rcases (run (reply network) (sendSetup instructions key : PoolM Signature) s w).result with
    e | signature
  · rfl
  · exact congrArg (instructions :: ·) (sentSetups_of_asks (hf signature) _ _)

theorem sendless_estimateSetupCost (size : Int) :
    Asks Req.SendsNothing (Pool.estimateSetupCost size) :=
  asks_stateless (stateless_estimateSetupCost trivial trivial size)

theorem sendless_getBalance (address : Address) :
    Asks Req.SendsNothing (getBalance address : PoolM Int) :=
  asks_request (I := client) trivial

/-- One setup is sent once the balance is enough, and it moves every slot's rent. -/
theorem sentSetups_sendAndRecord {size : Int} (hsize : 1 ≤ size ∧ size ≤ 256) (perSlot : Int)
    (key : CryptoKeyPair) (s : Option PoolState) (w : World ρ) :
    ∃ instructions, moved instructions = size * perSlot ∧
      sentSetups (requests (reply network) (sendAndRecord pool size perSlot key) s w)
        = [instructions] := by
  have hindices : ∀ index ∈ List.range size.toNat, index ≤ 255 := by
    intro index hindex
    have := List.mem_range.mp hindex
    omega
  rcases @setupSlots_total pool _ hindices perSlot with ⟨instructions, slots, hsetup, htotal⟩
  refine ⟨instructions, ?_, ?_⟩
  · rw [htotal, List.length_range, Int.toNat_of_nonneg (by omega)]
  -- The setup is built without a request.
  have hrun : run (reply network) (ofResult (Pool.setupSlots pool perSlot
      (List.range size.toNat)) : PoolM _) s w = ⟨.ok (instructions, slots), s, w⟩ := by
    rw [run_ofResult, hsetup]
  rw [sendAndRecord, sentSetups_bind_ok (asks_ofResult _) hrun]
  -- After the one setup nothing else is sent.
  have hrest : Asks Req.SendsNothing (do
      let epoch ← randomUUID
      let spendLog ← awaited (Pool.priorSpendLog pool)
      let _ ← Pool.persist pool
        { payer := pool.payer, size := size.toNat, epoch, slots, spendLog := some spendLog }
      Pool.refresh pool) :=
    asks_bind (asks_request (I := client) trivial) fun _ =>
      asks_bind sendless_priorSpendLog fun _ => asks_bind (sendless_persist _) fun _ =>
        sendless_refresh
  exact sentSetups_send (fun _ => hrest) instructions key s w

/-- The prices and the balance, as they are answered. -/
theorem run_quote {rent minimum balance : Int} (size : Int) (s : Option PoolState) {w : World ρ}
    (hquoted : Quoted network pool rent minimum balance w.net) :
    ∃ net net', run (reply network) (Pool.estimateSetupCost size) s w
        = ⟨.ok ⟨rent * size, lamportsPerSignature, minimum⟩, s, ⟨w.store, net⟩⟩ ∧
      run (reply network) (getBalance pool.payer : PoolM Int) s ⟨w.store, net⟩
        = ⟨.ok balance, s, ⟨w.store, net'⟩⟩ := by
  rcases hquoted with ⟨n₁, n₂, n₃, hrent, hminimum, hbalance⟩
  refine ⟨n₂, n₃, ?_, run_answered (w := ⟨w.store, n₂⟩) hbalance s⟩
  exact (run_bind_ok _ (run_answered hrent s)).trans
    ((run_bind_ok _ (run_answered (w := ⟨w.store, n₁⟩) hminimum s)).trans rfl)

/-- A setup is sent exactly if the wallet can pay for it, and otherwise it is
    refused for the balance. -/
theorem sentSetups_create {size : Int} (hsize : 1 ≤ size ∧ size ≤ 256) {key : CryptoKeyPair}
    (hkey : key.publicKey = pool.payer) {rent minimum balance : Int} (hminimum : 0 ≤ minimum)
    (s : Option PoolState) {w : World ρ}
    (hquoted : Quoted network pool rent minimum balance w.net) :
    if CanPay balance (size * rent + lamportsPerSignature) minimum then
      ∃ instructions, moved instructions = size * rent ∧
        sentSetups (requests (reply network) (Pool.create pool size key) s w) = [instructions]
    else
      Underfunded (run (reply network) (Pool.create pool size key) s w).result ∧
        sentSetups (requests (reply network) (Pool.create pool size key) s w) = [] := by
  rcases run_quote size s hquoted with ⟨net, net', hcost, hbalance⟩
  have hmul : rent * size = size * rent := Int.mul_comm _ _
  rw [create_eq hsize hkey, sentSetups_bind_ok (sendless_estimateSetupCost size) hcost,
    sentSetups_bind_ok (sendless_getBalance _) hbalance, run_bind_ok _ hcost,
    run_bind_ok _ hbalance]
  by_cases hcan : CanPay balance (size * rent + lamportsPerSignature) minimum
  · have hnot : ¬ tooLittle balance ⟨rent * size, lamportsPerSignature, minimum⟩ :=
      hmul ▸ (canPay_iff hminimum).mp hcan
    -- The rent of all accounts, divided by their number, is the rent of one.
    have hper : (rent * size).tdiv size = rent := Int.mul_tdiv_cancel _ (by omega)
    rw [if_pos hcan, if_neg hnot, hper]
    exact sentSetups_sendAndRecord hsize rent key s _
  · have hlittle : tooLittle balance ⟨rent * size, lamportsPerSignature, minimum⟩ :=
      hmul ▸ not_not.mp fun h => hcan ((canPay_iff hminimum).mpr h)
    -- Refused for the balance before anything is sent.
    rw [if_neg hcan, if_pos hlittle]
    exact ⟨⟨_, rfl⟩, rfl⟩

end Creating

section Closing

/-- What the network answers when `close` asks for the balance. -/
def Asked (network : Network ρ) (pool : PoolConfig) (minimum balance : Int) (net : ρ) : Prop :=
  ∃ n₁ n₂, network.rpc (.getBalance pool.payer) net = (.ok balance, n₁) ∧
    network.rpc (.getRentExemption 0) n₁ = (.ok minimum, n₂)

/-- What `close` does once the balance has passed. -/
def withdrawAll (pool : PoolConfig) (state : PoolState) (key : CryptoKeyPair) : PoolM Int := do
  let (instructions, refundedLamports) ← Pool.withdrawals pool state.slots
  if instructions ≠ [] then
    let _ ← sendSetup instructions key
  let _ ← Pool.persist pool
    { state with slots := state.slots.map fun slot => rearmed slot none .unknown none }
  pure refundedLamports

/-- `close` asks for the balance, and refuses or withdraws. -/
theorem close_eq {key : CryptoKeyPair} (hkey : key.publicKey = pool.payer) :
    Pool.close pool key = (do
      let state ← awaited (Pool.loaded pool)
      let balance ← getBalance pool.payer
      let minimum ← getRentExemption 0
      if balance ≠ 0 ∧ balance < lamportsPerSignature + minimum then
        throw (vadumError .noncePoolUnderfunded
          [("reason", .text "the payer cannot pay the close fee and stay rent-exempt"),
            ("balance", .number balance), ("fee", .number lamportsPerSignature),
            ("walletMinimum", .number minimum)])
      else withdrawAll pool state key) := by
  rw [Pool.close, Pool.assertPayerKey, if_neg (not_not.mpr hkey)]
  rfl

/-- The balance is asked for, and `close` refuses or withdraws. -/
theorem run_close {key : CryptoKeyPair} (hkey : key.publicKey = pool.payer) {state : PoolState}
    {s : Option PoolState} {w : World ρ} {net n₁ n₂ : ρ} (hfinds : Finds network pool s w state net)
    {minimum balance : Int}
    (hbalance : network.rpc (.getBalance pool.payer) (network.tick net) = (.ok balance, n₁))
    (hminimum : network.rpc (.getRentExemption 0) n₁ = (.ok minimum, n₂)) :
    (balance ≠ 0 ∧ balance < lamportsPerSignature + minimum →
      Underfunded (run (reply network) (Pool.close pool key) s w).result ∧
        sentSetups (requests (reply network) (Pool.close pool key) s w) = []) ∧
    (¬ (balance ≠ 0 ∧ balance < lamportsPerSignature + minimum) →
      run (reply network) (Pool.close pool key) s w
          = run (reply network) (withdrawAll pool state key) (some state) ⟨w.store, n₂⟩ ∧
        sentSetups (requests (reply network) (Pool.close pool key) s w)
          = sentSetups (requests (reply network) (withdrawAll pool state key) (some state)
            ⟨w.store, n₂⟩)) := by
  have hload := run_awaited_loaded hfinds
  -- Neither reading the ledger nor asking for prices sends anything.
  have hread : run (reply network) (getBalance pool.payer : PoolM Int) (some state)
      ⟨w.store, network.tick net⟩ = ⟨.ok balance, some state, ⟨w.store, n₁⟩⟩ :=
    run_answered (w := ⟨w.store, network.tick net⟩) hbalance (some state)
  have hrent : run (reply network) (getRentExemption 0 : PoolM Int) (some state)
      ⟨w.store, n₁⟩ = ⟨.ok minimum, some state, ⟨w.store, n₂⟩⟩ :=
    run_answered (w := ⟨w.store, n₁⟩) hminimum (some state)
  have hsendless : Asks Req.SendsNothing (getRentExemption 0 : PoolM Int) :=
    asks_request (I := client) trivial
  rw [close_eq hkey, sentSetups_bind_ok sendless_loaded hload,
    sentSetups_bind_ok (sendless_getBalance _) hread, sentSetups_bind_ok hsendless hrent,
    run_bind_ok _ hload, run_bind_ok _ hread, run_bind_ok _ hrent]
  constructor
  · intro hlow
    rw [if_pos hlow]
    exact ⟨⟨_, rfl⟩, rfl⟩
  · intro hlow
    rw [if_neg hlow]
    exact ⟨rfl, rfl⟩

/-- What `close` asks of the network and the storage fails with errors of their own. -/
structure OwnErrors (network : Network ρ) : Prop where
  account : ∀ address net, ¬ Underfunded (network.rpc (.getNonceAccount address) net).1
  setup : ∀ instructions key net, ¬ Underfunded (network.rpc (.sendSetup instructions key) net).1
  storage : StorageErrors network

/-- However a process is run, it does not refuse for the balance. -/
def NeverUnderfunded {α : Type} (network : Network ρ) (p : PoolM α) : Prop :=
  ∀ s w, ¬ Underfunded (run (reply network) p s w).result

theorem never_pure {α : Type} (a : α) : NeverUnderfunded network (pure a) := by
  rintro s w ⟨detail, h⟩
  cases h

theorem never_bind {α β : Type} {p : PoolM α} {f : α → PoolM β}
    (hp : NeverUnderfunded network p) (hf : ∀ a, NeverUnderfunded network (f a)) :
    NeverUnderfunded network (p >>= f) := by
  intro s w
  rw [run_bind]
  rcases hresult : (run (reply network) p s w).result with e | a
  · rintro ⟨detail, h⟩
    have hthrown : e = vadumError .noncePoolUnderfunded detail := Except.error.inj h
    exact hp s w ⟨detail, by rw [hresult, hthrown]⟩
  · exact hf a _ _

theorem never_call {c : Call} (h : ∀ net, ¬ Underfunded (network.rpc c net).1) :
    NeverUnderfunded network (Vadum.rpc c : PoolM c.Answer) := by
  intro s w
  rw [Vadum.rpc, run_request (I := client)]
  exact h w.net

theorem OwnErrors.readValue (h : OwnErrors network) (slot : PoolSlot) :
    NeverUnderfunded network (Pool.readValue slot) := by
  refine never_bind (never_call (h.account slot.address)) fun account => ?_
  rcases account with _ | _ | _
  · exact never_pure _
  · exact never_pure _
  · exact never_pure _

theorem OwnErrors.withdrawals (h : OwnErrors network) (slots : List PoolSlot) :
    NeverUnderfunded network (Pool.withdrawals pool slots) := by
  induction slots with
  | nil => exact never_pure _
  | cons slot slots ih =>
      refine never_bind (h.readValue slot) fun read => never_bind ih fun rest => ?_
      dsimp only
      split
      · exact never_pure _
      · exact never_pure _

theorem OwnErrors.persist (h : OwnErrors network) (state : PoolState) :
    NeverUnderfunded network (Pool.persist pool state) := by
  rintro s w ⟨detail, hrun⟩
  rw [run_persist] at hrun
  rcases hstorage : network.storage w.net with ⟨_ | e, net⟩
  · rw [hstorage] at hrun
    cases hrun
  · rw [hstorage] at hrun
    exact h.storage _ e (congrArg Prod.fst hstorage) _ _ (Except.error.inj hrun)

theorem OwnErrors.withdrawAll (h : OwnErrors network) (state : PoolState)
    (key : CryptoKeyPair) : NeverUnderfunded network (withdrawAll pool state key) := by
  refine never_bind (h.withdrawals state.slots) fun found => ?_
  dsimp only
  split
  · exact never_bind (never_call (h.setup found.1 key)) fun _ =>
      never_bind (h.persist _) fun _ => never_pure _
  · exact never_bind (h.persist _) fun _ => never_pure _

/-- Where the wallet cannot pay for the fee of `close`, nothing is sent and it is
    refused for the balance. -/
def ClosePaid (network : Network ρ) (pool : PoolConfig) (key : CryptoKeyPair)
    (minimum balance : Int) (s : Option PoolState) (w : World ρ) : Prop :=
  (sentSetups (requests (reply network) (Pool.close pool key) s w) ≠ [] →
    lamportsPerSignature ≤ balance ∧ CanPay balance lamportsPerSignature minimum) ∧
  (¬ (lamportsPerSignature ≤ balance ∧ CanPay balance lamportsPerSignature minimum) →
    Underfunded (run (reply network) (Pool.close pool key) s w).result ∧
      sentSetups (requests (reply network) (Pool.close pool key) s w) = [])

/-- No setup is sent that the wallet cannot pay for, but by `close` from a wallet
    with nothing in it. -/
theorem setups_paid_iff (network : Network ρ) (herrors : OwnErrors network) (pool : PoolConfig)
    {key : CryptoKeyPair} (hkey : key.publicKey = pool.payer) {minimum : Int}
    (hminimum : 0 ≤ minimum) :
    (∀ size, 1 ≤ size → size ≤ 256 → ∀ rent balance s w,
      Quoted network pool rent minimum balance w.net →
      if CanPay balance (size * rent + lamportsPerSignature) minimum then
        ∃ instructions, moved instructions = size * rent ∧
          sentSetups (requests (reply network) (Pool.create pool size key) s w) = [instructions]
      else
        Underfunded (run (reply network) (Pool.create pool size key) s w).result ∧
          sentSetups (requests (reply network) (Pool.create pool size key) s w) = []) ∧
    ∀ balance s w state net, Finds network pool s w state net →
      Asked network pool minimum balance (network.tick net) →
      (ClosePaid network pool key minimum balance s w ↔ balance ≠ 0) := by
  refine ⟨fun size hpos hmost rent balance s w hquoted =>
    sentSetups_create ⟨hpos, hmost⟩ hkey hminimum s hquoted, ?_⟩
  intro balance s w state net hfinds hasked
  rcases hasked with ⟨n₁, n₂, hbalance, hminimum'⟩
  have hclose := run_close hkey hfinds hbalance hminimum'
  have hfee : 0 < lamportsPerSignature := by decide
  constructor
  · -- A balance of zero passes the check, though it cannot pay for the fee.
    rintro ⟨_, hpaid⟩ rfl
    have hrefused := (hpaid fun h => absurd h.1 (not_le.mpr hfee)).1
    rw [(hclose.2 fun h => h.1 rfl).1] at hrefused
    exact herrors.withdrawAll state key _ _ hrefused
  · intro hsome
    -- Any other balance is refused if it cannot pay, and can pay if it is not refused.
    by_cases hlow : balance < lamportsPerSignature + minimum
    · have hrefused := hclose.1 ⟨hsome, hlow⟩
      exact ⟨fun hsent => absurd hrefused.2 hsent, fun _ => hrefused⟩
    · have hpays : lamportsPerSignature ≤ balance ∧
          CanPay balance lamportsPerSignature minimum := by
        unfold CanPay
        omega
      exact ⟨fun _ => hpays, fun hnot => absurd hpays hnot⟩

theorem fakeNetwork_ownErrors : OwnErrors fakeNetwork where
  account _ _ := by rintro ⟨_, h⟩; cases h
  setup _ _ _ := by rintro ⟨_, h⟩; cases h
  storage := fakeNetwork_storageWorks.errors

/-- A pool of one slot. -/
def deposited : PoolState where
  payer := testAddress 1
  size := 1
  epoch := "epoch"
  slots := [⟨0, (testAccount 0 (testNonce 7)).1, some (testNonce 7), .unspent, none, none⟩]
  spendLog := some []

/-- Its account is on the chain, beside a wallet. -/
def walletWith (balance : Int) : World FakeRpc :=
  ⟨∅, { balance, nonceAccounts := [testAccount 0 (testNonce 7)] }⟩

/-- A wallet that `create` leaves with nothing, and one that can pay for `close`. -/
theorem setups_paid_iff_walletWith :
    (∃ instructions, moved instructions = 2 * 1056640 ∧
      sentSetups (requests (reply fakeNetwork) (Pool.create testPool 2 (testKey 1)) none
        (walletWith (2 * 1056640 + 5000))) = [instructions]) ∧
    ClosePaid fakeNetwork testPool (testKey 1) 890880 895880 (some deposited)
      (walletWith 895880) := by
  rcases setups_paid_iff fakeNetwork fakeNetwork_ownErrors testPool
    (show (testKey 1).publicKey = testPool.payer from rfl)
    (show (0 : Int) ≤ 890880 by decide) with ⟨hcreate, hclose⟩
  constructor
  · have hcan : CanPay (2 * 1056640 + 5000) (2 * 1056640 + lamportsPerSignature) 890880 := by
      decide
    have hsent := hcreate 2 (by decide) (by decide) 1056640 (2 * 1056640 + 5000) none
      (walletWith (2 * 1056640 + 5000)) ⟨_, _, _, rfl, rfl, rfl⟩
    rwa [if_pos hcan] at hsent
  · exact (hclose 895880 (some deposited) (walletWith 895880) deposited _ (.inl ⟨rfl, rfl⟩)
      ⟨_, _, rfl, rfl⟩).mpr (by decide)

/-- A wallet with nothing in it sends a setup that it cannot pay for. -/
theorem close_sends_unpaid :
    Finds fakeNetwork testPool (some deposited) (walletWith 0) deposited (walletWith 0).net ∧
      Asked fakeNetwork testPool 890880 0 (fakeNetwork.tick (walletWith 0).net) ∧
      (sentSetups (requests (reply fakeNetwork) (Pool.close testPool (testKey 1)) (some deposited)
        (walletWith 0))).length = 1 ∧
      ¬ ClosePaid fakeNetwork testPool (testKey 1) 890880 0 (some deposited) (walletWith 0) := by
  have hsent : (sentSetups (requests (reply fakeNetwork) (Pool.close testPool (testKey 1))
      (some deposited) (walletWith 0))).length = 1 := by decide +kernel
  refine ⟨.inl ⟨rfl, rfl⟩, ⟨_, _, rfl, rfl⟩, hsent, fun hpaid => ?_⟩
  have hbalance := hpaid.1 fun hnone => by
    rw [hnone] at hsent
    cases hsent
  exact absurd hbalance.1 (by decide)

end Closing

end Vadum
