import Vadum.Async.Alike
import Vadum.Client.Pool

/-!
# Loops over the Slots

The parts of the pool's operations that only read. Most keep no variables: they
read accounts one after another and return what they make of them. Their `Stateless` lemmas go
through each loop once, for any condition `R` the reads meet. What a theorem
wants of such a loop (that it stores nothing, sends nothing, leaves the ledger
alone) is then a fact about single requests.

## Main definitions

* `Req.Unstoring`: A request that writes nothing to the store.

## Theorems

* `stateless_refreshSlots`, `stateless_probe`, `stateless_withdrawals`,
  `stateless_reconcileSlots`: The loops of the operations.
* `stateless_assertPayerKey`, `stateless_estimateSetupCost`: Two steps before them.
* `asks_loaded`, `asks_currentOrStored`: Reading the ledger asks the store for it.
-/

namespace Vadum

open Async.Process

/-- A request that writes nothing to the store. -/
def Req.Unstoring (r : Req) : Prop := ∀ k v, r ≠ .storeSet k v

theorem unstoring_rpc (c : Call) : Req.Unstoring (.rpc c) := fun _ _ => Req.noConfusion

theorem unstoring_account (address : Address) : Req.Unstoring (.rpc (.getNonceAccount address)) :=
  unstoring_rpc _

variable {R : Req → Prop} {pool : PoolConfig}

theorem stateless_assertPayerKey (payerKey : CryptoKeyPair) :
    Stateless R (Pool.assertPayerKey pool payerKey) := by
  unfold Pool.assertPayerKey
  split
  · exact stateless_throw _
  · exact stateless_pure _

theorem stateless_estimateSetupCost (hrent : R (.rpc .getNonceRentExemption))
    (hminimum : R (.rpc (.getRentExemption 0))) (size : Int) :
    Stateless R (Pool.estimateSetupCost size) :=
  stateless_bind (stateless_rpc _ hrent) fun _ =>
    stateless_bind (stateless_rpc _ hminimum) fun _ => stateless_pure _

section Reading

variable (hR : ∀ address, R (.rpc (.getNonceAccount address)))
include hR

theorem stateless_readValue (slot : PoolSlot) : Stateless R (Pool.readValue slot) := by
  refine stateless_bind (stateless_rpc _ (hR slot.address)) fun account => ?_
  cases account with
  | absent => exact stateless_pure _
  | uninitialized => exact stateless_pure _
  | initialized authority value lamports => exact stateless_pure _

theorem stateless_refreshSlots (slots : List PoolSlot) :
    Stateless R (Pool.refreshSlots slots) := by
  induction slots with
  | nil => exact stateless_pure _
  | cons slot slots ih =>
      exact stateless_bind (stateless_readValue hR slot) fun _ => stateless_bind ih fun _ =>
        stateless_pure _

theorem stateless_probe (indices : List Nat) :
    Stateless R (Pool.probe pool indices) := by
  induction indices with
  | nil => exact stateless_pure _
  | cons index indices ih =>
      refine stateless_bind (stateless_ofResult _) fun address =>
        stateless_bind (stateless_rpc _ (hR address)) fun account =>
          stateless_bind ih fun slots => ?_
      cases account with
      | absent => exact stateless_pure _
      | uninitialized => exact stateless_pure _
      | initialized authority value lamports =>
          dsimp only
          split
          · exact stateless_pure _
          · exact stateless_pure _

theorem stateless_withdrawals (slots : List PoolSlot) :
    Stateless R (Pool.withdrawals pool slots) := by
  induction slots with
  | nil => exact stateless_pure _
  | cons slot slots ih =>
      refine stateless_bind (stateless_readValue hR slot) fun _ => stateless_bind ih fun _ => ?_
      dsimp only
      split
      · exact stateless_pure _
      · exact stateless_pure _

theorem stateless_reconcileSlots (now : Int) (state : PoolState) (r : Reconciliation)
    (slots : List PoolSlot) :
    Stateless R (Pool.reconcileSlots pool now state r slots) := by
  induction slots generalizing state r with
  | nil => exact stateless_pure _
  | cons slot slots ih =>
      unfold Pool.reconcileSlots
      split
      · -- One read for a spent slot with a record, and then the loop goes on in every case.
        refine stateless_bind (stateless_readValue hR _) fun x => ?_
        rcases x with ⟨_ | value, lamports⟩
        · exact ih _ _
        · dsimp only
          split
          · exact ih _ _
          split
          · exact ih _ _
          · exact ih _ _
      · exact ih _ _

end Reading

section Asking

/-- The ledger is in memory, or the store is asked for it. -/
theorem asks_loaded (hget : R (.storeGet (.pool pool.payer))) : Asks R (Pool.loaded pool) := by
  refine asks_bind asks_read fun seen => ?_
  cases seen with
  | some state => exact asks_pure _
  | none =>
      refine asks_bind (asks_request (I := client) hget) fun stored =>
        asks_bind (asks_write _) fun _ => ?_
      cases stored with
      | some state => exact asks_pure _
      | none => exact asks_ofResult (.error _)

theorem asks_currentOrStored (hget : R (.storeGet (.pool pool.payer))) :
    Asks R (Pool.currentOrStored pool) := by
  refine asks_bind asks_read fun seen => ?_
  cases seen with
  | some state => exact asks_pure _
  | none => exact asks_request (I := client) hget

theorem asks_awaited {α : Type} {p : PoolM α} (htick : R .tick) (hp : Asks R p) :
    Asks R (awaited p) :=
  asks_bind hp fun _ => asks_bind (asks_request (I := client) htick) fun _ => asks_pure _

end Asking

end Vadum
