import Vadum.Theory.Ledger
import Vadum.Theory.Loops

/-!
# What a Pool Asks For

The requests of the pool's operations, whatever they are answered: the ledger is
read and written under the payer's key, and the rest is the network's. A pool
asks for no signature. The setup transactions it sends are signed below the
interface it sends them through.

As for the queue, the statement is about any set of requests large enough. To
reserve a slot, to take one back and to say what is left of the limit the ledger
is enough.

## Main definitions

* `LedgerAllows`, `PoolAllows`: The requests the operations may make.

## Theorems

* `asks_op`: An operation asks for nothing else.
-/

namespace Vadum

open Async.Process

/-- The requests for the ledger, and waiting for them. -/
structure LedgerAllows (pool : PoolConfig) (R : Req → Prop) : Prop where
  tick : R .tick
  storeGet : R (.storeGet (.pool pool.payer))
  storeSet : ∀ state, R (.storeSet (.pool pool.payer) state)

/-- The requests the operations of a pool may make. -/
structure PoolAllows (pool : PoolConfig) (R : Req → Prop) : Prop extends LedgerAllows pool R where
  randomUUID : R .randomUUID
  rpc : ∀ c, R (.rpc c)

section Ledger

variable {pool : PoolConfig} {R : Req → Prop} (h : LedgerAllows pool R)

include h

theorem asks_persist (state : PoolState) : Asks R (Pool.persist pool state) :=
  asks_bind (asks_write _) fun _ => asks_bind (asks_request (I := client) (h.storeSet state))
    fun _ => asks_pure _

theorem asks_loadedLedger : Asks R (awaited (Pool.loaded pool)) :=
  asks_awaited h.tick (asks_loaded h.storeGet)

theorem asks_reserveSlot (merchant : Address) (now amount : Int) :
    Asks R (Pool.reserveSlot pool merchant now amount) := by
  refine asks_bind (asks_loadedLedger h) fun state => ?_
  dsimp only
  split
  · exact fun _ _ => trivial
  split
  · exact fun _ _ => trivial
  split
  · exact asks_bind (asks_persist h _) fun _ => asks_pure _
  · exact fun _ _ => trivial

theorem asks_allowance (now : Int) : Asks R (Pool.allowance pool now) :=
  asks_bind (asks_currentOrStored h.storeGet) fun _ => asks_pure _

theorem asks_returned (payload : NonceReturnPayload) :
    Asks R (Pool.applyNonceReturn pool payload) := by
  refine asks_bind (asks_loadedLedger h) fun state => ?_
  dsimp only
  split
  · exact asks_bind (asks_ofResult _) fun _ => asks_bind (asks_request (I := client) h.tick)
      fun _ => asks_persist h _
  · exact fun _ _ => trivial

end Ledger

section Asks

variable {pool : PoolConfig} {R : Req → Prop} (h : PoolAllows pool R)

include h

theorem asks_priorSpendLog : Asks R (awaited (Pool.priorSpendLog pool)) :=
  asks_awaited h.tick (asks_bind (asks_currentOrStored h.storeGet) fun _ => asks_pure _)

theorem asks_call (c : Call) : Asks R (rpc c : PoolM c.Answer) :=
  asks_request (I := client) (h.rpc c)

theorem asks_refreshed : Asks R (Pool.refresh pool) :=
  asks_bind (asks_loadedLedger h.toLedgerAllows) fun _ =>
    asks_bind (asks_stateless (stateless_refreshSlots (fun _ => h.rpc _) _)) fun _ =>
      asks_persist h.toLedgerAllows _

theorem asks_create (size : Int) (payerKey : CryptoKeyPair) :
    Asks R (Pool.create pool size payerKey) := by
  unfold Pool.create
  split
  · exact fun _ _ => trivial
  refine asks_bind (asks_stateless (stateless_assertPayerKey _)) fun _ =>
    asks_bind (asks_stateless (stateless_estimateSetupCost (h.rpc _) (h.rpc _) _)) fun cost =>
      asks_bind (asks_call h _) fun balance => ?_
  dsimp only
  split
  · exact fun _ _ => trivial
  refine asks_bind (asks_ofResult _) fun setup => asks_bind (asks_call h _) fun _ =>
    asks_bind (asks_request (I := client) h.randomUUID) fun epoch => ?_
  exact asks_bind (asks_priorSpendLog h) fun spendLog =>
    asks_bind (asks_persist h.toLedgerAllows _) fun _ => asks_refreshed h

theorem asks_recover (maxProbe : Nat) : Asks R (Pool.recover pool maxProbe) := by
  refine asks_bind (asks_stateless (stateless_probe (fun _ => h.rpc _) _)) fun slots => ?_
  split
  · exact fun _ _ => trivial
  exact asks_bind (asks_request (I := client) h.randomUUID) fun epoch =>
    asks_bind (asks_priorSpendLog h) fun spendLog => asks_persist h.toLedgerAllows _

theorem asks_close (payerKey : CryptoKeyPair) : Asks R (Pool.close pool payerKey) := by
  refine asks_bind (asks_loadedLedger h.toLedgerAllows) fun state =>
    asks_bind (asks_stateless (stateless_assertPayerKey _)) fun _ =>
      asks_bind (asks_call h _) fun balance => asks_bind (asks_call h _) fun minimum => ?_
  dsimp only
  split
  · exact fun _ _ => trivial
  refine asks_bind (asks_stateless (stateless_withdrawals (fun _ => h.rpc _) _)) fun x => ?_
  split
  · exact asks_bind (asks_call h _) fun _ =>
      asks_bind (asks_persist h.toLedgerAllows _) fun _ => asks_pure _
  · exact asks_bind (asks_persist h.toLedgerAllows _) fun _ => asks_pure _

/-- An operation of a pool asks for what such a set allows. -/
theorem asks_op (op : PoolOp) : Asks R (op.process pool) := by
  cases op with
  | create size payerKey => exact asks_map _ (asks_create h size payerKey)
  | reserveSlot merchant now amount =>
      exact asks_map _ (asks_reserveSlot h.toLedgerAllows merchant now amount)
  | allowance now => exact asks_map _ (asks_allowance h.toLedgerAllows now)
  | applyNonceReturn payload => exact asks_map _ (asks_returned h.toLedgerAllows payload)
  | refresh => exact asks_map _ (asks_refreshed h)
  | recover maxProbe => exact asks_map _ (asks_recover h maxProbe)
  | close payerKey => exact asks_map _ (asks_close h payerKey)
  | reconcile now =>
      exact asks_map _ (asks_bind (asks_loadedLedger h.toLedgerAllows) fun _ =>
        asks_bind (asks_stateless (stateless_reconcileSlots (fun _ => h.rpc _) _ _ _ _)) fun _ =>
          asks_bind (asks_persist h.toLedgerAllows _) fun _ => asks_pure _)
  | load => exact asks_map _ (asks_bind (asks_loadedLedger h.toLedgerAllows) fun _ => asks_pure _)

end Asks

end Vadum
