import Vadum.Client.World

/-!
# The Standalone Gate

Only an app installed on the home screen keeps its storage, so only there is
offline signing allowed, and only while the ledger is known to be the one the
device made. The marker of the ledger's epoch is kept apart from the ledger, so
that losing one of the two shows.

## Main definitions

* `LedgerState`, `assessLedger`: What marker and ledger say together.
* `SigningBlock`, `signingBlock`: Why offline signing is refused.
-/

namespace Vadum

inductive LedgerState where
  /-- No pool was ever created on this device. -/
  | empty
  /-- Marker and ledger agree. -/
  | ready
  /-- A pool is known to exist, but one of the two is gone. -/
  | recovery
deriving DecidableEq

def assessLedger (epoch : Option String) (hasPoolState : Bool) : LedgerState :=
  match epoch with
  | none => if hasPoolState then .recovery else .empty
  | some _ => if hasPoolState then .ready else .recovery

inductive SigningBlock where
  | notInstalled
  | ledgerMissing
deriving DecidableEq

/-- Why offline signing is refused, if it is. -/
def signingBlock (standalone : Bool) (ledger : LedgerState) : Option SigningBlock :=
  if ¬ standalone then some .notInstalled
  else if ledger = .ready then none else some .ledgerMissing

/-- Whether the store holds the ledger of this payer. -/
def hasPoolState {σ : Type} (payer : Address) : Client σ Bool := do
  let state ← storeGet (.pool payer)
  pure state.isSome

/-- The gate is open for an installed app that has both. -/
theorem signingBlock_eq_none {standalone : Bool} {epoch : Option String} {stored : Bool} :
    signingBlock standalone (assessLedger epoch stored) = none ↔
      standalone = true ∧ epoch.isSome = true ∧ stored = true := by
  cases standalone <;> cases epoch <;> cases stored <;>
    simp [signingBlock, assessLedger]

end Vadum
