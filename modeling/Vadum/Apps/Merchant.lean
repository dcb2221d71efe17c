import Vadum.Client.Queue

/-!
# The Merchant App

What the merchant's screens do with a payment that has been verified. In tier
T0 nothing is handed over before the chain says so: the payment is queued, the
queue is drained, and the screen declares the outcome. In the other tiers the
goods go first. The screens themselves are left out.

## Main definitions

* `Sale`: The screen a sale ends in.
* `accept`: A verified payment, to that screen.
-/

namespace Vadum.MerchantApp

/-- The screen a sale ends in. -/
inductive Sale where
  /-- The settlement of a T0 sale, as its outcome has it. Without an outcome
      there is nothing to declare. -/
  | settlement (outcome : Option SubmitOutcome)
  /-- Goods handed over against a queued payment. -/
  | handedOver (queued : QueuedPayment)
deriving DecidableEq

def accept (queue : QueueConfig) (feePayerKey : CryptoKeyPair) (tier : PaymentTier)
    (payment : VerifiedPayment) (amount : Int) : QueueM Sale := do
  if tier = .t0 then
    let _ ← Queue.accept queue payment .t0 amount none
    let outcomes ← Queue.drain queue feePayerKey
    pure (.settlement outcomes.getLast?)
  else
    let verdict ←
      if tier = .t1 then some <$> precheckNonce queue.kit payment else pure none
    let queued ← Queue.accept queue payment tier amount verdict
    pure (.handedOver queued)

end Vadum.MerchantApp
