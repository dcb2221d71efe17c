import Vadum.Client.World

/-!
# The Online Nonce Check

One look at the nonce account a payment names. Offline verification proves
that the payer signed the message; this proves that there is an account behind
it, and tells a value that has moved on from an account that never was there.

## Main definitions

* `NonceVerdict`: What the account says of a payment.
* `precheckNonce`: The check.
-/

namespace Vadum

inductive NonceVerdict where
  | ok (onChainValue : Nonce)
  /-- Valid but moved on: a race, which costs the merchant nothing. -/
  | stale (onChainValue : Nonce)
  /-- Missing, uninitialized, or not the payer's: near-certain fraud. -/
  | absent
  | uninitialized
  | wrongAuthority
deriving DecidableEq

def NonceVerdict.passes : NonceVerdict → Bool
  | .ok _ => true
  | _ => false

/-- The reason a verdict is not ok, as it is written. -/
def NonceVerdict.reason : NonceVerdict → Option String
  | .ok _ => none
  | .stale _ => some "stale"
  | .absent => some "absent"
  | .uninitialized => some "uninitialized"
  | .wrongAuthority => some "wrong-authority"

/-- The account exists, it is initialized, its authority is the payer, and it
    holds the value the payment claims, checked in this order. -/
def verdictOf (payer : Address) (claimed : Nonce) : NonceAccountState → NonceVerdict
  | .absent => .absent
  | .uninitialized => .uninitialized
  | .initialized authority value _ =>
    if authority ≠ payer then .wrongAuthority
    else if value = claimed then .ok value
    else .stale value

def precheckNonce {σ : Type} (kit : Kit) (payment : VerifiedPayment) : Client σ NonceVerdict := do
  match payment.input.intent.lifetime, payment.input.nonceRef with
  | .nonce, some ref =>
    let address ← Async.Process.ofResult (deriveNonceAddress kit payment.input.payer ref.index)
    let account ← getNonceAccount address
    pure (verdictOf payment.input.payer ref.value account)
  | _, _ => throw (vadumError .internalNotApplicable
      [("reason", .text "a fresh-blockhash payment has no nonce account")])

end Vadum
