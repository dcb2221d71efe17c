import Vadum.Client.World

/-!
# Signed Recovery Statements

A merchant who has settled a payment signs a statement that frees the payer's
slot: domain tag, payer, slot, prior value, new value. The payer rebuilds the
statement from its own ledger and verifies the signature against that, so
only the index, the new value and the signature are taken from the payload.

## Main definitions

* `NonceReturnStatement`: What the merchant signs.
* `nonceReturnSigningBytes`: The 118 signed bytes.
* `signNonceReturn`: The merchant's signature over them.
* `verifyNonceReturn`: The payer's check of a received payload.

## Theorems

* `verifyNonceReturn_ok`: An accepted payload carries another value than the
  recorded one and a signature of the recorded merchant.
* `verifyNonceReturn_error`: Any other is untrusted.
-/

namespace Vadum

structure NonceReturnStatement where
  payer : Address
  nonceIndex : Nat
  spentAgainstValue : Nonce
  newNonceValue : Nonce
deriving DecidableEq

/-- The payload as received, checked for its layout and nothing else. -/
structure NonceReturnPayload where
  nonceIndex : Nat
  newNonceValue : Nonce
  signature : Signature
deriving DecidableEq

/-- The payer's own record of the payment the payload claims to settle. -/
structure NonceReturnLedger where
  payer : Address
  merchant : Address
  spentAgainstValue : Nonce
deriving DecidableEq

/-- The 21 bytes of the domain tag. -/
def nonceReturnDomain : List UInt8 :=
  "vadum:nonce-return:v1".toList.map fun c => UInt8.ofNat c.toNat

def nonceReturnSigningBytes (statement : NonceReturnStatement) :
    Except Thrown (List UInt8) := do
  let _ ← nonceSeed statement.nonceIndex
  if statement.spentAgainstValue.bytes.length ≠ 32 ∨
      statement.newNonceValue.bytes.length ≠ 32 then
    throw (vadumError .canonAccountMismatch [("reason", .text "a nonce value is not 32 bytes")])
  pure (nonceReturnDomain ++ statement.payer.bytes ++ [UInt8.ofNat statement.nonceIndex]
    ++ statement.spentAgainstValue.bytes ++ statement.newNonceValue.bytes)

/-- Merchant side, after settlement. -/
def signNonceReturn {σ : Type} (statement : NonceReturnStatement) (feePayerKey : CryptoKeyPair) :
    Client σ Signature := do
  let signingBytes ← Async.Process.ofResult (nonceReturnSigningBytes statement)
  sign feePayerKey signingBytes

def untrusted (reason : String) (nonceIndex : Nat) : Thrown :=
  vadumError .nonceReturnUntrusted [("reason", .text reason), ("nonceIndex", .number nonceIndex)]

/-- Payer side, offline. Any failure is `NONCE_RETURN_UNTRUSTED`. -/
def verifyNonceReturn (kit : Kit) (received : NonceReturnPayload) (ledger : NonceReturnLedger) :
    Except Thrown NonceReturnStatement := do
  -- A settled nonce always advances: an unchanged value is a replay.
  if received.newNonceValue = ledger.spentAgainstValue then
    throw (untrusted "the new value equals the value the slot was spent against"
      received.nonceIndex)
  if received.signature.length ≠ 64 then
    throw (untrusted "the signature is not 64 bytes" received.nonceIndex)
  let statement : NonceReturnStatement :=
    { payer := ledger.payer
      nonceIndex := received.nonceIndex
      spentAgainstValue := ledger.spentAgainstValue
      newNonceValue := received.newNonceValue }
  let checked : Except Thrown Bool := do
    kit.verifySignature ledger.merchant received.signature (← nonceReturnSigningBytes statement)
  match checked with
  | .error _ => throw (untrusted "the statement or the merchant key is malformed"
      received.nonceIndex)
  | .ok false => throw (untrusted
      "the signature does not cover this payer, slot and prior value under the recorded merchant"
      received.nonceIndex)
  | .ok true => pure statement

/-- An accepted payload carries another value than the recorded one, and its
    signature verifies under the recorded merchant's key over the statement
    rebuilt from the ledger. -/
theorem verifyNonceReturn_ok {kit : Kit} {received : NonceReturnPayload}
    {ledger : NonceReturnLedger} {statement : NonceReturnStatement}
    (h : verifyNonceReturn kit received ledger = .ok statement) :
    received.newNonceValue ≠ ledger.spentAgainstValue ∧ received.signature.length = 64 ∧
      statement = ⟨ledger.payer, received.nonceIndex, ledger.spentAgainstValue,
        received.newNonceValue⟩ ∧
      ∃ bytes, nonceReturnSigningBytes statement = .ok bytes ∧
        kit.verifySignature ledger.merchant received.signature bytes = .ok true := by
  simp only [verifyNonceReturn, bind, Except.bind, throw, throwThe, MonadExceptOf.throw,
    pure, Except.pure] at h
  by_cases hv : received.newNonceValue = ledger.spentAgainstValue
  · rw [if_pos hv] at h
    cases h
  · rw [if_neg hv] at h
    by_cases hl : received.signature.length ≠ 64
    · rw [if_pos hl] at h
      cases h
    · rw [if_neg hl] at h
      cases hb : nonceReturnSigningBytes ⟨ledger.payer, received.nonceIndex,
          ledger.spentAgainstValue, received.newNonceValue⟩ with
      | error e =>
          rw [hb] at h
          cases h
      | ok bytes =>
          rw [hb] at h
          cases hs : kit.verifySignature ledger.merchant received.signature bytes with
          | error e =>
              simp only [hs] at h
              cases h
          | ok valid =>
              simp only [hs] at h
              cases valid with
              | false => cases h
              | true =>
                  injection h with h
                  subst h
                  exact ⟨hv, not_not.mp hl, rfl, bytes, hb, hs⟩

/-- A payload that is not accepted is untrusted, whatever is wrong with it. -/
theorem verifyNonceReturn_error {kit : Kit} {received : NonceReturnPayload}
    {ledger : NonceReturnLedger} {e : Thrown}
    (h : verifyNonceReturn kit received ledger = .error e) :
    ∃ reason, e = untrusted reason received.nonceIndex := by
  simp only [verifyNonceReturn] at h
  by_cases hv : received.newNonceValue = ledger.spentAgainstValue
  · rw [if_pos hv] at h
    exact ⟨_, (Except.error.inj h).symm⟩
  · rw [if_neg hv] at h
    by_cases hl : received.signature.length ≠ 64
    · rw [if_pos hl] at h
      exact ⟨_, (Except.error.inj h).symm⟩
    · rw [if_neg hl] at h
      split at h
      · exact ⟨_, (Except.error.inj h).symm⟩
      · exact ⟨_, (Except.error.inj h).symm⟩
      · cases h

end Vadum
