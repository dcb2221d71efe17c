import Vadum.Client.World
import Vadum.Core.Validate

/-!
# Signing and Verifying

The payer signs the canonical message of an intent, offline. The merchant
builds the message again from the intent it made and the authorisation it was
shown, and verifies the payer's signature against that. At submission the
merchant's own key adds the second signature, and the two are sent together.

The platform makes the signatures, so it is asked for one, and asking twice need
not give the same one twice: Safari's Ed25519 is not deterministic.

## Main definitions

* `signAsPayer`: The payer's authorisation of an intent.
* `resolveAmount`, `verifyAuth`: The merchant's check of it.
* `signedBy`: A message with the payer's and the fee payer's signatures.
* `buildWireTransaction`: The wire transaction of a payment.
-/

namespace Vadum

variable {σ : Type}

/-- Payer side. Refuses an intent that names the payer as fee payer. -/
def signAsPayer (kit : Kit) (input : CanonicalInput) (key : CryptoKeyPair) : Client σ Auth := do
  if input.intent.feePayer = input.payer then
    throw (vadumError .wireFeePayerIsPayer [("payer", .address input.payer)])
  if input.intent.isStatic ≠ input.intent.amount.isNone then
    throw (vadumError .canonAmountMismatch
      [("reason", .text "a static intent carries no amount and a dynamic one always does")])
  let signer := key.publicKey
  if signer ≠ input.payer then
    throw (vadumError .canonAccountMismatch
      [("reason", .text "the key is not the payer"), ("payer", .address input.payer),
        ("key", .address signer)])
  let messageBytes ← Async.Process.ofResult (buildMessage kit input)
  Async.Process.ofResult (assertCanonical kit messageBytes input)
  let signature ← sign key messageBytes
  pure { payer := input.payer, nonceRef := input.nonceRef
         amount := if input.intent.isStatic then some input.amount else none, signature }

/-- The amount of a payment: the intent's own, or in static mode the payer's,
    which must be the one the merchant expects. -/
def resolveAmount (intent : Intent) (auth : Auth) (expectedAmount : Option Int) :
    Except Thrown Int := do
  if intent.isStatic then
    match expectedAmount, auth.amount with
    | some expected, some amount =>
      if amount ≠ expected then
        throw (vadumError .canonAmountMismatch
          [("expected", .number expected), ("actual", .number amount)])
      pure amount
    | _, _ => throw (vadumError .canonAmountMismatch
        [("expected", .ofOption expectedAmount), ("actual", .ofOption auth.amount)])
  else
    let some own := intent.amount
      | throw (vadumError .canonAmountMismatch
          [("reason", .text "a dynamic intent carries its amount"),
            ("expected", .ofOption expectedAmount), ("actual", .null)])
    -- A second amount is refused, never ignored.
    if auth.amount ≠ none then
      throw (vadumError .canonAmountMismatch
        [("reason", .text "a dynamic payment carries no amount in its AUTH"),
          ("expected", .number own), ("actual", .ofOption auth.amount)])
    if expectedAmount ≠ none ∧ expectedAmount ≠ some own then
      throw (vadumError .canonAmountMismatch
        [("expected", .ofOption expectedAmount), ("actual", .number own)])
    pure own

/-- Merchant side, offline: the message is built again and the signature is
    verified against that. -/
def verifyAuth (kit : Kit) (intent : Intent) (auth : Auth) (expectedAmount : Option Int) :
    Except Thrown VerifiedPayment := do
  if auth.signature.length ≠ 64 then
    throw (vadumError .sigLength [("length", .number auth.signature.length)])
  if intent.feePayer = auth.payer then
    throw (vadumError .wireFeePayerIsPayer [("payer", .address auth.payer)])
  let amount ← resolveAmount intent auth expectedAmount
  let input : CanonicalInput := { intent, payer := auth.payer, nonceRef := auth.nonceRef, amount }
  let messageBytes ← buildMessage kit input
  -- A payer address that is no public key cannot have signed anything.
  let valid : Bool := match kit.verifySignature auth.payer auth.signature messageBytes with
    | .ok valid => valid
    | .error _ => false
  if ¬ valid then throw (vadumError .sigInvalid [])
  pure { input, messageBytes, auth }

/-- The wire transaction of a payment, its signatures in the order of the
    message's signers. A signer who is neither the fee payer nor the payer has
    none. -/
def signedBy (payment : VerifiedPayment) (feePayer : Address) (signature : Signature)
    (signers : List Address) : WireTransaction where
  messageBytes := payment.messageBytes
  signatures := signers.map fun address =>
    (address, if address = feePayer then signature else payment.auth.signature)

/-- Merchant side, at submission. -/
def buildWireTransaction (kit : Kit) (payment : VerifiedPayment) (feePayerKey : CryptoKeyPair) :
    Client σ WireTransaction := do
  let feePayer := feePayerKey.publicKey
  if feePayer ≠ payment.input.intent.feePayer then
    throw (vadumError .sigFeePayerMissing
      [("reason", .text "the key is not the fee payer"),
        ("feePayer", .address payment.input.intent.feePayer), ("key", .address feePayer)])
  if payment.auth.signature.length ≠ 64 then
    throw (vadumError .sigLength [("length", .number payment.auth.signature.length)])
  let signers ← Async.Process.ofResult (kit.requiredSigners payment.messageBytes)
  -- The library refuses to sign for a key that is no signer of the message.
  if feePayer ∉ signers then
    throw kit.unexpectedSigner
  let signature ← sign feePayerKey payment.messageBytes
  if ∃ address ∈ signers, address ≠ feePayer ∧ address ≠ payment.auth.payer then
    throw (vadumError .sigFeePayerMissing
      [("reason", .text "a required signature is still missing")])
  pure (signedBy payment feePayer signature signers)

end Vadum
