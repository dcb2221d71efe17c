import Mathlib.Algebra.Ring.Int.Defs
import Vadum.Core.Kit

/-!
# The Canonical Message

The one builder both sides call. The payer signs the bytes it makes, and the
merchant makes them again from what it knows and verifies the signature against
those. The order of the instructions is fixed: the library puts the one that
advances the nonce first, then the token account is created if the intent says
so, then the transfer.

## Main definitions

* `applyLifetime`: The lifetime of a message, durable nonce or blockhash.
* `canonicalInstructions`: The instructions of a payment.
* `buildMessage`: The bytes of the message.

## Theorems

* `buildMessage_ok`: A message that is built is compiled from its parts.
* `applyLifetime_nonce`: The lifetime of a message on the nonce path.
-/

namespace Vadum

def u64Max : Int := 2 ^ 64 - 1

/-- A lifetime's kind as it is written. -/
def Lifetime.kindText : Lifetime → String
  | .nonce => "nonce"
  | .fresh _ _ => "fresh"

variable (kit : Kit)

/-- The lifetime the provider of this payment's kind sets. -/
def applyLifetime (input : CanonicalInput) : Except Thrown MessageLifetime :=
  match input.intent.lifetime, input.nonceRef with
  | .nonce, some ref => do
    let nonceAccountAddress ← deriveNonceAddress kit input.payer ref.index
    pure (.durableNonce ref.value nonceAccountAddress input.payer)
  | .nonce, none => throw (vadumError .internalNotApplicable
      [("provider", .text "durable-nonce"), ("lifetime", .text input.intent.lifetime.kindText)])
  | .fresh blockhash lastValidBlockHeight, none => pure (.blockhash blockhash lastValidBlockHeight)
  | .fresh _ _, some _ => throw (vadumError .internalNotApplicable
      [("provider", .text "fresh-blockhash"), ("lifetime", .text input.intent.lifetime.kindText)])

def canonicalInstructions (input : CanonicalInput) : List Instruction :=
  let intent := input.intent
  let source := deriveAta kit input.payer intent.mint intent.tokenProgram
  let destination := deriveAta kit intent.merchant intent.mint intent.tokenProgram
  let tokenProgram := programAddressOf kit intent.tokenProgram
  let create := if intent.includeCreateAta then
      [.createAssociatedTokenIdempotent intent.feePayer destination intent.merchant intent.mint
        tokenProgram]
    else []
  create ++ [.transferChecked tokenProgram source intent.mint destination input.payer input.amount
    intent.decimals]

def buildMessage (input : CanonicalInput) : Except Thrown (List UInt8) := do
  let intent := input.intent
  if input.amount < 0 ∨ input.amount > u64Max then
    throw (vadumError .canonAmountMismatch
      [("reason", .text "amount outside u64"), ("actual", .number input.amount)])
  if let some expected := intent.amount then
    if expected ≠ input.amount then
      throw (vadumError .canonAmountMismatch
        [("reason", .text "resolved amount differs from the intent"),
          ("expected", .number expected), ("actual", .number input.amount)])
  if intent.decimals < 0 ∨ intent.decimals > 255 then
    throw (vadumError .mintDecimalsMismatch
      [("reason", .text "decimals outside u8"), ("decimals", .number intent.decimals)])
  let lifetime ← applyLifetime kit input
  kit.compileTransaction
    { feePayer := intent.feePayer, instructions := canonicalInstructions kit input, lifetime }

/-- A message that is built is compiled from its parts. -/
theorem buildMessage_ok {input : CanonicalInput} {bytes : List UInt8}
    (h : buildMessage kit input = .ok bytes) : ∃ lifetime, applyLifetime kit input = .ok lifetime ∧
      kit.compileTransaction
        { feePayer := input.intent.feePayer, instructions := canonicalInstructions kit input,
          lifetime } = .ok bytes := by
  unfold buildMessage at h
  simp only at h
  split at h
  · cases h
  split at h
  · split at h
    · cases h
    · split at h
      · cases h
      · exact ok_of_bind_ok h
  · split at h
    · cases h
    · exact ok_of_bind_ok h

/-- On the nonce path a message takes its lifetime from the slot it names. -/
theorem applyLifetime_nonce {input : CanonicalInput} {lifetime : MessageLifetime}
    (hkind : input.intent.lifetime = .nonce) (h : applyLifetime kit input = .ok lifetime) :
    ∃ value account, lifetime = .durableNonce value account input.payer := by
  unfold applyLifetime at h
  rcases href : input.nonceRef with _ | ref
  · rw [hkind, href] at h
    cases h
  · rw [hkind, href] at h
    rcases ok_of_bind_ok h with ⟨account, _, hlifetime⟩
    exact ⟨ref.value, account, (Except.ok.inj hlifetime).symm⟩

end Vadum
