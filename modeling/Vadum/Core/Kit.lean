import Vadum.Core.Types

/-!
# Derived Addresses and the Signing Kit

The Solana library and the platform's cryptography are outside the repository.
What the source takes from them is a parameter, the `Kit`: program addresses,
address derivation, message compilation, and Ed25519 verification. Statements
hold for every `Kit`, unless they name what they need of it.

Two addresses are derived rather than sent, the nonce account of a payer's
slot and the token account of an owner. A slot index is one byte of its seed,
and `nonceSeed` is the one place that refuses a larger one.

## Main definitions

* `Kit`: What the source takes from the library and the platform.
* `nonceSeed`, `deriveNonceAddress`, `deriveAta`: Derived addresses.
* `TransactionMessage`, `Instruction`: A message before it is compiled.
* `CompiledTransactionMessage`: A message as it is decoded again.

## Theorems

* `ok_of_bind_ok`: A sequence ends well if its parts do.
* `deriveNonceAddress_ok`: A derived address belongs to an index of one byte.
-/

namespace Vadum

/-- The instructions a canonical message is made of. -/
inductive Instruction where
  /-- Create the token account `ata` of `owner` unless it exists. -/
  | createAssociatedTokenIdempotent (payer ata owner mint tokenProgram : Address)
  /-- Move `amount` between token accounts, signed by `authority`. -/
  | transferChecked (programAddress source mint destination authority : Address)
      (amount decimals : Int)
deriving DecidableEq

/-- The lifetime set on a message before it is compiled. A durable nonce makes
    the library put the instruction that advances it first. -/
inductive MessageLifetime where
  | durableNonce (nonce : Nonce) (nonceAccountAddress nonceAuthorityAddress : Address)
  | blockhash (blockhash : Blockhash) (lastValidBlockHeight : Int)
deriving DecidableEq

structure TransactionMessage where
  feePayer : Address
  instructions : List Instruction
  lifetime : MessageLifetime
deriving DecidableEq

/-- The version of a compiled message. -/
inductive MessageVersion where
  | legacy
  | number (n : Nat)
deriving DecidableEq

structure CompiledInstruction where
  programAddressIndex : Nat
  accountIndices : List Nat
  data : List UInt8
deriving DecidableEq

/-- A compiled message, decoded. -/
structure CompiledTransactionMessage where
  version : MessageVersion
  staticAccounts : List Address
  /-- How many address lookup tables it refers to. -/
  addressTableLookups : Nat
  /-- Absent in a layout without a list of instructions. -/
  instructions : Option (List CompiledInstruction)
deriving DecidableEq

/-- The library and the platform. -/
structure Kit where
  systemProgramAddress : Address
  tokenProgramAddress : Address
  token2022ProgramAddress : Address
  associatedTokenProgramAddress : Address
  /-- The address derived from a base, an owning program and a seed. -/
  createAddressWithSeed : Address → Address → String → Address
  /-- The token account of an owner, a mint and a token program. -/
  findAssociatedTokenPda : Address → Address → Address → Address
  compileTransaction : TransactionMessage → Except Thrown (List UInt8)
  /-- A compiled message, or nothing where the library's decoder throws. -/
  decodeMessage : List UInt8 → Option CompiledTransactionMessage
  /-- The accounts of a compiled message that must sign it, in order. -/
  requiredSigners : List UInt8 → Except Thrown (List Address)
  /-- Thrown when a key is asked to sign a message it is no signer of. -/
  unexpectedSigner : Thrown
  /-- Ed25519; throws when the address is no public key. -/
  verifySignature : Address → Signature → List UInt8 → Except Thrown Bool
  sha256 : List UInt8 → List UInt8
  /-- An error's detail as text. -/
  showDetail : List (String × DetailValue) → String

variable (kit : Kit)

def nonceSeed (index : Nat) : Except Thrown String :=
  if index > 255 then
    .error (vadumError .nonceIndexOutOfRange [("index", .number index)])
  else
    .ok ("vadum-" ++ toString index)

def deriveNonceAddress (payer : Address) (index : Nat) : Except Thrown Address := do
  let seed ← nonceSeed index
  pure (kit.createAddressWithSeed payer kit.systemProgramAddress seed)

def programAddressOf : TokenProgram → Address
  | .splToken => kit.tokenProgramAddress
  | .token2022 => kit.token2022ProgramAddress

def deriveAta (owner mint : Address) (tokenProgram : TokenProgram) : Address :=
  kit.findAssociatedTokenPda owner mint (programAddressOf kit tokenProgram)

/-- A sequence ends well if its parts do. -/
theorem ok_of_bind_ok {ε α β : Type} {x : Except ε α} {f : α → Except ε β} {b : β}
    (h : x >>= f = .ok b) : ∃ a, x = .ok a ∧ f a = .ok b := by
  rcases x with e | a
  · cases h
  · exact ⟨a, rfl, h⟩

/-- A derived address belongs to an index of one byte, and is the library's
    for that index's seed. -/
theorem deriveNonceAddress_ok {payer : Address} {index : Nat} {address : Address}
    (h : deriveNonceAddress kit payer index = .ok address) :
    index ≤ 255 ∧
      address = kit.createAddressWithSeed payer kit.systemProgramAddress
        ("vadum-" ++ toString index) := by
  unfold deriveNonceAddress nonceSeed at h
  by_cases hi : index > 255
  · rw [if_pos hi] at h
    exact absurd h (by simp only [bind, Except.bind, reduceCtorEq, not_false_eq_true])
  · rw [if_neg hi] at h
    simp only [bind, Except.bind, pure, Except.pure, Except.ok.injEq] at h
    exact ⟨by omega, h.symm⟩

theorem deriveNonceAddress_of_le (payer : Address) {index : Nat} (h : index ≤ 255) :
    deriveNonceAddress kit payer index
      = .ok (kit.createAddressWithSeed payer kit.systemProgramAddress
        ("vadum-" ++ toString index)) := by
  unfold deriveNonceAddress nonceSeed
  rw [if_neg (by omega)]
  rfl

end Vadum
