import Vadum.Core.Kit

/-!
# The Network Seam

Everything the client asks of the network goes through one interface. Each of
its methods is a `Call` with its own type of `Answer`; an answer may always be
an exception instead.

A wire transaction is kept decoded, its signatures listed in the order of the
message's signers. The first of them is the fee payer's, and it is what the
chain knows the transaction by.

## Main definitions

* `NonceAccountState`, `SignatureOutcome`: What the chain says of an account
  and of a transaction.
* `WireTransaction`, `PaymentLifetime`: What a payment is sent with.
* `SetupInstruction`: The instructions that create and empty slots.
* `Call`, `Call.Answer`: The interface.
-/

namespace Vadum

inductive NonceAccountState where
  | absent
  | uninitialized
  | initialized (authority : Address) (value : Nonce) (lamports : Int)
deriving DecidableEq

/-- Whether the cluster processed a signature, and how it ended. -/
inductive SignatureOutcome where
  | landedOk
  | landedFailed
  | absent
deriving DecidableEq

/-- The lifetime a confirmer needs and wire bytes do not carry. -/
inductive PaymentLifetime where
  | nonce (nonce : Nonce) (nonceAccountAddress nonceAuthorityAddress : Address)
  | fresh (blockhash : Blockhash) (lastValidBlockHeight : Int)
deriving DecidableEq

structure WireTransaction where
  messageBytes : List UInt8
  /-- In the order of the message's signers. -/
  signatures : List (Address × Signature)
deriving DecidableEq

/-- The name the chain knows a transaction by: its first signature. -/
def WireTransaction.signature (wire : WireTransaction) : Signature :=
  (wire.signatures.head?.map Prod.snd).getD []

/-- The size of a nonce account. -/
def nonceSize : Nat := 80

inductive SetupInstruction where
  | createAccountWithSeed (payer newAccount base : Address) (seed : String) (amount : Int)
      (space : Nat) (programAddress : Address)
  | initializeNonceAccount (nonceAccount nonceAuthority : Address)
  | withdrawNonceAccount (nonceAccount recipientAccount nonceAuthority : Address)
      (withdrawAmount : Int)
deriving DecidableEq

structure RawMintFetch where
  raw : RawMintData
  fetchedAt : Int

inductive Call where
  | getNonceRentExemption
  | getRentExemption (dataLength : Nat)
  | getMintAccount (mint : Address)
  | getNonceAccount (address : Address)
  | getBalance (address : Address)
  | getSignatureOutcome (signature : Signature)
  | sendSetup (instructions : List SetupInstruction) (feePayerKey : CryptoKeyPair)
  | sendPayment (wireTransaction : WireTransaction) (lifetime : PaymentLifetime)

@[reducible] def Call.Answer : Call → Type
  | .getNonceRentExemption => Int
  | .getRentExemption _ => Int
  | .getMintAccount _ => RawMintFetch
  | .getNonceAccount _ => NonceAccountState
  | .getBalance _ => Int
  | .getSignatureOutcome _ => SignatureOutcome
  | .sendSetup _ _ => Signature
  | .sendPayment _ _ => Signature

end Vadum
