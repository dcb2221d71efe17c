import Mathlib.Data.List.Basic

/-!
# Shared Vocabulary

The data types of the core package: keys, intents, authorisations, mint
records, and the error taxonomy every other module throws from.

A base58 text stands for the bytes it encodes, and base58 is a bijection
between the two, so keys are modelled by their bytes. An `Address` always has
32 of them; a `Nonce` or a `Blockhash` is an unchecked text in the source, so
its length is free here and is checked where the source checks it.

Money is in base units and time in milliseconds. Both are integers of any size
and sign, as a `bigint` is; where the source bounds one, the check is a check
here too.

## Main definitions

* `Address`, `Nonce`, `Blockhash`: Keys, by their bytes.
* `Intent`, `Auth`, `CanonicalInput`, `VerifiedPayment`: A payment, from the
  merchant's request to the verified answer.
* `Json`, `RawMintData`, `MintRecord`: A mint as fetched and as judged.
* `PaymentId`: The dedupe key of a payment.
* `JsString`: A text, by its UTF-16 units.
* `VadumErrorCode`, `VadumError`: The error taxonomy.
* `Thrown`: What a `catch` can see.
-/

namespace Vadum

/-- A 32-byte public key. -/
structure Address where
  bytes : List UInt8
  length_eq : bytes.length = 32
deriving DecidableEq

/-- The value stored in a nonce account; 32 bytes when well formed. -/
structure Nonce where
  bytes : List UInt8
deriving DecidableEq

/-- A recent blockhash; 32 bytes when well formed. -/
structure Blockhash where
  bytes : List UInt8
deriving DecidableEq

/-- An Ed25519 signature; 64 bytes when well formed. -/
abbrev Signature : Type := List UInt8

/-- A key pair. Nothing reads the private half, so the public one names it. -/
structure CryptoKeyPair where
  publicKey : Address
deriving DecidableEq

inductive TokenProgram where
  | splToken
  | token2022
deriving DecidableEq

inductive Lifetime where
  | nonce
  /-- The block height is never serialised; the payer passes 0. -/
  | fresh (blockhash : Blockhash) (lastValidBlockHeight : Int)
deriving DecidableEq

structure NonceRef where
  index : Nat
  value : Nonce
deriving DecidableEq

structure Intent where
  merchant : Address
  mint : Address
  decimals : Int
  /-- Absent in static mode, where the payer supplies it. -/
  amount : Option Int
  lifetime : Lifetime
  includeCreateAta : Bool
  tokenProgram : TokenProgram
  /-- Fee payer and funder of the token account. -/
  feePayer : Address
  isStatic : Bool
deriving DecidableEq

structure Auth where
  payer : Address
  /-- Absent on the fresh path. -/
  nonceRef : Option NonceRef
  /-- Present in static mode only. -/
  amount : Option Int
  signature : Signature
deriving DecidableEq

/-- Everything needed to compile the canonical message. -/
structure CanonicalInput where
  intent : Intent
  payer : Address
  nonceRef : Option NonceRef
  amount : Int
deriving DecidableEq

/-- `t0` waits for confirmation, `t1` hands over after the online pre-check,
    `t2` is offline and queued. -/
inductive PaymentTier where
  | t0
  | t1
  | t2
deriving DecidableEq

structure VerifiedPayment where
  input : CanonicalInput
  messageBytes : List UInt8
  auth : Auth
deriving DecidableEq

inductive MintBlocker where
  | transferHookActive
  | transferFeeNonzero
  | defaultAccountStateFrozen
  | nonTransferable
  | paused
deriving DecidableEq

inductive MintWarning where
  | permanentDelegate
  | pausable
  | confidentialTransfer
  | freezeAuthority
  | mintCloseAuthority
  | unknownExtension
deriving DecidableEq

structure MintRecord where
  mint : Address
  tokenProgram : TokenProgram
  decimals : Int
  compatible : Bool
  blockers : List MintBlocker
  warnings : List MintWarning
  /-- Whether a transfer-relevant authority can change the verdict. -/
  mutableMint : Bool
  /-- The time of the check, supplied by the caller. -/
  checkedAt : Int
deriving DecidableEq

/-- A value of the parsed account data. -/
inductive Json where
  | null
  | bool (b : Bool)
  | number (n : Rat)
  | string (s : String)
  | array (items : List Json)
  | object (fields : List (String × Json))

structure RawMintExtension where
  extension : String
  /-- The fields of the extension's state. -/
  state : List (String × Json)

/-- The parsed projection of a mint account. -/
structure RawMintData where
  mint : Address
  tokenProgram : TokenProgram
  decimals : Rat
  freezeAuthority : Option Address
  extensions : List RawMintExtension

inductive VadumErrorCode where
  | wireVersionUnsupported
  | wireReservedFlagSet
  | wireLengthMismatch
  | wireUnknownType
  | wireUnexpectedType
  | wireFlagsMismatch
  | wireStaticConstraint
  | wireBase45Invalid
  | wireFlagNotAllowedForType
  | wireFeePayerSeparateUnsupported
  | wireFeePayerIsPayer
  | wireDuplicateAuth
  | mintUnknown
  | mintIncompatible
  | mintDecimalsMismatch
  | mintTokenProgramMismatch
  | mintRecordStale
  | canonInstructionNotAllowed
  | canonAccountMismatch
  | canonAmountMismatch
  | canonDestinationMismatch
  | canonInstructionOrder
  | sigInvalid
  | sigLength
  | sigFeePayerMissing
  | nonceIndexOutOfRange
  | nonceAlreadySpent
  | nonceLedgerMissing
  | noncePoolExhausted
  | noncePoolUnderfunded
  | nonceDesync
  | nonceReturnUntrusted
  | nonceAccountClosed
  | limitReceiptCap
  | limitQueueExposure
  | limitFailedSends
  | limitSendWindowExpired
  | limitPrecheckRequired
  | limitPayerAllowance
  | submitNonceStale
  | submitNonceAbsent
  | submitExecutionFailed
  | submitAlreadyProcessed
  | submitBlockhashExpired
  | submitRpcUnavailable
  | internalNotImplemented
  | internalNotApplicable
deriving DecidableEq

/-- The dedupe key of a payment: payer, slot and value on the nonce path, payer
    and message hash on the fresh one. The source joins the parts with colons,
    which none of them contains. -/
inductive PaymentId where
  | nonce (payer : Address) (index : Nat) (value : Nonce)
  | fresh (payer : Address) (digest : List UInt8)
deriving DecidableEq

/-- A JavaScript string: UTF-16 units, well formed or not. -/
abbrev JsString : Type := List UInt16

/-- The units of a character: one, or a surrogate pair. -/
def utf16Units (c : Char) : JsString :=
  if c.toNat < 0x10000 then
    [UInt16.ofNat c.toNat]
  else
    [UInt16.ofNat (0xd800 + (c.toNat - 0x10000) / 0x400),
      UInt16.ofNat (0xdc00 + (c.toNat - 0x10000) % 0x400)]

def jsString (text : String) : JsString := text.toList.flatMap utf16Units

/-- A value in the detail of an error. -/
inductive DetailValue where
  | null
  | bool (b : Bool)
  | text (s : String)
  /-- A text of any kind, by its UTF-16 units. -/
  | utf16 (units : JsString)
  /-- A base58 text, by the bytes it stands for. -/
  | base58 (bytes : List UInt8)
  | number (n : Int)
  | address (a : Address)
  | blockers (l : List MintBlocker)
  | paymentId (id : PaymentId)
deriving DecidableEq

structure VadumError where
  code : VadumErrorCode
  detail : List (String × DetailValue)
deriving DecidableEq

/-- What a `catch` can see: one of our own errors, or an error object of
    somebody else's with its name, its message and its serialised context. -/
inductive Thrown where
  | vadum (error : VadumError)
  | error (name message : String) (context : Option String)
deriving DecidableEq

/-- The error thrown for a code, with its detail. -/
def vadumError (code : VadumErrorCode) (detail : List (String × DetailValue)) : Thrown :=
  .vadum ⟨code, detail⟩

/-- The detail of a value that may be missing. -/
def DetailValue.ofOption : Option Int → DetailValue
  | some n => .number n
  | none => .null

end Vadum
