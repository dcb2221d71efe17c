import Vadum.Bytes.Fields
import Vadum.Core.Canonical
import Vadum.Core.NonceReturn

/-!
# The Wire Codec

The four payloads the two devices show each other. A payload has a header of
three bytes, its version, its type and its flags, and then fields at fixed
offsets, some of them present only under a flag. The checks on a received one
come in a normative order, and the first that fails decides the error. Nothing
here verifies a signature.

A read outside the payload is an error of its own, `outside`. The source does
not guard against one, and need not: no decoder comes to it.

A number that is written into a byte loses what does not fit in it, as it does
in a `Uint8Array`.

## Main definitions

* `PayloadType`, `WireFlags`, `DecodeContext`: What a payload is read with.
* `expectedLength`: The length of a payload.
* `readType`, `readHeader`, `checkAgainstCache`: The checks, in their order.
* `encodeIntent`, `decodeIntent`, `encodeStaticIntent`, `decodeStaticIntent`,
  `encodeAuth`, `decodeAuth`, `encodeNonceReturn`, `decodeNonceReturn`: The
  codec.
-/

namespace Vadum

inductive PayloadType where
  | intent
  | staticIntent
  | auth
  | nonceReturn
deriving DecidableEq

structure WireFlags where
  lifetimeFresh : Bool
  includeCreateAta : Bool
  token2022 : Bool
  /-- Always false in this version. -/
  feePayerSeparate : Bool
  amountInAuth : Bool
deriving DecidableEq

/-- The records of a mint cache, by mint. -/
abbrev MintMap : Type := Address → Option MintRecord

structure DecodeContext where
  mintCache : MintMap
  /-- The flags of the intent being answered; needed to decode an `AUTH`. -/
  intentFlags : Option WireFlags

def wireVersion : UInt8 := 0x01

def headerBytes : Nat := 3

def keyBytes : Nat := 32

def signatureBytes : Nat := 64

def PayloadType.text : PayloadType → String
  | .intent => "INTENT"
  | .staticIntent => "STATIC_INTENT"
  | .auth => "AUTH"
  | .nonceReturn => "NONCE_RETURN"

def TokenProgram.text : TokenProgram → String
  | .splToken => "spl-token"
  | .token2022 => "token-2022"

def typeByte : PayloadType → UInt8
  | .intent => 0x01
  | .staticIntent => 0x02
  | .auth => 0x03
  | .nonceReturn => 0x04

def payloadTypes : List PayloadType := [.intent, .staticIntent, .auth, .nonceReturn]

/-- The type a byte names, if it names one. -/
def typeName (byte : UInt8) : Option PayloadType :=
  payloadTypes.find? fun type => typeByte type = byte

namespace Flag

def lifetimeFresh : UInt8 := 0b0000_0001
def includeCreateAta : UInt8 := 0b0000_0010
def token2022 : UInt8 := 0b0000_0100
def feePayerSeparate : UInt8 := 0b0000_1000
def amountInAuth : UInt8 := 0b0001_0000

end Flag

def reservedBits : UInt8 := 0b1110_0000

def flagsFromByte (byte : UInt8) : WireFlags where
  lifetimeFresh := byte &&& Flag.lifetimeFresh ≠ 0
  includeCreateAta := byte &&& Flag.includeCreateAta ≠ 0
  token2022 := byte &&& Flag.token2022 ≠ 0
  feePayerSeparate := byte &&& Flag.feePayerSeparate ≠ 0
  amountInAuth := byte &&& Flag.amountInAuth ≠ 0

def flagsToByte (flags : WireFlags) : UInt8 :=
  (if flags.lifetimeFresh then Flag.lifetimeFresh else 0) |||
    (if flags.includeCreateAta then Flag.includeCreateAta else 0) |||
    (if flags.token2022 then Flag.token2022 else 0) |||
    (if flags.feePayerSeparate then Flag.feePayerSeparate else 0) |||
    (if flags.amountInAuth then Flag.amountInAuth else 0)

def expectedLength (type : PayloadType) (flags : WireFlags) : Nat :=
  match type with
  | .intent =>
    76 + (if flags.lifetimeFresh then keyBytes else 0)
      + (if flags.feePayerSeparate then keyBytes else 0)
  | .staticIntent => 68
  | .auth => 99 + (if flags.lifetimeFresh then 0 else 33) + (if flags.amountInAuth then 8 else 0)
  | .nonceReturn => 100

/-- What a read outside the payload ends in. -/
def outside : Thrown := .error "RangeError" "offset is out of bounds" none

/-- A field that lies inside the payload. -/
def fieldAt (bytes : List UInt8) (offset size : Nat) : Except Thrown (List UInt8) :=
  match Bytes.field bytes offset size with
  | some field => .ok field
  | none => .error outside

def byteAt (bytes : List UInt8) (offset : Nat) : Except Thrown UInt8 :=
  match bytes[offset]? with
  | some byte => .ok byte
  | none => .error outside

def addressAt (bytes : List UInt8) (offset : Nat) : Except Thrown Address :=
  if h : offset + keyBytes ≤ bytes.length then
    .ok ⟨Bytes.slice bytes offset keyBytes, Bytes.length_slice h⟩
  else
    .error outside

/-- A base58 value, by its bytes. -/
def base58At (bytes : List UInt8) (offset : Nat) : Except Thrown (List UInt8) :=
  fieldAt bytes offset keyBytes

def u64At (bytes : List UInt8) (offset : Nat) : Except Thrown Int := do
  let field ← fieldAt bytes offset 8
  pure (Bytes.ofLe field)

/-- The eight bytes of an integer, of which the lowest 64 bits are kept. -/
def bigUint64Bytes (value : Int) : List UInt8 := Bytes.leBytes 8 (value % 2 ^ 64).toNat

def writeKey (out : List UInt8) (offset : Nat) (value : List UInt8) :
    Except Thrown (List UInt8) := do
  if value.length ≠ keyBytes then
    throw (vadumError .wireLengthMismatch
      [("reason", .text "a key is not 32 bytes"), ("value", .base58 value),
        ("length", .number value.length)])
  pure (Bytes.write out offset value)

def writeAddress (out : List UInt8) (offset : Nat) (value : Address) : List UInt8 :=
  Bytes.write out offset value.bytes

def writeU64 (out : List UInt8) (offset : Nat) (value : Int) : Except Thrown (List UInt8) := do
  if value < 0 ∨ value > u64Max then
    throw (vadumError .wireLengthMismatch
      [("reason", .text "amount does not fit the 8-byte field"), ("value", .number value)])
  pure (Bytes.write out offset (bigUint64Bytes value))

/-- A number written into one byte. -/
def writeByte (out : List UInt8) (offset : Nat) (value : Int) : List UInt8 :=
  Bytes.write out offset [UInt8.ofInt value]

def writeHeader (out : List UInt8) (type : PayloadType) (flags : WireFlags) :
    Except Thrown (List UInt8) := do
  if flags.feePayerSeparate then
    throw (vadumError .wireFeePayerSeparateUnsupported [("type", .text type.text)])
  let out := Bytes.write out 0 [wireVersion]
  let out := Bytes.write out 1 [typeByte type]
  pure (Bytes.write out 2 [flagsToByte flags])

def flagsOf (intent : Intent) : WireFlags where
  lifetimeFresh := match intent.lifetime with
    | .fresh _ _ => true
    | .nonce => false
  includeCreateAta := intent.includeCreateAta
  token2022 := intent.tokenProgram = .token2022
  feePayerSeparate := intent.feePayer ≠ intent.merchant
  amountInAuth := intent.isStatic

/-- Steps 2 to 4: the length, the version, and a known type that is the one
    expected, if one is. -/
def readType (bytes : List UInt8) (expected : Option PayloadType) : Except Thrown PayloadType := do
  if bytes.length < headerBytes then
    throw (vadumError .wireLengthMismatch
      [("reason", .text "shorter than the 3-byte header"), ("length", .number bytes.length)])
  let version ← byteAt bytes 0
  if version ≠ wireVersion then
    throw (vadumError .wireVersionUnsupported [("version", .number version.toNat)])
  let byte ← byteAt bytes 1
  let some type := typeName byte
    | throw (vadumError .wireUnknownType [("type", .number byte.toNat)])
  if let some expected := expected then
    if type ≠ expected then
      throw (vadumError .wireUnexpectedType
        [("expected", .text expected.text), ("actual", .text type.text)])
  pure type

def flagNames : List (UInt8 × String) :=
  [(Flag.lifetimeFresh, "LIFETIME_FRESH"), (Flag.includeCreateAta, "INCLUDE_CREATE_ATA"),
    (Flag.token2022, "TOKEN_2022"), (Flag.amountInAuth, "AMOUNT_IN_AUTH")]

/-- The first of the flags that is among these bits, by its name. -/
def flagName (forbidden : UInt8) : DetailValue :=
  match flagNames.find? fun entry => forbidden &&& entry.1 ≠ 0 with
  | some entry => .text entry.2
  | none => .null

/-- The bits a type does not allow. -/
def forbiddenFlags (type : PayloadType) (flagsByte : UInt8) : UInt8 :=
  match type with
  | .intent => flagsByte &&& Flag.amountInAuth
  | .nonceReturn => flagsByte
  | _ => 0

/-- Steps 5 to 9: the flags, and the length they call for. -/
def readHeader (bytes : List UInt8) (expected : PayloadType) : Except Thrown WireFlags := do
  let type ← readType bytes (some expected)
  let flagsByte ← byteAt bytes 2
  if flagsByte &&& reservedBits ≠ 0 then
    throw (vadumError .wireReservedFlagSet [("flags", .number flagsByte.toNat)])
  if flagsByte &&& Flag.feePayerSeparate ≠ 0 then
    throw (vadumError .wireFeePayerSeparateUnsupported [("type", .text type.text)])
  let forbidden := forbiddenFlags type flagsByte
  if forbidden ≠ 0 then
    throw (vadumError .wireFlagNotAllowedForType
      [("type", .text type.text), ("flag", flagName forbidden)])
  let flags := flagsFromByte flagsByte
  if type = .staticIntent then
    if flags.lifetimeFresh then
      throw (vadumError .wireStaticConstraint
        [("reason", .text "LIFETIME_FRESH is set on a printed intent")])
    if ¬ flags.amountInAuth then
      throw (vadumError .wireStaticConstraint
        [("reason", .text "AMOUNT_IN_AUTH is clear on a printed intent")])
  let length := expectedLength type flags
  if bytes.length ≠ length then
    throw (vadumError .wireLengthMismatch
      [("type", .text type.text), ("expected", .number length), ("actual", .number bytes.length)])
  pure flags

/-- Step 11: the mint is cached, and its decimals and token program agree. -/
def checkAgainstCache (ctx : DecodeContext) (mint : Address) (decimals : Int) (flags : WireFlags) :
    Except Thrown TokenProgram := do
  let some record := ctx.mintCache mint
    | throw (vadumError .mintUnknown [("mint", .address mint)])
  if record.decimals ≠ decimals then
    throw (vadumError .mintDecimalsMismatch
      [("mint", .address mint), ("expected", .number record.decimals),
        ("actual", .number decimals)])
  let tokenProgram := if flags.token2022 then TokenProgram.token2022 else .splToken
  if record.tokenProgram ≠ tokenProgram then
    throw (vadumError .mintTokenProgramMismatch
      [("mint", .address mint), ("expected", .text record.tokenProgram.text),
        ("actual", .text tokenProgram.text)])
  pure tokenProgram

/-- Tells a scanned payload's type before a decoder is chosen. -/
def peekPayloadType (bytes : List UInt8) : Except Thrown PayloadType := readType bytes none

/-- A new buffer. -/
def newBuffer (length : Nat) : List UInt8 := List.replicate length 0

def encodeIntent (intent : Intent) : Except Thrown (List UInt8) := do
  if intent.isStatic then
    throw (vadumError .wireUnexpectedType
      [("expected", .text "INTENT"), ("actual", .text "STATIC_INTENT")])
  let some amount := intent.amount
    | throw (vadumError .wireStaticConstraint
        [("reason", .text "a dynamic intent carries its amount")])
  let flags := flagsOf intent
  let out := newBuffer (expectedLength .intent flags)
  let out ← writeHeader out .intent flags
  let out := writeAddress out 3 intent.merchant
  let out := writeAddress out 35 intent.mint
  let out ← writeU64 out 67 amount
  let out := writeByte out 75 intent.decimals
  match intent.lifetime with
  | .fresh blockhash _ => writeKey out 76 blockhash.bytes
  | .nonce => pure out

def decodeIntent (bytes : List UInt8) (ctx : DecodeContext) : Except Thrown Intent := do
  let flags ← readHeader bytes .intent
  let merchant ← addressAt bytes 3
  let mint ← addressAt bytes 35
  let amount ← u64At bytes 67
  let decimals := (← byteAt bytes 75).toNat
  let tokenProgram ← checkAgainstCache ctx mint decimals flags
  let lifetime ← if flags.lifetimeFresh then do
      -- The payer never sees the block height, and no message depends on it.
      pure (Lifetime.fresh ⟨← base58At bytes 76⟩ 0)
    else pure .nonce
  pure { merchant, mint, decimals, amount := some amount, lifetime
         includeCreateAta := flags.includeCreateAta
         tokenProgram, feePayer := merchant, isStatic := false }

def encodeStaticIntent (intent : Intent) : Except Thrown (List UInt8) := do
  if ¬ intent.isStatic then
    throw (vadumError .wireUnexpectedType
      [("expected", .text "STATIC_INTENT"), ("actual", .text "INTENT")])
  if intent.amount ≠ none then
    throw (vadumError .wireStaticConstraint
      [("reason", .text "a printed intent carries no amount")])
  if intent.lifetime ≠ .nonce then
    throw (vadumError .wireStaticConstraint
      [("reason", .text "a printed intent cannot carry a blockhash")])
  let flags := flagsOf intent
  let out := newBuffer (expectedLength .staticIntent flags)
  let out ← writeHeader out .staticIntent flags
  let out := writeAddress out 3 intent.merchant
  let out := writeAddress out 35 intent.mint
  pure (writeByte out 67 intent.decimals)

def decodeStaticIntent (bytes : List UInt8) (ctx : DecodeContext) : Except Thrown Intent := do
  let flags ← readHeader bytes .staticIntent
  let merchant ← addressAt bytes 3
  let mint ← addressAt bytes 35
  let decimals := (← byteAt bytes 67).toNat
  let tokenProgram ← checkAgainstCache ctx mint decimals flags
  pure { merchant, mint, decimals, amount := none
         -- A printed code implies the durable nonce path.
         lifetime := .nonce
         includeCreateAta := flags.includeCreateAta
         tokenProgram, feePayer := merchant, isStatic := true }

def encodeAuth (auth : Auth) (flags : WireFlags) : Except Thrown (List UInt8) := do
  if auth.signature.length ≠ signatureBytes then
    throw (vadumError .sigLength [("length", .number auth.signature.length)])
  if flags.lifetimeFresh ≠ auth.nonceRef.isNone then
    throw (vadumError .wireFlagsMismatch
      [("reason", .text "LIFETIME_FRESH disagrees with the nonce reference"),
        ("lifetimeFresh", .bool flags.lifetimeFresh)])
  if flags.amountInAuth ≠ auth.amount.isSome then
    throw (vadumError .wireFlagsMismatch
      [("reason", .text "AMOUNT_IN_AUTH disagrees with the amount"),
        ("amountInAuth", .bool flags.amountInAuth)])
  let out := newBuffer (expectedLength .auth flags)
  let out ← writeHeader out .auth flags
  let out := writeAddress out 3 auth.payer
  let (out, offset) ← match auth.nonceRef with
    | some ref => do
      if ref.index > 255 then
        throw (vadumError .nonceIndexOutOfRange [("index", .number ref.index)])
      let out := writeByte out 35 ref.index
      let out ← writeKey out 36 ref.value.bytes
      pure (out, 36 + keyBytes)
    | none => pure (out, 35)
  let (out, offset) ← match auth.amount with
    | some amount => do
      let out ← writeU64 out offset amount
      pure (out, offset + 8)
    | none => pure (out, offset)
  pure (Bytes.write out offset auth.signature)

def decodeAuth (bytes : List UInt8) (ctx : DecodeContext) : Except Thrown Auth := do
  let flags ← readHeader bytes .auth
  let some intentFlags := ctx.intentFlags
    | throw (vadumError .wireFlagsMismatch
        [("reason", .text "DecodeContext.intentFlags is required to decode an AUTH")])
  let expected := flagsToByte intentFlags
  let actual ← byteAt bytes 2
  if expected ≠ actual then
    throw (vadumError .wireFlagsMismatch
      [("expected", .number expected.toNat), ("actual", .number actual.toNat)])
  let payer ← addressAt bytes 3
  let (nonceRef, offset) ← if flags.lifetimeFresh then pure (none, 35)
    else do
      let index := (← byteAt bytes 35).toNat
      let value ← base58At bytes 36
      pure (some { index, value := ⟨value⟩ }, 35 + 1 + keyBytes)
  let (amount, offset) ← if flags.amountInAuth then do
      pure (some (← u64At bytes offset), offset + 8)
    else pure (none, offset)
  let signature ← fieldAt bytes offset signatureBytes
  pure { payer, nonceRef, amount, signature }

def noFlags : WireFlags := ⟨false, false, false, false, false⟩

def encodeNonceReturn (payload : NonceReturnPayload) : Except Thrown (List UInt8) := do
  if payload.nonceIndex > 255 then
    throw (vadumError .nonceIndexOutOfRange [("index", .number payload.nonceIndex)])
  if payload.signature.length ≠ signatureBytes then
    throw (vadumError .sigLength [("length", .number payload.signature.length)])
  let out := newBuffer (expectedLength .nonceReturn noFlags)
  let out ← writeHeader out .nonceReturn noFlags
  let out := writeByte out 3 payload.nonceIndex
  let out ← writeKey out 4 payload.newNonceValue.bytes
  pure (Bytes.write out 36 payload.signature)

def decodeNonceReturn (bytes : List UInt8) : Except Thrown NonceReturnPayload := do
  let _ ← readHeader bytes .nonceReturn
  let nonceIndex := (← byteAt bytes 3).toNat
  let newNonceValue ← base58At bytes 4
  let signature ← fieldAt bytes 36 signatureBytes
  pure { nonceIndex, newNonceValue := ⟨newNonceValue⟩, signature }

end Vadum
