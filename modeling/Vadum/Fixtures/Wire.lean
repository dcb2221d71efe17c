import Vadum.Wire.Codec

/-!
# The Reference Codec

The codec the fixture generator makes its payloads with, written from the
specification and apart from `Wire.Codec`. Its encoders join fields to one byte
string, and `check` applies the normative check order: it says nothing about the
value of a payload, only at which step a conforming decoder refuses it.

A rejection has the code a conforming decoder must raise. Other errors are the
generator's own, for a call that cannot be answered.

## Main definitions

* `Rejection`: What `check` throws.
* `Fixtures.encodeIntent`, `Fixtures.encodeStaticIntent`,
  `Fixtures.encodeAuth`, `Fixtures.encodeNonceReturn`: The reference encoders.
* `Fixtures.expectedLength`: The length of a payload.
* `Entry`, `CheckContext`, `check`: The normative check order.
-/

namespace Vadum

namespace Fixtures

/-- What the reference codec throws: a rejection with its code, or an error of
    its own, by the parts of its message. -/
inductive Rejection where
  | reject (code : String) (detail : List (String × DetailValue))
  | error (message : List DetailValue)

def wireVersion : UInt8 := 0x01

def typeByte : PayloadType → UInt8
  | .intent => 0x01
  | .staticIntent => 0x02
  | .auth => 0x03
  | .nonceReturn => 0x04

/-- The types, in the order they are listed. -/
def types : List PayloadType := [.intent, .staticIntent, .auth, .nonceReturn]

namespace Flag

def lifetimeFresh : UInt8 := (1 : UInt8) <<< 0
def includeCreateAta : UInt8 := (1 : UInt8) <<< 1
def token2022 : UInt8 := (1 : UInt8) <<< 2
def feePayerSeparate : UInt8 := (1 : UInt8) <<< 3
def amountInAuth : UInt8 := (1 : UInt8) <<< 4

end Flag

def flagNames : List (String × UInt8) :=
  [("LIFETIME_FRESH", Flag.lifetimeFresh), ("INCLUDE_CREATE_ATA", Flag.includeCreateAta),
    ("TOKEN_2022", Flag.token2022), ("FEE_PAYER_SEPARATE", Flag.feePayerSeparate),
    ("AMOUNT_IN_AUTH", Flag.amountInAuth)]

def reservedFlags : UInt8 := 0b1110_0000

def header (type : PayloadType) (flags : UInt8) : List UInt8 :=
  [wireVersion, typeByte type, flags]

def u64le (value : Int) : List UInt8 := bigUint64Bytes value

/-- A base58 text that must stand for exactly 32 bytes. -/
def base58Bytes32 (value : List UInt8) : Except Rejection (List UInt8) := do
  if value.length ≠ 32 then
    throw (.error [.text "expected 32 bytes, got ", .number value.length, .text " from ",
      .base58 value])
  pure value

structure IntentFields where
  flags : UInt8
  merchant : Address
  mint : Address
  amount : Int
  decimals : Int
  /-- Present exactly when `LIFETIME_FRESH` is set. -/
  blockhash : Option Blockhash

def encodeIntent (fields : IntentFields) : Except Rejection (List UInt8) := do
  let blockhash ← match fields.blockhash with
    | none => pure []
    | some blockhash => base58Bytes32 blockhash.bytes
  pure (header .intent fields.flags ++ fields.merchant.bytes ++ fields.mint.bytes
    ++ u64le fields.amount ++ [UInt8.ofInt fields.decimals] ++ blockhash)

structure StaticIntentFields where
  flags : UInt8
  merchant : Address
  mint : Address
  decimals : Int

def encodeStaticIntent (fields : StaticIntentFields) : List UInt8 :=
  header .staticIntent fields.flags ++ fields.merchant.bytes ++ fields.mint.bytes
    ++ [UInt8.ofInt fields.decimals]

structure AuthFields where
  flags : UInt8
  payer : Address
  /-- Absent exactly when `LIFETIME_FRESH` is set. -/
  nonce : Option NonceRef
  /-- Present exactly when `AMOUNT_IN_AUTH` is set. -/
  amount : Option Int
  signature : Signature

def encodeAuth (fields : AuthFields) : Except Rejection (List UInt8) := do
  let nonce ← match fields.nonce with
    | none => pure []
    | some nonce => do
      let value ← base58Bytes32 nonce.value.bytes
      pure ([UInt8.ofInt nonce.index] ++ value)
  let amount := match fields.amount with
    | none => []
    | some amount => u64le amount
  pure (header .auth fields.flags ++ fields.payer.bytes ++ nonce ++ amount ++ fields.signature)

def encodeNonceReturn (nonceIndex : Nat) (newNonceValue : Nonce) (signature : Signature) :
    Except Rejection (List UInt8) := do
  let value ← base58Bytes32 newNonceValue.bytes
  pure (header .nonceReturn 0x00 ++ [UInt8.ofInt nonceIndex] ++ value ++ signature)

/-- The length table, for legal combinations of flags. -/
def expectedLength (type : PayloadType) (flags : UInt8) : Nat :=
  let fresh := flags &&& Flag.lifetimeFresh ≠ 0
  match type with
  | .intent => 76 + (if fresh then 32 else 0)
  | .staticIntent => 68
  | .auth =>
    35 + (if fresh then 0 else 33) + (if flags &&& Flag.amountInAuth ≠ 0 then 8 else 0) + 64
  | .nonceReturn => 100

/-- What a decoder is called as. -/
inductive Entry where
  | peekPayloadType
  | decodeIntent
  | decodeStaticIntent
  | decodeAuth
  | decodeNonceReturn
deriving DecidableEq

def Entry.text : Entry → String
  | .peekPayloadType => "peekPayloadType"
  | .decodeIntent => "decodeIntent"
  | .decodeStaticIntent => "decodeStaticIntent"
  | .decodeAuth => "decodeAuth"
  | .decodeNonceReturn => "decodeNonceReturn"

/-- The type of payload an entry is for; `peekPayloadType` is for every type. -/
def entryType : Entry → Option PayloadType
  | .peekPayloadType => none
  | .decodeIntent => some .intent
  | .decodeStaticIntent => some .staticIntent
  | .decodeAuth => some .auth
  | .decodeNonceReturn => some .nonceReturn

structure CachedMint where
  tokenProgram : TokenProgram
  decimals : Int

structure CheckContext where
  /-- The cached mints, by the base58 text of the mint. -/
  mintCache : Option (List UInt8 → Option CachedMint)
  intentFlags : Option Nat

/-- Steps 2 to 11 of the check order, from the first that applies. -/
def check (entry : Entry) (bytes : List UInt8) (context : CheckContext) :
    Except Rejection Unit := do
  if bytes.length < 3 then throw (.reject "WIRE_LENGTH_MISMATCH" [])
  if bytes[0]? ≠ some wireVersion then throw (.reject "WIRE_VERSION_UNSUPPORTED" [])
  let some type := types.find? fun name => some (typeByte name) = bytes[1]?
    | throw (.reject "WIRE_UNKNOWN_TYPE" [])
  let some expected := entryType entry
    | return ()
  if type ≠ expected then
    throw (.reject "WIRE_UNEXPECTED_TYPE"
      [("expected", .text expected.text), ("actual", .text type.text)])
  let flags := bytes.getD 2 0
  if flags &&& reservedFlags ≠ 0 then throw (.reject "WIRE_RESERVED_FLAG_SET" [])
  if flags &&& Flag.feePayerSeparate ≠ 0 then
    throw (.reject "WIRE_FEE_PAYER_SEPARATE_UNSUPPORTED" [])
  let forbidden := match type with
    | .intent => flags &&& Flag.amountInAuth
    | .nonceReturn => flags
    | _ => 0
  if forbidden ≠ 0 then
    let flag := match flagNames.find? fun flag => forbidden &&& flag.2 ≠ 0 with
      | some flag => DetailValue.text flag.1
      | none => .null
    throw (.reject "WIRE_FLAG_NOT_ALLOWED_FOR_TYPE" [("type", .text type.text), ("flag", flag)])
  let fresh := flags &&& Flag.lifetimeFresh ≠ 0
  if type = .staticIntent ∧ (fresh ∨ flags &&& Flag.amountInAuth = 0) then
    throw (.reject "WIRE_STATIC_CONSTRAINT" [])
  if bytes.length ≠ expectedLength type flags then throw (.reject "WIRE_LENGTH_MISMATCH" [])
  if type = .auth then
    let some intentFlags := context.intentFlags
      | throw (.error [.text "decodeAuth needs the answered intent flags"])
    if flags.toNat ≠ intentFlags then throw (.reject "WIRE_FLAGS_MISMATCH" [])
  if type = .intent ∨ type = .staticIntent then
    let some mintCache := context.mintCache
      | throw (.error [.text entry.text, .text " needs a mint cache"])
    let some cached := mintCache (Bytes.slice bytes 35 32)
      | throw (.reject "MINT_UNKNOWN" [])
    let decimals := bytes[if type = .intent then 75 else 67]?
    if decimals.map (fun byte => (byte.toNat : Int)) ≠ some cached.decimals then
      throw (.reject "MINT_DECIMALS_MISMATCH" [])
    if decide (flags &&& Flag.token2022 ≠ 0) ≠ decide (cached.tokenProgram = .token2022) then
      throw (.reject "MINT_TOKEN_PROGRAM_MISMATCH" [])

end Fixtures

end Vadum
