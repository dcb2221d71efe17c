import Vadum.Client.Pool
import Vadum.Client.Queue
import Vadum.Core.Canonical

/-!
# A Network in Memory

The double the client's tests run against: a network that keeps accounts and a
balance, and answers the rest from its options or with a default. Storage
behind it never fails, and time moves only when it is told to.

`testKit` stands in for the Solana library and the platform's cryptography. Its
digest is no hash anybody should use, but like the real one it tells apart the
few inputs it is given, and its signatures verify for the key and the bytes
they were made for and for nothing else.

## Main definitions

* `FakeRpc`, `fakeNetwork`: The double.
* `testKit`: The library and the platform.
* `testAddress`, `testNonce`, `testKey`: Keys told apart by one byte.
* `testPool`, `testAccount`: A payer's pool and the accounts of its slots.
* `testIntent`, `testRecord`: A merchant's request, and the record of its mint.
* `testPayment`, `testQueue`: A payment from a slot, and a merchant's queue.
-/

namespace Vadum

/-- The options of the double, and what it keeps. -/
structure FakeRpc where
  nonceAccounts : List (Address × NonceAccountState) := []
  balance : Int := 0
  /-- The accounts a setup transaction brings into being. -/
  setup : List (Address × NonceAccountState) := []
  /-- The mint accounts that exist. -/
  mints : List (Address × RawMintFetch) := []
  /-- What the next payments are answered, before the default. -/
  sendPayment : List (Except Thrown Signature) := []
  /-- What the chain says of the signatures looked up next, before `absent`. -/
  signatureOutcome : List (Except Thrown SignatureOutcome) := []
  clock : Int := 0

def FakeRpc.nonceAccount (rpc : FakeRpc) (address : Address) : NonceAccountState :=
  (rpc.nonceAccounts.lookup address).getD .absent

/-- How the double answers a call. -/
def FakeRpc.answer : (c : Call) → FakeRpc → Except Thrown c.Answer × FakeRpc
  | .getNonceRentExemption, rpc => (.ok 1056640, rpc)
  | .getRentExemption dataLength, rpc => (.ok (if dataLength = 0 then 890880 else 1056640), rpc)
  | .getMintAccount mint, rpc => match rpc.mints.lookup mint with
    | some fetched => (.ok fetched, rpc)
    | none => (.error (vadumError .mintIncompatible
        [("blockers", .blockers []), ("reason", .text "the fake has no mint"),
          ("mint", .address mint)]), rpc)
  | .getNonceAccount address, rpc => (.ok (rpc.nonceAccount address), rpc)
  | .getBalance _, rpc => (.ok rpc.balance, rpc)
  | .getSignatureOutcome _, rpc =>
    (rpc.signatureOutcome.head?.getD (.ok .absent),
      { rpc with signatureOutcome := rpc.signatureOutcome.tail })
  | .sendSetup _ _, rpc =>
    (.ok (List.replicate 64 0), { rpc with nonceAccounts := rpc.setup ++ rpc.nonceAccounts })
  | .sendPayment _ _, rpc =>
    (rpc.sendPayment.head?.getD (.ok (List.replicate 64 1)),
      { rpc with sendPayment := rpc.sendPayment.tail })

/-- A call takes no time. -/
theorem answer_clock (c : Call) (rpc : FakeRpc) : (FakeRpc.answer c rpc).2.clock = rpc.clock := by
  cases c with
  | getMintAccount mint =>
      rcases h : rpc.mints.lookup mint with _ | fetched <;> simp only [FakeRpc.answer, h]
  | _ => rfl

/-- 32 bytes that tell apart what the tests use. -/
def testDigest (bytes : List UInt8) : List UInt8 :=
  let n := bytes.foldl (fun n b => (n * 257 + b.toNat + 1) % (2 ^ 61 - 1)) 0
  (List.range 32).map fun i => UInt8.ofNat (n / 2 ^ (2 * i))

theorem testDigest_length (bytes : List UInt8) : (testDigest bytes).length = 32 := by
  simp only [testDigest, List.length_map, List.length_range]

/-- The signature of a key over some bytes. -/
def testSignature (key : Address) (message : List UInt8) : Signature :=
  testDigest (key.bytes ++ message) ++ key.bytes

def fakeNetwork : Network FakeRpc where
  rpc := FakeRpc.answer
  storage := fun rpc => (none, rpc)
  sign := fun key message rpc => (testSignature key.publicKey message, rpc)
  clock := FakeRpc.clock
  randomUUID := fun rpc => ("epoch", rpc)
  tick := id

def testAddress (n : UInt8) : Address := ⟨List.replicate 32 n, List.length_replicate⟩

def testNonce (n : UInt8) : Nonce := ⟨List.replicate 32 n⟩

def testKey (n : UInt8) : CryptoKeyPair := ⟨testAddress n⟩

def addressOfBytes (bytes : List UInt8) : Address :=
  if h : bytes.length = 32 then ⟨bytes, h⟩ else testAddress 0

def Instruction.bytes : Instruction → List UInt8
  | .createAssociatedTokenIdempotent payer ata owner mint tokenProgram =>
    0 :: payer.bytes ++ ata.bytes ++ owner.bytes ++ mint.bytes ++ tokenProgram.bytes
  | .transferChecked programAddress source mint destination authority amount decimals =>
    1 :: programAddress.bytes ++ source.bytes ++ mint.bytes ++ destination.bytes
      ++ authority.bytes ++ [UInt8.ofInt amount, UInt8.ofInt decimals]

def MessageLifetime.bytes : MessageLifetime → List UInt8
  | .durableNonce nonce account authority => 1 :: account.bytes ++ authority.bytes ++ nonce.bytes
  | .blockhash hash _ => 0 :: hash.bytes

/-- The account other than the fee payer that must sign, if there is one. -/
def TransactionMessage.authority (message : TransactionMessage) : Option Address :=
  message.instructions.findSome? fun
    | .transferChecked _ _ _ _ authority _ _ => some authority
    | _ => none

def testKit : Kit where
  systemProgramAddress := testAddress 251
  tokenProgramAddress := testAddress 252
  token2022ProgramAddress := testAddress 253
  associatedTokenProgramAddress := testAddress 250
  createAddressWithSeed := fun base program seed =>
    ⟨testDigest (base.bytes ++ seed.toList.map (fun c => UInt8.ofNat c.toNat) ++ program.bytes),
      testDigest_length _⟩
  findAssociatedTokenPda := fun owner mint program =>
    ⟨testDigest (owner.bytes ++ program.bytes ++ mint.bytes), testDigest_length _⟩
  compileTransaction := fun message =>
    .ok (message.feePayer.bytes ++ (message.authority.getD message.feePayer).bytes
      ++ testDigest (message.instructions.flatMap Instruction.bytes) ++ message.lifetime.bytes)
  decodeMessage := fun _ => none
  requiredSigners := fun bytes =>
    .ok [addressOfBytes (bytes.take 32), addressOfBytes ((bytes.drop 32).take 32)].dedup
  unexpectedSigner := .error "SolanaError" "an address is no signer of this transaction" none
  verifySignature := fun key signature bytes => .ok (signature = testSignature key bytes)
  sha256 := testDigest
  showDetail := fun detail => String.intercalate "," (detail.map Prod.fst)

/-- The pool of the payer with the first key. -/
def testPool : PoolConfig where
  kit := testKit
  payer := testAddress 1

/-- The account of one of its slots, holding a value. -/
def testAccount (index : Nat) (value : Nonce) : Address × NonceAccountState :=
  (testKit.createAddressWithSeed testPool.payer testKit.systemProgramAddress
    ("vadum-" ++ toString index), .initialized testPool.payer value 1056640)

/-- A merchant's request for ten units, paid from one of the payer's slots. -/
def testIntent : Intent where
  merchant := testAddress 2
  mint := testAddress 4
  decimals := 6
  amount := some 10
  lifetime := .nonce
  includeCreateAta := false
  tokenProgram := .splToken
  feePayer := testAddress 2
  isStatic := false

/-- The record of the mint it is paid in. -/
def testRecord : MintRecord where
  mint := testAddress 4
  tokenProgram := .splToken
  decimals := 6
  compatible := true
  blockers := []
  warnings := []
  mutableMint := false
  checkedAt := 0

def testInput (index : Nat) : CanonicalInput where
  intent := testIntent
  payer := testAddress 1
  nonceRef := some ⟨index, testNonce 7⟩
  amount := 10

/-- The message of a payment from one of the slots, signed by the payer. -/
def testPayment (index : Nat) : VerifiedPayment :=
  let messageBytes := ((buildMessage testKit (testInput index)).toOption).getD []
  { input := testInput index
    messageBytes
    auth :=
      { payer := testAddress 1
        nonceRef := some ⟨index, testNonce 7⟩
        amount := none
        signature := testSignature (testAddress 1) messageBytes } }

/-- A merchant's queue. Texts sort as their bytes do. -/
def testQueue : QueueConfig where
  kit := testKit
  localeCompare := fun a b => paymentKey a ≤ paymentKey b
where
  paymentKey : PaymentId → List UInt8
    | .nonce payer index value => 1 :: payer.bytes ++ UInt8.ofNat index :: value.bytes
    | .fresh payer digest => 0 :: payer.bytes ++ digest

theorem fakeNetwork_storageWorks : StorageWorks fakeNetwork := fun _ => rfl

end Vadum
