import Vadum.Checks.Sequence
import Vadum.Wire.Codec

/-!
# Encoding a Payload

What the encoders of `Wire.Codec` write. An encoder writes fields into a buffer
of zeros, from left to right, and what it has written in the end is one
concatenation of fields: `intentBytes` and its three companions.

An encoder accepts exactly the values whose fields fit, and what fits is a
structure of named facts for each type. Nothing else about the encoders is
needed afterwards.

## Main definitions

* `intentBytes`, `staticIntentBytes`, `authBytes`, `nonceReturnBytes`: The
  layouts.
* `Encodable`, `StaticEncodable`, `AuthEncodable`, `ReturnEncodable`: What the
  encoders accept.

## Theorems

* `write_newBuffer`: The next field of a buffer under construction.
* `encodeIntent_eq_ok`, `encodeStaticIntent_eq_ok`, `encodeAuth_eq_ok`,
  `encodeNonceReturn_eq_ok`: What an encoder accepts, and what it writes.
-/

namespace Vadum

open Checks Bytes

section Flags

/-- What holds of every byte is checked on the 256 of them. -/
theorem forall_byte {p : UInt8 → Prop} (h : ∀ n : Fin 256, p ⟨⟨n⟩⟩) (byte : UInt8) : p byte :=
  h byte.toBitVec.toFin

theorem flagsFromByte_flagsToByte (flags : WireFlags) :
    flagsFromByte (flagsToByte flags) = flags := by
  rcases flags with ⟨fresh, create, token, separate, amount⟩
  cases fresh <;> cases create <;> cases token <;> cases separate <;> cases amount <;> rfl

/-- A byte without reserved bits is the byte of its flags. -/
theorem flagsToByte_flagsFromByte (byte : UInt8) :
    byte &&& reservedBits = 0 → flagsToByte (flagsFromByte byte) = byte :=
  forall_byte (p := fun byte => byte &&& reservedBits = 0 →
    flagsToByte (flagsFromByte byte) = byte) (by decide +kernel) byte

theorem typeName_eq_some {byte : UInt8} {type : PayloadType} :
    typeName byte = some type ↔ byte = typeByte type :=
  forall_byte (p := fun byte => typeName byte = some type ↔ byte = typeByte type)
    (by cases type <;> decide +kernel) byte

end Flags

section Writers

theorem length_bigUint64Bytes (value : Int) : (bigUint64Bytes value).length = 8 :=
  length_leBytes (by omega)

theorem ofLe_bigUint64Bytes {value : Int} (hlow : 0 ≤ value) (hhigh : value ≤ u64Max) :
    (ofLe (bigUint64Bytes value) : Int) = value := by
  have hmod : value % 2 ^ 64 = value := Int.emod_eq_of_lt hlow (by rw [u64Max] at hhigh; omega)
  rw [bigUint64Bytes, hmod, ofLe_leBytes (by rw [u64Max] at hhigh; omega)]
  omega

theorem writeKey_eq_ok {out value out' : List UInt8} {offset : Nat} :
    writeKey out offset value = .ok out' ↔
      value.length = keyBytes ∧ write out offset value = out' := by
  unfold writeKey
  simp only [throw_bind, ite_throw_eq_ok, pure_eq_ok, not_not]

theorem writeU64_eq_ok {out out' : List UInt8} {offset : Nat} {value : Int} :
    writeU64 out offset value = .ok out' ↔
      (0 ≤ value ∧ value ≤ u64Max) ∧ write out offset (bigUint64Bytes value) = out' := by
  unfold writeU64
  simp only [throw_bind, ite_throw_eq_ok, pure_eq_ok, not_or, not_lt, gt_iff_lt]

/-- The three bytes every payload starts with. -/
def headerOf (type : PayloadType) (flags : WireFlags) : List UInt8 :=
  [wireVersion, typeByte type, flagsToByte flags]

theorem length_headerOf (type : PayloadType) (flags : WireFlags) :
    (headerOf type flags).length = 3 := by
  simp only [headerOf, List.length_cons, List.length_nil]

theorem headerBytes_le_expectedLength (type : PayloadType) (flags : WireFlags) :
    headerBytes ≤ expectedLength type flags := by
  cases type <;> simp only [expectedLength, headerBytes] <;> omega

/-- A header written into a new buffer. -/
theorem writeHeader_eq_ok {type : PayloadType} {flags : WireFlags} {out : List UInt8} :
    writeHeader (newBuffer (expectedLength type flags)) type flags = .ok out ↔
      flags.feePayerSeparate = false ∧
        headerOf type flags ++ newBuffer (expectedLength type flags - headerBytes) = out := by
  rcases Nat.exists_eq_add_of_le (headerBytes_le_expectedLength type flags) with ⟨n, hn⟩
  have hzeros : newBuffer (headerBytes + n) = 0 :: 0 :: 0 :: newBuffer n := by
    rw [newBuffer, headerBytes, Nat.add_comm]
    rfl
  have hheader : write (write (write (newBuffer (headerBytes + n)) 0 [wireVersion]) 1
      [typeByte type]) 2 [flagsToByte flags] = headerOf type flags ++ newBuffer n := by
    rw [hzeros]
    rfl
  unfold writeHeader
  rw [hn, Nat.add_sub_cancel_left]
  simp only [throw_bind, ite_throw_eq_ok, pure_eq_ok, Bool.not_eq_true, hheader]

end Writers

section Layouts

/-- The blockhash of an intent that has one. -/
def blockhashBytes : Lifetime → List UInt8
  | .fresh blockhash _ => blockhash.bytes
  | .nonce => []

/-- The slot of an authorisation that names one. -/
def nonceRefBytes : Option NonceRef → List UInt8
  | some ref => UInt8.ofInt ref.index :: ref.value.bytes
  | none => []

/-- The amount of an authorisation that carries one. -/
def amountBytes : Option Int → List UInt8
  | some amount => bigUint64Bytes amount
  | none => []

def intentBytes (intent : Intent) (amount : Int) : List UInt8 :=
  headerOf .intent (flagsOf intent) ++ intent.merchant.bytes ++ intent.mint.bytes
    ++ bigUint64Bytes amount ++ [UInt8.ofInt intent.decimals] ++ blockhashBytes intent.lifetime

def staticIntentBytes (intent : Intent) : List UInt8 :=
  headerOf .staticIntent (flagsOf intent) ++ intent.merchant.bytes ++ intent.mint.bytes
    ++ [UInt8.ofInt intent.decimals]

def authBytes (auth : Auth) (flags : WireFlags) : List UInt8 :=
  headerOf .auth flags ++ auth.payer.bytes ++ nonceRefBytes auth.nonceRef
    ++ amountBytes auth.amount ++ auth.signature

def nonceReturnBytes (payload : NonceReturnPayload) : List UInt8 :=
  headerOf .nonceReturn noFlags ++ [UInt8.ofInt payload.nonceIndex]
    ++ payload.newNonceValue.bytes ++ payload.signature

end Layouts

section Encoders

/-- What `encodeIntent` accepts: a dynamic intent whose merchant pays the fee,
    with an amount of eight bytes and, if it is fresh, a blockhash of 32. -/
structure Encodable (intent : Intent) (amount : Int) : Prop where
  dynamic : intent.isStatic = false
  amount_eq : intent.amount = some amount
  amount_nonneg : 0 ≤ amount
  amount_le : amount ≤ u64Max
  feePayer_eq : intent.feePayer = intent.merchant
  blockhash_length : ∀ blockhash height, intent.lifetime = .fresh blockhash height →
    blockhash.bytes.length = keyBytes

theorem flagsOf_feePayerSeparate {intent : Intent} :
    (flagsOf intent).feePayerSeparate = false ↔ intent.feePayer = intent.merchant := by
  rw [flagsOf, decide_eq_false_iff_not, not_not]

/-- The next field of a buffer under construction. -/
theorem write_newBuffer {done : List UInt8} (xs : List UInt8) {offset : Nat} (n : Nat)
    (h : done.length = offset) :
    write (done ++ newBuffer (xs.length + n)) offset xs = done ++ xs ++ newBuffer n := by
  rw [newBuffer, write_zeros h, Nat.add_sub_cancel_left, newBuffer]

theorem writeAddress_newBuffer {done : List UInt8} {offset n : Nat} (address : Address)
    (h : done.length = offset) :
    writeAddress (done ++ newBuffer (32 + n)) offset address
      = done ++ address.bytes ++ newBuffer n := by
  have hwrite := write_newBuffer address.bytes n h
  rwa [address.length_eq] at hwrite

theorem writeU64_newBuffer {done : List UInt8} {offset n : Nat} (value : Int)
    (h : done.length = offset) :
    write (done ++ newBuffer (8 + n)) offset (bigUint64Bytes value)
      = done ++ bigUint64Bytes value ++ newBuffer n := by
  have hwrite := write_newBuffer (bigUint64Bytes value) n h
  rwa [length_bigUint64Bytes] at hwrite

theorem writeByte_newBuffer {done : List UInt8} {offset n : Nat} (value : Int)
    (h : done.length = offset) :
    writeByte (done ++ newBuffer (1 + n)) offset value
      = done ++ [UInt8.ofInt value] ++ newBuffer n := write_newBuffer [UInt8.ofInt value] n h

theorem write_key {done key : List UInt8} {offset n : Nat} (h : done.length = offset)
    (hkey : key.length = keyBytes) :
    write (done ++ newBuffer (keyBytes + n)) offset key = done ++ key ++ newBuffer n := by
  rw [← hkey, write_newBuffer key n h]

/-- The last field fills the buffer. -/
theorem write_last {done xs : List UInt8} {offset size : Nat} (h : done.length = offset)
    (hsize : xs.length = size) : write (done ++ newBuffer size) offset xs = done ++ xs := by
  have hwrite := write_newBuffer xs 0 h
  rwa [hsize, Nat.add_zero, show newBuffer 0 = [] from rfl, List.append_nil] at hwrite

/-- The merchant and the mint, with which both kinds of intent start. -/
theorem write_merchant_mint (type : PayloadType) (flags : WireFlags) (merchant mint : Address)
    (n : Nat) :
    writeAddress (writeAddress (headerOf type flags ++ newBuffer (64 + n)) 3 merchant) 35 mint
      = headerOf type flags ++ merchant.bytes ++ mint.bytes ++ newBuffer n := by
  rw [show 64 + n = 32 + (32 + n) by omega, writeAddress_newBuffer merchant (length_headerOf _ _),
    writeAddress_newBuffer mint]
  rw [List.length_append, length_headerOf, merchant.length_eq]

/-- The fields every dynamic intent has, written into its buffer. -/
theorem write_intent (flags : WireFlags) (merchant mint : Address) (amount decimals : Int)
    (n : Nat) :
    writeByte (write (writeAddress (writeAddress (headerOf .intent flags ++ newBuffer (73 + n)) 3
        merchant) 35 mint) 67 (bigUint64Bytes amount)) 75 decimals
      = headerOf .intent flags ++ merchant.bytes ++ mint.bytes ++ bigUint64Bytes amount
        ++ [UInt8.ofInt decimals] ++ newBuffer n := by
  have hkeys : (headerOf .intent flags ++ merchant.bytes ++ mint.bytes).length = 67 := by
    simp only [List.length_append, merchant.length_eq, mint.length_eq]
    rfl
  rw [show 73 + n = 64 + (8 + (1 + n)) by omega, write_merchant_mint, writeU64_newBuffer _ hkeys,
    writeByte_newBuffer]
  rw [List.length_append, hkeys, length_bigUint64Bytes]

/-- How much of an intent comes after its header, in a version where the
    merchant pays the fee. -/
theorem expectedLength_intent {intent : Intent} (h : intent.feePayer = intent.merchant) :
    expectedLength .intent (flagsOf intent) - headerBytes
      = 73 + if (flagsOf intent).lifetimeFresh then keyBytes else 0 := by
  rw [expectedLength, flagsOf_feePayerSeparate.mpr h, headerBytes]
  simp only [Bool.false_eq_true, if_false]
  omega

theorem intent_written {intent : Intent} (amount : Int) (h : intent.feePayer = intent.merchant)
    (hlifetime : intent.lifetime = .nonce) :
    writeByte (write (writeAddress (writeAddress (headerOf .intent (flagsOf intent)
        ++ newBuffer (expectedLength .intent (flagsOf intent) - headerBytes)) 3 intent.merchant) 35
        intent.mint) 67 (bigUint64Bytes amount)) 75 intent.decimals
      = intentBytes intent amount := by
  have hfresh : (flagsOf intent).lifetimeFresh = false := by rw [flagsOf, hlifetime]
  rw [expectedLength_intent h, write_intent, hfresh, intentBytes, hlifetime]
  rfl

theorem fresh_intent_written {intent : Intent} {blockhash : Blockhash} {height : Int}
    (amount : Int) (h : intent.feePayer = intent.merchant)
    (hlifetime : intent.lifetime = .fresh blockhash height)
    (hlength : blockhash.bytes.length = keyBytes) :
    write (writeByte (write (writeAddress (writeAddress (headerOf .intent (flagsOf intent)
        ++ newBuffer (expectedLength .intent (flagsOf intent) - headerBytes)) 3 intent.merchant) 35
        intent.mint) 67 (bigUint64Bytes amount)) 75 intent.decimals) 76 blockhash.bytes
      = intentBytes intent amount := by
  have hfresh : (flagsOf intent).lifetimeFresh = true := by rw [flagsOf, hlifetime]
  rw [expectedLength_intent h, write_intent, hfresh, if_pos rfl, write_last _ hlength, intentBytes,
    hlifetime, blockhashBytes]
  simp only [List.length_append, length_bigUint64Bytes, Address.length_eq]
  rfl

theorem encodeIntent_eq_ok {intent : Intent} {bytes : List UInt8} :
    encodeIntent intent = .ok bytes ↔
      ∃ amount, Encodable intent amount ∧ intentBytes intent amount = bytes := by
  unfold encodeIntent
  simp only [throw_bind, ite_throw_eq_ok, Bool.not_eq_true]
  rcases hamount : intent.amount with _ | amount
  · simp only [throw_eq_ok, and_false, false_iff]
    rintro ⟨amount, henc, _⟩
    cases hamount.symm.trans henc.amount_eq
  -- The amount that is encoded is the intent's own.
  have hown : (∃ amount, Encodable intent amount ∧ intentBytes intent amount = bytes) ↔
      Encodable intent amount ∧ intentBytes intent amount = bytes := by
    refine ⟨fun ⟨amount', h⟩ => ?_, fun h => ⟨amount, h⟩⟩
    cases hamount.symm.trans h.1.amount_eq
    exact h
  rw [hown]
  rcases hlifetime : intent.lifetime with _ | ⟨blockhash, height⟩
  · simp only [bind_eq_ok, writeHeader_eq_ok, writeU64_eq_ok, pure_eq_ok, and_assoc,
      exists_and_left, exists_eq_left', flagsOf_feePayerSeparate]
    refine ⟨fun ⟨hdynamic, hpayer, hlow, hhigh, hbytes⟩ => ?_, fun ⟨henc, hbytes⟩ => ?_⟩
    · rw [intent_written amount hpayer hlifetime] at hbytes
      refine ⟨⟨hdynamic, hamount, hlow, hhigh, hpayer, fun _ _ h => ?_⟩, hbytes⟩
      cases hlifetime.symm.trans h
    · refine ⟨henc.dynamic, henc.feePayer_eq, henc.amount_nonneg, henc.amount_le, ?_⟩
      rw [intent_written amount henc.feePayer_eq hlifetime, hbytes]
  · simp only [bind_eq_ok, writeHeader_eq_ok, writeU64_eq_ok, writeKey_eq_ok, and_assoc,
      exists_and_left, exists_eq_left', flagsOf_feePayerSeparate]
    refine ⟨fun ⟨hdynamic, hpayer, hlow, hhigh, hlength, hbytes⟩ => ?_, fun ⟨henc, hbytes⟩ => ?_⟩
    · rw [fresh_intent_written amount hpayer hlifetime hlength] at hbytes
      refine ⟨⟨hdynamic, hamount, hlow, hhigh, hpayer, fun _ _ h => ?_⟩, hbytes⟩
      cases hlifetime.symm.trans h
      exact hlength
    · have hlength := henc.blockhash_length _ _ hlifetime
      refine ⟨henc.dynamic, henc.feePayer_eq, henc.amount_nonneg, henc.amount_le, hlength, ?_⟩
      rw [fresh_intent_written amount henc.feePayer_eq hlifetime hlength, hbytes]

/-- What `encodeStaticIntent` accepts: a printed intent, without an amount and
    without a blockhash, whose merchant pays the fee. -/
structure StaticEncodable (intent : Intent) : Prop where
  printed : intent.isStatic = true
  amount_eq : intent.amount = none
  lifetime_eq : intent.lifetime = .nonce
  feePayer_eq : intent.feePayer = intent.merchant

theorem encodeStaticIntent_eq_ok {intent : Intent} {bytes : List UInt8} :
    encodeStaticIntent intent = .ok bytes ↔
      StaticEncodable intent ∧ staticIntentBytes intent = bytes := by
  have hwritten : writeByte (writeAddress (writeAddress (headerOf .staticIntent (flagsOf intent)
      ++ newBuffer (expectedLength .staticIntent (flagsOf intent) - headerBytes)) 3 intent.merchant)
      35 intent.mint) 67 intent.decimals = staticIntentBytes intent := by
    rw [show expectedLength .staticIntent (flagsOf intent) - headerBytes = 64 + 1 from rfl,
      write_merchant_mint, writeByte, write_last _ List.length_singleton, staticIntentBytes]
    simp only [List.length_append, Address.length_eq]
    rfl
  unfold encodeStaticIntent
  simp only [throw_bind, ite_throw_eq_ok, bind_eq_ok, writeHeader_eq_ok, pure_eq_ok, and_assoc,
    exists_and_left, exists_eq_left', flagsOf_feePayerSeparate, not_not, hwritten]
  exact ⟨fun ⟨h₁, h₂, h₃, h₄, h₅⟩ => ⟨⟨h₁, h₂, h₃, h₄⟩, h₅⟩,
    fun ⟨h, h₅⟩ => ⟨h.printed, h.amount_eq, h.lifetime_eq, h.feePayer_eq, h₅⟩⟩

/-- What `encodeNonceReturn` accepts: a slot of one byte, a value of 32 and a
    signature of 64. -/
structure ReturnEncodable (payload : NonceReturnPayload) : Prop where
  index_le : payload.nonceIndex ≤ 255
  value_length : payload.newNonceValue.bytes.length = keyBytes
  signature_length : payload.signature.length = signatureBytes

theorem encodeNonceReturn_eq_ok {payload : NonceReturnPayload} {bytes : List UInt8} :
    encodeNonceReturn payload = .ok bytes ↔
      ReturnEncodable payload ∧ nonceReturnBytes payload = bytes := by
  -- Each write goes where the one before it ended, and the buffer is filled.
  have hwritten (hvalue : payload.newNonceValue.bytes.length = keyBytes)
      (hsignature : payload.signature.length = signatureBytes) :
      write (write (writeByte (headerOf .nonceReturn noFlags
        ++ newBuffer (expectedLength .nonceReturn noFlags - headerBytes)) 3 payload.nonceIndex) 4
        payload.newNonceValue.bytes) 36 payload.signature = nonceReturnBytes payload := by
    rw [show expectedLength .nonceReturn noFlags - headerBytes = 1 + (keyBytes + signatureBytes)
      from rfl, writeByte_newBuffer _ (length_headerOf _ _), write_key _ hvalue,
      write_last _ hsignature, nonceReturnBytes]
    · rw [List.length_append, List.length_append, hvalue]
      rfl
    · rfl
  unfold encodeNonceReturn
  simp only [throw_bind, ite_throw_eq_ok, bind_eq_ok, writeHeader_eq_ok, writeKey_eq_ok, pure_eq_ok,
    and_assoc, exists_and_left, exists_eq_left', not_not, not_lt]
  refine ⟨fun ⟨hindex, hsignature, _, hvalue, hbytes⟩ => ?_, fun ⟨henc, hbytes⟩ => ?_⟩
  · rw [hwritten hvalue hsignature] at hbytes
    exact ⟨⟨hindex, hvalue, hsignature⟩, hbytes⟩
  · refine ⟨henc.index_le, henc.signature_length, rfl, henc.value_length, ?_⟩
    rw [hwritten henc.value_length henc.signature_length, hbytes]

/-- What `encodeAuth` accepts: a signature of 64 bytes, a slot and an amount
    exactly where the flags say, each of the width of its field. -/
@[mk_iff]
structure AuthEncodable (auth : Auth) (flags : WireFlags) : Prop where
  signature_length : auth.signature.length = signatureBytes
  fresh_eq : flags.lifetimeFresh = auth.nonceRef.isNone
  amountInAuth_eq : flags.amountInAuth = auth.amount.isSome
  feePayer_eq : flags.feePayerSeparate = false
  nonceRef_le : ∀ ref, auth.nonceRef = some ref →
    ref.index ≤ 255 ∧ ref.value.bytes.length = keyBytes
  amount_le : ∀ amount, auth.amount = some amount → 0 ≤ amount ∧ amount ≤ u64Max

/-- The slot of an authorisation, written behind its payer. -/
def writeNonceRef (out : List UInt8) : Option NonceRef → List UInt8
  | some ref => write (writeByte out 35 ref.index) 36 ref.value.bytes
  | none => out

/-- Where an authorisation goes on behind its slot. -/
def afterNonceRef : Option NonceRef → Nat
  | some _ => 36 + keyBytes
  | none => 35

/-- An authorisation written into its buffer. -/
def authWritten (auth : Auth) (flags : WireFlags) : List UInt8 :=
  let header := headerOf .auth flags ++ newBuffer (expectedLength .auth flags - headerBytes)
  let out := writeNonceRef (writeAddress header 3 auth.payer) auth.nonceRef
  let offset := afterNonceRef auth.nonceRef
  match auth.amount with
  | some amount => write (write out offset (bigUint64Bytes amount)) (offset + 8) auth.signature
  | none => write out offset auth.signature

theorem length_nonceRefBytes {auth : Auth} {flags : WireFlags} (h : AuthEncodable auth flags) :
    (nonceRefBytes auth.nonceRef).length = if flags.lifetimeFresh then 0 else 33 := by
  rw [h.fresh_eq]
  rcases href : auth.nonceRef with _ | ref
  · rfl
  · rw [nonceRefBytes, List.length_cons, (h.nonceRef_le ref href).2]
    rfl

theorem length_amountBytes {auth : Auth} {flags : WireFlags} (h : AuthEncodable auth flags) :
    (amountBytes auth.amount).length = if flags.amountInAuth then 8 else 0 := by
  rw [h.amountInAuth_eq]
  rcases auth.amount with _ | amount
  · rfl
  · exact length_bigUint64Bytes amount

theorem expectedLength_auth {auth : Auth} {flags : WireFlags} (h : AuthEncodable auth flags) :
    expectedLength .auth flags - headerBytes
      = 32 + ((nonceRefBytes auth.nonceRef).length + ((amountBytes auth.amount).length + 64)) := by
  rw [length_nonceRefBytes h, length_amountBytes h, expectedLength, headerBytes]
  omega

theorem writeNonceRef_newBuffer {auth : Auth} {flags : WireFlags} (h : AuthEncodable auth flags)
    {done : List UInt8} (n : Nat) (hdone : done.length = 35) :
    writeNonceRef (done ++ newBuffer ((nonceRefBytes auth.nonceRef).length + n)) auth.nonceRef
      = done ++ nonceRefBytes auth.nonceRef ++ newBuffer n := by
  rcases href : auth.nonceRef with _ | ref
  · simp only [writeNonceRef, nonceRefBytes, List.length_nil, Nat.zero_add, List.append_nil]
  · have hvalue := (h.nonceRef_le ref href).2
    rw [writeNonceRef, nonceRefBytes, List.length_cons, hvalue,
      show keyBytes + 1 + n = 1 + (keyBytes + n) by omega, writeByte_newBuffer _ hdone,
      write_key _ hvalue, List.append_assoc done, List.singleton_append]
    rw [List.length_append, hdone, List.length_singleton]

theorem authWritten_eq {auth : Auth} {flags : WireFlags} (h : AuthEncodable auth flags) :
    authWritten auth flags = authBytes auth flags := by
  -- Where the parts that are always there end, and where the reference ends.
  have hpayer : (headerOf .auth flags ++ auth.payer.bytes).length = 35 := by
    rw [List.length_append, length_headerOf, auth.payer.length_eq]
  have href : (headerOf .auth flags ++ auth.payer.bytes ++ nonceRefBytes auth.nonceRef).length
      = afterNonceRef auth.nonceRef := by
    rw [List.length_append, hpayer]
    rcases href : auth.nonceRef with _ | ref
    · rfl
    · rw [nonceRefBytes, List.length_cons, (h.nonceRef_le ref href).2]
      rfl
  simp only [authWritten, authBytes]
  rw [expectedLength_auth h, writeAddress_newBuffer _ (length_headerOf _ _),
    writeNonceRef_newBuffer h _ hpayer]
  rcases auth.amount with _ | amount
  · simp only [amountBytes, List.append_nil, List.length_nil, Nat.zero_add]
    exact write_last href h.signature_length
  · simp only [amountBytes, length_bigUint64Bytes]
    rw [writeU64_newBuffer amount href]
    refine write_last ?_ h.signature_length
    rw [List.length_append, href, length_bigUint64Bytes]

theorem encodeAuth_eq_ok {auth : Auth} {flags : WireFlags} {bytes : List UInt8} :
    encodeAuth auth flags = .ok bytes ↔
      AuthEncodable auth flags ∧ authBytes auth flags = bytes := by
  have hwritten : encodeAuth auth flags = .ok bytes ↔
      AuthEncodable auth flags ∧ authWritten auth flags = bytes := by
    unfold encodeAuth authWritten
    rw [authEncodable_iff]
    rcases href : auth.nonceRef with _ | ref <;> rcases hamount : auth.amount with _ | amount <;>
      simp only [throw_bind, ite_throw_eq_ok, bind_eq_ok, writeHeader_eq_ok, writeKey_eq_ok,
        writeU64_eq_ok, pure_eq_ok, and_assoc, exists_and_left, exists_eq_left', not_not, not_lt,
        pure_bind, writeNonceRef, afterNonceRef, Option.some.injEq, reduceCtorEq, false_implies,
        implies_true, true_and, and_true, forall_eq', gt_iff_lt]
  rw [hwritten]
  exact and_congr_right fun h => by rw [authWritten_eq h]

end Encoders

end Vadum
