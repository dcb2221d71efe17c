import Vadum.Core.Errors
import Vadum.Fixtures.Wire
import Vadum.Theory.Decoding

/-!
# The Codec and Its Reference

`Wire.Codec` against `Fixtures.Wire`, which was written apart from it. The two
are compared a check at a time. The header comes first, and there the reference
covers the codec: wherever `readHeader` fails, `check` fails with the same code.
Behind a header that passes, no read of the codec can leave the payload any
more, and what is left to compare is what the caller knows, the flags of the
intent or the record of the mint.

No error of a read outside the payload is among the errors compared, so a
decoder never ends in one. With the layouts of `Theory.Decoding` this gives the
other round trip: accepted bytes are the encoding of what comes out of them.

## Main definitions

* `SameCode`: An error of the codec and a rejection of the reference.
* `decodeAs`: An entry of the codec, but for the value.
* `checkContext`: A decoder's context, as the reference takes it.
* `intentFields`, `staticIntentFields`, `authFields`: A value's fields, as the
  reference takes them.

## Theorems

* `readHeader_covered`, `check_of_header`: The header.
* `decodeAs_agrees`: Every entry ends as the reference does.
* `codec_agrees`: The codec and its reference agree.
* `one_byte_form`: The round trip from accepted bytes.
-/

namespace Vadum

open Checks Bytes Fixtures

/-- One of our own errors, and the rejection with its code. -/
def SameCode (thrown : Thrown) (rejection : Rejection) : Prop :=
  ∃ error detail, thrown = .vadum error ∧ rejection = .reject error.code.text detail

/-- A decoder's context as the reference codec takes it. -/
def checkContext (ctx : DecodeContext) : CheckContext where
  mintCache := some fun key =>
    if h : key.length = 32 then
      (ctx.mintCache ⟨key, h⟩).map fun record => ⟨record.tokenProgram, record.decimals⟩
    else
      none
  intentFlags := ctx.intentFlags.map fun flags => (flagsToByte flags).toNat

/-- What a decoder makes of some bytes, but for the value. -/
def decodeAs (entry : Entry) (bytes : List UInt8) (ctx : DecodeContext) : Except Thrown Unit :=
  match entry with
  | .peekPayloadType => do
    let _ ← peekPayloadType bytes
  | .decodeIntent => do
    let _ ← decodeIntent bytes ctx
  | .decodeStaticIntent => do
    let _ ← decodeStaticIntent bytes ctx
  | .decodeAuth => do
    let _ ← decodeAuth bytes ctx
  | .decodeNonceReturn => do
    let _ ← decodeNonceReturn bytes

theorem same_code (error : VadumError) (detail : List (String × DetailValue)) :
    SameCode (.vadum error) (.reject error.code.text detail) := ⟨error, detail, rfl, rfl⟩

theorem find_type (byte : UInt8) :
    types.find? (fun name => decide (some (Fixtures.typeByte name) = some byte))
      = typeName byte := by
  have htypes : (fun name => decide (some (Fixtures.typeByte name) = some byte))
      = fun type => decide (typeByte type = byte) := by
    funext type
    cases type <;> simp only [Option.some.injEq] <;> rfl
  rw [htypes, typeName]
  rfl

theorem lifetimeFresh_iff {byte : UInt8} :
    (flagsFromByte byte).lifetimeFresh = true ↔ byte &&& Fixtures.Flag.lifetimeFresh ≠ 0 :=
  decide_eq_true_iff

theorem amountInAuth_iff {byte : UInt8} :
    (flagsFromByte byte).amountInAuth = true ↔ byte &&& Fixtures.Flag.amountInAuth ≠ 0 :=
  decide_eq_true_iff

/-- The two tables give a payload whose merchant pays the fee the same length. -/
theorem expectedLength_eq {type : PayloadType} {byte : UInt8}
    (h : ¬ byte &&& Vadum.Flag.feePayerSeparate ≠ 0) :
    Fixtures.expectedLength type byte = expectedLength type (flagsFromByte byte) := by
  have hseparate : (flagsFromByte byte).feePayerSeparate = false := decide_eq_false h
  cases type with
  | intent =>
      simp only [Fixtures.expectedLength, expectedLength, hseparate, lifetimeFresh_iff, keyBytes,
        Bool.false_eq_true, if_false, Nat.add_zero]
  | staticIntent => rfl
  | auth =>
      simp only [Fixtures.expectedLength, expectedLength, lifetimeFresh_iff, amountInAuth_iff]
      split_ifs <;> omega
  | nonceReturn => rfl

/-- The last check of a header is the one of the length. -/
theorem length_covered {α : Type} {type : PayloadType} {byte : UInt8} {bytes : List UInt8}
    {detail : List (String × DetailValue)} {x : Except Rejection α}
    (h : ¬ byte &&& Vadum.Flag.feePayerSeparate ≠ 0) :
    Checks.Covers SameCode
      (if bytes.length ≠ expectedLength type (flagsFromByte byte) then
          throw (vadumError .wireLengthMismatch detail)
        else pure (flagsFromByte byte))
      (if bytes.length ≠ Fixtures.expectedLength type byte then
          throw (.reject "WIRE_LENGTH_MISMATCH" [])
        else x) := by
  rw [expectedLength_eq h]
  exact .check Iff.rfl (same_code _ _) fun _ => .good _ _

theorem readHeader_covered {entry : Entry} {type : PayloadType} (h : entryType entry = some type)
    (bytes : List UInt8) (context : CheckContext) :
    Checks.Covers SameCode (readHeader bytes type) (check entry bytes context) := by
  unfold readHeader readType check
  simp only [throw_bind, ite_throw_bind]
  refine .check Iff.rfl (same_code _ _) fun hlong => ?_
  -- The length is checked first on both sides, so below there are three bytes.
  rcases bytes with _ | ⟨version, _ | ⟨typeByte, _ | ⟨flagsByte, rest⟩⟩⟩
  · exact absurd (Nat.succ_pos 2) hlong
  · exact absurd (Nat.le_of_ble_eq_true rfl) hlong
  · exact absurd (Nat.le_of_ble_eq_true rfl) hlong
  simp only [byteAt, List.getElem?_cons_zero, List.getElem?_cons_succ, ok_bind, ite_throw_bind,
    List.getD_cons_zero, List.getD_cons_succ]
  refine .check (by rw [ne_eq, ne_eq, Option.some.injEq]; rfl) (same_code _ _) fun _ => ?_
  rw [find_type]
  rcases typeName typeByte with _ | name
  · exact .wrong (same_code _ _)
  simp only [h, ite_throw_bind]
  refine .check Iff.rfl (same_code _ _) fun hname => ?_
  rw [not_not] at hname
  subst hname
  simp only [pure_bind]
  refine .check Iff.rfl (same_code _ _) fun _ => ?_
  refine .check Iff.rfl (same_code _ _) fun hsep => ?_
  refine .check ?_ (same_code _ _) fun _ => ?_
  · cases name <;> exact Iff.rfl
  -- A static intent alone has flags it must and must not carry.
  by_cases hstatic : name = .staticIntent
  · subst hstatic
    rw [if_pos rfl]
    by_cases hfresh : (flagsFromByte flagsByte).lifetimeFresh = true
    · rw [if_pos hfresh, if_pos ⟨rfl, .inl (lifetimeFresh_iff.mp hfresh)⟩]
      exact .wrong (same_code _ _)
    rw [if_neg hfresh]
    by_cases hamount : (flagsFromByte flagsByte).amountInAuth = true
    · have hpass : ¬ (PayloadType.staticIntent = .staticIntent ∧
          (flagsByte &&& Fixtures.Flag.lifetimeFresh ≠ 0 ∨
            flagsByte &&& Fixtures.Flag.amountInAuth = 0)) := by
        rintro ⟨_, h | h⟩
        · exact hfresh (lifetimeFresh_iff.mpr h)
        · exact amountInAuth_iff.mp hamount h
      rw [if_neg (not_not.mpr hamount), if_neg hpass]
      exact length_covered hsep
    · rw [if_pos hamount, if_pos ⟨rfl, .inr (not_not.mp (mt amountInAuth_iff.mpr hamount))⟩]
      exact .wrong (same_code _ _)
  · rw [if_neg hstatic, if_neg (mt And.left hstatic)]
    exact length_covered hsep

/-- Steps 10 and 11: what the caller knows. -/
def checkCaller (entry : Entry) (type : PayloadType) (flags : UInt8) (bytes : List UInt8)
    (context : CheckContext) : Except Rejection Unit := do
  if type = .auth then
    let some intentFlags := context.intentFlags
      | throw (.error [.text "decodeAuth needs the answered intent flags"])
    if flags.toNat ≠ intentFlags then throw (.reject "WIRE_FLAGS_MISMATCH" [])
  if type = .intent ∨ type = .staticIntent then
    let some mintCache := context.mintCache
      | throw (.error [.text entry.text, .text " needs a mint cache"])
    let some cached := mintCache (slice bytes 35 32)
      | throw (.reject "MINT_UNKNOWN" [])
    let decimals := bytes[if type = .intent then 75 else 67]?
    if decimals.map (fun byte => (byte.toNat : Int)) ≠ some cached.decimals then
      throw (.reject "MINT_DECIMALS_MISMATCH" [])
    if decide (flags &&& Fixtures.Flag.token2022 ≠ 0)
        ≠ decide (cached.tokenProgram = .token2022) then
      throw (.reject "MINT_TOKEN_PROGRAM_MISMATCH" [])

/-- Behind a header that passes, only what the caller knows is left to check. -/
theorem check_of_header {entry : Entry} {type : PayloadType} (hentry : entryType entry = some type)
    {bytes : List UInt8} {flags : WireFlags} (h : readHeader bytes type = .ok flags)
    (context : CheckContext) :
    check entry bytes context = checkCaller entry type (flagsToByte flags) bytes context := by
  rcases readHeader_eq_ok.mp h with ⟨hlegal, hlength, hheader⟩
  have hpass := pass_of_legal hlegal
  -- The header is written back in front of what is left, and each check of it passes.
  have hbytes : bytes = wireVersion :: typeByte type :: flagsToByte flags :: bytes.drop 3 := by
    have h := List.take_append_drop 3 bytes
    rw [show bytes.take 3 = headerOf type flags from hheader] at h
    exact h.symm
  have hname : typeName (typeByte type) = some type := typeName_eq_some.mpr rfl
  have hseparate : ¬ flagsToByte flags &&& Vadum.Flag.feePayerSeparate ≠ 0 :=
    not_not.mpr hpass.2.1
  have hforbidden : ¬ forbiddenFlags type (flagsToByte flags) ≠ 0 := not_not.mpr hpass.2.2.1
  have hstatic : ¬ (type = .staticIntent ∧ (flagsToByte flags &&& Fixtures.Flag.lifetimeFresh ≠ 0 ∨
      flagsToByte flags &&& Fixtures.Flag.amountInAuth = 0)) := by
    rintro ⟨htype, h | h⟩
    · cases (hpass.2.2.2 htype).1.symm.trans (lifetimeFresh_iff.mpr h)
    · exact amountInAuth_iff.mp (hpass.2.2.2 htype).2 h
  have hlast : ¬ bytes.length ≠ Fixtures.expectedLength type (flagsToByte flags) := by
    rw [expectedLength_eq hseparate, flagsFromByte_flagsToByte]
    exact not_not.mpr hlength
  have hlong : ¬ bytes.length < 3 := by
    have := headerBytes_le_expectedLength type flags
    rw [headerBytes] at this
    omega
  unfold check
  generalize bytes.drop 3 = rest at hbytes
  subst hbytes
  simp only [throw_bind, List.getElem?_cons_zero, List.getElem?_cons_succ, List.getD_cons_zero,
    List.getD_cons_succ, find_type, hname, hentry]
  have hversion : ¬ some wireVersion ≠ some Fixtures.wireVersion := not_not.mpr rfl
  have hreserved : ¬ flagsToByte flags &&& reservedFlags ≠ 0 := not_not.mpr hpass.1
  have hseparate' : ¬ flagsToByte flags &&& Fixtures.Flag.feePayerSeparate ≠ 0 := hseparate
  have hsame : ¬ type ≠ type := not_not.mpr rfl
  rw [if_neg hlong, if_neg hversion, if_neg hsame, if_neg hreserved, if_neg hseparate']
  refine (if_neg ?_).trans ?_
  · cases type <;> exact hforbidden
  rw [if_neg hstatic, if_neg hlast]
  rfl

section Reads

theorem addressAt_of_le {bytes : List UInt8} {offset : Nat} (h : offset + keyBytes ≤ bytes.length) :
    addressAt bytes offset = .ok ⟨slice bytes offset keyBytes, length_slice h⟩ := dif_pos h

theorem fieldAt_of_le {bytes : List UInt8} {offset size : Nat} (h : offset + size ≤ bytes.length) :
    fieldAt bytes offset size = .ok (slice bytes offset size) := by
  rw [fieldAt, field_of_le h]

theorem base58At_of_le {bytes : List UInt8} {offset : Nat} (h : offset + keyBytes ≤ bytes.length) :
    base58At bytes offset = .ok (slice bytes offset keyBytes) := fieldAt_of_le h

theorem u64At_of_le {bytes : List UInt8} {offset : Nat} (h : offset + 8 ≤ bytes.length) :
    u64At bytes offset = .ok (ofLe (slice bytes offset 8)) := by
  rw [u64At, fieldAt_of_le h]
  rfl

theorem byteAt_of_lt {bytes : List UInt8} {offset : Nat} (h : offset < bytes.length) :
    byteAt bytes offset = .ok bytes[offset] := by
  rw [byteAt, List.getElem?_eq_getElem h]

end Reads

/-- Step 11, on both kinds of intent. -/
theorem checkAgainstCache_agrees {entry : Entry} {type : PayloadType} {bytes : List UInt8}
    {ctx : DecodeContext} {flags : WireFlags} {offset : Nat}
    (htype : type = .intent ∧ offset = 75 ∨ type = .staticIntent ∧ offset = 67)
    (hmint : 35 + keyBytes ≤ bytes.length) (hdecimals : offset < bytes.length) :
    Agree SameCode
      (checkAgainstCache ctx ⟨slice bytes 35 keyBytes, length_slice hmint⟩ bytes[offset].toNat
        flags)
      (checkCaller entry type (flagsToByte flags) bytes (checkContext ctx)) := by
  have hauth : type ≠ .auth := by
    rcases htype with ⟨rfl, _⟩ | ⟨rfl, _⟩ <;> decide
  have hintent : type = .intent ∨ type = .staticIntent := htype.imp And.left And.left
  have hoffset : (if type = .intent then 75 else 67) = offset := by
    rcases htype with ⟨rfl, rfl⟩ | ⟨rfl, rfl⟩ <;> rfl
  have hkey : (slice bytes 35 32).length = 32 := length_slice hmint
  have hflag : decide (flagsToByte flags &&& Fixtures.Flag.token2022 ≠ 0) = flags.token2022 :=
    congrArg WireFlags.token2022 (flagsFromByte_flagsToByte flags)
  unfold checkAgainstCache checkCaller
  rw [if_neg hauth, if_pos hintent, hoffset, List.getElem?_eq_getElem hdecimals, hflag]
  simp only [checkContext, keyBytes]
  rw [dif_pos hkey]
  rcases ctx.mintCache ⟨slice bytes 35 32, hkey⟩ with _ | record
  · exact .wrong (same_code _ _)
  simp only [Option.map_some, throw_bind]
  refine .check (by rw [ne_eq, ne_eq, Option.some.injEq, eq_comm]) (same_code _ _) fun _ => ?_
  refine .check ?_ (same_code _ _) fun _ => .good _ _
  -- The program in the cache and the flag name one another.
  cases record.tokenProgram <;> cases flags.token2022 <;>
    simp only [Bool.false_eq_true, if_true, if_false, decide_true, reduceCtorEq, decide_false,
      ne_eq, not_true_eq_false, not_false_eq_true]

theorem decodeIntent_agrees (bytes : List UInt8) (ctx : DecodeContext) :
    Agree SameCode (decodeIntent bytes ctx) (check .decodeIntent bytes (checkContext ctx)) := by
  unfold decodeIntent
  refine .bind (readHeader_covered rfl bytes _) fun flags h => ?_
  rw [check_of_header rfl h]
  rcases readHeader_eq_ok.mp h with ⟨hlegal, hlength, _⟩
  simp only [expectedLength, hlegal.1, Bool.false_eq_true, if_false, Nat.add_zero] at hlength
  -- The length of the header covers every field, so no read past it can fail.
  have hmerchant : 3 + keyBytes ≤ bytes.length := by rw [keyBytes]; omega
  have hmint : 35 + keyBytes ≤ bytes.length := by rw [keyBytes]; omega
  have hamount : 67 + 8 ≤ bytes.length := by omega
  have hdecimals : 75 < bytes.length := by omega
  rw [addressAt_of_le hmerchant, ok_bind, addressAt_of_le hmint, ok_bind, u64At_of_le hamount,
    ok_bind, byteAt_of_lt hdecimals, ok_bind]
  refine (checkAgainstCache_agrees (.inl ⟨rfl, rfl⟩) hmint hdecimals).andThen fun program => ?_
  by_cases hfresh : flags.lifetimeFresh = true
  · rw [if_pos hfresh] at hlength
    rw [if_pos hfresh, base58At_of_le (Nat.le_of_eq hlength.symm)]
    exact ⟨_, rfl⟩
  · rw [if_neg hfresh]
    exact ⟨_, rfl⟩

theorem decodeStaticIntent_agrees (bytes : List UInt8) (ctx : DecodeContext) :
    Agree SameCode (decodeStaticIntent bytes ctx)
      (check .decodeStaticIntent bytes (checkContext ctx)) := by
  unfold decodeStaticIntent
  refine .bind (readHeader_covered rfl bytes _) fun flags h => ?_
  rw [check_of_header rfl h]
  have hlength : bytes.length = 68 := (readHeader_eq_ok.mp h).2.1
  have hmerchant : 3 + keyBytes ≤ bytes.length := by rw [keyBytes]; omega
  have hmint : 35 + keyBytes ≤ bytes.length := by rw [keyBytes]; omega
  have hdecimals : 67 < bytes.length := by omega
  rw [addressAt_of_le hmerchant, ok_bind, addressAt_of_le hmint, ok_bind, byteAt_of_lt hdecimals,
    ok_bind]
  exact (checkAgainstCache_agrees (.inr ⟨rfl, rfl⟩) hmint hdecimals).andThen fun _ => ⟨_, rfl⟩

theorem decodeNonceReturn_agrees (bytes : List UInt8) (ctx : DecodeContext) :
    Agree SameCode (decodeNonceReturn bytes)
      (check .decodeNonceReturn bytes (checkContext ctx)) := by
  unfold decodeNonceReturn
  refine .bind (readHeader_covered rfl bytes _) fun flags h => ?_
  rw [check_of_header rfl h]
  have hlength : bytes.length = 100 := (readHeader_eq_ok.mp h).2.1
  have hindex : 3 < bytes.length := by omega
  have hvalue : 4 + keyBytes ≤ bytes.length := by rw [keyBytes]; omega
  have hsignature : 36 + signatureBytes ≤ bytes.length := by rw [signatureBytes]; omega
  rw [byteAt_of_lt hindex, ok_bind, base58At_of_le hvalue, ok_bind, fieldAt_of_le hsignature]
  exact .good _ _

/-- Behind the flags, nothing is left of an authorisation that could fail. -/
theorem readAuth_ok {bytes : List UInt8} {flags : WireFlags} (payer : Address)
    (hlength : bytes.length = expectedLength .auth flags) :
    ∃ auth, (do
      let (nonceRef, offset) ← if flags.lifetimeFresh then pure (none, 35)
        else do
          let index := (← byteAt bytes 35).toNat
          let value ← base58At bytes 36
          pure (some { index, value := ⟨value⟩ }, 35 + 1 + keyBytes)
      let (amount, offset) ← if flags.amountInAuth then do
          pure (some (← u64At bytes offset), offset + 8)
        else pure (none, offset)
      let signature ← fieldAt bytes offset signatureBytes
      pure { payer, nonceRef, amount, signature } : Except Thrown Auth) = .ok auth := by
  rw [expectedLength] at hlength
  -- The amount and the signature are read wherever the reference ended.
  have hamount {offset : Nat} {nonceRef : Option NonceRef}
      (h : offset + (if flags.amountInAuth then 8 else 0) + signatureBytes ≤ bytes.length) :
      ∃ auth, (do
        let (amount, offset) ← if flags.amountInAuth then do
            pure (some (← u64At bytes offset), offset + 8)
          else pure (none, offset)
        let signature ← fieldAt bytes offset signatureBytes
        pure { payer, nonceRef, amount, signature } : Except Thrown Auth) = .ok auth := by
    by_cases hin : flags.amountInAuth = true
    · rw [if_pos hin] at h ⊢
      rw [u64At_of_le (by omega), ok_bind, pure_bind]
      exact ⟨_, congrArg (· >>= _) (fieldAt_of_le h)⟩
    · rw [if_neg hin] at h ⊢
      rw [pure_bind]
      exact ⟨_, congrArg (· >>= _) (fieldAt_of_le h)⟩
  by_cases hfresh : flags.lifetimeFresh = true
  · rw [if_pos hfresh] at hlength ⊢
    rw [pure_bind]
    exact hamount (by rw [signatureBytes]; omega)
  · rw [if_neg hfresh] at hlength ⊢
    rw [byteAt_of_lt (by omega), ok_bind, base58At_of_le (by rw [keyBytes]; omega), ok_bind,
      pure_bind]
    exact hamount (by rw [keyBytes, signatureBytes]; omega)

theorem decodeAuth_agrees (bytes : List UInt8) {ctx : DecodeContext} {intentFlags : WireFlags}
    (hctx : ctx.intentFlags = some intentFlags) :
    Agree SameCode (decodeAuth bytes ctx) (check .decodeAuth bytes (checkContext ctx)) := by
  unfold decodeAuth
  refine .bind (readHeader_covered rfl bytes _) fun flags h => ?_
  rw [check_of_header rfl h]
  rcases readHeader_eq_ok.mp h with ⟨hlegal, hlength, hheader⟩
  have hflags : 2 < bytes.length := by
    rw [hlength, expectedLength]
    omega
  have hpayer : 3 + keyBytes ≤ bytes.length := by
    rw [hlength, expectedLength, keyBytes]
    omega
  -- The third byte is the flags', which the caller's flags are compared with.
  have hbyte : bytes[2] = flagsToByte flags := by
    have h₂ := (header_eq.mpr hheader).2.2
    rw [slice, List.drop_eq_getElem_cons hflags] at h₂
    exact (List.cons.inj h₂).1
  have hauth : ¬ (PayloadType.auth = .intent ∨ PayloadType.auth = .staticIntent) := by decide
  unfold checkCaller
  simp only [checkContext, hctx, Option.map_some, throw_bind, if_true, hauth, if_false]
  rw [byteAt_of_lt hflags, ok_bind, hbyte, addressAt_of_le hpayer]
  refine .check ?_ (same_code _ _) fun _ => ?_
  · rw [not_iff_not, eq_comm, UInt8.toNat_inj]
  · rcases readAuth_ok ⟨slice bytes 3 keyBytes, length_slice hpayer⟩ hlength with ⟨auth, hread⟩
    rw [ok_bind, hread]
    exact .good _ _

theorem peekPayloadType_agrees (bytes : List UInt8) (context : CheckContext) :
    Agree SameCode (peekPayloadType bytes) (check .peekPayloadType bytes context) := by
  unfold peekPayloadType readType check
  simp only [throw_bind]
  refine .check Iff.rfl (same_code _ _) fun hlong => ?_
  rcases bytes with _ | ⟨version, _ | ⟨typeByte, _ | ⟨flagsByte, rest⟩⟩⟩
  · exact absurd (Nat.succ_pos 2) hlong
  · exact absurd (Nat.le_of_ble_eq_true rfl) hlong
  · exact absurd (Nat.le_of_ble_eq_true rfl) hlong
  simp only [byteAt, List.getElem?_cons_zero, List.getElem?_cons_succ, ok_bind]
  refine .check (by rw [ne_eq, ne_eq, Option.some.injEq]; rfl) (same_code _ _) fun _ => ?_
  rw [find_type]
  rcases typeName typeByte with _ | name
  · exact .wrong (same_code _ _)
  · exact .good _ _

/-- Every entry ends as the reference check does, and with the same code. -/
theorem decodeAs_agrees (entry : Entry) (bytes : List UInt8) (ctx : DecodeContext)
    (h : entry = .decodeAuth → ctx.intentFlags ≠ none) :
    Agree SameCode (decodeAs entry bytes ctx) (check entry bytes (checkContext ctx)) := by
  cases entry with
  | peekPayloadType => exact (peekPayloadType_agrees bytes _).andThen fun _ => ⟨_, rfl⟩
  | decodeIntent => exact (decodeIntent_agrees bytes ctx).andThen fun _ => ⟨_, rfl⟩
  | decodeStaticIntent => exact (decodeStaticIntent_agrees bytes ctx).andThen fun _ => ⟨_, rfl⟩
  | decodeAuth =>
      rcases Option.ne_none_iff_exists'.mp (h rfl) with ⟨flags, hflags⟩
      exact (decodeAuth_agrees bytes hflags).andThen fun _ => ⟨_, rfl⟩
  | decodeNonceReturn => exact (decodeNonceReturn_agrees bytes ctx).andThen fun _ => ⟨_, rfl⟩

section Encoders

def blockhashOf : Lifetime → Option Blockhash
  | .fresh blockhash _ => some blockhash
  | .nonce => none

/-- The fields of an intent, as the reference encoder takes them. -/
def intentFields (intent : Intent) (amount : Int) : IntentFields where
  flags := flagsToByte (flagsOf intent)
  merchant := intent.merchant
  mint := intent.mint
  amount := amount
  decimals := intent.decimals
  blockhash := blockhashOf intent.lifetime

def staticIntentFields (intent : Intent) : StaticIntentFields where
  flags := flagsToByte (flagsOf intent)
  merchant := intent.merchant
  mint := intent.mint
  decimals := intent.decimals

def authFields (auth : Auth) (flags : WireFlags) : AuthFields where
  flags := flagsToByte flags
  payer := auth.payer
  nonce := auth.nonceRef
  amount := auth.amount
  signature := auth.signature

theorem base58Bytes32_of_length {value : List UInt8} (h : value.length = keyBytes) :
    base58Bytes32 value = .ok value := by
  rw [base58Bytes32]
  exact if_neg (not_not.mpr h)

theorem encodeIntent_refines {intent : Intent} {bytes : List UInt8}
    (h : encodeIntent intent = .ok bytes) : ∃ amount, intent.amount = some amount ∧
      Fixtures.encodeIntent (intentFields intent amount) = .ok bytes := by
  rcases encodeIntent_eq_ok.mp h with ⟨amount, henc, hbytes⟩
  refine ⟨amount, henc.amount_eq, ?_⟩
  rw [← hbytes, intentBytes, Fixtures.encodeIntent]
  rcases hkind : intent.lifetime with _ | ⟨blockhash, height⟩
  · simp only [intentFields, hkind, blockhashOf]
    rfl
  · simp only [intentFields, hkind, blockhashOf,
      base58Bytes32_of_length (henc.blockhash_length _ _ hkind)]
    rfl

theorem encodeAuth_refines {auth : Auth} {flags : WireFlags} {bytes : List UInt8}
    (h : encodeAuth auth flags = .ok bytes) :
    Fixtures.encodeAuth (authFields auth flags) = .ok bytes := by
  rcases encodeAuth_eq_ok.mp h with ⟨henc, hbytes⟩
  rw [← hbytes, authBytes, Fixtures.encodeAuth]
  rcases href : auth.nonceRef with _ | ref
  · rcases hamount : auth.amount with _ | amount <;> simp only [authFields, href, hamount] <;> rfl
  · rcases hamount : auth.amount with _ | amount <;>
      simp only [authFields, href, hamount,
        base58Bytes32_of_length (henc.nonceRef_le ref href).2] <;>
      rfl

theorem encodeNonceReturn_refines {payload : NonceReturnPayload} {bytes : List UInt8}
    (h : encodeNonceReturn payload = .ok bytes) :
    Fixtures.encodeNonceReturn payload.nonceIndex payload.newNonceValue payload.signature
      = .ok bytes := by
  rcases encodeNonceReturn_eq_ok.mp h with ⟨henc, hbytes⟩
  rw [← hbytes, nonceReturnBytes, Fixtures.encodeNonceReturn,
    base58Bytes32_of_length henc.value_length]
  rfl

end Encoders

/-- The codec and its reference agree. Every entry accepts the same bytes, in
    every context that has what the entry needs, and refuses the others with the
    same code, the one of the first step that fails. What an encoder writes is
    what the reference encoder writes for the same fields. -/
theorem codec_agrees :
    (∀ entry bytes ctx, (entry = .decodeAuth → ctx.intentFlags ≠ none) →
      Agree SameCode (decodeAs entry bytes ctx) (check entry bytes (checkContext ctx))) ∧
    (∀ intent bytes, encodeIntent intent = .ok bytes → ∃ amount, intent.amount = some amount ∧
      Fixtures.encodeIntent (intentFields intent amount) = .ok bytes) ∧
    (∀ intent bytes, encodeStaticIntent intent = .ok bytes →
      Fixtures.encodeStaticIntent (staticIntentFields intent) = bytes) ∧
    (∀ auth flags bytes, encodeAuth auth flags = .ok bytes →
      Fixtures.encodeAuth (authFields auth flags) = .ok bytes) ∧
    ∀ payload bytes, encodeNonceReturn payload = .ok bytes →
      Fixtures.encodeNonceReturn payload.nonceIndex payload.newNonceValue payload.signature
        = .ok bytes :=
  ⟨decodeAs_agrees, fun _ _ => encodeIntent_refines,
    fun _ _ h => (encodeStaticIntent_eq_ok.mp h).2, fun _ _ _ => encodeAuth_refines,
    fun _ _ => encodeNonceReturn_refines⟩

/-- Both codecs make the same bytes of a request and of its answer, and take the answer
    for what it is. -/
theorem codec_agrees_testPayment :
    encodeIntent testIntent = .ok (intentBytes testIntent 10) ∧
    Fixtures.encodeIntent (intentFields testIntent 10) = .ok (intentBytes testIntent 10) ∧
    encodeAuth (testPayment 0).auth noFlags = .ok (authBytes (testPayment 0).auth noFlags) ∧
    Fixtures.encodeAuth (authFields (testPayment 0).auth noFlags)
      = .ok (authBytes (testPayment 0).auth noFlags) ∧
    decodeAuth (authBytes (testPayment 0).auth noFlags) testContext = .ok (testPayment 0).auth ∧
    Agree SameCode (decodeAs .decodeAuth (authBytes (testPayment 0).auth noFlags) testContext)
      (check .decodeAuth (authBytes (testPayment 0).auth noFlags) (checkContext testContext)) := by
  have hintent : encodeIntent testIntent = .ok (intentBytes testIntent 10) :=
    encodeIntent_eq_ok.mpr ⟨10, encodable_testIntent, rfl⟩
  have hauth : encodeAuth (testPayment 0).auth noFlags
      = .ok (authBytes (testPayment 0).auth noFlags) := by decide +kernel
  rcases codec_agrees.2.1 testIntent _ hintent with ⟨amount, hamount, hreference⟩
  cases hamount
  exact ⟨hintent, hreference, hauth, codec_agrees.2.2.2.1 _ _ _ hauth, by decide +kernel,
    codec_agrees.1 .decodeAuth _ testContext fun _ h => by cases h⟩

/-- A decoder refuses with an error of our own. -/
theorem decodeAs_error {entry : Entry} {bytes : List UInt8} {ctx : DecodeContext} {thrown : Thrown}
    (h : decodeAs entry bytes ctx = .error thrown) : ∃ error, thrown = .vadum error := by
  by_cases hctx : entry = .decodeAuth → ctx.intentFlags ≠ none
  · rcases (decodeAs_agrees entry bytes ctx hctx).covers thrown h with ⟨_, _, error, _, herror, _⟩
    exact ⟨error, herror⟩
  · rw [Classical.not_imp, not_not] at hctx
    rcases hctx with ⟨rfl, hnone⟩
    rw [decodeAs, decodeAuth, hnone] at h
    rcases hheader : readHeader bytes .auth with e | flags
    · rw [hheader] at h
      cases h
      rcases @readHeader_covered .decodeAuth _ rfl bytes (checkContext ctx) thrown hheader
        with ⟨_, _, error, _, herror, _⟩
      exact ⟨error, herror⟩
    · rw [hheader] at h
      cases h
      exact ⟨_, rfl⟩

/-- A payload has one byte form. Bytes that a decoder accepts are what the
    encoder makes of the value that comes out of them, so none of them is
    ignored; and no decoder, whatever it is given, reads outside the payload. -/
theorem one_byte_form :
    (∀ bytes ctx intent, decodeIntent bytes ctx = .ok intent → encodeIntent intent = .ok bytes) ∧
    (∀ bytes ctx intent, decodeStaticIntent bytes ctx = .ok intent →
      encodeStaticIntent intent = .ok bytes) ∧
    (∀ bytes ctx auth, decodeAuth bytes ctx = .ok auth →
      ∃ flags, ctx.intentFlags = some flags ∧ encodeAuth auth flags = .ok bytes) ∧
    (∀ bytes payload, decodeNonceReturn bytes = .ok payload →
      encodeNonceReturn payload = .ok bytes) ∧
    ∀ entry bytes ctx, decodeAs entry bytes ctx ≠ .error outside := by
  refine ⟨fun bytes ctx intent h => ?_, fun bytes ctx intent h => ?_, fun bytes ctx auth h => ?_,
    fun bytes payload h => ?_, fun entry bytes ctx h => ?_⟩
  · rcases decodeIntent_eq_ok.mp h with ⟨amount, henc, _, _, hbytes⟩
    exact encodeIntent_eq_ok.mpr ⟨amount, henc, hbytes⟩
  · rcases decodeStaticIntent_eq_ok.mp h with ⟨henc, _, hbytes⟩
    exact encodeStaticIntent_eq_ok.mpr ⟨henc, hbytes⟩
  · rcases decodeAuth_eq_ok.mp h with ⟨flags, hflags, hauth⟩
    exact ⟨flags, hflags, encodeAuth_eq_ok.mpr hauth⟩
  · exact encodeNonceReturn_eq_ok.mpr (decodeNonceReturn_eq_ok.mp h)
  · rcases decodeAs_error h with ⟨error, herror⟩
    cases herror

/-- An accepted request is the encoding of what was read from it. -/
theorem one_byte_form_testIntent : encodeIntent testIntent = .ok (intentBytes testIntent 10) :=
  one_byte_form.1 _ testContext testIntent (decodeIntent_eq_ok.mpr
    ⟨10, encodable_testIntent, ⟨by decide, by decide, testRecord, rfl, rfl, rfl⟩, rfl, rfl⟩)

end Vadum
