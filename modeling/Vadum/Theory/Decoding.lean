import Vadum.Client.FakeRpc
import Vadum.Theory.Encoding

/-!
# Decoding a Payload

What the decoders of `Wire.Codec` read. A decoder checks the header, reads
fields at offsets, some of them running, and gives up at the first check that
fails. The bytes it accepts are exactly the layouts of the values it returns:
one equivalence for each type, with what the encoder accepts on its right-hand
side.

The round trip from a value and back is read off those equivalences.

## Main definitions

* `Legal`: The flags a type allows.
* `Cached`: The caller's cache agrees with an intent.
* `Lifetime.received`: A lifetime as it arrives.

## Theorems

* `readHeader_eq_ok`: The headers that pass.
* `decodeIntent_eq_ok`, `decodeStaticIntent_eq_ok`, `decodeAuth_eq_ok`,
  `decodeNonceReturn_eq_ok`: What a decoder accepts, and what it returns.
* `decoding_undoes_encoding`: The round trip from a value.
-/

namespace Vadum

open Checks Bytes

section Readers

theorem fieldAt_eq_ok {bytes field : List UInt8} {offset size : Nat} :
    fieldAt bytes offset size = .ok field ↔
      offset + size ≤ bytes.length ∧ slice bytes offset size = field := by
  unfold fieldAt Bytes.field
  by_cases h : offset + size ≤ bytes.length
  · rw [if_pos h]
    simp only [Except.ok.injEq, h, true_and]
  · rw [if_neg h]
    simp only [reduceCtorEq, h, false_and]

theorem byteAt_eq_ok {bytes : List UInt8} {offset : Nat} {byte : UInt8} :
    byteAt bytes offset = .ok byte ↔
      offset + 1 ≤ bytes.length ∧ slice bytes offset 1 = [byte] := by
  have hslice (h : offset < bytes.length) : slice bytes offset 1 = [bytes[offset]] := by
    rw [slice, List.drop_eq_getElem_cons h]
    rfl
  unfold byteAt
  by_cases h : offset < bytes.length
  · rw [List.getElem?_eq_getElem h, hslice h]
    simp only [Except.ok.injEq, List.cons.injEq, and_true, Nat.succ_le_of_lt h, true_and]
  · rw [List.getElem?_eq_none (Nat.le_of_not_lt h)]
    simp only [reduceCtorEq, h, Nat.succ_le_iff, false_and]

theorem addressAt_eq_ok {bytes : List UInt8} {offset : Nat} {address : Address} :
    addressAt bytes offset = .ok address ↔
      offset + keyBytes ≤ bytes.length ∧ slice bytes offset keyBytes = address.bytes := by
  unfold addressAt
  by_cases h : offset + keyBytes ≤ bytes.length
  · rcases address with ⟨key, hkey⟩
    rw [dif_pos h, Except.ok.injEq]
    exact ⟨fun heq => ⟨h, congrArg Address.bytes heq⟩, fun ⟨_, hkey⟩ => by simp only [hkey]⟩
  · rw [dif_neg h]
    simp only [reduceCtorEq, h, false_and]

theorem base58At_eq_ok {bytes value : List UInt8} {offset : Nat} :
    base58At bytes offset = .ok value ↔
      offset + keyBytes ≤ bytes.length ∧ slice bytes offset keyBytes = value := fieldAt_eq_ok

/-- The number read at an offset is the one whose bytes are there. -/
theorem u64At_eq_ok {bytes : List UInt8} {offset : Nat} {value : Int} :
    u64At bytes offset = .ok value ↔
      offset + 8 ≤ bytes.length ∧ (0 ≤ value ∧ value ≤ u64Max) ∧
        slice bytes offset 8 = bigUint64Bytes value := by
  unfold u64At
  simp only [bind_eq_ok, fieldAt_eq_ok, pure_eq_ok]
  refine ⟨fun ⟨field, ⟨hin, hfield⟩, hvalue⟩ => ?_, fun ⟨hin, ⟨hlow, hhigh⟩, hfield⟩ => ?_⟩
  · have hsize : field.length = 8 := hfield ▸ length_slice hin
    have hlt := ofLe_lt field
    rw [hsize] at hlt
    have hmod : (value % 2 ^ 64).toNat = ofLe field := by omega
    refine ⟨hin, ⟨by omega, by rw [u64Max]; omega⟩, ?_⟩
    rw [bigUint64Bytes, hmod, hfield, leBytes_ofLe hsize]
  · exact ⟨_, ⟨hin, rfl⟩, by rw [hfield, ofLe_bigUint64Bytes hlow hhigh]⟩

/-- The header of a payload is what its first three bytes are. -/
theorem header_eq {bytes : List UInt8} {a b c : UInt8} :
    slice bytes 0 1 = [a] ∧ slice bytes 1 1 = [b] ∧ slice bytes 2 1 = [c] ↔
      slice bytes 0 3 = [a, b, c] := by
  rcases bytes with _ | ⟨x, _ | ⟨y, _ | ⟨z, rest⟩⟩⟩ <;>
    simp only [slice, List.drop, List.take, List.cons.injEq, reduceCtorEq, and_true, and_false]

theorem readType_eq_ok {bytes : List UInt8} {expected : Option PayloadType} {type : PayloadType} :
    readType bytes expected = .ok type ↔
      headerBytes ≤ bytes.length ∧ slice bytes 0 1 = [wireVersion] ∧
        slice bytes 1 1 = [typeByte type] ∧ ∀ e, expected = some e → type = e := by
  unfold readType
  simp only [throw_bind, ite_throw_eq_ok, bind_eq_ok, byteAt_eq_ok, not_lt, not_not]
  refine ⟨fun ⟨hlen, version, ⟨_, hversion⟩, heq, byte, ⟨_, hbyte⟩, h⟩ => ?_,
    fun ⟨hlen, hversion, htype, hexpected⟩ => ?_⟩
  · subst heq
    -- An unknown type byte has no name and is refused.
    rcases hname : typeName byte with _ | name
    · rw [hname] at h
      cases h
    rw [hname] at h
    rcases expected with _ | e
    · cases h
      rw [typeName_eq_some.mp hname] at hbyte
      exact ⟨hlen, hversion, hbyte, fun _ he => by cases he⟩
    · simp only [ite_throw_eq_ok, pure_eq_ok, not_not] at h
      rcases h with ⟨rfl, rfl⟩
      rw [typeName_eq_some.mp hname] at hbyte
      exact ⟨hlen, hversion, hbyte, fun _ he => (Option.some.inj he)⟩
  · rw [headerBytes] at hlen
    refine ⟨hlen, _, ⟨by omega, hversion⟩, rfl, _, ⟨by omega, htype⟩, ?_⟩
    rw [typeName_eq_some.mpr rfl]
    rcases expected with _ | e
    · rfl
    · simp only [ite_throw_eq_ok, pure_eq_ok, not_not]
      exact ⟨hexpected e rfl, trivial⟩

/-- The flags a type allows. -/
def Legal (type : PayloadType) (flags : WireFlags) : Prop :=
  flags.feePayerSeparate = false ∧
    match type with
    | .intent => flags.amountInAuth = false
    | .staticIntent => flags.lifetimeFresh = false ∧ flags.amountInAuth = true
    | .auth => True
    | .nonceReturn => flags = noFlags

/-- What `readHeader` asks of a flags byte. -/
def FlagsPass (type : PayloadType) (byte : UInt8) : Prop :=
  byte &&& reservedBits = 0 ∧ byte &&& Flag.feePayerSeparate = 0 ∧ forbiddenFlags type byte = 0 ∧
    (type = .staticIntent →
      (flagsFromByte byte).lifetimeFresh = false ∧ (flagsFromByte byte).amountInAuth = true)

theorem legal_of_pass (type : PayloadType) :
    ∀ byte, FlagsPass type byte → Legal type (flagsFromByte byte) := by
  cases type <;> simp only [Legal, FlagsPass] <;> exact forall_byte (by decide +kernel)

theorem pass_of_legal {type : PayloadType} {flags : WireFlags} (h : Legal type flags) :
    FlagsPass type (flagsToByte flags) := by
  rcases flags with ⟨fresh, create, token, separate, amount⟩
  revert h
  cases type <;> simp only [Legal, FlagsPass] <;> revert fresh create token separate amount <;>
    decide +kernel

/-- The constraints on a printed intent, as a check of their own. -/
theorem static_eq_ok {α : Type} {type : PayloadType} {fresh amount : Bool} {e e' : Thrown}
    {x : Except Thrown α} {a : α} :
    (if type = .staticIntent then
        if fresh = true then throw e else if ¬ amount = true then throw e' else x
      else x) = .ok a ↔
      (type = .staticIntent → fresh = false ∧ amount = true) ∧ x = .ok a := by
  by_cases h : type = .staticIntent
  · rw [if_pos h]
    simp only [ite_throw_eq_ok, not_not, Bool.not_eq_true fresh, h, true_implies, and_assoc]
  · rw [if_neg h]
    simp only [h, false_implies, true_and]

/-- A header is read exactly if its flags are legal for its type and the
    payload has the length they call for. -/
theorem readHeader_eq_ok {bytes : List UInt8} {type : PayloadType} {flags : WireFlags} :
    readHeader bytes type = .ok flags ↔
      Legal type flags ∧ bytes.length = expectedLength type flags ∧
        slice bytes 0 3 = headerOf type flags := by
  unfold readHeader
  simp only [throw_bind, bind_eq_ok, byteAt_eq_ok, readType_eq_ok, ite_throw_eq_ok, static_eq_ok,
    pure_eq_ok, not_not]
  refine ⟨fun ⟨type', ⟨_, h₀, h₁, htype⟩, byte, ⟨_, h₂⟩, hreserved, hsep, hforbidden, hstatic,
    hlength, hflags⟩ => ?_, fun ⟨hlegal, hlength, hheader⟩ => ?_⟩
  · cases htype type rfl
    subst hflags
    refine ⟨legal_of_pass _ byte ⟨hreserved, hsep, hforbidden, hstatic⟩, hlength, ?_⟩
    rw [headerOf, flagsToByte_flagsFromByte byte hreserved]
    exact header_eq.mp ⟨h₀, h₁, h₂⟩
  · have hpass := pass_of_legal hlegal
    have hin : headerBytes ≤ bytes.length := hlength ▸ headerBytes_le_expectedLength type flags
    rcases header_eq.mpr hheader with ⟨h₀, h₁, h₂⟩
    refine ⟨type, ⟨hin, h₀, h₁, fun e he => Option.some.inj he⟩, _, ⟨hin, h₂⟩, hpass.1,
      hpass.2.1, hpass.2.2.1, hpass.2.2.2, ?_⟩
    rw [flagsFromByte_flagsToByte]
    exact ⟨hlength, rfl⟩

/-- The mint is cached with these decimals and this token program. -/
theorem checkAgainstCache_eq_ok {ctx : DecodeContext} {mint : Address} {decimals : Int}
    {flags : WireFlags} {tokenProgram : TokenProgram} :
    checkAgainstCache ctx mint decimals flags = .ok tokenProgram ↔
      (∃ record, ctx.mintCache mint = some record ∧ record.decimals = decimals ∧
        record.tokenProgram = tokenProgram) ∧
      tokenProgram = if flags.token2022 then .token2022 else .splToken := by
  unfold checkAgainstCache
  rcases ctx.mintCache mint with _ | record
  · simp only [throw_eq_ok, reduceCtorEq, false_and, exists_false]
  · simp only [throw_bind, ite_throw_eq_ok, pure_eq_ok, not_not, Option.some.injEq,
      exists_eq_left']
    refine ⟨fun ⟨hdecimals, hprogram, h⟩ => ?_, fun ⟨⟨hdecimals, hprogram⟩, h⟩ => ?_⟩
    · exact ⟨⟨hdecimals, hprogram.trans h⟩, h.symm⟩
    · exact ⟨hdecimals, hprogram.trans h, h.symm⟩

end Readers

section Decoders

theorem toNat_ofInt {value : Int} (hlow : 0 ≤ value) (hhigh : value ≤ 255) :
    ((UInt8.ofInt value).toNat : Int) = value := by
  rw [UInt8.ofInt, UInt8.toNat_ofNat']
  omega

theorem ofInt_toNat (byte : UInt8) : UInt8.ofInt (byte.toNat : Int) = byte := by
  have hlt := byte.toNat_lt
  have hmod : ((byte.toNat : Int) % 2 ^ 8).toNat = byte.toNat := by omega
  rw [UInt8.ofInt, hmod, UInt8.ofNat_toNat]

/-- The caller's cache has this mint, with these decimals and this token
    program. -/
def Cached (ctx : DecodeContext) (intent : Intent) : Prop :=
  0 ≤ intent.decimals ∧ intent.decimals ≤ 255 ∧
    ∃ record, ctx.mintCache intent.mint = some record ∧ record.decimals = intent.decimals ∧
      record.tokenProgram = intent.tokenProgram

/-- A lifetime as the payer knows it, without the block height. -/
def Lifetime.received : Lifetime → Lifetime
  | .nonce => .nonce
  | .fresh blockhash _ => .fresh blockhash 0

theorem legal_flagsOf {intent : Intent} (hdynamic : intent.isStatic = false)
    (hpayer : intent.feePayer = intent.merchant) : Legal .intent (flagsOf intent) :=
  ⟨flagsOf_feePayerSeparate.mpr hpayer, hdynamic⟩

theorem length_intentBytes {intent : Intent} {amount : Int} (h : Encodable intent amount) :
    (intentBytes intent amount).length = expectedLength .intent (flagsOf intent) := by
  have hlength : (blockhashBytes intent.lifetime).length
      = if (flagsOf intent).lifetimeFresh then keyBytes else 0 := by
    rcases hlifetime : intent.lifetime with _ | ⟨blockhash, height⟩
    · simp only [flagsOf, hlifetime, blockhashBytes, List.length_nil, Bool.false_eq_true, if_false]
    · simp only [flagsOf, hlifetime, blockhashBytes, if_true]
      exact h.blockhash_length _ _ hlifetime
  simp only [intentBytes, List.length_append, length_headerOf, Address.length_eq,
    length_bigUint64Bytes, List.length_singleton, hlength, expectedLength,
    flagsOf_feePayerSeparate.mpr h.feePayer_eq, Bool.false_eq_true, if_false]
  omega

/-- A lifetime as it is read: the blockhash is behind the other fields, if the
    flags say that there is one. -/
def ReadsLifetime (bytes : List UInt8) (fresh : Bool) : Lifetime → Prop
  | .nonce => fresh = false
  | .fresh blockhash height => fresh = true ∧ height = 0 ∧ 76 + keyBytes ≤ bytes.length ∧
      slice bytes 76 keyBytes = blockhash.bytes

theorem lifetime_eq_ok {bytes : List UInt8} {fresh : Bool} {read : Lifetime → Intent}
    {intent : Intent} :
    (if fresh = true then do
        let blockhash ← base58At bytes 76
        let lifetime ← pure (Lifetime.fresh ⟨blockhash⟩ 0)
        pure (read lifetime)
      else do
        let lifetime ← pure Lifetime.nonce
        pure (read lifetime) : Except Thrown Intent) = .ok intent ↔
      ∃ lifetime, ReadsLifetime bytes fresh lifetime ∧ read lifetime = intent := by
  rcases fresh with _ | _
  · simp only [Bool.false_eq_true, if_false, pure_bind, pure_eq_ok]
    refine ⟨fun h => ⟨.nonce, rfl, h⟩, fun ⟨lifetime, hreads, h⟩ => ?_⟩
    rcases lifetime with _ | ⟨blockhash, height⟩
    · exact h
    · cases hreads.1
  · simp only [if_true, pure_bind, bind_eq_ok, base58At_eq_ok, pure_eq_ok]
    refine ⟨fun ⟨blockhash, ⟨hin, hslice⟩, h⟩ => ⟨.fresh ⟨blockhash⟩ 0, ⟨rfl, rfl, hin, hslice⟩, h⟩,
      fun ⟨lifetime, hreads, h⟩ => ?_⟩
    rcases lifetime with _ | ⟨blockhash, height⟩
    · cases hreads
    · rcases hreads with ⟨_, rfl, hin, hslice⟩
      exact ⟨_, ⟨hin, hslice⟩, h⟩

/-- The flags of an intent that was read under these flags. -/
theorem flagsOf_read {intent : Intent} {flags : WireFlags}
    (hfresh : ∀ blockhash height, intent.lifetime = .fresh blockhash height →
      flags.lifetimeFresh = true)
    (hnonce : intent.lifetime = .nonce → flags.lifetimeFresh = false)
    (hcreate : intent.includeCreateAta = flags.includeCreateAta)
    (hprogram : intent.tokenProgram = if flags.token2022 then .token2022 else .splToken)
    (hpayer : intent.feePayer = intent.merchant) (hseparate : flags.feePayerSeparate = false)
    (hstatic : intent.isStatic = flags.amountInAuth) : flagsOf intent = flags := by
  have hlifetime : (flagsOf intent).lifetimeFresh = flags.lifetimeFresh := by
    rcases hkind : intent.lifetime with _ | ⟨blockhash, height⟩
    · simp only [flagsOf, hkind, hnonce hkind]
    · simp only [flagsOf, hkind, hfresh _ _ hkind]
  have htoken : (flagsOf intent).token2022 = flags.token2022 := by
    simp only [flagsOf, hprogram]
    cases flags.token2022 <;> rfl
  have hpayers : (flagsOf intent).feePayerSeparate = flags.feePayerSeparate :=
    hseparate ▸ flagsOf_feePayerSeparate.mpr hpayer
  rcases flags with ⟨fresh, create, token, separate, amount⟩
  simp only [flagsOf, WireFlags.mk.injEq] at hlifetime htoken hpayers ⊢
  exact ⟨hlifetime, hcreate, htoken, hpayers, hstatic⟩

/-- The first 76 bytes of an intent, field by field. -/
theorem intent_fields {bytes : List UInt8} {flags : WireFlags} {merchant mint : Address}
    {amount : Int} {decimals : UInt8} (hheader : slice bytes 0 3 = headerOf .intent flags)
    (hmerchant : slice bytes 3 keyBytes = merchant.bytes)
    (hmint : slice bytes 35 keyBytes = mint.bytes)
    (hamount : slice bytes 67 8 = bigUint64Bytes amount)
    (hdecimals : slice bytes 75 1 = [decimals]) :
    headerOf .intent flags ++ merchant.bytes ++ mint.bytes ++ bigUint64Bytes amount
        ++ [UInt8.ofInt decimals.toNat] = slice bytes 0 76 := by
  rw [ofInt_toNat, ← hheader, ← hmerchant, ← hmint, ← hamount, ← hdecimals,
    slice_next (by rfl), slice_next (by rfl), slice_next (by rfl), slice_next (by rfl)]
  rfl

/-- A payload ends with the blockhash, if it has one. -/
theorem slice_blockhash {bytes : List UInt8} {flags : WireFlags} {lifetime : Lifetime}
    (hlegal : Legal .intent flags) (hlength : bytes.length = expectedLength .intent flags)
    (h : ReadsLifetime bytes flags.lifetimeFresh lifetime) :
    slice bytes 0 76 ++ blockhashBytes lifetime = bytes := by
  rw [expectedLength, hlegal.1] at hlength
  rcases lifetime with _ | ⟨blockhash, height⟩
  · rw [show flags.lifetimeFresh = false from h] at hlength
    rw [blockhashBytes, List.append_nil, show 76 = bytes.length from hlength.symm, slice_all]
  · rw [h.1] at hlength
    rw [blockhashBytes, ← h.2.2.2, slice_next rfl, show 76 + keyBytes = bytes.length
      from hlength.symm, slice_all]

/-- The fields of an intent's layout are at their offsets. -/
theorem slice_intentBytes (intent : Intent) (amount : Int) :
    slice (intentBytes intent amount) 0 3 = headerOf .intent (flagsOf intent) ∧
      slice (intentBytes intent amount) 3 keyBytes = intent.merchant.bytes ∧
      slice (intentBytes intent amount) 35 keyBytes = intent.mint.bytes ∧
      slice (intentBytes intent amount) 67 8 = bigUint64Bytes amount ∧
      slice (intentBytes intent amount) 75 1 = [UInt8.ofInt intent.decimals] := by
  simp only [intentBytes, keyBytes, List.append_assoc, slice_behind, slice_front, length_headerOf,
    Address.length_eq, length_bigUint64Bytes, List.length_singleton, Nat.reduceSub,
    Nat.reduceLeDiff, and_self]

/-- Behind them is the blockhash, if there is one. -/
theorem slice_blockhashBytes {intent : Intent} (amount : Int) {blockhash : Blockhash}
    {height : Int} (hfresh : intent.lifetime = .fresh blockhash height)
    (hlength : blockhash.bytes.length = keyBytes) :
    slice (intentBytes intent amount) 76 keyBytes = blockhash.bytes := by
  simp only [intentBytes, hfresh, blockhashBytes, keyBytes, List.append_assoc, slice_behind,
    length_headerOf, Address.length_eq, length_bigUint64Bytes, List.length_singleton,
    Nat.reduceSub, Nat.reduceLeDiff]
  exact slice_whole hlength

theorem readsLifetime_intentBytes {intent : Intent} {amount : Int} (h : Encodable intent amount)
    (hheight : intent.lifetime.received = intent.lifetime) :
    ReadsLifetime (intentBytes intent amount) (flagsOf intent).lifetimeFresh intent.lifetime := by
  have hlength := length_intentBytes h
  rw [expectedLength, flagsOf_feePayerSeparate.mpr h.feePayer_eq] at hlength
  rcases hkind : intent.lifetime with _ | ⟨blockhash, height⟩
  · simp only [flagsOf, hkind, ReadsLifetime]
  · rw [hkind] at hheight
    have hfresh : (flagsOf intent).lifetimeFresh = true := by simp only [flagsOf, hkind]
    rw [hfresh] at hlength ⊢
    exact ⟨rfl, (Lifetime.fresh.inj hheight).2.symm, Nat.le_of_eq hlength.symm,
      slice_blockhashBytes amount hkind (h.blockhash_length _ _ hkind)⟩

theorem tokenProgram_of_flagsOf (intent : Intent) :
    intent.tokenProgram = if (flagsOf intent).token2022 then .token2022 else .splToken := by
  rw [flagsOf]
  cases intent.tokenProgram <;> rfl

/-- An intent read from its layout, and no other bytes are read as it. -/
theorem decodeIntent_eq_ok {bytes : List UInt8} {ctx : DecodeContext} {intent : Intent} :
    decodeIntent bytes ctx = .ok intent ↔
      ∃ amount, Encodable intent amount ∧ Cached ctx intent ∧
        intent.lifetime.received = intent.lifetime ∧ intentBytes intent amount = bytes := by
  unfold decodeIntent
  simp only [bind_eq_ok, readHeader_eq_ok, addressAt_eq_ok, u64At_eq_ok, byteAt_eq_ok,
    checkAgainstCache_eq_ok, lifetime_eq_ok]
  refine ⟨fun ⟨flags, ⟨hlegal, hlength, hheader⟩, merchant, ⟨_, hmerchant⟩, mint, ⟨_, hmint⟩,
    amount, ⟨_, hrange, hamount⟩, decimals, ⟨_, hdecimals⟩, program, ⟨hcached, hprogram⟩,
    lifetime, hlifetime, h⟩ => ?_,
    fun ⟨amount, henc, hcached, hheight, hbytes⟩ => ?_⟩
  · -- Read: the fields are the slices of the bytes, the flags the third byte.
    have hfields := intent_fields hheader hmerchant hmint hamount hdecimals
    have hbyte := decimals.toNat_lt
    have hflags : flagsOf intent = flags := by
      subst h
      refine flagsOf_read (fun _ _ hkind => ?_) (fun hkind => ?_) rfl hprogram rfl hlegal.1
        hlegal.2.symm
      · simp only at hkind
        rw [hkind] at hlifetime
        exact hlifetime.1
      · simp only at hkind
        rw [hkind] at hlifetime
        exact hlifetime
    have hlayout := slice_blockhash hlegal hlength hlifetime
    rw [← hfields, ← hflags] at hlayout
    subst h
    refine ⟨amount, ⟨rfl, rfl, hrange.1, hrange.2, rfl, fun blockhash height hkind => ?_⟩,
      ⟨?_, ?_, hcached⟩, ?_, hlayout⟩
    · simp only at hkind
      rw [hkind] at hlifetime
      exact hlifetime.2.2.2 ▸ length_slice hlifetime.2.2.1
    · simp only
      omega
    · simp only
      omega
    · simp only
      rcases lifetime with _ | ⟨blockhash, height⟩
      · rfl
      · rw [hlifetime.2.1, Lifetime.received]
  · -- Written: every slice of the bytes is the field that was put there.
    have hlength := length_intentBytes henc
    have hlong : 76 ≤ bytes.length := by
      rw [← hbytes, hlength, expectedLength]
      omega
    rcases slice_intentBytes intent amount with ⟨h₀, h₁, h₂, h₃, h₄⟩
    have hlifetime := readsLifetime_intentBytes henc hheight
    rw [hbytes] at hlength h₀ h₁ h₂ h₃ h₄ hlifetime
    have hdecimals := toNat_ofInt hcached.1 hcached.2.1
    simp only [keyBytes] at *
    refine ⟨flagsOf intent, ⟨legal_flagsOf henc.dynamic henc.feePayer_eq, hlength, h₀⟩,
      intent.merchant, ⟨by omega, h₁⟩, intent.mint, ⟨by omega, h₂⟩, amount,
      ⟨by omega, ⟨henc.amount_nonneg, henc.amount_le⟩, h₃⟩, UInt8.ofInt intent.decimals,
      ⟨by omega, h₄⟩, intent.tokenProgram, ⟨?_, tokenProgram_of_flagsOf intent⟩, intent.lifetime,
      hlifetime, ?_⟩
    · rw [hdecimals]
      exact hcached.2.2
    · rcases intent with ⟨merchant, mint, decimals, amount', lifetime, create, token, fee, printed⟩
      simp only [Intent.mk.injEq, flagsOf] at *
      exact ⟨trivial, trivial, hdecimals, henc.amount_eq.symm, trivial, trivial, trivial,
        henc.feePayer_eq.symm, henc.dynamic.symm⟩

/-- The fields of a printed intent's layout are at their offsets. -/
theorem slice_staticIntentBytes (intent : Intent) :
    slice (staticIntentBytes intent) 0 3 = headerOf .staticIntent (flagsOf intent) ∧
      slice (staticIntentBytes intent) 3 keyBytes = intent.merchant.bytes ∧
      slice (staticIntentBytes intent) 35 keyBytes = intent.mint.bytes ∧
      slice (staticIntentBytes intent) 67 1 = [UInt8.ofInt intent.decimals] := by
  have hlast : slice [UInt8.ofInt intent.decimals] 0 1 = [UInt8.ofInt intent.decimals] := rfl
  simp only [staticIntentBytes, keyBytes, List.append_assoc, slice_behind, slice_front,
    length_headerOf, Address.length_eq, hlast, Nat.reduceSub, Nat.reduceLeDiff, and_self]

theorem length_staticIntentBytes (intent : Intent) :
    (staticIntentBytes intent).length = expectedLength .staticIntent (flagsOf intent) := by
  simp only [staticIntentBytes, List.length_append, length_headerOf, Address.length_eq,
    List.length_singleton, expectedLength]

/-- A printed intent read from its layout, and no other bytes are read as it. -/
theorem decodeStaticIntent_eq_ok {bytes : List UInt8} {ctx : DecodeContext} {intent : Intent} :
    decodeStaticIntent bytes ctx = .ok intent ↔
      StaticEncodable intent ∧ Cached ctx intent ∧ staticIntentBytes intent = bytes := by
  unfold decodeStaticIntent
  simp only [bind_eq_ok, readHeader_eq_ok, addressAt_eq_ok, byteAt_eq_ok, checkAgainstCache_eq_ok,
    pure_eq_ok]
  refine ⟨fun ⟨flags, ⟨hlegal, hlength, hheader⟩, merchant, ⟨_, hmerchant⟩, mint, ⟨_, hmint⟩,
    decimals, ⟨_, hdecimals⟩, program, ⟨hcached, hprogram⟩, h⟩ => ?_,
    fun ⟨henc, hcached, hbytes⟩ => ?_⟩
  · -- Read: the slices follow one another to the end of the bytes.
    have hbyte := decimals.toNat_lt
    have hflags : flagsOf intent = flags := by
      subst h
      refine flagsOf_read (fun _ _ hkind => ?_) (fun _ => hlegal.2.1) rfl hprogram rfl hlegal.1
        hlegal.2.2.symm
      cases hkind
    subst h
    refine ⟨⟨rfl, rfl, rfl, rfl⟩, ⟨?_, ?_, hcached⟩, ?_⟩
    · simp only
      omega
    · simp only
      omega
    · simp only [staticIntentBytes, hflags, ofInt_toNat]
      rw [← hheader, ← hmerchant, ← hmint, ← hdecimals, slice_next (by rfl), slice_next (by rfl),
        slice_next (by rfl), show 3 + keyBytes + keyBytes + 1 = bytes.length from hlength.symm,
        slice_all]
  · -- Written: the slices of the bytes are the fields.
    have hlength := length_staticIntentBytes intent
    rcases slice_staticIntentBytes intent with ⟨h₀, h₁, h₂, h₃⟩
    rw [hbytes] at hlength h₀ h₁ h₂ h₃
    have hdecimals := toNat_ofInt hcached.1 hcached.2.1
    have hlong : bytes.length = 68 := hlength
    have hfresh : (flagsOf intent).lifetimeFresh = false := by rw [flagsOf, henc.lifetime_eq]
    simp only [keyBytes] at *
    refine ⟨flagsOf intent, ⟨⟨flagsOf_feePayerSeparate.mpr henc.feePayer_eq, hfresh,
      henc.printed⟩, hlength, h₀⟩, intent.merchant, ⟨by omega, h₁⟩, intent.mint, ⟨by omega, h₂⟩,
      UInt8.ofInt intent.decimals, ⟨by omega, h₃⟩, intent.tokenProgram,
      ⟨?_, tokenProgram_of_flagsOf intent⟩, ?_⟩
    · rw [hdecimals]
      exact hcached.2.2
    · rcases intent with ⟨merchant, mint, decimals, amount, lifetime, create, token, fee, printed⟩
      simp only [Intent.mk.injEq, flagsOf] at *
      exact ⟨trivial, trivial, hdecimals, henc.amount_eq.symm, henc.lifetime_eq.symm, trivial,
        trivial, henc.feePayer_eq.symm, henc.printed.symm⟩

theorem length_nonceReturnBytes {payload : NonceReturnPayload} (h : ReturnEncodable payload) :
    (nonceReturnBytes payload).length = 100 := by
  simp only [nonceReturnBytes, List.length_append, length_headerOf, List.length_singleton,
    h.value_length, h.signature_length, keyBytes, signatureBytes]

/-- A recovery statement read from its layout, and no other bytes are read as
    it. -/
theorem decodeNonceReturn_eq_ok {bytes : List UInt8} {payload : NonceReturnPayload} :
    decodeNonceReturn bytes = .ok payload ↔
      ReturnEncodable payload ∧ nonceReturnBytes payload = bytes := by
  unfold decodeNonceReturn
  simp only [bind_eq_ok, readHeader_eq_ok, byteAt_eq_ok, base58At_eq_ok, fieldAt_eq_ok, pure_eq_ok]
  refine ⟨fun ⟨flags, ⟨hlegal, hlength, hheader⟩, index, ⟨_, hindex⟩, value, ⟨hin, hvalue⟩,
    signature, ⟨hin', hsignature⟩, h⟩ => ?_, fun ⟨henc, hbytes⟩ => ?_⟩
  · have hbyte := index.toNat_lt
    rw [hlegal.2] at hheader hlength
    subst h
    refine ⟨⟨?_, hvalue ▸ length_slice hin, hsignature ▸ length_slice hin'⟩, ?_⟩
    · simp only
      omega
    · simp only [nonceReturnBytes, ofInt_toNat]
      rw [← hheader, ← hindex, ← hvalue, ← hsignature, slice_next (by rfl), slice_next (by rfl),
        slice_next (by rfl), show 3 + 1 + keyBytes + signatureBytes = bytes.length
        from hlength.symm, slice_all]
  · subst hbytes
    -- The index fits in the byte, so nothing is lost of it.
    have hindex : (UInt8.ofInt payload.nonceIndex).toNat = payload.nonceIndex := by
      have h := henc.index_le
      have := @toNat_ofInt payload.nonceIndex (by omega) (by omega)
      omega
    have hlength := length_nonceReturnBytes henc
    have hslices : slice (nonceReturnBytes payload) 0 3 = headerOf .nonceReturn noFlags ∧
        slice (nonceReturnBytes payload) 3 1 = [UInt8.ofInt payload.nonceIndex] ∧
        slice (nonceReturnBytes payload) 4 keyBytes = payload.newNonceValue.bytes ∧
        slice (nonceReturnBytes payload) 36 signatureBytes = payload.signature := by
      have hvalue : payload.newNonceValue.bytes.length = 32 := henc.value_length
      simp only [nonceReturnBytes, keyBytes, List.append_assoc, slice_behind, slice_front,
        length_headerOf, List.length_singleton, hvalue, slice_whole henc.signature_length,
        Nat.reduceSub, Nat.reduceLeDiff, and_self]
    rcases hslices with ⟨h₀, h₁, h₂, h₃⟩
    refine ⟨noFlags, ⟨⟨rfl, rfl⟩, hlength, h₀⟩, _, ⟨?_, h₁⟩, _, ⟨?_, h₂⟩, _, ⟨?_, h₃⟩, ?_⟩
    · omega
    · rw [keyBytes]
      omega
    · rw [signatureBytes]
      omega
    · rw [hindex]

/-- A slot as it is read behind the payer, and where reading goes on. -/
def ReadsNonceRef (bytes : List UInt8) (fresh : Bool) (read : Option NonceRef × Nat) : Prop :=
  fresh = read.1.isNone ∧ read.2 = 35 + (nonceRefBytes read.1).length ∧
    slice bytes 35 (nonceRefBytes read.1).length = nonceRefBytes read.1 ∧
    ∀ ref, read.1 = some ref →
      ref.index ≤ 255 ∧ ref.value.bytes.length = keyBytes ∧ read.2 ≤ bytes.length

theorem nonceRef_eq_ok {bytes : List UInt8} {fresh : Bool}
    {read : Option NonceRef × Nat → Except Thrown Auth} {auth : Auth} :
    (if fresh = true then do
        let x ← pure (none, 35)
        read x
      else do
        let index ← byteAt bytes 35
        let value ← base58At bytes 36
        let x ← pure (some ⟨index.toNat, ⟨value⟩⟩, 35 + 1 + keyBytes)
        read x) = .ok auth ↔ ∃ x, ReadsNonceRef bytes fresh x ∧ read x = .ok auth := by
  rcases fresh with _ | _
  · simp only [Bool.false_eq_true, if_false, pure_bind, bind_eq_ok, byteAt_eq_ok, base58At_eq_ok]
    constructor
    · rintro ⟨index, ⟨_, hindex⟩, value, ⟨hin, hvalue⟩, h⟩
      have hbyte := index.toNat_lt
      have hlength : value.length = keyBytes := hvalue ▸ length_slice hin
      refine ⟨_, ⟨rfl, ?_, ?_, fun ref href => ?_⟩, h⟩
      · rw [nonceRefBytes, List.length_cons, hlength]
        rfl
      · rw [nonceRefBytes, List.length_cons, hlength, ofInt_toNat, ← List.singleton_append,
          ← hindex, ← hvalue, slice_next (by rfl), Nat.add_comm keyBytes]
      · cases href
        exact ⟨by simp only; omega, hlength, hin⟩
    · rintro ⟨⟨ref, offset⟩, ⟨hfresh, hoffset, hslice, hsome⟩, h⟩
      rcases ref with _ | ref
      · cases hfresh
      rcases hsome ref rfl with ⟨hindex, hlength, hin⟩
      simp only [nonceRefBytes, List.length_cons, hlength] at hoffset hslice
      -- One byte of index, then the value: where the first ends is known.
      have hsplit : slice bytes 35 1 ++ slice bytes 36 keyBytes
          = [UInt8.ofInt ref.index] ++ ref.value.bytes := by
        rw [slice_next (by rfl), Nat.add_comm 1, hslice, List.singleton_append]
      rw [keyBytes] at hoffset
      have hfields := List.append_inj hsplit (length_slice (by omega))
      have hbyte : (UInt8.ofInt ref.index).toNat = ref.index := by
        have := @toNat_ofInt ref.index (by omega) (by omega)
        omega
      refine ⟨_, ⟨by omega, hfields.1⟩, _, ⟨by rw [keyBytes]; omega, hfields.2⟩, ?_⟩
      rw [hbyte, ← h, hoffset]
      rfl
  · simp only [if_true, pure_bind]
    constructor
    · exact fun h => ⟨_, ⟨rfl, rfl, rfl, fun _ h => by cases h⟩, h⟩
    rintro ⟨⟨ref, offset⟩, ⟨hfresh, hoffset, _, _⟩, h⟩
    rcases ref with _ | ref
    · rw [show offset = 35 from hoffset] at h
      exact h
    · cases hfresh

/-- An amount as it is read behind the slot, and where reading goes on. -/
def ReadsAmount (bytes : List UInt8) (inAuth : Bool) (offset : Nat) (read : Option Int × Nat) :
    Prop :=
  inAuth = read.1.isSome ∧ read.2 = offset + (amountBytes read.1).length ∧
    slice bytes offset (amountBytes read.1).length = amountBytes read.1 ∧
    ∀ amount, read.1 = some amount → (0 ≤ amount ∧ amount ≤ u64Max) ∧ read.2 ≤ bytes.length

theorem amount_eq_ok {bytes : List UInt8} {inAuth : Bool} {offset : Nat}
    {read : Option Int × Nat → Except Thrown Auth} {auth : Auth} :
    (if inAuth = true then do
        let amount ← u64At bytes offset
        let x ← pure (some amount, offset + 8)
        read x
      else do
        let x ← pure (none, offset)
        read x) = .ok auth ↔ ∃ x, ReadsAmount bytes inAuth offset x ∧ read x = .ok auth := by
  rcases inAuth with _ | _
  · simp only [Bool.false_eq_true, if_false, pure_bind]
    refine ⟨fun h => ⟨_, ⟨rfl, rfl, rfl, fun _ h => by cases h⟩, h⟩,
      fun ⟨⟨amount, offset'⟩, ⟨hinAuth, hoffset, _, _⟩, h⟩ => ?_⟩
    rcases amount with _ | amount
    · rw [show offset' = offset from hoffset] at h
      exact h
    · cases hinAuth
  · simp only [if_true, pure_bind, bind_eq_ok, u64At_eq_ok]
    refine ⟨fun ⟨amount, ⟨hin, hrange, hslice⟩, h⟩ => ?_,
      fun ⟨⟨amount, offset'⟩, ⟨hinAuth, hoffset, hslice, hsome⟩, h⟩ => ?_⟩
    · refine ⟨_, ⟨rfl, ?_, ?_, fun _ h => ?_⟩, h⟩
      · rw [amountBytes, length_bigUint64Bytes]
      · rw [amountBytes, length_bigUint64Bytes, hslice]
      · cases h
        exact ⟨hrange, hin⟩
    · rcases amount with _ | amount
      · cases hinAuth
      · have hin := hsome amount rfl
        simp only [amountBytes, length_bigUint64Bytes] at hoffset hslice
        subst hoffset
        exact ⟨amount, ⟨hin.2, hin.1, hslice⟩, h⟩

theorem length_authBytes {auth : Auth} {flags : WireFlags} (h : AuthEncodable auth flags) :
    (authBytes auth flags).length = expectedLength .auth flags := by
  simp only [authBytes, List.length_append, length_headerOf, Address.length_eq,
    length_nonceRefBytes h, length_amountBytes h, h.signature_length, signatureBytes,
    expectedLength]
  omega

/-- The fields of an authorisation's layout are one behind the other. -/
theorem slice_authBytes {auth : Auth} {flags : WireFlags} (h : AuthEncodable auth flags) :
    slice (authBytes auth flags) 0 3 = headerOf .auth flags ∧
      slice (authBytes auth flags) 3 keyBytes = auth.payer.bytes ∧
      slice (authBytes auth flags) 35 (nonceRefBytes auth.nonceRef).length
        = nonceRefBytes auth.nonceRef ∧
      slice (authBytes auth flags) (35 + (nonceRefBytes auth.nonceRef).length)
        (amountBytes auth.amount).length = amountBytes auth.amount ∧
      slice (authBytes auth flags) (35 + (nonceRefBytes auth.nonceRef).length
        + (amountBytes auth.amount).length) signatureBytes = auth.signature := by
  have hpayer : (headerOf .auth flags ++ auth.payer.bytes).length = 35 := by
    rw [List.length_append, length_headerOf, auth.payer.length_eq]
  refine ⟨?_, ?_, ?_, ?_, ?_⟩
  · simp only [authBytes, List.append_assoc, slice_front, length_headerOf]
  · simp only [authBytes, keyBytes, List.append_assoc, slice_behind, slice_front, length_headerOf,
      Address.length_eq, Nat.reduceSub, Nat.reduceLeDiff]
  · rw [authBytes, List.append_assoc, List.append_assoc]
    exact slice_append hpayer rfl
  · rw [authBytes, List.append_assoc]
    exact slice_append (by rw [List.length_append, hpayer]) rfl
  · rw [authBytes]
    exact slice_last (by rw [List.length_append, List.length_append, hpayer]) h.signature_length

/-- An authorisation read from its layout under the intent's flags, and no other
    bytes are read as it. -/
theorem decodeAuth_eq_ok {bytes : List UInt8} {ctx : DecodeContext} {auth : Auth} :
    decodeAuth bytes ctx = .ok auth ↔ ∃ flags, ctx.intentFlags = some flags ∧
      AuthEncodable auth flags ∧ authBytes auth flags = bytes := by
  unfold decodeAuth
  simp only [bind_eq_ok, readHeader_eq_ok]
  rcases ctx.intentFlags with _ | intentFlags
  · simp only [throw_eq_ok, and_false, exists_false, reduceCtorEq, false_and]
  simp only [bind_eq_ok, byteAt_eq_ok, throw_bind, ite_throw_eq_ok, addressAt_eq_ok, not_not,
    Option.some.injEq, exists_eq_left', nonceRef_eq_ok, amount_eq_ok, fieldAt_eq_ok, pure_eq_ok]
  refine ⟨fun ⟨flags, ⟨hlegal, hlength, hheader⟩, byte, ⟨_, hbyte⟩, hflags, payer, ⟨_, hpayer⟩,
    ⟨ref, offset⟩, href, ⟨amount, offset'⟩, hamount, signature, ⟨hin, hsignature⟩, h⟩ => ?_,
    fun ⟨henc, hbytes⟩ => ?_⟩
  · -- The flags byte of the auth is read against the intent's own flags.
    have hsame : flags = intentFlags := by
      have hbyte' := (header_eq.mpr hheader).2.2
      rw [hbyte, ← hflags, List.cons.injEq] at hbyte'
      rw [← flagsFromByte_flagsToByte flags, ← hbyte'.1, flagsFromByte_flagsToByte]
    subst hsame h
    rcases href with ⟨hfresh, hoffset, hslice, hsome⟩
    rcases hamount with ⟨hinAuth, hoffset', hslice', hsome'⟩
    simp only at hfresh hoffset hslice hsome hinAuth hoffset' hslice' hsome'
    have henc : AuthEncodable ⟨payer, ref, amount, signature⟩ flags :=
      { signature_length := hsignature ▸ length_slice hin
        fresh_eq := hfresh
        amountInAuth_eq := hinAuth
        feePayer_eq := hlegal.1
        nonceRef_le := fun r hr => ⟨(hsome r hr).1, (hsome r hr).2.1⟩
        amount_le := fun a ha => (hsome' a ha).1 }
    refine ⟨henc, ?_⟩
    -- The signature ends where the length that the flags announce ends.
    have hend : offset' + signatureBytes = bytes.length := by
      rw [hlength, hoffset', hoffset, length_nonceRefBytes henc, length_amountBytes henc,
        expectedLength, signatureBytes]
      omega
    calc authBytes ⟨payer, ref, amount, signature⟩ flags
        = slice bytes 0 35 ++ nonceRefBytes ref ++ amountBytes amount ++ signature := by
          rw [authBytes, ← hheader, ← hpayer, slice_next (by rfl)]
          rfl
      _ = slice bytes 0 offset ++ amountBytes amount ++ signature := by
          rw [hoffset, ← hslice, slice_next (by rfl), hslice]
      _ = slice bytes 0 offset' ++ signature := by
          rw [hoffset', ← hslice', slice_next (Nat.zero_add _), hslice']
      _ = bytes := by
          rw [← hsignature, slice_next (Nat.zero_add _), hend, slice_all]
  · have hlength := length_authBytes henc
    rcases slice_authBytes henc with ⟨h₀, h₁, h₂, h₃, h₄⟩
    rw [hbytes] at hlength h₀ h₁ h₂ h₃ h₄
    have hparts := expectedLength_auth henc
    rw [← hlength, headerBytes] at hparts
    refine ⟨intentFlags, ⟨⟨henc.feePayer_eq, trivial⟩, hlength, h₀⟩, _,
      ⟨by omega, (header_eq.mpr h₀).2.2⟩, rfl, auth.payer, ⟨by rw [keyBytes]; omega, h₁⟩,
      ⟨auth.nonceRef, _⟩, ⟨henc.fresh_eq, rfl, h₂, fun ref href => ?_⟩, ⟨auth.amount, _⟩,
      ⟨henc.amountInAuth_eq, rfl, h₃, fun amount hamount => ?_⟩, _, ⟨?_, h₄⟩, rfl⟩
    · exact ⟨(henc.nonceRef_le ref href).1, (henc.nonceRef_le ref href).2, by simp only; omega⟩
    · exact ⟨henc.amount_le amount hamount, by simp only; omega⟩
    · simp only [signatureBytes]
      omega

end Decoders

section RoundTrip

/-- An intent as it arrives, without the block height. -/
def Intent.received (intent : Intent) : Intent :=
  { intent with lifetime := intent.lifetime.received }

theorem Lifetime.received_received (lifetime : Lifetime) :
    lifetime.received.received = lifetime.received := by
  rcases lifetime with _ | ⟨blockhash, height⟩ <;> rfl

theorem flagsOf_received (intent : Intent) : flagsOf intent.received = flagsOf intent := by
  rcases hkind : intent.lifetime with _ | ⟨blockhash, height⟩ <;>
    simp only [flagsOf, Intent.received, hkind, Lifetime.received]

/-- The block height is not sent. -/
theorem intentBytes_received (intent : Intent) (amount : Int) :
    intentBytes intent.received amount = intentBytes intent amount := by
  have hblockhash : blockhashBytes intent.lifetime.received = blockhashBytes intent.lifetime := by
    rcases intent.lifetime with _ | ⟨blockhash, height⟩ <;> rfl
  rw [intentBytes, flagsOf_received, intentBytes]
  simp only [Intent.received, hblockhash]

theorem Encodable.received {intent : Intent} {amount : Int} (h : Encodable intent amount) :
    Encodable intent.received amount where
  dynamic := h.dynamic
  amount_eq := h.amount_eq
  amount_nonneg := h.amount_nonneg
  amount_le := h.amount_le
  feePayer_eq := h.feePayer_eq
  blockhash_length := fun blockhash height hkind => by
    rcases hlifetime : intent.lifetime with _ | ⟨blockhash', height'⟩
    · simp only [Intent.received, hlifetime, Lifetime.received, reduceCtorEq] at hkind
    · simp only [Intent.received, hlifetime, Lifetime.received, Lifetime.fresh.injEq] at hkind
      exact hkind.1 ▸ h.blockhash_length _ _ hlifetime

theorem decodeIntent_encodeIntent {intent : Intent} {bytes : List UInt8} {ctx : DecodeContext}
    (h : encodeIntent intent = .ok bytes) (hcached : Cached ctx intent) :
    decodeIntent bytes ctx = .ok intent.received := by
  rcases encodeIntent_eq_ok.mp h with ⟨amount, henc, hbytes⟩
  exact decodeIntent_eq_ok.mpr ⟨amount, henc.received, hcached,
    Lifetime.received_received intent.lifetime, hbytes ▸ intentBytes_received intent amount⟩

theorem decodeStaticIntent_encodeStaticIntent {intent : Intent} {bytes : List UInt8}
    {ctx : DecodeContext} (h : encodeStaticIntent intent = .ok bytes)
    (hcached : Cached ctx intent) : decodeStaticIntent bytes ctx = .ok intent := by
  rcases encodeStaticIntent_eq_ok.mp h with ⟨henc, hbytes⟩
  exact decodeStaticIntent_eq_ok.mpr ⟨henc, hcached, hbytes⟩

theorem decodeAuth_encodeAuth {auth : Auth} {flags : WireFlags} {bytes : List UInt8}
    {ctx : DecodeContext} (h : encodeAuth auth flags = .ok bytes)
    (hflags : ctx.intentFlags = some flags) : decodeAuth bytes ctx = .ok auth :=
  decodeAuth_eq_ok.mpr ⟨flags, hflags, encodeAuth_eq_ok.mp h⟩

/-- Decoding undoes encoding, for all four payloads: what an encoder accepts has
    the length its flags call for, and comes back as it was in a context that
    has its mint, or the flags it answers. Only the block height of a fresh
    lifetime is lost. -/
theorem decoding_undoes_encoding :
    (∀ intent bytes, encodeIntent intent = .ok bytes →
      bytes.length = expectedLength .intent (flagsOf intent) ∧
      ∀ ctx, Cached ctx intent → decodeIntent bytes ctx = .ok intent.received) ∧
    (∀ intent bytes, encodeStaticIntent intent = .ok bytes →
      bytes.length = expectedLength .staticIntent (flagsOf intent) ∧
      ∀ ctx, Cached ctx intent → decodeStaticIntent bytes ctx = .ok intent) ∧
    (∀ auth flags bytes, encodeAuth auth flags = .ok bytes →
      bytes.length = expectedLength .auth flags ∧
      ∀ ctx, ctx.intentFlags = some flags → decodeAuth bytes ctx = .ok auth) ∧
    ∀ payload bytes, encodeNonceReturn payload = .ok bytes →
      bytes.length = expectedLength .nonceReturn noFlags ∧
      decodeNonceReturn bytes = .ok payload := by
  refine ⟨fun intent bytes h => ⟨?_, fun _ => decodeIntent_encodeIntent h⟩,
    fun intent bytes h => ⟨?_, fun _ => decodeStaticIntent_encodeStaticIntent h⟩,
    fun auth flags bytes h => ⟨?_, fun _ => decodeAuth_encodeAuth h⟩,
    fun payload bytes h => ⟨?_, ?_⟩⟩
  · rcases encodeIntent_eq_ok.mp h with ⟨amount, henc, rfl⟩
    exact length_intentBytes henc
  · rcases encodeStaticIntent_eq_ok.mp h with ⟨_, rfl⟩
    exact length_staticIntentBytes intent
  · rcases encodeAuth_eq_ok.mp h with ⟨henc, rfl⟩
    exact length_authBytes henc
  · rcases encodeNonceReturn_eq_ok.mp h with ⟨henc, rfl⟩
    exact length_nonceReturnBytes henc
  · exact decodeNonceReturn_eq_ok.mpr (encodeNonceReturn_eq_ok.mp h)

/-- A payer whose cache knows one mint. -/
def testContext : DecodeContext where
  mintCache := fun mint => if mint = testRecord.mint then some testRecord else none
  intentFlags := some noFlags

theorem encodable_testIntent : Encodable testIntent 10 where
  dynamic := rfl
  amount_eq := rfl
  amount_nonneg := by decide
  amount_le := by decide
  feePayer_eq := rfl
  blockhash_length := fun _ _ h => by cases h

theorem decoding_undoes_encoding_testIntent :
    decodeIntent (intentBytes testIntent 10) testContext = .ok testIntent :=
  (decoding_undoes_encoding.1 testIntent _
    (encodeIntent_eq_ok.mpr ⟨10, encodable_testIntent, rfl⟩)).2 testContext
    ⟨by decide, by decide, testRecord, rfl, rfl, rfl⟩

end RoundTrip

end Vadum
