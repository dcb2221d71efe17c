import Vadum.Theory.Decoding
import Vadum.Theory.Signing

/-!
# The Ranges of the Fields

An intent is encoded by one package and its message is built by another, and each
checks the fields it writes. The two agree about the amount and the keys. Decimals
are different: the builder refuses what does not fit a byte, the encoder writes the
low byte of whatever they are. So an encoder's payload says the whole intent, and
the builder has nothing to refuse in it, exactly if the decimals fit a byte.

## Main definitions

* `OutOfRange`: An error about a field that does not fit.
* `Admitted`: The builder finds no field of an intent out of range.
* `Untruncated`: A payload has every field as the intent has it.

## Theorems

* `admitted_iff`: What the builder makes of an intent that was encoded.
* `untruncated_intentBytes`, `untruncated_staticIntentBytes`: What a payload has.
* `ranges_iff`: The encoder and the builder agree about decimals of one byte.
-/

namespace Vadum

open Checks Bytes

variable (kit : Kit)

/-- An error about a field of the payment that does not fit: one of the builder's own
    checks, or what the library says to a message with such a field. -/
inductive OutOfRange (input : CanonicalInput) : Thrown → Prop
  | amount : OutOfRange input (vadumError .canonAmountMismatch
      [("reason", .text "amount outside u64"), ("actual", .number input.amount)])
  | decimals : OutOfRange input (vadumError .mintDecimalsMismatch
      [("reason", .text "decimals outside u8"), ("decimals", .number input.intent.decimals)])
  | instruction {lifetime : MessageLifetime} {error : Thrown} {instruction : Instruction}
      (refused : kit.compileTransaction
        ⟨input.intent.feePayer, canonicalInstructions kit input, lifetime⟩ = .error error)
      (mem : instruction ∈ canonicalInstructions kit input) (unfit : ¬ instruction.Fits) :
      OutOfRange input error
  | blockhash {blockhash : Blockhash} {height : Int} {error : Thrown}
      (refused : kit.compileTransaction ⟨input.intent.feePayer, canonicalInstructions kit input,
        .blockhash blockhash height⟩ = .error error)
      (fresh : input.intent.lifetime = .fresh blockhash height)
      (unfit : blockhash.bytes.length ≠ keyBytes) : OutOfRange input error

/-- The builder finds no field of an intent out of range, whoever pays whatever fits a
    u64 with the kind of reference the intent calls for. -/
def Admitted (intent : Intent) : Prop :=
  ∀ (payer : Address) (nonceRef : Option NonceRef) (amount : Int), payer ≠ intent.feePayer →
    (nonceRef.isSome = true ↔ intent.lifetime = .nonce) → 0 ≤ amount → amount ≤ u64Max →
    ∀ error, buildMessage kit ⟨intent, payer, nonceRef, amount⟩ = .error error →
      ¬ OutOfRange kit ⟨intent, payer, nonceRef, amount⟩ error

/-- A payload has every field as the intent has it. -/
structure Untruncated (intent : Intent) (bytes : List UInt8) : Prop where
  flags : ∃ byte, slice bytes 2 1 = [byte] ∧ flagsFromByte byte = flagsOf intent
  merchant : slice bytes 3 keyBytes = intent.merchant.bytes
  mint : slice bytes 35 keyBytes = intent.mint.bytes
  amount : ∀ amount, intent.amount = some amount → (ofLe (slice bytes 67 8) : Int) = amount
  decimals : ∃ byte : UInt8, slice bytes (if intent.isStatic then 67 else 75) 1 = [byte] ∧
    (byte.toNat : Int) = intent.decimals
  blockhash : ∀ blockhash height, intent.lifetime = .fresh blockhash height →
    slice bytes 76 keyBytes = blockhash.bytes

section Building

variable {kit} {input : CanonicalInput} {error : Thrown}

/-- Without a lifetime there is no message, and the error says why. -/
theorem applyLifetime_eq_error (h : applyLifetime kit input = .error error) :
    ∃ detail, error = vadumError .internalNotApplicable detail ∨
      error = vadumError .nonceIndexOutOfRange detail := by
  unfold applyLifetime at h
  rcases hkind : input.intent.lifetime with _ | ⟨blockhash, height⟩ <;>
    rcases href : input.nonceRef with _ | ref <;> simp only [hkind, href] at h
  · cases h
    exact ⟨_, .inl rfl⟩
  · by_cases hindex : ref.index > 255
    · rw [deriveNonceAddress, nonceSeed, if_pos hindex] at h
      cases h
      exact ⟨_, .inr rfl⟩
    · rw [deriveNonceAddress, nonceSeed, if_neg hindex] at h
      cases h
  · cases h
  · cases h
    exact ⟨_, .inl rfl⟩

/-- What is left to go wrong for an amount and decimals in their ranges: the amount is not
    the intent's, there is no lifetime, or the library refuses. -/
theorem buildMessage_eq_error (hlow : 0 ≤ input.amount) (hhigh : input.amount ≤ u64Max)
    (hdecimals : 0 ≤ input.intent.decimals ∧ input.intent.decimals ≤ 255)
    (h : buildMessage kit input = .error error) :
    (∃ detail, error = vadumError .canonAmountMismatch
      (("reason", .text "resolved amount differs from the intent") :: detail)) ∨
    applyLifetime kit input = .error error ∨
    ∃ lifetime, kit.compileTransaction
      ⟨input.intent.feePayer, canonicalInstructions kit input, lifetime⟩ = .error error := by
  unfold buildMessage at h
  simp only [if_neg (not_or.mpr ⟨not_lt.mpr hlow, not_lt.mpr hhigh⟩),
    if_neg (not_or.mpr ⟨not_lt.mpr hdecimals.1, not_lt.mpr hdecimals.2⟩)] at h
  -- The checks on the ranges are passed, and the intent's own amount is next.
  rcases hown : input.intent.amount with _ | own
  · rw [hown] at h
    rcases bind_eq_error.mp h with hlifetime | ⟨lifetime, _, hlibrary⟩
    · exact .inr (.inl hlifetime)
    · exact .inr (.inr ⟨lifetime, hlibrary⟩)
  · rw [hown] at h
    by_cases hsame : own ≠ input.amount
    · simp only [if_pos hsame] at h
      cases h
      exact .inl ⟨_, rfl⟩
    · simp only [if_neg hsame] at h
      rcases bind_eq_error.mp h with hlifetime | ⟨lifetime, _, hlibrary⟩
      · exact .inr (.inl hlifetime)
      · exact .inr (.inr ⟨lifetime, hlibrary⟩)

/-- Decimals out of range are refused once the amount is right. -/
theorem buildMessage_decimals (hlow : 0 ≤ input.amount) (hhigh : input.amount ≤ u64Max)
    (hamount : ∀ own, input.intent.amount = some own → own = input.amount)
    (hdecimals : ¬ (0 ≤ input.intent.decimals ∧ input.intent.decimals ≤ 255)) :
    buildMessage kit input = .error (vadumError .mintDecimalsMismatch
      [("reason", .text "decimals outside u8"), ("decimals", .number input.intent.decimals)]) := by
  have hout : input.intent.decimals < 0 ∨ input.intent.decimals > 255 := by omega
  unfold buildMessage
  simp only [if_neg (not_or.mpr ⟨not_lt.mpr hlow, not_lt.mpr hhigh⟩), if_pos hout]
  rcases hown : input.intent.amount with _ | own
  · rfl
  · simp only [if_neg (not_not.mpr (hamount own hown))]
    rfl

theorem exists_address_ne (a : Address) : ∃ b : Address, b ≠ a := by
  by_cases h : testAddress 0 = a
  · exact ⟨testAddress 1, fun h' => absurd (h.trans h'.symm) (by decide)⟩
  · exact ⟨_, h⟩

theorem exists_nonceRef (lifetime : Lifetime) :
    ∃ nonceRef : Option NonceRef, nonceRef.isSome = true ↔ lifetime = .nonce := by
  cases lifetime with
  | nonce => exact ⟨some ⟨0, testNonce 0⟩, by decide⟩
  | fresh blockhash height => exact ⟨none, ⟨fun h => (by cases h), fun h => (by cases h)⟩⟩

/-- The builder has nothing to refuse in an intent, but for its decimals: its amount and
    its blockhash are what the encoders let through. -/
theorem admitted_iff {intent : Intent}
    (hown : ∀ message error, kit.compileTransaction message ≠ .error (.vadum error))
    (hamount : ∀ own, intent.amount = some own → 0 ≤ own ∧ own ≤ u64Max)
    (hblockhash : ∀ blockhash height, intent.lifetime = .fresh blockhash height →
      blockhash.bytes.length = keyBytes) :
    Admitted kit intent ↔ 0 ≤ intent.decimals ∧ intent.decimals ≤ 255 := by
  constructor
  · intro hadmitted
    by_contra hdecimals
    -- Somebody else pays the intent's own amount, or nothing if it has none.
    rcases exists_address_ne intent.feePayer with ⟨payer, hpayer⟩
    rcases exists_nonceRef intent.lifetime with ⟨nonceRef, hnonceRef⟩
    have hrange : 0 ≤ intent.amount.getD 0 ∧ intent.amount.getD 0 ≤ u64Max := by
      rcases hown : intent.amount with _ | own
      · decide
      · exact hamount own hown
    have hsame : ∀ own, intent.amount = some own → own = intent.amount.getD 0 := by
      intro own hown
      rw [hown, Option.getD_some]
    have herror := @buildMessage_decimals kit ⟨intent, payer, nonceRef, intent.amount.getD 0⟩
      hrange.1 hrange.2 hsame hdecimals
    exact hadmitted payer nonceRef _ hpayer hnonceRef hrange.1 hrange.2 _ herror .decimals
  · intro hdecimals payer nonceRef amount _ _ hlow hhigh error herror hrange
    have hcauses := buildMessage_eq_error hlow hhigh hdecimals herror
    -- An error of the builder's own is found by its text.
    have hvadum : ∀ code detail, error = vadumError code detail →
        code ≠ .internalNotApplicable → code ≠ .nonceIndexOutOfRange →
        ∃ rest, code = .canonAmountMismatch ∧
          detail = ("reason", .text "resolved amount differs from the intent") :: rest := by
      rintro code detail rfl hcode hcode'
      rcases hcauses with ⟨rest, hdiffers⟩ | hlifetime | ⟨lifetime, hlibrary⟩
      · cases hdiffers
        exact ⟨rest, rfl, rfl⟩
      · rcases applyLifetime_eq_error hlifetime with ⟨_, h | h⟩
        · cases h
          exact absurd rfl hcode
        · cases h
          exact absurd rfl hcode'
      · exact absurd hlibrary (hown _ _)
    cases hrange with
    | amount =>
        rcases hvadum _ _ rfl (by decide) (by decide) with ⟨rest, _, hdetail⟩
        exact absurd (List.cons.inj hdetail).1 (by decide)
    | decimals =>
        rcases hvadum _ _ rfl (by decide) (by decide) with ⟨rest, hcode, _⟩
        cases hcode
    | instruction _ mem unfit =>
        exact unfit ((fits_canonical kit).mpr ⟨hlow, hhigh, hdecimals⟩ _ mem)
    | blockhash _ fresh unfit => exact unfit (hblockhash _ _ fresh)

end Building

section Payloads

theorem flags_headerOf (type : PayloadType) (flags : WireFlags) (rest : List UInt8) :
    ∃ byte, slice (headerOf type flags ++ rest) 2 1 = [byte] ∧ flagsFromByte byte = flags :=
  ⟨flagsToByte flags, rfl, flagsFromByte_flagsToByte flags⟩

/-- The byte of some decimals is the decimals if they fit. -/
theorem toNat_ofInt_iff {decimals : Int} :
    ((UInt8.ofInt decimals).toNat : Int) = decimals ↔ 0 ≤ decimals ∧ decimals ≤ 255 := by
  refine ⟨fun heq => ?_, fun ⟨hlow, hhigh⟩ => toNat_ofInt hlow hhigh⟩
  have hlt := (UInt8.ofInt decimals).toNat_lt
  omega

/-- Where everything else is in a payload as the intent has it, the decimals are if they
    fit. -/
theorem untruncated_iff {intent : Intent} {bytes : List UInt8}
    (hflags : ∃ byte, slice bytes 2 1 = [byte] ∧ flagsFromByte byte = flagsOf intent)
    (hmerchant : slice bytes 3 keyBytes = intent.merchant.bytes)
    (hmint : slice bytes 35 keyBytes = intent.mint.bytes)
    (hamount : ∀ amount, intent.amount = some amount → (ofLe (slice bytes 67 8) : Int) = amount)
    (hdecimals : slice bytes (if intent.isStatic then 67 else 75) 1
      = [UInt8.ofInt intent.decimals])
    (hblockhash : ∀ blockhash height, intent.lifetime = .fresh blockhash height →
      slice bytes 76 keyBytes = blockhash.bytes) :
    Untruncated intent bytes ↔ 0 ≤ intent.decimals ∧ intent.decimals ≤ 255 := by
  rw [← toNat_ofInt_iff]
  refine ⟨fun hwhole => ?_, fun hfits => ?_⟩
  · rcases hwhole.decimals with ⟨byte, hbyte, hvalue⟩
    rw [hdecimals] at hbyte
    cases hbyte
    exact hvalue
  · exact ⟨hflags, hmerchant, hmint, hamount, ⟨_, hdecimals, hfits⟩, hblockhash⟩

theorem untruncated_intentBytes {intent : Intent} {amount : Int} (h : Encodable intent amount) :
    Untruncated intent (intentBytes intent amount) ↔
      0 ≤ intent.decimals ∧ intent.decimals ≤ 255 := by
  rcases slice_intentBytes intent amount with ⟨_, hmerchant, hmint, hamount, hdecimals⟩
  refine untruncated_iff ?_ hmerchant hmint (fun own hown => ?_) ?_ fun blockhash height hfresh =>
    slice_blockhashBytes amount hfresh (h.blockhash_length _ _ hfresh)
  · simp only [intentBytes, List.append_assoc]
    exact flags_headerOf _ _ _
  · rw [hamount]
    cases h.amount_eq.symm.trans hown
    exact ofLe_bigUint64Bytes h.amount_nonneg h.amount_le
  · rw [h.dynamic, if_neg Bool.false_ne_true]
    exact hdecimals

theorem untruncated_staticIntentBytes {intent : Intent} (h : StaticEncodable intent) :
    Untruncated intent (staticIntentBytes intent) ↔
      0 ≤ intent.decimals ∧ intent.decimals ≤ 255 := by
  rcases slice_staticIntentBytes intent with ⟨_, hmerchant, hmint, hdecimals⟩
  refine untruncated_iff ?_ hmerchant hmint (fun own hown => ?_) ?_
    fun blockhash height hfresh => ?_
  · simp only [staticIntentBytes, List.append_assoc]
    exact flags_headerOf _ _ _
  · cases h.amount_eq.symm.trans hown
  · rw [h.printed, if_pos rfl]
    exact hdecimals
  · cases h.lifetime_eq.symm.trans hfresh

end Payloads

/-- What is encoded is admitted by the builder and is in the payload as the intent has
    it, exactly if the decimals fit a byte. -/
theorem ranges_iff
    (hown : ∀ message error, kit.compileTransaction message ≠ .error (.vadum error))
    {intent : Intent} {bytes : List UInt8}
    (hencoded : encodeIntent intent = .ok bytes ∨ encodeStaticIntent intent = .ok bytes) :
    (Admitted kit intent ∧ Untruncated intent bytes) ↔
      0 ≤ intent.decimals ∧ intent.decimals ≤ 255 := by
  rcases hencoded with hencoded | hencoded
  · rcases encodeIntent_eq_ok.mp hencoded with ⟨amount, henc, rfl⟩
    have hamount : ∀ own, intent.amount = some own → 0 ≤ own ∧ own ≤ u64Max := by
      intro own heq
      cases henc.amount_eq.symm.trans heq
      exact ⟨henc.amount_nonneg, henc.amount_le⟩
    rw [admitted_iff hown hamount henc.blockhash_length, untruncated_intentBytes henc, and_self]
  · rcases encodeStaticIntent_eq_ok.mp hencoded with ⟨henc, rfl⟩
    have hamount : ∀ own, intent.amount = some own → 0 ≤ own ∧ own ≤ u64Max := by
      intro own heq
      cases henc.amount_eq.symm.trans heq
    have hblockhash : ∀ blockhash height, intent.lifetime = .fresh blockhash height →
        blockhash.bytes.length = keyBytes := by
      intro blockhash height heq
      cases henc.lifetime_eq.symm.trans heq
    rw [admitted_iff hown hamount hblockhash, untruncated_staticIntentBytes henc, and_self]

/-- A request with decimals of nine bits. -/
def wideIntent : Intent := { testIntent with decimals := 262 }

/-- It is encoded with decimals of 6, and the builder refuses it. -/
theorem ranges_wideIntent :
    ∃ bytes, encodeIntent wideIntent = .ok bytes ∧ slice bytes 75 1 = [6] ∧
      buildMessage testKit ⟨wideIntent, testAddress 1, some ⟨0, testNonce 0⟩, 10⟩
        = .error (vadumError .mintDecimalsMismatch
          [("reason", .text "decimals outside u8"), ("decimals", .number 262)]) ∧
      ¬ (Admitted testKit wideIntent ∧ Untruncated wideIntent bytes) := by
  have henc : Encodable wideIntent 10 := { encodable_testIntent with }
  have hbytes := encodeIntent_eq_ok.mpr ⟨10, henc, rfl⟩
  have hrefused := @buildMessage_decimals testKit
    ⟨wideIntent, testAddress 1, some ⟨0, testNonce 0⟩, 10⟩ (by decide) (by decide) (by decide)
    (by decide)
  refine ⟨_, hbytes, (slice_intentBytes wideIntent 10).2.2.2.2, hrefused, fun ⟨hadmitted, _⟩ => ?_⟩
  exact hadmitted (testAddress 1) (some ⟨0, testNonce 0⟩) 10 (by decide) (by decide) (by decide)
    (by decide) _ hrefused .decimals

theorem ranges_iff_testIntent :
    ∃ bytes, encodeIntent testIntent = .ok bytes ∧ Admitted testKit testIntent ∧
      Untruncated testIntent bytes := by
  have hbytes := encodeIntent_eq_ok.mpr ⟨10, encodable_testIntent, rfl⟩
  have hlibrary : ∀ message error, testKit.compileTransaction message ≠ .error (.vadum error) :=
    fun message error h => by cases h
  exact ⟨_, hbytes, (ranges_iff testKit hlibrary (.inl hbytes)).mpr (by decide)⟩

end Vadum
