import Vadum.Apps.Payer
import Vadum.Theory.Base45
import Vadum.Theory.Decoding
import Vadum.Theory.Signing

/-!
# Across the Air Gap

A payment crosses two screens. The merchant's request is encoded, shown, scanned
and decoded; the payer signs it; the answer goes back the same way, and the
merchant verifies it against the intent it made in the first place. What arrives
is not quite that intent, for a fresh lifetime loses its block height on the way,
but no message depends on the height.

## Main definitions

* `encodeRequest`: The merchant's request, dynamic or printed.
* `airGap`: The chain, from the merchant's intent to its verified payment.

## Theorems

* `scannedRequest_encodeRequest`: A request arrives without its block height.
* `buildMessage_received`: The message is the same without it.
* `air_gap_complete`: The chain ends in the payment the payer signed.
-/

namespace Vadum

open Checks Bytes PayerApp Async.Process

section Request

/-- The merchant's request, dynamic or printed. -/
def encodeRequest (intent : Intent) : Except Thrown (List UInt8) :=
  if intent.isStatic then encodeStaticIntent intent else encodeIntent intent

theorem peekPayloadType_of_decode {bytes : List UInt8} {type : PayloadType} {flags : WireFlags}
    (h : readHeader bytes type = .ok flags) : peekPayloadType bytes = .ok type := by
  rcases readHeader_eq_ok.mp h with ⟨_, hlength, hheader⟩
  rcases header_eq.mpr hheader with ⟨hversion, htype, _⟩
  exact readType_eq_ok.mpr ⟨hlength ▸ headerBytes_le_expectedLength type flags, hversion, htype,
    fun _ h => by cases h⟩

theorem scannedRequest_of_decodeIntent {bytes : List UInt8} {ctx : DecodeContext} {intent : Intent}
    (h : decodeIntent bytes ctx = .ok intent) : scannedRequest bytes ctx = .ok intent := by
  have hdecode := h
  unfold decodeIntent at h
  rcases bind_eq_ok.mp h with ⟨flags, hflags, _⟩
  rw [scannedRequest, peekPayloadType_of_decode hflags]
  exact hdecode

theorem scannedRequest_of_decodeStaticIntent {bytes : List UInt8} {ctx : DecodeContext}
    {intent : Intent} (h : decodeStaticIntent bytes ctx = .ok intent) :
    scannedRequest bytes ctx = .ok intent := by
  have hdecode := h
  unfold decodeStaticIntent at h
  rcases bind_eq_ok.mp h with ⟨flags, hflags, _⟩
  rw [scannedRequest, peekPayloadType_of_decode hflags]
  exact hdecode

/-- What the merchant can ask for: its fee payer is the merchant, an amount is
    sent exactly if the request is dynamic, and a blockhash has 32 bytes. -/
structure Requestable (intent : Intent) : Prop where
  feePayer_eq : intent.feePayer = intent.merchant
  static_eq : intent.isStatic = intent.amount.isNone
  blockhash_length : ∀ blockhash height, intent.lifetime = .fresh blockhash height →
    blockhash.bytes.length = 32

/-- A request is what `Requestable` says, its third byte is its flags, and it
    arrives without its block height. -/
theorem scannedRequest_encodeRequest {intent : Intent} {bytes : List UInt8}
    (h : encodeRequest intent = .ok bytes) :
    Requestable intent ∧ flagsFromByte (bytes.getD 2 0) = flagsOf intent ∧
      ∀ ctx, Cached ctx intent → scannedRequest bytes ctx = .ok intent.received := by
  rw [encodeRequest] at h
  rcases hstatic : intent.isStatic
  · rw [hstatic] at h
    rcases encodeIntent_eq_ok.mp h with ⟨amount, henc, hbytes⟩
    refine ⟨⟨henc.feePayer_eq, ?_, henc.blockhash_length⟩, ?_, fun ctx hcached => ?_⟩
    · rw [hstatic, henc.amount_eq]
      rfl
    · rw [← hbytes]
      exact flagsFromByte_flagsToByte _
    · exact scannedRequest_of_decodeIntent (decodeIntent_encodeIntent h hcached)
  · rw [hstatic] at h
    rcases encodeStaticIntent_eq_ok.mp h with ⟨henc, hbytes⟩
    -- A static request carries no blockhash, so it is received as it was made.
    have hreceived : intent.received = intent := by
      rw [Intent.received, henc.lifetime_eq]
      rcases intent
      cases henc.lifetime_eq
      rfl
    refine ⟨⟨henc.feePayer_eq, ?_, fun _ _ hkind => ?_⟩, ?_, fun ctx hcached => ?_⟩
    · rw [hstatic, henc.amount_eq]
      rfl
    · cases henc.lifetime_eq.symm.trans hkind
    · rw [← hbytes]
      exact flagsFromByte_flagsToByte _
    · rw [hreceived]
      exact scannedRequest_of_decodeStaticIntent (decodeStaticIntent_encodeStaticIntent h hcached)

/-- No message depends on the block height. -/
theorem buildMessage_received {kit : Kit} (library : Library kit) (intent : Intent)
    (payer : Address) (nonceRef : Option NonceRef) (amount : Int) :
    buildMessage kit ⟨intent.received, payer, nonceRef, amount⟩
      = buildMessage kit ⟨intent, payer, nonceRef, amount⟩ := by
  rcases intent with ⟨merchant, mint, decimals, own, _ | ⟨hash, height⟩, ata, program, fee, static⟩
  · rfl
  · rcases nonceRef with _ | ref
    · have hsent : applyLifetime kit ⟨Intent.received ⟨merchant, mint, decimals, own,
          .fresh hash height, ata, program, fee, static⟩, payer, none, amount⟩
          = .ok (.blockhash hash 0) := rfl
      have hown : applyLifetime kit ⟨⟨merchant, mint, decimals, own, .fresh hash height, ata,
          program, fee, static⟩, payer, none, amount⟩ = .ok (.blockhash hash height) := rfl
      simp only [buildMessage, hsent, hown, ok_bind, library.height_unused _ _ hash 0 height]
      rfl
    · rfl

end Request

section Answer

/-- A payer has the slot a lifetime calls for: one of its own on the nonce path,
    and none on the fresh one. -/
def SlotFits : Lifetime → Option NonceRef → Prop
  | .nonce, some ref => ref.index ≤ 255 ∧ ref.value.bytes.length = 32
  | .fresh _ _, none => True
  | _, _ => False

theorem SlotFits.lifetimeFits {intent : Intent} {nonceRef : Option NonceRef}
    (hrequest : Requestable intent) (h : SlotFits intent.lifetime nonceRef) :
    LifetimeFits intent.lifetime nonceRef := by
  rcases hkind : intent.lifetime with _ | ⟨hash, height⟩ <;> rcases nonceRef with _ | ref <;>
    rw [hkind] at h
  · exact h
  · exact h
  · exact hrequest.blockhash_length hash height hkind
  · exact h

/-- An answer to a request fits the flags of the request. -/
theorem authEncodable_authOf {intent : Intent} {payer : Address} {nonceRef : Option NonceRef}
    {amount : Int} {signature : Signature} (hrequest : Requestable intent)
    (hslot : SlotFits intent.lifetime nonceRef) (hlow : 0 ≤ amount) (hhigh : amount ≤ u64Max)
    (hsignature : signature.length = 64) :
    AuthEncodable (authOf ⟨intent.received, payer, nonceRef, amount⟩ signature)
      (flagsOf intent) where
  signature_length := hsignature
  fresh_eq := by
    rcases hkind : intent.lifetime with _ | ⟨hash, height⟩ <;> rcases nonceRef with _ | ref <;>
      rw [hkind] at hslot <;> simp only [SlotFits] at hslot <;>
      simp only [flagsOf, hkind, authOf, Option.isNone_none, Option.isNone_some]
  amountInAuth_eq := by
    rcases hstatic : intent.isStatic <;>
      simp only [flagsOf, authOf, Intent.received, hstatic, Bool.false_eq_true, if_false, if_true,
        Option.isSome]
  feePayer_eq := flagsOf_feePayerSeparate.mpr hrequest.feePayer_eq
  nonceRef_le := fun ref href => by
    change nonceRef = some ref at href
    rcases hkind : intent.lifetime with _ | ⟨hash, height⟩ <;> rw [hkind, href] at hslot
    · exact hslot
    · exact hslot.elim
  amount_le := fun own hown => by
    rcases hstatic : intent.isStatic <;>
      simp only [authOf, Intent.received, hstatic, Bool.false_eq_true, if_false, if_true,
        Option.some.injEq, reduceCtorEq] at hown
    exact hown ▸ ⟨hlow, hhigh⟩

/-- Both sides name the amount of an answer the same way, whatever the payer saw
    of the request besides its mode. -/
theorem resolveAmount_authOf {intent sent : Intent} {payer : Address}
    {nonceRef : Option NonceRef} {amount : Int} {expectedAmount : Option Int}
    {signature : Signature} (hstatic_eq : intent.isStatic = intent.amount.isNone)
    (hsent : sent.isStatic = intent.isStatic)
    (hown : ∀ own, intent.amount = some own → own = amount)
    (hexpected : expectedAmount = some amount ∨ intent.isStatic = false ∧ expectedAmount = none) :
    resolveAmount intent (authOf ⟨sent, payer, nonceRef, amount⟩ signature) expectedAmount
      = .ok amount := by
  rw [resolveAmount_eq_ok]
  rcases hstatic : intent.isStatic
  · rcases hamount : intent.amount with _ | own
    · rw [hstatic, hamount] at hstatic_eq
      cases hstatic_eq
    · cases hown own hamount
      refine .inr ⟨rfl, rfl, ?_, hexpected.symm.imp_left And.right⟩
      simp only [authOf, hsent, hstatic, Bool.false_eq_true, if_false]
  · refine .inl ⟨rfl, hexpected.resolve_right fun h => ?_, ?_⟩
    · cases hstatic.symm.trans h.1
    · simp only [authOf, hsent, hstatic, if_true]

end Answer

section Chain

variable {ρ σ : Type}

/-- The chain, from the merchant's intent to its verified payment. The payer
    decodes under `ctx`, and answers with the slot and the amount given; the
    merchant verifies against the intent it made. -/
def airGap (kit : Kit) (ctx : DecodeContext) (intent : Intent) (key : CryptoKeyPair)
    (nonceRef : Option NonceRef) (amount : Int) (expectedAmount : Option Int) :
    Client σ VerifiedPayment := do
  let intentBytes ← ofResult (encodeRequest intent)
  let flags := flagsFromByte (intentBytes.getD 2 0)
  let scanned ← ofResult (fromBase45 (toBase45 intentBytes))
  let received ← ofResult (scannedRequest scanned ctx)
  let auth ← signAsPayer kit { intent := received, payer := key.publicKey, nonceRef, amount } key
  let authBytes ← ofResult (encodeAuth auth flags)
  let answer ← ofResult (fromBase45 (toBase45 authBytes))
  let read ← ofResult (decodeAuth answer { ctx with intentFlags := some flags })
  ofResult (verifyAuth kit intent read expectedAmount)

/-- The air gap is complete. A request that is encoded, a payer whose cache knows
    the mint, who is not the fee payer and has the slot the request calls for,
    and an amount of eight bytes that is the request's own if it has one: the
    chain ends in a payment of exactly that payer, slot and amount, over the one
    message the payer was asked to sign. -/
theorem air_gap_complete {kit : Kit} (library : Library kit) {network : Network ρ}
    (ed25519 : Ed25519 kit network) {ctx : DecodeContext} {intent : Intent} {key : CryptoKeyPair}
    {nonceRef : Option NonceRef} {amount : Int} {expectedAmount : Option Int}
    (hencode : ∃ bytes, encodeRequest intent = .ok bytes) (hcached : Cached ctx intent)
    (hpayer : key.publicKey ≠ intent.feePayer) (hslot : SlotFits intent.lifetime nonceRef)
    (hlow : 0 ≤ amount) (hhigh : amount ≤ u64Max)
    (hown : ∀ own, intent.amount = some own → own = amount)
    (hexpected : expectedAmount = some amount ∨ intent.isStatic = false ∧ expectedAmount = none)
    (hmerchant : intent.merchant ∉ invokedPrograms kit intent) (s : σ) (w : World ρ) :
    ∃ payment, (run (reply network)
        (airGap kit ctx intent key nonceRef amount expectedAmount) s w).result = .ok payment ∧
      payment.input.payer = key.publicKey ∧ payment.input.nonceRef = nonceRef ∧
      payment.input.amount = amount ∧
      (requests (reply network) (airGap kit ctx intent key nonceRef amount expectedAmount)
        s w).map Prod.fst = [.sign key payment.messageBytes] := by
  rcases hencode with ⟨intentBytes, hencode⟩
  rcases scannedRequest_encodeRequest hencode with ⟨hrequest, hflags, hscanned⟩
  have hbuildable : Buildable kit ⟨intent, key.publicKey, nonceRef, amount⟩ :=
    { amount_nonneg := hlow
      amount_le := hhigh
      amount_eq := hown
      decimals_nonneg := hcached.1
      decimals_le := hcached.2.1
      lifetime_fits := hslot.lifetimeFits hrequest
      feePayer_not_program := hrequest.feePayer_eq ▸ hmerchant }
  rcases (buildMessage_isOk kit library).mpr hbuildable with ⟨messageBytes, hmessage⟩
  -- What the payer builds from what it received is what the merchant builds.
  have hsigned : payerMessage kit ⟨intent.received, key.publicKey, nonceRef, amount⟩ key
      = .ok messageBytes :=
    (payerMessage_eq_ok kit).mpr ⟨hpayer.symm, hrequest.static_eq, rfl,
      (buildMessage_received library intent _ _ _).trans hmessage⟩
  have hsignature := ed25519.length_sign key messageBytes w.net
  obtain ⟨auth, hauth⟩ : ∃ auth, authOf ⟨intent.received, key.publicKey, nonceRef, amount⟩
    (network.sign key messageBytes w.net).1 = auth := ⟨_, rfl⟩
  have hencodable : AuthEncodable auth (flagsOf intent) :=
    hauth ▸ authEncodable_authOf hrequest hslot hlow hhigh hsignature
  have hanswer := encodeAuth_eq_ok.mpr ⟨hencodable, rfl⟩
  have hread : decodeAuth _ { ctx with intentFlags := some (flagsOf intent) } = .ok auth :=
    decodeAuth_encodeAuth hanswer rfl
  have hverified : verifyAuth kit intent auth expectedAmount
      = .ok ⟨⟨intent, key.publicKey, nonceRef, amount⟩, messageBytes, auth⟩ := by
    rw [verifyAuth_eq_ok, ← hauth]
    exact ⟨hsignature, hpayer.symm, resolveAmount_authOf hrequest.static_eq rfl hown hexpected,
      hmessage,
      ed25519.verify_sign key messageBytes w.net, rfl, rfl⟩
  refine ⟨⟨⟨intent, key.publicKey, nonceRef, amount⟩, messageBytes, auth⟩, ?_, rfl, rfl, rfl, ?_⟩
  · simp only [airGap, run_bind, run_ofResult, hencode, hflags, fromBase45_toBase45,
      hscanned ctx hcached, run_signAsPayer, hsigned, hauth, hanswer, hread, hverified]
  · simp only [airGap, requests_bind, run_ofResult, hencode, hflags,
      fromBase45_toBase45, hscanned ctx hcached, requests_signAsPayer kit network hsigned,
      run_signAsPayer, hsigned, hauth, hanswer, hread, requests_ofResult, List.nil_append,
      List.append_nil, List.map_cons, List.map_nil]

/-- A payer with the key of `testPayment`, its first slot and the intent's ten
    units. -/
theorem air_gap_complete_testIntent :
    ∃ payment, (run (reply fakeNetwork) (airGap strictKit testContext testIntent (testKey 1)
        (some ⟨0, testNonce 7⟩) 10 (some 10)) () ⟨∅, {}⟩).result = .ok payment ∧
      payment.input.payer = testAddress 1 ∧ payment.input.nonceRef = some ⟨0, testNonce 7⟩ ∧
      payment.input.amount = 10 ∧
      (requests (reply fakeNetwork) (airGap strictKit testContext testIntent (testKey 1)
        (some ⟨0, testNonce 7⟩) 10 (some 10)) () ⟨∅, {}⟩).map Prod.fst
        = [.sign (testKey 1) payment.messageBytes] :=
  air_gap_complete library_strictKit ed25519_strictKit
    ⟨_, show encodeRequest testIntent = _ from
      encodeIntent_eq_ok.mpr ⟨10, encodable_testIntent, rfl⟩⟩
    ⟨by decide, by decide, testRecord, rfl, rfl, rfl⟩ (by decide)
    (show SlotFits .nonce (some ⟨0, testNonce 7⟩) from ⟨by decide, rfl⟩) (by decide) (by decide)
    (fun _ h => (Option.some.inj h).symm) (.inl rfl) (by decide) () ⟨∅, {}⟩

end Chain

end Vadum
