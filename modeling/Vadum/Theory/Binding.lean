import Vadum.Theory.Signing

/-!
# What a Signature Binds

The merchant never sees what the payer saw. It builds the canonical message from
its own intent and from what the answer says, and accepts if the payer's
signature verifies over that. Two things then follow. The amount is the one the
sale costs, whichever side named it; and since a message says what it is for, the
payment the payer signed and the payment the merchant accepts are the same one.

The second needs three facts from outside: the library compiles different
messages to different bytes, a token account belongs to one owner, and a
signature that verifies was made by the key over that message.

## Main definitions

* `Terms`, `termsOf`: What a message says of its payment.
* `Faithful`: Different messages, different bytes.
* `PayerSigns`: A payer that signs through `signAsPayer` and no other way.

## Theorems

* `termsOf_eq`: One message has one set of terms.
* `verified_is_signed`: What is verified is what was signed and what it costs.
-/

namespace Vadum

open Async.Process

section Terms

/-- What stands in a message where its blockhash goes: the value of a slot, or a
    blockhash. -/
inductive LifetimeValue where
  | nonce (value : Option Nonce)
  | fresh (blockhash : Blockhash)
deriving DecidableEq

/-- What a message says of its payment. -/
structure Terms where
  merchant : Address
  mint : Address
  tokenProgram : TokenProgram
  decimals : Int
  feePayer : Address
  includeCreateAta : Bool
  amount : Int
  lifetimeValue : LifetimeValue
deriving DecidableEq

def lifetimeValueOf (input : CanonicalInput) : LifetimeValue :=
  match input.intent.lifetime with
  | .nonce => .nonce (input.nonceRef.map NonceRef.value)
  | .fresh blockhash _ => .fresh blockhash

def termsOf (input : CanonicalInput) : Terms where
  merchant := input.intent.merchant
  mint := input.intent.mint
  tokenProgram := input.intent.tokenProgram
  decimals := input.intent.decimals
  feePayer := input.intent.feePayer
  includeCreateAta := input.intent.includeCreateAta
  amount := input.amount
  lifetimeValue := lifetimeValueOf input

/-- A lifetime without the block height, which no message has. -/
def MessageLifetime.compiled : MessageLifetime → MessageLifetime
  | .durableNonce value account authority => .durableNonce value account authority
  | .blockhash hash _ => .blockhash hash 0

/-- Different messages have different bytes, and different owners different
    token accounts. -/
structure Faithful (kit : Kit) : Prop where
  compile_inj : ∀ (message message' : TransactionMessage) bytes,
    kit.compileTransaction message = .ok bytes → kit.compileTransaction message' = .ok bytes →
    message.feePayer = message'.feePayer ∧ message.instructions = message'.instructions ∧
      message.lifetime.compiled = message'.lifetime.compiled
  ata_inj : ∀ owner owner' mint tokenProgram,
    kit.findAssociatedTokenPda owner mint tokenProgram
      = kit.findAssociatedTokenPda owner' mint tokenProgram → owner = owner'
  tokenProgram_ne : kit.tokenProgramAddress ≠ kit.token2022ProgramAddress

variable {kit : Kit}

theorem programAddressOf_inj (faithful : Faithful kit) {program program' : TokenProgram}
    (h : programAddressOf kit program = programAddressOf kit program') : program = program' := by
  rcases program <;> rcases program'
  · rfl
  · exact absurd h faithful.tokenProgram_ne
  · exact absurd h.symm faithful.tokenProgram_ne
  · rfl

/-- The instructions of a payment say everything about it but its lifetime. -/
theorem canonicalInstructions_inj (faithful : Faithful kit) {input input' : CanonicalInput}
    (h : canonicalInstructions kit input = canonicalInstructions kit input') :
    input.intent.merchant = input'.intent.merchant ∧ input.intent.mint = input'.intent.mint ∧
      input.intent.tokenProgram = input'.intent.tokenProgram ∧
      input.intent.decimals = input'.intent.decimals ∧
      input.intent.includeCreateAta = input'.intent.includeCreateAta ∧
      input.amount = input'.amount := by
  simp only [canonicalInstructions] at h
  rcases List.append_inj' h rfl with ⟨hcreate, hlast⟩
  simp only [List.cons.injEq, Instruction.transferChecked.injEq, and_true] at hlast
  rcases hlast with ⟨hprogram, _, hmint, hdestination, _, hamount, hdecimals⟩
  have htoken := programAddressOf_inj faithful hprogram
  refine ⟨?_, hmint, htoken, hdecimals, ?_, hamount⟩
  · rw [deriveAta, deriveAta, hmint, htoken] at hdestination
    exact faithful.ata_inj _ _ _ _ hdestination
  · rcases hflag : input.intent.includeCreateAta <;>
      rcases hflag' : input'.intent.includeCreateAta <;>
      simp only [hflag, hflag', Bool.false_eq_true, if_false, if_true, reduceCtorEq] at hcreate ⊢

theorem lifetimeValueOf_eq {input input' : CanonicalInput} {lifetime lifetime' : MessageLifetime}
    (h : applyLifetime kit input = .ok lifetime) (h' : applyLifetime kit input' = .ok lifetime')
    (heq : lifetime.compiled = lifetime'.compiled) :
    lifetimeValueOf input = lifetimeValueOf input' := by
  rcases (applyLifetime_eq_ok kit).mp h with
    ⟨ref, hkind, href, _, rfl⟩ | ⟨hash, _, hkind, _, rfl⟩ <;>
    rcases (applyLifetime_eq_ok kit).mp h' with
      ⟨ref', hkind', href', _, rfl⟩ | ⟨hash', _, hkind', _, rfl⟩
  · simp only [MessageLifetime.compiled, MessageLifetime.durableNonce.injEq] at heq
    simp only [lifetimeValueOf, hkind, hkind', href, href', Option.map_some, heq.1]
  · cases heq
  · cases heq
  · simp only [MessageLifetime.compiled, MessageLifetime.blockhash.injEq, and_true] at heq
    simp only [lifetimeValueOf, hkind, hkind', heq]

/-- One message has one set of terms. -/
theorem termsOf_eq (faithful : Faithful kit) {input input' : CanonicalInput} {bytes : List UInt8}
    (h : buildMessage kit input = .ok bytes) (h' : buildMessage kit input' = .ok bytes) :
    termsOf input = termsOf input' := by
  rcases buildMessage_ok kit h with ⟨lifetime, happly, hcompile⟩
  rcases buildMessage_ok kit h' with ⟨lifetime', happly', hcompile'⟩
  rcases faithful.compile_inj _ _ _ hcompile hcompile' with ⟨hpayer, hinstructions, hlifetime⟩
  rcases canonicalInstructions_inj faithful hinstructions with
    ⟨hmerchant, hmint, htoken, hdecimals, hcreate, hamount⟩
  simp only [termsOf, Terms.mk.injEq]
  exact ⟨hmerchant, hmint, htoken, hdecimals, hpayer, hcreate, hamount,
    lifetimeValueOf_eq happly happly' hlifetime⟩

end Terms

section Verified

variable {ρ : Type} {kit : Kit} {network : Network ρ}

/-- A payer that signs through `signAsPayer` and no other way: each of its calls
    is a run of it that ended in an authorisation, and of the signatures anyone
    holds, those that verify under its key were made in one of the calls, over
    the message they verify over. -/
structure PayerSigns (kit : Kit) (network : Network ρ) (key : CryptoKeyPair)
    (calls : Set (CanonicalInput × Auth)) (held : Set Signature) : Prop where
  ran : ∀ call ∈ calls, ∃ w,
    (run (reply network) (signAsPayer kit call.1 key) () w).result = .ok call.2
  unforgeable : ∀ signature ∈ held, ∀ bytes,
    kit.verifySignature key.publicKey signature bytes = .ok true →
    ∃ call ∈ calls, call.2.signature = signature ∧ buildMessage kit call.1 = .ok bytes
  /-- No two messages are given one signature. -/
  once : ∀ call ∈ calls, ∀ call' ∈ calls, call.2.signature = call'.2.signature →
    buildMessage kit call.1 = buildMessage kit call'.1

/-- What a verified payment is: its amount and its lifetime are the sale's, and
    the payer's signature verifies over its message. -/
theorem verifyAuth_ok {intent : Intent} {auth : Auth} {expectedAmount : Option Int}
    {payment : VerifiedPayment} (h : verifyAuth kit intent auth expectedAmount = .ok payment) :
    intent.feePayer ≠ auth.payer ∧
      (∀ expected, expectedAmount = some expected → payment.input.amount = expected) ∧
      (intent.isStatic = false → intent.amount = some payment.input.amount ∧ auth.amount = none) ∧
      (intent.isStatic = true →
        auth.amount = some payment.input.amount ∧ expectedAmount = some payment.input.amount) ∧
      (payment.input.nonceRef.isSome = true ↔ intent.lifetime = .nonce) ∧
      payment.input = ⟨intent, auth.payer, auth.nonceRef, payment.input.amount⟩ ∧
      buildMessage kit payment.input = .ok payment.messageBytes ∧
      kit.verifySignature auth.payer auth.signature payment.messageBytes = .ok true := by
  rcases (verifyAuth_eq_ok kit).mp h with ⟨_, hpayer, hamount, hbuild, hverify, _, hinput⟩
  refine ⟨hpayer, ?_, ?_, ?_, ?_, hinput, hbuild, hverify⟩
  · intro expected hexpected
    rcases resolveAmount_eq_ok.mp hamount with ⟨_, h, _⟩ | ⟨_, _, _, h | h⟩
    · exact Option.some.inj (h.symm.trans hexpected)
    · cases h.symm.trans hexpected
    · exact Option.some.inj (h.symm.trans hexpected)
  · intro hdynamic
    rcases resolveAmount_eq_ok.mp hamount with ⟨hstatic, _⟩ | ⟨_, hown, hnone, _⟩
    · cases hdynamic.symm.trans hstatic
    · exact ⟨hown, hnone⟩
  · intro hstatic
    rcases resolveAmount_eq_ok.mp hamount with ⟨_, hexpected, hown⟩ | ⟨hdynamic, _⟩
    · exact ⟨hown, hexpected⟩
    · cases hstatic.symm.trans hdynamic
  · -- The lifetime that was compiled is the intent's, and says whether a slot was used.
    have hkind : payment.input.intent.lifetime = intent.lifetime := by rw [hinput]
    rcases buildMessage_ok kit hbuild with ⟨lifetime, happly, _⟩
    rcases (applyLifetime_eq_ok kit).mp happly with ⟨ref, hnonce, href, _⟩ | ⟨_, _, hfresh, href, _⟩
    · simp only [href, Option.isSome_some, ← hkind, hnonce]
    · simp only [href, Option.isSome_none, ← hkind, hfresh, Bool.false_eq_true, reduceCtorEq]

/-- What the merchant verifies is what the sale costs and what the payer signed.
    The amount is the expected one if there is one, the intent's own in dynamic
    mode and the answer's in static mode; and an answer of a payer that signs
    only through `signAsPayer` verifies only against an intent with the terms the
    payer signed. -/
theorem verified_is_signed (kit : Kit) (network : Network ρ) :
    (∀ intent auth expectedAmount payment,
      verifyAuth kit intent auth expectedAmount = .ok payment →
      intent.feePayer ≠ auth.payer ∧
      (∀ expected, expectedAmount = some expected → payment.input.amount = expected) ∧
      (intent.isStatic = false → intent.amount = some payment.input.amount ∧ auth.amount = none) ∧
      (intent.isStatic = true →
        auth.amount = some payment.input.amount ∧ expectedAmount = some payment.input.amount) ∧
      (payment.input.nonceRef.isSome = true ↔ intent.lifetime = .nonce) ∧
      payment.input = ⟨intent, auth.payer, auth.nonceRef, payment.input.amount⟩ ∧
      buildMessage kit payment.input = .ok payment.messageBytes ∧
      kit.verifySignature auth.payer auth.signature payment.messageBytes = .ok true) ∧
    (Faithful kit → ∀ key calls held, PayerSigns kit network key calls held →
      ∀ intent auth expectedAmount payment, auth.payer = key.publicKey → auth.signature ∈ held →
      verifyAuth kit intent auth expectedAmount = .ok payment →
      (∃ call ∈ calls, call.2.signature = auth.signature) ∧
      ∀ call ∈ calls, call.2.signature = auth.signature →
        termsOf call.1 = termsOf payment.input) := by
  refine ⟨fun intent auth expectedAmount payment => verifyAuth_ok, ?_⟩
  intro faithful key calls held hpayer intent auth expectedAmount payment hkey hheld h
  rcases (verifyAuth_eq_ok kit).mp h with ⟨_, _, _, hbuild, hverify, _, _⟩
  rcases hpayer.unforgeable _ hheld _ (hkey ▸ hverify) with ⟨made, hmade, hsignature, hmessage⟩
  refine ⟨⟨made, hmade, hsignature⟩, fun call hcall hsame => termsOf_eq faithful ?_ hbuild⟩
  rw [hpayer.once call hcall made hmade (hsame.trans hsignature.symm), hmessage]

/-- The message of `testInput 0`, with owners for their token accounts. -/
def testMessage : TransactionMessage where
  feePayer := testAddress 2
  instructions := [.transferChecked (testAddress 252) (testAddress 1) (testAddress 4)
    (testAddress 2) (testAddress 1) 10 6]
  lifetime := .durableNonce (testNonce 7) (testKit.createAddressWithSeed (testAddress 1)
    (testAddress 251) ("vadum-" ++ toString 0)) (testAddress 1)

/-- A library that has compiled one message, and a platform that has signed it
    for one payer. -/
def onceKit : Kit :=
  { testKit with
    findAssociatedTokenPda := fun owner _ _ => owner
    compileTransaction := fun message =>
      if message = testMessage then .ok [0]
      else .error (.error "SolanaError" "this message does not compile" none)
    verifySignature := fun key signature bytes =>
      .ok (key = testAddress 1 ∧ signature = testSignature (testAddress 1) [0] ∧ bytes = [0]) }

theorem faithful_onceKit : Faithful onceKit where
  compile_inj := fun message message' bytes h h' => by
    have hone {message : TransactionMessage} (h : onceKit.compileTransaction message = .ok bytes) :
        message = testMessage := by
      by_contra hne
      cases (if_neg hne).symm.trans h
    rw [hone h, hone h']
    exact ⟨rfl, rfl, rfl⟩
  ata_inj := fun _ _ _ _ h => h
  tokenProgram_ne := by decide

theorem compile_onceKit : onceKit.compileTransaction testMessage = .ok [0] := by
  simp only [onceKit, if_true]

theorem buildMessage_onceKit : buildMessage onceKit (testInput 0) = .ok [0] := by
  have happly : applyLifetime onceKit (testInput 0) = .ok testMessage.lifetime :=
    (applyLifetime_eq_ok onceKit).mpr (.inl ⟨⟨0, testNonce 7⟩, rfl, rfl, by decide, rfl⟩)
  have hown : ∀ own, testIntent.amount = some own → own = 10 := fun _ h => (Option.some.inj h).symm
  exact (buildMessage_eq_ok onceKit).mpr
    ⟨by decide, by decide, hown, by decide, by decide, _, happly, compile_onceKit⟩

theorem payerMessage_onceKit : payerMessage onceKit (testInput 0) (testKey 1) = .ok [0] :=
  (payerMessage_eq_ok onceKit).mpr ⟨by decide, rfl, rfl, buildMessage_onceKit⟩

/-- The payer's one call, and what it returned. -/
def testCall : CanonicalInput × Auth :=
  (testInput 0, authOf (testInput 0) (testSignature (testAddress 1) [0]))

theorem payerSigns_onceKit :
    PayerSigns onceKit fakeNetwork (testKey 1) {testCall} Set.univ where
  ran := by
    rintro _ rfl
    refine ⟨⟨∅, {}⟩, ?_⟩
    rw [run_signAsPayer, testCall, payerMessage_onceKit]
    rfl
  unforgeable := fun signature _ bytes h => by
    have h := of_decide_eq_true (Except.ok.inj h)
    refine ⟨testCall, rfl, h.2.1.symm, ?_⟩
    rw [h.2.2]
    exact buildMessage_onceKit
  once := by
    rintro _ rfl _ rfl _
    rfl

theorem verified_is_signed_testInput :
    ∃ payment, verifyAuth onceKit testIntent testCall.2 (some 10) = .ok payment ∧
      payment.input.amount = 10 ∧ termsOf (testInput 0) = termsOf payment.input := by
  have hverified : verifyAuth onceKit testIntent testCall.2 (some 10)
      = .ok ⟨testInput 0, [0], testCall.2⟩ := by
    rw [verifyAuth_eq_ok]
    refine ⟨by decide, by decide, ?_, ?_, ?_, rfl, rfl⟩
    · exact resolveAmount_eq_ok.mpr (.inr ⟨rfl, rfl, rfl, .inr rfl⟩)
    · exact buildMessage_onceKit
    · exact congrArg Except.ok (decide_eq_true ⟨rfl, rfl, rfl⟩)
  have hclaim := verified_is_signed onceKit fakeNetwork
  refine ⟨_, hverified, (hclaim.1 _ _ _ _ hverified).2.1 10 rfl, ?_⟩
  exact (hclaim.2 faithful_onceKit (testKey 1) {testCall} Set.univ payerSigns_onceKit _ _ _ _ rfl
    (Set.mem_univ _) hverified).2 testCall rfl rfl

end Verified

end Vadum
