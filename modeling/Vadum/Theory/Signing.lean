import Vadum.Checks.Sequence
import Vadum.Client.FakeRpc

/-!
# What Signing and Verifying Accept

The functions of `Core.Canonical` and `Core.Sign` are sequences of checks around
one call of the library. What each of them accepts, and what it then returns, is
one equivalence here, and everything else about them is read off it.

What the library refuses to compile is documented and is stated as `Library`: a
message with a field that does not fit its width, and one that writes to an
account whose program it invokes. The accounts the source derives are never
programs, so of a payment's accounts only the fee payer can be one.

## Main definitions

* `TransactionMessage.Compilable`, `Library`: What the library does with a
  message.
* `Ed25519`: What the platform's signatures are good for.
* `invokedPrograms`: The programs a payment of an intent invokes.
* `Buildable`: The payments that have a canonical message.
* `payerMessage`: The message `signAsPayer` asks a signature of.

## Theorems

* `buildMessage_eq_ok`, `buildMessage_isOk`: What has a canonical message.
* `resolveAmount_eq_ok`, `verifyAuth_eq_ok`: What the merchant accepts.
* `run_signAsPayer`, `requests_signAsPayer`: A run of `signAsPayer`.
-/

namespace Vadum

open Checks

variable (kit : Kit)

section Messages

/-- The program an instruction invokes. -/
def Instruction.programAddress : Instruction → Address
  | .createAssociatedTokenIdempotent .. => kit.associatedTokenProgramAddress
  | .transferChecked programAddress .. => programAddress

/-- The accounts an instruction writes to. -/
def Instruction.writable : Instruction → List Address
  | .createAssociatedTokenIdempotent payer ata .. => [payer, ata]
  | .transferChecked _ source _ destination _ _ _ => [source, destination]

/-- The numbers in an instruction's data fit their fields. -/
def Instruction.Fits : Instruction → Prop
  | .createAssociatedTokenIdempotent .. => True
  | .transferChecked _ _ _ _ _ amount decimals =>
    0 ≤ amount ∧ amount ≤ u64Max ∧ 0 ≤ decimals ∧ decimals ≤ 255

/-- The bytes that go where a blockhash goes. -/
def MessageLifetime.value : MessageLifetime → List UInt8
  | .durableNonce nonce _ _ => nonce.bytes
  | .blockhash hash _ => hash.bytes

def MessageLifetime.programs : MessageLifetime → List Address
  | .durableNonce .. => [kit.systemProgramAddress]
  | .blockhash .. => []

def MessageLifetime.writable : MessageLifetime → List Address
  | .durableNonce _ nonceAccountAddress _ => [nonceAccountAddress]
  | .blockhash .. => []

/-- The programs a message invokes. -/
def TransactionMessage.programs (message : TransactionMessage) : List Address :=
  message.lifetime.programs kit ++ message.instructions.map (Instruction.programAddress kit)

/-- The accounts a message writes to, its fee payer first. -/
def TransactionMessage.writable (message : TransactionMessage) : List Address :=
  message.feePayer :: (message.lifetime.writable ++ message.instructions.flatMap
    Instruction.writable)

/-- A message every part of which fits its field, and which writes to no program
    it invokes. -/
def TransactionMessage.Compilable (message : TransactionMessage) : Prop :=
  message.lifetime.value.length = 32 ∧
    (∀ instruction ∈ message.instructions, instruction.Fits) ∧
    ∀ program ∈ message.programs kit, program ∉ message.writable

/-- The programs a canonical message can invoke. -/
def Kit.programs : List Address :=
  [kit.systemProgramAddress, kit.tokenProgramAddress, kit.token2022ProgramAddress,
    kit.associatedTokenProgramAddress]

/-- What the library is documented to do with a message. -/
structure Library : Prop where
  compiles : ∀ message : TransactionMessage,
    message.Compilable kit ↔ ∃ bytes, kit.compileTransaction message = .ok bytes
  /-- The block height of a lifetime is kept beside the message, not in it. -/
  height_unused : ∀ feePayer instructions blockhash height height',
    kit.compileTransaction ⟨feePayer, instructions, .blockhash blockhash height⟩
      = kit.compileTransaction ⟨feePayer, instructions, .blockhash blockhash height'⟩
  /-- Derived addresses are hashes, and no program has one. -/
  ata_not_program : ∀ owner mint tokenProgram,
    kit.findAssociatedTokenPda owner mint tokenProgram ∉ kit.programs
  seed_not_program : ∀ base owner seed,
    kit.createAddressWithSeed base owner seed ∉ kit.programs

/-- What a signature of the platform's is: 64 bytes that verify. -/
structure Ed25519 {ρ : Type} (network : Network ρ) : Prop where
  length_sign : ∀ key message net, (network.sign key message net).1.length = 64
  verify_sign : ∀ key message net, kit.verifySignature key.publicKey
    (network.sign key message net).1 message = .ok true

end Messages

section Building

/-- The programs a payment of this intent invokes. -/
def invokedPrograms (intent : Intent) : List Address :=
  (match intent.lifetime with
    | .nonce => [kit.systemProgramAddress]
    | .fresh _ _ => [])
  ++ (if intent.includeCreateAta then [kit.associatedTokenProgramAddress] else [])
  ++ [programAddressOf kit intent.tokenProgram]

/-- A payment has the slot its lifetime calls for, of the width of its fields. -/
def LifetimeFits (lifetime : Lifetime) (nonceRef : Option NonceRef) : Prop :=
  match lifetime, nonceRef with
  | .nonce, some ref => ref.index ≤ 255 ∧ ref.value.bytes.length = 32
  | .fresh blockhash _, none => blockhash.bytes.length = 32
  | _, _ => False

/-- The payments that have a canonical message. -/
@[mk_iff]
structure Buildable (input : CanonicalInput) : Prop where
  amount_nonneg : 0 ≤ input.amount
  amount_le : input.amount ≤ u64Max
  amount_eq : ∀ own, input.intent.amount = some own → own = input.amount
  decimals_nonneg : 0 ≤ input.intent.decimals
  decimals_le : input.intent.decimals ≤ 255
  lifetime_fits : LifetimeFits input.intent.lifetime input.nonceRef
  feePayer_not_program : input.intent.feePayer ∉ invokedPrograms kit input.intent

theorem applyLifetime_eq_ok {input : CanonicalInput} {lifetime : MessageLifetime} :
    applyLifetime kit input = .ok lifetime ↔
      (∃ ref, input.intent.lifetime = .nonce ∧ input.nonceRef = some ref ∧ ref.index ≤ 255 ∧
        .durableNonce ref.value (kit.createAddressWithSeed input.payer kit.systemProgramAddress
          ("vadum-" ++ toString ref.index)) input.payer = lifetime) ∨
      ∃ blockhash height, input.intent.lifetime = .fresh blockhash height ∧
        input.nonceRef = none ∧ .blockhash blockhash height = lifetime := by
  unfold applyLifetime
  rcases input.intent.lifetime with _ | ⟨blockhash, height⟩ <;> rcases input.nonceRef with _ | ref
  · simp only [throw_eq_ok, reduceCtorEq, false_and, and_false, exists_false, or_self]
  · simp only [reduceCtorEq, false_and, exists_false, or_false, true_and, Option.some.injEq,
      exists_eq_left', bind_eq_ok, pure_eq_ok]
    refine ⟨fun ⟨account, haccount, h⟩ => ?_, fun ⟨hindex, h⟩ => ?_⟩
    · rcases deriveNonceAddress_ok kit haccount with ⟨hindex, rfl⟩
      exact ⟨hindex, h⟩
    · exact ⟨_, deriveNonceAddress_of_le kit input.payer hindex, h⟩
  · simp only [reduceCtorEq, false_and, exists_false, false_or, true_and, Lifetime.fresh.injEq,
      pure_eq_ok]
    refine ⟨fun h => ⟨blockhash, height, ⟨rfl, rfl⟩, h⟩, ?_⟩
    rintro ⟨_, _, ⟨rfl, rfl⟩, h⟩
    exact h
  · simp only [throw_eq_ok, reduceCtorEq, false_and, and_false, exists_false, or_self]

/-- A message is built from an amount and decimals that fit, the intent's own
    amount if it has one, and a lifetime. -/
theorem buildMessage_eq_ok {input : CanonicalInput} {bytes : List UInt8} :
    buildMessage kit input = .ok bytes ↔
      0 ≤ input.amount ∧ input.amount ≤ u64Max ∧
      (∀ own, input.intent.amount = some own → own = input.amount) ∧
      0 ≤ input.intent.decimals ∧ input.intent.decimals ≤ 255 ∧
      ∃ lifetime, applyLifetime kit input = .ok lifetime ∧
        kit.compileTransaction
          { feePayer := input.intent.feePayer, instructions := canonicalInstructions kit input,
            lifetime } = .ok bytes := by
  unfold buildMessage
  rcases hown : input.intent.amount with _ | own
  · simp only [hown, throw_bind, ite_throw_eq_ok, bind_eq_ok, not_or, not_lt, gt_iff_lt, and_assoc,
      reduceCtorEq, false_implies, implies_true, true_and]
  · simp only [hown, throw_bind, ite_throw_eq_ok, bind_eq_ok, not_or, not_lt, gt_iff_lt, and_assoc,
      Option.some.injEq, forall_eq', ne_eq, not_not]

theorem invokedPrograms_subset {intent : Intent} {program : Address}
    (h : program ∈ invokedPrograms kit intent) : program ∈ kit.programs := by
  have htoken : programAddressOf kit intent.tokenProgram ∈ kit.programs := by
    rcases intent.tokenProgram <;>
      simp only [programAddressOf, Kit.programs, List.mem_cons, true_or, or_true]
  simp only [invokedPrograms, List.mem_append, List.mem_singleton] at h
  rcases h with (h | h) | rfl
  · split at h
    · rw [List.mem_singleton.mp h]
      simp only [Kit.programs, List.mem_cons, true_or]
    · cases h
  · split at h
    · rw [List.mem_singleton.mp h]
      simp only [Kit.programs, List.mem_cons, true_or, or_true]
    · cases h
  · exact htoken

/-- A canonical message invokes the programs its intent calls for. -/
theorem programs_canonical {input : CanonicalInput} {lifetime : MessageLifetime}
    (h : applyLifetime kit input = .ok lifetime) :
    TransactionMessage.programs kit ⟨input.intent.feePayer, canonicalInstructions kit input,
      lifetime⟩ = invokedPrograms kit input.intent := by
  have hinstructions : (canonicalInstructions kit input).map (Instruction.programAddress kit)
      = (if input.intent.includeCreateAta then [kit.associatedTokenProgramAddress] else [])
        ++ [programAddressOf kit input.intent.tokenProgram] := by
    rcases hcreate : input.intent.includeCreateAta <;>
      simp only [canonicalInstructions, hcreate, Bool.false_eq_true, if_false, if_true,
        List.nil_append, List.map_cons, List.map_append, List.map_nil, Instruction.programAddress]
  simp only [TransactionMessage.programs, hinstructions, invokedPrograms, List.append_assoc]
  rcases (applyLifetime_eq_ok kit).mp h with ⟨ref, hkind, _, _, rfl⟩ | ⟨hash, height, hkind, _, rfl⟩
  · simp only [MessageLifetime.programs, hkind]
  · simp only [MessageLifetime.programs, hkind]

/-- Of the accounts a canonical message writes to, only the fee payer can be a
    program: the others are derived. -/
theorem writable_canonical (library : Library kit) {input : CanonicalInput}
    {lifetime : MessageLifetime} (h : applyLifetime kit input = .ok lifetime) {account : Address}
    (haccount : account ∈ TransactionMessage.writable
      ⟨input.intent.feePayer, canonicalInstructions kit input, lifetime⟩) :
    account = input.intent.feePayer ∨ account ∉ kit.programs := by
  have hata owner : deriveAta kit owner input.intent.mint input.intent.tokenProgram
      ∉ kit.programs := library.ata_not_program _ _ _
  simp only [TransactionMessage.writable, List.mem_cons, List.mem_append, List.mem_flatMap,
    canonicalInstructions] at haccount
  -- The fee payer, the nonce account, the accounts of the creation, those of the transfer.
  rcases haccount with rfl | hlifetime | ⟨instruction, hcreate | hlast, haccount⟩
  · exact .inl rfl
  · rcases (applyLifetime_eq_ok kit).mp h with ⟨ref, _, _, _, rfl⟩ | ⟨hash, height, _, _, rfl⟩
    · rw [List.mem_singleton.mp hlifetime]
      exact .inr (library.seed_not_program _ _ _)
    · cases hlifetime
  · split at hcreate
    · rw [List.mem_singleton.mp hcreate] at haccount
      simp only [Instruction.writable, List.mem_cons, List.not_mem_nil, or_false] at haccount
      rcases haccount with rfl | rfl
      · exact .inl rfl
      · exact .inr (hata _)
    · cases hcreate
  · rw [hlast.resolve_right List.not_mem_nil] at haccount
    simp only [Instruction.writable, List.mem_cons, List.not_mem_nil, or_false] at haccount
    rcases haccount with rfl | rfl
    · exact .inr (hata _)
    · exact .inr (hata _)

theorem fits_canonical {input : CanonicalInput} :
    (∀ instruction ∈ canonicalInstructions kit input, instruction.Fits) ↔
      0 ≤ input.amount ∧ input.amount ≤ u64Max ∧ 0 ≤ input.intent.decimals ∧
        input.intent.decimals ≤ 255 := by
  rcases hcreate : input.intent.includeCreateAta <;>
    simp only [canonicalInstructions, hcreate, Bool.false_eq_true, if_false, if_true,
      List.nil_append, List.singleton_append, List.mem_cons, List.not_mem_nil, or_false,
      forall_eq_or_imp, forall_eq, Instruction.Fits, true_and]

theorem lifetimeFits_iff {input : CanonicalInput} :
    LifetimeFits input.intent.lifetime input.nonceRef ↔
      ∃ lifetime, applyLifetime kit input = .ok lifetime ∧ lifetime.value.length = 32 := by
  simp only [applyLifetime_eq_ok, LifetimeFits]
  rcases input.intent.lifetime with _ | ⟨hash, height⟩ <;> rcases input.nonceRef with _ | ref
  · simp only [reduceCtorEq, false_and, and_false, exists_false, or_self]
  · simp only [reduceCtorEq, false_and, exists_false, or_false, true_and, Option.some.injEq,
      exists_eq_left']
    refine ⟨fun ⟨hindex, hlength⟩ => ⟨_, ⟨hindex, rfl⟩, hlength⟩, ?_⟩
    rintro ⟨_, ⟨hindex, rfl⟩, hlength⟩
    exact ⟨hindex, hlength⟩
  · simp only [reduceCtorEq, false_and, exists_false, false_or, true_and, Lifetime.fresh.injEq]
    refine ⟨fun hlength => ⟨_, ⟨hash, height, ⟨rfl, rfl⟩, rfl⟩, hlength⟩, ?_⟩
    rintro ⟨_, ⟨_, _, ⟨rfl, rfl⟩, rfl⟩, hlength⟩
    exact hlength
  · simp only [reduceCtorEq, false_and, and_false, exists_false, or_self]

/-- The payments that have a canonical message. -/
theorem buildMessage_isOk (library : Library kit) {input : CanonicalInput} :
    (∃ bytes, buildMessage kit input = .ok bytes) ↔ Buildable kit input := by
  -- What compiling asks of a canonical message, said of the input.
  have hcompilable {lifetime} (h : applyLifetime kit input = .ok lifetime) :
      TransactionMessage.Compilable kit
        ⟨input.intent.feePayer, canonicalInstructions kit input, lifetime⟩ ↔
      lifetime.value.length = 32 ∧ (0 ≤ input.amount ∧ input.amount ≤ u64Max ∧
        0 ≤ input.intent.decimals ∧ input.intent.decimals ≤ 255) ∧
        input.intent.feePayer ∉ invokedPrograms kit input.intent := by
    rw [TransactionMessage.Compilable, programs_canonical kit h, fits_canonical]
    refine and_congr_right fun _ => and_congr_right fun _ => ⟨fun hwrites hpayer => ?_,
      fun hpayer program hprogram hwrites => ?_⟩
    · exact hwrites _ hpayer List.mem_cons_self
    · rcases writable_canonical kit library h hwrites with rfl | hderived
      · exact hpayer hprogram
      · exact hderived (invokedPrograms_subset kit hprogram)
  simp only [buildMessage_eq_ok]
  rw [buildable_iff, lifetimeFits_iff kit]
  refine ⟨fun ⟨bytes, hlow, hhigh, hown, hlow', hhigh', lifetime, happly, hbytes⟩ => ?_,
    fun ⟨hlow, hhigh, hown, hlow', hhigh', ⟨lifetime, happly, hlength⟩, hpayer⟩ => ?_⟩
  · rcases (hcompilable happly).mp ((library.compiles _).mpr ⟨bytes, hbytes⟩) with
      ⟨hlength, _, hpayer⟩
    exact ⟨hlow, hhigh, hown, hlow', hhigh', ⟨lifetime, happly, hlength⟩, hpayer⟩
  · rcases (library.compiles _).mp ((hcompilable happly).mpr
      ⟨hlength, ⟨hlow, hhigh, hlow', hhigh'⟩, hpayer⟩) with ⟨bytes, hbytes⟩
    exact ⟨bytes, hlow, hhigh, hown, hlow', hhigh', lifetime, happly, hbytes⟩

end Building

section Verifying

/-- The amount of a payment is the intent's own, which nothing else may
    contradict, or in static mode the one that both the payer and the merchant
    name. -/
theorem resolveAmount_eq_ok {intent : Intent} {auth : Auth} {expectedAmount : Option Int}
    {amount : Int} :
    resolveAmount intent auth expectedAmount = .ok amount ↔
      (intent.isStatic = true ∧ expectedAmount = some amount ∧ auth.amount = some amount) ∨
      (intent.isStatic = false ∧ intent.amount = some amount ∧ auth.amount = none ∧
        (expectedAmount = none ∨ expectedAmount = some amount)) := by
  unfold resolveAmount
  rcases hstatic : intent.isStatic
  · rcases hown : intent.amount with _ | own
    · simp only [Bool.false_eq_true, if_false, throw_eq_ok, reduceCtorEq, false_and, and_false,
        or_self]
    · simp only [Bool.false_eq_true, if_false, throw_bind, ite_throw_eq_ok, pure_eq_ok, ne_eq,
        not_not, not_and_or, false_and, false_or, true_and, Option.some.injEq]
      refine ⟨fun ⟨hamount, hexpected, h⟩ => ⟨h, hamount, h ▸ hexpected⟩,
        fun ⟨h, hamount, hexpected⟩ => ⟨hamount, h ▸ hexpected, h⟩⟩
  · rcases expectedAmount with _ | expected <;> rcases auth.amount with _ | paid
    · simp only [if_true, throw_eq_ok, reduceCtorEq, false_and, and_false, or_self]
    · simp only [if_true, throw_eq_ok, reduceCtorEq, false_and, and_false, or_self]
    · simp only [if_true, throw_eq_ok, reduceCtorEq, false_and, and_false, or_self]
    · simp only [if_true, throw_bind, ite_throw_eq_ok, pure_eq_ok, ne_eq, not_not, true_and,
        Option.some.injEq, reduceCtorEq, false_and, or_false]
      refine ⟨fun ⟨hsame, h⟩ => ⟨hsame ▸ h, h⟩, fun ⟨hexpected, h⟩ => ⟨?_, h⟩⟩
      exact h.trans hexpected.symm

/-- The merchant accepts a signature that verifies over the message it builds
    itself. -/
theorem verifyAuth_eq_ok {intent : Intent} {auth : Auth} {expectedAmount : Option Int}
    {payment : VerifiedPayment} :
    verifyAuth kit intent auth expectedAmount = .ok payment ↔
      auth.signature.length = 64 ∧ intent.feePayer ≠ auth.payer ∧
      resolveAmount intent auth expectedAmount = .ok payment.input.amount ∧
      buildMessage kit payment.input = .ok payment.messageBytes ∧
      kit.verifySignature auth.payer auth.signature payment.messageBytes = .ok true ∧
      payment.auth = auth ∧
      payment.input = ⟨intent, auth.payer, auth.nonceRef, payment.input.amount⟩ := by
  rcases payment with ⟨input, messageBytes, auth'⟩
  unfold verifyAuth
  simp only [throw_bind, ite_throw_eq_ok, bind_eq_ok, pure_eq_ok, not_not,
    VerifiedPayment.mk.injEq]
  refine and_congr_right fun _ => and_congr_right fun _ => ⟨?_, ?_⟩
  · rintro ⟨amount, hamount, bytes, hbytes, hverify, rfl, rfl, rfl⟩
    refine ⟨hamount, hbytes, ?_, rfl, rfl⟩
    rcases hanswer : kit.verifySignature auth.payer auth.signature bytes with e | valid
    · rw [hanswer] at hverify
      cases hverify
    · rw [hanswer] at hverify
      exact congrArg Except.ok hverify
  · rintro ⟨hamount, hbytes, hverify, rfl, hinput⟩
    refine ⟨input.amount, hamount, messageBytes, ?_, ?_, hinput.symm, rfl, rfl⟩
    · rw [← hinput, hbytes]
    · rw [hverify]

end Verifying

section Signing

variable {ρ σ : Type}

/-- The message `signAsPayer` asks a signature of. -/
def payerMessage (input : CanonicalInput) (key : CryptoKeyPair) : Except Thrown (List UInt8) := do
  if input.intent.feePayer = input.payer then
    throw (vadumError .wireFeePayerIsPayer [("payer", .address input.payer)])
  if input.intent.isStatic ≠ input.intent.amount.isNone then
    throw (vadumError .canonAmountMismatch
      [("reason", .text "a static intent carries no amount and a dynamic one always does")])
  if key.publicKey ≠ input.payer then
    throw (vadumError .canonAccountMismatch
      [("reason", .text "the key is not the payer"), ("payer", .address input.payer),
        ("key", .address key.publicKey)])
  buildMessage kit input

theorem payerMessage_eq_ok {input : CanonicalInput} {key : CryptoKeyPair} {bytes : List UInt8} :
    payerMessage kit input key = .ok bytes ↔
      input.intent.feePayer ≠ input.payer ∧ input.intent.isStatic = input.intent.amount.isNone ∧
      key.publicKey = input.payer ∧ buildMessage kit input = .ok bytes := by
  simp only [payerMessage, throw_bind, ite_throw_eq_ok, ne_eq, not_not]

/-- The authorisation a payer returns with its signature. -/
def authOf (input : CanonicalInput) (signature : Signature) : Auth where
  payer := input.payer
  nonceRef := input.nonceRef
  amount := if input.intent.isStatic then some input.amount else none
  signature := signature

/-- Signing asks for one signature, of the payer's message. -/
theorem signAsPayer_eq (input : CanonicalInput) (key : CryptoKeyPair) :
    (signAsPayer kit input key : Client σ Auth)
      = Async.Process.ofResult (payerMessage kit input key) >>= fun bytes =>
        sign key bytes >>= fun signature => pure (authOf input signature) := by
  unfold signAsPayer payerMessage
  by_cases hpayer : input.intent.feePayer = input.payer
  · rw [if_pos hpayer, if_pos hpayer]
    rfl
  · rw [if_neg hpayer, if_neg hpayer]
    by_cases hstatic : input.intent.isStatic ≠ input.intent.amount.isNone
    · rw [if_pos hstatic, if_pos hstatic]
      rfl
    · rw [if_neg hstatic, if_neg hstatic]
      by_cases hkey : key.publicKey ≠ input.payer
      · rw [if_pos hkey, if_pos hkey]
        rfl
      · rw [if_neg hkey, if_neg hkey]
        rcases hbuild : buildMessage kit input with e | bytes
        · rfl
        · -- The bytes just built are canonical, so the check before signing passes.
          change Async.Process.ofResult (assertCanonical kit bytes input) >>= _ = _
          rw [assertCanonical_self kit hbuild]
          rfl

variable (network : Network ρ)

/-- A payer whose message is built returns its authorisation, and a payer whose
    message is not has done nothing. -/
theorem run_signAsPayer (input : CanonicalInput) (key : CryptoKeyPair) (s : σ) (w : World ρ) :
    Async.Process.run (reply network) (signAsPayer kit input key) s w
      = match payerMessage kit input key with
        | .ok bytes => ⟨.ok (authOf input (network.sign key bytes w.net).1), s,
            { w with net := (network.sign key bytes w.net).2 }⟩
        | .error e => ⟨.error e, s, w⟩ := by
  rw [signAsPayer_eq]
  rcases payerMessage kit input key with e | bytes
  · rfl
  · rfl

/-- The one thing a payer asks for is a signature of its message. -/
theorem requests_signAsPayer {input : CanonicalInput} {key : CryptoKeyPair} {bytes : List UInt8}
    (h : payerMessage kit input key = .ok bytes) (s : σ) (w : World ρ) :
    Async.Process.requests (reply network) (signAsPayer kit input key) s w
      = [(.sign key bytes, w)] := by
  rw [signAsPayer_eq, h]
  rfl

end Signing

section Doubles

instance (instruction : Instruction) : Decidable instruction.Fits := by
  unfold Instruction.Fits
  split <;> infer_instance

instance (message : TransactionMessage) : Decidable (message.Compilable kit) :=
  inferInstanceAs (Decidable (_ ∧ _ ∧ _))

/-- The double of the library, refusing what the library refuses. -/
def strictKit : Kit :=
  { testKit with
    compileTransaction := fun message =>
      if message.Compilable testKit then testKit.compileTransaction message
      else .error (.error "SolanaError" "this message does not compile" none) }

/-- The double's hashes end in a zero. -/
theorem testDigest_last (bytes : List UInt8) : (testDigest bytes)[31]? = some 0 := by
  have hlt : ∀ (bytes : List UInt8) (n : Nat), n < 2 ^ 61 - 1 →
      bytes.foldl (fun n b => (n * 257 + b.toNat + 1) % (2 ^ 61 - 1)) n < 2 ^ 61 - 1 := by
    intro bytes
    induction bytes with
    | nil => exact fun n h => h
    | cons b bytes ih => exact fun n _ => ih _ (Nat.mod_lt _ (by decide))
  have hzero := Nat.div_eq_of_lt ((hlt bytes 0 (by decide)).trans
    (show 2 ^ 61 - 1 < 2 ^ (2 * 31) by decide))
  simp only [testDigest, List.getElem?_map, List.getElem?_range (show 31 < 32 by decide),
    Option.map_some, hzero]
  rfl

theorem testDigest_not_program {address : Address} (h : address.bytes[31]? = some 0) :
    address ∉ strictKit.programs := by
  intro hprogram
  simp only [Kit.programs, List.mem_cons, List.not_mem_nil, or_false] at hprogram
  rcases hprogram with rfl | rfl | rfl | rfl <;> cases h

theorem library_strictKit : Library strictKit where
  compiles := fun message => by
    by_cases h : message.Compilable testKit
    · exact ⟨fun _ => ⟨_, if_pos h⟩, fun _ => h⟩
    · refine ⟨fun h' => absurd h' h, fun ⟨bytes, hbytes⟩ => ?_⟩
      cases (if_neg h).symm.trans hbytes
  height_unused := fun _ _ _ _ _ => rfl
  ata_not_program := fun _ _ _ => testDigest_not_program (testDigest_last _)
  seed_not_program := fun _ _ _ => testDigest_not_program (testDigest_last _)

theorem ed25519_strictKit : Ed25519 strictKit fakeNetwork where
  length_sign := fun key message _ => by
    simp only [fakeNetwork, testSignature, List.length_append, testDigest_length,
      Address.length_eq]
  verify_sign := fun key message _ => by
    simp only [strictKit, testKit, fakeNetwork, decide_true]

end Doubles

end Vadum
