import Vadum.Client.FakeRpc
import Vadum.Theory.Submission

/-!
# What a Send Comes To

What `submit` makes of a send that landed, and of one that did not.

A payment that landed is settled, even if the slot cannot be read back; so the
source says. But the slot is read back inside the same `try` as the send, and
once more in the `catch`, where nothing guards it. A read that throws after the
payment has landed is taken for a failure of the send.

A failed send is judged by the chain. Whatever the error says of itself, the
lookup of the signature alone decides the fee and whether the payment settled.
The error's text only names a failure that neither the signature nor the nonce
account explains.

## Main definitions

* `Lands`: The send resolves, or throws and the signature has landed.
* `Settles`: The submission reports the settlement.
* `ReadsBack`: The slot can be read back where it is read.
* `SendFails`: The send throws, and the lookups answer.

## Theorems

* `settles_iff`: A payment that landed is reported settled if and only if its
  slot can be read back.
* `settled_lost`: A settlement that is lost.
* `chain_decides`: The chain decides what a failed send cost and means.
-/

namespace Vadum

open Async.Process

variable {ρ σ : Type}

/-- A payment that fits its key is sent. -/
theorem run_submit (network : Network ρ) {kit : Kit} {payment : VerifiedPayment}
    {feePayerKey : CryptoKeyPair} {lifetime : PaymentLifetime} {signers : List Address}
    (h : Sendable kit payment feePayerKey lifetime signers) (s : σ) (w : World ρ) :
    run (reply network) (submit kit payment feePayerKey) s w
      = run (reply network) (Async.Process.tryCatch
          (sendAndReadBack kit payment (wireAt network payment feePayerKey signers w.net) lifetime)
          fun e => afterFailure kit payment lifetime
            (wireAt network payment feePayerKey signers w.net).signature e) s
          { w with net := (network.sign feePayerKey payment.messageBytes w.net).2 } := by
  simp only [submit, run_bind, run_ofResult, h.timed]
  rcases buildWireTransaction_cases network s w kit payment h.timed feePayerKey with
    ⟨signers', h', hrun⟩ | ⟨hnot, _⟩
  · cases Except.ok.inj (h'.required.symm.trans h.required)
    rw [hrun]
    rfl
  · exact absurd h (hnot signers)

section Lands

variable (network : Network ρ) (kit : Kit) (payment : VerifiedPayment) (feePayerKey : CryptoKeyPair)

/-- The payment is sent and lands, as far as the network says: the send resolves,
    or it throws and the signature is found to have landed well. -/
inductive Lands (n : ρ) : Prop
  | sent {lifetime : PaymentLifetime} {signers : List Address} {signature : Signature} {n₂ : ρ}
      (sendable : Sendable kit payment feePayerKey lifetime signers)
      (resolves : network.rpc (.sendPayment (wireAt network payment feePayerKey signers n) lifetime)
        (network.sign feePayerKey payment.messageBytes n).2 = (.ok signature, n₂))
  | found {lifetime : PaymentLifetime} {signers : List Address} {e : Thrown} {n₂ n₃ : ρ}
      (sendable : Sendable kit payment feePayerKey lifetime signers)
      (throws : network.rpc (.sendPayment (wireAt network payment feePayerKey signers n) lifetime)
        (network.sign feePayerKey payment.messageBytes n).2 = (.error e, n₂))
      (lookup : network.rpc (.getSignatureOutcome
        (wireAt network payment feePayerKey signers n).signature) n₂ = (.ok .landedOk, n₃))

/-- The slot can be read back where it is read from this moment on: after the
    send, or, if that read throws or the send did, once the signature is found to
    have landed. -/
def ReadBack (wire : WireTransaction) (lifetime : PaymentLifetime) (n : ρ) : Prop :=
  (∃ signature n₁, network.rpc (.sendPayment wire lifetime) n = (.ok signature, n₁) ∧
    AccountAnswers network kit payment n₁) ∨
  ∃ e n₁ n₂, SendThrows network kit payment wire lifetime n e n₁ ∧
    network.rpc (.getSignatureOutcome wire.signature) n₁ = (.ok .landedOk, n₂) ∧
    AccountAnswers network kit payment n₂

/-- The slot can be read back where the submission reads it. -/
def ReadsBack (n : ρ) : Prop :=
  ∃ lifetime signers, Sendable kit payment feePayerKey lifetime signers ∧
    ReadBack network kit payment (wireAt network payment feePayerKey signers n) lifetime
      (network.sign feePayerKey payment.messageBytes n).2

/-- The submission reports the settlement, and a new value only if the slot was
    read to hold it. -/
def Settles (s : σ) (w : World ρ) : Prop :=
  ∃ signature value n', run (reply network) (submit kit payment feePayerKey) s w
      = ⟨.ok (.settled signature value), s, { w with net := n' }⟩ ∧
    ∀ v, value = some v → ∃ ref address authority lamports m m',
      payment.input.nonceRef = some ref ∧
      deriveNonceAddress kit payment.input.payer ref.index = .ok address ∧
      network.rpc (.getNonceAccount address) m = (.ok (.initialized authority v lamports), m')

end Lands

section SettlesIff

variable {network : Network ρ} {kit : Kit} {payment : VerifiedPayment}
  {feePayerKey : CryptoKeyPair} {s : σ} {w : World ρ}

/-- A new value is one the slot was read to hold. -/
theorem read_of_newNonceValueOf {value : Option Nonce} {s' : σ} {w' : World ρ}
    (h : run (reply network) (newNonceValueOf kit payment) s w = ⟨.ok value, s', w'⟩) {v : Nonce}
    (hvalue : value = some v) : ∃ ref address authority lamports m m',
      payment.input.nonceRef = some ref ∧
      deriveNonceAddress kit payment.input.payer ref.index = .ok address ∧
      network.rpc (.getNonceAccount address) m = (.ok (.initialized authority v lamports), m') := by
  subst hvalue
  -- A value is read only along the whole path: a slot, its address, an account that is answered.
  rcases href : payment.input.nonceRef with _ | ref
  · simp only [newNonceValueOf, href, run_pure] at h
    cases h
  rcases haddress : deriveNonceAddress kit payment.input.payer ref.index with e | address
  · simp only [newNonceValueOf, href, haddress, run_bind, run_ofResult] at h
    cases h
  rcases hans : network.rpc (.getNonceAccount address) w.net with ⟨e | account, n'⟩
  · simp only [newNonceValueOf, href, haddress, run_bind, run_ofResult, run_getNonceAccount,
      hans] at h
    cases h
  · simp only [newNonceValueOf, href, haddress, run_bind, run_ofResult, run_getNonceAccount,
      hans] at h
    cases account with
    | absent => cases h
    | uninitialized => cases h
    | initialized authority value lamports =>
        cases h
        exact ⟨ref, address, authority, lamports, w.net, n', rfl, haddress, hans⟩

/-- A slot that can be read back settles a payment that was found to have landed. -/
theorem run_afterFailure_landedOk {lifetime : PaymentLifetime} {signature : Signature} {e : Thrown}
    {n₃ : ρ} (hlookup : network.rpc (.getSignatureOutcome signature) w.net = (.ok .landedOk, n₃)) :
    run (reply network) (afterFailure kit payment lifetime signature e) s w
      = run (reply network) (newNonceValueOf kit payment >>= fun value =>
          pure (.settled signature value)) s { w with net := n₃ } := by
  simp only [afterFailure, run_bind, run_getSignatureOutcome, hlookup]

/-- A value that is read back is one the slot was read to hold. -/
theorem read_of_sendAndReadBack {wire : WireTransaction} {lifetime : PaymentLifetime}
    {signature : Signature} {value : Option Nonce} {s' : σ} {w' : World ρ}
    (h : run (reply network) (sendAndReadBack kit payment wire lifetime) s w
      = ⟨.ok (.settled signature value), s', w'⟩) {v : Nonce} (hvalue : value = some v) :
    ∃ ref address authority lamports m m', payment.input.nonceRef = some ref ∧
      deriveNonceAddress kit payment.input.payer ref.index = .ok address ∧
      network.rpc (.getNonceAccount address) m = (.ok (.initialized authority v lamports), m') := by
  simp only [sendAndReadBack, run_bind, run_sendPayment] at h
  rcases hsend : network.rpc (.sendPayment wire lifetime) w.net with ⟨e | sent, n₁⟩
  · rw [hsend] at h
    cases h
  rw [hsend] at h
  rcases hread : run (reply network) (newNonceValueOf kit payment) s { w with net := n₁ } with
    ⟨e | value', s'', w''⟩
  · simp only [hread] at h
    cases h
  · simp only [hread, run_pure] at h
    cases h
    exact read_of_newNonceValueOf hread hvalue

/-- A send whose slot is read back settles, and no other does. -/
theorem settles_of_sendable {lifetime : PaymentLifetime} {signers : List Address}
    (h : Sendable kit payment feePayerKey lifetime signers) :
    Settles network kit payment feePayerKey s w ↔
      ReadBack network kit payment (wireAt network payment feePayerKey signers w.net) lifetime
        (network.sign feePayerKey payment.messageBytes w.net).2 := by
  have hrun := run_submit network h s w
  rw [run_tryCatch] at hrun
  -- Either the sending threw and a lookup decides, or the account answered after it.
  rcases send_cases network s
      { w with net := (network.sign feePayerKey payment.messageBytes w.net).2 } kit payment
      (wireAt network payment feePayerKey signers w.net) lifetime with
    ⟨e, n₂, hthrows, hsend⟩ | ⟨_, sent, value, n₂, n', hanswer, haccount, hsend⟩
  · rw [hsend] at hrun
    change _ = run (reply network) (afterFailure kit payment lifetime _ e) s
      { w with net := n₂ } at hrun
    -- Where the sending threw, the node's own answer was not followed by a readable account.
    have hnot : ∀ signature n₁, network.rpc (.sendPayment
        (wireAt network payment feePayerKey signers w.net) lifetime)
          (network.sign feePayerKey payment.messageBytes w.net).2 = (.ok signature, n₁) →
        ¬ AccountAnswers network kit payment n₁ := by
      rintro signature n₁ hok
      rcases hthrows with herr | ⟨sent, n₁', hok', haccount⟩
      · cases hok.symm.trans herr
      · cases hok.symm.trans hok'
        exact not_answers_of_throws network haccount
    -- Recovery: it is settled only if the lookup says `landedOk` and the account is read then.
    rcases afterFailure_cases network s { w with net := n₂ } h.timed
        (wireAt network payment feePayerKey signers w.net).signature e with
      ⟨⟨outcome', n₃', hlookup', haccount, _⟩, outcome, n₃, o, n', hlookup, hsettled, hafter⟩ |
      ⟨hlookup, e', n', hafter⟩
    · cases hlookup'.symm.trans hlookup
      constructor
      · rintro ⟨signature, value, n'', hsettles, _⟩
        cases (hsettles.symm.trans hrun).trans hafter
        rw [hsettled.mp rfl] at hlookup
        exact .inr ⟨e, n₂, n₃', hthrows, hlookup, haccount (hsettled.mp rfl)⟩
      · rintro (⟨signature, n₁, hok, hans⟩ | ⟨e', n₂', n₃', hthrows', hlookup', hans⟩)
        · exact absurd hans (hnot signature n₁ hok)
        · rcases sendThrows_unique network hthrows hthrows' with ⟨rfl, rfl⟩
          cases hlookup.symm.trans hlookup'
          rw [run_afterFailure_landedOk (w := { w with net := n₂ }) hlookup, run_bind] at hrun
          rcases run_newNonceValueOf_answers network s { w with net := n₃' } hans with
            ⟨value, n'', hread⟩
          rw [hread] at hrun
          exact ⟨_, value, n'', hrun, fun v => read_of_newNonceValueOf hread⟩
    · constructor
      · rintro ⟨signature, value, n'', hsettles, _⟩
        cases (hsettles.symm.trans hrun).trans hafter
      · rintro (⟨signature, n₁, hok, hans⟩ | ⟨e', n₂', n₃', hthrows', hlookup', hans⟩)
        · exact absurd hans (hnot signature n₁ hok)
        · rcases sendThrows_unique network hthrows hthrows' with ⟨rfl, rfl⟩
          exact absurd ⟨.landedOk, n₃', hlookup', fun _ => hans, nofun⟩ hlookup
  · rw [hsend] at hrun
    exact ⟨fun _ => .inl ⟨sent, n₂, hanswer, haccount⟩,
      fun _ => ⟨sent, value, n', hrun, fun v => read_of_sendAndReadBack hsend⟩⟩

/-- A payment is reported settled if and only if its slot can be read back where
    the submission reads it, and then it has landed. -/
theorem settles_iff (network : Network ρ) (kit : Kit) (payment : VerifiedPayment)
    (feePayerKey : CryptoKeyPair) (s : σ) (w : World ρ) :
    (Settles network kit payment feePayerKey s w ↔
      ReadsBack network kit payment feePayerKey w.net) ∧
    (ReadsBack network kit payment feePayerKey w.net →
      Lands network kit payment feePayerKey w.net) := by
  refine ⟨⟨fun h => ?_, fun ⟨lifetime, signers, hsendable, hways⟩ =>
    (settles_of_sendable hsendable).mpr hways⟩, fun ⟨lifetime, signers, hsendable, hways⟩ => ?_⟩
  · rcases h with ⟨signature, value, n', hrun, hvalue⟩
    rcases sendable_of_settled network s w hrun rfl with ⟨⟨lifetime, signers, hsendable⟩, _⟩
    exact ⟨lifetime, signers, hsendable,
      (settles_of_sendable hsendable).mp ⟨signature, value, n', hrun, hvalue⟩⟩
  · rcases hways with ⟨signature, n₂, hsend, _⟩ |
      ⟨e, n₂, n₃, hthrows | ⟨signature, n', hsend, _⟩, hlookup, _⟩
    · exact .sent hsendable hsend
    · exact .found hsendable hthrows hlookup
    · exact .sent hsendable hsend

/-- A double whose send goes through, and that answers nothing afterwards. -/
def sentNetwork : Network Bool where
  rpc := fun c broken => match c, broken with
    | .sendPayment _ _, false => (.ok (List.replicate 64 1), true)
    | _, broken => (.error (.error "TypeError" "fetch failed" none), broken)
  storage := fun n => (none, n)
  sign := fun key message n => (testSignature key.publicKey message, n)
  clock := fun _ => 0
  randomUUID := fun n => ("epoch", n)
  tick := id

theorem sendable_testPayment :
    Sendable testKit (testPayment 0) (testKey 2)
      (.nonce (testNonce 7) (testAccount 0 (testNonce 7)).1 (testAddress 1))
      [testAddress 2, testAddress 1] where
  timed := by decide +kernel
  feePayer := by decide +kernel
  length := by decide +kernel
  required := by decide +kernel
  signs := by decide +kernel
  complete := by decide +kernel

/-- A payment that landed, and that is not reported settled: the send resolves,
    and the connection breaks before the slot is read. -/
theorem settled_lost :
    Lands sentNetwork testKit (testPayment 0) (testKey 2) false ∧
      ¬ Settles sentNetwork testKit (testPayment 0) (testKey 2) () ⟨∅, false⟩ := by
  refine ⟨.sent sendable_testPayment rfl, ?_⟩
  rintro ⟨signature, value, n', hrun, _⟩
  have hthrows : (run (reply sentNetwork) (submit testKit (testPayment 0) (testKey 2)) ()
      ⟨∅, false⟩).result.toOption = none := by decide +kernel
  rw [hrun] at hthrows
  cases hthrows

end SettlesIff

section Decides

/-- The fee was charged. -/
def SubmitOutcome.feeCharged : SubmitOutcome → Bool
  | .settled _ _ => false
  | .failed _ feeCharged _ => feeCharged

/-- The code of a failure. -/
def SubmitOutcome.code : SubmitOutcome → Option VadumErrorCode
  | .settled _ _ => none
  | .failed code _ _ => some code

/-- The code of a failure that cost nothing, given what the account says of the
    payment and what the error says of itself. -/
def NonceVerdict.code (fromError : VadumErrorCode) : NonceVerdict → VadumErrorCode
  | .ok _ => fromError
  | .stale _ => .submitNonceStale
  | _ => .submitNonceAbsent

/-- The send of a payment throws, and every lookup that follows is answered. -/
structure SendFails (network : Network ρ) (kit : Kit) (payment : VerifiedPayment)
    (feePayerKey : CryptoKeyPair) (n : ρ) (e : Thrown) (outcome : SignatureOutcome) (n₃ : ρ) :
    Prop where
  throws : ∃ lifetime signers n₂, Sendable kit payment feePayerKey lifetime signers ∧
    SendThrows network kit payment (wireAt network payment feePayerKey signers n) lifetime
      (network.sign feePayerKey payment.messageBytes n).2 e n₂ ∧
    network.rpc (.getSignatureOutcome (wireAt network payment feePayerKey signers n).signature) n₂
      = (.ok outcome, n₃)
  answers : AccountAnswers network kit payment n₃

variable {network : Network ρ} {kit : Kit} {payment : VerifiedPayment}
  {feePayerKey : CryptoKeyPair} {s : σ} {w : World ρ} {e : Thrown} {outcome : SignatureOutcome}
  {n₃ : ρ}

/-- No error names the state of a nonce account. -/
theorem codeFromError_ne (kit : Kit) (e : Thrown) {code : VadumErrorCode}
    (h : codeFromError kit e = some code) :
    code ≠ .submitNonceStale ∧ code ≠ .submitNonceAbsent := by
  simp only [codeFromError] at h
  split at h
  · cases h
    exact ⟨nofun, nofun⟩
  split at h
  · cases h
    exact ⟨nofun, nofun⟩
  split at h
  · cases h
    exact ⟨nofun, nofun⟩
  split at h
  · cases h
    exact ⟨nofun, nofun⟩
  · cases h

/-- The code a failure falls back on names no state of a nonce account either. -/
theorem fallback_ne (kit : Kit) (e : Thrown) :
    (codeFromError kit e).getD .submitRpcUnavailable ≠ .submitNonceStale ∧
      (codeFromError kit e).getD .submitRpcUnavailable ≠ .submitNonceAbsent := by
  rcases h : codeFromError kit e with _ | code
  · exact ⟨nofun, nofun⟩
  · exact codeFromError_ne kit e h

/-- The check judges the account it reads. -/
theorem run_precheckNonce (hkind : payment.input.intent.lifetime = .nonce) {ref : NonceRef}
    (href : payment.input.nonceRef = some ref) {address : Address}
    (haddress : deriveNonceAddress kit payment.input.payer ref.index = .ok address)
    {account : NonceAccountState} {n₄ : ρ}
    (hans : network.rpc (.getNonceAccount address) w.net = (.ok account, n₄)) :
    run (reply network) (precheckNonce kit payment) s w
      = ⟨.ok (verdictOf payment.input.payer ref.value account), s, { w with net := n₄ }⟩ := by
  simp only [precheckNonce, hkind, href, haddress, run_bind, run_ofResult, run_getNonceAccount,
    hans, run_pure]

/-- What a failure comes to if nothing landed: a code, and no fee. -/
inductive Free (network : Network ρ) (kit : Kit) (payment : VerifiedPayment) (e : Thrown) (n₃ : ρ) :
    VadumErrorCode → Prop
  | processed (h : codeFromError kit e = some .submitAlreadyProcessed) :
      Free network kit payment e n₃ .submitAlreadyProcessed
  | fresh {blockhash : Blockhash} {lastValidBlockHeight : Int}
      (h : codeFromError kit e ≠ some .submitAlreadyProcessed)
      (kind : payment.input.intent.lifetime = .fresh blockhash lastValidBlockHeight) :
      Free network kit payment e n₃ ((codeFromError kit e).getD .submitRpcUnavailable)
  | nonce {ref : NonceRef} {address : Address} {account : NonceAccountState} {n₄ : ρ}
      (h : codeFromError kit e ≠ some .submitAlreadyProcessed)
      (kind : payment.input.intent.lifetime = .nonce)
      (names : payment.input.nonceRef = some ref)
      (derived : deriveNonceAddress kit payment.input.payer ref.index = .ok address)
      (reads : network.rpc (.getNonceAccount address) n₃ = (.ok account, n₄)) :
      Free network kit payment e n₃ ((verdictOf payment.input.payer ref.value account).code
        ((codeFromError kit e).getD .submitRpcUnavailable))

/-- What a failed send comes to: what the signature says, and if that says
    nothing, what the account and the error say. -/
def Decided (network : Network ρ) (kit : Kit) (payment : VerifiedPayment) (e : Thrown) (n₃ : ρ)
    (o : SubmitOutcome) : SignatureOutcome → Prop
  | .landedOk => ∃ signature value, o = .settled signature value
  | .landedFailed => ∃ detail, o = .failed .submitExecutionFailed true detail
  | .absent => ∃ code detail, o = .failed code false detail ∧ Free network kit payment e n₃ code

theorem run_afterFailure {lifetime : PaymentLifetime}
    (hlifetime : lifetimeOf kit payment = .ok lifetime) {signature : Signature}
    (hlookup : network.rpc (.getSignatureOutcome signature) w.net = (.ok outcome, n₃))
    (hans : AccountAnswers network kit payment n₃) : ∃ o n',
    run (reply network) (afterFailure kit payment lifetime signature e) s w
      = ⟨.ok o, s, { w with net := n' }⟩ ∧ Decided network kit payment e n₃ o outcome := by
  simp only [afterFailure, run_bind, run_getSignatureOutcome, hlookup]
  cases outcome with
  | landedOk =>
      rcases run_newNonceValueOf_answers network s { w with net := n₃ } hans with ⟨value, n', hrun⟩
      simp only [run_bind, hrun]
      exact ⟨_, n', rfl, signature, value, rfl⟩
  | landedFailed => exact ⟨_, n₃, rfl, _, rfl⟩
  | absent =>
      by_cases hprocessed : codeFromError kit e = some .submitAlreadyProcessed
      · simp only [if_pos hprocessed]
        exact ⟨_, n₃, rfl, _, _, rfl, .processed hprocessed⟩
      simp only [if_neg hprocessed]
      rcases lifetimeOf_ok hlifetime with ⟨blockhash, height, hkind, rfl⟩ |
        ⟨ref, address, hkind, href, haddress, rfl⟩
      · exact ⟨_, n₃, rfl, _, _, rfl, .fresh hprocessed hkind⟩
      rcases hans ref href with ⟨address', account, n₄, haddress', hread⟩
      cases haddress.symm.trans haddress'
      have hfree := Free.nonce hprocessed hkind href haddress hread
      simp only [run_bind, run_precheckNonce (s := s) (w := { w with net := n₃ }) hkind href
        haddress hread]
      refine ⟨.failed _ false (some ((jsString (text kit e)).take 400)), n₄, ?_, _, _,
        rfl, hfree⟩
      cases verdictOf payment.input.payer ref.value account <;> rfl

/-- The account explains a failure that cost nothing if it is the payer's and
    holds another value, or if it is not the payer's. -/
theorem Free.code_iff {code : VadumErrorCode} (h : Free network kit payment e n₃ code)
    (hprocessed : codeFromError kit e ≠ some .submitAlreadyProcessed)
    {ref : NonceRef} {address : Address} {account : NonceAccountState} {n₄ : ρ}
    (hkind : payment.input.intent.lifetime = .nonce) (href : payment.input.nonceRef = some ref)
    (haddress : deriveNonceAddress kit payment.input.payer ref.index = .ok address)
    (hread : network.rpc (.getNonceAccount address) n₃ = (.ok account, n₄)) :
    (code = .submitNonceStale ↔ ∃ value lamports,
      account = .initialized payment.input.payer value lamports ∧ value ≠ ref.value) ∧
    (code = .submitNonceAbsent ↔ account = .absent ∨ account = .uninitialized ∨
      ∃ authority value lamports, account = .initialized authority value lamports ∧
        authority ≠ payment.input.payer) ∧
    (code ≠ .submitNonceStale → code ≠ .submitNonceAbsent →
      code = (codeFromError kit e).getD .submitRpcUnavailable) := by
  cases h with
  | processed h => exact absurd h hprocessed
  | fresh _ hfresh => cases hkind.symm.trans hfresh
  | nonce _ _ href' haddress' hread' =>
      cases href.symm.trans href'
      cases haddress.symm.trans haddress'
      cases hread.symm.trans hread'
      cases account with
      | absent =>
          exact ⟨⟨nofun, nofun⟩, ⟨fun _ => .inl rfl, fun _ => rfl⟩, fun _ h => absurd rfl h⟩
      | uninitialized =>
          exact ⟨⟨nofun, nofun⟩, ⟨fun _ => .inr (.inl rfl), fun _ => rfl⟩, fun _ h => absurd rfl h⟩
      | initialized authority value lamports =>
          -- Whose the account is comes first, and then the value it holds.
          by_cases hauthority : authority = payment.input.payer
          · subst hauthority
            by_cases hvalue : value = ref.value
            · have hverdict : verdictOf payment.input.payer ref.value
                  (.initialized payment.input.payer value lamports) = .ok value := by
                simp only [verdictOf, hvalue, ne_eq, not_true_eq_false, if_false, if_true]
              rw [hverdict]
              refine ⟨⟨fun h => absurd h (fallback_ne kit e).1, ?_⟩,
                ⟨fun h => absurd h (fallback_ne kit e).2, ?_⟩, fun _ _ => rfl⟩
              · rintro ⟨_, _, heq, hne⟩
                cases heq
                exact absurd hvalue hne
              · rintro (h | h | ⟨_, _, _, heq, hne⟩)
                · cases h
                · cases h
                · cases heq
                  exact absurd rfl hne
            · have hverdict : verdictOf payment.input.payer ref.value
                  (.initialized payment.input.payer value lamports) = .stale value := by
                simp only [verdictOf, hvalue, ne_eq, not_true_eq_false, if_false]
              rw [hverdict]
              refine ⟨⟨fun _ => ⟨value, lamports, rfl, hvalue⟩, fun _ => rfl⟩, ⟨nofun, ?_⟩,
                fun h => absurd rfl h⟩
              rintro (h | h | ⟨_, _, _, heq, hne⟩)
              · cases h
              · cases h
              · cases heq
                exact absurd rfl hne
          · have hverdict : verdictOf payment.input.payer ref.value
                (.initialized authority value lamports) = .wrongAuthority := by
              simp only [verdictOf, ne_eq, hauthority, not_false_eq_true, if_true]
            rw [hverdict]
            refine ⟨⟨nofun, ?_⟩,
              ⟨fun _ => .inr (.inr ⟨authority, value, lamports, rfl, hauthority⟩), fun _ => rfl⟩,
              fun _ h => absurd rfl h⟩
            rintro ⟨_, _, heq, _⟩
            cases heq
            exact absurd rfl hauthority

/-- On the fresh path no failure names a nonce account. -/
theorem Free.fresh_ne {code : VadumErrorCode} (h : Free network kit payment e n₃ code)
    (hkind : payment.input.intent.lifetime ≠ .nonce) :
    code ≠ .submitNonceStale ∧ code ≠ .submitNonceAbsent := by
  cases h with
  | processed => exact ⟨nofun, nofun⟩
  | fresh => exact fallback_ne kit e
  | nonce _ h => exact absurd h hkind

/-- A failed send whose lookups are answered is decided by them. -/
theorem run_submit_fails (h : SendFails network kit payment feePayerKey w.net e outcome n₃) :
    ∃ o n', run (reply network) (submit kit payment feePayerKey) s w
      = ⟨.ok o, s, { w with net := n' }⟩ ∧ Decided network kit payment e n₃ o outcome := by
  rcases h with ⟨⟨lifetime, signers, n₂, hsendable, hthrows, hlookup⟩, hans⟩
  have hrun := run_submit network hsendable s w
  rw [run_tryCatch] at hrun
  rcases send_cases network s
      { w with net := (network.sign feePayerKey payment.messageBytes w.net).2 } kit payment
      (wireAt network payment feePayerKey signers w.net) lifetime with
    ⟨e', n₂', hthrows', hsend⟩ | ⟨hnot, _⟩
  · rcases sendThrows_unique network hthrows hthrows' with ⟨rfl, rfl⟩
    rw [hsend] at hrun
    rcases run_afterFailure (s := s) (w := { w with net := n₂ }) (e := e) hsendable.timed hlookup
      hans with ⟨o, n', hafter, hdecided⟩
    exact ⟨o, n', hrun.trans hafter, hdecided⟩
  · exact absurd hthrows (hnot e n₂)

/-- The fee and the verdict follow the signature. -/
theorem Decided.iffs {o : SubmitOutcome} (h : Decided network kit payment e n₃ o outcome) :
    (o.feeCharged ↔ outcome = .landedFailed) ∧ (o.isSettled ↔ outcome = .landedOk) := by
  cases outcome with
  | landedOk =>
      rcases h with ⟨signature, value, rfl⟩
      exact ⟨⟨nofun, nofun⟩, ⟨fun _ => rfl, fun _ => rfl⟩⟩
  | landedFailed =>
      rcases h with ⟨detail, rfl⟩
      exact ⟨⟨fun _ => rfl, fun _ => rfl⟩, ⟨nofun, nofun⟩⟩
  | absent =>
      rcases h with ⟨code, detail, rfl, _⟩
      exact ⟨⟨nofun, nofun⟩, ⟨nofun, nofun⟩⟩

/-- A failed send is decided by the chain: what it is found to have come to
    decides the fee and whether it settled, the same for every error; if nothing
    landed, the nonce account decides the code wherever it explains the failure,
    and what it does not explain is named by the error alone. -/
theorem chain_decides (network : Network ρ) (kit : Kit) (payment : VerifiedPayment)
    (feePayerKey : CryptoKeyPair) (s : σ) (w : World ρ) {e : Thrown} {outcome : SignatureOutcome}
    {n₃ : ρ} (h : SendFails network kit payment feePayerKey w.net e outcome n₃) : ∃ o n',
    run (reply network) (submit kit payment feePayerKey) s w
      = ⟨.ok o, s, { w with net := n' }⟩ ∧
    (o.feeCharged ↔ outcome = .landedFailed) ∧
    (o.isSettled ↔ outcome = .landedOk) ∧
    (∀ {network' : Network ρ} {w' : World ρ} {e' : Thrown} {n₃' : ρ} {o' : SubmitOutcome},
      SendFails network' kit payment feePayerKey w'.net e' outcome n₃' →
      (run (reply network') (submit kit payment feePayerKey) s w').result = .ok o' →
      o'.feeCharged = o.feeCharged ∧ o'.isSettled = o.isSettled) ∧
    (payment.input.intent.lifetime = .nonce → outcome = .absent →
      codeFromError kit e ≠ some .submitAlreadyProcessed → ∀ {ref address account n₄},
      payment.input.nonceRef = some ref →
      deriveNonceAddress kit payment.input.payer ref.index = .ok address →
      network.rpc (.getNonceAccount address) n₃ = (.ok account, n₄) →
      (o.code = some .submitNonceStale ↔ ∃ value lamports,
        account = .initialized payment.input.payer value lamports ∧ value ≠ ref.value) ∧
      (o.code = some .submitNonceAbsent ↔ account = .absent ∨ account = .uninitialized ∨
        ∃ authority value lamports, account = .initialized authority value lamports ∧
          authority ≠ payment.input.payer) ∧
      (o.code ≠ some .submitNonceStale → o.code ≠ some .submitNonceAbsent →
        o.code = some ((codeFromError kit e).getD .submitRpcUnavailable))) ∧
    (payment.input.intent.lifetime ≠ .nonce →
      o.code ≠ some .submitNonceStale ∧ o.code ≠ some .submitNonceAbsent) := by
  rcases run_submit_fails (s := s) h with ⟨o, n', hrun, hdecided⟩
  rcases hdecided.iffs with ⟨hfee, hsettled⟩
  refine ⟨o, n', hrun, hfee, hsettled, ?_, ?_, ?_⟩
  · -- Two submissions that the chain answers alike are decided alike.
    intro network' w' e' n₃' o' h' hresult
    rcases run_submit_fails (s := s) h' with ⟨o'', n'', hrun', hdecided'⟩
    rw [hrun'] at hresult
    cases hresult
    rcases hdecided'.iffs with ⟨hfee', hsettled'⟩
    exact ⟨Bool.eq_iff_iff.mpr (hfee'.trans hfee.symm),
      Bool.eq_iff_iff.mpr (hsettled'.trans hsettled.symm)⟩
  · -- Only where nothing landed does the account say which code it is.
    rintro hkind rfl hprocessed ref address account n₄ href haddress hread
    rcases hdecided with ⟨code, detail, rfl, hfree⟩
    rcases hfree.code_iff hprocessed hkind href haddress hread with ⟨hstale, habsent, hother⟩
    simp only [SubmitOutcome.code, Option.some.injEq, ne_eq]
    exact ⟨hstale, habsent, hother⟩
  · intro hkind
    cases outcome with
    | landedOk =>
        rcases hdecided with ⟨signature, value, rfl⟩
        exact ⟨nofun, nofun⟩
    | landedFailed =>
        rcases hdecided with ⟨detail, rfl⟩
        exact ⟨nofun, nofun⟩
    | absent =>
        rcases hdecided with ⟨code, detail, rfl, hfree⟩
        simp only [SubmitOutcome.code, ne_eq, Option.some.injEq]
        exact hfree.fresh_ne hkind

/-- A double whose next send breaks off, and whose account has moved on. -/
def brokenOff : FakeRpc where
  nonceAccounts := [testAccount 0 (testNonce 8)]
  sendPayment := [.error (.error "Error" "BlockhashNotFound" none)]

/-- The error speaks of a blockhash; the account says that the value is stale. -/
theorem chain_decides_brokenOff : ∃ o n',
    run (reply fakeNetwork) (submit testKit (testPayment 0) (testKey 2)) () ⟨∅, brokenOff⟩
      = ⟨.ok o, (), ⟨∅, n'⟩⟩ ∧ ¬ o.feeCharged ∧ ¬ o.isSettled ∧
    o.code = some .submitNonceStale := by
  have haccount : FakeRpc.nonceAccount { brokenOff with sendPayment := [] }
      (testAccount 0 (testNonce 7)).1 = .initialized (testAddress 1) (testNonce 8) 1056640 := by
    decide +kernel
  -- The account of the payment has moved on to another value, though nothing landed.
  have hlookup : fakeNetwork.rpc (.getNonceAccount (testAccount 0 (testNonce 7)).1)
      { brokenOff with sendPayment := [] }
        = (.ok (.initialized (testAddress 1) (testNonce 8) 1056640),
          { brokenOff with sendPayment := [] }) :=
    congrArg (fun account => (Except.ok account, { brokenOff with sendPayment := [] })) haccount
  have haddress : deriveNonceAddress testKit (testAddress 1) 0
      = .ok (testAccount 0 (testNonce 7)).1 := by decide +kernel
  have hfails : SendFails fakeNetwork testKit (testPayment 0) (testKey 2) brokenOff
      (.error "Error" "BlockhashNotFound" none) .absent { brokenOff with sendPayment := [] } :=
    { throws := ⟨_, _, { brokenOff with sendPayment := [] }, sendable_testPayment, .inl rfl, rfl⟩
      answers := fun ref href => by
        cases href
        exact ⟨_, _, _, haddress, hlookup⟩ }
  rcases chain_decides fakeNetwork testKit (testPayment 0) (testKey 2) () ⟨∅, brokenOff⟩ hfails with
    ⟨o, n', hrun, hfee, hsettled, _, hcode, _⟩
  have hstale := (hcode rfl rfl (by decide +kernel) rfl haddress hlookup).1
  exact ⟨o, n', hrun, fun h => (nomatch hfee.mp h), fun h => (nomatch hsettled.mp h),
    hstale.mpr ⟨testNonce 8, 1056640, rfl, by decide⟩⟩

end Decides

end Vadum
