import Vadum.Client.Submit

/-!
# One Submission

What `submit` does, piece by piece. It asks the platform for a signature and
the network for the rest, and touches neither the variables of its caller nor
the store.

A submission ends in an outcome or it throws. It throws when the payment and
the key do not fit together, and when a call of the `catch` throws: nothing
catches that one. `SubmissionAnswered` says what the network has to answer, and
`submit_cases` that it is exactly what it takes.

## Main definitions

* `Sendable`: The payment and the key fit together.
* `AccountAnswers`, `LookupAnswers`: What the network has to answer.
* `SubmissionAnswered`: Every call that nothing catches is answered.

## Theorems

* `online_submit`: A submission only goes online.
* `submit_cases`: It ends in an outcome if and only if it is answered, and
  which one the send and the lookup decide.
-/

namespace Vadum

open Async.Process

variable {ρ σ : Type}

/-- A request that the network or the platform answers. -/
def Req.isOnline : Req → Bool
  | .rpc _ => true
  | .sign _ _ => true
  | _ => false

/-- A process that writes nothing and only goes online. -/
def Online {α : Type} (p : Client σ α) : Prop :=
  ∀ past s, p.Obeys (fun _ _ _ => False) (fun _ _ r => Req.isOnline r = true)
    (fun _ _ _ => True) past s

section Online

variable {α β : Type}

/-- A process that keeps no variables, and only goes online, does so. -/
theorem online_stateless {p : Client σ α} (hp : Stateless (fun r => Req.isOnline r = true) p) :
    Online p :=
  fun past s => obeys_stateless hp past s

theorem stateless_sign {R : Req → Prop} (key : CryptoKeyPair) (message : List UInt8)
    (h : R (.sign key message)) : Stateless R (sign key message : Client σ Signature) :=
  stateless_request (I := client) (r := .sign key message) h

end Online

section Pieces

variable {R : Req → Prop} (hR : ∀ r, r.isOnline = true → R r) (kit : Kit)
  (payment : VerifiedPayment)

include hR

theorem stateless_newNonceValueOf : Stateless R (newNonceValueOf kit payment : Client σ _) := by
  unfold newNonceValueOf
  split
  · exact stateless_pure _
  · refine stateless_bind (stateless_ofResult _) fun address =>
      stateless_bind (stateless_rpc (.getNonceAccount address) (hR _ rfl)) fun account => ?_
    split <;> exact stateless_pure _

theorem stateless_precheckNonce : Stateless R (precheckNonce kit payment : Client σ _) := by
  unfold precheckNonce
  split
  · exact stateless_bind (stateless_ofResult _) fun address =>
      stateless_bind (stateless_rpc (.getNonceAccount address) (hR _ rfl)) fun account =>
        stateless_pure _
  · exact stateless_throw _

theorem stateless_afterFailure (lifetime : PaymentLifetime) (signature : Signature)
    (error : Thrown) :
    Stateless R (afterFailure kit payment lifetime signature error : Client σ _) := by
  refine stateless_bind (stateless_rpc (.getSignatureOutcome signature) (hR _ rfl))
    fun outcome => ?_
  cases outcome with
  | landedOk =>
      exact stateless_bind (stateless_newNonceValueOf hR kit payment) fun _ => stateless_pure _
  | landedFailed => exact stateless_pure _
  | absent =>
      simp only
      split
      · exact stateless_pure _
      · split
        · exact stateless_pure _
        · refine stateless_bind (stateless_precheckNonce hR kit payment) fun verdict => ?_
          split <;> exact stateless_pure _

theorem stateless_buildWireTransaction (feePayerKey : CryptoKeyPair) :
    Stateless R (buildWireTransaction kit payment feePayerKey : Client σ _) := by
  unfold buildWireTransaction
  have hrefuse : ∀ {e : Thrown} {f : Unit → Client σ WireTransaction},
      Stateless R (throw e >>= f) := trivial
  simp only
  split
  · exact hrefuse
  split
  · exact hrefuse
  refine stateless_bind (stateless_ofResult _) fun signers => ?_
  split
  · exact hrefuse
  refine stateless_bind (stateless_sign _ _ (hR _ rfl)) fun signature => ?_
  split
  · exact hrefuse
  · exact stateless_pure _

/-- A submission keeps no variables of its own, and only goes online. -/
theorem stateless_submit (feePayerKey : CryptoKeyPair) :
    Stateless R (submit kit payment feePayerKey : Client σ _) :=
  stateless_bind (stateless_ofResult _) fun lifetime =>
    stateless_bind (stateless_buildWireTransaction hR kit payment feePayerKey) fun wire =>
      stateless_tryCatch
        (stateless_bind (stateless_rpc (.sendPayment wire lifetime) (hR _ rfl)) fun _ =>
          stateless_bind (stateless_newNonceValueOf hR kit payment) fun _ => stateless_pure _)
        fun error => stateless_afterFailure hR kit payment lifetime _ error

omit hR in
/-- A submission only goes online. -/
theorem online_submit (feePayerKey : CryptoKeyPair) :
    Online (submit kit payment feePayerKey : Client σ _) :=
  online_stateless (stateless_submit (fun _ h => h) kit payment feePayerKey)

end Pieces

/-- The payment and the key fit together: what is checked before anything is
    sent. -/
structure Sendable (kit : Kit) (payment : VerifiedPayment) (feePayerKey : CryptoKeyPair)
    (lifetime : PaymentLifetime) (signers : List Address) : Prop where
  timed : lifetimeOf kit payment = .ok lifetime
  feePayer : feePayerKey.publicKey = payment.input.intent.feePayer
  length : payment.auth.signature.length = 64
  required : kit.requiredSigners payment.messageBytes = .ok signers
  signs : feePayerKey.publicKey ∈ signers
  complete : ∀ address ∈ signers, address = feePayerKey.publicKey ∨ address = payment.auth.payer

section Conditions

variable (network : Network ρ) (kit : Kit) (payment : VerifiedPayment)

/-- What is sent: the payment with the signature the platform makes now. -/
def wireAt (feePayerKey : CryptoKeyPair) (signers : List Address) (n : ρ) : WireTransaction :=
  signedBy payment feePayerKey.publicKey (network.sign feePayerKey payment.messageBytes n).1
    signers

/-- The nonce account, if the payment names one, can be read. -/
def AccountAnswers (n : ρ) : Prop :=
  ∀ ref, payment.input.nonceRef = some ref → ∃ address account n',
    deriveNonceAddress kit payment.input.payer ref.index = .ok address ∧
    network.rpc (.getNonceAccount address) n = (.ok account, n')

/-- Reading it throws. -/
def AccountThrows (n : ρ) (e : Thrown) (n' : ρ) : Prop :=
  ∃ ref, payment.input.nonceRef = some ref ∧
    (deriveNonceAddress kit payment.input.payer ref.index = .error e ∧ n' = n ∨
      ∃ address, deriveNonceAddress kit payment.input.payer ref.index = .ok address ∧
        network.rpc (.getNonceAccount address) n = (.error e, n'))

/-- Sending throws, or reading the account after it does. -/
def SendThrows (wire : WireTransaction) (lifetime : PaymentLifetime) (n : ρ) (e : Thrown)
    (n' : ρ) : Prop :=
  network.rpc (.sendPayment wire lifetime) n = (.error e, n') ∨
    ∃ sent n₁, network.rpc (.sendPayment wire lifetime) n = (.ok sent, n₁) ∧
      AccountThrows network kit payment n₁ e n'

/-- The signature is looked up, and the account read if the outcome calls for
    it. -/
def LookupAnswers (signature : Signature) (e : Thrown) (n : ρ) : Prop :=
  ∃ outcome n', network.rpc (.getSignatureOutcome signature) n = (.ok outcome, n') ∧
    (outcome = .landedOk → AccountAnswers network kit payment n') ∧
    (outcome = .absent → codeFromError kit e ≠ some .submitAlreadyProcessed →
      payment.input.intent.lifetime = .nonce → AccountAnswers network kit payment n')

/-- A submission that starts here is answered: payment and key fit together,
    and if sending throws, the lookup that follows does not. -/
def SubmissionAnswered (feePayerKey : CryptoKeyPair) (n : ρ) : Prop :=
  ∃ lifetime signers, Sendable kit payment feePayerKey lifetime signers ∧
    ∀ e n', SendThrows network kit payment (wireAt network payment feePayerKey signers n) lifetime
        (network.sign feePayerKey payment.messageBytes n).2 e n' →
      LookupAnswers network kit payment (wireAt network payment feePayerKey signers n).signature
        e n'

end Conditions

section Runs

variable (network : Network ρ) {kit : Kit} {payment : VerifiedPayment} (s : σ) (w : World ρ)

theorem run_getNonceAccount (address : Address) :
    run (reply network) (getNonceAccount address : Client σ NonceAccountState) s w
      = ⟨(network.rpc (.getNonceAccount address) w.net).1, s,
        { w with net := (network.rpc (.getNonceAccount address) w.net).2 }⟩ :=
  run_request (I := client) (reply network) (.rpc (.getNonceAccount address)) s w

theorem run_getSignatureOutcome (signature : Signature) :
    run (reply network) (getSignatureOutcome signature : Client σ SignatureOutcome) s w
      = ⟨(network.rpc (.getSignatureOutcome signature) w.net).1, s,
        { w with net := (network.rpc (.getSignatureOutcome signature) w.net).2 }⟩ :=
  run_request (I := client) (reply network) (.rpc (.getSignatureOutcome signature)) s w

theorem run_sendPayment (wire : WireTransaction) (lifetime : PaymentLifetime) :
    run (reply network) (sendPayment wire lifetime : Client σ Signature) s w
      = ⟨(network.rpc (.sendPayment wire lifetime) w.net).1, s,
        { w with net := (network.rpc (.sendPayment wire lifetime) w.net).2 }⟩ :=
  run_request (I := client) (reply network) (.rpc (.sendPayment wire lifetime)) s w

theorem run_sign (key : CryptoKeyPair) (message : List UInt8) :
    run (reply network) (sign key message : Client σ Signature) s w
      = ⟨.ok (network.sign key message w.net).1, s,
        { w with net := (network.sign key message w.net).2 }⟩ := by
  rw [sign, run_request]
  rfl

/-- The account can be read, or reading it throws. -/
theorem account_cases (kit : Kit) (payment : VerifiedPayment) (n : ρ) :
    AccountAnswers network kit payment n ∨ ∃ e n', AccountThrows network kit payment n e n' := by
  rcases href : payment.input.nonceRef with _ | ref
  · left
    intro ref' href'
    rw [href] at href'
    cases href'
  · rcases haddress : deriveNonceAddress kit payment.input.payer ref.index with e | address
    · exact .inr ⟨e, n, ref, href, .inl ⟨haddress, rfl⟩⟩
    · rcases hans : network.rpc (.getNonceAccount address) n with ⟨e | account, n'⟩
      · exact .inr ⟨e, n', ref, href, .inr ⟨address, haddress, hans⟩⟩
      · left
        intro ref' href'
        rw [href] at href'
        rw [← Option.some.inj href']
        exact ⟨address, account, n', haddress, hans⟩

theorem not_answers_of_throws {n : ρ} {e : Thrown} {n' : ρ}
    (h : AccountThrows network kit payment n e n') : ¬ AccountAnswers network kit payment n := by
  rcases h with ⟨ref, href, hthrows⟩
  intro hans
  rcases hans ref href with ⟨address, account, n'', haddress, hanswer⟩
  rcases hthrows with ⟨herr, _⟩ | ⟨address', haddress', herr⟩
  · rw [haddress] at herr
    cases herr
  · rw [haddress] at haddress'
    cases haddress'
    rw [hanswer] at herr
    cases (Prod.mk.inj herr).1

theorem run_newNonceValueOf_throws {e : Thrown} {n' : ρ}
    (h : AccountThrows network kit payment w.net e n') :
    run (reply network) (newNonceValueOf kit payment) s w
      = ⟨.error e, s, { w with net := n' }⟩ := by
  rcases h with ⟨ref, href, ⟨haddress, rfl⟩ | ⟨address, haddress, hans⟩⟩
  · simp only [newNonceValueOf, href, haddress, run_bind, run_ofResult]
  · simp only [newNonceValueOf, href, haddress, run_bind, run_ofResult, run_getNonceAccount,
      hans]

theorem run_newNonceValueOf_answers (h : AccountAnswers network kit payment w.net) :
    ∃ value n', run (reply network) (newNonceValueOf kit payment) s w
      = ⟨.ok value, s, { w with net := n' }⟩ := by
  rcases href : payment.input.nonceRef with _ | ref
  · exact ⟨none, w.net, by simp only [newNonceValueOf, href, run_pure]⟩
  · rcases h ref href with ⟨address, account, n', haddress, hans⟩
    have hrun : ∀ {p : NonceAccountState → Client σ (Option Nonce)},
        (∃ value, p account = pure value) → ∃ value n',
          run (reply network) (getNonceAccount address >>= p) s w
            = ⟨.ok value, s, { w with net := n' }⟩ := by
      rintro p ⟨value, hp⟩
      exact ⟨value, n', by simp only [run_bind, run_getNonceAccount, hans, hp, run_pure]⟩
    simp only [newNonceValueOf, href, haddress, ofResult]
    refine hrun ?_
    split
    · exact ⟨_, rfl⟩
    · exact ⟨_, rfl⟩

/-- There is one way for a send to throw. -/
theorem sendThrows_unique {wire : WireTransaction} {lifetime : PaymentLifetime} {n : ρ}
    {e e' : Thrown} {n₁ n₁' : ρ} (h : SendThrows network kit payment wire lifetime n e n₁)
    (h' : SendThrows network kit payment wire lifetime n e' n₁') : e = e' ∧ n₁ = n₁' := by
  rcases h with h | ⟨sent, n₂, h, ref, href, haccount⟩ <;>
    rcases h' with h' | ⟨sent', n₂', h', ref', href', haccount'⟩ <;> rw [h] at h' <;> cases h'
  · exact ⟨rfl, rfl⟩
  · rw [href] at href'
    cases href'
    rcases haccount with ⟨haddress, rfl⟩ | ⟨address, haddress, hans⟩ <;>
      rcases haccount' with ⟨haddress', rfl⟩ | ⟨address', haddress', hans'⟩ <;>
      rw [haddress] at haddress' <;> cases haddress'
    · exact ⟨rfl, rfl⟩
    · rw [hans] at hans'
      cases hans'
      exact ⟨rfl, rfl⟩

/-- The payment is sent and settles, or something throws on the way. -/
theorem send_cases (kit : Kit) (payment : VerifiedPayment) (wire : WireTransaction)
    (lifetime : PaymentLifetime) :
    (∃ e n', SendThrows network kit payment wire lifetime w.net e n' ∧
      run (reply network) (sendAndReadBack kit payment wire lifetime) s w
        = ⟨.error e, s, { w with net := n' }⟩) ∨
    (∀ e n', ¬ SendThrows network kit payment wire lifetime w.net e n') ∧
      ∃ sent value n₁ n', network.rpc (.sendPayment wire lifetime) w.net = (.ok sent, n₁) ∧
        AccountAnswers network kit payment n₁ ∧
        run (reply network) (sendAndReadBack kit payment wire lifetime) s w
          = ⟨.ok (.settled sent value), s, { w with net := n' }⟩ := by
  rcases hsend : network.rpc (.sendPayment wire lifetime) w.net with ⟨e | sent, n₁⟩
  · refine .inl ⟨e, n₁, .inl hsend, ?_⟩
    simp only [sendAndReadBack, run_bind, run_sendPayment, hsend]
  · have hrest : run (reply network) (sendAndReadBack kit payment wire lifetime) s w
        = run (reply network) (newNonceValueOf kit payment >>= fun value =>
            pure (.settled sent value)) s { w with net := n₁ } := by
      simp only [sendAndReadBack, run_bind, run_sendPayment, hsend]
    rw [hrest, run_bind]
    -- The node took it; now the account is read, and that may still throw.
    rcases account_cases network kit payment n₁ with hans | ⟨e, n', hthrows⟩
    · right
      rcases run_newNonceValueOf_answers network s { w with net := n₁ } hans with ⟨value, n', hrun⟩
      rw [hrun]
      refine ⟨fun e n' hthrows => ?_, sent, value, n₁, n', rfl, hans, rfl⟩
      rcases hthrows with heq | ⟨sent', n₁', heq, hthrows⟩
      · rw [hsend] at heq
        cases (Prod.mk.inj heq).1
      · rw [hsend] at heq
        cases (Prod.mk.inj heq).2
        exact not_answers_of_throws network hthrows hans
    · left
      rw [run_newNonceValueOf_throws network s { w with net := n₁ } hthrows]
      exact ⟨e, n', .inr ⟨sent, n₁, hsend, hthrows⟩, rfl⟩

/-- The lifetime a payment is sent with is of the kind its intent names. -/
theorem lifetimeOf_ok {lifetime : PaymentLifetime} (h : lifetimeOf kit payment = .ok lifetime) :
    (∃ blockhash height, payment.input.intent.lifetime = .fresh blockhash height ∧
      lifetime = .fresh blockhash height) ∨
    ∃ ref address, payment.input.intent.lifetime = .nonce ∧ payment.input.nonceRef = some ref ∧
      deriveNonceAddress kit payment.input.payer ref.index = .ok address ∧
      lifetime = .nonce ref.value address payment.input.payer := by
  unfold lifetimeOf at h
  rcases hkind : payment.input.intent.lifetime with _ | ⟨blockhash, height⟩
  · right
    rcases href : payment.input.nonceRef with _ | ref
    · rw [hkind, href] at h
      cases h
    · rw [hkind, href] at h
      rcases haddress : deriveNonceAddress kit payment.input.payer ref.index with e | address
      · simp only [haddress, Bind.bind, Except.bind] at h
        cases h
      · simp only [haddress, Bind.bind, Except.bind] at h
        exact ⟨ref, address, rfl, rfl, haddress, (Except.ok.inj h).symm⟩
  · left
    rw [hkind] at h
    exact ⟨blockhash, height, rfl, (Except.ok.inj h).symm⟩

/-- The check reads the account. -/
theorem precheckNonce_cases (hkind : payment.input.intent.lifetime = .nonce) {ref : NonceRef}
    (href : payment.input.nonceRef = some ref) :
    (AccountAnswers network kit payment w.net ∧ ∃ verdict n',
      run (reply network) (precheckNonce kit payment) s w
        = ⟨.ok verdict, s, { w with net := n' }⟩) ∨
    ¬ AccountAnswers network kit payment w.net ∧ ∃ e n',
      run (reply network) (precheckNonce kit payment) s w
        = ⟨.error e, s, { w with net := n' }⟩ := by
  simp only [precheckNonce, hkind, href, run_bind, run_ofResult]
  rcases haddress : deriveNonceAddress kit payment.input.payer ref.index with e | address
  · refine .inr ⟨fun hans => ?_, e, w.net, rfl⟩
    rcases hans ref href with ⟨address, _, _, heq, _⟩
    rw [haddress] at heq
    cases heq
  · simp only [run_getNonceAccount]
    rcases hans : network.rpc (.getNonceAccount address) w.net with ⟨e | account, n'⟩
    · refine .inr ⟨fun hans' => ?_, e, n', rfl⟩
      rcases hans' ref href with ⟨address', _, _, heq, hanswer⟩
      rw [haddress] at heq
      cases heq
      -- The account was said to answer, and here the read of it failed.
      rw [hans] at hanswer
      cases (Prod.mk.inj hanswer).1
    · refine .inl ⟨fun ref' href' => ?_, _, n', rfl⟩
      rw [href] at href'
      rw [← Option.some.inj href']
      exact ⟨address, account, n', haddress, hans⟩

/-- The signature a payment landed with settles it. -/
def SubmitOutcome.isSettled : SubmitOutcome → Bool
  | .settled _ _ => true
  | .failed _ _ _ => false

theorem isSettled_failed {code : VadumErrorCode} {feeCharged : Bool} {detail : Option JsString}
    {outcome : SignatureOutcome} (h : outcome ≠ .landedOk) :
    (SubmitOutcome.failed code feeCharged detail).isSettled = true ↔ outcome = .landedOk :=
  ⟨fun hs => absurd hs Bool.false_ne_true, fun heq => absurd heq h⟩

/-- What follows a failed send ends in what the lookup says, or throws. -/
theorem afterFailure_cases {lifetime : PaymentLifetime}
    (hlifetime : lifetimeOf kit payment = .ok lifetime) (signature : Signature) (e : Thrown) :
    (LookupAnswers network kit payment signature e w.net ∧ ∃ outcome n₁ o n',
      network.rpc (.getSignatureOutcome signature) w.net = (.ok outcome, n₁) ∧
      (o.isSettled ↔ outcome = .landedOk) ∧
      run (reply network) (afterFailure kit payment lifetime signature e) s w
        = ⟨.ok o, s, { w with net := n' }⟩) ∨
    ¬ LookupAnswers network kit payment signature e w.net ∧ ∃ e' n',
      run (reply network) (afterFailure kit payment lifetime signature e) s w
        = ⟨.error e', s, { w with net := n' }⟩ := by
  simp only [afterFailure, run_bind, run_getSignatureOutcome]
  rcases hlookup : network.rpc (.getSignatureOutcome signature) w.net with ⟨e' | outcome, n₁⟩
  · refine .inr ⟨?_, e', n₁, rfl⟩
    rintro ⟨outcome, n', heq, _⟩
    rw [hlookup] at heq
    cases (Prod.mk.inj heq).1
  · -- The outcome is known now, so what is left of the condition is about the account.
    have hanswers : LookupAnswers network kit payment signature e w.net ↔
        (outcome = .landedOk → AccountAnswers network kit payment n₁) ∧
        (outcome = .absent → codeFromError kit e ≠ some .submitAlreadyProcessed →
          payment.input.intent.lifetime = .nonce → AccountAnswers network kit payment n₁) := by
      constructor
      · rintro ⟨outcome', n', heq, hrest⟩
        rw [hlookup] at heq
        cases heq
        exact hrest
      · exact fun hrest => ⟨outcome, n₁, hlookup, hrest⟩
    cases outcome with
    | landedOk =>
        simp only [run_bind]
        rcases account_cases network kit payment n₁ with hans | ⟨e', n', hthrows⟩
        · rcases run_newNonceValueOf_answers network s { w with net := n₁ } hans with
            ⟨value, n', hrun⟩
          rw [hrun]
          refine .inl ⟨hanswers.mpr ⟨fun _ => hans, nofun⟩, .landedOk, n₁, _, n', rfl, ?_, rfl⟩
          exact ⟨fun _ => rfl, fun _ => rfl⟩
        · rw [run_newNonceValueOf_throws network s { w with net := n₁ } hthrows]
          refine .inr ⟨fun hans => ?_, e', n', rfl⟩
          exact not_answers_of_throws network hthrows ((hanswers.mp hans).1 rfl)
    | landedFailed =>
        exact .inl ⟨hanswers.mpr ⟨nofun, nofun⟩, .landedFailed, n₁, _, n₁, rfl,
          isSettled_failed nofun, rfl⟩
    | absent =>
        -- Already processed by its own word: nothing more is asked.
        by_cases hprocessed : codeFromError kit e = some .submitAlreadyProcessed
        · simp only [if_pos hprocessed]
          exact .inl ⟨hanswers.mpr ⟨nofun, fun _ hne => absurd hprocessed hne⟩, .absent, n₁, _,
            n₁, rfl, isSettled_failed nofun, rfl⟩
        · simp only [if_neg hprocessed]
          rcases lifetimeOf_ok hlifetime with ⟨blockhash, height, hkind, rfl⟩ |
            ⟨ref, address, hkind, href, haddress, rfl⟩
          · refine .inl ⟨hanswers.mpr ⟨nofun, fun _ _ hnonce => ?_⟩, .absent, n₁, _, n₁, rfl,
              isSettled_failed nofun, rfl⟩
            rw [hkind] at hnonce
            cases hnonce
          · simp only [run_bind]
            rcases precheckNonce_cases network s { w with net := n₁ } hkind href with
              ⟨hans, verdict, n', hrun⟩ | ⟨hans, e', n', hrun⟩
            · rw [hrun]
              refine .inl ⟨hanswers.mpr ⟨nofun, fun _ _ _ => hans⟩, .absent, n₁, ?_⟩
              cases verdict <;> exact ⟨_, n', rfl, isSettled_failed nofun, rfl⟩
            · rw [hrun]
              exact .inr ⟨fun h => hans ((hanswers.mp h).2 rfl hprocessed hkind), e', n', rfl⟩

/-- The wire transaction is built if payment and key fit together. -/
theorem buildWireTransaction_cases (kit : Kit) (payment : VerifiedPayment)
    {lifetime : PaymentLifetime} (hlifetime : lifetimeOf kit payment = .ok lifetime)
    (feePayerKey : CryptoKeyPair) :
    (∃ signers, Sendable kit payment feePayerKey lifetime signers ∧
      run (reply network) (buildWireTransaction kit payment feePayerKey) s w
        = ⟨.ok (wireAt network payment feePayerKey signers w.net), s,
          { w with net := (network.sign feePayerKey payment.messageBytes w.net).2 }⟩) ∨
    (∀ signers, ¬ Sendable kit payment feePayerKey lifetime signers) ∧ ∃ e n',
      run (reply network) (buildWireTransaction kit payment feePayerKey) s w
        = ⟨.error e, s, { w with net := n' }⟩ := by
  unfold buildWireTransaction
  simp only
  by_cases hpayer : feePayerKey.publicKey = payment.input.intent.feePayer
  swap
  · rw [if_pos hpayer]
    exact .inr ⟨fun _ h => hpayer h.feePayer, _, w.net, rfl⟩
  rw [if_neg (not_not.mpr hpayer)]
  by_cases hlength : payment.auth.signature.length = 64
  swap
  · rw [if_pos hlength]
    exact .inr ⟨fun _ h => hlength h.length, _, w.net, rfl⟩
  rw [if_neg (not_not.mpr hlength)]
  simp only [run_bind, run_ofResult]
  rcases hsigners : kit.requiredSigners payment.messageBytes with e | signers
  · refine .inr ⟨fun signers h => ?_, _, w.net, rfl⟩
    have := h.required
    rw [hsigners] at this
    cases this
  -- The signers are read from the message, so there is one list of them.
  have hunique : ∀ {signers'}, Sendable kit payment feePayerKey lifetime signers' →
      signers' = signers := fun h => by
    have := h.required
    rw [hsigners] at this
    exact (Except.ok.inj this).symm
  by_cases hsigns : feePayerKey.publicKey ∈ signers
  swap
  · simp only [if_pos hsigns]
    exact .inr ⟨fun _ h => hsigns (hunique h ▸ h.signs), _, w.net, rfl⟩
  simp only [if_neg (not_not.mpr hsigns), run_bind, run_sign]
  by_cases hmissing : ∃ address ∈ signers, address ≠ feePayerKey.publicKey ∧
      address ≠ payment.auth.payer
  · simp only [if_pos hmissing]
    refine .inr ⟨fun _ h => ?_, _, _, rfl⟩
    rcases hmissing with ⟨address, hmem, hne, hne'⟩
    rcases h.complete address (hunique h ▸ hmem) with heq | heq
    · exact hne heq
    · exact hne' heq
  · simp only [if_neg hmissing]
    refine .inl ⟨signers, ⟨hlifetime, hpayer, hlength, hsigners, hsigns, fun address hmem => ?_⟩,
      rfl⟩
    by_contra hne
    exact hmissing ⟨address, hmem, not_or.mp hne⟩

/-- How a submission ends: it throws and is not answered; or it is answered,
    and what it was sent with and what was looked up decide the outcome. -/
theorem submit_cases (kit : Kit) (payment : VerifiedPayment) (feePayerKey : CryptoKeyPair) :
    (¬ SubmissionAnswered network kit payment feePayerKey w.net ∧ ∃ e n',
      run (reply network) (submit kit payment feePayerKey) s w
        = ⟨.error e, s, { w with net := n' }⟩) ∨
    SubmissionAnswered network kit payment feePayerKey w.net ∧ ∃ lifetime signers o n',
      Sendable kit payment feePayerKey lifetime signers ∧
      run (reply network) (submit kit payment feePayerKey) s w
        = ⟨.ok o, s, { w with net := n' }⟩ ∧
      let wire := wireAt network payment feePayerKey signers w.net
      let n₁ := (network.sign feePayerKey payment.messageBytes w.net).2
      (o.isSettled ∧ ∃ sent n₂, network.rpc (.sendPayment wire lifetime) n₁ = (.ok sent, n₂) ∧
        AccountAnswers network kit payment n₂) ∨
      ∃ e n₂ outcome n₃, SendThrows network kit payment wire lifetime n₁ e n₂ ∧
        network.rpc (.getSignatureOutcome wire.signature) n₂ = (.ok outcome, n₃) ∧
        (o.isSettled ↔ outcome = .landedOk) := by
  simp only [submit, run_bind, run_ofResult]
  rcases hlifetime : lifetimeOf kit payment with e | lifetime
  · refine .inl ⟨fun h => ?_, e, w.net, rfl⟩
    rcases h with ⟨lifetime, signers, hsendable, _⟩
    have := hsendable.timed
    rw [hlifetime] at this
    cases this
  -- The lifetime too is fixed by the payment.
  have hunique : ∀ {lifetime' signers'}, Sendable kit payment feePayerKey lifetime' signers' →
      lifetime' = lifetime := fun h => by
    have := h.timed
    rw [hlifetime] at this
    exact (Except.ok.inj this).symm
  dsimp only
  rcases buildWireTransaction_cases network s w kit payment hlifetime feePayerKey with
    ⟨signers, hsendable, hrun⟩ | ⟨hnot, e, n', hrun⟩
  swap
  · rw [hrun]
    refine .inl ⟨fun h => ?_, e, n', rfl⟩
    rcases h with ⟨lifetime', signers, hsendable, _⟩
    exact hnot signers (hunique hsendable ▸ hsendable)
  rw [hrun]
  -- From here on it is the body under `try` and the recovery that follows it.
  change (_ ∧ ∃ e n', run _ (Async.Process.tryCatch _ _) _ _ = _) ∨
    _ ∧ ∃ _ _ _ _, _ ∧ run _ (Async.Process.tryCatch _ _) _ _ = _ ∧ _
  rw [run_tryCatch]
  rcases send_cases network s
      { w with net := (network.sign feePayerKey payment.messageBytes w.net).2 } kit payment
      (wireAt network payment feePayerKey signers w.net) lifetime with
    ⟨e, n₂, hthrows, hsend⟩ | ⟨hnot, sent, value, n₂, n', hanswer, haccount, hsend⟩
  · rw [hsend]
    rcases afterFailure_cases network s { w with net := n₂ } hlifetime
        (wireAt network payment feePayerKey signers w.net).signature e with
      ⟨hlookup, outcome, n₃, o, n', hanswer, hsettled, hrun'⟩ | ⟨hlookup, e', n', hrun'⟩
    · refine .inr ⟨⟨lifetime, signers, hsendable, fun e' n₂' hthrows' => ?_⟩, lifetime, signers, o,
        n', hsendable, hrun', .inr ⟨e, n₂, outcome, n₃, hthrows, hanswer, hsettled⟩⟩
      rcases sendThrows_unique network hthrows hthrows' with ⟨rfl, rfl⟩
      exact hlookup
    · refine .inl ⟨fun h => ?_, e', n', hrun'⟩
      rcases h with ⟨lifetime', signers', hsendable', hall⟩
      cases hunique hsendable'
      have hsigners : signers' = signers :=
        Except.ok.inj (hsendable'.required.symm.trans hsendable.required)
      rw [hsigners] at hall
      exact hlookup (hall e n₂ hthrows)
  · rw [hsend]
    exact .inr ⟨⟨lifetime, signers, hsendable, fun e n₂' hthrows => absurd hthrows (hnot e n₂')⟩,
      lifetime, signers, _, n', hsendable, rfl, .inl ⟨rfl, sent, n₂, hanswer, haccount⟩⟩

/-- The address of the slot a payment names, if it names one, is a valid one. -/
def Derivable (kit : Kit) (payment : VerifiedPayment) : Prop :=
  ∀ ref, payment.input.nonceRef = some ref →
    ∃ address, deriveNonceAddress kit payment.input.payer ref.index = .ok address

theorem AccountAnswers.derivable {n : ρ} (h : AccountAnswers network kit payment n) :
    Derivable kit payment := fun ref href => by
  rcases h ref href with ⟨address, _, _, haddress, _⟩
  exact ⟨address, haddress⟩

/-- Only a payment that fits its key and names a valid slot is ever settled. -/
theorem sendable_of_settled {feePayerKey : CryptoKeyPair} {o : SubmitOutcome} {s' : σ}
    {w' : World ρ} (hrun : run (reply network) (submit kit payment feePayerKey) s w
      = ⟨.ok o, s', w'⟩) (hsettled : o.isSettled = true) :
    (∃ lifetime signers, Sendable kit payment feePayerKey lifetime signers) ∧
      Derivable kit payment := by
  rcases submit_cases network s w kit payment feePayerKey with ⟨_, e, n', herr⟩ |
    ⟨⟨lifetime', signers', hsendable', hans⟩, lifetime, signers, o', n', hsendable, hok, hways⟩
  · rw [hrun] at herr
    cases herr
  · rw [hrun] at hok
    cases hok
    refine ⟨⟨lifetime, signers, hsendable⟩, ?_⟩
    rcases hways with ⟨_, sent, n₂, _, haccount⟩ |
      ⟨e, n₂, outcome, n₃, hthrows, hlookup, hsettles⟩
    · -- Settled means that the account was read, so its address could be derived.
      exact haccount.derivable
    · have hlifetime := Except.ok.inj (hsendable'.timed.symm.trans hsendable.timed)
      have hsigners := Except.ok.inj (hsendable'.required.symm.trans hsendable.required)
      rw [hlifetime, hsigners] at hans
      rcases hans e n₂ hthrows with ⟨outcome', n', hlookup', haccount, _⟩
      rw [hlookup] at hlookup'
      cases hlookup'
      exact (haccount (hsettles.mp hsettled)).derivable

end Runs

end Vadum
