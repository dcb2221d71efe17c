import Vadum.Theory.Fees
import Vadum.Theory.Transport

/-!
# What the Cluster Did

A merchant hands over on what the app says of a submission, and the app has it
from an endpoint. Here the whole way is put together: the RPC layer over an
endpoint, the submission over the layer, and the queue over the submission.

`TruthfulEndpoint` is an endpoint that tells the truth about a cluster which
keeps what it has processed. Nothing is said of its speed or its manners: it may
drop, refuse and delay what it likes. The layer over it is a `TruthfulNetwork`,
and over that every outcome a queue reports is what became of the transaction.

A failure without a fee is the one report that says something did not happen,
and there the cluster may still process the transaction later. What can be said
is that it had not done so when the send had already failed.

## Main definitions

* `TruthfulEndpoint`, `TruthfulNetwork`: The truth, below the layer and above.
* `BecameOf`: What a report says of the cluster.

## Theorems

* `TruthfulEndpoint.network`: The layer passes the truth on.
* `becameOf_submit`: One submission.
* `runReports_rule`: The induction over the reports of a run.
* `reports_true`: Every report of every run.
-/

namespace Vadum

open Async Async.Process

variable {ρ : Type}

/-- An endpoint that tells the truth about a cluster. `processed` is how each
    signature ended that the cluster has processed. -/
structure TruthfulEndpoint (endpoint : Endpoint ρ) (platform : Network ρ) where
  processed : ρ → Signature → Option Bool
  keeps : ∀ r n signature ended, processed n signature = some ended →
    processed (endpoint r n).2 signature = some ended
  /-- Nor does anything else undo it. -/
  elsewhere : ∀ r (w : World ρ) signature ended, (∀ c, r ≠ .rpc c) →
    processed w.net signature = some ended →
    processed (reply platform r w).2.net signature = some ended
  status : ∀ signature history n status n',
    endpoint (.getSignatureStatuses signature history) n = (.ok (some status), n') →
    processed n' signature = some (decide (status.err = none))
  /-- A search of the whole history finds what there is. -/
  absent : ∀ signature n n',
    endpoint (.getSignatureStatuses signature true) n = (.ok none, n') →
    processed n signature = none
  confirmedNonce : ∀ wire nonce account authority n a n',
    endpoint (.sendAndConfirmDurableNonce wire nonce account authority) n = (.ok a, n') →
    processed n' wire.signature = some true
  confirmedFresh : ∀ wire blockhash lastValidBlockHeight n a n',
    endpoint (.sendAndConfirm wire blockhash lastValidBlockHeight) n = (.ok a, n') →
    processed n' wire.signature = some true

/-- A network that does. -/
structure TruthfulNetwork (network : Network ρ) where
  processed : ρ → Signature → Option Bool
  keeps : ∀ n n', Steps network n n' → ∀ signature ended, processed n signature = some ended →
    processed n' signature = some ended
  sent : ∀ wire lifetime n signature n',
    network.rpc (.sendPayment wire lifetime) n = (.ok signature, n') →
    signature = wire.signature ∧ processed n' wire.signature = some true
  landed : ∀ signature n outcome n',
    network.rpc (.getSignatureOutcome signature) n = (.ok outcome, n') → outcome ≠ .absent →
    processed n' signature = some (decide (outcome = .landedOk))
  absent : ∀ signature n n',
    network.rpc (.getSignatureOutcome signature) n = (.ok .absent, n') →
    processed n signature = none

section Layer

variable {endpoint : Endpoint ρ} {platform : Network ρ}
  (truth : TruthfulEndpoint endpoint platform) (kit : Kit) (asAddress : Json → Address)
  (fuel : Nat)

include truth

/-- A run of the layer undoes nothing. -/
theorem TruthfulEndpoint.keeps_run {α : Type} (p : TransportM α) {n : ρ} {signature : Signature}
    {ended : Bool} (h : truth.processed n signature = some ended) :
    truth.processed (run endpoint p () n).world signature = some ended := by
  generalize (run endpoint p () n).world = n', run_reaches endpoint p () n = hreaches
  induction hreaches with
  | refl => exact h
  | tail _ hstep ih =>
      rcases hstep with ⟨r, rfl⟩
      exact truth.keeps r _ _ _ ih

/-- What was answered about a signature is true from then on. -/
def TruthfulEndpoint.Heard (past : TransportPast) (n : ρ) : Prop :=
  (∀ signature history status,
    .asked (.getSignatureStatuses signature history) (.ok (some status)) ∈ past →
    truth.processed n signature = some (decide (status.err = none))) ∧
  ∀ wire lifetime a, .asked (confirmerReq wire lifetime) (.ok a) ∈ past →
    truth.processed n wire.signature = some true

/-- One more answer is heard. -/
theorem TruthfulEndpoint.heard_ask {past : TransportPast} {n : ρ} (h : truth.Heard past n)
    (r : TransportReq) :
    truth.Heard (past ++ [.asked r (endpoint r n).1]) (endpoint r n).2 := by
  refine ⟨fun signature history status hmem => ?_, fun wire lifetime a hmem => ?_⟩
  · rcases List.mem_append.mp hmem with hmem | hmem
    · exact truth.keeps _ _ _ _ (h.1 signature history status hmem)
    · rw [List.mem_singleton, Act.asked.injEq] at hmem
      rcases hmem with ⟨rfl, hans⟩
      exact truth.status signature history n status _ (Prod.ext (eq_of_heq hans).symm rfl)
  · rcases List.mem_append.mp hmem with hmem | hmem
    · exact truth.keeps _ _ _ _ (h.2 wire lifetime a hmem)
    · rw [List.mem_singleton, Act.asked.injEq] at hmem
      rcases hmem with ⟨rfl, hans⟩
      cases lifetime with
      | nonce nonce account authority =>
          exact truth.confirmedNonce wire nonce account authority n a _
            (Prod.ext (eq_of_heq hans).symm rfl)
      | fresh blockhash lastValidBlockHeight =>
          exact truth.confirmedFresh wire blockhash lastValidBlockHeight n a _
            (Prod.ext (eq_of_heq hans).symm rfl)

/-- So a run has heard only what is true. -/
theorem TruthfulEndpoint.heard_run {α : Type} {R : TransportPast → Unit → TransportReq → Prop}
    {Q : TransportPast → Unit → Except RpcError α → Prop} {p : TransportM α}
    (hp : p.Obeys (fun _ _ _ => False) R Q [] ()) (n : ρ) :
    ∃ past, truth.Heard past (run endpoint p () n).world ∧
      Q past () (run endpoint p () n).result :=
  obeys_run endpoint (fun past _ n => truth.Heard past n) (fun _ _ _ _ _ h => h.elim)
    (fun _ _ _ r h _ => truth.heard_ask h r) hp
    ⟨fun _ _ _ h => absurd h List.not_mem_nil, fun _ _ _ h => absurd h List.not_mem_nil⟩

omit truth in
/-- A call that is answered is a method that ended. -/
theorem run_of_overRpc {c : Call} {n n' : ρ} {a : c.Answer}
    (h : (overRpc kit asAddress fuel endpoint platform).rpc c n = (.ok a, n')) :
    run endpoint (rpcMethod kit asAddress fuel c) () n = ⟨.ok a, (), n'⟩ := by
  rcases Prod.mk.inj h with ⟨hresult, rfl⟩
  rcases hrun : run endpoint (rpcMethod kit asAddress fuel c) () n with ⟨e | a', _, n'⟩
  · rw [hrun] at hresult
    cases hresult
  · rw [hrun] at hresult
    cases hresult
    rfl

/-- The layer passes the truth on. -/
def TruthfulEndpoint.network : TruthfulNetwork (overRpc kit asAddress fuel endpoint platform) where
  processed := truth.processed
  keeps := by
    rintro n n' ⟨r, w, rfl, rfl⟩ signature ended h
    cases r with
    | rpc c => exact truth.keeps_run (rpcMethod kit asAddress fuel c) h
    | tick => exact truth.elsewhere .tick w signature ended nofun h
    | storeGet k => exact truth.elsewhere (.storeGet k) w signature ended nofun h
    | storeSet k v => exact truth.elsewhere (.storeSet k v) w signature ended nofun h
    | storeKeys p => exact truth.elsewhere (.storeKeys p) w signature ended nofun h
    | sign key message => exact truth.elsewhere (.sign key message) w signature ended nofun h
    | now => exact truth.elsewhere .now w signature ended nofun h
    | randomUUID => exact truth.elsewhere .randomUUID w signature ended nofun h
  sent := by
    intro wire lifetime n signature n' h
    rcases truth.heard_run (obeys_sendPayment kit fuel wire lifetime) n with ⟨past, hheard, hends⟩
    rw [show run endpoint (Transport.sendPayment kit fuel wire lifetime false) () n = _ from
      run_of_overRpc kit asAddress fuel h] at hheard hends
    rcases hends with ⟨rfl, a, hasked⟩ | ⟨rfl, status, hconfirms, hasked⟩
    · exact ⟨rfl, hheard.2 wire lifetime a hasked⟩
    · refine ⟨rfl, ?_⟩
      rw [hheard.1 _ _ status hasked, hconfirms.1]
      rfl
  landed := by
    intro signature n outcome n' h hne
    rcases truth.heard_run (obeys_getSignatureOutcome kit signature) n with ⟨past, hheard, hends⟩
    rw [show run endpoint (Transport.getSignatureOutcome kit signature) () n = _ from
      run_of_overRpc kit asAddress fuel h] at hheard hends
    rcases hends outcome rfl with ⟨habsent, _⟩ | ⟨_, status, hstatus, hasked⟩
    · exact absurd habsent hne
    · rw [hheard.1 _ _ status hasked]
      simp only [hstatus]
  absent := by
    intro signature n n' h
    -- What had been processed by now would have been found.
    have hask : ∀ m (r : TransportReq), (∀ ended, truth.processed n signature = some ended →
        truth.processed m signature = some ended) →
        (.asked (.getSignatureStatuses signature true) (.ok none) : Act transport Unit RpcError)
          = .asked r (endpoint r m).1 →
        truth.processed n signature = none := by
      intro m r hkept heq
      rw [Act.asked.injEq] at heq
      rcases heq with ⟨rfl, hans⟩
      have hnone := truth.absent signature m _ (Prod.ext (eq_of_heq hans).symm rfl)
      rcases hprocessed : truth.processed n signature with _ | ended
      · rfl
      · rw [hkept ended hprocessed] at hnone
        cases hnone
    rcases obeys_run endpoint (fun past _ m => (∀ ended, truth.processed n signature = some ended →
        truth.processed m signature = some ended) ∧
        (.asked (.getSignatureStatuses signature true) (.ok none) ∈ past →
          truth.processed n signature = none))
      (fun _ _ _ _ _ h => h.elim)
      (fun past _ m r hpast _ => ⟨fun ended h => truth.keeps r m _ _ (hpast.1 ended h),
        fun hmem => (List.mem_append.mp hmem).elim hpast.2 fun hmem =>
          hask m r hpast.1 (List.mem_singleton.mp hmem)⟩)
      (obeys_getSignatureOutcome kit signature) (w := n)
      ⟨fun _ h => h, fun h => absurd h List.not_mem_nil⟩ with ⟨past, hpast, hends⟩
    rw [show run endpoint (Transport.getSignatureOutcome kit signature) () n = _ from
      run_of_overRpc kit asAddress fuel h] at hends
    rcases hends .absent rfl with ⟨_, hasked⟩ | ⟨hne, _⟩
    · exact hpast.2 hasked
    · exact absurd rfl hne

end Layer

section Submission

variable {network : Network ρ} (truth : TruthfulNetwork network)

theorem TruthfulNetwork.later {n n' : ρ} (h : Later network n n') {signature : Signature}
    {ended : Bool} (hended : truth.processed n signature = some ended) :
    truth.processed n' signature = some ended := by
  induction h with
  | refl => exact hended
  | tail _ hstep ih => exact truth.keeps _ _ hstep _ _ ih

/-- The send of this transaction failed, and some time after that the cluster had
    not processed it. -/
def NotProcessed (wire : WireTransaction) (n : ρ) : Prop :=
  ∃ lifetime n₀ e n₁ n₂, network.rpc (.sendPayment wire lifetime) n₀ = (.error e, n₁) ∧
    Later network n₁ n₂ ∧ Later network n₂ n ∧ truth.processed n₂ wire.signature = none

/-- What became of a transaction, as its outcome has it. -/
def BecameOf (wire : WireTransaction) (n : ρ) : SubmitOutcome → Prop
  | .settled signature _ =>
    signature = wire.signature ∧ truth.processed n wire.signature = some true
  | .failed _ true _ => truth.processed n wire.signature = some false
  | .failed _ false _ => NotProcessed truth wire n

variable {truth}

theorem BecameOf.later {wire : WireTransaction} {n n' : ρ} {o : SubmitOutcome}
    (h : BecameOf truth wire n o) (hl : Later network n n') : BecameOf truth wire n' o := by
  rcases o with ⟨signature, value⟩ | ⟨code, _ | _, detail⟩
  · exact ⟨h.1, truth.later hl h.2⟩
  · rcases h with ⟨lifetime, n₀, e, n₁, n₂, hsend, h₁, h₂, hnone⟩
    exact ⟨lifetime, n₀, e, n₁, n₂, hsend, h₁, h₂.trans hl, hnone⟩
  · exact truth.later hl h

variable {σ : Type} {kit : Kit} {payment : VerifiedPayment} {s s' : σ} {w w' : World ρ}
  {o : SubmitOutcome}

/-- After a failed send, the lookup decides the outcome. -/
theorem outcome_of_afterFailure {lifetime : PaymentLifetime} {signature : Signature} {e : Thrown}
    (h : run (reply network) (afterFailure kit payment lifetime signature e) s w
      = ⟨.ok o, s', w'⟩) : ∃ outcome n₁,
    network.rpc (.getSignatureOutcome signature) w.net = (.ok outcome, n₁) ∧
    Later network n₁ w'.net ∧
    (outcome = .landedOk ∧ (∃ value, o = .settled signature value) ∨
      outcome = .landedFailed ∧ (∃ code detail, o = .failed code true detail) ∨
      outcome = .absent ∧ ∃ code detail, o = .failed code false detail) := by
  simp only [afterFailure, run_bind, run_getSignatureOutcome] at h
  rcases hlookup : network.rpc (.getSignatureOutcome signature) w.net with ⟨e' | outcome, n₁⟩
  · rw [hlookup] at h
    cases h
  rw [hlookup] at h
  simp only at h
  refine ⟨outcome, n₁, rfl, ?_⟩
  cases outcome with
  | landedOk =>
      -- The new value is read after the lookup, and no answer to that changes the outcome.
      have hlater := run_later network (newNonceValueOf kit payment) s ⟨w.store, n₁⟩
      simp only [run_bind] at h
      split at h
      · cases h
        exact ⟨hlater, .inl ⟨rfl, _, rfl⟩⟩
      · cases h
  | landedFailed =>
      cases h
      exact ⟨.refl, .inr (.inl ⟨rfl, _, _, rfl⟩)⟩
  | absent =>
      by_cases hprocessed : codeFromError kit e = some .submitAlreadyProcessed
      · simp only [if_pos hprocessed] at h
        cases h
        exact ⟨.refl, .inr (.inr ⟨rfl, _, _, rfl⟩)⟩
      simp only [if_neg hprocessed] at h
      cases lifetime with
      | fresh blockhash height =>
          cases h
          exact ⟨.refl, .inr (.inr ⟨rfl, _, _, rfl⟩)⟩
      | nonce value address authority =>
          have hlater := run_later network (precheckNonce kit payment) s ⟨w.store, n₁⟩
          simp only [run_bind] at h
          split at h
          · next verdict _ =>
            cases verdict <;> cases h <;>
              exact ⟨hlater, .inr (.inr ⟨rfl, _, _, rfl⟩)⟩
          · cases h

/-- An outcome is what became of the transaction that was sent. -/
theorem becameOf_submit (truth : TruthfulNetwork network) {key : CryptoKeyPair}
    (h : run (reply network) (submit kit payment key) s w = ⟨.ok o, s', w'⟩) :
    BecameOf truth (attemptWire network kit payment key w.net) w'.net o := by
  rcases submit_cases network s w kit payment key with ⟨_, e, n', herr⟩ |
    ⟨_, lifetime, signers, _, _, hsendable, _, _⟩
  · cases h.symm.trans herr
  rw [attemptWire_eq hsendable]
  rw [run_submit network hsendable, run_tryCatch] at h
  rcases send_cases network s
      { w with net := (network.sign key payment.messageBytes w.net).2 } kit payment
      (wireAt network payment key signers w.net) lifetime with
    ⟨e, n₂, hthrows, hsend⟩ | ⟨_, sent, value, n₂, n', hanswer, _, hsend⟩
  · rw [hsend] at h
    change run (reply network) (afterFailure kit payment lifetime _ e) s { w with net := n₂ }
      = _ at h
    rcases outcome_of_afterFailure h with ⟨outcome, n₃, hlookup, hlater, hcases⟩
    have hlanded := truth.landed _ _ _ _ hlookup
    rcases hcases with ⟨rfl, value, rfl⟩ | ⟨rfl, code, detail, rfl⟩ | ⟨rfl, code, detail, rfl⟩
    · exact ⟨rfl, truth.later hlater (hlanded nofun)⟩
    · exact truth.later hlater (hlanded nofun)
    · have hnone := truth.absent _ _ _ hlookup
      have hrest : Later network n₂ w'.net := by
        have hone := later_reply network (.rpc (.getSignatureOutcome
          (wireAt network payment key signers w.net).signature)) ⟨w.store, n₂⟩
        simp only [reply, hlookup] at hone
        exact hone.trans hlater
      rcases hthrows with hthrows | ⟨sent, n₁, hsent, ref, href, haccount⟩
      · exact ⟨lifetime, _, e, n₂, n₂, hthrows, .refl, hrest, hnone⟩
      · -- A send that was confirmed is found, whatever threw after it.
        have hdone := (truth.sent _ _ _ _ _ hsent).2
        have hbetween : Later network n₁ n₂ := by
          rcases haccount with ⟨_, rfl⟩ | ⟨address, _, hans⟩
          · exact .refl
          · have hone := later_reply network (.rpc (.getNonceAccount address)) ⟨w.store, n₁⟩
            simp only [reply, hans] at hone
            exact hone
        rw [truth.later hbetween hdone] at hnone
        cases hnone
  · -- The value of the slot is read after that, and the send has long been confirmed.
    have hread := run_later network (newNonceValueOf kit payment >>= fun value =>
      pure (SubmitOutcome.settled sent value)) s ⟨w.store, n₂⟩
    have hrest : run (reply network) (sendAndReadBack kit payment
        (wireAt network payment key signers w.net) lifetime) s
        { w with net := (network.sign key payment.messageBytes w.net).2 }
        = run (reply network) (newNonceValueOf kit payment >>= fun value =>
            pure (SubmitOutcome.settled sent value)) s ⟨w.store, n₂⟩ := by
      simp only [sendAndReadBack, run_bind, run_sendPayment, hanswer]
    rw [← hrest, hsend] at hread
    rw [hsend] at h
    cases h
    rcases truth.sent _ _ _ _ _ hanswer with ⟨rfl, hdone⟩
    exact ⟨rfl, truth.later hread hdone⟩

end Submission

section Reports

variable {network : Network ρ} {queue : QueueConfig}

/-- What holds of no reports, survives time, and survives every turn that is
    recorded, holds of all the reports of a run. -/
theorem runReports_rule {J : List Report → ρ → Prop}
    (hlater : ∀ reports n n', J reports n → Later network n n' → J reports n')
    (hturn : ∀ reports key queued vars w o vars' w', J reports w.net →
      run (reply network) (recordTurn queue key queued) vars w = ⟨.ok o, vars', w'⟩ →
      J (reports ++ [⟨turnWire network queue key queued vars w, o, vars.consecutiveFailedSends,
        vars'.consecutiveFailedSends⟩]) w'.net)
    {sys : QueueSys ρ} (h : J [] sys.world.net) (commands : List QueueCommand) :
    J (runReports network queue sys commands)
      (final (queueStep network queue) sys commands).world.net := by
  -- Within a drain, by its turns; then over the events of the run.
  have hdrain : ∀ {key payments vars w reports end'},
      Drains network queue key payments vars w reports end' →
      ∀ {earlier}, J earlier w.net → J (earlier ++ reports) end'.world.net := by
    intro key payments vars w reports end' hdrains
    induction hdrains with
    | done => intro earlier h; rwa [List.append_nil]
    | skip _ ih => exact fun h => ih h
    | unrecorded _ later =>
        intro earlier h
        rw [List.append_nil]
        exact hlater _ _ _ h later
    | unstored turn later => exact fun h => hlater _ _ _ (hturn _ _ _ _ _ _ _ _ h turn) later
    | turned turn later _ ih =>
        intro earlier h
        rw [List.append_cons]
        exact ih (hlater _ _ _ (hturn _ _ _ _ _ _ _ _ h turn) later)
  have hrule := @history_rule _ _ _ (queueStep network queue)
    (fun pre sys => J (pre.flatMap (reportsOf network queue)) sys.world.net) (fun _ _ => True)
    (fun pre command sys h _ => by
      rw [List.flatMap_append, List.flatMap_singleton]
      have hlater' := hlater _ _ _ h (queue_later network queue command sys)
      cases command with
      | drain key =>
          have hdrains : Drains network queue key _ _ _ _ _ :=
            drains (Queue.ordered queue sys.vars) sys.vars sys.world
          have hall := hdrain hdrains h
          rw [← run_drain_eq] at hall
          rcases hrun : run (reply network) (Queue.drain queue key) sys.vars sys.world with
            ⟨x, vars, w⟩
          rw [hrun] at hall
          rw [step_of_run rfl hrun]
          exact hall
      | _ =>
          change J (_ ++ []) _
          rwa [List.append_nil])
    [] sys commands h fun _ _ _ _ => trivial
  exact hrule.1

/-- Over an endpoint that tells the truth about its cluster, every report of
    every run of a merchant's queue is true of the cluster when the run has come to
    its end: a settled payment has succeeded under the signature that is reported,
    a fee that is reported was taken for a transaction that failed, and where none
    is, the send had failed and the transaction had not been processed. What a
    drain returns has such a report, and no two reports tell of one signature that
    it was settled and that it was charged. -/
theorem reports_true {endpoint : Endpoint ρ} {platform : Network ρ}
    (truth : TruthfulEndpoint endpoint platform) (asAddress : Json → Address) (fuel : Nat)
    (queue : QueueConfig) (sys : QueueSys ρ) (commands : List QueueCommand) :
    let network := overRpc queue.kit asAddress fuel endpoint platform
    let reports := runReports network queue sys commands
    let ending := (final (queueStep network queue) sys commands).world.net
    (∀ r ∈ reports,
      BecameOf (truth.network queue.kit asAddress fuel) r.wire ending r.outcome) ∧
    ((queueHistory network queue sys commands).flatMap outcomesOf).Sublist
      (reports.map Report.outcome) ∧
    ∀ a ∈ reports, ∀ b ∈ reports, a.wire.signature = b.wire.signature →
      a.outcome.isSettled = true → b.outcome.feeCharged = false := by
  intro network reports ending
  have htrue : ∀ r ∈ reports,
      BecameOf (truth.network queue.kit asAddress fuel) r.wire ending r.outcome := by
    refine runReports_rule (J := fun reports n => ∀ r ∈ reports,
      BecameOf (truth.network queue.kit asAddress fuel) r.wire n r.outcome)
      (fun reports n n' h hlater r hr => (h r hr).later hlater)
      (fun reports key queued vars w o vars' w' h hturn r hr => ?_)
      (fun _ h => absurd h List.not_mem_nil) commands
    have hlater := run_later network (recordTurn queue key queued) vars w
    rw [hturn] at hlater
    rcases List.mem_append.mp hr with hr | hr
    · exact (h r hr).later hlater
    rw [List.mem_singleton.mp hr]
    -- The turn was recorded, so the submission in it has ended with this outcome.
    rcases recordTurn_cases hturn with ⟨_, hx, _⟩ | ⟨o', n, y, hsubmit, hrecord, hx⟩
    · cases hx
    have hrecorded := run_later network (Queue.record queued o') (markedVars vars queued)
      ⟨(run (reply network) (Queue.save (marked queued)) vars w).world.store, n⟩
    rw [hrecord] at hrecorded
    rcases y with e | _
    · cases hx
    cases hx
    exact (becameOf_submit _ hsubmit).later hrecorded
  refine ⟨htrue, ?_, fun a ha b hb hsame hsettled => ?_⟩
  · change List.Sublist _ ((runReports network queue sys commands).map Report.outcome)
    rw [runReports, List.map_flatMap]
    refine List.Sublist.flatMap_right _ fun e he => ?_
    rw [eventAt_of_mem _ he]
    exact outcomesOf_sublist _ _
  · have hbecame := htrue a ha
    have hbecame' := htrue b hb
    rcases ho : a.outcome with ⟨signature, value⟩ | ⟨code, fee, detail⟩
    · rcases ho' : b.outcome with ⟨signature', value'⟩ | ⟨code, _ | _, detail⟩
      · rfl
      · rfl
      · rw [ho] at hbecame
        rw [ho'] at hbecame'
        have hcharged : (truth.network queue.kit asAddress fuel).processed ending
            b.wire.signature = some false := hbecame'
        rw [← hsame, hbecame.2] at hcharged
        cases hcharged
    · rw [ho] at hsettled
      cases hsettled

end Reports

section Slow

def slowTruth : TruthfulEndpoint slowEndpoint slowPlatform where
  processed := fun n signature => n.processed.lookup signature
  keeps := fun r n signature ended h => by
    cases r with
    | sendTransaction wire skipPreflight =>
        simp only [slowEndpoint]
        split
        · unfold SlowEndpoint.execute
          split
          · next hnew =>
            rw [List.lookup_cons]
            split
            · next heq =>
              rw [eq_of_beq heq, hnew] at h
              cases h
            · exact h
          · exact h
        · exact h
    | _ => exact h
  elsewhere := fun r w signature ended hrpc h => by
    cases r with
    | rpc c => exact absurd rfl (hrpc c)
    | _ => exact h
  status := fun signature history n status n' h => by
    rcases Prod.mk.inj h with ⟨hans, rfl⟩
    rcases Option.map_eq_some_iff.mp (Except.ok.inj hans) with ⟨ended, hended, rfl⟩
    rw [hended]
    cases ended <;> rfl
  absent := fun signature n n' h =>
    Option.map_eq_none_iff.mp (Except.ok.inj (Prod.mk.inj h).1)
  confirmedNonce := fun _ _ _ _ _ _ _ h => nomatch (Prod.mk.inj h).1
  confirmedFresh := fun _ _ _ _ _ _ h => nomatch (Prod.mk.inj h).1

/-- A queue in which a payment waits, on an endpoint that refuses three times. -/
def slowQueue : QueueSys SlowEndpoint where
  vars :=
    { payments :=
        { toList := [acceptedAs testKit (testPayment 0) .t2 10 100]
          nodup := by decide +kernel }
      consecutiveFailedSends := 0 }
  world := ⟨∅, ⟨0, 3, []⟩⟩

/-- What the queue reports when it is drained there. -/
def slowReports : List Report :=
  runReports (overRpc testQueue.kit (fun _ => testAddress 0) pollRounds slowEndpoint slowPlatform)
    testQueue slowQueue [.drain (testKey 2)]

/-- It settles in the end, and the transaction it sent has succeeded. -/
theorem reports_true_slow : ∃ r ∈ slowReports, r.outcome.isSettled = true ∧
    BecameOf (slowTruth.network testQueue.kit (fun _ => testAddress 0) pollRounds) r.wire
      (final (queueStep (overRpc testQueue.kit (fun _ => testAddress 0) pollRounds slowEndpoint
        slowPlatform) testQueue) slowQueue [.drain (testKey 2)]).world.net r.outcome := by
  have hsettled : slowReports.any (fun r => r.outcome.isSettled) = true := by decide +kernel
  rcases List.any_eq_true.mp hsettled with ⟨r, hr, hr'⟩
  have htrue := reports_true slowTruth (fun _ => testAddress 0) pollRounds testQueue slowQueue
    [.drain (testKey 2)]
  exact ⟨r, hr, hr', htrue.1 r hr⟩

end Slow

end Vadum
