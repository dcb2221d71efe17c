import Mathlib.Data.List.Nodup
import Vadum.Theory.Resubmission
import Vadum.Theory.Settlement
import Vadum.Theory.Stranded

/-!
# Fees over Many Drains

A transaction that was executed and failed has charged its fee, once. The
payment stays in the queue as failed, so the next drain submits it again. Where
the platform signs a message the same way every time, that drain looks up the
same signature, finds the same failed transaction, and reports its fee again.
The failed-send counter goes up again too, until it stops the merchant:
`fees_twice`.

A turn does that exactly if what it submits is what an earlier turn has reported
as charged. As long as none does, every fee is reported once.

## Main definitions

* `TruthfulChain`, `FeeTaken`: A chain, and an RPC that tells the truth about it.
* `Report`, `drainReports`: The turns of a drain, each with what it recorded.
* `Drains`: How a drain goes on, turn by turn.
* `Vouched`: What the reports of a run say of the chain.
* `NoRepeat`: No turn submits what an earlier turn has reported as charged.

## Theorems

* `charged_of_submit`: When a submission reports a fee.
* `Drains.outcomes`: What a drain returns is what its turns recorded.
* `vouched_run`: The reports of a run tell the truth.
* `fees_once`: When every fee is reported once, and every failure counted once.
* `fees_twice`: Fees that are reported twice.
-/

namespace Vadum

open Async (Event eventAt history final)
open Async.Process

variable {ρ : Type}

section Count

variable {α : Type} {p : α → Bool}

/-- At most one entry of a list counts if no two of them do. -/
theorem countP_le_one_iff {l : List α} :
    l.countP p ≤ 1 ↔ l.Pairwise fun a b => p a = true → ¬ p b = true := by
  induction l with
  | nil => exact ⟨fun _ => .nil, fun _ => Nat.zero_le _⟩
  | cons a l ih =>
      rw [List.pairwise_cons, List.countP_cons, ← ih]
      by_cases ha : p a = true
      · simp only [ha, if_true, forall_const]
        rw [← List.countP_eq_zero]
        omega
      · simp only [ha, Bool.false_eq_true, if_false, Nat.add_zero, false_implies, implies_true,
          true_and]

end Count

/-- A chain on which payments are executed, and an RPC that tells the truth about
    it. -/
structure TruthfulChain (network : Network ρ) where
  landed : ρ → List Landed
  grows : ∀ n n', Steps network n n' → landed n ⊆ landed n'
  /-- A signature is processed once. -/
  unique : ∀ n, ((landed n).map fun t => t.wire.signature).Nodup
  lookup : ∀ n n' signature outcome,
    network.rpc (.getSignatureOutcome signature) n = (.ok outcome, n') →
    outcome = outcomeOf (landed n) signature
  confirmed : ∀ n n' wire lifetime sent,
    network.rpc (.sendPayment wire lifetime) n = (.ok sent, n') → ⟨wire, true⟩ ∈ landed n'

section Chain

variable {network : Network ρ} (chain : TruthfulChain network)

theorem TruthfulChain.later {n n' : ρ} (h : Later network n n') :
    chain.landed n ⊆ chain.landed n' := by
  induction h with
  | refl => exact List.Subset.refl _
  | tail _ hstep ih => exact List.Subset.trans ih (chain.grows _ _ hstep)

/-- A transaction with this signature was executed and failed, so that it has
    charged its fee. -/
def FeeTaken (n : ρ) (signature : Signature) : Prop :=
  ∃ t ∈ chain.landed n, t.wire.signature = signature ∧ t.succeeded = false

variable {chain}

theorem FeeTaken.later {n n' : ρ} {signature : Signature} (h : FeeTaken chain n signature)
    (hl : Later network n n') : FeeTaken chain n' signature := by
  rcases h with ⟨t, ht, hsignature, hfailed⟩
  exact ⟨t, chain.later hl ht, hsignature, hfailed⟩

/-- The RPC says so. -/
theorem outcomeOf_eq_landedFailed {n : ρ} {signature : Signature} :
    outcomeOf (chain.landed n) signature = .landedFailed ↔ FeeTaken chain n signature := by
  unfold outcomeOf
  constructor
  · intro h
    rcases hfind : (chain.landed n).find? fun t => t.wire.signature = signature with _ | t
    · rw [hfind] at h
      cases h
    · rw [hfind] at h
      have hsignature := List.find?_some hfind
      refine ⟨t, List.mem_of_find?_eq_some hfind, of_decide_eq_true hsignature, ?_⟩
      cases hsucceeded : t.succeeded with
      | false => rfl
      | true =>
          simp only [hsucceeded, if_true, reduceCtorEq] at h
  · rintro ⟨t, ht, rfl, hfailed⟩
    rcases hfind : (chain.landed n).find? fun t' => t'.wire.signature = t.wire.signature with _ | t'
    · exact absurd (decide_eq_true rfl) (List.find?_eq_none.mp hfind _ ht)
    · have hsignature := List.find?_some hfind
      -- A signature lands once, so the entry found is this one.
      have hsame := List.inj_on_of_nodup_map (chain.unique n) (List.mem_of_find?_eq_some hfind) ht
        (of_decide_eq_true hsignature)
      rw [hfind, hsame]
      simp only [hfailed, Bool.false_eq_true, if_false]

/-- What was executed and failed did not settle. -/
theorem FeeTaken.not_settled {n : ρ} {wire : WireTransaction}
    (h : FeeTaken chain n wire.signature) : ⟨wire, true⟩ ∉ chain.landed n := by
  rcases h with ⟨t, ht, hsignature, hfailed⟩
  intro hmem
  have hsame := List.inj_on_of_nodup_map (chain.unique n) ht hmem hsignature
  rw [hsame] at hfailed
  cases hfailed

end Chain

section Submit

variable {σ : Type} {network : Network ρ} {kit : Kit} {payment : VerifiedPayment} {s s' : σ}
  {w w' : World ρ} {o : SubmitOutcome}

/-- After a failed send the lookup decides the fee, and a charged fee counts as
    an execution failure. -/
theorem charged_of_afterFailure {lifetime : PaymentLifetime} {signature : Signature} {e : Thrown}
    (h : run (reply network) (afterFailure kit payment lifetime signature e) s w
      = ⟨.ok o, s', w'⟩) : ∃ outcome n₁,
    network.rpc (.getSignatureOutcome signature) w.net = (.ok outcome, n₁) ∧
    (o.feeCharged = true ↔ outcome = .landedFailed) ∧
    (o.feeCharged = true → o.code = some .submitExecutionFailed) := by
  simp only [afterFailure, run_bind, run_getSignatureOutcome] at h
  rcases hlookup : network.rpc (.getSignatureOutcome signature) w.net with ⟨e' | outcome, n₁⟩
  · rw [hlookup] at h
    cases h
  rw [hlookup] at h
  refine ⟨outcome, n₁, rfl, ?_⟩
  -- Every other answer is reported without a fee.
  have free : ∀ {code : VadumErrorCode} {detail : Option JsString}, outcome ≠ .landedFailed →
      o = .failed code false detail → (o.feeCharged = true ↔ outcome = .landedFailed) ∧
        (o.feeCharged = true → o.code = some .submitExecutionFailed) := by
    rintro code detail hne rfl
    exact ⟨⟨(fun hfee => by cases hfee), fun heq => absurd heq hne⟩, fun hfee => by cases hfee⟩
  cases outcome with
  | landedOk =>
      simp only [run_bind] at h
      split at h
      · cases h
        exact ⟨⟨(fun hfee => by cases hfee), fun heq => by cases heq⟩, fun hfee => by cases hfee⟩
      · cases h
  | landedFailed =>
      cases h
      exact ⟨⟨fun _ => rfl, fun _ => rfl⟩, fun _ => rfl⟩
  | absent =>
      by_cases hprocessed : codeFromError kit e = some .submitAlreadyProcessed
      · simp only [if_pos hprocessed] at h
        cases h
        exact free SignatureOutcome.noConfusion rfl
      simp only [if_neg hprocessed] at h
      cases lifetime with
      | fresh blockhash height =>
          cases h
          exact free SignatureOutcome.noConfusion rfl
      | nonce value address authority =>
          simp only [run_bind] at h
          split at h
          · next verdict _ =>
            cases verdict <;> cases h <;> exact free SignatureOutcome.noConfusion rfl
          · cases h

/-- What is sent is what an attempt from here sends. -/
theorem attemptWire_eq {key : CryptoKeyPair} {lifetime : PaymentLifetime} {signers : List Address}
    (h : Sendable kit payment key lifetime signers) (n : ρ) :
    attemptWire network kit payment key n = wireAt network payment key signers n := by
  rw [attemptWire, h.required]
  rfl

/-- A submission that ends reports a fee only if the chain has taken it, and does
    so if it had been taken before. -/
theorem charged_of_submit (chain : TruthfulChain network) {key : CryptoKeyPair}
    (h : run (reply network) (submit kit payment key) s w = ⟨.ok o, s', w'⟩) :
    (o.feeCharged = true →
      FeeTaken chain w'.net (attemptWire network kit payment key w.net).signature ∧
        o.code = some .submitExecutionFailed) ∧
    (FeeTaken chain w.net (attemptWire network kit payment key w.net).signature →
      o.feeCharged = true) := by
  rcases submit_cases network s w kit payment key with ⟨_, e, n', herr⟩ |
    ⟨_, lifetime, signers, _, _, hsendable, _, _⟩
  · cases h.symm.trans herr
  rw [attemptWire_eq hsendable]
  have hsign : Later network w.net (network.sign key payment.messageBytes w.net).2 :=
    later_reply network (.sign key payment.messageBytes) w
  rw [run_submit network hsendable, run_tryCatch] at h
  rcases send_cases network s
      { w with net := (network.sign key payment.messageBytes w.net).2 } kit payment
      (wireAt network payment key signers w.net) lifetime with
    ⟨e, n₂, hthrows, hsend⟩ | ⟨_, sent, value, n₂, n', hanswer, _, hsend⟩
  · -- The send threw, and the chain was asked what became of it.
    rw [hsend] at h
    change run (reply network) (afterFailure kit payment lifetime _ e) s { w with net := n₂ }
      = _ at h
    rcases charged_of_afterFailure h with ⟨outcome, n₁, hlookup, hfee, hcode⟩
    have hends : Later network n₂ w'.net := by
      have hlater := run_later network (afterFailure kit payment lifetime
        (wireAt network payment key signers w.net).signature e) s { w with net := n₂ }
      rw [h] at hlater
      exact hlater
    have hbegins : Later network (network.sign key payment.messageBytes w.net).2 n₂ := by
      have hlater := run_later network (sendAndReadBack kit payment
        (wireAt network payment key signers w.net) lifetime) s
        { w with net := (network.sign key payment.messageBytes w.net).2 }
      rw [hsend] at hlater
      exact hlater
    rw [chain.lookup _ _ _ _ hlookup, outcomeOf_eq_landedFailed] at hfee
    exact ⟨fun hcharged => ⟨(hfee.mp hcharged).later hends, hcode hcharged⟩,
      fun htaken => hfee.mpr (htaken.later (hsign.trans hbegins))⟩
  · rw [hsend] at h
    cases h
    -- The send was confirmed. A transaction that failed is never confirmed.
    refine ⟨nofun, fun htaken => ?_⟩
    have hresolves : Later network (network.sign key payment.messageBytes w.net).2 n₂ := by
      have hlater := later_reply network
        (.rpc (.sendPayment (wireAt network payment key signers w.net) lifetime))
        { w with net := (network.sign key payment.messageBytes w.net).2 }
      simp only [reply, hanswer] at hlater
      exact hlater
    exact absurd (chain.confirmed _ _ _ _ _ hanswer)
      (htaken.later (hsign.trans hresolves)).not_settled

end Submit

/-- A turn whose outcome a drain has recorded. -/
structure Report where
  /-- The transaction its submission sent. -/
  wire : WireTransaction
  outcome : SubmitOutcome
  /-- The failed-send counter before the turn, and after. -/
  before : Nat
  after : Nat
deriving DecidableEq

/-- A payment's turn until its outcome is recorded. What is left of it then is
    to store the counter. -/
def recordTurn (queue : QueueConfig) (key : CryptoKeyPair) (queued : QueuedPayment) :
    QueueM SubmitOutcome := do
  Queue.save (marked queued)
  let outcome ← submit queue.kit queued.payment key
  Queue.record queued outcome
  pure outcome

section Turns

variable (network : Network ρ) (queue : QueueConfig) (key : CryptoKeyPair)

/-- What a turn that starts here submits. -/
def turnWire (queued : QueuedPayment) (vars : QueueVars) (w : World ρ) : WireTransaction :=
  attemptWire network queue.kit queued.payment key
    (run (reply network) (Queue.save (marked queued)) vars w).world.net

/-- The reports of a drain of the given payments. The turn that a drain stops at
    has one if it stops after the outcome was recorded. -/
def drainReports : List QueuedPayment → QueueVars → World ρ → List Report
  | [], _, _ => []
  | queued :: rest, vars, w =>
    if queued.state.retried then
      let turn := run (reply network) (recordTurn queue key queued) vars w
      match turn.result with
      | .ok outcome =>
        let stored := run (reply network) Queue.saveMeta turn.vars turn.world
        ⟨turnWire network queue key queued vars w, outcome, vars.consecutiveFailedSends,
            turn.vars.consecutiveFailedSends⟩ ::
          match stored.result with
          | .ok _ => drainReports rest stored.vars stored.world
          | .error _ => []
      | .error _ => []
    else drainReports rest vars w

variable {network queue key}

/-- A turn records its outcome and stores the counter. -/
theorem drainOne_eq (queued : QueuedPayment) :
    Queue.drainOne queue key queued
      = recordTurn queue key queued >>= fun o => Queue.saveMeta >>= fun _ => pure o := by
  simp only [recordTurn, bind_assoc]
  rfl

theorem run_drainOne_eq {queued : QueuedPayment} {vars vars' : QueueVars} {w w' : World ρ}
    {x : Except Thrown SubmitOutcome}
    (h : run (reply network) (recordTurn queue key queued) vars w = ⟨x, vars', w'⟩) :
    run (reply network) (Queue.drainOne queue key queued) vars w
      = run (reply network) (ofResult x >>= fun o => Queue.saveMeta >>= fun _ => pure o)
          vars' w' := by
  cases x with
  | error e => rw [drainOne_eq, run_bind_error _ h]; rfl
  | ok o => rw [drainOne_eq, run_bind_ok _ h]; rfl

/-- The variables once a payment is marked as being submitted. -/
def markedVars (vars : QueueVars) (queued : QueuedPayment) : QueueVars :=
  { vars with payments := vars.payments.set (marked queued) }

/-- A turn stops before it has an outcome, or goes on to record it. -/
theorem recordTurn_cases {queued : QueuedPayment} {vars vars' : QueueVars} {w w' : World ρ}
    {x : Except Thrown SubmitOutcome}
    (h : run (reply network) (recordTurn queue key queued) vars w = ⟨x, vars', w'⟩) :
    (∃ e, x = .error e ∧ vars' = markedVars vars queued) ∨
      let w₁ := (run (reply network) (Queue.save (marked queued)) vars w).world
      ∃ o n y, run (reply network) (submit queue.kit queued.payment key) (markedVars vars queued) w₁
          = ⟨.ok o, markedVars vars queued, ⟨w₁.store, n⟩⟩ ∧
        run (reply network) (Queue.record queued o) (markedVars vars queued) ⟨w₁.store, n⟩
          = ⟨y, vars', w'⟩ ∧ x = y.map fun _ => o := by
  have hvars : _ = markedVars vars queued := vars_save network vars w (marked queued)
  rcases hsave : run (reply network) (Queue.save (marked queued)) vars w with ⟨e | _, vars₁, w₁⟩
  · rw [hsave] at hvars
    rw [recordTurn, run_bind_error _ hsave] at h
    cases h
    exact .inl ⟨e, rfl, hvars⟩
  rw [hsave] at hvars
  have hmarked : vars₁ = markedVars vars queued := hvars
  subst hmarked
  rw [recordTurn, run_bind_ok _ hsave] at h
  -- The payment is marked. The submission either has an outcome or throws.
  rcases submit_cases network (markedVars vars queued) w₁ queue.kit queued.payment key with
    ⟨_, e, n, hsubmit⟩ | ⟨_, _, _, o, n, _, hsubmit, _⟩
  · rw [run_bind_error _ hsubmit] at h
    cases h
    exact .inl ⟨e, rfl, rfl⟩
  rw [run_bind_ok _ hsubmit] at h
  rcases hrecord : run (reply network) (Queue.record queued o) (markedVars vars queued)
    ⟨w₁.store, n⟩ with ⟨e | _, vars₂, w₂⟩
  · rw [run_bind_error _ hrecord] at h
    cases h
    exact .inr ⟨o, n, .error e, hsubmit, hrecord, rfl⟩
  · rw [run_bind_ok _ hrecord] at h
    cases h
    exact .inr ⟨o, n, .ok (), hsubmit, hrecord, rfl⟩

/-- A failure to record leaves the counter, and recording counts the outcome. -/
theorem failedSends_record (queued : QueuedPayment) (o : SubmitOutcome) {vars vars' : QueueVars}
    {w w' : World ρ} {x : Except Thrown Unit}
    (h : run (reply network) (Queue.record queued o) vars w = ⟨x, vars', w'⟩) :
    (x = .ok () → vars'.consecutiveFailedSends = nextFailedSends vars.consecutiveFailedSends o) ∧
      (∀ e, x = .error e → vars'.consecutiveFailedSends = vars.consecutiveFailedSends) := by
  rcases hstorage : network.storage w.net with ⟨_ | e, n⟩
  · -- The save went through, and the counter follows the outcome.
    cases o with
    | settled signature value =>
        simp only [Queue.record, run_bind, run_save network _ _ hstorage,
          Queue.setConsecutiveFailedSends, run_read, run_write] at h
        cases h
        exact ⟨fun _ => rfl, fun _ he => by cases he⟩
    | failed code feeCharged detail =>
        simp only [Queue.record, run_bind, run_save network _ _ hstorage] at h
        by_cases hcounts : countsAsFailedSend code = true
        · simp only [if_pos hcounts, Queue.setConsecutiveFailedSends, run_bind, run_read,
            run_write] at h
          cases h
          refine ⟨fun _ => ?_, fun _ he => by cases he⟩
          simp only [nextFailedSends, if_pos hcounts]
        · simp only [if_neg hcounts, run_pure] at h
          cases h
          refine ⟨fun _ => ?_, fun _ he => by cases he⟩
          simp only [nextFailedSends, if_neg hcounts]
  · cases o with
    | settled signature value =>
        simp only [Queue.record, run_bind, run_save_refused network _ _ hstorage] at h
        cases h
        exact ⟨(fun hok => by cases hok), fun _ _ => rfl⟩
    | failed code feeCharged detail =>
        simp only [Queue.record, run_bind, run_save_refused network _ _ hstorage] at h
        cases h
        exact ⟨(fun hok => by cases hok), fun _ _ => rfl⟩

/-- What a recorded turn reports of the fee is what the chain has taken, and a
    fee it reports counts as a failed send. -/
theorem charged_of_recordTurn (chain : TruthfulChain network) {queued : QueuedPayment}
    {vars vars' : QueueVars} {w w' : World ρ} {o : SubmitOutcome}
    (h : run (reply network) (recordTurn queue key queued) vars w = ⟨.ok o, vars', w'⟩) :
    (o.feeCharged = true →
      FeeTaken chain w'.net (turnWire network queue key queued vars w).signature ∧
        vars'.consecutiveFailedSends = vars.consecutiveFailedSends + 1) ∧
    (FeeTaken chain w.net (turnWire network queue key queued vars w).signature →
      o.feeCharged = true) := by
  have hsaved := run_later network (Queue.save (marked queued)) vars w
  rw [turnWire]
  -- The turn returned, so its submission did, and what was recorded is its outcome.
  rcases recordTurn_cases h with ⟨_, hx, _⟩ | ⟨o', n, e' | _, hsubmit, hrecord, hx⟩
  · cases hx
  · cases hx
  have hsame : o = o' := Except.ok.inj hx
  subst hsame
  rcases charged_of_submit chain hsubmit with ⟨htaken, hcharged⟩
  have hrecorded := run_later network (Queue.record queued o) (markedVars vars queued)
    ⟨(run (reply network) (Queue.save (marked queued)) vars w).world.store, n⟩
  rw [hrecord] at hrecorded
  have hcount := (failedSends_record queued o hrecord).1 rfl
  refine ⟨fun hfee => ⟨(htaken hfee).1.later hrecorded, ?_⟩, fun h => hcharged (h.later hsaved)⟩
  have hcode := (htaken hfee).2
  cases o with
  | settled signature value => cases hfee
  | failed code feeCharged detail =>
      rw [hcount, Option.some.inj hcode]
      rfl

/-- What the reports of a run say, as far as it has come, and of a chain that has
    come this far: a fee that is reported was taken, and has raised the counter,
    and whoever submits the same transaction again reports it again. -/
structure Vouched (chain : TruthfulChain network) (reports : List Report) (n : ρ) : Prop where
  taken : ∀ r ∈ reports, r.outcome.feeCharged = true →
    FeeTaken chain n r.wire.signature ∧ r.after = r.before + 1
  again : reports.Pairwise fun a b => a.outcome.feeCharged = true →
    b.wire.signature = a.wire.signature → b.outcome.feeCharged = true

theorem Vouched.later {chain : TruthfulChain network} {reports : List Report} {n n' : ρ}
    (h : Vouched chain reports n) (hl : Later network n n') : Vouched chain reports n' where
  taken := fun r hr hfee => ⟨(h.taken r hr hfee).1.later hl, (h.taken r hr hfee).2⟩
  again := h.again

/-- A turn adds its report. -/
theorem Vouched.turn {chain : TruthfulChain network} {reports : List Report}
    {queued : QueuedPayment} {vars vars' : QueueVars} {w w' : World ρ} {o : SubmitOutcome}
    (h : Vouched chain reports w.net)
    (hrun : run (reply network) (recordTurn queue key queued) vars w = ⟨.ok o, vars', w'⟩) :
    Vouched chain (reports ++ [⟨turnWire network queue key queued vars w, o,
      vars.consecutiveFailedSends, vars'.consecutiveFailedSends⟩]) w'.net where
  taken := fun r hr hfee => by
    have hlater := run_later network (recordTurn queue key queued) vars w
    rw [hrun] at hlater
    rcases List.mem_append.mp hr with hr | hr
    · exact ⟨(h.taken r hr hfee).1.later hlater, (h.taken r hr hfee).2⟩
    · rw [List.mem_singleton.mp hr] at hfee ⊢
      exact (charged_of_recordTurn chain hrun).1 hfee
  again := by
    refine List.pairwise_append.mpr ⟨h.again, List.pairwise_singleton _ _, ?_⟩
    intro a ha b hb hfee hsame
    rw [List.mem_singleton.mp hb] at hsame ⊢
    exact (charged_of_recordTurn chain hrun).2 (hsame ▸ (h.taken a ha hfee).1)

/-- How a drain of the given payments goes on from here: with which reports, and
    to which end. -/
inductive Drains (network : Network ρ) (queue : QueueConfig) (key : CryptoKeyPair) :
    List QueuedPayment → QueueVars → World ρ → List Report →
      Async.Outcome QueueVars Thrown (World ρ) (List SubmitOutcome) → Prop
  | done {vars : QueueVars} {w : World ρ} :
      Drains network queue key [] vars w [] ⟨.ok [], vars, w⟩
  | skip {queued rest vars w reports end'}
      (rest' : Drains network queue key rest vars w reports end') :
      Drains network queue key (queued :: rest) vars w reports end'
  | unrecorded {queued rest vars w e vars₁ w₁}
      (turn : run (reply network) (recordTurn queue key queued) vars w = ⟨.error e, vars₁, w₁⟩)
      (later : Later network w.net w₁.net) :
      Drains network queue key (queued :: rest) vars w [] ⟨.error e, vars₁, w₁⟩
  | unstored {queued rest vars w o vars₁ w₁ e w₂}
      (turn : run (reply network) (recordTurn queue key queued) vars w = ⟨.ok o, vars₁, w₁⟩)
      (later : Later network w₁.net w₂.net) :
      Drains network queue key (queued :: rest) vars w
        [⟨turnWire network queue key queued vars w, o, vars.consecutiveFailedSends,
          vars₁.consecutiveFailedSends⟩] ⟨.error e, vars₁, w₂⟩
  | turned {queued rest vars w o vars₁ w₁ w₂ reports end'}
      (turn : run (reply network) (recordTurn queue key queued) vars w = ⟨.ok o, vars₁, w₁⟩)
      (later : Later network w₁.net w₂.net)
      (rest' : Drains network queue key rest vars₁ w₂ reports end') :
      Drains network queue key (queued :: rest) vars w
        (⟨turnWire network queue key queued vars w, o, vars.consecutiveFailedSends,
          vars₁.consecutiveFailedSends⟩ :: reports)
        ⟨end'.result.map (o :: ·), end'.vars, end'.world⟩

/-- This is how it does. -/
theorem drains (payments : List QueuedPayment) (vars : QueueVars) (w : World ρ) :
    Drains network queue key payments vars w (drainReports network queue key payments vars w)
      (run (reply network) (Queue.drainPayments queue key payments) vars w) := by
  induction payments generalizing vars w with
  | nil => exact .done
  | cons queued rest ih =>
      rcases hretried : queued.state.retried with _ | _
      · simp only [drainReports, hretried, Bool.false_eq_true, if_false]
        rw [drainPayments_skip hretried]
        exact .skip (ih vars w)
      -- A payment that is retried takes its turn, and then the counter is stored.
      rw [drainPayments_retried hretried]
      simp only [drainReports, hretried, if_true]
      rcases hturn : run (reply network) (recordTurn queue key queued) vars w with
        ⟨e | o, vars₁, w₁⟩ <;> have hone := run_drainOne_eq hturn <;>
        rw [run_bind, run_ofResult] at hone
      · have hlater := run_later network (recordTurn queue key queued) vars w
        rw [hturn] at hlater
        rw [run_bind_error _ hone]
        exact .unrecorded hturn hlater
      have hvars := vars_saveMeta network vars₁ w₁
      have hlater := run_later network Queue.saveMeta vars₁ w₁
      rcases hmeta : run (reply network) Queue.saveMeta vars₁ w₁ with ⟨e | _, vars₂, w₂⟩ <;>
        rw [hmeta] at hvars hlater <;>
        obtain rfl : vars₁ = vars₂ := hvars.symm
      · rw [run_bind_error _ (hone.trans (run_bind_error _ hmeta))]
        exact .unstored hturn hlater
      · rw [run_bind_ok _ (hone.trans ((run_bind_ok _ hmeta).trans (run_pure ..))), run_bind]
        have hrest := Drains.turned hturn hlater (ih vars₁ w₂)
        rcases hrun : run (reply network) (Queue.drainPayments queue key rest) vars₁ w₂ with
          ⟨e | os, vars₃, w₃⟩ <;> rw [hrun] at hrest <;> exact hrest

/-- A drain adds the reports of its turns. -/
theorem Vouched.drain {chain : TruthfulChain network} {payments : List QueuedPayment}
    {reports reports' : List Report} {vars : QueueVars} {w : World ρ}
    {end' : Async.Outcome QueueVars Thrown (World ρ) (List SubmitOutcome)}
    (h : Vouched chain reports' w.net)
    (hdrain : Drains network queue key payments vars w reports end') :
    Vouched chain (reports' ++ reports) end'.world.net := by
  induction hdrain generalizing reports' with
  | done => rwa [List.append_nil]
  | skip _ ih => exact ih h
  | unrecorded _ later =>
      rw [List.append_nil]
      exact h.later later
  | unstored turn later => exact (h.turn turn).later later
  | turned turn later _ ih =>
      rw [List.append_cons]
      exact ih ((h.turn turn).later later)

/-- A drain that ends returns what its turns recorded. -/
theorem Drains.outcomes {payments : List QueuedPayment} {reports : List Report} {vars : QueueVars}
    {w : World ρ} {end' : Async.Outcome QueueVars Thrown (World ρ) (List SubmitOutcome)}
    (h : Drains network queue key payments vars w reports end') {outcomes : List SubmitOutcome}
    (hend : end'.result = .ok outcomes) : outcomes = reports.map Report.outcome := by
  induction h generalizing outcomes with
  | done =>
      cases hend
      rfl
  | skip _ ih => exact ih hend
  | unrecorded => cases hend
  | unstored => cases hend
  | @turned _ _ _ _ _ _ _ _ _ o _ _ _ ih =>
      rcases hrest : o.result with e | later
      · rw [hrest] at hend
        cases hend
      · rw [hrest] at hend
        cases hend
        exact congrArg (_ :: ·) (ih hrest)

end Turns

section Runs

variable {network : Network ρ} {queue : QueueConfig}

/-- The reports of an event, if it is a drain. -/
def reportsOf (network : Network ρ) (queue : QueueConfig) (e : QueueEvent ρ) : List Report :=
  match e.op with
  | .drain key =>
    drainReports network queue key (Queue.ordered queue e.before.vars) e.before.vars e.before.world
  | _ => []

/-- The reports of a run. -/
def runReports (network : Network ρ) (queue : QueueConfig) (sys : QueueSys ρ)
    (commands : List QueueCommand) : List Report :=
  (queueHistory network queue sys commands).flatMap (reportsOf network queue)

/-- No turn submits a transaction, with the signature it had, that an earlier
    turn of the run has reported as charged. -/
def NoRepeat (network : Network ρ) (queue : QueueConfig) (sys : QueueSys ρ)
    (commands : List QueueCommand) : Prop :=
  (runReports network queue sys commands).Pairwise fun a b => a.outcome.feeCharged = true →
    b.wire.signature ≠ a.wire.signature

instance (network : Network ρ) (queue : QueueConfig) (sys : QueueSys ρ)
    (commands : List QueueCommand) : Decidable (NoRepeat network queue sys commands) :=
  inferInstanceAs (Decidable (List.Pairwise _ _))

/-- The turn has found this transaction executed and charged, and has raised the
    failed-send counter for it. -/
def Report.raisedBy (t : Landed) (r : Report) : Bool :=
  r.outcome.feeCharged && decide (r.wire.signature = t.wire.signature) &&
    decide (r.before < r.after)

/-- A drain is a drain of what the queue lists. -/
theorem run_drain_eq (key : CryptoKeyPair) (vars : QueueVars) (w : World ρ) :
    run (reply network) (Queue.drain queue key) vars w
      = run (reply network) (Queue.drainPayments queue key (Queue.ordered queue vars)) vars w :=
  run_bind_ok _ (run_read _ _ _)

/-- An event adds its reports. -/
theorem Vouched.event {chain : TruthfulChain network} {reports : List Report}
    {command : QueueCommand} {sys : QueueSys ρ} (h : Vouched chain reports sys.world.net) :
    Vouched chain
      (reports ++ reportsOf network queue (eventAt (queueStep network queue) command sys))
      (queueStep network queue command sys).2.world.net := by
  have hlater := queue_later network queue command sys
  cases command with
  | drain key =>
      have hdrain : Drains network queue key _ _ _ _ _ :=
        drains (Queue.ordered queue sys.vars) sys.vars sys.world
      have hvouched := h.drain hdrain
      rw [← run_drain_eq] at hvouched
      rcases hrun : run (reply network) (Queue.drain queue key) sys.vars sys.world with ⟨x, vars, w⟩
      rw [hrun] at hvouched
      rw [step_of_run rfl hrun]
      exact hvouched
  | _ =>
      change Vouched chain (reports ++ []) _
      rw [List.append_nil]
      exact h.later hlater

/-- A run adds them all. -/
theorem vouched_run (chain : TruthfulChain network) (queue : QueueConfig) (sys : QueueSys ρ)
    (commands : List QueueCommand) : Vouched chain (runReports network queue sys commands)
      (final (queueStep network queue) sys commands).world.net := by
  have hrule := @Async.history_rule _ _ _ (queueStep network queue)
    (fun pre sys => Vouched chain (pre.flatMap (reportsOf network queue)) sys.world.net)
    (fun _ _ => True)
    (fun pre command sys h _ => by
      rw [List.flatMap_append, List.flatMap_singleton]
      exact h.event)
    [] sys commands ⟨fun _ h => absurd h List.not_mem_nil, .nil⟩ fun _ _ _ _ => trivial
  exact hrule.1

/-- An event returns no outcome that it has no report of. -/
theorem outcomesOf_sublist (command : QueueCommand) (sys : QueueSys ρ) :
    (outcomesOf (eventAt (queueStep network queue) command sys)).Sublist
      ((reportsOf network queue (eventAt (queueStep network queue) command sys)).map
        Report.outcome) := by
  have none : outcomesOf (eventAt (queueStep network queue) command sys) = [] →
      (outcomesOf (eventAt (queueStep network queue) command sys)).Sublist
        ((reportsOf network queue (eventAt (queueStep network queue) command sys)).map
          Report.outcome) := fun h => h ▸ List.nil_sublist _
  cases command with
  | drain key =>
      have hdrain : Drains network queue key _ _ _ _ _ :=
        drains (Queue.ordered queue sys.vars) sys.vars sys.world
      rw [← run_drain_eq] at hdrain
      rcases hrun : run (reply network) (Queue.drain queue key) sys.vars sys.world with
        ⟨e | outcomes, vars, w⟩
      · rw [event_of_run rfl hrun] at none ⊢
        exact none rfl
      · rw [hrun] at hdrain
        have houtcomes := hdrain.outcomes rfl
        rw [event_of_run rfl hrun]
        exact houtcomes ▸ List.Sublist.refl _
  -- No other command returns an outcome.
  | accept payment tier amount precheck =>
      rcases hrun : run (reply network) (Queue.accept queue payment tier amount precheck) sys.vars
        sys.world with ⟨x, vars, w⟩
      rw [event_of_run rfl hrun] at none ⊢
      exact none (outcomesOf_map x fun _ _ => QueueResult.noConfusion)
  | expire now =>
      rcases hrun : run (reply network) (Queue.expire queue now) sys.vars
        sys.world with ⟨x, vars, w⟩
      rw [event_of_run rfl hrun] at none ⊢
      exact none (outcomesOf_map x fun _ _ => QueueResult.noConfusion)
  | load =>
      rcases hrun : run (reply network) (Queue.load queue) sys.vars sys.world with ⟨x, vars, w⟩
      rw [event_of_run rfl hrun] at none ⊢
      exact none (outcomesOf_map x fun _ _ => QueueResult.noConfusion)
  | reopen =>
      rcases hrun : run (reply network) (Queue.load queue) .empty sys.world with ⟨x, vars, w⟩
      rw [event_of_reopen hrun] at none ⊢
      exact none (outcomesOf_map x fun _ _ => QueueResult.noConfusion)

/-- Without a repeat, every fee is reported once, and every execution failure
    raises the counter once; and that is the only way. -/
theorem fees_once (chain : TruthfulChain network) (queue : QueueConfig) (sys : QueueSys ρ)
    (commands : List QueueCommand) :
    let reports := runReports network queue sys commands
    let landed := chain.landed (final (queueStep network queue) sys commands).world.net
    (NoRepeat network queue sys commands →
      ((queueHistory network queue sys commands).flatMap outcomesOf).countP
          SubmitOutcome.feeCharged
        ≤ landed.countP fun t => ! t.succeeded &&
            reports.any fun r => r.wire.signature = t.wire.signature) ∧
    (NoRepeat network queue sys commands ↔
      ∀ t ∈ landed, t.succeeded = false → reports.countP (Report.raisedBy t) ≤ 1) := by
  intro reports landed
  have hvouched := vouched_run chain queue sys commands
  constructor
  · intro hnone
    -- What was returned was reported.
    have hreturned : ((queueHistory network queue sys commands).flatMap outcomesOf).countP
        SubmitOutcome.feeCharged
          ≤ (reports.map Report.outcome).countP SubmitOutcome.feeCharged := by
      refine List.Sublist.countP_le ?_
      change List.Sublist _ ((runReports network queue sys commands).map Report.outcome)
      rw [runReports, List.map_flatMap]
      refine List.Sublist.flatMap_right _ fun e he => ?_
      rw [Async.eventAt_of_mem _ he]
      exact outcomesOf_sublist _ _
    have hnodup : ((reports.filter fun r => r.outcome.feeCharged).map
        fun r => r.wire.signature).Nodup := by
      refine List.pairwise_map.mpr ((List.pairwise_filter (p := _)).mpr ?_)
      exact hnone.imp fun h ha _ heq => h ha heq.symm
    -- Each report with a fee stands for a failed transaction, and no two for the same.
    have hsubset : ((reports.filter fun r => r.outcome.feeCharged).map
        fun r => r.wire.signature) ⊆ (landed.filter fun t => ! t.succeeded &&
          reports.any fun r => r.wire.signature = t.wire.signature).map
            fun t => t.wire.signature := by
      intro signature hmem
      rcases List.mem_map.mp hmem with ⟨r, hr, rfl⟩
      rcases List.mem_filter.mp hr with ⟨hr, hfee⟩
      rcases (hvouched.taken r hr hfee).1 with ⟨t, ht, hsignature, hfailed⟩
      refine List.mem_map.mpr ⟨t, List.mem_filter.mpr ⟨ht, ?_⟩, hsignature⟩
      rw [hfailed, Bool.not_false, Bool.true_and]
      exact List.any_eq_true.mpr ⟨r, hr, decide_eq_true hsignature.symm⟩
    have hlength := (hnodup.subperm hsubset).length_le
    rw [List.length_map, List.length_map, ← List.countP_eq_length_filter,
      ← List.countP_eq_length_filter] at hlength
    rw [List.countP_map] at hreturned
    exact hreturned.trans hlength
  · constructor
    · intro hnone t _ _
      refine countP_le_one_iff.mpr (hnone.imp fun {a b} h ha hb => ?_)
      simp only [Report.raisedBy, Bool.and_eq_true, decide_eq_true_eq] at ha hb
      exact h ha.1.1 (hb.1.2.trans ha.1.2.symm)
    · intro hcount
      refine List.pairwise_iff_forall_sublist.mpr fun {a b} hab hfee hsame => ?_
      have ha : a ∈ reports := hab.subset List.mem_cons_self
      have hb : b ∈ reports := hab.subset (List.mem_cons_of_mem _ List.mem_cons_self)
      have hagain := List.pairwise_iff_forall_sublist.mp hvouched.again hab hfee hsame
      rcases (hvouched.taken a ha hfee).1 with ⟨t, ht, hsignature, hfailed⟩
      -- A charge after the transaction landed is one that it raised.
      have hraised : ∀ r ∈ reports, r.outcome.feeCharged = true →
          r.wire.signature = t.wire.signature → Report.raisedBy t r = true := by
        intro r hr hcharged hsig
        have hafter := (hvouched.taken r hr hcharged).2
        simp only [Report.raisedBy, hcharged, hsig, hafter, Nat.lt_add_one, decide_true,
          Bool.and_self]
      exact List.pairwise_iff_forall_sublist.mp
        (countP_le_one_iff.mp (hcount t ht hfailed)) hab (hraised a ha hfee hsignature.symm)
        (hraised b hb hagain (hsame.trans hsignature.symm))

end Runs

section Reverting

/-- A chain on which every transaction fails. -/
structure Reverts where
  landed : List Landed
  unique : (landed.map fun t => t.wire.signature).Nodup

/-- What has not been processed yet is executed, and fails. -/
def Reverts.execute (chain : Reverts) (wire : WireTransaction) : Reverts :=
  if h : wire.signature ∈ chain.landed.map fun t => t.wire.signature then chain
  else ⟨⟨wire, false⟩ :: chain.landed, List.nodup_cons.mpr ⟨h, chain.unique⟩⟩

/-- A platform that signs a message the same way every time, on that chain. -/
def revertingNetwork : Network Reverts where
  rpc
    | .sendPayment wire _, chain =>
      (.error (.error "Error" "custom program error: 0x1" none), chain.execute wire)
    | .getSignatureOutcome signature, chain => (.ok (outcomeOf chain.landed signature), chain)
    | _, chain => (.error (.error "TypeError" "fetch failed" none), chain)
  storage := fun chain => (none, chain)
  sign := fun key message chain => (testSignature key.publicKey message, chain)
  clock := fun _ => 0
  randomUUID := fun chain => ("", chain)
  tick := id

/-- It says what happened. -/
def revertingChain : TruthfulChain revertingNetwork where
  landed := Reverts.landed
  grows := by
    rintro n n' ⟨r, w, rfl, rfl⟩ t ht
    cases r with
    | rpc c =>
        cases c with
        | sendPayment wire lifetime =>
            change t ∈ (w.net.execute wire).landed
            unfold Reverts.execute
            split
            · exact ht
            · exact List.mem_cons_of_mem _ ht
        | _ => exact ht
    | _ => exact ht
  unique := Reverts.unique
  lookup := fun n n' signature outcome h => (Except.ok.inj (Prod.mk.inj h).1).symm
  confirmed := fun n n' wire lifetime sent h => by cases (Prod.mk.inj h).1

/-- A queue in which payments from slots 0 and 1 wait, on an empty chain. -/
def waiting : QueueSys Reverts where
  vars :=
    { payments :=
        { toList := [acceptedAs testKit (testPayment 0) .t2 10 100,
            acceptedAs testKit (testPayment 1) .t2 10 200]
          nodup := by decide +kernel }
      consecutiveFailedSends := 0 }
  world := ⟨∅, ⟨[], .nil⟩⟩

/-- One drain reports the fees of both. -/
theorem fees_once_waiting :
    ((queueHistory revertingNetwork testQueue waiting [.drain (testKey 2)]).flatMap
      outcomesOf).countP SubmitOutcome.feeCharged = 2 ∧
    ((queueHistory revertingNetwork testQueue waiting [.drain (testKey 2)]).flatMap
      outcomesOf).countP SubmitOutcome.feeCharged ≤
    (revertingChain.landed (final (queueStep revertingNetwork testQueue) waiting
      [.drain (testKey 2)]).world.net).countP fun t => ! t.succeeded &&
        (runReports revertingNetwork testQueue waiting [.drain (testKey 2)]).any fun r =>
          r.wire.signature = t.wire.signature :=
  ⟨by decide +kernel, (fees_once revertingChain testQueue waiting [.drain (testKey 2)]).1
    (by decide +kernel)⟩

/-- The second drain reports them again: four fees of two transactions, each of
    which has raised the failed-send counter twice. -/
theorem fees_twice :
    ((queueHistory revertingNetwork testQueue waiting
      [.drain (testKey 2), .drain (testKey 2)]).flatMap outcomesOf).countP
        SubmitOutcome.feeCharged = 4 ∧
    (revertingChain.landed (final (queueStep revertingNetwork testQueue) waiting
      [.drain (testKey 2), .drain (testKey 2)]).world.net).length = 2 ∧
    (revertingChain.landed (final (queueStep revertingNetwork testQueue) waiting
      [.drain (testKey 2), .drain (testKey 2)]).world.net).map (fun t =>
        (runReports revertingNetwork testQueue waiting
          [.drain (testKey 2), .drain (testKey 2)]).countP (Report.raisedBy t)) = [2, 2] ∧
    (final (queueStep revertingNetwork testQueue) waiting
      [.drain (testKey 2), .drain (testKey 2)]).vars.consecutiveFailedSends = 4 := by
  exact ⟨by decide +kernel, by decide +kernel, by decide +kernel, by decide +kernel⟩

end Reverting

end Vadum
