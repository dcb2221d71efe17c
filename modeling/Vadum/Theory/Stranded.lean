import Vadum.Client.FakeRpc
import Vadum.Theory.QueueRuns

/-!
# Payments Left Behind

What becomes of an accepted payment. `drain` marks a payment as being submitted
before it submits it, and nothing but the end of that submission takes the mark
away: `drain` passes over a marked payment, and loading brings the mark back.
When a call of the error path throws, the drain is cut short and the payment
keeps its mark. `payment_stranded` is such a run.

`no_payment_stranded` says when this does not happen: exactly when every
submission a drain starts is answered.

## Main definitions

* `SamePayment`: What a payment may become.
* `Restates`: What the other payments become meanwhile.
* `Accounted`: The payments of a queue are those it has accepted.
* `KeptBy`: A queue still has a payment, and has it right.

## Theorems

* `drain_spec`: What a drain does to the payments.
* `accounted_step`: A queue stays accountable.
* `no_payment_stranded`: When no drain leaves a payment behind.
* `payment_stranded`: A run that does.
-/

namespace Vadum

open Async (eventAt final history)
open Async.Process

variable {ρ : Type}

/-- The same payment, further on: accepting fixes all but its state, its
    attempts and its last error. -/
def SamePayment (p q : QueuedPayment) : Prop :=
  q = { p with attempts := q.attempts, lastError := q.lastError, state := q.state }

theorem SamePayment.refl (p : QueuedPayment) : SamePayment p p := rfl

theorem SamePayment.id_eq {p q : QueuedPayment} (h : SamePayment p q) : q.id = p.id := by
  rw [h]

theorem SamePayment.trans {p q r : QueuedPayment} (h : SamePayment p q) (h' : SamePayment q r) :
    SamePayment p r := by
  unfold SamePayment at h h' ⊢
  rw [h'] at ⊢
  rw [h]

theorem samePayment_marked (p : QueuedPayment) : SamePayment p (marked p) := rfl

theorem samePayment_recorded (p : QueuedPayment) (o : SubmitOutcome) :
    SamePayment p (recorded p o) := by
  cases o <;> rfl

theorem samePayment_voided (p : QueuedPayment) : SamePayment p (voided p) := rfl

/-- The same payments under the same keys. -/
def Restates (vars vars' : QueueVars) : Prop :=
  ∀ id, Option.Rel SamePayment (vars.payments.get id) (vars'.payments.get id)

theorem Restates.of_eq {vars vars' : QueueVars}
    (h : ∀ id, vars'.payments.get id = vars.payments.get id) : Restates vars vars' := by
  intro id
  rw [h]
  cases vars.payments.get id with
  | none => exact .none
  | some p => exact .some (.refl p)

/-- Another version of a payment that is there. -/
theorem Restates.set {vars vars' : QueueVars} (h : Restates vars vars') {p q : QueuedPayment}
    (hp : vars.payments.get p.id = some p) (hq : SamePayment p q) :
    Restates vars { vars' with payments := vars'.payments.set q } := by
  intro id
  change Option.Rel _ _ ((vars'.payments.set q).get id)
  rw [Payments.get_set]
  by_cases hid : id = q.id
  · rw [if_pos hid, hid, hq.id_eq, hp]
    exact .some hq
  · rw [if_neg hid]
    exact h id

/-- No payment is marked as being submitted. -/
def Unmarked (vars : QueueVars) : Prop :=
  ∀ p ∈ vars.payments.toList, p.state ≠ .submitting

theorem Unmarked.set {vars : QueueVars} {p q : QueuedPayment} (hid : p.id = q.id)
    (hq : q.state ≠ .submitting) (h : Unmarked vars) :
    Unmarked { vars with payments := (vars.payments.set p).set q } := by
  intro r hr
  rcases Payments.mem_set.mp hr with rfl | ⟨hr, hne⟩
  · exact hq
  · rcases Payments.mem_set.mp hr with rfl | ⟨hr, _⟩
    · exact absurd hid hne
    · exact h r hr

section Drain

variable {network : Network ρ} (hs : StorageWorks network) {queue : QueueConfig}
  {key : CryptoKeyPair} {sys : QueueSys ρ}

include hs

/-- A drain restates the payments. It ends well and leaves no mark, or stops at
    a payment whose submission is not answered and leaves it marked. -/
theorem drain_spec (hsynced : Synced sys.vars sys.world.store) : ∃ result vars' w',
    run (reply network) (Queue.drain queue key) sys.vars sys.world = ⟨result, vars', w'⟩ ∧
    Synced vars' w'.store ∧ Restates sys.vars vars' ∧
    ((Unmarked sys.vars → Unmarked vars') ∨
      ∃ queued n, Turn network queue key sys queued n ∧
        ¬ SubmissionAnswered network queue.kit queued.payment key n) := by
  -- What one turn that returned keeps: the loop rule carries it to the turn that throws, if any.
  have hone : ∀ queued ∈ Queue.ordered queue sys.vars, queued.state.retried = true →
      ∀ vars w o vars' w',
        (Synced vars w.store ∧ Restates sys.vars vars ∧ (Unmarked sys.vars → Unmarked vars)) →
        run (reply network) (Queue.drainOne queue key queued) vars w = ⟨.ok o, vars', w'⟩ →
        Synced vars' w'.store ∧ Restates sys.vars vars' ∧ (Unmarked sys.vars → Unmarked vars') := by
    rintro queued hmem - vars w o vars' w' ⟨hsync, hrestates, hunmarked⟩ hrun
    have hget := Payments.mem_iff_get.mp (mem_ordered.mp hmem)
    rcases @run_drainOne _ network queue vars w hs key queued with
      ⟨_, e, n', herr⟩ | ⟨_, o', _, n', _, hok⟩
    · rw [herr] at hrun
      cases hrun
    · rw [hok] at hrun
      cases hrun
      refine ⟨?_, ?_, fun hnone => ?_⟩
      · have hmarked := hsync.save (marked queued)
        have hrecorded := hmarked.save (recorded queued o)
        rw [samePayment_recorded queued o |>.id_eq] at hrecorded
        exact hrecorded.saveMeta _
      · exact (hrestates.set hget (samePayment_marked queued)).set hget
          (samePayment_recorded queued o)
      · refine Unmarked.set (samePayment_recorded queued o).id_eq.symm ?_ (hunmarked hnone)
        cases o <;> exact PaymentState.noConfusion
  rcases drainPayments_rule hone ⟨hsynced, .of_eq fun _ => rfl, id⟩ with
    ⟨outcomes, vars', w', ⟨hsync, hrestates, hunmarked⟩, hrun⟩ |
    ⟨earlier, queued, later, outcomes, vars₁, w₁, e, vars', w', hsplit, hretried,
      ⟨hsync, hrestates, _⟩, hearlier, hstop, hrun⟩
  · exact ⟨_, vars', w', (run_bind_ok _ (run_read _ _ _)).trans hrun, hsync, hrestates,
      .inl hunmarked⟩
  · refine ⟨_, vars', w', (run_bind_ok _ (run_read _ _ _)).trans hrun, ?_⟩
    have hmem : queued ∈ Queue.ordered queue sys.vars := by
      rw [hsplit]
      exact List.mem_append_right _ List.mem_cons_self
    have hget := Payments.mem_iff_get.mp (mem_ordered.mp hmem)
    rcases @run_drainOne _ network queue vars₁ w₁ hs key queued with
      ⟨hnot, e', n', herr⟩ | ⟨_, o, _, n', _, hok⟩
    · rw [herr] at hstop
      cases hstop
      -- Only the mark was saved, and the turn that threw is the witness of it.
      exact ⟨hsync.save (marked queued), hrestates.set hget (samePayment_marked queued),
        .inr ⟨queued, _, ⟨earlier, later, outcomes, vars₁, w₁, hsplit, hretried, hearlier,
          storage_eq hs w₁.net⟩, hnot⟩⟩
    · rw [hok] at hstop
      cases hstop

/-- A turn whose submission is not answered leaves its payment marked. -/
theorem marked_of_unanswered {queued : QueuedPayment} {n : ρ}
    (hturn : Turn network queue key sys queued n)
    (hnot : ¬ SubmissionAnswered network queue.kit queued.payment key n) : ∃ e vars' w',
    run (reply network) (Queue.drain queue key) sys.vars sys.world = ⟨.error e, vars', w'⟩ ∧
    vars'.payments.get queued.id = some (marked queued) := by
  rcases hturn with ⟨earlier, later, outcomes, vars, w, hsplit, hretried, hearlier, hstorage⟩
  have hn : n = (network.storage w.net).2 := by rw [hstorage]
  rcases @run_drainOne _ network queue vars w hs key queued with
    ⟨_, e, n', herr⟩ | ⟨hans, _⟩
  · have hrun := drainPayments_stops later hretried hearlier herr
    rw [← hsplit] at hrun
    refine ⟨e, _, _, (run_bind_ok _ (run_read _ _ _)).trans hrun, ?_⟩
    rw [Payments.get_set]
    exact if_pos rfl
  · rw [hn] at hnot
    exact absurd hans hnot

end Drain

/-- The payments of a queue are those it has accepted, in memory and in the
    store. -/
structure Accounted (accepted : List QueuedPayment) (sys : QueueSys ρ) : Prop where
  synced : Synced sys.vars sys.world.store
  kept : ∀ p ∈ accepted, ∃ q, sys.vars.payments.get p.id = some q ∧ SamePayment p q
  known : ∀ q ∈ sys.vars.payments.toList, ∃ p ∈ accepted, SamePayment p q

/-- Restating the payments keeps the account of them. -/
theorem Accounted.of_restates {accepted : List QueuedPayment} {sys sys' : QueueSys ρ}
    (h : Accounted accepted sys) (hsynced : Synced sys'.vars sys'.world.store)
    (hrestates : Restates sys.vars sys'.vars) : Accounted accepted sys' where
  synced := hsynced
  kept := fun p hp => by
    rcases h.kept p hp with ⟨q, hq, hsame⟩
    have hrel := hrestates p.id
    rw [hq] at hrel
    rcases hq' : sys'.vars.payments.get p.id with _ | q'
    · rw [hq'] at hrel
      cases hrel
    · rw [hq'] at hrel
      cases hrel with
      | some hsame' => exact ⟨q', rfl, hsame.trans hsame'⟩
  known := fun q' hq' => by
    have hget := Payments.mem_iff_get.mp hq'
    have hrel := hrestates q'.id
    rw [hget] at hrel
    rcases hq : sys.vars.payments.get q'.id with _ | q
    · rw [hq] at hrel
      cases hrel
    · rw [hq] at hrel
      cases hrel with
      | some hsame' =>
          rw [← Payments.id_of_get hq] at hq
          rcases h.known q (Payments.mem_iff_get.mpr hq) with ⟨p, hp, hsame⟩
          exact ⟨p, hp, hsame.trans hsame'⟩

/-- Accepting a payment under a free key adds it to the account. -/
theorem Accounted.accept {accepted : List QueuedPayment} {sys : QueueSys ρ}
    (h : Accounted accepted sys) {p : QueuedPayment} (hfree : sys.vars.payments.get p.id = none)
    (n : ρ) : Accounted (accepted ++ [p])
      ⟨{ sys.vars with payments := sys.vars.payments.set p },
        ⟨sys.world.store.insert (.payment p.id) p, n⟩⟩ where
  synced := h.synced.save p
  kept := fun p' hp' => by
    change ∃ q, (sys.vars.payments.set p).get p'.id = some q ∧ _
    rw [Payments.get_set]
    rcases List.mem_append.mp hp' with hp' | hp'
    · rcases h.kept p' hp' with ⟨q, hq, hsame⟩
      have hne : p'.id ≠ p.id := by
        intro heq
        rw [heq, hfree] at hq
        cases hq
      rw [if_neg hne]
      exact ⟨q, hq, hsame⟩
    · rw [List.mem_singleton.mp hp', if_pos rfl]
      exact ⟨p, rfl, .refl p⟩
  known := fun q hq => by
    rcases Payments.mem_set.mp hq with rfl | ⟨hq, _⟩
    · exact ⟨q, List.mem_append_right _ (List.mem_singleton_self _), .refl q⟩
    · rcases h.known q hq with ⟨p', hp', hsame⟩
      exact ⟨p', List.mem_append_left _ hp', hsame⟩

/-- Every submission a drain starts is answered. -/
def DrainAnswered (network : Network ρ) (queue : QueueConfig) (e : QueueEvent ρ) : Prop :=
  ∀ key, e.op = .drain key → ∀ queued n, Turn network queue key e.before queued n →
    SubmissionAnswered network queue.kit queued.payment key n

section Steps

variable {network : Network ρ} (hs : StorageWorks network) (queue : QueueConfig)

include hs

/-- What loading makes of a queue whose memory says nothing the store does not:
    it then says the same. -/
theorem load_synced {vars : QueueVars} {w : World ρ}
    (hkeyed : ∀ id p, w.store.lookup (.payment id) = some p → p.id = id)
    (hless : ∀ id, w.store.lookup (.payment id) = none → vars.payments.get id = none) :
    ∃ payments vars' n, run (reply network) (Queue.load queue) vars w
        = ⟨.ok payments, vars', { w with net := n }⟩ ∧ Synced vars' w.store := by
  rcases load_spec queue hs hkeyed with ⟨payments, vars', n, hrun, hmeta, hget⟩
  refine ⟨payments, vars', n, hrun, fun id => ?_, hmeta.symm⟩
  rw [hget]
  rcases hlookup : w.store.lookup (.payment id) with _ | p
  · rw [hlookup, hless id hlookup]
    rfl
  · rw [hlookup]
    rfl

omit hs in
/-- Two queues in step with one store have the same payments. -/
theorem Synced.restates {vars vars' : QueueVars} {store : Store} (h : Synced vars store)
    (h' : Synced vars' store) : Restates vars vars' :=
  .of_eq fun id => (h'.payments id).symm.trans (h.payments id)

/-- What a step does: it accepts a payment under a free key, or restates the
    payments; and it marks none for good while what it drains is answered. -/
theorem step_cases (command : QueueCommand) {sys : QueueSys ρ}
    (h : Synced sys.vars sys.world.store) :
    let e := eventAt (queueStep network queue) command sys
    (∃ p n, accepted e = some p ∧ p.state = .queued ∧ sys.vars.payments.get p.id = none ∧
      e.after = ⟨{ sys.vars with payments := sys.vars.payments.set p },
        ⟨sys.world.store.insert (.payment p.id) p, n⟩⟩) ∨
    (accepted e = none ∧ Synced e.after.vars e.after.world.store ∧
      Restates sys.vars e.after.vars ∧
      (Unmarked sys.vars → DrainAnswered network queue e → Unmarked e.after.vars)) := by
  have hkeyed : ∀ id p, sys.world.store.lookup (.payment id) = some p → p.id = id := fun id p hp =>
    Payments.id_of_get ((h.payments id).symm.trans hp)
  -- Loading finds in the store what memory held, so it marks nothing new.
  have hreload : ∀ {vars : QueueVars}, Synced vars sys.world.store →
      Unmarked sys.vars → Unmarked vars := by
    intro vars hvars hnone p hp
    have hget := Payments.mem_iff_get.mp hp
    rw [← hvars.payments, h.payments] at hget
    exact hnone p (Payments.mem_iff_get.mpr hget)
  cases command with
  | accept payment tier amount precheck =>
      have hrun := run_accept queue hs payment tier amount precheck sys.vars sys.world
      rcases hchecks : Queue.acceptChecks queue sys.vars payment tier amount precheck with e | _
      · rw [hchecks] at hrun
        rw [event_of_run rfl hrun]
        exact .inr ⟨rfl, h, .of_eq fun _ => rfl, fun hnone _ => hnone⟩
      · rw [hchecks] at hrun
        rw [event_of_run rfl hrun]
        exact .inl ⟨_, _, rfl, rfl, get_of_acceptChecks queue hchecks, rfl⟩
  | drain key =>
      rcases drain_spec hs h with ⟨result, vars', w', hrun, hsynced, hrestates, hmarks⟩
      rw [event_of_run rfl hrun]
      refine .inr ⟨accepted_map fun _ _ => QueueResult.noConfusion, hsynced, hrestates,
        fun hnone hans => ?_⟩
      rcases hmarks with hmarks | ⟨queued, n, hturn, hnot⟩
      · exact hmarks hnone
      · exact absurd (hans key rfl queued n hturn) hnot
  | expire now =>
      rcases expire_spec queue hs now h with ⟨payments, vars', w', hrun, hsynced, _, hget⟩
      rw [event_of_run rfl hrun]
      refine .inr ⟨rfl, hsynced, fun id => ?_, fun hnone _ p hp => ?_⟩
      · change Option.Rel _ _ (vars'.payments.get id)
        rw [hget]
        cases sys.vars.payments.get id with
        | none => exact .none
        | some p =>
            rw [Option.map_some]
            split
            · exact .some (samePayment_voided p)
            · exact .some (.refl p)
      · have hp' := Payments.mem_iff_get.mp hp
        rw [hget] at hp'
        rcases hq : sys.vars.payments.get p.id with _ | q
        · rw [hq] at hp'
          cases hp'
        · rw [hq, Option.map_some] at hp'
          rw [← Option.some.inj hp']
          split
          · exact PaymentState.noConfusion
          · rw [← Payments.id_of_get hq] at hq
            exact hnone q (Payments.mem_iff_get.mpr hq)
  | load =>
      rcases load_synced hs queue hkeyed (fun id hnone => (h.payments id).symm.trans hnone) with
        ⟨payments, vars', n, hrun, hsynced⟩
      rw [event_of_run rfl hrun]
      exact .inr ⟨rfl, hsynced, h.restates hsynced, fun hnone _ => hreload hsynced hnone⟩
  | reopen =>
      rcases @load_synced _ _ hs queue .empty sys.world hkeyed (fun _ _ => rfl) with
        ⟨payments, vars', n, hrun, hsynced⟩
      rw [event_of_reopen hrun]
      exact .inr ⟨rfl, hsynced, h.restates hsynced, fun hnone _ => hreload hsynced hnone⟩

/-- Memory and store keep saying the same. -/
theorem synced_final (commands : List QueueCommand) {sys : QueueSys ρ}
    (h : Synced sys.vars sys.world.store) :
    Synced (final (queueStep network queue) sys commands).vars
      (final (queueStep network queue) sys commands).world.store := by
  induction commands generalizing sys with
  | nil => exact h
  | cons command commands ih =>
      refine ih ?_
      change Synced (eventAt (queueStep network queue) command sys).after.vars
        (eventAt (queueStep network queue) command sys).after.world.store
      rcases step_cases hs queue command h with ⟨p, n, _, _, _, hafter⟩ | ⟨_, hsynced, _⟩
      · rw [hafter]
        exact h.save p
      · exact hsynced

/-- A queue stays accountable, and unmarked while what it drains is answered. -/
theorem accounted_step {accepted' : List QueuedPayment} (command : QueueCommand)
    {sys : QueueSys ρ} (h : Accounted accepted' sys) :
    let e := eventAt (queueStep network queue) command sys
    Accounted (accepted' ++ (accepted e).toList) e.after ∧
      (Unmarked sys.vars → DrainAnswered network queue e → Unmarked e.after.vars) := by
  intro e
  rcases step_cases hs queue command h.synced with ⟨p, n, haccepted, hstate, hfree, hafter⟩ |
    ⟨haccepted, hsynced, hrestates, hmarks⟩
  · refine ⟨?_, fun hnone _ => ?_⟩
    · rw [haccepted, hafter]
      exact h.accept hfree n
    · rw [hafter]
      intro q hq
      rcases Payments.mem_set.mp hq with rfl | ⟨hq, _⟩
      · rw [hstate]
        exact PaymentState.noConfusion
      · exact hnone q hq
  · rw [haccepted, Option.toList_none, List.append_nil]
    exact ⟨h.of_restates hsynced hrestates, hmarks⟩

end Steps

/-- A queue still has a payment, in memory and in the store: it is settled or
    voided, or the next drain submits it. -/
def KeptBy (sys : QueueSys ρ) (p : QueuedPayment) : Prop :=
  ∃ q, sys.stored p.id = some q ∧ sys.vars.payments.get p.id = some q ∧ SamePayment p q ∧
    (q.state = .settled ∨ q.state = .voided ∨ q.state.retried = true)

theorem PaymentState.cases_of_ne {state : PaymentState} (h : state ≠ .submitting) :
    state = .settled ∨ state = .voided ∨ state.retried = true := by
  cases state with
  | queued => exact .inr (.inr rfl)
  | submitting => exact absurd rfl h
  | settled => exact .inl rfl
  | failed => exact .inr (.inr rfl)
  | voided => exact .inr (.inl rfl)

/-- After every drain every accepted payment is settled or voided or will be
    submitted again, in a run of a queue that starts empty, if and only if every
    submission its drains start is answered. -/
theorem no_payment_stranded (network : Network ρ) (hs : StorageWorks network)
    (queue : QueueConfig) (sys : QueueSys ρ) (hfresh : sys.Fresh)
    (commands : List QueueCommand) :
    (∀ pre e post key, queueHistory network queue sys commands = pre ++ e :: post →
      e.op = .drain key → ∀ p ∈ pre.filterMap accepted, KeptBy e.after p) ↔
    ∀ e ∈ queueHistory network queue sys commands, DrainAnswered network queue e := by
  have hstart : Accounted (List.filterMap accepted ([] : List (QueueEvent ρ))) sys :=
    ⟨synced_fresh hfresh, fun _ hp => absurd hp List.not_mem_nil, fun q hq => by
      rw [hfresh.1] at hq
      exact absurd hq List.not_mem_nil⟩
  have happend : ∀ (pre : List (QueueEvent ρ)) (e : QueueEvent ρ),
      (pre ++ [e]).filterMap accepted = pre.filterMap accepted ++ (accepted e).toList := by
    intro pre e
    rw [List.filterMap_append, List.filterMap_cons]
    cases accepted e <;> rfl
  constructor
  · intro hkept e he key hop queued n hturn
    rcases List.append_of_mem he with ⟨pre, post, hsplit⟩
    -- What was accepted so far is all accounted for before every event.
    have haccounted := (@Async.history_rule _ _ _ (queueStep network queue)
      (fun pre sys => Accounted (pre.filterMap accepted) sys) (fun _ _ => True)
      (fun pre command sys h _ => by
        rw [happend]
        exact (accounted_step hs queue command h).1) [] sys commands hstart
      (fun _ _ _ _ => trivial)).2 pre e post hsplit
    by_contra hnot
    -- The turn that threw has left the payment `submitting`, in memory and in the store.
    rcases marked_of_unanswered hs hturn hnot with ⟨_, vars', w', hrun, hmarked⟩
    have hevent := Async.eventAt_of_mem _ he
    have hafter : e.after = ⟨vars', w'⟩ := by
      rw [hop] at hevent
      rw [hevent, event_of_run rfl hrun]
    rcases hturn with ⟨earlier, later, _, _, _, hordered, _⟩
    have hmem : queued ∈ e.before.vars.payments.toList := by
      refine (@mem_ordered queue _ _).mp ?_
      rw [hordered]
      exact List.mem_append_right _ List.mem_cons_self
    rcases haccounted.known queued hmem with ⟨p, hp, hsame⟩
    rcases hkept pre e post key hsplit hop p hp with ⟨q, _, hget, _, hstate⟩
    rw [hafter, ← hsame.id_eq, hmarked] at hget
    rw [← Option.some.inj hget] at hstate
    rcases hstate with h | h | h <;> cases h
  · -- With every drain answered, no payment is left marked between two commands.
    intro hans pre e post key hsplit hop p hp
    have hbefore := (@Async.history_rule _ _ _ (queueStep network queue)
      (fun pre sys => Accounted (pre.filterMap accepted) sys ∧ Unmarked sys.vars)
      (fun _ e => DrainAnswered network queue e)
      (fun pre command sys h hA => by
        rw [happend]
        rcases accounted_step hs queue command h.1 with ⟨haccounted, hmarks⟩
        exact ⟨haccounted, hmarks h.2 hA⟩) [] sys commands
      ⟨hstart, fun q hq => by
        rw [hfresh.1] at hq
        exact absurd hq List.not_mem_nil⟩
      (fun pre e post heq => hans e (by
        rw [queueHistory, heq]
        exact List.mem_append_right _ List.mem_cons_self))).2 pre e post hsplit
    have he : e ∈ queueHistory network queue sys commands :=
      hsplit ▸ List.mem_append_right _ List.mem_cons_self
    have hevent := Async.eventAt_of_mem _ he
    rcases accounted_step hs queue e.op hbefore.1 with ⟨haccounted, hmarks⟩
    rw [← hevent] at haccounted hmarks
    rcases haccounted.kept p (List.mem_append_left _ hp) with ⟨q, hget, hsame⟩
    have hq := hget
    rw [← hsame.id_eq] at hq
    exact ⟨q, (haccounted.synced.payments p.id).trans hget, hget, hsame,
      PaymentState.cases_of_ne (hmarks hbefore.2 (hans e he) q (Payments.mem_iff_get.mpr hq))⟩

/-- A payment is accepted, and drained twice while the connection is down: the
    send throws, and so does the lookup that follows. -/
def droppedRun : List QueueCommand :=
  [.accept (testPayment 0) .t2 10 none, .drain (testKey 2), .reopen, .drain (testKey 2)]

/-- A network that drops one send and one lookup, and then works. -/
def droppedStart : QueueSys FakeRpc :=
  ⟨.empty, ∅, { sendPayment := [.error (.error "TypeError" "fetch failed" none)]
                signatureOutcome := [.error (.error "TypeError" "fetch failed" none)] }⟩

theorem droppedStart_fresh : droppedStart.Fresh := ⟨rfl, fun _ => rfl, rfl⟩

/-- The event of one of its commands. -/
def droppedEvent (n : Fin 4) : QueueEvent FakeRpc :=
  (queueHistory fakeNetwork testQueue droppedStart droppedRun).get n

theorem no_payment_stranded_droppedRun :
    ¬ ∀ e ∈ queueHistory fakeNetwork testQueue droppedStart droppedRun,
      DrainAnswered fakeNetwork testQueue e := by
  intro hans
  have haccepted : accepted (droppedEvent 0)
      = some (acceptedAs testKit (testPayment 0) .t2 10 0) := by decide +kernel
  rcases (no_payment_stranded fakeNetwork fakeNetwork_storageWorks testQueue droppedStart
      droppedStart_fresh droppedRun).mpr hans [droppedEvent 0] (droppedEvent 1)
      [droppedEvent 2, droppedEvent 3] (testKey 2) rfl rfl
      (acceptedAs testKit (testPayment 0) .t2 10 0)
      (List.mem_filterMap.mpr ⟨_, List.mem_singleton_self _, haccepted⟩) with
    ⟨q, _, hget, _, hstate⟩
  -- The dropped drain of the run leaves the mark behind.
  have hmarked : ((droppedEvent 1).after.vars.payments.get
      (acceptedAs testKit (testPayment 0) .t2 10 0).id).map QueuedPayment.state
        = some .submitting := by decide +kernel
  rw [hget, Option.map_some] at hmarked
  rw [Option.some.inj hmarked] at hstate
  rcases hstate with h | h | h <;> cases h

/-- The first drain is cut short and leaves the payment marked. The next one
    passes over it, although the connection is back, in a reopened queue. -/
theorem payment_stranded :
    droppedStart.Fresh ∧
    (queueHistory fakeNetwork testQueue droppedStart droppedRun).map (fun e =>
      (accepted e).isSome) = [true, false, false, false] ∧
    (queueHistory fakeNetwork testQueue droppedStart droppedRun).map (fun e =>
      e.after.vars.payments.toList.map QueuedPayment.state)
        = [[.queued], [.submitting], [.submitting], [.submitting]] ∧
    (queueHistory fakeNetwork testQueue droppedStart droppedRun).map (fun e =>
      (e.after.stored (paymentId testKit (testPayment 0))).map QueuedPayment.state)
        = [some .queued, some .submitting, some .submitting, some .submitting] :=
  ⟨droppedStart_fresh, by decide +kernel, by decide +kernel, by decide +kernel⟩

end Vadum
