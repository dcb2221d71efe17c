import Vadum.Theory.QueueRequests
import Vadum.Theory.Stranded

/-!
# A Queue That Refuses Everything

`accept` refuses every payment, of any tier, once too many sends have failed in
a row, and only a settlement sets the counter back. The counter is stored, so
it survives a reload. When nothing is left that could settle, because
everything has been voided, is stuck as being submitted, or can never be sent,
the queue stays locked whatever happens next: `locked_step`.

`accepts_again` says that these are the only states that refuse for good.
`queue_locked` is a run that ends in one: a payment fails as often as the limit
allows, and its send window ends.

## Main definitions

* `Hopeful`: A payment that a drain may still settle.
* `Locked`: Too many failed sends, and no payment that is hopeful.
* `CanAccept`: Some continuation accepts a new T0 payment.

## Theorems

* `locked_step`: A locked queue stays locked and accepts nothing.
* `settling_drain`: A drain in which everything sent settles.
* `accepts_again`: A queue can accept again if and only if it is not locked.
* `queue_locked`: A run that locks its queue.
-/

namespace Vadum

open Async (Event eventAt final)
open Async.Process

variable {ρ : Type}

/-- A payment that a drain may still settle: it is retried, some key fits it,
    and the slot it names has an address. -/
def Hopeful (kit : Kit) (p : QueuedPayment) : Prop :=
  p.state.retried = true ∧
    (∃ key lifetime signers, Sendable kit p.payment key lifetime signers) ∧
    Derivable kit p.payment

/-- Too many sends have failed, in memory and in the store, and neither has a
    payment that may still settle. -/
structure Locked (queue : QueueConfig) (vars : QueueVars) (store : Store) : Prop where
  counter : queue.limits.maxConsecutiveFailedSends ≤ vars.consecutiveFailedSends
  stored : queue.limits.maxConsecutiveFailedSends ≤ ((store.lookup .queueMeta).getD 0 : Nat)
  memory : ∀ p ∈ vars.payments.toList, ¬ Hopeful queue.kit p
  store : ∀ id p, store.lookup (.payment id) = some p → ¬ Hopeful queue.kit p

/-- Some continuation, over storage that works, ends in the acceptance of a T0
    payment. -/
def CanAccept (queue : QueueConfig) (sys : QueueSys ρ) (payment : VerifiedPayment)
    (amount : Int) : Prop :=
  ∃ (ρ' : Type) (network : Network ρ') (n : ρ') (commands : List QueueCommand),
    StorageWorks network ∧
      (accepted (eventAt (queueStep network queue) (.accept payment .t0 amount none)
        (final (queueStep network queue) ⟨sys.vars, ⟨sys.world.store, n⟩⟩ commands))).isSome

section Locked

variable {network : Network ρ} {queue : QueueConfig}

theorem Locked.set {vars : QueueVars} {store : Store} (h : Locked queue vars store)
    {p : QueuedPayment} (hp : ¬ Hopeful queue.kit p) :
    Locked queue { vars with payments := vars.payments.set p }
      (store.insert (.payment p.id) p) where
  counter := h.counter
  stored := by
    rw [AList.lookup_insert_ne StoreKey.noConfusion]
    exact h.stored
  memory := fun q hq => by
    rcases Payments.mem_set.mp hq with rfl | ⟨hq, _⟩
    · exact hp
    · exact h.memory q hq
  store := fun id q hq => by
    rw [lookup_insert_payment] at hq
    split at hq
    · rw [← Option.some.inj hq]
      exact hp
    · exact h.store id q hq

theorem Locked.setMeta {vars : QueueVars} {store : Store} (h : Locked queue vars store) {n : Nat}
    (hn : queue.limits.maxConsecutiveFailedSends ≤ n) :
    Locked queue { vars with consecutiveFailedSends := n } (store.insert .queueMeta n) where
  counter := hn
  stored := by
    rw [AList.lookup_insert]
    exact hn
  memory := h.memory
  store := fun id q hq => by
    rw [AList.lookup_insert_ne StoreKey.noConfusion] at hq
    exact h.store id q hq

theorem not_hopeful_of_state {p : QueuedPayment} (h : p.state.retried = false) :
    ¬ Hopeful queue.kit p := fun hope => Bool.false_ne_true (h.symm.trans hope.1)

/-- A queue whose counter has reached the limit admits nothing. -/
theorem acceptChecks_refuses {vars : QueueVars} {payment : VerifiedPayment} {tier : PaymentTier}
    {amount : Int} {precheck : Option NonceVerdict}
    (h : queue.limits.maxConsecutiveFailedSends ≤ vars.consecutiveFailedSends) :
    ∃ e, Queue.acceptChecks queue vars payment tier amount precheck = .error e := by
  unfold Queue.acceptChecks
  simp only
  split
  · exact ⟨_, rfl⟩
  · split
    · exact ⟨_, rfl⟩
    · exact ⟨_, rfl⟩

/-- A turn of a payment that cannot settle keeps the lock. -/
theorem locked_turn (hs : StorageWorks network) {key : CryptoKeyPair} {queued : QueuedPayment}
    (hqueued : ¬ Hopeful queue.kit queued) (hretried : queued.state.retried = true)
    {vars vars' : QueueVars} {w w' : World ρ} {result : Except Thrown SubmitOutcome}
    (hrun : run (reply network) (Queue.drainOne queue key queued) vars w = ⟨result, vars', w'⟩)
    (h : Locked queue vars w.store) : Locked queue vars' w'.store := by
  -- Marking makes no payment hopeful, and a turn that throws does no more than that.
  have hmarked := h.set (@not_hopeful_of_state queue (marked queued) rfl)
  rcases run_drainOne network vars w hs key queued with
    ⟨_, e, n', herr⟩ | ⟨_, o, n₁, n', hsubmit, hok⟩
  · rw [hrun] at herr
    cases herr
    exact hmarked
  · rw [hrun] at hok
    cases hok
    -- A turn that settles would have needed a hopeful payment.
    have hunsettled : o.isSettled = false := by
      by_contra hsettled
      rcases sendable_of_settled network _ _ hsubmit (Bool.eq_true_of_not_eq_false hsettled) with
        ⟨⟨lifetime, signers, hsendable⟩, hderivable⟩
      exact hqueued ⟨hretried, ⟨key, lifetime, signers, hsendable⟩, hderivable⟩
    have hrecorded : ¬ Hopeful queue.kit (recorded queued o) := by
      rintro ⟨_, hsendable, hderivable⟩
      rw [samePayment_recorded queued o] at hsendable hderivable
      exact hqueued ⟨hretried, hsendable, hderivable⟩
    -- What is not settled does not lower the counter.
    have hcounter : queue.limits.maxConsecutiveFailedSends
        ≤ (nextFailedSends vars.consecutiveFailedSends o : Nat) := by
      refine h.counter.trans ?_
      cases o with
      | settled signature value => cases hunsettled
      | failed code feeCharged detail =>
          rw [nextFailedSends]
          split
          · exact Int.ofNat_le.mpr (Nat.le_succ _)
          · exact le_refl _
    have hstored := hmarked.set hrecorded
    rw [samePayment_recorded queued o |>.id_eq] at hstored
    exact hstored.setMeta hcounter

/-- A locked queue stays locked, whatever is done to it, and accepts nothing. -/
theorem locked_step (hs : StorageWorks network) (command : QueueCommand) {sys : QueueSys ρ}
    (hkeyed : Keyed sys.world.store) (h : Locked queue sys.vars sys.world.store) :
    let e := eventAt (queueStep network queue) command sys
    Locked queue e.after.vars e.after.world.store ∧ accepted e = none := by
  -- Loading adds what the store holds, and that is as hopeless as the rest.
  have hloaded : ∀ {vars vars' : QueueVars},
      (∀ p ∈ vars.payments.toList, ¬ Hopeful queue.kit p) →
      vars'.consecutiveFailedSends = (sys.world.store.lookup .queueMeta).getD 0 →
      (∀ id, vars'.payments.get id
        = (sys.world.store.lookup (.payment id)).or (vars.payments.get id)) →
      Locked queue vars' sys.world.store := by
    intro vars vars' hmemory hmeta hget
    refine ⟨hmeta ▸ h.stored, h.stored, fun p hp => ?_, h.store⟩
    have hp' := Payments.mem_iff_get.mp hp
    rw [hget, Option.or_eq_some_iff] at hp'
    rcases hp' with hp' | ⟨_, hp'⟩
    · exact h.store _ p hp'
    · exact hmemory p (Payments.mem_iff_get.mpr hp')
  cases command with
  | accept payment tier amount precheck =>
      rcases @acceptChecks_refuses queue sys.vars payment tier amount precheck h.counter with
        ⟨e, he⟩
      have hrun := run_accept queue hs payment tier amount precheck sys.vars sys.world
      rw [he] at hrun
      rw [event_of_run rfl hrun]
      exact ⟨h, rfl⟩
  | drain key =>
      have hturn : ∀ queued ∈ Queue.ordered queue sys.vars, queued.state.retried = true →
          ∀ vars w result vars' w', Locked queue vars w.store →
            run (reply network) (Queue.drainOne queue key queued) vars w = ⟨result, vars', w'⟩ →
            Locked queue vars' w'.store :=
        fun queued hmem hretried vars w result vars' w' hl hrun =>
          locked_turn hs (h.memory queued (mem_ordered.mp hmem)) hretried hrun hl
      rcases drainPayments_rule (fun queued hmem hretried vars w o vars' w' hl hrun =>
          hturn queued hmem hretried vars w _ vars' w' hl hrun) h with
        ⟨outcomes, vars', w', hl, hrun⟩ |
        ⟨earlier, queued, later, outcomes, vars₁, w₁, e, vars', w', hsplit, hretried, hl, _, hstop,
          hrun⟩
      · rw [event_of_run rfl ((run_bind_ok _ (run_read _ _ _)).trans hrun)]
        exact ⟨hl, accepted_map fun _ _ => QueueResult.noConfusion⟩
      · rw [event_of_run rfl ((run_bind_ok _ (run_read _ _ _)).trans hrun)]
        refine ⟨hturn queued ?_ hretried vars₁ w₁ _ vars' w' hl hstop,
          accepted_map fun _ _ => QueueResult.noConfusion⟩
        rw [hsplit]
        exact List.mem_append_right _ List.mem_cons_self
  | expire now =>
      rcases run_expire queue now sys.vars sys.world with ⟨w', hrun, hstore⟩
      -- A voided payment is not retried again, so it is not hopeful.
      have hvoided : ∀ (payments : List QueuedPayment) (vars : QueueVars) (store : Store),
          (∀ p ∈ payments, p.state.retried = false) → Locked queue vars store →
          Locked queue { vars with payments := payments.foldl Payments.set vars.payments }
            (payments.foldl (fun store p => store.insert (.payment p.id) p) store) := by
        intro payments
        induction payments with
        | nil => exact fun vars store _ hl => hl
        | cons p rest ih =>
            exact fun vars store hstate hl =>
              ih _ _ (fun q hq => hstate q (List.mem_cons_of_mem _ hq))
                (hl.set (not_hopeful_of_state (hstate p List.mem_cons_self)))
      rw [event_of_run rfl hrun]
      refine ⟨?_, rfl⟩
      change Locked queue _ w'.store
      rw [hstore hs]
      refine hvoided _ _ _ (fun p hp => ?_) h
      rcases mem_expired queue now sys.vars hp with ⟨q, _, _, rfl⟩
      rfl
  | load =>
      rcases load_spec queue hs hkeyed with ⟨payments, vars', n, hrun, hmeta, hget⟩
      rw [event_of_run rfl hrun]
      exact ⟨hloaded h.memory hmeta hget, rfl⟩
  | reopen =>
      rcases @load_spec _ network queue hs .empty sys.world hkeyed with
        ⟨payments, vars', n, hrun, hmeta, hget⟩
      rw [event_of_reopen hrun]
      exact ⟨hloaded (fun p hp => absurd hp List.not_mem_nil) hmeta hget, rfl⟩

end Locked

/-- The operations write payments under their own keys. -/
theorem keyed_step (network : Network ρ) (queue : QueueConfig) (command : QueueCommand)
    {sys : QueueSys ρ} (h : Keyed sys.world.store) :
    Keyed (queueStep network queue command sys).2.world.store := by
  refine @asks_run _ _ _ _ _ Req.IsKeyed (reply network) (fun w => Keyed w.store)
    (keyed_reply network) (command.process queue) ?_ sys.vars sys.world h
  cases command with
  | accept payment tier amount precheck =>
      exact asks_map _ (asks_accept allows_keyed.toAllowsLoaded queue payment tier amount precheck)
  | drain key =>
      exact asks_map _ (asks_bind asks_read fun vars =>
        asks_drainPayments allows_keyed.toAllowsLoaded queue (fun _ => rfl) key _)
  | expire now => exact asks_map _ (asks_expire allows_keyed.toAllowsLoaded queue now)
  | load => exact asks_map _ (asks_load allows_keyed queue)
  | reopen => exact asks_bind (asks_write _) fun _ => asks_map _ (asks_load allows_keyed queue)

section Settling

/-- A network on which what is sent settles, and nothing else is known. -/
def settlingNetwork : Network Unit where
  rpc
    | .sendPayment _ _, _ => (.ok [], ())
    | .getNonceAccount _, _ => (.ok .absent, ())
    | _, _ => (.error (.error "TypeError" "fetch failed" none), ())
  storage := fun _ => (none, ())
  sign := fun _ _ _ => ([], ())
  clock := fun _ => 0
  randomUUID := fun _ => ("", ())
  tick := id

theorem settlingNetwork_storageWorks : StorageWorks settlingNetwork := fun _ => rfl

/-- A submission on it that ends in an outcome is settled. -/
theorem settling_submit {σ : Type} {kit : Kit} {payment : VerifiedPayment} {key : CryptoKeyPair}
    {s s' : σ} {w w' : World Unit} {o : SubmitOutcome}
    (hrun : run (reply settlingNetwork) (submit kit payment key) s w = ⟨.ok o, s', w'⟩) :
    o.isSettled = true := by
  rcases submit_cases settlingNetwork s w kit payment key with ⟨_, e, n', herr⟩ |
    ⟨_, lifetime, signers, o', n', _, hok, ⟨hsettled, _⟩ | ⟨e, n₂, outcome, n₃, _, hlookup, _⟩⟩
  · rw [hrun] at herr
    cases herr
  · rw [hrun] at hok
    cases hok
    exact hsettled
  · cases (Prod.mk.inj hlookup).1

/-- And one that is hopeful ends in an outcome. -/
theorem settling_answered {kit : Kit} {payment : VerifiedPayment} {key : CryptoKeyPair}
    {lifetime : PaymentLifetime} {signers : List Address}
    (hsendable : Sendable kit payment key lifetime signers) (hderivable : Derivable kit payment)
    (n : Unit) : SubmissionAnswered settlingNetwork kit payment key n := by
  refine ⟨lifetime, signers, hsendable, fun e n' hthrows => ?_⟩
  rcases hthrows with hsend | ⟨sent, n₁, _, ref, href, ⟨haddress, _⟩ | ⟨address, _, haccount⟩⟩
  · cases (Prod.mk.inj hsend).1
  · rcases hderivable ref href with ⟨address, hderive⟩
    rw [hderive] at haddress
    cases haddress
  · cases (Prod.mk.inj haccount).1

variable {queue : QueueConfig} {key : CryptoKeyPair}

/-- One turn on it: the payment settles, or stays marked. -/
theorem settling_turn (queued : QueuedPayment) (vars : QueueVars) (w : World Unit) :
    (¬ SubmissionAnswered settlingNetwork queue.kit queued.payment key () ∧ ∃ e w',
      run (reply settlingNetwork) (Queue.drainOne queue key queued) vars w
        = ⟨.error e, { vars with payments := vars.payments.set (marked queued) }, w'⟩) ∨
    ∃ o payments w', run (reply settlingNetwork) (Queue.drainOne queue key queued) vars w
      = ⟨.ok o, ⟨payments, 0⟩, w'⟩ := by
  rcases run_drainOne settlingNetwork vars w settlingNetwork_storageWorks key queued with
    ⟨hnot, e, n', herr⟩ | ⟨_, o, n₁, n', hsubmit, hok⟩
  · exact .inl ⟨hnot, e, _, herr⟩
  · have hsettled := settling_submit hsubmit
    cases o with
    | settled signature value => exact .inr ⟨_, _, _, hok⟩
    | failed code feeCharged detail => cases hsettled

/-- A settlement is not undone by the rest of the drain. -/
theorem settling_rest (payments : List QueuedPayment) {vars : QueueVars} (w : World Unit)
    (h : vars.consecutiveFailedSends = 0) : ∃ result vars' w',
    run (reply settlingNetwork) (Queue.drainPayments queue key payments) vars w
      = ⟨result, vars', w'⟩ ∧ vars'.consecutiveFailedSends = 0 := by
  -- A turn that returns on this network has settled, and settling sets the counter to zero.
  have hone : ∀ queued ∈ payments, queued.state.retried = true → ∀ vars w o vars' w',
      vars.consecutiveFailedSends = 0 →
      run (reply settlingNetwork) (Queue.drainOne queue key queued) vars w = ⟨.ok o, vars', w'⟩ →
      vars'.consecutiveFailedSends = 0 := by
    intro queued _ _ vars w o vars' w' _ hrun
    rcases @settling_turn queue key queued vars w with ⟨_, e, w', herr⟩ | ⟨o, _, w', hok⟩
    · rw [hrun] at herr
      cases herr
    · rw [hrun] at hok
      cases hok
      rfl
  rcases drainPayments_rule (J := fun vars _ => vars.consecutiveFailedSends = 0) hone h with
    ⟨outcomes, vars', w', hzero, hrun⟩ |
    ⟨_, queued, _, _, vars₁, w₁, e, vars', w', _, _, hzero, _, hstop, hrun⟩
  · exact ⟨_, vars', w', hrun, hzero⟩
  · refine ⟨_, vars', w', hrun, ?_⟩
    rcases @settling_turn queue key queued vars₁ w₁ with ⟨_, e', w', herr⟩ | ⟨o, _, w', hok⟩
    · rw [hstop] at herr
      cases herr
      exact hzero
    · rw [hstop] at hok
      cases hok

/-- A drain on it sets the counter back, or finds nothing to submit, or stops at
    the first payment it does find and leaves it marked. -/
theorem settling_drain (payments : List QueuedPayment) (vars : QueueVars) (w : World Unit) :
    ∃ result vars' w',
      run (reply settlingNetwork) (Queue.drainPayments queue key payments) vars w
        = ⟨result, vars', w'⟩ ∧
      (vars'.consecutiveFailedSends = 0 ∨ (∀ p ∈ payments, p.state.retried = false) ∨
        ∃ queued ∈ payments, queued.state.retried = true ∧
          ¬ SubmissionAnswered settlingNetwork queue.kit queued.payment key () ∧
          vars' = { vars with payments := vars.payments.set (marked queued) }) := by
  induction payments with
  | nil => exact ⟨_, vars, w, rfl, .inr (.inl fun _ hp => absurd hp List.not_mem_nil)⟩
  | cons first rest ih =>
      -- A payment that is not retried is passed over; the first one that is decides the drain.
      rcases hfirst : first.state.retried with _ | _
      · rw [drainPayments_skip hfirst]
        rcases ih with ⟨result, vars', w', hrun, hzero | hnone | ⟨queued, hmem, hrest⟩⟩
        · exact ⟨result, vars', w', hrun, .inl hzero⟩
        · refine ⟨result, vars', w', hrun, .inr (.inl fun p hp => ?_)⟩
          rcases List.mem_cons.mp hp with rfl | hp
          · exact hfirst
          · exact hnone p hp
        · exact ⟨result, vars', w', hrun, .inr (.inr ⟨queued, List.mem_cons_of_mem _ hmem, hrest⟩)⟩
      · rw [drainPayments_retried hfirst]
        rcases @settling_turn queue key first vars w with
          ⟨hnot, e, w', herr⟩ | ⟨o, payments, w₁, hok⟩
        · exact ⟨_, _, w', run_bind_error _ herr,
            .inr (.inr ⟨first, List.mem_cons_self, hfirst, hnot, rfl⟩)⟩
        · rcases @settling_rest queue key rest ⟨payments, 0⟩ w₁ rfl with
            ⟨e | outcomes, vars', w', hrun, hzero⟩
          · exact ⟨_, vars', w', (run_bind_ok _ hok).trans (run_bind_error _ hrun), .inl hzero⟩
          · exact ⟨_, vars', w', (run_bind_ok _ hok).trans (run_bind_ok _ hrun), .inl hzero⟩

/-- A drain puts no payment under a key that is free. -/
theorem free_drain {network : Network ρ} (hs : StorageWorks network) {sys : QueueSys ρ}
    {id : PaymentId} (h : sys.vars.payments.get id = none) :
    (queueStep network queue (.drain key) sys).2.vars.payments.get id = none := by
  -- The drain touches no payment but those of the ledger, and this one is not there.
  have hne : ∀ queued ∈ Queue.ordered queue sys.vars, queued.id ≠ id := by
    rintro queued hmem rfl
    rw [Payments.mem_iff_get.mp (mem_ordered.mp hmem)] at h
    cases h
  have hset : ∀ {p : QueuedPayment} {payments : Payments}, p.id ≠ id → payments.get id = none →
      (payments.set p).get id = none := by
    intro p payments hp hnone
    rw [Payments.get_set, if_neg (Ne.symm hp), hnone]
  have hone : ∀ queued ∈ Queue.ordered queue sys.vars, ∀ vars w result vars' w',
      vars.payments.get id = none →
      run (reply network) (Queue.drainOne queue key queued) vars w = ⟨result, vars', w'⟩ →
      vars'.payments.get id = none := by
    intro queued hmem vars w result vars' w' hnone hrun
    rcases run_drainOne network vars w hs key queued with
      ⟨_, e, n', herr⟩ | ⟨_, o, n₁, n', _, hok⟩
    · rw [hrun] at herr
      cases herr
      exact hset (hne queued hmem) hnone
    · rw [hrun] at hok
      cases hok
      refine hset ?_ (hset (hne queued hmem) hnone)
      rw [(samePayment_recorded queued o).id_eq]
      exact hne queued hmem
  rcases drainPayments_rule (J := fun vars _ => vars.payments.get id = none)
      (fun queued hmem _ vars w o vars' w' hnone hrun =>
        hone queued hmem vars w _ vars' w' hnone hrun) h with
    ⟨outcomes, vars', w', hnone, hrun⟩ |
    ⟨_, queued, _, _, vars₁, w₁, e, vars', w', hsplit, _, hnone, _, hstop, hrun⟩
  · rw [step_of_run rfl ((run_bind_ok _ (run_read _ _ _)).trans hrun)]
    exact hnone
  · rw [step_of_run rfl ((run_bind_ok _ (run_read _ _ _)).trans hrun)]
    refine hone queued ?_ vars₁ w₁ _ vars' w' hnone hstop
    rw [hsplit]
    exact List.mem_append_right _ List.mem_cons_self

/-- Marking a payment leaves one less to submit. -/
theorem countP_put {q r : QueuedPayment} {payments : List QueuedPayment}
    (hnodup : (payments.map QueuedPayment.id).Nodup) (hq : q ∈ payments) (hid : r.id = q.id)
    (hretried : q.state.retried = true) (hr : r.state.retried = false) :
    (Payments.put r payments).countP (fun p => p.state.retried)
      < payments.countP fun p => p.state.retried := by
  induction payments with
  | nil => exact absurd hq List.not_mem_nil
  | cons other rest ih =>
      rw [List.map_cons, List.nodup_cons] at hnodup
      rcases List.mem_cons.mp hq with rfl | hq
      · rw [Payments.put, if_pos hid.symm, List.countP_cons, List.countP_cons,
          if_neg (by rw [hr]; exact Bool.false_ne_true), if_pos hretried]
        exact Nat.lt_succ_self _
      · have hne : other.id ≠ r.id := fun heq => hnodup.1 (by
          rw [heq, hid]
          exact List.mem_map_of_mem hq)
        rw [Payments.put, if_neg hne, List.countP_cons, List.countP_cons]
        exact Nat.add_lt_add_right (ih hnodup.2 hq) _

/-- While a payment is there that would settle, draining again and again on it
    sets the counter back. Each drain that does not get to it leaves one payment
    less to submit. -/
theorem settling_drains {id : PaymentId} (count : Nat) (sys : QueueSys Unit)
    (hcount : sys.vars.payments.toList.countP (fun p => p.state.retried) = count)
    (hfree : sys.vars.payments.get id = none) {p : QueuedPayment}
    (hmem : p ∈ sys.vars.payments.toList) (hretried : p.state.retried = true)
    (hanswered : SubmissionAnswered settlingNetwork queue.kit p.payment key ()) :
    ∃ commands, (final (queueStep settlingNetwork queue) sys commands).vars.consecutiveFailedSends
        = 0 ∧
      (final (queueStep settlingNetwork queue) sys commands).vars.payments.get id = none := by
  -- The induction is on the retried payments that remain: a drain that stops has spent one.
  induction count using Nat.strong_induction_on generalizing sys with
  | _ count ih =>
      have hfree' := @free_drain _ queue key _ settlingNetwork_storageWorks _ _ hfree
      have hstep : ∀ {result : Except Thrown (List SubmitOutcome)} {vars' : QueueVars}
          {w' : World Unit}, run (reply settlingNetwork)
            (Queue.drainPayments queue key (Queue.ordered queue sys.vars)) sys.vars sys.world
              = ⟨result, vars', w'⟩ →
          (queueStep settlingNetwork queue (.drain key) sys).2 = ⟨vars', w'⟩ := fun hrun =>
        step_of_run rfl ((run_bind_ok _ (run_read _ _ _)).trans hrun)
      rcases @settling_drain queue key (Queue.ordered queue sys.vars) sys.vars sys.world with
        ⟨result, vars', w', hrun, hzero | hnone | ⟨queued, hqueued, hretried', hnot, rfl⟩⟩
      · refine ⟨[.drain key], ?_, hfree'⟩
        rw [Async.final_cons, hstep hrun]
        exact hzero
      · have := hnone p (mem_ordered.mpr hmem)
        rw [hretried] at this
        cases this
      · -- The drain stopped at a payment that cannot be asked about, which is now `submitting`.
        rw [mem_ordered] at hqueued
        have hfewer := countP_put sys.vars.payments.nodup hqueued (r := marked queued) rfl
          hretried' rfl
        have hne : p.id ≠ (marked queued).id := fun heq => by
          have := List.inj_on_of_nodup_map sys.vars.payments.nodup hmem hqueued heq
          rw [this] at hanswered
          exact hnot hanswered
        have hkept : p ∈ (sys.vars.payments.set (marked queued)).toList :=
          Payments.mem_set.mpr (.inr ⟨hmem, hne⟩)
        rcases ih _ (hcount ▸ hfewer) (queueStep settlingNetwork queue (.drain key) sys).2
            (by rw [hstep hrun]; rfl) hfree' (by rw [hstep hrun]; exact hkept) with
          ⟨commands, hdone⟩
        exact ⟨.drain key :: commands, hdone⟩

end Settling

section Continuations

variable {queue : QueueConfig} {payment : VerifiedPayment} {amount : Int}

/-- Nothing that can be done to a locked queue ends in an acceptance. -/
theorem not_canAccept_of_locked {sys : QueueSys ρ} (hkeyed : Keyed sys.world.store)
    (h : Locked queue sys.vars sys.world.store) : ¬ CanAccept queue sys payment amount := by
  rintro ⟨ρ', network, n, commands, hs, hsome⟩
  -- No command unlocks it, so none before the acceptance does.
  have hrun : ∀ (commands : List QueueCommand) (sys : QueueSys ρ'), Keyed sys.world.store →
      Locked queue sys.vars sys.world.store →
      Keyed (final (queueStep network queue) sys commands).world.store ∧
        Locked queue (final (queueStep network queue) sys commands).vars
          (final (queueStep network queue) sys commands).world.store := by
    intro commands
    induction commands with
    | nil => exact fun _ hkeyed hl => ⟨hkeyed, hl⟩
    | cons command commands ih =>
        exact fun sys hkeyed hl => ih _ (keyed_step network queue command hkeyed)
          (locked_step hs command hkeyed hl).1
  rcases hrun commands ⟨sys.vars, ⟨sys.world.store, n⟩⟩ hkeyed h with ⟨hkeyed', hl⟩
  have hnone := (locked_step hs (.accept payment .t0 amount none) hkeyed' hl).2
  rw [hnone] at hsome
  cases hsome

/-- A T0 payment with a new key is admitted while the counter is below the
    limit. -/
theorem admit_t0 {vars : QueueVars} (hamount : amount ≤ queue.limits.receiptCapByTier .t0)
    (hfree : vars.payments.get (paymentId queue.kit payment) = none)
    (hcounter : vars.consecutiveFailedSends < queue.limits.maxConsecutiveFailedSends) :
    Queue.acceptChecks queue vars payment .t0 amount none = .ok () := by
  unfold Queue.acceptChecks
  simp only [hfree, reduceCtorEq, false_and, if_false, not_le.mpr hcounter, gt_iff_lt,
    not_lt.mpr hamount, ne_eq, not_true_eq_false]
  rfl

/-- So a continuation that sets the counter back ends in an acceptance. -/
theorem canAccept_of_counter (hamount : amount ≤ queue.limits.receiptCapByTier .t0)
    {sys : QueueSys ρ} (commands : List QueueCommand)
    (hfree : (final (queueStep settlingNetwork queue) ⟨sys.vars, ⟨sys.world.store, ()⟩⟩
      commands).vars.payments.get (paymentId queue.kit payment) = none)
    (hcounter : (final (queueStep settlingNetwork queue) ⟨sys.vars, ⟨sys.world.store, ()⟩⟩
      commands).vars.consecutiveFailedSends < queue.limits.maxConsecutiveFailedSends) :
    CanAccept queue sys payment amount := by
  refine ⟨Unit, settlingNetwork, (), commands, settlingNetwork_storageWorks, ?_⟩
  have hrun := run_accept queue settlingNetwork_storageWorks payment .t0 amount none
    (final (queueStep settlingNetwork queue) ⟨sys.vars, ⟨sys.world.store, ()⟩⟩ commands).vars
    (final (queueStep settlingNetwork queue) ⟨sys.vars, ⟨sys.world.store, ()⟩⟩ commands).world
  rw [admit_t0 hamount hfree hcounter] at hrun
  rw [event_of_run rfl hrun]
  rfl

/-- A queue with a payment that may still settle can be drained until it does. -/
theorem canAccept_of_hopeful (hmax : 1 ≤ queue.limits.maxConsecutiveFailedSends)
    (hamount : amount ≤ queue.limits.receiptCapByTier .t0) {sys : QueueSys ρ}
    (first : List QueueCommand) {before : QueueSys Unit}
    (hbefore : final (queueStep settlingNetwork queue) ⟨sys.vars, ⟨sys.world.store, ()⟩⟩ first
      = before)
    (hfree : before.vars.payments.get (paymentId queue.kit payment) = none)
    {p : QueuedPayment} (hmem : p ∈ before.vars.payments.toList) (hp : Hopeful queue.kit p) :
    CanAccept queue sys payment amount := by
  rcases hp with ⟨hretried, ⟨key, lifetime, signers, hsendable⟩, hderivable⟩
  rcases settling_drains _ before rfl hfree hmem hretried
    (settling_answered hsendable hderivable ()) with ⟨commands, hzero, hfree'⟩
  rw [← hbefore, ← Async.final_append] at hzero hfree'
  refine canAccept_of_counter hamount _ hfree' ?_
  rw [hzero]
  exact hmax

/-- A queue that is reached from an empty one, over any network and any storage,
    can accept a new T0 payment again if and only if it is not locked. -/
theorem accepts_again (network : Network ρ) (queue : QueueConfig)
    (hmax : 1 ≤ queue.limits.maxConsecutiveFailedSends) (sys : QueueSys ρ) (hfresh : sys.Fresh)
    (commands : List QueueCommand) (payment : VerifiedPayment) (amount : Int)
    (hamount : amount ≤ queue.limits.receiptCapByTier .t0)
    (hfree : (final (queueStep network queue) sys commands).vars.payments.get
      (paymentId queue.kit payment) = none)
    (hunused : (final (queueStep network queue) sys commands).stored
      (paymentId queue.kit payment) = none) :
    CanAccept queue (final (queueStep network queue) sys commands) payment amount ↔
      ¬ Locked queue (final (queueStep network queue) sys commands).vars
        (final (queueStep network queue) sys commands).world.store := by
  have hkeyed : Keyed (final (queueStep network queue) sys commands).world.store := by
    have hrun : ∀ (commands : List QueueCommand) (sys : QueueSys ρ), Keyed sys.world.store →
        Keyed (final (queueStep network queue) sys commands).world.store := by
      intro commands
      induction commands with
      | nil => exact fun _ hkeyed => hkeyed
      | cons command commands ih =>
          exact fun sys hkeyed => ih _ (keyed_step network queue command hkeyed)
    refine hrun commands sys fun id p hp => ?_
    have := hfresh.2.1 id
    rw [QueueSys.stored, hp] at this
    cases this
  generalize final (queueStep network queue) sys commands = reached at hfree hunused hkeyed ⊢
  constructor
  · exact fun hcan hl => not_canAccept_of_locked hkeyed hl hcan
  · intro hnot
    -- What is in the store is in memory after reopening.
    rcases @load_spec _ settlingNetwork queue settlingNetwork_storageWorks .empty
      ⟨reached.world.store, ()⟩ hkeyed with ⟨payments, vars', n, hrun, hmeta, hget⟩
    have hreopened : final (queueStep settlingNetwork queue)
        ⟨reached.vars, ⟨reached.world.store, ()⟩⟩ [.reopen]
        = ⟨vars', ⟨reached.world.store, n⟩⟩ :=
      congrArg Event.after (event_of_reopen hrun)
    have hfree' : vars'.payments.get (paymentId queue.kit payment) = none := by
      rw [hget]
      exact congrArg (Option.or · _) hunused
    by_contra hcannot
    refine hnot ⟨?_, ?_, fun p hp hhope => hcannot ?_, fun id p hp hhope => hcannot ?_⟩
    · by_contra hcounter
      exact hcannot (canAccept_of_counter hamount [] hfree (not_le.mp hcounter))
    · by_contra hcounter
      refine hcannot (canAccept_of_counter hamount [.reopen] ?_ ?_)
      · rw [hreopened]
        exact hfree'
      · rw [hreopened, hmeta]
        exact not_le.mp hcounter
    · exact canAccept_of_hopeful hmax hamount [] rfl hfree hp hhope
    · refine canAccept_of_hopeful hmax hamount [.reopen] hreopened hfree' ?_ hhope
      rw [Payments.mem_iff_get, hget, hkeyed id p hp]
      exact congrArg (Option.or · _) hp

end Continuations

/-- A payment that the chain executes and rejects, three times, and whose send
    window then ends. -/
def rejectedRun : List QueueCommand :=
  [.accept (testPayment 0) .t2 10 none, .drain (testKey 2), .drain (testKey 2),
    .drain (testKey 2), .expire testQueue.limits.sendWindowMs]

/-- A network on which it is rejected. -/
def rejectedStart : QueueSys FakeRpc :=
  ⟨.empty, ∅,
    { sendPayment := List.replicate 3 (.error (.error "SolanaError" "custom program error" none))
      signatureOutcome := List.replicate 3 (.ok .landedFailed) }⟩

theorem rejectedStart_fresh : rejectedStart.Fresh := ⟨rfl, fun _ => rfl, rfl⟩

/-- Where it leads. -/
def rejectedEnd : QueueSys FakeRpc :=
  final (queueStep fakeNetwork testQueue) rejectedStart rejectedRun

theorem rejectedEnd_synced : Synced rejectedEnd.vars rejectedEnd.world.store :=
  synced_final fakeNetwork_storageWorks testQueue rejectedRun (synced_fresh rejectedStart_fresh)

theorem rejectedEnd_free :
    rejectedEnd.vars.payments.get (paymentId testKit (testPayment 1)) = none := by
  decide +kernel

theorem rejectedEnd_locked : Locked testQueue rejectedEnd.vars rejectedEnd.world.store := by
  have hvoided : ∀ p ∈ rejectedEnd.vars.payments.toList, p.state.retried = false := by
    decide +kernel
  have hcounter : testQueue.limits.maxConsecutiveFailedSends
      ≤ rejectedEnd.vars.consecutiveFailedSends := by decide +kernel
  refine ⟨hcounter, ?_, fun p hp => not_hopeful_of_state (hvoided p hp), fun id p hp => ?_⟩
  · rw [rejectedEnd_synced.failedSends]
    exact hcounter
  · rw [rejectedEnd_synced.payments] at hp
    rw [← Payments.id_of_get hp] at hp
    exact not_hopeful_of_state (hvoided p (Payments.mem_iff_get.mpr hp))

theorem accepts_again_rejectedRun : ¬ CanAccept testQueue rejectedEnd (testPayment 1) 10 := by
  intro hcan
  exact (accepts_again fakeNetwork testQueue (by decide) rejectedStart rejectedStart_fresh
    rejectedRun (testPayment 1) 10 (by decide) rejectedEnd_free
    ((rejectedEnd_synced.payments _).trans rejectedEnd_free)).mp hcan rejectedEnd_locked

/-- Three failed sends of one payment, and the end of its send window, leave a
    queue that no continuation makes accept a T0 payment again. -/
theorem queue_locked :
    rejectedStart.Fresh ∧ 1 ≤ testQueue.limits.maxConsecutiveFailedSends ∧
    10 ≤ testQueue.limits.receiptCapByTier .t0 ∧
    rejectedEnd.vars.payments.get (paymentId testKit (testPayment 1)) = none ∧
    rejectedEnd.stored (paymentId testKit (testPayment 1)) = none ∧
    ¬ CanAccept testQueue rejectedEnd (testPayment 1) 10 :=
  ⟨rejectedStart_fresh, by decide, by decide, rejectedEnd_free,
    (rejectedEnd_synced.payments _).trans rejectedEnd_free,
    not_canAccept_of_locked (fun _ _ hp => Payments.id_of_get
      ((rejectedEnd_synced.payments _).symm.trans hp)) rejectedEnd_locked⟩

end Vadum
