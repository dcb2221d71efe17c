import Vadum.Async.History
import Vadum.Client.Queue
import Vadum.Theory.Submission

/-!
# Runs of a Queue

A queue used one operation at a time: payments are accepted, drained, expired
and loaded, and the queue is reopened over the same store, in any order, over
any network.

When storage never refuses an access, memory and store say the same after every
operation: `Synced` is the invariant, and each operation has a lemma that says
what it makes of the payments. A queue is then a durable map, and loading or
reopening it changes nothing.

## Main definitions

* `QueueSys`, `QueueCommand`, `queueStep`: A queue and what can be done to it.
* `QueueEvent`, `queueHistory`: What happened in a run.
* `Synced`: Memory and store say the same.
* `recorded`, `nextFailedSends`: What `drain` makes of an outcome.
* `Turn`: A payment's turn in a drain.

## Theorems

* `run_save`, `run_record`, `run_drainOne`: What the parts of `drain` do.
* `drainPayments_eq_ok`: A drain resolves turn by turn.
* `drainPayments_rule`: An invariant of a drain's turns.
* `run_accept`, `expire_spec`, `load_spec`: What the other operations do.
-/

namespace Vadum

open Async (Event eventAt history)
open Async.Process

variable {ρ : Type}

/-- A queue and its world. -/
structure QueueSys (ρ : Type) where
  vars : QueueVars
  world : World ρ

/-- The record the store has under a dedupe key. -/
def QueueSys.stored (sys : QueueSys ρ) (id : PaymentId) : Option QueuedPayment :=
  sys.world.store.lookup (.payment id)

inductive QueueCommand where
  | accept (payment : VerifiedPayment) (tier : PaymentTier) (amount : Int)
      (precheck : Option NonceVerdict)
  | drain (feePayerKey : CryptoKeyPair)
  | expire (now : Int)
  | load
  /-- A new queue over the same store, loaded as the app does when it starts. -/
  | reopen
deriving DecidableEq

inductive QueueResult where
  | accepted (payment : QueuedPayment)
  | outcomes (outcomes : List SubmitOutcome)
  | payments (payments : List QueuedPayment)
deriving DecidableEq

/-- The code of a command. -/
def QueueCommand.process (queue : QueueConfig) : QueueCommand → QueueM QueueResult
  | .accept payment tier amount precheck =>
    .accepted <$> Queue.accept queue payment tier amount precheck
  | .drain feePayerKey => .outcomes <$> Queue.drain queue feePayerKey
  | .expire now => .payments <$> Queue.expire queue now
  | .load => .payments <$> Queue.load queue
  | .reopen => do
    write .empty
    .payments <$> Queue.load queue

def queueStep (network : Network ρ) (queue : QueueConfig) (command : QueueCommand)
    (sys : QueueSys ρ) : Except Thrown QueueResult × QueueSys ρ :=
  let outcome := run (reply network) (command.process queue) sys.vars sys.world
  (outcome.result, ⟨outcome.vars, outcome.world⟩)

abbrev QueueEvent (ρ : Type) : Type :=
  Event QueueCommand (Except Thrown QueueResult) (QueueSys ρ)

/-- What happens in a run of a queue. -/
abbrev queueHistory (network : Network ρ) (queue : QueueConfig) (sys : QueueSys ρ)
    (commands : List QueueCommand) : List (QueueEvent ρ) :=
  history (queueStep network queue) sys commands

/-- The payment an event has accepted, if it is one. -/
def accepted (e : QueueEvent ρ) : Option QueuedPayment :=
  match e.result with
  | .ok (.accepted payment) => some payment
  | _ => none

/-- The outcomes an event has returned. -/
def outcomesOf (e : QueueEvent ρ) : List SubmitOutcome :=
  match e.result with
  | .ok (.outcomes outcomes) => outcomes
  | _ => []

/-- A queue that has never been used over the given store. -/
def QueueSys.Fresh (sys : QueueSys ρ) : Prop :=
  sys.vars = QueueVars.empty ∧ (∀ id, sys.stored id = none) ∧
    sys.world.store.lookup .queueMeta = none

/-- What a payment becomes when its submission ends. -/
def recorded (queued : QueuedPayment) : SubmitOutcome → QueuedPayment
  | .settled _ _ => { queued with state := .settled, attempts := queued.attempts + 1 }
  | .failed code _ _ =>
    { queued with state := .failed, attempts := queued.attempts + 1, lastError := some code }

/-- What the failed-send counter becomes. -/
def nextFailedSends (n : Nat) : SubmitOutcome → Nat
  | .settled _ _ => 0
  | .failed code _ _ => if countsAsFailedSend code then n + 1 else n

/-- A payment's turn in a drain that starts here: those before it have been
    dealt with, it has been marked as being submitted, and this is the network
    its submission finds. -/
def Turn (network : Network ρ) (queue : QueueConfig) (feePayerKey : CryptoKeyPair)
    (sys : QueueSys ρ) (queued : QueuedPayment) (n : ρ) : Prop :=
  ∃ earlier later outcomes vars w, Queue.ordered queue sys.vars = earlier ++ queued :: later ∧
    queued.state.retried ∧
    run (reply network) (Queue.drainPayments queue feePayerKey earlier) sys.vars sys.world
      = ⟨.ok outcomes, vars, w⟩ ∧
    network.storage w.net = (none, n)

section Payments

namespace Payments

theorem mem_iff_get {payments : Payments} {payment : QueuedPayment} :
    payment ∈ payments.toList ↔ payments.get payment.id = some payment := by
  constructor
  · intro hmem
    rcases hget : payments.get payment.id with _ | other
    · have := List.find?_eq_none.mp hget payment hmem
      simp only [decide_true, not_true_eq_false] at this
    · have hid : other.id = payment.id := by
        simpa only [decide_eq_true_eq] using List.find?_some hget
      exact congrArg some (List.inj_on_of_nodup_map payments.nodup
        (List.mem_of_find?_eq_some hget) hmem hid)
  · exact fun hget => List.mem_of_find?_eq_some hget

theorem id_of_get {payments : Payments} {id : PaymentId} {payment : QueuedPayment}
    (h : payments.get id = some payment) : payment.id = id := by
  simpa only [decide_eq_true_eq] using List.find?_some h

/-- Under a key is what was put there last. -/
theorem get_set (payments : Payments) (payment : QueuedPayment) (id : PaymentId) :
    (payments.set payment).get id = if id = payment.id then some payment else payments.get id := by
  by_cases h : id = payment.id
  · rw [if_pos h, h]
    exact mem_iff_get.mp (mem_set.mpr (.inl rfl))
  · rw [if_neg h]
    rcases hget : payments.get id with _ | other
    · refine List.find?_eq_none.mpr fun p hp hid => ?_
      rcases mem_set.mp hp with rfl | ⟨hp, _⟩
      · exact h (of_decide_eq_true hid).symm
      · exact List.find?_eq_none.mp hget p hp hid
    · have hid := id_of_get hget
      rw [← hid] at hget ⊢
      refine mem_iff_get.mp (mem_set.mpr (.inr ⟨mem_iff_get.mpr hget, ?_⟩))
      rw [hid]
      exact h

end Payments

theorem mem_ordered {queue : QueueConfig} {vars : QueueVars} {payment : QueuedPayment} :
    payment ∈ Queue.ordered queue vars ↔ payment ∈ vars.payments.toList :=
  List.mem_insertionSort _

theorem nodup_ordered (queue : QueueConfig) (vars : QueueVars) :
    ((Queue.ordered queue vars).map QueuedPayment.id).Nodup :=
  (((List.perm_insertionSort _ _).map _).nodup_iff).mpr vars.payments.nodup

end Payments

/-- The event of a command is what its code does. -/
theorem event_of_run {network : Network ρ} {queue : QueueConfig} {command : QueueCommand}
    {sys : QueueSys ρ} {α : Type} {f : α → QueueResult} {p : QueueM α} {x : Except Thrown α}
    {vars : QueueVars} {w : World ρ} (hprocess : command.process queue = f <$> p)
    (hrun : run (reply network) p sys.vars sys.world = ⟨x, vars, w⟩) :
    eventAt (queueStep network queue) command sys = ⟨command, sys, x.map f, ⟨vars, w⟩⟩ := by
  simp only [eventAt, queueStep, hprocess, run_map, hrun]

theorem event_of_reopen {network : Network ρ} {queue : QueueConfig} {sys : QueueSys ρ}
    {x : Except Thrown (List QueuedPayment)} {vars : QueueVars} {w : World ρ}
    (hrun : run (reply network) (Queue.load queue) .empty sys.world = ⟨x, vars, w⟩) :
    eventAt (queueStep network queue) .reopen sys
      = ⟨.reopen, sys, x.map .payments, ⟨vars, w⟩⟩ := by
  simp only [eventAt, queueStep, QueueCommand.process, run_bind, run_write, run_map, hrun]

theorem step_of_run {network : Network ρ} {queue : QueueConfig} {command : QueueCommand}
    {sys : QueueSys ρ} {α : Type} {f : α → QueueResult} {p : QueueM α} {x : Except Thrown α}
    {vars : QueueVars} {w : World ρ} (hprocess : command.process queue = f <$> p)
    (hrun : run (reply network) p sys.vars sys.world = ⟨x, vars, w⟩) :
    (queueStep network queue command sys).2 = ⟨vars, w⟩ :=
  congrArg Event.after (event_of_run hprocess hrun)

/-- A command moves the network on. -/
theorem queue_later (network : Network ρ) (queue : QueueConfig) (command : QueueCommand)
    (sys : QueueSys ρ) :
    Later network sys.world.net (queueStep network queue command sys).2.world.net :=
  run_later network (command.process queue) sys.vars sys.world

theorem accepted_map {command : QueueCommand} {sys sys' : QueueSys ρ} {α : Type}
    {f : α → QueueResult} {x : Except Thrown α} (hf : ∀ a p, f a ≠ .accepted p) :
    accepted ⟨command, sys, x.map f, sys'⟩ = none := by
  unfold accepted
  split
  · next p h =>
    cases x with
    | error e => cases h
    | ok a => exact absurd (Except.ok.inj h) (hf a p)
  · rfl

theorem outcomesOf_map {command : QueueCommand} {sys sys' : QueueSys ρ} {α : Type}
    {f : α → QueueResult} (x : Except Thrown α) (hf : ∀ a outcomes, f a ≠ .outcomes outcomes) :
    outcomesOf ⟨command, sys, x.map f, sys'⟩ = [] := by
  unfold outcomesOf
  split
  · next outcomes h =>
    cases x with
    | error e => cases h
    | ok a => exact absurd (Except.ok.inj h) (hf a outcomes)
  · rfl

/-- Memory and store say the same. -/
structure Synced (vars : QueueVars) (store : Store) : Prop where
  payments : ∀ id, store.lookup (.payment id) = vars.payments.get id
  failedSends : (store.lookup .queueMeta).getD 0 = vars.consecutiveFailedSends

theorem synced_fresh {sys : QueueSys ρ} (h : sys.Fresh) : Synced sys.vars sys.world.store where
  payments := fun id => by
    rw [h.1]
    exact h.2.1 id
  failedSends := by
    rw [h.1, h.2.2]
    rfl

/-- Saving a payment puts it in both. -/
theorem Synced.save {vars : QueueVars} {store : Store} (h : Synced vars store)
    (payment : QueuedPayment) :
    Synced { vars with payments := vars.payments.set payment }
      (store.insert (.payment payment.id) payment) where
  payments := fun id => by
    rw [Payments.get_set]
    by_cases hid : id = payment.id
    · subst hid
      rw [if_pos rfl, AList.lookup_insert]
    · rw [if_neg hid, AList.lookup_insert_ne (fun heq => hid (StoreKey.payment.inj heq))]
      exact h.payments id
  failedSends := by
    rw [AList.lookup_insert_ne StoreKey.noConfusion]
    exact h.failedSends

/-- Saving the counter puts it in both. -/
theorem Synced.saveMeta {vars : QueueVars} {store : Store} (h : Synced vars store) (n : Nat) :
    Synced { vars with consecutiveFailedSends := n } (store.insert .queueMeta n) where
  payments := fun id => by
    rw [AList.lookup_insert_ne StoreKey.noConfusion]
    exact h.payments id
  failedSends := by
    rw [AList.lookup_insert]
    rfl

section Parts

variable (network : Network ρ) {queue : QueueConfig} (vars : QueueVars) (w : World ρ)

theorem run_save {n : ρ} (h : network.storage w.net = (none, n)) (payment : QueuedPayment) :
    run (reply network) (Queue.save payment) vars w
      = ⟨.ok (), { vars with payments := vars.payments.set payment },
        ⟨w.store.insert (.payment payment.id) payment, n⟩⟩ := by
  simp only [Queue.save, Queue.setPayment, run_bind, run_read, run_write]
  rw [storeSet, run_request (I := client)]
  simp only [reply, h]

theorem run_save_refused {n : ρ} {e : Thrown} (h : network.storage w.net = (some e, n))
    (payment : QueuedPayment) :
    run (reply network) (Queue.save payment) vars w
      = ⟨.error e, { vars with payments := vars.payments.set payment }, { w with net := n }⟩ := by
  simp only [Queue.save, Queue.setPayment, run_bind, run_read, run_write]
  rw [storeSet, run_request (I := client)]
  simp only [reply, h]

/-- Saving puts a payment in memory, whatever the store says. -/
theorem vars_save (payment : QueuedPayment) :
    (run (reply network) (Queue.save payment) vars w).vars
      = { vars with payments := vars.payments.set payment } := by
  rcases h : network.storage w.net with ⟨_ | e, n⟩
  · rw [run_save network vars w h]
  · rw [run_save_refused network vars w h]

theorem vars_saveMeta : (run (reply network) Queue.saveMeta vars w).vars = vars := by
  simp only [Queue.saveMeta, run_bind, run_read]
  rw [storeSet, run_request (I := client)]

variable (hs : StorageWorks network)

include hs

theorem run_storeSet (k : StoreKey) (v : k.Value) :
    run (reply network) (storeSet k v : QueueM Unit) vars w
      = ⟨.ok (), vars, ⟨w.store.insert k v, (network.storage w.net).2⟩⟩ := by
  rw [storeSet, run_request (I := client), reply_storeSet hs]

theorem run_save_works (payment : QueuedPayment) :
    run (reply network) (Queue.save payment) vars w
      = ⟨.ok (), { vars with payments := vars.payments.set payment },
        ⟨w.store.insert (.payment payment.id) payment, (network.storage w.net).2⟩⟩ :=
  run_save network vars w (storage_eq hs w.net) payment

theorem run_saveMeta : run (reply network) Queue.saveMeta vars w
    = ⟨.ok (), vars, ⟨w.store.insert .queueMeta vars.consecutiveFailedSends,
      (network.storage w.net).2⟩⟩ :=
  (run_bind_ok _ (run_read _ _ _)).trans (run_storeSet network vars w hs _ _)

/-- What became of a submission is saved, and counted. -/
theorem run_record (queued : QueuedPayment) (o : SubmitOutcome) :
    run (reply network) (Queue.record queued o) vars w
      = ⟨.ok (), ⟨vars.payments.set (recorded queued o),
          nextFailedSends vars.consecutiveFailedSends o⟩,
        ⟨w.store.insert (.payment queued.id) (recorded queued o), (network.storage w.net).2⟩⟩ := by
  cases o with
  | settled signature value =>
      simp only [Queue.record, run_bind, run_save_works network _ _ hs,
        Queue.setConsecutiveFailedSends, run_read, run_write]
      rfl
  | failed code feeCharged detail =>
      simp only [Queue.record, run_bind, run_save_works network _ _ hs]
      by_cases hcounts : countsAsFailedSend code = true
      · simp only [if_pos hcounts, Queue.setConsecutiveFailedSends, run_bind, run_read, run_write,
          nextFailedSends]
        rfl
      · simp only [if_neg hcounts, run_pure, nextFailedSends]
        rfl

/-- A payment that has been handed to `submit`. -/
def marked (queued : QueuedPayment) : QueuedPayment := { queued with state := .submitting }

/-- One payment's turn. It is marked, and left marked if its submission is not
    answered; otherwise the outcome is recorded. -/
theorem run_drainOne (feePayerKey : CryptoKeyPair) (queued : QueuedPayment) :
    let store := w.store.insert (.payment queued.id) (marked queued)
    let n := (network.storage w.net).2
    (¬ SubmissionAnswered network queue.kit queued.payment feePayerKey n ∧ ∃ e n',
      run (reply network) (Queue.drainOne queue feePayerKey queued) vars w
        = ⟨.error e, { vars with payments := vars.payments.set (marked queued) }, ⟨store, n'⟩⟩) ∨
    SubmissionAnswered network queue.kit queued.payment feePayerKey n ∧ ∃ o n₁ n',
      run (reply network) (submit queue.kit queued.payment feePayerKey)
          { vars with payments := vars.payments.set (marked queued) } ⟨store, n⟩
        = ⟨.ok o, { vars with payments := vars.payments.set (marked queued) }, ⟨store, n₁⟩⟩ ∧
      run (reply network) (Queue.drainOne queue feePayerKey queued) vars w
        = ⟨.ok o, ⟨(vars.payments.set (marked queued)).set (recorded queued o),
            nextFailedSends vars.consecutiveFailedSends o⟩,
          ⟨(store.insert (.payment queued.id) (recorded queued o)).insert .queueMeta
            (nextFailedSends vars.consecutiveFailedSends o), n'⟩⟩ := by
  intro store n
  have hsave := run_save_works network vars w hs (marked queued)
  rcases submit_cases network { vars with payments := vars.payments.set (marked queued) }
      ⟨store, n⟩ queue.kit queued.payment feePayerKey with
    ⟨hnot, e, n', hrun⟩ | ⟨hans, _, _, o, n', _, hrun, _⟩
  · exact .inl ⟨hnot, e, n', (run_bind_ok _ hsave).trans (run_bind_error _ hrun)⟩
  · have hrecord := run_record network { vars with payments := vars.payments.set (marked queued) }
      ⟨store, n'⟩ hs queued o
    have hmeta := run_saveMeta network ⟨(vars.payments.set (marked queued)).set (recorded queued o),
      nextFailedSends vars.consecutiveFailedSends o⟩
      ⟨store.insert (.payment queued.id) (recorded queued o), (network.storage n').2⟩ hs
    exact .inr ⟨hans, o, n', _, hrun, (run_bind_ok _ hsave).trans ((run_bind_ok _ hrun).trans
      ((run_bind_ok _ hrecord).trans (run_bind_ok _ hmeta)))⟩

end Parts

section Drain

variable {network : Network ρ} {queue : QueueConfig} {key : CryptoKeyPair}

theorem drainPayments_skip {queued : QueuedPayment} (h : queued.state.retried = false)
    (rest : List QueuedPayment) : Queue.drainPayments queue key (queued :: rest)
      = Queue.drainPayments queue key rest := by
  rw [Queue.drainPayments, h]
  rfl

theorem drainPayments_retried {queued : QueuedPayment} (h : queued.state.retried = true)
    (rest : List QueuedPayment) : Queue.drainPayments queue key (queued :: rest) = (do
      let outcome ← Queue.drainOne queue key queued
      let outcomes ← Queue.drainPayments queue key rest
      pure (outcome :: outcomes)) := by
  rw [Queue.drainPayments, h]
  rfl

/-- A drain that takes a turn resolves if the turn and what is left of it do. -/
theorem drainPayments_eq_ok {queued : QueuedPayment} (h : queued.state.retried = true)
    {rest : List QueuedPayment} {vars vars' : QueueVars} {w w' : World ρ}
    {outcomes : List SubmitOutcome} :
    run (reply network) (Queue.drainPayments queue key (queued :: rest)) vars w
        = ⟨.ok outcomes, vars', w'⟩ ↔ ∃ o later vars₁ w₁,
      run (reply network) (Queue.drainOne queue key queued) vars w = ⟨.ok o, vars₁, w₁⟩ ∧
      run (reply network) (Queue.drainPayments queue key rest) vars₁ w₁
        = ⟨.ok later, vars', w'⟩ ∧ outcomes = o :: later := by
  rw [drainPayments_retried h, run_bind_eq_ok]
  constructor
  · rintro ⟨o, vars₁, w₁, hturn, hrest⟩
    rcases (run_bind_eq_ok _).mp hrest with ⟨later, _, _, hlater, hdone⟩
    cases hdone
    exact ⟨o, later, vars₁, w₁, hturn, hlater, rfl⟩
  · rintro ⟨o, later, vars₁, w₁, hturn, hlater, rfl⟩
    exact ⟨o, vars₁, w₁, hturn, run_bind_ok _ hlater⟩

/-- A drain stops at the first payment whose turn throws. -/
theorem drainPayments_stops {earlier : List QueuedPayment} (later : List QueuedPayment)
    {queued : QueuedPayment} {vars vars₁ vars₂ : QueueVars} {w w₁ w₂ : World ρ}
    {outcomes : List SubmitOutcome} {e : Thrown} (hretried : queued.state.retried = true)
    (hearlier : run (reply network) (Queue.drainPayments queue key earlier) vars w
      = ⟨.ok outcomes, vars₁, w₁⟩)
    (hone : run (reply network) (Queue.drainOne queue key queued) vars₁ w₁
      = ⟨.error e, vars₂, w₂⟩) :
    run (reply network) (Queue.drainPayments queue key (earlier ++ queued :: later)) vars w
      = ⟨.error e, vars₂, w₂⟩ := by
  induction earlier generalizing vars w outcomes with
  | nil =>
      cases hearlier
      rw [List.nil_append, drainPayments_retried hretried]
      exact run_bind_error _ hone
  | cons first earlier ih =>
      rw [List.cons_append]
      rcases hfirst : first.state.retried with _ | _
      · -- Passed over: the first decides nothing.
        rw [drainPayments_skip hfirst] at hearlier ⊢
        exact ih hearlier
      · rcases (drainPayments_eq_ok hfirst).mp hearlier with ⟨o, later', vars', w', hturn, hrest, _⟩
        rw [drainPayments_retried hfirst]
        exact (run_bind_ok _ hturn).trans (run_bind_error _ (ih hrest))

/-- An invariant that every finished turn keeps holds when a drain ends, and
    before the turn it stops at if one throws. -/
theorem drainPayments_rule {J : QueueVars → World ρ → Prop} {payments : List QueuedPayment}
    (hone : ∀ queued ∈ payments, queued.state.retried = true → ∀ vars w o vars' w', J vars w →
      run (reply network) (Queue.drainOne queue key queued) vars w = ⟨.ok o, vars', w'⟩ →
      J vars' w') {vars : QueueVars} {w : World ρ} (h : J vars w) :
    (∃ outcomes vars' w', J vars' w' ∧
      run (reply network) (Queue.drainPayments queue key payments) vars w
        = ⟨.ok outcomes, vars', w'⟩) ∨
    ∃ earlier queued later outcomes vars' w' e vars'' w'',
      payments = earlier ++ queued :: later ∧ queued.state.retried = true ∧ J vars' w' ∧
      run (reply network) (Queue.drainPayments queue key earlier) vars w
        = ⟨.ok outcomes, vars', w'⟩ ∧
      run (reply network) (Queue.drainOne queue key queued) vars' w' = ⟨.error e, vars'', w''⟩ ∧
      run (reply network) (Queue.drainPayments queue key payments) vars w
        = ⟨.error e, vars'', w''⟩ := by
  induction payments generalizing vars w with
  | nil => exact .inl ⟨[], vars, w, h, rfl⟩
  | cons first rest ih =>
      have hrest := fun q hq => hone q (List.mem_cons_of_mem _ hq)
      rcases hfirst : first.state.retried with _ | _
      · rcases ih hrest h with ⟨outcomes, vars', w', hJ, hrun⟩ | ⟨earlier, queued, later, outcomes,
          vars', w', e, vars'', w'', rfl, hretried, hJ, hearlier, hstop, hrun⟩
        · refine .inl ⟨outcomes, vars', w', hJ, ?_⟩
          rw [drainPayments_skip hfirst, hrun]
        · refine .inr ⟨first :: earlier, queued, later, outcomes, vars', w', e, vars'', w'', rfl,
            hretried, hJ, ?_, hstop, ?_⟩
          · rw [drainPayments_skip hfirst, hearlier]
          · rw [drainPayments_skip hfirst, hrun]
      · -- A turn that throws ends the drain here; one that returns hands on to the rest.
        rcases hturn : run (reply network) (Queue.drainOne queue key first) vars w with
          ⟨e | o, vars₁, w₁⟩
        · refine .inr ⟨[], first, rest, [], vars, w, e, vars₁, w₁, rfl, hfirst, h, rfl, hturn, ?_⟩
          rw [drainPayments_retried hfirst]
          exact run_bind_error _ hturn
        · have hJ₁ := hone first List.mem_cons_self hfirst vars w o vars₁ w₁ h hturn
          rcases ih hrest hJ₁ with ⟨outcomes, vars', w', hJ, hrun⟩ | ⟨earlier, queued, later,
            outcomes, vars', w', e, vars'', w'', rfl, hretried, hJ, hearlier, hstop, hrun⟩
          · exact .inl ⟨o :: outcomes, vars', w', hJ,
              (drainPayments_eq_ok hfirst).mpr ⟨o, outcomes, vars₁, w₁, hturn, hrun, rfl⟩⟩
          · refine .inr ⟨first :: earlier, queued, later, o :: outcomes, vars', w', e, vars'', w'',
              rfl, hretried, hJ,
              (drainPayments_eq_ok hfirst).mpr ⟨o, outcomes, vars₁, w₁, hturn, hearlier, rfl⟩,
              hstop, ?_⟩
            rw [drainPayments_retried hfirst]
            exact (run_bind_ok _ hturn).trans (run_bind_error _ hrun)

end Drain

/-- A payment that has been voided. -/
def voided (payment : QueuedPayment) : QueuedPayment :=
  { payment with state := .voided, lastError := some .limitSendWindowExpired }

section Folds

/-- Putting payments of different keys in one after another: under a key is the
    one that has it, or what was there. -/
theorem lookup_foldl {S : Type} (get : S → PaymentId → Option QueuedPayment)
    (put : S → QueuedPayment → S)
    (hput : ∀ s payment id,
      get (put s payment) id = if id = payment.id then some payment else get s id)
    {payments : List QueuedPayment} (hnodup : (payments.map QueuedPayment.id).Nodup) (s : S)
    (id : PaymentId) :
    get (payments.foldl put s) id
      = (Payments.get ⟨payments, hnodup⟩ id).or (get s id) := by
  induction payments generalizing s with
  | nil => rfl
  | cons payment rest ih =>
      have hrest := hnodup
      rw [List.map_cons, List.nodup_cons] at hrest
      rw [List.foldl_cons, ih hrest.2, hput]
      -- The first is found if nothing later has its id, and ids are distinct.
      by_cases hid : id = payment.id
      · have hnone : Payments.get ⟨rest, hrest.2⟩ id = none := by
          refine List.find?_eq_none.mpr fun p hp hp' => hrest.1 ?_
          rw [← hid, ← of_decide_eq_true hp']
          exact List.mem_map_of_mem hp
        have hfirst : Payments.get ⟨payment :: rest, hnodup⟩ id = some payment := by
          rw [hid]
          exact Payments.mem_iff_get.mp List.mem_cons_self
        rw [hnone, hfirst, if_pos hid]
        rfl
      · have hlater : Payments.get ⟨payment :: rest, hnodup⟩ id = Payments.get ⟨rest, hrest.2⟩ id :=
          List.find?_cons_of_neg (by simpa only [decide_eq_true_eq] using Ne.symm hid)
        rw [if_neg hid, hlater]

theorem lookup_insert_payment (store : Store) (payment : QueuedPayment) (id : PaymentId) :
    (store.insert (.payment payment.id) payment).lookup (.payment id)
      = if id = payment.id then some payment else store.lookup (.payment id) := by
  by_cases hid : id = payment.id
  · subst hid
    rw [if_pos rfl, AList.lookup_insert]
  · rw [if_neg hid, AList.lookup_insert_ne (fun heq => hid (StoreKey.payment.inj heq))]

theorem lookup_meta_foldl (payments : List QueuedPayment) (store : Store) :
    (payments.foldl (fun store p => store.insert (.payment p.id) p) store).lookup .queueMeta
      = store.lookup .queueMeta := by
  induction payments generalizing store with
  | nil => rfl
  | cons payment rest ih =>
      rw [List.foldl_cons, ih, AList.lookup_insert_ne StoreKey.noConfusion]

end Folds

/-- What `expire` voids, voided. -/
def expired (queue : QueueConfig) (now : Int) (vars : QueueVars) : List QueuedPayment :=
  ((Queue.ordered queue vars).filter (Queue.outlived queue now)).map voided

section Expired

variable (queue : QueueConfig) (now : Int) (vars : QueueVars)

theorem nodup_expired : ((expired queue now vars).map QueuedPayment.id).Nodup := by
  rw [expired, List.map_map]
  exact (nodup_ordered queue vars).sublist (List.filter_sublist.map _)

theorem mem_expired {p : QueuedPayment} (hp : p ∈ expired queue now vars) : ∃ q,
    vars.payments.get p.id = some q ∧ Queue.outlived queue now q = true ∧ p = voided q := by
  rcases List.mem_map.mp hp with ⟨q, hq, rfl⟩
  rcases List.mem_filter.mp hq with ⟨hq, hout⟩
  exact ⟨q, Payments.mem_iff_get.mp (mem_ordered.mp hq), hout, rfl⟩

theorem get_expired (id : PaymentId) : Payments.get ⟨expired queue now vars, nodup_expired ..⟩ id
    = ((vars.payments.get id).filter (Queue.outlived queue now)).map voided := by
  rcases hget : vars.payments.get id with _ | q
  · refine List.find?_eq_none.mpr fun p hp hid => ?_
    rcases mem_expired queue now vars hp with ⟨q, hq, _, _⟩
    rw [of_decide_eq_true hid, hget] at hq
    cases hq
  · have hqid := Payments.id_of_get hget
    by_cases hout : Queue.outlived queue now q = true
    · -- An outlived payment is among the expired, under its own id.
      have hvoided : voided q ∈ expired queue now vars := by
        refine List.mem_map_of_mem (List.mem_filter.mpr ⟨mem_ordered.mpr ?_, hout⟩)
        exact Payments.mem_iff_get.mpr (hqid ▸ hget)
      have := (@Payments.mem_iff_get ⟨_, nodup_expired queue now vars⟩ (voided q)).mp hvoided
      rw [Option.filter_some_pos hout, ← hqid]
      exact this
    · rw [Option.filter_some_neg (eq_false_of_ne_true hout)]
      refine List.find?_eq_none.mpr fun p hp hid => ?_
      rcases mem_expired queue now vars hp with ⟨q', hq', hout', _⟩
      rw [of_decide_eq_true hid, hget] at hq'
      cases hq'
      exact hout hout'

/-- What memory says once they are put in. -/
theorem get_foldl_expired (id : PaymentId) :
    ((expired queue now vars).foldl Payments.set vars.payments).get id
      = (vars.payments.get id).map fun payment =>
        if Queue.outlived queue now payment then voided payment else payment := by
  have hmemory := lookup_foldl Payments.get Payments.set Payments.get_set
    (nodup_expired queue now vars) vars.payments id
  refine hmemory.trans ?_
  rw [get_expired]
  rcases vars.payments.get id with _ | q
  · rfl
  · by_cases hout : Queue.outlived queue now q = true
    · simp only [Option.filter_some_pos hout, Option.map_some, Option.some_or, if_pos hout]
    · simp only [Option.filter_some_neg (eq_false_of_ne_true hout), Option.map_none,
        Option.none_or, Option.map_some, if_neg hout]

end Expired

section Operations

variable {network : Network ρ}

theorem run_forM_setPayment (payments : List QueuedPayment) (vars : QueueVars) (w : World ρ) :
    run (reply network) (payments.forM Queue.setPayment) vars w
      = ⟨.ok (), { vars with payments := payments.foldl Payments.set vars.payments }, w⟩ := by
  induction payments generalizing vars with
  | nil => rfl
  | cons payment rest ih => exact ih _

/-- The writes `expire` starts: nothing they come to is seen by it. -/
theorem run_forM_storeSet (payments : List QueuedPayment) (vars : QueueVars) (w : World ρ) :
    ∃ w', run (reply network) (payments.forM fun payment =>
        MonadExcept.tryCatch (storeSet (.payment payment.id) payment) fun _ => pure ()) vars w
      = ⟨.ok (), vars, w'⟩ ∧
      (StorageWorks network →
        w'.store = payments.foldl (fun store p => store.insert (.payment p.id) p) w.store) := by
  induction payments generalizing w with
  | nil => exact ⟨w, rfl, fun _ => rfl⟩
  | cons payment rest ih =>
      -- A write that fails is caught, so the loop goes on in either case.
      have hfirst : ∃ w₁, run (reply network) (Async.Process.tryCatch
          (storeSet (.payment payment.id) payment) fun _ => pure ()) vars w = ⟨.ok (), vars, w₁⟩ ∧
          (StorageWorks network → w₁.store = w.store.insert (.payment payment.id) payment) := by
        rw [run_tryCatch, storeSet, run_request (I := client)]
        rcases hstorage : network.storage w.net with ⟨_ | e, n⟩
        · simp only [reply, hstorage]
          exact ⟨_, rfl, fun _ => rfl⟩
        · simp only [reply, hstorage]
          refine ⟨_, rfl, fun hs => ?_⟩
          have hworks := hs w.net
          rw [hstorage] at hworks
          cases hworks
      rcases hfirst with ⟨w₁, hfirst, hstore₁⟩
      rcases ih w₁ with ⟨w', hrest, hstore⟩
      refine ⟨w', (run_bind_ok _ hfirst).trans hrest, fun hs => ?_⟩
      rw [hstore hs, hstore₁ hs]
      rfl

variable (queue : QueueConfig)

/-- Expiring voids in memory what has outlived its send window, whatever the
    store says. -/
theorem run_expire (now : Int) (vars : QueueVars) (w : World ρ) : ∃ w',
    run (reply network) (Queue.expire queue now) vars w = ⟨.ok (expired queue now vars),
      { vars with payments := (expired queue now vars).foldl Payments.set vars.payments }, w'⟩ ∧
    (StorageWorks network → w'.store = (expired queue now vars).foldl
      (fun store p => store.insert (.payment p.id) p) w.store) := by
  rcases @run_forM_storeSet _ network (expired queue now vars)
    { vars with payments := (expired queue now vars).foldl Payments.set vars.payments } w with
    ⟨w', hstores, hstore⟩
  exact ⟨w', (run_bind_ok _ (run_read _ _ _)).trans
    ((run_bind_ok _ (run_forM_setPayment (expired queue now vars) vars w)).trans
      (run_bind_ok _ hstores)), hstore⟩

variable (hs : StorageWorks network)

include hs

/-- Expiring voids what has outlived its send window, in memory and in the
    store. -/
theorem expire_spec (now : Int) {vars : QueueVars} {w : World ρ}
    (hsynced : Synced vars w.store) : ∃ payments vars' w',
    run (reply network) (Queue.expire queue now) vars w = ⟨.ok payments, vars', w'⟩ ∧
    Synced vars' w'.store ∧ vars'.consecutiveFailedSends = vars.consecutiveFailedSends ∧
    ∀ id, vars'.payments.get id = (vars.payments.get id).map fun payment =>
      if Queue.outlived queue now payment then voided payment else payment := by
  rcases run_expire queue now vars w with ⟨w', hrun, hstore⟩
  refine ⟨_, _, w', hrun, ⟨fun id => ?_, ?_⟩, rfl, get_foldl_expired queue now vars⟩
  · have hstored := lookup_foldl (fun (store : Store) id => store.lookup (.payment id))
      (fun store p => store.insert (.payment p.id) p) lookup_insert_payment
      (nodup_expired queue now vars) w.store id
    have hmemory := lookup_foldl Payments.get Payments.set Payments.get_set
      (nodup_expired queue now vars) vars.payments id
    rw [hsynced.payments] at hstored
    rw [hstore hs]
    exact hstored.trans hmemory.symm
  · rw [hstore hs, lookup_meta_foldl]
    exact hsynced.failedSends

theorem run_storeGet (k : StoreKey) (vars : QueueVars) (w : World ρ) :
    run (reply network) (storeGet k : QueueM _) vars w
      = ⟨.ok (w.store.lookup k), vars, { w with net := (network.storage w.net).2 }⟩ := by
  rw [storeGet, run_request (I := client), reply_storeGet hs]

theorem run_storeKeys (vars : QueueVars) (w : World ρ) :
    run (reply network) (storeKeys .payment : QueueM _) vars w
      = ⟨.ok (w.store.keysWith .payment), vars, { w with net := (network.storage w.net).2 }⟩ := by
  rw [storeKeys, run_request (I := client), reply_storeKeys hs]

theorem run_loadPayments (ids : List PaymentId) (vars : QueueVars) (w : World ρ) :
    ∃ n, run (reply network) (Queue.loadPayments ids) vars w
      = ⟨.ok (), { vars with payments :=
          (ids.filterMap fun id => w.store.lookup (.payment id)).foldl Payments.set vars.payments },
        { w with net := n }⟩ := by
  induction ids generalizing vars w with
  | nil => exact ⟨w.net, rfl⟩
  | cons id ids ih =>
      have hget := run_storeGet hs (.payment id) vars w
      rcases hstored : w.store.lookup (.payment id) with _ | payment
      · rw [hstored] at hget
        rcases ih vars { w with net := (network.storage w.net).2 } with ⟨n, hrest⟩
        refine ⟨n, (run_bind_ok _ hget).trans (hrest.trans ?_)⟩
        rw [List.filterMap_cons, hstored]
      · rw [hstored] at hget
        rcases ih { vars with payments := vars.payments.set payment }
          { w with net := (network.storage w.net).2 } with ⟨n, hrest⟩
        refine ⟨n, (run_bind_ok _ hget).trans (hrest.trans ?_)⟩
        rw [List.filterMap_cons, hstored]
        rfl

omit hs in
theorem mem_keysWith {store : Store} {id : PaymentId} :
    id ∈ store.keysWith .payment ↔ store.lookup (.payment id) ≠ none := by
  have hmem : StoreKey.payment id ∈ store.keys ↔ store.lookup (.payment id) ≠ none := by
    rw [← AList.mem_keys, ← AList.lookup_isSome, Option.isSome_iff_ne_none]
  rw [← hmem, Store.keysWith, List.mem_filterMap]
  constructor
  · rintro ⟨k, hk, heq⟩
    cases k with
    | payment id' => rwa [← Option.some.inj heq]
    | _ => cases heq
  · exact fun hk => ⟨_, hk, rfl⟩

/-- Loading puts what the store has in memory. -/
theorem load_spec {vars : QueueVars} {w : World ρ}
    (hkeyed : ∀ id payment, w.store.lookup (.payment id) = some payment → payment.id = id) :
    ∃ payments vars' n,
      run (reply network) (Queue.load queue) vars w = ⟨.ok payments, vars', { w with net := n }⟩ ∧
      vars'.consecutiveFailedSends = (w.store.lookup .queueMeta).getD 0 ∧
      ∀ id, vars'.payments.get id
        = (w.store.lookup (.payment id)).or (vars.payments.get id) := by
  set stored := (w.store.keysWith .payment).filterMap fun id => w.store.lookup (.payment id)
    with hstored
  -- What is stored under the keys that start with the prefix are the stored payments.
  have hmem : ∀ p, p ∈ stored ↔ w.store.lookup (.payment p.id) = some p := by
    intro p
    rw [hstored, List.mem_filterMap]
    constructor
    · rintro ⟨id, _, hp⟩
      rwa [hkeyed id p hp]
    · exact fun hp => ⟨p.id, mem_keysWith.mpr (by rw [hp]; exact Option.some_ne_none p), hp⟩
  have hnodup : (stored.map QueuedPayment.id).Nodup := by
    refine List.Nodup.map_on (fun p hp q hq heq => ?_) ?_
    · rw [hmem] at hp hq
      rw [heq, hq] at hp
      exact (Option.some.inj hp).symm
    · refine List.Nodup.filterMap (fun id id' p hp hp' => ?_) ?_
      · exact (hkeyed id p hp).symm.trans (hkeyed id' p hp')
      · refine List.Nodup.filterMap (fun k k' id hk hk' => ?_) w.store.nodupKeys
        cases k with
        | payment => cases k' with
          | payment => rw [Option.some.inj hk, Option.some.inj hk']
          | _ => cases hk'
        | _ => cases hk
  -- Keys are ids, so looking up by id finds the same in both.
  have hfind : ∀ id, Payments.get ⟨stored, hnodup⟩ id = w.store.lookup (.payment id) := by
    intro id
    rcases hlookup : w.store.lookup (.payment id) with _ | p
    · rw [hlookup]
      refine List.find?_eq_none.mpr fun p hp hid => ?_
      rw [hmem, of_decide_eq_true hid, hlookup] at hp
      cases hp
    · have hid := hkeyed id p hlookup
      rw [← hid] at hlookup ⊢
      rw [hlookup]
      exact (@Payments.mem_iff_get ⟨stored, hnodup⟩ p).mp ((hmem p).mpr hlookup)
  rcases run_loadPayments hs (w.store.keysWith .payment) vars
    { w with net := (network.storage w.net).2 } with ⟨n, hload⟩
  have hmeta := run_storeGet hs .queueMeta
    { vars with payments := stored.foldl Payments.set vars.payments } { w with net := n }
  refine ⟨_, ⟨stored.foldl Payments.set vars.payments, (w.store.lookup .queueMeta).getD 0⟩, _,
    (run_bind_ok _ (run_storeKeys hs vars w)).trans ((run_bind_ok _ hload).trans
      (run_bind_ok _ hmeta)), rfl, fun id => ?_⟩
  rw [← hfind]
  exact lookup_foldl Payments.get Payments.set Payments.get_set hnodup vars.payments id

omit hs in
theorem run_tick (vars : QueueVars) (w : World ρ) : run (reply network) (tick : QueueM Unit) vars w
    = ⟨.ok (), vars, { w with net := network.tick w.net }⟩ :=
  run_request (I := client) (reply network) .tick vars w

omit hs in
theorem run_dateNow (vars : QueueVars) (w : World ρ) :
    run (reply network) (dateNow : QueueM Int) vars w = ⟨.ok (network.clock w.net), vars, w⟩ :=
  run_request (I := client) (reply network) .now vars w

/-- What a payment is accepted as. -/
def acceptedAs (kit : Kit) (payment : VerifiedPayment) (tier : PaymentTier)
    (amount acceptedAt : Int) : QueuedPayment :=
  ⟨paymentId kit payment, payment, tier, acceptedAt, amount, 0, none, .queued⟩

omit hs in
/-- A payment that breaks no rule is stamped with the time and saved. -/
theorem run_accept_save (payment : VerifiedPayment) (tier : PaymentTier) (amount : Int)
    (precheck : Option NonceVerdict) (vars : QueueVars) (w : World ρ) :
    run (reply network) (Queue.accept queue payment tier amount precheck) vars w
      = match Queue.acceptChecks queue vars payment tier amount precheck with
        | .error e => ⟨.error e, vars, { w with net := network.tick w.net }⟩
        | .ok () =>
          let p := acceptedAs queue.kit payment tier amount (network.clock (network.tick w.net))
          run (reply network) (Queue.save p >>= fun _ => pure p) vars
            { w with net := network.tick w.net } := by
  refine (run_bind_ok _ (run_tick vars w)).trans ((run_bind_ok _ (run_read _ _ _)).trans ?_)
  rcases Queue.acceptChecks queue vars payment tier amount precheck with e | _
  · exact run_bind_error _ rfl
  · exact (run_bind_ok _ rfl).trans (run_bind_ok _ (run_dateNow vars _))

/-- An accepted payment is queued in memory and in the store. One that breaks a
    rule is refused, and leaves both as they were. -/
theorem run_accept (payment : VerifiedPayment) (tier : PaymentTier) (amount : Int)
    (precheck : Option NonceVerdict) (vars : QueueVars) (w : World ρ) :
    run (reply network) (Queue.accept queue payment tier amount precheck) vars w
      = match Queue.acceptChecks queue vars payment tier amount precheck with
        | .error e => ⟨.error e, vars, { w with net := network.tick w.net }⟩
        | .ok () =>
          let p := acceptedAs queue.kit payment tier amount (network.clock (network.tick w.net))
          ⟨.ok p, { vars with payments := vars.payments.set p },
            ⟨w.store.insert (.payment p.id) p, (network.storage (network.tick w.net)).2⟩⟩ := by
  rw [run_accept_save]
  rcases Queue.acceptChecks queue vars payment tier amount precheck with e | _
  · rfl
  · exact run_bind_ok _ (run_save_works network vars _ hs _)

omit hs in
/-- A payment is admitted under a key that is free. -/
theorem get_of_acceptChecks {payment : VerifiedPayment} {tier : PaymentTier} {amount : Int}
    {precheck : Option NonceVerdict} {vars : QueueVars}
    (h : Queue.acceptChecks queue vars payment tier amount precheck = .ok ()) :
    vars.payments.get (paymentId queue.kit payment) = none := by
  rcases hget : vars.payments.get (paymentId queue.kit payment) with _ | known
  · rfl
  · unfold Queue.acceptChecks at h
    simp only [hget] at h
    cases h

end Operations

end Vadum
