import Vadum.Async.Alike
import Vadum.Theory.InStep
import Vadum.Theory.OwnOutcome
import Vadum.Theory.QueueRequests
import Vadum.Theory.Stranded

/-!
# Reopening

A pool or a queue that is created again over the same store and loaded answers
every further operation as the one it replaces would have.

The two objects need not have the same variables. A queue keeps its payments in
the order they were first put in, and loading puts them in as the store lists
them. What a queue does depends only on the payments under each key, and on the
order of its list, which their times and keys decide. A pool reads its ledger
when it is first needed, so an object that has not read it yet stands for one
that has.

## Main definitions

* `SamePayments`: The same payments under the same keys, and the same counter.
* `WritesComplete`, `Resolved`: What a queue's run has to come to.
* `failedSends`: The failed sends since the last settlement.
* `StorageApart`: A network that storage has no part in.
* `SameLedger`: The same ledger, or one that has not been read yet.
* `PoolReopens`, `QueueReopens`: What reopening must not show.

## Theorems

* `alike_queue`: Queues with the same payments are alike.
* `synced_step`: Memory and store say the same as long as writes complete.
* `failedSends_step`: Every operation counts the outcomes it returns.
* `alike_pool`: A pool that has not read its ledger is alike to one that has.
* `reopened_unobservable`: Reopening cannot be seen.
* `status_unread`: Except in the status of a pool that has not been read.
-/

namespace Vadum

open Async (Event eventAt history final)
open Async.Process

variable {ρ : Type}

section Order

variable {queue : QueueConfig}

/-- Payments under different keys stand in one order only. -/
theorem sortsBefore_antisymm
    (hantisymm : ∀ a b, queue.localeCompare a b → queue.localeCompare b a → a = b)
    {a b : QueuedPayment} (hab : SortsBefore queue a b) (hba : SortsBefore queue b a) :
    a.id = b.id := by
  rcases hab with hab | ⟨hab, hab'⟩
  · rcases hba with hba | ⟨hba, _⟩
    · exact absurd hba (lt_asymm hab)
    · exact absurd hab (hba ▸ lt_irrefl _)
  · rcases hba with hba | ⟨_, hba'⟩
    · exact absurd hba (hab ▸ lt_irrefl _)
    · exact hantisymm _ _ hab' hba'

end Order

/-- The same payments under the same keys, and the same counter. -/
structure SamePayments (vars vars' : QueueVars) : Prop where
  get : ∀ id, vars.payments.get id = vars'.payments.get id
  failedSends : vars.consecutiveFailedSends = vars'.consecutiveFailedSends

namespace SamePayments

variable {vars vars' : QueueVars} (h : SamePayments vars vars')

include h

theorem set (p : QueuedPayment) :
    SamePayments { vars with payments := vars.payments.set p }
      { vars' with payments := vars'.payments.set p } where
  get := fun id => by
    change (vars.payments.set p).get id = (vars'.payments.set p).get id
    rw [Payments.get_set, Payments.get_set, h.get]
  failedSends := h.failedSends

theorem setFailedSends (n : Nat) :
    SamePayments { vars with consecutiveFailedSends := n }
      { vars' with consecutiveFailedSends := n } where
  get := h.get
  failedSends := rfl

/-- They come in the same order. -/
theorem ordered_eq {queue : QueueConfig}
    (htotal : ∀ a b, queue.localeCompare a b ∨ queue.localeCompare b a)
    (htrans : ∀ a b c, queue.localeCompare a b → queue.localeCompare b c →
      queue.localeCompare a c)
    (hantisymm : ∀ a b, queue.localeCompare a b → queue.localeCompare b a → a = b) :
    Queue.ordered queue vars = Queue.ordered queue vars' := by
  have := sortsBefore_total htotal
  have := sortsBefore_trans htrans
  have hmem : ∀ p, p ∈ vars.payments.toList ↔ p ∈ vars'.payments.toList := fun p => by
    rw [Payments.mem_iff_get, Payments.mem_iff_get, h.get]
  have hperm : vars.payments.toList.Perm vars'.payments.toList :=
    (List.perm_ext_iff_of_nodup vars.payments.nodup.of_map vars'.payments.nodup.of_map).mpr hmem
  refine List.Perm.eq_of_pairwise (fun a b ha hb (hab : SortsBefore queue a b) hba => ?_)
    (List.pairwise_insertionSort _ _) (List.pairwise_insertionSort _ _)
    ((List.perm_insertionSort _ _).trans (hperm.trans (List.perm_insertionSort _ _).symm))
  have hid := sortsBefore_antisymm hantisymm hab hba
  have ha' := Payments.mem_iff_get.mp (mem_ordered.mp ha)
  have hb' := Payments.mem_iff_get.mp (mem_ordered.mp hb)
  rw [h.get, hid, hb'] at ha'
  exact (Option.some.inj ha').symm

end SamePayments

/-- What can be seen of a queue between two operations. -/
def QueueVars.view (queue : QueueConfig) (vars : QueueVars) : List QueuedPayment × Int × Nat :=
  (Queue.ordered queue vars, Queue.exposure queue vars, vars.consecutiveFailedSends)

section Queue

variable {queue : QueueConfig} {network : Network ρ}
  (hordered : ∀ {vars vars'}, SamePayments vars vars' →
    Queue.ordered queue vars = Queue.ordered queue vars')

/-- The relation the queue's code is alike for. -/
abbrev SameVars (_ : World ρ) : QueueVars → QueueVars → Prop := SamePayments

theorem alike_asked {r : Req} : Alike (reply network) SameVars
    (request (I := client) r : QueueM r.Ans) (request (I := client) r) :=
  alike_request fun _ _ _ h => h

theorem alike_setPayment (p : QueuedPayment) :
    Alike (reply network) SameVars (Queue.setPayment p) (Queue.setPayment p) :=
  fun _ _ w h => ⟨.ok (), _, _, w, rfl, rfl, h.set p⟩

theorem alike_setFailedSends (n : Nat) : Alike (reply network) SameVars
    (Queue.setConsecutiveFailedSends n) (Queue.setConsecutiveFailedSends n) :=
  fun _ _ w h => ⟨.ok (), _, _, w, rfl, rfl, h.setFailedSends n⟩

theorem alike_save (p : QueuedPayment) :
    Alike (reply network) SameVars (Queue.save p) (Queue.save p) :=
  alike_bind (alike_setPayment p) fun _ => alike_asked

theorem alike_saveMeta : Alike (reply network) SameVars Queue.saveMeta Queue.saveMeta :=
  alike_read fun _ s t h => by
    rw [h.failedSends]
    exact alike_asked

theorem alike_record (queued : QueuedPayment) (o : SubmitOutcome) :
    Alike (reply network) SameVars (Queue.record queued o) (Queue.record queued o) := by
  cases o with
  | settled signature value => exact alike_bind (alike_save _) fun _ => alike_setFailedSends 0
  | failed code feeCharged detail =>
      refine alike_bind (alike_save _) fun _ => ?_
      split
      · exact alike_read fun _ s t h => by
          rw [h.failedSends]
          exact alike_setFailedSends _
      · exact alike_pure ()

theorem alike_drainOne (key : CryptoKeyPair) (queued : QueuedPayment) :
    Alike (reply network) SameVars (Queue.drainOne queue key queued)
      (Queue.drainOne queue key queued) :=
  alike_bind (alike_save _) fun _ =>
    alike_bind (alike_stateless (fun _ _ _ _ _ h => h)
      (stateless_submit (R := fun _ => True) (fun _ _ => trivial) queue.kit queued.payment key))
      fun o => alike_bind (alike_record queued o) fun _ => alike_bind alike_saveMeta fun _ =>
        alike_pure o

theorem alike_drainPayments (key : CryptoKeyPair) (payments : List QueuedPayment) :
    Alike (reply network) SameVars (Queue.drainPayments queue key payments)
      (Queue.drainPayments queue key payments) := by
  induction payments with
  | nil => exact alike_pure []
  | cons queued rest ih =>
      rw [Queue.drainPayments]
      split
      · exact alike_bind (alike_drainOne key queued) fun _ => alike_bind ih fun _ => alike_pure _
      · exact ih

theorem alike_loadPayments (ids : List PaymentId) : Alike (reply network) SameVars
    (Queue.loadPayments ids) (Queue.loadPayments ids) := by
  induction ids with
  | nil => exact alike_pure ()
  | cons id ids ih =>
      refine alike_bind alike_asked fun stored => ?_
      cases stored with
      | none => exact ih
      | some payment => exact alike_bind (alike_setPayment payment) fun _ => ih

include hordered

theorem alike_list : Alike (reply network) SameVars (Queue.list queue) (Queue.list queue) :=
  alike_read fun _ s t h => by
    rw [hordered h]
    exact alike_pure _

theorem alike_load : Alike (reply network) SameVars (Queue.load queue) (Queue.load queue) :=
  alike_bind alike_asked fun ids => alike_bind (alike_loadPayments ids) fun _ =>
    alike_bind alike_asked fun _ => alike_bind (alike_setFailedSends _) fun _ =>
      alike_list hordered

theorem alike_drain (key : CryptoKeyPair) : Alike (reply network) SameVars
    (Queue.drain queue key) (Queue.drain queue key) :=
  alike_read fun _ s t h => by
    rw [hordered h]
    exact alike_drainPayments key _

theorem alike_accept (payment : VerifiedPayment) (tier : PaymentTier) (amount : Int)
    (precheck : Option NonceVerdict) : Alike (reply network) SameVars
      (Queue.accept queue payment tier amount precheck)
      (Queue.accept queue payment tier amount precheck) :=
  alike_bind alike_asked fun _ => alike_read fun _ s t h => by
    have hchecks : Queue.acceptChecks queue s payment tier amount precheck
        = Queue.acceptChecks queue t payment tier amount precheck := by
      unfold Queue.acceptChecks Queue.exposure
      dsimp only
      rw [h.get (paymentId queue.kit payment), h.failedSends, hordered h]
    rw [hchecks]
    exact alike_bind (alike_ofResult _) fun _ => alike_bind alike_asked fun _ =>
      alike_bind (alike_save _) fun _ => alike_pure _

theorem alike_expire (now : Int) : Alike (reply network) SameVars
    (Queue.expire queue now) (Queue.expire queue now) :=
  alike_read fun _ s t h => by
    rw [hordered h]
    exact alike_bind (alike_forM fun p _ => alike_setPayment p) fun _ =>
      alike_bind (alike_forM fun p _ => alike_tryCatch alike_asked fun _ => alike_pure ())
        fun _ => alike_pure _

theorem view_same {vars vars' : QueueVars} (h : SamePayments vars vars') :
    vars.view queue = vars'.view queue := by
  unfold QueueVars.view Queue.exposure
  rw [hordered h, h.failedSends]

/-- Queues with the same payments are alike. -/
theorem alike_queue (command : QueueCommand) : Alike (reply network) SameVars
    (command.process queue) (command.process queue) := by
  cases command with
  | accept payment tier amount precheck =>
      exact alike_map _ (alike_accept hordered payment tier amount precheck)
  | drain key => exact alike_map _ (alike_drain hordered key)
  | expire now => exact alike_map _ (alike_expire hordered now)
  | load => exact alike_map _ (alike_load hordered)
  | reopen =>
      exact alike_bind (alike_write fun _ _ _ _ => ⟨fun _ => rfl, rfl⟩) fun _ =>
        alike_map _ (alike_load hordered)

/-- So they look the same, and give the same results, whatever follows. -/
theorem queue_results {vars vars' : QueueVars} (h : SamePayments vars vars') (w : World ρ)
    (commands : List QueueCommand) :
    (queueHistory network queue ⟨vars, w⟩ commands).map
        (fun e => (e.result, e.after.vars.view queue))
      = (queueHistory network queue ⟨vars', w⟩ commands).map
          (fun e => (e.result, e.after.vars.view queue)) := by
  have hstep : ∀ command (sys sys' : QueueSys ρ),
      SamePayments sys.vars sys'.vars ∧ sys.world = sys'.world →
      (queueStep network queue command sys).1 = (queueStep network queue command sys').1 ∧
        SamePayments (queueStep network queue command sys).2.vars
          (queueStep network queue command sys').2.vars ∧
        (queueStep network queue command sys).2.world
          = (queueStep network queue command sys').2.world := by
    rintro command ⟨s, w⟩ ⟨t, _⟩ ⟨hsame, rfl⟩
    have halike : Alike (reply network) SameVars _ _ := alike_queue hordered command
    rcases halike s t w hsame with ⟨x, s', t', w', hrun, hrun', hafter⟩
    simp only [queueStep, hrun, hrun']
    exact ⟨trivial, hafter, trivial⟩
  exact @Async.history_alike _ _ _ _ _ _ _ (fun sys sys' => SamePayments sys.vars sys'.vars ∧
    sys.world = sys'.world) _ _ (fun _ _ hsame => view_same hordered hsame.1) hstep _ _ ⟨h, rfl⟩
    commands

end Queue

/-- No store write of an event fails. -/
def WritesComplete (network : Network ρ) (queue : QueueConfig) (e : QueueEvent ρ) : Prop :=
  ∀ k v w, (Req.storeSet k v, w) ∈
      requests (reply network) (e.op.process queue) e.before.vars e.before.world →
    (network.storage w.net).1 = none

/-- The drains of a run are resolved, and the queues it reopens are loaded. -/
def Resolved (e : QueueEvent ρ) : Prop :=
  (∃ key, e.op = .drain key) ∨ e.op = .reopen → ∃ result, e.result = .ok result

/-- A network whose storage never refuses an access. -/
def working (network : Network ρ) : Network ρ :=
  { network with storage := fun n => (none, (network.storage n).2) }

theorem working_works (network : Network ρ) : StorageWorks (working network) := fun _ => rfl

/-- A request that reads the store. -/
def Req.Reads : Req → Prop
  | .storeGet _ => True
  | .storeKeys _ => True
  | _ => False

theorem allowsLoaded_unread : AllowsLoaded fun r => ¬ r.Reads where
  online := fun r hr => by
    cases r with
    | storeGet k => cases hr
    | storeKeys p => cases hr
    | _ => exact id
  tick := id
  now := id
  queueMeta := fun _ => id
  payment := fun _ _ => id

section Complete

variable {network : Network ρ} {queue : QueueConfig}

/-- An access that is not refused is one of working storage. -/
theorem reply_working {r : Req} {w : World ρ} (h : (network.storage w.net).1 = none) :
    reply network r w = reply (working network) r w := by
  have hstorage : network.storage w.net = (working network).storage w.net := Prod.ext h rfl
  cases r <;> simp only [reply, hstorage] <;> rfl

/-- Code that does not read the store, and whose writes do not fail, runs as
    over working storage. -/
theorem run_working {α : Type} {p : QueueM α} (hp : Asks (fun r : Req => ¬ r.Reads) p)
    {vars : QueueVars} {w : World ρ}
    (h : ∀ k v w', (Req.storeSet k v, w') ∈ requests (reply network) p vars w →
      (network.storage w'.net).1 = none) :
    run (reply network) p vars w = run (reply (working network)) p vars w := by
  refine run_congr fun entry hentry => ?_
  have hread := asks_requests (reply network) hp hentry
  rcases entry with ⟨r, w'⟩
  cases r with
  | storeSet k v => exact reply_working (h k v w' hentry)
  | storeGet k => exact absurd trivial hread
  | storeKeys p => exact absurd trivial hread
  | _ => rfl

/-- A read is refused, or answered as over working storage. -/
theorem read_cases {r : Req} (hr : r.Reads) (vars : QueueVars) (w : World ρ) :
    (∃ e n, run (reply network) (request (I := client) r) vars w
      = ⟨.error e, vars, { w with net := n }⟩) ∨
    run (reply network) (request (I := client) r) vars w
      = run (reply (working network)) (request (I := client) r) vars w := by
  simp only [run_request (I := client)]
  rcases hstorage : network.storage w.net with ⟨_ | e, n⟩
  · refine .inr ?_
    rw [reply_working (by rw [hstorage])]
  · refine .inl ⟨e, n, ?_⟩
    cases r with
    | storeGet k => simp only [reply, hstorage]
    | storeKeys p => simp only [reply, hstorage]
    | _ => exact hr.elim

/-- Loading what the store has leaves memory as it is, even if a read fails on
    the way. -/
theorem loadPayments_same (ids : List PaymentId) {vars : QueueVars} {w : World ρ}
    (h : ∀ id, w.store.lookup (.payment id) = vars.payments.get id) : ∃ x vars' n,
    run (reply network) (Queue.loadPayments ids) vars w = ⟨x, vars', { w with net := n }⟩ ∧
      (∀ id, w.store.lookup (.payment id) = vars'.payments.get id) ∧
      vars'.consecutiveFailedSends = vars.consecutiveFailedSends := by
  induction ids generalizing vars w with
  | nil => exact ⟨_, _, w.net, rfl, h, rfl⟩
  | cons id ids ih =>
      rcases @read_cases _ network (.storeGet (.payment id)) trivial vars w with
        ⟨e, n, hget⟩ | hget
      · exact ⟨_, _, n, run_bind_error _ hget, h, rfl⟩
      have hget := hget.trans (run_storeGet (working_works network) (.payment id) vars w)
      rcases hstored : w.store.lookup (.payment id) with _ | p
      · rw [hstored] at hget
        rcases @ih vars { w with net := (network.storage w.net).2 } h with ⟨x, vars', n, hrest, h'⟩
        exact ⟨x, vars', n, (run_bind_ok _ hget).trans hrest, h'⟩
      · rw [hstored] at hget
        -- What is read is what memory holds already, so setting it changes nothing.
        have hp : vars.payments.get p.id = some p := by
          have hmemory := (h id).symm.trans hstored
          rwa [Payments.id_of_get hmemory]
        have hset : ∀ id', w.store.lookup (.payment id') = (vars.payments.set p).get id' := by
          intro id'
          rw [Payments.get_set]
          by_cases hid : id' = p.id
          · rw [if_pos hid, hid, h, hp]
          · rw [if_neg hid, h]
        rcases @ih { vars with payments := vars.payments.set p }
          { w with net := (network.storage w.net).2 } hset with ⟨x, vars', n, hrest, h'⟩
        exact ⟨x, vars', n, (run_bind_ok _ hget).trans hrest, h'⟩

/-- So does loading all of it, and the counter is left or read. -/
theorem load_same {vars : QueueVars} {w : World ρ}
    (h : ∀ id, w.store.lookup (.payment id) = vars.payments.get id) : ∃ x vars' n,
    run (reply network) (Queue.load queue) vars w = ⟨x, vars', { w with net := n }⟩ ∧
      (∀ id, w.store.lookup (.payment id) = vars'.payments.get id) ∧
      (vars'.consecutiveFailedSends = vars.consecutiveFailedSends ∨
        vars'.consecutiveFailedSends = (w.store.lookup .queueMeta).getD 0) := by
  rcases @read_cases _ network (.storeKeys .payment) trivial vars w with ⟨e, n, hkeys⟩ | hkeys
  · exact ⟨_, _, n, run_bind_error _ hkeys, h, .inl rfl⟩
  have hkeys := hkeys.trans (run_storeKeys (working_works network) vars w)
  rcases @loadPayments_same _ network (w.store.keysWith .payment) vars
    { w with net := (network.storage w.net).2 } h with ⟨e | _, vars', n, hload, h', hcount⟩
  · exact ⟨_, _, n, (run_bind_ok _ hkeys).trans (run_bind_error _ hload), h', .inl hcount⟩
  rcases @read_cases _ network (.storeGet .queueMeta) trivial vars' { w with net := n } with
    ⟨e, n', hmeta⟩ | hmeta
  · exact ⟨_, _, n', (run_bind_ok _ hkeys).trans ((run_bind_ok _ hload).trans
      (run_bind_error _ hmeta)), h', .inl hcount⟩
  have hmeta := hmeta.trans (run_storeGet (working_works network) .queueMeta vars' _)
  exact ⟨_, _, _, (run_bind_ok _ hkeys).trans ((run_bind_ok _ hload).trans
    (run_bind_ok _ hmeta)), h', .inr rfl⟩

/-- A queue in step with its store stays in step with it. -/
theorem synced_load {vars : QueueVars} {w : World ρ} (h : Synced vars w.store) : ∃ x vars' n,
    run (reply network) (Queue.load queue) vars w = ⟨x, vars', { w with net := n }⟩ ∧
      Synced vars' w.store := by
  rcases @load_same _ network queue _ _ h.payments with ⟨x, vars', n, hrun, hpayments, hcount⟩
  refine ⟨x, vars', n, hrun, hpayments, ?_⟩
  rcases hcount with hcount | hcount
  · rw [hcount]
    exact h.failedSends
  · exact hcount.symm

/-- A load that resolves has read the store. -/
theorem run_loadPayments_working (ids : List PaymentId) {vars vars' : QueueVars} {w w' : World ρ}
    (h : run (reply network) (Queue.loadPayments ids) vars w = ⟨.ok (), vars', w'⟩) :
    run (reply (working network)) (Queue.loadPayments ids) vars w = ⟨.ok (), vars', w'⟩ := by
  induction ids generalizing vars w with
  | nil => exact h
  | cons id ids ih =>
      rcases @read_cases _ network (.storeGet (.payment id)) trivial vars w with
        ⟨e, n, hget⟩ | hget
      · cases h.symm.trans (run_bind_error _ hget)
      have hworks := run_storeGet (working_works network) (.payment id) vars w
      have hget := hget.trans hworks
      rcases hstored : w.store.lookup (.payment id) with _ | p
      · rw [hstored] at hget hworks
        exact (run_bind_ok _ hworks).trans (ih ((run_bind_ok _ hget).symm.trans h))
      · rw [hstored] at hget hworks
        exact (run_bind_ok _ hworks).trans (@ih { vars with payments := vars.payments.set p } _
          ((run_bind_ok _ hget).symm.trans h))

theorem run_load_working {vars vars' : QueueVars} {w w' : World ρ} {payments : List QueuedPayment}
    (h : run (reply network) (Queue.load queue) vars w = ⟨.ok payments, vars', w'⟩) :
    run (reply (working network)) (Queue.load queue) vars w = ⟨.ok payments, vars', w'⟩ := by
  rcases @read_cases _ network (.storeKeys .payment) trivial vars w with ⟨e, n, hkeys⟩ | hkeys
  · cases h.symm.trans (run_bind_error _ hkeys)
  have hkeys' := run_storeKeys (working_works network) vars w
  have h := (run_bind_ok _ (hkeys.trans hkeys')).symm.trans h
  refine (run_bind_ok _ hkeys').trans ?_
  rcases hload : run (reply network) (Queue.loadPayments (w.store.keysWith .payment)) vars
    { w with net := ((working network).storage w.net).2 } with ⟨e | _, vars₁, w₁⟩
  · cases h.symm.trans (run_bind_error _ hload)
  have h := (run_bind_ok _ hload).symm.trans h
  refine (run_bind_ok _ (run_loadPayments_working _ hload)).trans ?_
  rcases @read_cases _ network (.storeGet .queueMeta) trivial vars₁ w₁ with ⟨e, n, hmeta⟩ | hmeta
  · cases h.symm.trans (run_bind_error _ hmeta)
  have hmeta' := run_storeGet (working_works network) .queueMeta vars₁ w₁
  exact (run_bind_ok _ hmeta').trans ((run_bind_ok _ (hmeta.trans hmeta')).symm.trans h)

/-- A queue reopened over the store of one in step with it, and loaded, is in step
    with it too, and returns its list. -/
theorem reopen_spec {sys : QueueSys ρ} (h : Synced sys.vars sys.world.store) {vars' : QueueVars}
    {w' : World ρ} {payments : List QueuedPayment}
    (hload : run (reply network) (Queue.load queue) .empty sys.world
      = ⟨.ok payments, vars', w'⟩) :
    w'.store = sys.world.store ∧ Synced vars' sys.world.store ∧
      payments = Queue.ordered queue vars' := by
  have hrun := run_load_working hload
  rcases @load_synced _ _ (working_works network) queue .empty sys.world
    (fun id p hp => Payments.id_of_get ((h.payments id).symm.trans hp)) (fun _ _ => rfl) with
    ⟨payments', vars'', n, hrun', hsynced⟩
  cases hrun.symm.trans hrun'
  refine ⟨rfl, hsynced, ?_⟩
  rcases run_loadPayments (working_works network) (sys.world.store.keysWith .payment) .empty
    { sys.world with net := ((working network).storage sys.world.net).2 } with ⟨n', hpayments⟩
  have hlist := hrun.symm.trans ((run_bind_ok _ (run_storeKeys (working_works network) .empty
    sys.world)).trans ((run_bind_ok _ hpayments).trans
      (run_bind_ok _ (run_storeGet (working_works network) .queueMeta _ _))))
  cases hlist
  rfl

/-- An operation that does not load runs as over working storage. -/
theorem step_working {command : QueueCommand} {sys : QueueSys ρ}
    (hasks : Asks (fun r : Req => ¬ r.Reads) (command.process queue))
    (hwrites : WritesComplete network queue (eventAt (queueStep network queue) command sys)) :
    queueStep network queue command sys = queueStep (working network) queue command sys :=
  congrArg (fun o : Async.Outcome QueueVars Thrown (World ρ) QueueResult =>
    (o.result, (⟨o.vars, o.world⟩ : QueueSys ρ))) (run_working hasks hwrites)

theorem event_working {command : QueueCommand} {sys : QueueSys ρ}
    (hasks : Asks (fun r : Req => ¬ r.Reads) (command.process queue))
    (hwrites : WritesComplete network queue (eventAt (queueStep network queue) command sys)) :
    eventAt (queueStep network queue) command sys
      = eventAt (queueStep (working network) queue) command sys := by
  simp only [eventAt, step_working hasks hwrites]

theorem asks_unread_accept (payment : VerifiedPayment) (tier : PaymentTier) (amount : Int)
    (precheck : Option NonceVerdict) : Asks (fun r : Req => ¬ r.Reads)
      (QueueCommand.process queue (.accept payment tier amount precheck)) :=
  asks_map _ (asks_accept allowsLoaded_unread queue payment tier amount precheck)

theorem asks_unread_drain (key : CryptoKeyPair) :
    Asks (fun r : Req => ¬ r.Reads) (QueueCommand.process queue (.drain key)) :=
  asks_map _ (asks_bind asks_read fun _ =>
    asks_drainPayments allowsLoaded_unread queue (fun _ => id) key _)

theorem asks_unread_expire (now : Int) :
    Asks (fun r : Req => ¬ r.Reads) (QueueCommand.process queue (.expire now)) :=
  asks_map _ (asks_expire allowsLoaded_unread queue now)

/-- Memory and store say the same as long as writes complete. -/
theorem synced_step {command : QueueCommand} {sys : QueueSys ρ}
    (h : Synced sys.vars sys.world.store)
    (hwrites : WritesComplete network queue (eventAt (queueStep network queue) command sys))
    (hresolved : Resolved (eventAt (queueStep network queue) command sys)) :
    Synced (queueStep network queue command sys).2.vars
      (queueStep network queue command sys).2.world.store := by
  -- A command that does not read behaves as on storage that always works.
  have hworks : Asks (fun r : Req => ¬ r.Reads) (command.process queue) →
      Synced (queueStep network queue command sys).2.vars
        (queueStep network queue command sys).2.world.store := fun hasks => by
    rw [step_working hasks hwrites]
    exact synced_final (working_works network) queue [command] h
  cases command with
  | accept payment tier amount precheck =>
      exact hworks (asks_unread_accept payment tier amount precheck)
  | drain key => exact hworks (asks_unread_drain key)
  | expire now => exact hworks (asks_unread_expire now)
  | load =>
      rcases @synced_load _ network queue _ _ h with ⟨x, vars', n, hrun, h'⟩
      rw [step_of_run rfl hrun]
      exact h'
  | reopen =>
      rcases hresolved (.inr rfl) with ⟨result, hresult⟩
      rcases hload : run (reply network) (Queue.load queue) .empty sys.world with
        ⟨e | payments, vars', w'⟩
      · rw [event_of_reopen hload] at hresult
        cases hresult
      · rcases reopen_spec h hload with ⟨hstore, h', _⟩
        rw [show (queueStep network queue .reopen sys).2 = ⟨vars', w'⟩ from
          congrArg Event.after (event_of_reopen hload), hstore]
        exact h'

end Complete

section Counter

/-- A failure that counts as a failed send. -/
def SubmitOutcome.countsAsFailed : SubmitOutcome → Bool
  | .settled _ _ => false
  | .failed code _ _ => countsAsFailedSend code

/-- The failed sends since the last settlement. -/
def failedSends (outcomes : List SubmitOutcome) : Nat :=
  (outcomes.reverse.takeWhile fun o => ! o.isSettled).countP SubmitOutcome.countsAsFailed

theorem failedSends_concat (outcomes : List SubmitOutcome) (o : SubmitOutcome) :
    failedSends (outcomes ++ [o]) = nextFailedSends (failedSends outcomes) o := by
  simp only [failedSends, List.reverse_append, List.reverse_singleton, List.singleton_append]
  cases o with
  | settled signature value => rfl
  | failed code feeCharged detail =>
      rw [List.takeWhile_cons_of_pos rfl, List.countP_cons]
      cases hcounts : countsAsFailedSend code <;>
        simp only [SubmitOutcome.countsAsFailed, nextFailedSends, hcounts] <;> rfl

theorem failedSends_append (outcomes later : List SubmitOutcome) :
    failedSends (outcomes ++ later) = later.foldl nextFailedSends (failedSends outcomes) := by
  induction later generalizing outcomes with
  | nil => rw [List.append_nil, List.foldl_nil]
  | cons o later ih => rw [List.append_cons, ih, failedSends_concat, List.foldl_cons]

variable {network : Network ρ} {queue : QueueConfig}

/-- A drain counts the outcomes it returns. -/
theorem drainPayments_failedSends (hs : StorageWorks network) (key : CryptoKeyPair)
    (payments : List QueuedPayment) {vars vars' : QueueVars} {w w' : World ρ}
    {outcomes : List SubmitOutcome}
    (h : run (reply network) (Queue.drainPayments queue key payments) vars w
      = ⟨.ok outcomes, vars', w'⟩) :
    vars'.consecutiveFailedSends = outcomes.foldl nextFailedSends vars.consecutiveFailedSends := by
  induction payments generalizing vars w outcomes with
  | nil =>
      cases h
      rfl
  | cons queued rest ih =>
      rcases hretried : queued.state.retried with _ | _
      · rw [drainPayments_skip hretried] at h
        exact ih h
      rcases (drainPayments_eq_ok hretried).mp h with ⟨o, later, vars₁, w₁, hturn, hrest, rfl⟩
      rcases @run_drainOne _ network queue vars w hs key queued with
        ⟨_, e, n', herr⟩ | ⟨_, o', n₁, n', _, hok⟩
      · -- A drain that resolves had no turn that threw.
        cases hturn.symm.trans herr
      · cases hturn.symm.trans hok
        rw [List.foldl_cons]
        exact ih hrest

/-- Every operation counts the outcomes it returns. -/
theorem failedSends_step {command : QueueCommand} {sys : QueueSys ρ}
    (h : Synced sys.vars sys.world.store)
    (hwrites : WritesComplete network queue (eventAt (queueStep network queue) command sys))
    (hresolved : Resolved (eventAt (queueStep network queue) command sys)) :
    (eventAt (queueStep network queue) command sys).after.vars.consecutiveFailedSends
      = (outcomesOf (eventAt (queueStep network queue) command sys)).foldl nextFailedSends
          sys.vars.consecutiveFailedSends := by
  cases command with
  | accept payment tier amount precheck =>
      -- Nothing is submitted, and nothing counted.
      have hrun := run_accept queue (working_works network) payment tier amount precheck sys.vars
        sys.world
      rw [event_working (asks_unread_accept payment tier amount precheck) hwrites]
      rcases hchecks : Queue.acceptChecks queue sys.vars payment tier amount precheck with e | _ <;>
        rw [hchecks] at hrun <;> rw [event_of_run rfl hrun] <;> rfl
  | drain key =>
      rcases hresolved (.inl ⟨key, rfl⟩) with ⟨result, hresult⟩
      rw [event_working (asks_unread_drain key) hwrites] at hresult ⊢
      rcases hdrain : run (reply (working network)) (Queue.drain queue key) sys.vars sys.world with
        ⟨e | outcomes, vars', w'⟩
      · rw [event_of_run rfl hdrain] at hresult
        cases hresult
      · rw [event_of_run rfl hdrain]
        exact drainPayments_failedSends (working_works network) key _
          ((run_bind_ok _ (run_read _ _ _)).symm.trans hdrain)
  | expire now =>
      rcases run_expire queue now sys.vars sys.world with ⟨w', hrun, _⟩
      rw [event_of_run rfl hrun]
      rfl
  | load =>
      rcases @synced_load _ network queue _ _ h with ⟨x, vars', n, hrun, h'⟩
      rw [event_of_run rfl hrun, outcomesOf_map x fun _ _ => QueueResult.noConfusion]
      exact h'.failedSends.symm.trans h.failedSends
  | reopen =>
      rcases hresolved (.inr rfl) with ⟨result, hresult⟩
      rcases hload : run (reply network) (Queue.load queue) .empty sys.world with
        ⟨e | payments, vars', w'⟩
      · rw [event_of_reopen hload] at hresult
        cases hresult
      · rcases reopen_spec h hload with ⟨_, h', _⟩
        rw [event_of_reopen hload]
        exact h'.failedSends.symm.trans h.failedSends

end Counter

/-- What can be asked of a pool. -/
inductive PoolUse where
  | operate (op : PoolOp)
  | estimateSetupCost (size : Int)
  | status
deriving DecidableEq

def PoolUse.process (pool : PoolConfig) : PoolUse → PoolM (PoolResult ⊕ SetupCost)
  | .operate op => .inl <$> op.process pool
  | .estimateSetupCost size => .inr <$> Pool.estimateSetupCost size
  | .status => (fun status => .inl (.status status)) <$> Pool.status pool

def useStep (network : Network ρ) (pool : PoolConfig) (use : PoolUse) (sys : PoolSys ρ) :
    Except Thrown (PoolResult ⊕ SetupCost) × PoolSys ρ :=
  let outcome := run (reply network) (use.process pool) sys.current sys.world
  (outcome.result, ⟨outcome.vars, outcome.world⟩)

/-- A network that storage has no part in: it never refuses an access, and what it
    answers else does not depend on the accesses made. -/
def StorageApart (network : Network ρ) : Prop :=
  ∀ n, network.storage n = (none, n)

/-- The same ledger, or one that has not been read yet. -/
def SameLedger (pool : PoolConfig) (w : World ρ) (s t : Option PoolState) : Prop :=
  s = t ∨ s = none ∧ t = w.store.lookup (.pool pool.payer)

section Pool

variable {network : Network ρ} (hq : StorageApart network) {pool : PoolConfig}

theorem sameLedger_reply {r : Req} (hr : r.Unstoring) {w : World ρ} {s t : Option PoolState}
    (h : SameLedger pool w s t) : SameLedger pool (reply network r w).2 s t := by
  rcases reply_store network r w with ⟨hstore, _⟩ | ⟨k, v, rfl, _⟩
  · rwa [SameLedger, hstore]
  · exact absurd rfl (hr k v)

/-- What keeps no variables and stores nothing is alike to itself. -/
theorem alike_ledger {α : Type} {p : PoolM α} (hp : Stateless Req.Unstoring p) :
    Alike (reply network) (SameLedger pool) p p :=
  alike_stateless (fun _ _ _ _ hr h => sameLedger_reply hr h) hp

theorem alike_awaited {α : Type} {p : PoolM α} (hp : Alike (reply network) (SameLedger pool) p p) :
    Alike (reply network) (SameLedger pool) (awaited p) (awaited p) :=
  alike_bind hp fun _ => alike_bind
    (alike_ledger (stateless_request (I := client) (r := .tick) fun _ _ => nofun)) fun _ =>
      alike_pure _

/-- Once a ledger is written the two have the same. -/
theorem alike_persist (state : PoolState) : Alike (reply network) (SameLedger pool)
    (Pool.persist pool state) (Pool.persist pool state) := fun _ _ _ _ =>
  ⟨_, _, _, _, rfl, rfl, .inl rfl⟩

include hq

/-- The store is read where the ledger has not been. -/
theorem run_storeGet_apart (k : StoreKey) (s : Option PoolState) (w : World ρ) :
    run (reply network) (storeGet k : PoolM _) s w = ⟨.ok (w.store.lookup k), s, w⟩ := by
  rw [run_storeGet_eq, hq w.net]

/-- Reading the ledger, whether or not it is in memory, makes the two the same. -/
theorem alike_loaded : Alike (reply network) (SameLedger pool) (Pool.loaded pool)
    (Pool.loaded pool) := by
  rintro s t w (rfl | ⟨rfl, ht⟩)
  · cases s with
    | some state => exact ⟨_, _, _, _, rfl, rfl, .inl rfl⟩
    | none => exact ⟨_, _, _, _, rfl, rfl, .inl rfl⟩
  · have hget := run_storeGet_apart hq (.pool pool.payer) none w
    rcases hstored : w.store.lookup (.pool pool.payer) with _ | state <;>
      rw [hstored] at ht hget <;> subst ht
    · exact ⟨_, _, _, _, rfl, rfl, .inl rfl⟩
    · exact ⟨.ok state, some state, some state, w, run_bind_ok _ hget, rfl, .inl rfl⟩

theorem alike_currentOrStored : Alike (reply network) (SameLedger pool)
    (Pool.currentOrStored pool) (Pool.currentOrStored pool) := by
  rintro s t w (rfl | ⟨rfl, ht⟩)
  · exact ⟨_, _, _, _, rfl, rfl, .inl rfl⟩
  · have hget := run_storeGet_apart hq (.pool pool.payer) none w
    rcases hstored : w.store.lookup (.pool pool.payer) with _ | state <;>
      rw [hstored] at ht hget <;> subst ht
    · exact ⟨_, _, _, _, rfl, rfl, .inl rfl⟩
    · exact ⟨.ok (some state), none, some state, w, hget, rfl, .inr ⟨rfl, hstored.symm⟩⟩

theorem alike_priorSpendLog : Alike (reply network) (SameLedger pool) (Pool.priorSpendLog pool)
    (Pool.priorSpendLog pool) :=
  alike_bind (alike_currentOrStored hq) fun _ => alike_pure _

theorem alike_refresh : Alike (reply network) (SameLedger pool) (Pool.refresh pool)
    (Pool.refresh pool) :=
  alike_bind (alike_awaited (alike_loaded hq)) fun _ =>
    alike_bind (alike_ledger (stateless_refreshSlots unstoring_account _)) fun _ => alike_persist _

theorem alike_create (size : Int) (payerKey : CryptoKeyPair) :
    Alike (reply network) (SameLedger pool) (Pool.create pool size payerKey)
      (Pool.create pool size payerKey) := by
  unfold Pool.create
  split
  · exact alike_throw _
  refine alike_bind (alike_ledger (stateless_assertPayerKey payerKey)) fun _ => ?_
  refine alike_bind (alike_ledger (stateless_estimateSetupCost (unstoring_rpc _) (unstoring_rpc _)
    size)) fun cost => ?_
  refine alike_bind (alike_ledger (stateless_rpc _ fun _ _ => nofun)) fun balance => ?_
  dsimp only
  split
  · exact alike_throw _
  refine alike_bind (alike_ofResult _) fun x =>
    alike_bind (alike_ledger (stateless_rpc _ fun _ _ => nofun)) fun _ => ?_
  refine alike_bind (alike_ledger (stateless_request (I := client) (r := .randomUUID)
    fun _ _ => nofun)) fun epoch => ?_
  exact alike_bind (alike_awaited (alike_priorSpendLog hq)) fun _ =>
    alike_bind (alike_persist _) fun _ => alike_refresh hq

theorem alike_reserveSlot (merchant : Address) (now amount : Int) :
    Alike (reply network) (SameLedger pool) (Pool.reserveSlot pool merchant now amount)
      (Pool.reserveSlot pool merchant now amount) := by
  refine alike_bind (alike_awaited (alike_loaded hq)) fun state => ?_
  dsimp only
  split
  · exact alike_throw _
  split
  · exact alike_throw _
  split
  · exact alike_bind (alike_persist _) fun _ => alike_pure _
  · exact alike_throw _

theorem alike_applyNonceReturn (payload : NonceReturnPayload) :
    Alike (reply network) (SameLedger pool) (Pool.applyNonceReturn pool payload)
      (Pool.applyNonceReturn pool payload) := by
  refine alike_bind (alike_awaited (alike_loaded hq)) fun state => ?_
  dsimp only
  split
  · exact alike_bind (alike_ofResult _) fun _ => alike_bind (alike_ledger
      (stateless_request (I := client) (r := .tick) fun _ _ => nofun)) fun _ => alike_persist _
  · exact alike_throw _

theorem alike_recover (maxProbe : Nat) : Alike (reply network) (SameLedger pool)
    (Pool.recover pool maxProbe) (Pool.recover pool maxProbe) := by
  refine alike_bind (alike_ledger (stateless_probe unstoring_account _)) fun slots => ?_
  split
  · exact alike_throw _
  refine alike_bind (alike_ledger (stateless_request (I := client) (r := .randomUUID)
    fun _ _ => nofun)) fun epoch => ?_
  exact alike_bind (alike_awaited (alike_priorSpendLog hq)) fun _ => alike_persist _

theorem alike_close (payerKey : CryptoKeyPair) : Alike (reply network) (SameLedger pool)
    (Pool.close pool payerKey) (Pool.close pool payerKey) := by
  refine alike_bind (alike_awaited (alike_loaded hq)) fun state => ?_
  refine alike_bind (alike_ledger (stateless_assertPayerKey payerKey)) fun _ => ?_
  refine alike_bind (alike_ledger (stateless_rpc _ fun _ _ => nofun)) fun balance =>
    alike_bind (alike_ledger (stateless_rpc _ fun _ _ => nofun)) fun minimum => ?_
  split
  · exact alike_throw _
  refine alike_bind (alike_ledger (stateless_withdrawals unstoring_account _)) fun x => ?_
  dsimp only
  split
  · exact alike_bind (alike_ledger (stateless_rpc _ fun _ _ => nofun)) fun _ =>
      alike_bind (alike_persist _) fun _ => alike_pure _
  · exact alike_bind (alike_persist _) fun _ => alike_pure _

/-- A pool that has not read its ledger is alike to one that has. -/
theorem alike_pool (op : PoolOp) : Alike (reply network) (SameLedger pool) (op.process pool)
    (op.process pool) := by
  cases op with
  | create size payerKey => exact alike_map _ (alike_create hq size payerKey)
  | reserveSlot merchant now amount => exact alike_map _ (alike_reserveSlot hq merchant now amount)
  | allowance now =>
      exact alike_map _ (alike_bind (alike_currentOrStored hq) fun _ => alike_pure _)
  | applyNonceReturn payload => exact alike_map _ (alike_applyNonceReturn hq payload)
  | refresh => exact alike_map _ (alike_refresh hq)
  | recover maxProbe => exact alike_map _ (alike_recover hq maxProbe)
  | close payerKey => exact alike_map _ (alike_close hq payerKey)
  | reconcile now =>
      exact alike_map _ (alike_bind (alike_awaited (alike_loaded hq)) fun _ =>
        alike_bind (alike_ledger (stateless_reconcileSlots unstoring_account _ _ _ _)) fun _ =>
          alike_bind (alike_persist _) fun _ => alike_pure _)
  | load =>
      exact alike_map _ (alike_bind (alike_awaited (alike_loaded hq)) fun _ => alike_pure _)

/-- So is whatever else is asked of it, unless its status is. -/
theorem alike_use {use : PoolUse} (hstatus : use ≠ .status) :
    Alike (reply network) (SameLedger pool) (use.process pool) (use.process pool) := by
  cases use with
  | operate op => exact alike_map _ (alike_pool hq op)
  | estimateSetupCost size =>
      exact alike_map _ (alike_ledger (stateless_estimateSetupCost (unstoring_rpc _)
        (unstoring_rpc _) size))
  | status => exact absurd rfl hstatus

/-- So they give the same results, whatever is asked of them. -/
theorem pool_results {s t : Option PoolState} {w : World ρ} (h : SameLedger pool w s t)
    {uses : List PoolUse} (hstatus : PoolUse.status ∉ uses) :
    (history (useStep network pool) ⟨s, w⟩ uses).map Event.result
      = (history (useStep network pool) ⟨t, w⟩ uses).map Event.result := by
  induction uses generalizing s t w with
  | nil => rfl
  | cons use uses ih =>
      rw [List.mem_cons, not_or] at hstatus
      have halike : Alike (reply network) (SameLedger pool) _ _ :=
        alike_use hq (Ne.symm hstatus.1)
      rcases halike s t w h with ⟨x, s', t', w', hrun, hrun', hafter⟩
      simp only [List.map_cons, Async.history_cons, eventAt, useStep, hrun, hrun',
        ih hafter hstatus.2]

end Pool

/-- In every run whose writes complete and whose drains resolve, memory and store
    say the same, and the counter is that of all outcomes returned. -/
theorem queue_final {network : Network ρ} {queue : QueueConfig} {sys : QueueSys ρ}
    (hfresh : sys.Fresh) {commands : List QueueCommand}
    (hwrites : ∀ e ∈ queueHistory network queue sys commands, WritesComplete network queue e)
    (hresolved : ∀ e ∈ queueHistory network queue sys commands, Resolved e) :
    let live := final (queueStep network queue) sys commands
    Synced live.vars live.world.store ∧ live.vars.consecutiveFailedSends
      = failedSends ((queueHistory network queue sys commands).flatMap outcomesOf) := by
  have hrule := @Async.history_rule _ _ _ (queueStep network queue)
    (fun pre sys => Synced sys.vars sys.world.store ∧
      sys.vars.consecutiveFailedSends = failedSends (pre.flatMap outcomesOf))
    (fun _ e => WritesComplete network queue e ∧ Resolved e)
    (fun pre command sys h he => by
      refine ⟨synced_step h.1 he.1 he.2, ?_⟩
      rw [List.flatMap_append, List.flatMap_singleton, failedSends_append, ← h.2]
      exact failedSends_step h.1 he.1 he.2)
    [] sys commands ⟨synced_fresh hfresh, by rw [hfresh.1]; rfl⟩
    (fun pre e post h => by
      have hmem := h ▸ List.mem_append_right pre (List.mem_cons_self (a := e) (l := post))
      exact ⟨hwrites e hmem, hresolved e hmem⟩)
  exact hrule.1

/-- A pool created again over the store of `live` and loaded gives the same
    results as `live`, whatever is asked of the two. Where `live` has not read its
    ledger, that is, whatever is asked but for the status, and of a network that
    storage has no part in. -/
def PoolReopens (network : Network ρ) (pool : PoolConfig) (live : PoolSys ρ) : Prop :=
  (network.storage live.world.net).1 = none →
  let loaded := (poolStep network pool (.call .load) { live with current := none }).2
  ∀ (network' : Network ρ) (n : ρ) (uses : List PoolUse),
    (live.current = none → StorageApart network' ∧ PoolUse.status ∉ uses) →
    (history (useStep network' pool) ⟨live.current, { live.world with net := n }⟩ uses).map
        Event.result
      = (history (useStep network' pool) ⟨loaded.current, { loaded.world with net := n }⟩ uses).map
          Event.result

/-- A queue created again over the store of `live` and loaded returns the list of
    `live`, and looks the same to begin with and after every operation, which
    gives the same result, whatever operations follow. -/
def QueueReopens (network : Network ρ) (queue : QueueConfig) (live : QueueSys ρ) : Prop :=
  ∀ payments vars' w',
    run (reply network) (Queue.load queue) .empty live.world = ⟨.ok payments, vars', w'⟩ →
    payments = Queue.ordered queue live.vars ∧ vars'.view queue = live.vars.view queue ∧
    ∀ (network' : Network ρ) (n : ρ) (commands : List QueueCommand),
      (queueHistory network' queue ⟨live.vars, { live.world with net := n }⟩ commands).map
          (fun e => (e.result, e.after.vars.view queue))
        = (queueHistory network' queue ⟨vars', { w' with net := n }⟩ commands).map
            (fun e => (e.result, e.after.vars.view queue))

/-- A pool created again and loaded has the ledger of the store, if there is
    one. -/
theorem reloaded {network : Network ρ} {pool : PoolConfig} {live : PoolSys ρ}
    (hread : (network.storage live.world.net).1 = none) : ∃ n,
    (poolStep network pool (.call .load) { live with current := none }).2
      = ⟨live.stored pool, { live.world with net := n }⟩ := by
  -- The read passed, so it gave what is stored.
  have hget : run (reply network) (storeGet (.pool pool.payer) : PoolM _) none live.world
      = ⟨.ok (live.stored pool), none,
        { live.world with net := (network.storage live.world.net).2 }⟩ := by
    rw [storeGet, run_request (I := client)]
    rcases hstorage : network.storage live.world.net with ⟨_ | e, n⟩
    · simp only [reply, hstorage]
      rfl
    · rw [hstorage] at hread
      cases hread
  simp only [poolStep, PoolOp.process, run_map]
  rcases hstored : live.stored pool with _ | state
  · rw [hstored] at hget
    have hloaded : run (reply network) (Pool.loaded pool) none live.world = ⟨.error _, none, _⟩ :=
      run_bind_ok _ hget
    have hload : run (reply network) (Pool.load pool) none live.world = ⟨.error _, none, _⟩ :=
      run_bind_error _ (run_bind_error _ hloaded)
    rw [hload]
    exact ⟨_, rfl⟩
  · rw [hstored] at hget
    have hloaded : run (reply network) (Pool.loaded pool) none live.world
        = ⟨.ok state, some state, _⟩ := run_bind_ok _ hget
    have hload : run (reply network) (Pool.load pool) none live.world = ⟨.ok _, some state, _⟩ :=
      run_bind_ok _ (run_bind_ok _ hloaded)
    rw [hload]
    exact ⟨_, rfl⟩

/-- The pool's half. -/
theorem poolReopens {network : Network ρ} {pool : PoolConfig} {live : PoolSys ρ}
    (h : InStep pool live) : PoolReopens network pool live := by
  intro hread loaded network' n uses hlazy
  rcases @reloaded _ network pool live hread with ⟨n', hloaded⟩
  have hcurrent : loaded.current = live.stored pool := congrArg PoolSys.current hloaded
  have hworld : loaded.world = { live.world with net := n' } := congrArg PoolSys.world hloaded
  rw [hcurrent, hworld]
  rcases h with hnone | hsame
  · rcases hlazy hnone with ⟨hapart, hstatus⟩
    rw [hnone]
    exact pool_results hapart (.inr ⟨rfl, rfl⟩) hstatus
  · rw [hsame]

/-- The queue's half. -/
theorem queueReopens {network : Network ρ} {queue : QueueConfig} {live : QueueSys ρ}
    (htotal : ∀ a b, queue.localeCompare a b ∨ queue.localeCompare b a)
    (htrans : ∀ a b c, queue.localeCompare a b → queue.localeCompare b c →
      queue.localeCompare a c)
    (hantisymm : ∀ a b, queue.localeCompare a b → queue.localeCompare b a → a = b)
    (h : Synced live.vars live.world.store) : QueueReopens network queue live := by
  intro payments vars' w' hload
  rcases reopen_spec h hload with ⟨hstore, hsynced, hlist⟩
  have hordered : ∀ {vars vars'}, SamePayments vars vars' →
      Queue.ordered queue vars = Queue.ordered queue vars' := fun hsame =>
    hsame.ordered_eq htotal htrans hantisymm
  have hsame : SamePayments live.vars vars' :=
    ⟨fun id => (h.payments id).symm.trans (hsynced.payments id),
      h.failedSends.symm.trans hsynced.failedSends⟩
  refine ⟨hlist.trans (hordered hsame).symm, (view_same hordered hsame).symm,
    fun network' n commands => ?_⟩
  rw [hstore]
  exact queue_results hordered hsame { live.world with net := n } commands

/-- Reopening cannot be seen: a pool or a queue created again over the same store
    and loaded answers as the one it replaces, after any run whose store writes
    complete. A queue's drains have to resolve, and its counter is then that of the
    failed sends since the last settlement. Only the status of a pool that has not
    read its ledger is another matter. -/
theorem reopened_unobservable (network : Network ρ) :
    (∀ (pool : PoolConfig) (sys : PoolSys ρ) (commands : List PoolCommand), sys.current = none →
      (∀ e ∈ poolHistory network pool sys commands, WritesSucceed network pool e) →
      PoolReopens network pool (final (poolStep network pool) sys commands)) ∧
    ∀ (queue : QueueConfig) (sys : QueueSys ρ) (commands : List QueueCommand),
      (∀ a b, queue.localeCompare a b ∨ queue.localeCompare b a) →
      (∀ a b c, queue.localeCompare a b → queue.localeCompare b c → queue.localeCompare a c) →
      (∀ a b, queue.localeCompare a b → queue.localeCompare b a → a = b) → sys.Fresh →
      (∀ e ∈ queueHistory network queue sys commands, WritesComplete network queue e) →
      (∀ e ∈ queueHistory network queue sys commands, Resolved e) →
      let live := final (queueStep network queue) sys commands
      QueueReopens network queue live ∧ live.vars.consecutiveFailedSends
        = failedSends ((queueHistory network queue sys commands).flatMap outcomesOf) := by
  refine ⟨fun pool sys commands hnew hwrites => poolReopens (inStep_final (.inl hnew) hwrites),
    fun queue sys commands htotal htrans hantisymm hfresh hwrites hresolved => ?_⟩
  rcases queue_final hfresh hwrites hresolved with ⟨hsynced, hcounter⟩
  exact ⟨queueReopens htotal htrans hantisymm hsynced, hcounter⟩

/-- A pool of one slot that has just been created. -/
def createdPool : PoolSys FakeRpc :=
  final (poolStep fakeNetwork testPool)
    ⟨none, ⟨∅, { balance := 1000000000, setup := [testAccount 0 (testNonce 7)] }⟩⟩
    [.call (.create 1 (testKey 1))]

/-- The same pool, opened anew over its store. -/
def unreadPool : PoolSys FakeRpc := { createdPool with current := none }

/-- And loaded. -/
def readPool : PoolSys FakeRpc := (poolStep fakeNetwork testPool (.call .load) unreadPool).2

/-- A pool that has not read its ledger has no status to show, and one that is
    opened again over the same store and loaded has. -/
theorem status_unread :
    (history (useStep fakeNetwork testPool) unreadPool [.status]).map Event.result
      ≠ (history (useStep fakeNetwork testPool) readPool [.status]).map Event.result := by
  intro h
  have hsome := congrArg (List.map fun x => x.toOption.isSome) h
  revert hsome
  decide +kernel

/-- The keys of payments by their parts. -/
def keyParts : PaymentId → List Nat
  | .nonce payer index value => 1 :: index :: (payer.bytes ++ value.bytes).map UInt8.toNat
  | .fresh payer digest => 0 :: (payer.bytes ++ digest).map UInt8.toNat

theorem keyParts_injective {a b : PaymentId} (h : keyParts a = keyParts b) : a = b := by
  -- Both kinds of key begin with the payer's bytes, which have one length.
  have hbytes : ∀ {payer payer' : Address} {rest rest' : List UInt8},
      (payer.bytes ++ rest).map UInt8.toNat = (payer'.bytes ++ rest').map UInt8.toNat →
      payer = payer' ∧ rest = rest' := by
    intro payer payer' rest rest' h
    have happend := List.map_injective_iff.mpr (fun _ _ => UInt8.toNat_inj.mp) h
    have hparts := List.append_inj happend (payer.length_eq.trans payer'.length_eq.symm)
    rcases payer with ⟨bytes, _⟩
    rcases payer' with ⟨bytes', _⟩
    rcases hparts with ⟨rfl, rfl⟩
    exact ⟨rfl, rfl⟩
  cases a with
  | nonce payer index value => cases b with
    | nonce payer' index' value' =>
        rcases List.cons.inj h with ⟨_, hrest⟩
        rcases List.cons.inj hrest with ⟨rfl, hparts⟩
        rcases hbytes hparts with ⟨rfl, hvalue⟩
        cases value
        cases value'
        cases hvalue
        rfl
    | fresh payer' digest => cases (List.cons.inj h).1
  | fresh payer digest => cases b with
    | nonce payer' index' value' => cases (List.cons.inj h).1
    | fresh payer' digest' =>
        rcases List.cons.inj h with ⟨_, hparts⟩
        rcases hbytes hparts with ⟨rfl, rfl⟩
        rfl

/-- A queue whose platform tells all keys apart. -/
def partsQueue : QueueConfig :=
  { testQueue with localeCompare := fun a b => keyParts a ≤ keyParts b }

/-- A payment is accepted and submitted, and fails on chain. -/
def failingRun : List QueueCommand :=
  [.accept (testPayment 0) .t2 10 none, .drain (testKey 2)]

def failingStart : QueueSys FakeRpc :=
  ⟨.empty, ∅, { sendPayment := [.error (.error "Error" "custom program error" none)]
                signatureOutcome := [.ok .landedFailed] }⟩

def failingEnd : QueueSys FakeRpc :=
  final (queueStep fakeNetwork partsQueue) failingStart failingRun

/-- The pool that is opened anew shows the same status, and the queue has counted
    the failed send as well. -/
theorem reopened_unobservable_failingRun :
    (∀ n, (history (useStep fakeNetwork testPool)
        ⟨createdPool.current, { createdPool.world with net := n }⟩ [.status]).map Event.result
      = (history (useStep fakeNetwork testPool)
          ⟨readPool.current, { readPool.world with net := n }⟩ [.status]).map Event.result) ∧
    failingEnd.vars.consecutiveFailedSends = 1 ∧ ∀ payments vars' w',
      run (reply fakeNetwork) (Queue.load partsQueue) .empty failingEnd.world
        = ⟨.ok payments, vars', w'⟩ → vars'.consecutiveFailedSends = 1 := by
  have hpool : PoolReopens fakeNetwork testPool createdPool :=
    (reopened_unobservable fakeNetwork).1 testPool _ [.call (.create 1 (testKey 1))] rfl
      fun e _ => writesSucceed_of_works fakeNetwork_storageWorks testPool e
  have hread : createdPool.current.isSome = true := by decide +kernel
  have hmap := (reopened_unobservable fakeNetwork).2 partsQueue failingStart failingRun
    (fun a b => by
      simp only [partsQueue, decide_eq_true_eq]
      exact le_total _ _)
    (fun a b c hab hbc => by
      simp only [partsQueue, decide_eq_true_eq] at hab hbc ⊢
      exact le_trans hab hbc)
    (fun a b hab hba => by
      simp only [partsQueue, decide_eq_true_eq] at hab hba
      exact keyParts_injective (le_antisymm hab hba))
    ⟨rfl, fun _ => rfl, rfl⟩ (fun _ _ _ _ w _ => fakeNetwork_storageWorks w.net) ?_
  · -- One send has failed, and the reopened queue counts it too.
    have hcounter : failingEnd.vars.consecutiveFailedSends = 1 := by decide +kernel
    refine ⟨fun n => ?_, hcounter, fun payments vars' w' hload => ?_⟩
    · rw [readPool, unreadPool]
      refine hpool (fakeNetwork_storageWorks createdPool.world.net) fakeNetwork n [.status] ?_
      intro hnone
      rw [hnone] at hread
      cases hread
    have hview := (hmap.1 payments vars' w' hload).2.1
    exact (congrArg (fun view => view.2.2) hview).trans hcounter
  · have hdrained : (queueHistory fakeNetwork partsQueue failingStart failingRun).all
        (fun e => e.result.toOption.isSome) = true := by decide +kernel
    intro e he _
    have hresult := List.all_eq_true.mp hdrained e he
    rcases he' : e.result with error | result
    · rw [he'] at hresult
      cases hresult
    · exact ⟨result, rfl⟩

end Vadum
