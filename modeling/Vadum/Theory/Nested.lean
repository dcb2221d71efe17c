import Vadum.Client.FakeRpc
import Vadum.Theory.SendWindow
import Vadum.Theory.Stranded
import Vadum.Theory.Withheld

/-!
# Two Windows

A payer's pool and a merchant's queue measure the same window from different
moments: the pool from the reservation, the queue from the acceptance. So the
payer's ends first. A slot is released while the merchant may still submit the
payment that was reserved on it, for as long as it took to be accepted:
`submitted_after_release` is a run in which it is.

`windows_nest` bounds this. What is submitted after a release took its time to
be accepted, and that much time has not yet passed since the release.

## Main definitions

* `Devices`, `DeviceCommand`, `deviceStep`: The two devices and what is done on
  them.
* `OneClock`: Both devices read one clock, which never goes back.
* `ExpiredFirst`: The queue is expired at the time of every drain.
* `HeldSince`: What a slot's record says after a reservation.

## Theorems

* `openAt_step`: Operations of a queue keep its windows open.
* `kept_heldSince`: Operations of a pool keep a slot's record.
* `released_after`: When a slot is released.
* `windows_nest`: What is submitted after that.
* `submitted_after_release`: A run in which the released payment is.
-/

namespace Vadum

open Async (Event eventAt final history)
open Async.Process

variable {ρ : Type}

/-- A payer's device and a merchant's, with a store each, on one network. -/
structure Devices (ρ : Type) where
  ledger : Option PoolState
  payerStore : Store
  queue : QueueVars
  merchantStore : Store
  net : ρ

def Devices.pool (devices : Devices ρ) : PoolSys ρ :=
  ⟨devices.ledger, ⟨devices.payerStore, devices.net⟩⟩

def Devices.merchant (devices : Devices ρ) : QueueSys ρ :=
  ⟨devices.queue, ⟨devices.merchantStore, devices.net⟩⟩

inductive DeviceCommand where
  | payer (command : PoolCommand)
  | merchant (command : QueueCommand)

/-- What happened on the device a command was for. -/
inductive Happened (ρ : Type) where
  | payer (e : PoolEvent ρ)
  | merchant (e : QueueEvent ρ)

def deviceStep (network : Network ρ) (pool : PoolConfig) (queue : QueueConfig) :
    DeviceCommand → Devices ρ → Happened ρ × Devices ρ
  | .payer command, devices =>
    let e := eventAt (poolStep network pool) command devices.pool
    (.payer e,
      { devices with ledger := e.after.current, payerStore := e.after.world.store,
                     net := e.after.world.net })
  | .merchant command, devices =>
    let e := eventAt (queueStep network queue) command devices.merchant
    (.merchant e,
      { devices with queue := e.after.vars, merchantStore := e.after.world.store,
                     net := e.after.world.net })

abbrev DeviceEvent (ρ : Type) : Type := Event DeviceCommand (Happened ρ) (Devices ρ)

/-- What happens in a run on the two devices. -/
abbrev deviceHistory (network : Network ρ) (pool : PoolConfig) (queue : QueueConfig)
    (devices : Devices ρ) (commands : List DeviceCommand) : List (DeviceEvent ρ) :=
  history (deviceStep network pool queue) devices commands

/-- The clock reading a command is given. -/
def DeviceCommand.clock : DeviceCommand → Option Int
  | .payer command => command.clock
  | .merchant (.expire now) => some now
  | .merchant _ => none

/-- The reservation an event returned, if it is one. -/
def reservedIn (e : DeviceEvent ρ) : Option MadeReservation :=
  match e.result with
  | .payer e => made e
  | .merchant _ => none

/-- The pool released the slot of a reservation at this time, in an event. -/
def Releasing (pool : PoolConfig) (e : DeviceEvent ρ) (r : Reservation) (now : Int) : Prop :=
  ∃ e', e.result = .payer e' ∧ Releases pool e' r now

/-- The payments an event hands to `submit`. -/
def submittedIn (network : Network ρ) (queue : QueueConfig) (e : DeviceEvent ρ) :
    List QueuedPayment :=
  match e.result with
  | .payer _ => []
  | .merchant e => (submissions network queue e).map Prod.fst

/-- Both devices read one clock, and it never goes back. -/
structure OneClock (network : Network ρ) (events : List (DeviceEvent ρ)) : Prop where
  forward : ∀ n n', Steps network n n' → network.clock n ≤ network.clock n'
  read : ∀ e ∈ events, ∀ now, e.op.clock = some now → now = network.clock e.before.net

/-- The merchant expires its queue before every drain, at the time of the drain
    and with no reading of the store in between. -/
def ExpiredFirst (network : Network ρ) (events : List (DeviceEvent ρ)) : Prop :=
  ∀ pre e post key, events = pre ++ e :: post → e.op = .merchant (.drain key) →
    ∃ earlier x between, pre = earlier ++ x :: between ∧
      x.op = .merchant (.expire (network.clock e.before.net)) ∧
      ∀ y ∈ between, y.op ≠ .merchant .load ∧ y.op ≠ .merchant .reopen

section Open

variable {network : Network ρ} {queue : QueueConfig} {now : Int}

theorem openAt_set {payments : Payments} {p : QueuedPayment} (h : OpenAt queue now payments)
    (hp : now - p.acceptedAt < queue.limits.sendWindowMs) : OpenAt queue now (payments.set p) := by
  intro q hq hretried
  rcases Payments.mem_set.mp hq with rfl | ⟨hq, _⟩
  · exact (outlived_of_retried hretried).mpr hp
  · exact h q hq hretried

theorem payments_bind {P : Payments → Prop} {α β : Type} {p : QueueM α} {f : α → QueueM β}
    {vars : QueueVars} {w : World ρ} (hp : P (run (reply network) p vars w).vars.payments)
    (hf : ∀ a (vars' : QueueVars) w', P vars'.payments →
      P (run (reply network) (f a) vars' w').vars.payments) :
    P (run (reply network) (p >>= f) vars w).vars.payments :=
  vars_bind (reply network) (J := fun vars' : QueueVars => P vars'.payments) hp hf

/-- A turn changes the payments only by putting its own in again. -/
theorem payments_drainOne {P : Payments → Prop} {key : CryptoKeyPair} {queued : QueuedPayment}
    (hset : ∀ p payments, SamePayment queued p → P payments → P (payments.set p))
    {vars : QueueVars} (w : World ρ) (h : P vars.payments) :
    P (run (reply network) (Queue.drainOne queue key queued) vars w).vars.payments := by
  have hsave : ∀ p, SamePayment queued p → ∀ (vars : QueueVars) (w : World ρ), P vars.payments →
      P (run (reply network) (Queue.save p) vars w).vars.payments := fun p hp vars w h => by
    rw [vars_save]
    exact hset p _ hp h
  have hrecord : ∀ o (vars : QueueVars) (w : World ρ), P vars.payments →
      P (run (reply network) (Queue.record queued o) vars w).vars.payments := by
    intro o vars w h
    cases o with
    | settled signature value =>
        exact payments_bind (hsave _ (samePayment_recorded queued (.settled signature value)) vars
          w h) fun _ _ _ h' => h'
    | failed code feeCharged detail =>
        refine payments_bind (hsave _ (samePayment_recorded queued (.failed code feeCharged detail))
          vars w h) fun _ _ _ h' => ?_
        split <;> exact h'
  -- Marked, submitted, recorded, and the counter stored.
  refine payments_bind (hsave _ (samePayment_marked queued) vars w h) fun _ vars₁ w₁ h₁ => ?_
  refine payments_bind ?_ fun o vars₂ w₂ h₂ => payments_bind (hrecord o vars₂ w₂ h₂)
    fun _ vars₃ w₃ h₃ => payments_bind (by rwa [vars_saveMeta]) fun _ _ _ h' => h'
  rcases submit_cases network vars₁ w₁ queue.kit queued.payment key with
    ⟨_, _, _, hrun⟩ | ⟨_, _, _, _, _, _, hrun, _⟩
  · rwa [hrun]
  · rwa [hrun]

/-- A drain only puts in payments again that it retries. -/
theorem payments_drainPayments {P : Payments → Prop} {key : CryptoKeyPair}
    {payments : List QueuedPayment}
    (hset : ∀ queued ∈ payments, queued.state.retried = true →
      ∀ p payments, SamePayment queued p → P payments → P (payments.set p))
    {vars : QueueVars} (w : World ρ) (h : P vars.payments) :
    P (run (reply network) (Queue.drainPayments queue key payments) vars w).vars.payments := by
  induction payments generalizing vars w with
  | nil => exact h
  | cons queued rest ih =>
      have hrest := fun q hq => hset q (List.mem_cons_of_mem _ hq)
      rcases hretried : queued.state.retried with _ | _
      · rw [drainPayments_skip hretried]
        exact ih hrest w h
      · rw [drainPayments_retried hretried]
        exact payments_bind (payments_drainOne (hset queued List.mem_cons_self hretried) w h)
          fun _ vars₁ w₁ h₁ => payments_bind (ih hrest w₁ h₁) fun _ _ _ h' => h'

/-- The operations keep windows open, but those that read the store. -/
theorem openAt_step (hforward : ∀ n n', Steps network n n' → network.clock n ≤ network.clock n')
    (hwindow : 0 < queue.limits.sendWindowMs) {command : QueueCommand} {sys : QueueSys ρ}
    (hload : command ≠ .load) (hreopen : command ≠ .reopen)
    (hclock : now ≤ network.clock sys.world.net) (h : OpenAt queue now sys.vars.payments) :
    OpenAt queue now (queueStep network queue command sys).2.vars.payments := by
  cases command with
  | accept payment tier amount precheck =>
      -- A new payment is accepted at a reading of the clock, so its window is open.
      have hlater : now ≤ network.clock (network.tick sys.world.net) :=
        Int.le_trans hclock (hforward _ _ ⟨.tick, sys.world, rfl, rfl⟩)
      simp only [queueStep, QueueCommand.process, run_map, run_accept_save]
      rcases Queue.acceptChecks queue sys.vars payment tier amount precheck with e | _
      · exact h
      · refine payments_bind ?_ fun _ _ _ h' => h'
        rw [vars_save]
        refine openAt_set h ?_
        simp only [acceptedAs]
        omega
  | drain key =>
      simp only [queueStep, QueueCommand.process, run_map]
      refine payments_drainPayments (fun queued hmem hretried p payments hp h' => ?_) _ h
      refine openAt_set h' ?_
      rw [hp]
      exact (outlived_of_retried hretried).mp (h queued (mem_ordered.mp hmem) hretried)
  -- Expiry only voids, and what is voided is not retried.
  | expire now' =>
      rcases run_expire queue now' sys.vars sys.world with ⟨w', hrun, _⟩
      rw [step_of_run rfl hrun]
      intro p hp hretried
      have hget := Payments.mem_iff_get.mp hp
      rw [get_foldl_expired] at hget
      rcases Option.map_eq_some_iff.mp hget with ⟨q, hq, hvoided⟩
      split at hvoided
      · rw [← hvoided] at hretried
        cases hretried
      · rw [← hvoided] at hretried ⊢
        exact h q (Payments.mem_iff_get.mpr (Payments.id_of_get hq ▸ hq)) hretried
  | load => exact absurd rfl hload
  | reopen => exact absurd rfl hreopen

end Open

/-- A slot's record after a reservation at this time: if it is spent, since then
    or later, and if it has been released, a window after that. -/
def HeldSince (pool : PoolConfig) (index : Nat) (time : Int) (ledger : Option PoolState) : Prop :=
  ∀ state, ledger = some state → ∀ slot ∈ state.slots, slot.index = index →
    (slot.state = .spent → ∀ record, slot.spentAgainst = some record → time ≤ record.at') ∧
    (slot.state = .unspent → ∀ at', slot.releasedAt = some at' → time + pool.sendWindowMs ≤ at')

section Held

variable {network : Network ρ} {pool : PoolConfig} {index : Nat} {time : Int}

/-- Every operation keeps it, if no reservation is given an earlier time. -/
theorem kept_heldSince {op : PoolOp} {sys : PoolSys ρ}
    (hop : ∀ merchant now amount, op = .reserveSlot merchant now amount → time ≤ now) :
    Kept network pool op sys (fun _ => HeldSince pool index time)
      (fun _ => HeldSince pool index time) where
  memory := fun _ _ _ _ h => h
  store := fun _ _ _ _ h => h
  persist := fun _ _ h => h
  load := fun _ _ _ h => h
  move := fun m n past state state' _ _ _ h hmove => by
    intro state'' hstate slot' hslot' hindex
    rw [← Option.some.inj hstate] at hslot'
    cases hmove with
    | reserve positive within chosen known =>
        -- The one move that makes a record: its time is the reservation's.
        rcases mem_reserved hslot' with rfl | ⟨hmem, _⟩
        · refine ⟨fun _ record hrecord => ?_, fun hunspent => by cases hunspent⟩
          rw [← Option.some.inj hrecord]
          exact hop _ _ _ rfl
        · exact h state rfl slot' hmem hindex
    | returned found spent against verified =>
        rcases mem_withSlot hslot' with rfl | ⟨hmem, _⟩
        · exact ⟨(fun hspent => by cases hspent), fun _ _ hreleased => by cases hreleased⟩
        · exact h state rfl slot' hmem hindex
    | reread online values =>
        rcases mem_of_reread values hslot' with ⟨slot, hslot, account, heard⟩
        exact h state rfl slot hslot hindex
    | reconciled slots =>
        rcases slots.slot_mem hslot' with hmem | ⟨slot, hslot, record, hspent, hagainst, hrearmed⟩
        · exact h state rfl slot' hmem hindex
        · cases hrearmed with
          | gone heard value =>
              exact ⟨(fun hspent => by cases hspent), fun hunspent => by cases hunspent⟩
          | settled heard value moved =>
              exact ⟨(fun hspent => by cases hspent), fun _ _ hreleased => by cases hreleased⟩
          | released heard value elapsed =>
              -- The one move that makes a mark, for a slot whose record has the time.
              refine ⟨(fun hspent => by cases hspent), fun _ at' hreleased => ?_⟩
              have hsince := (h state rfl slot hslot hindex).1 hspent record hagainst
              rw [← Option.some.inj hreleased]
              omega
    | closed =>
        rcases List.mem_map.mp hslot' with ⟨slot, _, rfl⟩
        exact ⟨(fun hspent => by cases hspent), fun hunspent => by cases hunspent⟩
  new := fun n past seen state _ _ _ _ hnew => by
    intro state' hstate slot hslot _
    rw [← Option.some.inj hstate] at hslot
    cases hnew with
    | created bounds setup sent prior =>
        rcases setupSlots_ok setup hslot with ⟨_, _, hunspent, hreleased, _⟩
        refine ⟨fun hspent => ?_, fun _ at' hat => ?_⟩
        · rw [hunspent] at hspent
          cases hspent
        · rw [hreleased] at hat
          cases hat
    | recovered probed prior =>
        rcases probed slot hslot with ⟨_, _⟩
        exact ⟨(fun hspent => by cases hspent), fun hunspent => by cases hunspent⟩

/-- A reservation starts it. -/
theorem heldSince_of_made {K : Option PoolState → Prop} {m : MadeReservation} {sys : PoolSys ρ}
    {state : PoolState} {slot : PoolSlot} (hm : Made pool K m sys state slot) :
    Ledgers pool (fun _ => HeldSince pool m.reservation.index m.now)
      (fun _ => HeldSince pool m.reservation.index m.now) sys := by
  have hledger : HeldSince pool m.reservation.index m.now
      (some (reserved pool state slot m.reservation.value m.merchant m.now m.amount)) := by
    intro state' hstate' slot' hslot' hindex
    rw [← Option.some.inj hstate'] at hslot'
    rcases mem_reserved hslot' with rfl | ⟨_, hne⟩
    · refine ⟨fun _ record hrecord => ?_, fun hunspent => by cases hunspent⟩
      rw [← Option.some.inj hrecord]
    · exact absurd (hindex.trans hm.index.symm) hne
  exact hm.ledgers hledger

end Held

section Step

variable (network : Network ρ) (pool : PoolConfig) (queue : QueueConfig)
  (command : DeviceCommand) (devices : Devices ρ)

/-- What is done on a device moves the network on. -/
theorem device_later :
    Later network devices.net (deviceStep network pool queue command devices).2.net := by
  cases command with
  | payer command => exact command_later network pool command devices.pool
  | merchant command => exact queue_later network queue command devices.merchant

/-- What is done on the merchant's device leaves the payer's as it is. -/
theorem pool_undisturbed (h : ∀ c, command ≠ .payer c) :
    (deviceStep network pool queue command devices).2.ledger = devices.ledger ∧
      (deviceStep network pool queue command devices).2.payerStore = devices.payerStore := by
  cases command with
  | payer c => exact absurd rfl (h c)
  | _ => exact ⟨rfl, rfl⟩

variable {network pool queue command devices}

/-- A step keeps what a slot's record says, if the clock is not turned back. -/
theorem heldSince_step {index : Nat} {time : Int}
    (h : Ledgers pool (fun _ => HeldSince pool index time) (fun _ => HeldSince pool index time)
      devices.pool)
    (hclock : ∀ now, command.clock = some now → time ≤ now) :
    Ledgers pool (fun _ => HeldSince pool index time) (fun _ => HeldSince pool index time)
      (deviceStep network pool queue command devices).2.pool := by
  by_cases hpayer : ∃ c, command = .payer c
  · rcases hpayer with ⟨c, rfl⟩
    refine @command_kept _ network pool devices.pool _ _ c (fun op hop => kept_heldSince ?_) h
    rintro merchant now amount rfl
    refine hclock now ?_
    simp only [DeviceCommand.clock, PoolCommand.clock, hop]
  · rcases pool_undisturbed network pool queue command devices fun c hc => hpayer ⟨c, hc⟩ with
      ⟨hledger, hstore⟩
    refine ⟨fun state hs => ?_, ?_⟩
    · simp only [Devices.pool, hledger] at hs ⊢
      exact h.memory state hs
    · simp only [PoolSys.stored, Devices.pool, hstore]
      exact h.store

end Step

section Events

variable {network : Network ρ} {pool : PoolConfig} {queue : QueueConfig}
  {command : DeviceCommand} {devices : Devices ρ}

theorem reservedIn_eq {m : MadeReservation}
    (h : reservedIn (eventAt (deviceStep network pool queue) command devices) = some m) :
    ∃ c, command = .payer c ∧ made (eventAt (poolStep network pool) c devices.pool) = some m := by
  cases command with
  | payer c => exact ⟨c, rfl, h⟩
  | _ => cases h

theorem releasing_eq {r : Reservation} {now : Int}
    (h : Releasing pool (eventAt (deviceStep network pool queue) command devices) r now) :
    ∃ c, command = .payer c ∧
      Releases pool (eventAt (poolStep network pool) c devices.pool) r now := by
  rcases h with ⟨e, hresult, hreleases⟩
  cases command with
  | payer c =>
      rw [← Happened.payer.inj hresult] at hreleases
      exact ⟨c, rfl, hreleases⟩
  | _ => cases hresult

/-- What is submitted is retried by a drain. -/
theorem submittedIn_eq {p : QueuedPayment}
    (h : p ∈ submittedIn network queue
      (eventAt (deviceStep network pool queue) command devices)) :
    ∃ key queued, command = .merchant (.drain key) ∧ queued ∈ devices.queue.payments.toList ∧
      queued.state.retried = true ∧ p = marked queued := by
  cases command with
  | payer c => exact absurd h List.not_mem_nil
  | merchant c =>
      rcases List.mem_map.mp h with ⟨⟨q, n⟩, hmem, rfl⟩
      rcases mem_submissions.mp hmem with ⟨key, queued, rfl, hturn, rfl⟩
      exact ⟨key, queued, rfl, hturn.retried.1, hturn.retried.2, rfl⟩

end Events

section Runs

variable {network : Network ρ} {pool : PoolConfig} {queue : QueueConfig} {devices : Devices ρ}
  {commands : List DeviceCommand} {pre mid post : List (DeviceEvent ρ)} {e₁ e₂ : DeviceEvent ρ}

theorem OneClock.clock_le {events : List (DeviceEvent ρ)} (h : OneClock network events) {n n' : ρ}
    (hlater : Later network n n') : network.clock n ≤ network.clock n' :=
  clock_le_of_later h.forward hlater

/-- The network moves on from one event of a run to a later one. -/
theorem later_of_split
    (hsplit : deviceHistory network pool queue devices commands
      = pre ++ e₁ :: (mid ++ e₂ :: post)) : Later network e₁.before.net e₂.before.net := by
  rcases Async.history_cut _ hsplit with ⟨hevent, rest, hrest⟩
  have hstart : Later network e₁.before.net e₁.after.net := by
    rw [hevent]
    exact device_later network pool queue e₁.op e₁.before
  exact (@Async.history_invariant _ _ _ (deviceStep network pool queue)
    (fun devices' => Later network e₁.before.net devices'.net) (fun _ => True)
    (fun command devices' h _ => h.trans (device_later network pool queue command devices'))
    e₁.after rest hstart fun _ _ => trivial).2 e₂
    (hrest ▸ List.mem_append_right _ List.mem_cons_self)

/-- The clock does not go back from one event of a run to a later one. -/
theorem OneClock.between
    (h : OneClock network (deviceHistory network pool queue devices commands))
    (hsplit : deviceHistory network pool queue devices commands = pre ++ e₁ :: (mid ++ e₂ :: post))
    {t₁ : Int} (h₁ : e₁.op.clock = some t₁) : t₁ ≤ network.clock e₂.before.net := by
  have hmem : e₁ ∈ deviceHistory network pool queue devices commands := by
    rw [hsplit]
    exact List.mem_append_right _ List.mem_cons_self
  rw [h.read e₁ hmem t₁ h₁]
  exact h.clock_le (later_of_split hsplit)

/-- A slot is released a window after its reservation, or later. -/
theorem released_after
    (h : OneClock network (deviceHistory network pool queue devices commands))
    (hsplit : deviceHistory network pool queue devices commands = pre ++ e₁ :: (mid ++ e₂ :: post))
    {m : MadeReservation} {released : Int} (hreserved : reservedIn e₁ = some m)
    (hreleased : Releasing pool e₂ m.reservation released) :
    e₁.op.clock = some m.now ∧ e₂.op.clock = some released ∧
      m.now + pool.sendWindowMs ≤ released := by
  rcases Async.history_cut _ hsplit with ⟨hevent₁, rest, hrest⟩
  rw [hevent₁] at hreserved
  rcases reservedIn_eq hreserved with ⟨c₁, hc₁, hmade⟩
  have hcall : c₁ = .call (.reserveSlot m.merchant m.now m.amount) := (made_eq hmade).1
  have hclock₁ : e₁.op.clock = some m.now := by
    rw [hc₁, hcall]
    rfl
  rcases exists_made hmade with ⟨_, _, hm⟩
  have hstart : Ledgers pool (fun _ => HeldSince pool m.reservation.index m.now)
      (fun _ => HeldSince pool m.reservation.index m.now) e₁.after.pool := by
    rw [hevent₁, hc₁]
    exact heldSince_of_made hm
  -- Every reading after the reservation is at least its own.
  have htime : ∀ e ∈ mid ++ e₂ :: post, ∀ now, e.op.clock = some now → m.now ≤ now := by
    intro e he now hnow
    rcases List.append_of_mem he with ⟨mid', post', hcut⟩
    have hcut' := hsplit.trans (by rw [hcut])
    rw [h.read e (hcut' ▸ List.mem_append_right _ (List.mem_cons_of_mem _ (List.mem_append_right _
      List.mem_cons_self))) now hnow]
    exact h.between hcut' hclock₁
  rw [hrest] at htime
  have he₂ : e₂ ∈ history (deviceStep network pool queue) e₁.after rest :=
    hrest ▸ List.mem_append_right mid List.mem_cons_self
  -- Until the release the slot is held since the reservation or later.
  have hbefore := (@Async.history_invariant _ _ _ (deviceStep network pool queue)
    (fun devices' => Ledgers pool (fun _ => HeldSince pool m.reservation.index m.now)
      (fun _ => HeldSince pool m.reservation.index m.now) devices'.pool)
    (fun e => ∀ now, e.op.clock = some now → m.now ≤ now)
    (fun _ _ h' hclock => heldSince_step h' hclock) e₁.after rest hstart htime).2 e₂ he₂
  have hafter : Ledgers pool (fun _ => HeldSince pool m.reservation.index m.now)
      (fun _ => HeldSince pool m.reservation.index m.now)
      (deviceStep network pool queue e₂.op e₂.before).2.pool :=
    heldSince_step hbefore (htime e₂ he₂)
  have hevent₂ := Async.eventAt_of_mem _ he₂
  rw [hevent₂] at hreleased
  rcases releasing_eq hreleased with ⟨c₂, hc₂, hreleases⟩
  rw [hc₂] at hafter
  refine ⟨hclock₁, ?_, ?_⟩
  · simp only [hc₂, DeviceCommand.clock, PoolCommand.clock]
    rw [show c₂.op = _ from hreleases.reconcile]
  · -- The release is of the ledger in memory, or of the one in the store.
    rcases hreleases.after with hin | hin
    · rcases hin with ⟨state, hstate, slot, hslot, hindex, hunspent, _, hat⟩
      exact (hafter.memory state hstate state hstate slot hslot hindex).2 hunspent released hat
    · rcases hin with ⟨state, hstate, slot, hslot, hindex, hunspent, _, hat⟩
      exact (hafter.store state hstate slot hslot hindex).2 hunspent released hat

end Runs

/-- A drain whose queue was expired at its time finds its windows open. -/
theorem openAt_drain {network : Network ρ} {pool : PoolConfig} {queue : QueueConfig}
    {devices : Devices ρ} {commands : List DeviceCommand}
    (hclock : OneClock network (deviceHistory network pool queue devices commands))
    (hexpired : ExpiredFirst network (deviceHistory network pool queue devices commands))
    (hwindow : 0 < queue.limits.sendWindowMs) {pre post : List (DeviceEvent ρ)}
    {e : DeviceEvent ρ} {key : CryptoKeyPair}
    (hsplit : deviceHistory network pool queue devices commands = pre ++ e :: post)
    (hop : e.op = .merchant (.drain key)) :
    OpenAt queue (network.clock e.before.net) e.before.queue.payments := by
  rcases hexpired pre e post key hsplit hop with ⟨earlier, x, between, rfl, hexpire, hbetween⟩
  have hcut : deviceHistory network pool queue devices commands
      = earlier ++ x :: (between ++ e :: post) := by
    rw [hsplit, List.append_assoc, List.cons_append]
  rcases Async.history_cut _ hcut with ⟨hevent, rest, hrest⟩
  have hx : x ∈ deviceHistory network pool queue devices commands := by
    rw [hcut]
    exact List.mem_append_right _ List.mem_cons_self
  have hstart : network.clock e.before.net ≤ network.clock x.after.net ∧
      OpenAt queue (network.clock e.before.net) x.after.queue.payments := by
    have hlater := hclock.clock_le (device_later network pool queue x.op x.before)
    have hread := hclock.read x hx (network.clock e.before.net) (by rw [hexpire]; rfl)
    rw [hevent, hexpire]
    rw [hexpire] at hlater
    exact ⟨Int.le_trans (Int.le_of_eq hread) hlater, openAt_expire x.before.merchant⟩
  rcases Async.history_split _ hrest.symm with ⟨ops, ops', _, hops, hlast⟩
  -- From the expiry to the drain every retried payment keeps its window open.
  have hkept := (@Async.history_invariant _ _ _ (deviceStep network pool queue)
    (fun devices' => network.clock e.before.net ≤ network.clock devices'.net ∧
      OpenAt queue (network.clock e.before.net) devices'.queue.payments)
    (fun y => y.op ≠ .merchant .load ∧ y.op ≠ .merchant .reopen) (fun command devices' h hne => by
      refine ⟨Int.le_trans h.1 (hclock.clock_le (device_later network pool queue command
        devices')), ?_⟩
      cases command with
      | payer c => exact h.2
      | merchant c =>
          exact @openAt_step _ network queue _ hclock.forward hwindow c devices'.merchant
            (fun hc => hne.1 (congrArg _ hc)) (fun hc => hne.2 (congrArg _ hc)) h.1 h.2)
    x.after ops hstart fun y hy => hbetween y (hops ▸ hy)).1
  cases ops' with
  | nil => cases hlast
  | cons op ops' =>
      rw [Async.history_cons, List.cons.injEq] at hlast
      rw [← hlast.1] at hkept ⊢
      exact hkept.2

/-- After a slot was released, the payments that are submitted have taken their
    time from its reservation to their acceptance, and it has not passed again. -/
theorem windows_nest (network : Network ρ) (pool : PoolConfig) (queue : QueueConfig)
    (devices : Devices ρ) (commands : List DeviceCommand)
    (hclock : OneClock network (deviceHistory network pool queue devices commands))
    (hexpired : ExpiredFirst network (deviceHistory network pool queue devices commands))
    (hwindow : queue.limits.sendWindowMs = pool.sendWindowMs) (hpositive : 0 < pool.sendWindowMs)
    {pre mid mid' post : List (DeviceEvent ρ)} {e₁ e₂ e₃ : DeviceEvent ρ} {m : MadeReservation}
    {released : Int}
    (hsplit : deviceHistory network pool queue devices commands
      = pre ++ e₁ :: (mid ++ e₂ :: (mid' ++ e₃ :: post)))
    (hreserved : reservedIn e₁ = some m) (hreleased : Releasing pool e₂ m.reservation released) :
    ∀ p ∈ submittedIn network queue e₃, m.now < p.acceptedAt ∧
      network.clock e₃.before.net - released < p.acceptedAt - m.now := by
  intro p hp
  rcases released_after hclock hsplit hreserved hreleased with ⟨_, hclock₂, hafter⟩
  have hsplit₂ : deviceHistory network pool queue devices commands
      = (pre ++ e₁ :: mid) ++ e₂ :: (mid' ++ e₃ :: post) := by
    rw [hsplit, List.append_assoc, List.cons_append]
  have hsplit₃ : deviceHistory network pool queue devices commands
      = ((pre ++ e₁ :: mid) ++ e₂ :: mid') ++ e₃ :: post := by
    rw [hsplit₂, List.append_assoc _ _ (e₃ :: post), List.cons_append]
  have hlater : released ≤ network.clock e₃.before.net := hclock.between hsplit₂ hclock₂
  rcases Async.history_cut _ hsplit₃ with ⟨hevent, _⟩
  rw [hevent] at hp
  -- What is submitted is in the queue then, and its window was still open.
  rcases submittedIn_eq hp with ⟨key, queued, hop, hmem, hretried, rfl⟩
  have hopen := (outlived_of_retried hretried).mp
    (openAt_drain hclock hexpired (by rwa [hwindow]) hsplit₃ hop queued hmem hretried)
  rw [hwindow] at hopen
  change m.now < queued.acceptedAt ∧ _ < queued.acceptedAt - m.now
  omega

/-- A number of hours on the clock. -/
def hours (n : Int) : Int := n * (60 * 60 * 1000)

/-- A network under which every wait takes six hours. -/
def slowNetwork : Network FakeRpc :=
  { fakeNetwork with tick := fun rpc => { rpc with clock := rpc.clock + hours 6 } }

/-- A slot is reserved at the twelfth hour, and the payment accepted at the
    24th. The pool is reconciled at the 36th, and the queue expired and drained after. -/
def slowRun : List DeviceCommand :=
  [.payer (.call (.create 1 (testKey 1))),
    .payer (.call (.reserveSlot (testAddress 2) (hours 12) 10)),
    .merchant (.accept (testPayment 0) .t2 10 none), .payer (.call .refresh),
    .payer (.call .refresh), .payer (.call (.reconcile (hours 36))),
    .merchant (.expire (hours 42)), .merchant (.drain (testKey 2))]

def slowStart : Devices FakeRpc where
  ledger := none
  payerStore := ∅
  queue := .empty
  merchantStore := ∅
  net := { setup := [testAccount 0 (testNonce 7)], balance := 1000000000 }

/-- The event of one of its commands. -/
def slowEvent (n : Fin 8) : DeviceEvent FakeRpc :=
  (deviceHistory slowNetwork testPool testQueue slowStart slowRun).get n

theorem oneClock_slowRun :
    OneClock slowNetwork (deviceHistory slowNetwork testPool testQueue slowStart slowRun) where
  forward := fun _ _ => clock_le_of_steps (by decide)
  read := fun e he now hnow => by
    have hall : ∀ e ∈ deviceHistory slowNetwork testPool testQueue slowStart slowRun,
        e.op.clock.all (fun now => now = slowNetwork.clock e.before.net) = true := by
      decide +kernel
    have := hall e he
    rw [hnow] at this
    exact of_decide_eq_true this

/-- The slot before it is released, and after. -/
def slowSlot (released : Bool) : PoolSlot :=
  { index := 0, address := (testAccount 0 (testNonce 7)).1, value := some (testNonce 7)
    state := if released then .unspent else .spent
    spentAgainst := if released then none else some ⟨testNonce 7, testAddress 2, hours 12⟩
    releasedAt := if released then some (hours 36) else none }

theorem releasing_slowRun : Releasing testPool (slowEvent 5) ⟨0, testNonce 7⟩ (hours 36) := by
  let e := eventAt (poolStep slowNetwork testPool) (.call (.reconcile (hours 36)))
    (slowEvent 5).before.pool
  have hbefore : (e.before.ledger testPool).map PoolState.slots = some [slowSlot false] := by
    decide +kernel
  have hafter : e.after.current.map PoolState.slots = some [slowSlot true] := by
    decide +kernel
  rcases Option.map_eq_some_iff.mp hbefore with ⟨state, hstate, hslots⟩
  rcases Option.map_eq_some_iff.mp hafter with ⟨state', hstate', hslots'⟩
  refine ⟨e, rfl, rfl, ⟨state, hstate, slowSlot false, ?_, _, rfl, rfl, rfl, rfl⟩,
    .inl ⟨state', hstate', slowSlot true, ?_, rfl, rfl, rfl, rfl⟩⟩
  · rw [hslots]
    exact List.mem_singleton_self _
  · rw [hslots']
    exact List.mem_singleton_self _

theorem expiredFirst_slowRun :
    ExpiredFirst slowNetwork
      (deviceHistory slowNetwork testPool testQueue slowStart slowRun) := by
  intro pre e post key hsplit hop
  have hlast : deviceHistory slowNetwork testPool testQueue slowStart slowRun
      = deviceHistory slowNetwork testPool testQueue slowStart (slowRun.take 7)
        ++ [slowEvent 7] := Async.history_append _ _ (slowRun.take 7) [_]
  rcases Async.snoc_split (hlast.symm.trans hsplit) with ⟨rfl, rfl, _⟩ | ⟨rest, _, hfirst⟩
  · -- The one drain of the run comes last, and the expiry stands right before it.
    have hexpire : deviceHistory slowNetwork testPool testQueue slowStart (slowRun.take 7)
        = deviceHistory slowNetwork testPool testQueue slowStart (slowRun.take 6)
          ++ [slowEvent 6] := Async.history_append _ _ (slowRun.take 6) [_]
    have hclock : slowNetwork.clock (slowEvent 7).before.net = hours 42 := by decide +kernel
    refine ⟨_, slowEvent 6, [], hexpire, ?_, fun _ h => absurd h List.not_mem_nil⟩
    rw [hclock]
    rfl
  · have hmem := Async.op_mem_of_mem _ (hfirst ▸ List.mem_append_right pre List.mem_cons_self)
    rw [hop] at hmem
    simp only [slowRun, List.take_succ_cons, List.take_zero, List.mem_cons, reduceCtorEq,
      DeviceCommand.merchant.injEq, List.not_mem_nil, or_self] at hmem

theorem windows_nest_slowRun : ∃ p ∈ submittedIn slowNetwork testQueue (slowEvent 7),
    hours 12 < p.acceptedAt ∧
      slowNetwork.clock (slowEvent 7).before.net - hours 36 < p.acceptedAt - hours 12 := by
  have hsubmitted : (submittedIn slowNetwork testQueue (slowEvent 7)).map
      (fun p => p.acceptedAt) = [hours 24] := by decide +kernel
  rcases List.map_eq_singleton_iff.mp hsubmitted with ⟨p, hp, _⟩
  have hmem : p ∈ submittedIn slowNetwork testQueue (slowEvent 7) :=
    hp ▸ List.mem_singleton_self p
  exact ⟨p, hmem, @windows_nest _ slowNetwork testPool testQueue slowStart slowRun
    oneClock_slowRun expiredFirst_slowRun rfl (by decide)
    [slowEvent 0] [slowEvent 2, slowEvent 3, slowEvent 4] [slowEvent 6] [] (slowEvent 1)
    (slowEvent 5) (slowEvent 7) ⟨testAddress 2, hours 12, 10, ⟨0, testNonce 7⟩⟩ (hours 36)
    rfl (by decide +kernel) releasing_slowRun p hmem⟩

/-- The payment was accepted after its slot was reserved, and is submitted six
    hours after the slot was released. -/
theorem submitted_after_release :
    OneClock slowNetwork (deviceHistory slowNetwork testPool testQueue slowStart slowRun) ∧
      ExpiredFirst slowNetwork
        (deviceHistory slowNetwork testPool testQueue slowStart slowRun) ∧
      testQueue.limits.sendWindowMs = testPool.sendWindowMs ∧
      reservedIn (slowEvent 1) = some ⟨testAddress 2, hours 12, 10, ⟨0, testNonce 7⟩⟩ ∧
      Releasing testPool (slowEvent 5) ⟨0, testNonce 7⟩ (hours 36) ∧
      slowNetwork.clock (slowEvent 7).before.net = hours 42 ∧
      (submittedIn slowNetwork testQueue (slowEvent 7)).map (fun p =>
        (p.payment.input.nonceRef, p.acceptedAt)) = [(some ⟨0, testNonce 7⟩, hours 24)] :=
  ⟨oneClock_slowRun, expiredFirst_slowRun, rfl, by decide +kernel, releasing_slowRun,
    by decide +kernel, by decide +kernel⟩

end Vadum
