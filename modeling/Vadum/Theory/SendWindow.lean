import Vadum.Client.FakeRpc
import Vadum.Theory.QueueRequests
import Vadum.Theory.QueueRuns

/-!
# The Send Window

When payments are submitted. A submission starts with a mark: `drain` writes
the payment as being submitted, and submits it if the store takes the write.
So the requests of a run say what was handed to `submit`, and when.

`drain` does not look at the clock. What keeps it inside the send window is
that `expire` voids whatever has outlived it first, and `drain` passes over
what is voided. Whoever drains without expiring submits payments whose window
is over, and `submitted_late` is the run of a shop that does: accepting a T0
payment drains the queue at once.

`submitted_in_window` looks at the payments before each drain. If while the
drain runs the clock never reads a time at which `expire` would void one that
is queued or failed, every submission is in time. A drain may take its time, and
a payment may be submitted while it still is; but if every submission is in
time, there is a moment of the drain at which `expire` would void none of them.
So where the clock stands still while a drain runs, that is exactly the
condition, and expiring right before brings it about.

## Main definitions

* `submissions`: What an event hands to `submit`, read from its requests.
* `InWindow`: Everything an event hands over is in time.
* `OpenAt`: A time at which `expire` would void no payment that is retried.
* `WindowsOpen`: No window that a drain depends on ends before the drain does.
* `ExpiredBefore`: Every drain comes right after an expire.

## Theorems

* `mem_submissions`: A submission is a payment's turn in a drain.
* `ordered_pairwise`: The oldest payment has its turn first.
* `submitted_in_window`: When all submissions of a run are in time.
* `submitted_late`: A run that submits a payment when its window is over.
-/

namespace Vadum

open Async (eventAt)
open Async.Process

variable {ρ : Type}

/-- The payment a request hands to `submit`, if it is one that does, with the
    network its submission finds. -/
def submission (network : Network ρ) : Req × World ρ → Option (QueuedPayment × ρ)
  | (.storeSet (.payment _) payment, w) =>
    if payment.state = .submitting ∧ (network.storage w.net).1.isNone then
      some (payment, (network.storage w.net).2)
    else none
  | _ => none

/-- What an event hands to `submit`, in order. -/
def submissions (network : Network ρ) (queue : QueueConfig) (e : QueueEvent ρ) :
    List (QueuedPayment × ρ) :=
  (requests (reply network) (e.op.process queue) e.before.vars e.before.world).filterMap
    (submission network)

/-- What an event hands to `submit` is handed over inside its send window. -/
def InWindow (network : Network ρ) (queue : QueueConfig) (e : QueueEvent ρ) : Prop :=
  ∀ p n, (p, n) ∈ submissions network queue e →
    network.clock n - p.acceptedAt < queue.limits.sendWindowMs

/-- At this time `expire` would void none of the payments that a drain retries. -/
def OpenAt (queue : QueueConfig) (now : Int) (payments : Payments) : Prop :=
  ∀ p ∈ payments.toList, p.state.retried = true → Queue.outlived queue now p = false

/-- A moment of the network from the start of an event to its end. -/
def Meanwhile (network : Network ρ) (e : QueueEvent ρ) (n : ρ) : Prop :=
  Later network e.before.world.net n ∧ Later network n e.after.world.net

/-- Until a drain ends, the clock reads no time at which `expire` would void one of
    the payments that were queued or failed when it began. -/
def WindowsOpen (network : Network ρ) (queue : QueueConfig) (e : QueueEvent ρ) : Prop :=
  ∀ key, e.op = .drain key → ∀ n, Meanwhile network e n →
    OpenAt queue (network.clock n) e.before.vars.payments

/-- Every drain comes right after an expire, for a time that the clock does not pass
    until the drain ends. -/
def ExpiredBefore (network : Network ρ) (events : List (QueueEvent ρ)) : Prop :=
  ∀ pre e post key, events = pre ++ e :: post → e.op = .drain key → ∃ earlier x now,
    pre = earlier ++ [x] ∧ x.op = .expire now ∧
      ∀ n, Meanwhile network e n → network.clock n ≤ now

/-- A request that marks no payment as being submitted. -/
def Req.Unmarking : Req → Prop
  | .storeSet (.payment _) payment => QueuedPayment.state payment ≠ .submitting
  | _ => True

theorem allows_unmarking : Allows Req.Unmarking where
  online := fun r hr => by
    cases r with
    | storeSet k v => cases hr
    | _ => trivial
  tick := trivial
  now := trivial
  storeGet := fun _ => trivial
  storeKeys := fun _ => trivial
  queueMeta := fun _ => trivial
  payment := fun _ h => h

/-- A process that marks nothing hands nothing over. -/
theorem submission_none (network : Network ρ) {α : Type} {p : QueueM α}
    (hp : Asks Req.Unmarking p) (vars : QueueVars) (w : World ρ) :
    (requests (reply network) p vars w).filterMap (submission network) = [] := by
  refine List.filterMap_eq_nil_iff.mpr fun entry hentry => ?_
  have hunmarked := asks_requests (reply network) hp hentry
  rcases entry with ⟨r, w'⟩
  cases r with
  | storeSet k v => cases k with
    | payment id => exact if_neg fun hand => hunmarked hand.1
    | _ => rfl
  | _ => rfl

section Drain

variable {network : Network ρ} {queue : QueueConfig} {key : CryptoKeyPair}

/-- A turn hands its payment over if the store takes the mark. -/
theorem submissions_drainOne (queued : QueuedPayment) (vars : QueueVars) (w : World ρ) :
    (requests (reply network) (Queue.drainOne queue key queued) vars w).filterMap
        (submission network)
      = if (network.storage w.net).1.isNone then [(marked queued, (network.storage w.net).2)]
        else [] := by
  -- The write that marks the payment is the one write of a marked payment.
  have hsave : (requests (reply network) (Queue.save (marked queued)) vars w).filterMap
      (submission network) = if (network.storage w.net).1.isNone then
        [(marked queued, (network.storage w.net).2)] else [] := by
    change (requests (reply network) (storeSet _ _) _ w).filterMap _ = _
    rw [storeSet, requests_request (I := client), List.filterMap_cons, submission]
    by_cases h : (network.storage w.net).1.isNone
    · rw [if_pos ⟨rfl, h⟩, if_pos h]
      rfl
    · rw [if_neg (fun hand => h hand.2), if_neg h]
      rfl
  unfold Queue.drainOne
  rw [requests_bind, List.filterMap_append]
  refine (congrArg₂ (· ++ ·) hsave ?_).trans (List.append_nil _)
  split
  · exact submission_none network
      (asks_submitted allows_unmarking.toAllowsLoaded queue key queued) _ _
  · rfl

/-- What a drain hands over has its turn in it. -/
theorem mem_submissions_drainPayments {payments : List QueuedPayment} {vars : QueueVars}
    {w : World ρ} {p : QueuedPayment} {n : ρ} :
    (p, n) ∈ (requests (reply network) (Queue.drainPayments queue key payments) vars w).filterMap
        (submission network) ↔
      ∃ earlier queued later outcomes vars' w', payments = earlier ++ queued :: later ∧
        queued.state.retried = true ∧
        run (reply network) (Queue.drainPayments queue key earlier) vars w
          = ⟨.ok outcomes, vars', w'⟩ ∧
        network.storage w'.net = (none, n) ∧ p = marked queued := by
  induction payments generalizing vars w with
  | nil =>
      constructor
      · exact fun h => absurd h List.not_mem_nil
      · rintro ⟨earlier, queued, later, _, _, _, heq, _⟩
        exact absurd heq (by simp only [List.nil_eq, List.append_eq_nil_iff, reduceCtorEq,
          and_false, not_false_eq_true])
  | cons first rest ih =>
      rcases hfirst : first.state.retried with _ | _
      -- Passed over: what is handed over has its turn in the rest.
      · rw [drainPayments_skip hfirst, ih]
        constructor
        · rintro ⟨earlier, queued, later, outcomes, vars', w', rfl, hretried, hrun, hrest⟩
          refine ⟨first :: earlier, queued, later, outcomes, vars', w', rfl, hretried, ?_, hrest⟩
          rw [drainPayments_skip hfirst, hrun]
        · rintro ⟨earlier, queued, later, outcomes, vars', w', heq, hretried, hrun, hrest⟩
          cases earlier with
          | nil =>
              rw [List.nil_append, List.cons.injEq] at heq
              rw [← heq.1, hfirst] at hretried
              cases hretried
          | cons first' earlier =>
              rw [List.cons_append, List.cons.injEq] at heq
              rw [← heq.1, drainPayments_skip hfirst] at hrun
              exact ⟨earlier, queued, later, outcomes, vars', w', heq.2, hretried, hrun, hrest⟩
      -- Retried: its own turn comes first, and the rest's if that does not throw.
      · rw [drainPayments_retried hfirst, requests_bind, List.filterMap_append,
          submissions_drainOne, List.mem_append]
        constructor
        · rintro (hmem | hmem)
          · rcases hstorage : network.storage w.net with ⟨_ | e, n'⟩
            · rw [hstorage] at hmem
              rcases Prod.mk.inj (List.mem_singleton.mp hmem) with ⟨rfl, rfl⟩
              exact ⟨[], first, rest, [], vars, w, rfl, hfirst, rfl, hstorage, rfl⟩
            · rw [hstorage] at hmem
              exact absurd hmem List.not_mem_nil
          · rcases hturn : run (reply network) (Queue.drainOne queue key first) vars w with
              ⟨e | o, vars₁, w₁⟩
            · rw [hturn] at hmem
              exact absurd hmem List.not_mem_nil
            · rw [hturn] at hmem
              simp only [requests_bind, List.filterMap_append, List.mem_append] at hmem
              rcases hmem with hmem | hmem
              · rcases ih.mp hmem with
                  ⟨earlier, queued, later, outcomes, vars', w', rfl, hretried, hrun, hrest⟩
                exact ⟨first :: earlier, queued, later, o :: outcomes, vars', w', rfl, hretried,
                  (drainPayments_eq_ok hfirst).mpr ⟨o, outcomes, vars₁, w₁, hturn, hrun, rfl⟩,
                  hrest⟩
              · split at hmem <;> exact absurd hmem List.not_mem_nil
        · rintro ⟨earlier, queued, later, outcomes, vars', w', heq, hretried, hrun, hstorage, hp⟩
          cases earlier with
          | nil =>
              left
              rw [List.nil_append, List.cons.injEq] at heq
              cases hrun
              rw [hstorage, hp, heq.1]
              exact List.mem_singleton_self _
          | cons first' earlier =>
              right
              rw [List.cons_append, List.cons.injEq] at heq
              rw [← heq.1] at hrun
              rcases (drainPayments_eq_ok hfirst).mp hrun with
                ⟨o, os, vars₁, w₁, hturn, hearlier, _⟩
              rw [hturn]
              simp only [requests_bind, List.filterMap_append, List.mem_append]
              exact .inl (ih.mpr ⟨earlier, queued, later, os, _, _, heq.2, hretried, hearlier,
                hstorage, hp⟩)

end Drain

/-- What an event hands to `submit` are the payments that have their turn in
    its drain. -/
theorem mem_submissions {network : Network ρ} {queue : QueueConfig} {command : QueueCommand}
    {sys : QueueSys ρ} {p : QueuedPayment} {n : ρ} :
    (p, n) ∈ submissions network queue (eventAt (queueStep network queue) command sys) ↔
      ∃ key queued, command = .drain key ∧ Turn network queue key sys queued n ∧
        p = marked queued := by
  -- No other command writes a payment as `submitting`.
  have hnone : Asks Req.Unmarking (command.process queue) → (∀ key, command ≠ .drain key) →
      ((p, n) ∈ submissions network queue (eventAt (queueStep network queue) command sys) ↔
        ∃ key queued, command = .drain key ∧ Turn network queue key sys queued n ∧
          p = marked queued) := by
    intro hasks hne
    constructor
    · intro hmem
      rw [submissions, eventAt, submission_none network hasks] at hmem
      exact absurd hmem List.not_mem_nil
    · rintro ⟨key, _, heq, _⟩
      exact absurd heq (hne key)
  cases command with
  | drain key =>
      rw [submissions, eventAt, QueueCommand.process, requests_map]
      change _ ∈ (requests _ (Queue.drainPayments queue key (Queue.ordered queue sys.vars)) _
        _).filterMap _ ↔ _
      rw [mem_submissions_drainPayments]
      constructor
      · rintro ⟨earlier, queued, later, outcomes, vars', w', hsplit, hretried, hrun, hstorage, rfl⟩
        exact ⟨key, queued, rfl,
          ⟨earlier, later, outcomes, vars', w', hsplit, hretried, hrun, hstorage⟩, rfl⟩
      · rintro ⟨key', queued, heq, ⟨earlier, later, outcomes, vars', w', hsplit, hretried, hrun,
          hstorage⟩, rfl⟩
        cases heq
        exact ⟨earlier, queued, later, outcomes, vars', w', hsplit, hretried, hrun, hstorage, rfl⟩
  | accept payment tier amount precheck =>
      exact hnone (asks_map _
        (asks_accept allows_unmarking.toAllowsLoaded queue payment tier amount precheck))
        fun _ => QueueCommand.noConfusion
  | expire now =>
      exact hnone (asks_map _ (asks_expire allows_unmarking.toAllowsLoaded queue now))
        fun _ => QueueCommand.noConfusion
  | load =>
      exact hnone (asks_map _ (asks_load allows_unmarking queue)) fun _ => QueueCommand.noConfusion
  | reopen =>
      exact hnone (asks_bind (asks_write _) fun _ => asks_map _ (asks_load allows_unmarking queue))
        fun _ => QueueCommand.noConfusion

/-- A payment that has its turn is one of those that are retried. -/
theorem Turn.retried {network : Network ρ} {queue : QueueConfig} {key : CryptoKeyPair}
    {sys : QueueSys ρ} {queued : QueuedPayment} {n : ρ}
    (h : Turn network queue key sys queued n) :
    queued ∈ sys.vars.payments.toList ∧ queued.state.retried = true := by
  rcases h with ⟨earlier, later, _, _, _, hordered, hretried, _⟩
  refine ⟨(@mem_ordered queue _ _).mp ?_, hretried⟩
  rw [hordered]
  exact List.mem_append_right _ List.mem_cons_self

/-- For a payment that is retried, to have outlived its window is a matter of
    time alone. -/
theorem outlived_of_retried {queue : QueueConfig} {queued : QueuedPayment} {now : Int}
    (h : queued.state.retried = true) : Queue.outlived queue now queued = false ↔
      now - queued.acceptedAt < queue.limits.sendWindowMs := by
  have hopen : queued.state ≠ .settled ∧ queued.state ≠ .voided := by
    cases hstate : queued.state <;> rw [hstate] at h <;> cases h <;>
      exact ⟨PaymentState.noConfusion, PaymentState.noConfusion⟩
  simp only [Queue.outlived, decide_eq_false_iff_not, hopen, ne_eq, not_false_eq_true, true_and,
    ge_iff_le]
  exact Int.not_le

/-- Insertion keeps a list sorted by a number that the relation does not go against. -/
theorem pairwise_orderedInsert {α : Type} {r : α → α → Prop} [DecidableRel r] {f : α → Int}
    (hlater : ∀ a b, r a b → f a ≤ f b) (hearlier : ∀ a b, ¬ r a b → f b ≤ f a) (a : α)
    {l : List α} (h : l.Pairwise fun a b => f a ≤ f b) :
    (l.orderedInsert r a).Pairwise fun a b => f a ≤ f b := by
  induction l with
  | nil => exact List.pairwise_singleton _ _
  | cons b l ih =>
      rcases List.pairwise_cons.mp h with ⟨hfirst, hrest⟩
      rw [List.orderedInsert]
      split
      · next hbefore =>
        refine List.pairwise_cons.mpr ⟨fun c hc => ?_, h⟩
        rcases List.mem_cons.mp hc with rfl | hc
        · exact hlater _ _ hbefore
        · exact (hlater _ _ hbefore).trans (hfirst c hc)
      · next hbefore =>
        refine List.pairwise_cons.mpr ⟨fun c hc => ?_, ih hrest⟩
        rcases (List.mem_orderedInsert r).mp hc with rfl | hc
        · exact hearlier _ _ hbefore
        · exact hfirst c hc

/-- The payments are sorted by their times: where these are equal the keys decide. -/
theorem ordered_pairwise (queue : QueueConfig) (vars : QueueVars) :
    (Queue.ordered queue vars).Pairwise fun a b => a.acceptedAt ≤ b.acceptedAt := by
  unfold Queue.ordered
  induction vars.payments.toList with
  | nil => exact .nil
  | cons p payments ih =>
      refine pairwise_orderedInsert (fun a b h => ?_) (fun a b h => ?_) p ih
      · exact h.elim le_of_lt fun h => h.1.le
      · exact not_lt.mp fun hlt => h (.inl hlt)

/-- A submission is made while its event happens. -/
theorem submission_meanwhile {network : Network ρ} {queue : QueueConfig} {command : QueueCommand}
    {sys : QueueSys ρ} {p : QueuedPayment} {n : ρ}
    (h : (p, n) ∈ submissions network queue (eventAt (queueStep network queue) command sys)) :
    Meanwhile network (eventAt (queueStep network queue) command sys) n := by
  rcases List.mem_filterMap.mp h with ⟨⟨r, w⟩, hmem, hsubmission⟩
  rcases requests_later network hmem with ⟨hbefore, hafter⟩
  cases r with
  | storeSet k v => cases k with
    | payment id =>
        rw [submission] at hsubmission
        split at hsubmission
        · next htaken =>
          cases hsubmission
          rcases hstorage : network.storage w.net with ⟨_ | e, n'⟩
          · simp only [reply, hstorage] at hafter
            refine ⟨hbefore.tail ⟨.storeSet (.payment id) p, w, rfl, ?_⟩, hafter⟩
            simp only [reply, hstorage]
          · rw [hstorage] at htaken
            cases htaken.2
        · cases hsubmission
    | _ => cases hsubmission
  | _ => cases hsubmission

/-- Where nothing that is retried comes to its end, every submission is in time. -/
theorem inWindow_of_open {network : Network ρ} {queue : QueueConfig} {command : QueueCommand}
    {sys : QueueSys ρ}
    (hopen : WindowsOpen network queue (eventAt (queueStep network queue) command sys)) :
    InWindow network queue (eventAt (queueStep network queue) command sys) := by
  intro p n hmem
  have hwhile := submission_meanwhile hmem
  rcases mem_submissions.mp hmem with ⟨key, queued, rfl, hturn, rfl⟩
  exact (outlived_of_retried hturn.retried.2).mp
    (hopen key rfl n hwhile queued hturn.retried.1 hturn.retried.2)

/-- Where every submission is in time, the oldest payment is, and then there is a
    moment at which all are. -/
theorem open_of_inWindow {network : Network ρ} (hs : StorageWorks network) {queue : QueueConfig}
    {key : CryptoKeyPair} {sys : QueueSys ρ}
    (htimely : InWindow network queue (eventAt (queueStep network queue) (.drain key) sys)) :
    ∃ n, Meanwhile network (eventAt (queueStep network queue) (.drain key) sys) n ∧
      OpenAt queue (network.clock n) sys.vars.payments := by
  rcases hfirst : (Queue.ordered queue sys.vars).find? fun p => p.state.retried with _ | first
  -- The oldest payment that is retried is the first to be submitted.
  · -- Nothing is retried.
    refine ⟨sys.world.net, ⟨.refl, run_later network _ sys.vars sys.world⟩, fun p hp hretried => ?_⟩
    exact absurd hretried (List.find?_eq_none.mp hfirst p (mem_ordered.mpr hp))
  · rcases List.find?_eq_some_iff_append.mp hfirst with ⟨hretried, earlier, later, hsplit, hnone⟩
    have hearlier : run (reply network) (Queue.drainPayments queue key earlier) sys.vars sys.world
        = ⟨.ok [], sys.vars, sys.world⟩ := by
      clear hsplit hfirst
      induction earlier with
      | nil => rfl
      | cons p earlier ih =>
          have hp : (!p.state.retried) = true := hnone p List.mem_cons_self
          rw [drainPayments_skip (Bool.not_eq_true' _ ▸ hp)]
          exact ih (fun q hq => hnone q (List.mem_cons_of_mem _ hq))
    have hturn : Turn network queue key sys first (network.storage sys.world.net).2 :=
      ⟨earlier, later, [], sys.vars, sys.world, hsplit, hretried, hearlier,
        storage_eq hs sys.world.net⟩
    have hmem := mem_submissions.mpr ⟨key, first, rfl, hturn, rfl⟩
    refine ⟨_, submission_meanwhile hmem, fun p hp hp' => (outlived_of_retried hp').mpr ?_⟩
    have hfirstOpen := htimely _ _ hmem
    -- Every other that is retried was accepted later.
    have hle : first.acceptedAt ≤ p.acceptedAt := by
      have hordered := ordered_pairwise queue sys.vars
      have hp := (@mem_ordered queue _ _).mpr hp
      rw [hsplit] at hordered hp
      rcases List.mem_append.mp hp with hp | hp
      · exact absurd (hnone p hp) (by simp only [hp', Bool.not_true, Bool.false_eq_true,
          not_false_eq_true])
      · rcases List.mem_cons.mp hp with rfl | hp
        · exact le_rfl
        · exact List.rel_of_pairwise_cons (List.pairwise_append.mp hordered).2.1 hp
    change network.clock _ - first.acceptedAt < _ at hfirstOpen
    omega

/-- Expiring leaves nothing to a drain whose window is over. -/
theorem openAt_expire {network : Network ρ} {queue : QueueConfig} {now : Int} (sys : QueueSys ρ) :
    OpenAt queue now (queueStep network queue (.expire now) sys).2.vars.payments := by
  intro p hp hretried
  rcases run_expire queue now sys.vars sys.world with ⟨w', hrun, _⟩
  rw [step_of_run rfl hrun] at hp
  have hget := Payments.mem_iff_get.mp hp
  rw [get_foldl_expired] at hget
  rcases hq : sys.vars.payments.get p.id with _ | q
  · rw [hq] at hget
    cases hget
  · rw [hq, Option.map_some, Option.some.injEq] at hget
    by_cases hout : Queue.outlived queue now q = true
    · rw [if_pos hout] at hget
      rw [← hget] at hretried
      cases hretried
    · rw [if_neg hout] at hget
      exact hget ▸ eq_false_of_ne_true hout

/-- A window that is open was open before. -/
theorem OpenAt.earlier {queue : QueueConfig} {now now' : Int} {payments : Payments}
    (h : OpenAt queue now payments) (hle : now' ≤ now) : OpenAt queue now' payments := by
  intro p hp hretried
  have := (outlived_of_retried hretried).mp (h p hp hretried)
  exact (outlived_of_retried hretried).mpr (by omega)

/-- Every payment of a run is submitted inside its send window, if before each drain
    the ledger has none whose window ends before the drain does, and only if it has
    none whose window was over all the while; expiring right before sees to it. -/
theorem submitted_in_window (network : Network ρ) (queue : QueueConfig) (sys : QueueSys ρ)
    (commands : List QueueCommand) :
    let events := queueHistory network queue sys commands
    ((∀ e ∈ events, WindowsOpen network queue e) → ∀ e ∈ events, InWindow network queue e) ∧
    (StorageWorks network → (∀ e ∈ events, InWindow network queue e) →
      ∀ e ∈ events, ∀ key, e.op = .drain key → ∃ n, Meanwhile network e n ∧
        OpenAt queue (network.clock n) e.before.vars.payments) ∧
    (ExpiredBefore network events → ∀ e ∈ events, WindowsOpen network queue e) := by
  intro events
  refine ⟨fun hopen e he => ?_, fun hs htimely e he key hop => ?_,
    fun hexpired e he key hop n hn => ?_⟩
  · have hevent := Async.eventAt_of_mem _ he
    have := hopen e he
    rw [hevent] at this ⊢
    exact inWindow_of_open this
  · have hevent := Async.eventAt_of_mem _ he
    have := htimely e he
    rw [hop] at hevent
    rw [hevent] at this ⊢
    exact open_of_inWindow hs this
  · rcases List.append_of_mem he with ⟨pre, post, hsplit⟩
    rcases hexpired pre e post key hsplit hop with ⟨earlier, x, now, rfl, hx, hclock⟩
    rw [List.append_assoc, List.singleton_append] at hsplit
    rcases Async.history_cut _ hsplit with ⟨hevent, rest, hrest⟩
    -- The drain starts where the expire has left the queue.
    cases rest with
    | nil => cases hrest
    | cons op rest =>
        rw [Async.history_cons, List.cons.injEq] at hrest
        have hbefore : e.before = (queueStep network queue (.expire now) x.before).2 := by
          rw [hrest.1, ← hx]
          exact congrArg Async.Event.after hevent
        rw [hbefore]
        exact (openAt_expire x.before).earlier (hclock n hn)

/-- A clock that only waiting moves on never goes back. -/
theorem clock_le_of_steps {t : Int} (ht : 0 ≤ t) {rpc rpc' : FakeRpc}
    (h : Steps { fakeNetwork with tick := fun rpc => { rpc with clock := rpc.clock + t } }
      rpc rpc') :
    rpc.clock ≤ rpc'.clock := by
  rcases h with ⟨r, w, rfl, rfl⟩
  cases r with
  | tick => exact Int.le_add_of_nonneg_right ht
  | rpc c => exact Int.le_of_eq (answer_clock c w.net).symm
  | _ => exact Int.le_refl _

/-- A network under which a day goes by before each payment is accepted. -/
def dayNetwork : Network FakeRpc :=
  { fakeNetwork with tick := fun rpc => { rpc with clock := rpc.clock + 24 * 60 * 60 * 1000 } }

/-- A T2 payment waits for the network. A day later a T0 payment is accepted,
    and the queue is drained at once. -/
def counterRun : List QueueCommand :=
  [.accept (testPayment 0) .t2 10 none, .accept (testPayment 1) .t0 10 none, .drain (testKey 2)]

/-- The drain submits the old payment first, a whole send window after it was
    accepted. -/
theorem submitted_late :
    (queueHistory dayNetwork testQueue ⟨.empty, ∅, {}⟩ counterRun).map (fun e =>
      (submissions dayNetwork testQueue e).map fun s =>
        (s.1.payment.input.nonceRef.map NonceRef.index, dayNetwork.clock s.2 - s.1.acceptedAt))
      = [[], [], [(some 0, testQueue.limits.sendWindowMs), (some 1, 0)]] := by
  decide +kernel

/-- The same, but the queue is expired before it is drained. -/
def expiredRun : List QueueCommand :=
  [.accept (testPayment 0) .t2 10 none, .accept (testPayment 1) .t0 10 none,
    .expire (2 * (24 * 60 * 60 * 1000)), .drain (testKey 2)]

/-- The event of one of its commands. -/
def expiredEvent (n : Fin 4) : QueueEvent FakeRpc :=
  (queueHistory dayNetwork testQueue ⟨.empty, ∅, {}⟩ expiredRun).get n

theorem expiredBefore_expiredRun :
    ExpiredBefore dayNetwork (queueHistory dayNetwork testQueue ⟨.empty, ∅, {}⟩ expiredRun) := by
  intro pre e post key hsplit hop
  have hlast : queueHistory dayNetwork testQueue ⟨.empty, ∅, {}⟩ expiredRun
      = [expiredEvent 0, expiredEvent 1, expiredEvent 2] ++ [expiredEvent 3] := rfl
  rcases Async.snoc_split (hlast.symm.trans hsplit) with ⟨rfl, rfl, _⟩ | ⟨rest, _, hfirst⟩
  · -- The clock stands still while the queue is drained.
    refine ⟨[expiredEvent 0, expiredEvent 1], expiredEvent 2, _, rfl, rfl, fun n hn => ?_⟩
    have hclock : (expiredEvent 3).after.world.net.clock = 2 * (24 * 60 * 60 * 1000) := by
      decide +kernel
    exact hclock ▸ clock_le_of_later (fun _ _ => clock_le_of_steps (by decide)) hn.2
  · have hmem : e ∈ [expiredEvent 0, expiredEvent 1, expiredEvent 2] :=
      hfirst ▸ List.mem_append_right pre List.mem_cons_self
    simp only [List.mem_cons, List.not_mem_nil, or_false] at hmem
    rcases hmem with rfl | rfl | rfl <;> cases hop

/-- The old payment is voided, and the new one submitted in time. -/
theorem submitted_in_window_expired :
    (∀ e ∈ queueHistory dayNetwork testQueue ⟨.empty, ∅, {}⟩ expiredRun,
      InWindow dayNetwork testQueue e) ∧
    (submissions dayNetwork testQueue (expiredEvent 3)).map (fun s =>
      (s.1.payment.input.nonceRef.map NonceRef.index, dayNetwork.clock s.2 - s.1.acceptedAt))
      = [(some 1, 0)] :=
  have run := submitted_in_window dayNetwork testQueue ⟨.empty, ∅, {}⟩ expiredRun
  ⟨run.1 (run.2.2 expiredBefore_expiredRun), by decide +kernel⟩

end Vadum
