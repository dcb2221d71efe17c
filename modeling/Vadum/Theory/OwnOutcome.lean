import Vadum.Apps.Merchant
import Vadum.Client.FakeRpc
import Vadum.Theory.QueueRuns

/-!
# The Outcome of a T0 Sale

In tier T0 the merchant hands over once the chain has settled the payment. The
app queues it, drains the queue and declares the outcome of the drain that came
last, as if the newest payment were the last to be submitted.

A drain submits everything that is still queued or has failed, in the order of
the clock readings, and of the keys where two readings agree. So the last
outcome is the new payment's own exactly if nothing the drain retries sorts
after it. A clock that went back puts an older payment after it, and the sale
is declared settled on the older one's outcome.

## Main definitions

* `drainTurns`: The turns of a drain, each with the outcome of its submission.
* `SortsBefore`: The order of a drain.
* `DeclaresOwn`: The outcome a sale declares is that of its own submission.

## Theorems

* `getLast?_sorted_iff`: When the newest entry is the last of a sorted list.
* `outcomes_eq_drainTurns`: What a drain returns.
* `declaresOwn_iff`: When a T0 sale declares its own outcome.
* `settled_on_another`: A failed sale is declared settled.
-/

namespace Vadum

open Async.Process

section Sorting

variable {α : Type} {r : α → α → Prop} [DecidableRel r]

/-- Two entries of a list without duplicates stand in one order only. -/
theorem eq_of_pair_sublist {l : List α} {a b : α} (hnodup : l.Nodup) (hab : [a, b].Sublist l)
    (hba : [b, a].Sublist l) : a = b := by
  induction l with
  | nil => cases hab
  | cons x l ih =>
      rw [List.nodup_cons] at hnodup
      cases hab with
      | cons _ hab =>
          cases hba with
          | cons _ hba => exact ih hnodup.2 hab hba
          | cons_cons _ hba =>
              exact absurd (hab.subset (List.mem_cons_of_mem _ List.mem_cons_self)) hnodup.1
      | cons_cons _ hab =>
          cases hba with
          | cons _ hba =>
              exact absurd (hba.subset (List.mem_cons_of_mem _ List.mem_cons_self)) hnodup.1
          | cons_cons _ hba => rfl

/-- The newest entry of a list is the last of those that count, once the list is
    sorted, exactly if all of those sort before it or with it. Entries that sort
    together stay in their order. -/
theorem getLast?_sorted_iff [Std.Total r] [IsTrans α r] {c : α → Bool} {l : List α} {p : α}
    (hnodup : (l ++ [p]).Nodup) (hp : c p = true) :
    (((l ++ [p]).insertionSort r).filter c).getLast? = some p ↔
      ∀ q ∈ l, c q = true → r q p := by
  set sorted := (l ++ [p]).insertionSort r with hsorted
  have hmem (q : α) : q ∈ sorted.filter c ↔ q ∈ l ++ [p] ∧ c q = true := by
    rw [List.mem_filter, hsorted, List.mem_insertionSort]
  have hpairwise : (sorted.filter c).Pairwise r :=
    (List.pairwise_insertionSort r (l ++ [p])).sublist List.filter_sublist
  have hlast : p ∈ sorted.filter c :=
    (hmem p).mpr ⟨List.mem_append_right _ List.mem_cons_self, hp⟩
  rcases List.eq_nil_or_concat' (sorted.filter c) with hnil | ⟨init, x, hinit⟩
  · rw [hnil] at hlast
    exact absurd hlast List.not_mem_nil
  rw [hinit] at hpairwise hlast ⊢
  rw [List.getLast?_concat, Option.some.injEq]
  rw [List.pairwise_append] at hpairwise
  constructor
  · rintro rfl q hq hc
    have hq' := (hmem q).mpr ⟨List.mem_append_left _ hq, hc⟩
    rw [hinit] at hq'
    rcases List.mem_append.mp hq' with hq' | hq'
    · exact hpairwise.2.2 q hq' x List.mem_cons_self
    · rw [List.mem_singleton.mp hq']
      exact (Std.Total.total x x).elim id id
  · intro h
    rcases List.mem_append.mp hlast with hinner | hx
    · have hx : x ∈ l ++ [p] ∧ c x = true :=
        (hmem x).mp (hinit ▸ List.mem_append_right _ List.mem_cons_self)
      rcases List.mem_append.mp hx.1 with hxl | hxp
      · -- Both orders of the two occur: the sort keeps the one they had.
        have hfirst : [x, p].Sublist sorted :=
          List.pair_sublist_insertionSort (h x hxl hx.2)
            ((List.singleton_sublist.mpr hxl).append (List.Sublist.refl [p]))
        have hsecond : [p, x].Sublist sorted := by
          refine List.Sublist.trans ?_ (List.filter_sublist (p := c))
          rw [hinit]
          exact (List.singleton_sublist.mpr hinner).append (List.Sublist.refl [x])
        exact eq_of_pair_sublist ((List.perm_insertionSort r _).nodup_iff.mpr hnodup) hfirst hsecond
      · exact List.mem_singleton.mp hxp
    · exact (List.mem_singleton.mp hx).symm

end Sorting

variable {ρ : Type}

section Turns

variable (network : Network ρ) (queue : QueueConfig) (key : CryptoKeyPair)

/-- The turns of a drain of the given payments, each with the outcome of its
    submission. A turn that throws ends the drain. -/
def drainTurns : List QueuedPayment → QueueVars → World ρ → List (QueuedPayment × SubmitOutcome)
  | [], _, _ => []
  | queued :: rest, vars, w =>
    if queued.state.retried then
      let turn := run (reply network) (Queue.drainOne queue key queued) vars w
      match turn.result with
      | .ok outcome => (queued, outcome) :: drainTurns rest turn.vars turn.world
      | .error _ => []
    else drainTurns rest vars w

variable {network queue key}

/-- A drain that ends returns the outcomes of its turns, one for every payment
    it retries. -/
theorem outcomes_eq_drainTurns {payments : List QueuedPayment} {vars : QueueVars} {w : World ρ}
    {outcomes : List SubmitOutcome}
    (h : (run (reply network) (Queue.drainPayments queue key payments) vars w).result
      = .ok outcomes) :
    (drainTurns network queue key payments vars w).map Prod.snd = outcomes ∧
      (drainTurns network queue key payments vars w).map Prod.fst
        = payments.filter fun queued => queued.state.retried := by
  induction payments generalizing vars w outcomes with
  | nil =>
      cases h
      exact ⟨rfl, rfl⟩
  | cons first rest ih =>
      rcases hfirst : first.state.retried with _ | _
      · rw [drainPayments_skip hfirst] at h
        simp only [drainTurns, List.filter_cons, hfirst, Bool.false_eq_true, if_false]
        exact ih h
      · rcases hrun : run (reply network) (Queue.drainPayments queue key (first :: rest)) vars w
          with ⟨x, vars', w'⟩
        rw [hrun] at h
        subst h
        rcases (drainPayments_eq_ok hfirst).mp hrun with ⟨o, later, vars₁, w₁, hturn, hrest, rfl⟩
        rcases ih (congrArg Async.Outcome.result hrest) with ⟨hsnd, hfst⟩
        simp only [drainTurns, List.filter_cons, hfirst, if_true, hturn]
        exact ⟨congrArg (o :: ·) hsnd, congrArg (first :: ·) hfst⟩

end Turns

/-- The order of a drain: by time, then by key. -/
def SortsBefore (queue : QueueConfig) (a b : QueuedPayment) : Prop :=
  a.acceptedAt < b.acceptedAt ∨
    a.acceptedAt = b.acceptedAt ∧ queue.localeCompare a.id b.id = true

instance (queue : QueueConfig) : DecidableRel (SortsBefore queue) := fun a b =>
  inferInstanceAs (Decidable (a.acceptedAt < b.acceptedAt ∨
    a.acceptedAt = b.acceptedAt ∧ queue.localeCompare a.id b.id = true))

section Order

variable {queue : QueueConfig}

theorem sortsBefore_total (htotal : ∀ a b, queue.localeCompare a b ∨ queue.localeCompare b a) :
    Std.Total (SortsBefore queue) where
  total := fun a b => by
    rcases lt_trichotomy a.acceptedAt b.acceptedAt with hlt | heq | hgt
    · exact .inl (.inl hlt)
    · exact (htotal a.id b.id).imp (fun h => .inr ⟨heq, h⟩) (fun h => .inr ⟨heq.symm, h⟩)
    · exact .inr (.inl hgt)

theorem sortsBefore_trans (htrans : ∀ a b c, queue.localeCompare a b → queue.localeCompare b c →
    queue.localeCompare a c) : IsTrans QueuedPayment (SortsBefore queue) where
  trans := fun a b c hab hbc => by
    rcases hab with hab | ⟨hab, hab'⟩
    · rcases hbc with hbc | ⟨hbc, _⟩
      · exact .inl (hab.trans hbc)
      · exact .inl (hbc ▸ hab)
    · rcases hbc with hbc | ⟨hbc, hbc'⟩
      · exact .inl (hab ▸ hbc)
      · exact .inr ⟨hab.trans hbc, htrans _ _ _ hab' hbc'⟩

/-- A payment under a free key goes to the end. -/
theorem put_of_free {payment : QueuedPayment} {payments : List QueuedPayment}
    (h : ∀ q ∈ payments, q.id ≠ payment.id) : Payments.put payment payments
      = payments ++ [payment] := by
  induction payments with
  | nil => rfl
  | cons other rest ih =>
      rw [Payments.put, if_neg (h other List.mem_cons_self),
        ih fun q hq => h q (List.mem_cons_of_mem _ hq)]
      rfl

end Order

/-- The outcome a T0 sale declares is that of the payment's own submission: the
    payment's turn is the last of the drain, and its outcome is declared. -/
def DeclaresOwn (network : Network ρ) (queue : QueueConfig) (key : CryptoKeyPair)
    (payment : VerifiedPayment) (amount : Int) (vars : QueueVars) (w : World ρ)
    (sale : MerchantApp.Sale) : Prop :=
  let o := run (reply network) (Queue.accept queue payment .t0 amount none) vars w
  ∃ p outcome, o.result = .ok p ∧ sale = .settlement (some outcome) ∧
    (drainTurns network queue key (Queue.ordered queue o.vars) o.vars o.world).getLast?
      = some (p, outcome)

section Sale

variable {network : Network ρ} {queue : QueueConfig} {key : CryptoKeyPair}
  {payment : VerifiedPayment} {amount : Int} {vars : QueueVars} {w : World ρ}

/-- A sale that is declared was admitted and stored, and its drain ended. -/
theorem sale_declared {sale : MerchantApp.Sale}
    (h : (run (reply network) (MerchantApp.accept queue key .t0 payment amount) vars w).result
      = .ok sale) :
    let p := acceptedAs queue.kit payment .t0 amount (network.clock (network.tick w.net))
    let vars' := { vars with payments := vars.payments.set p }
    vars.payments.get p.id = none ∧ ∃ w' outcomes,
      run (reply network) (Queue.accept queue payment .t0 amount none) vars w
        = ⟨.ok p, vars', w'⟩ ∧
      (run (reply network) (Queue.drainPayments queue key (Queue.ordered queue vars')) vars'
        w').result = .ok outcomes ∧ sale = .settlement outcomes.getLast? := by
  intro p vars'
  have haccept := @run_accept_save _ network queue payment .t0 amount none vars w
  rw [MerchantApp.accept, if_pos rfl] at h
  rcases hchecks : Queue.acceptChecks queue vars payment .t0 amount none with e | ⟨⟩
  · rw [hchecks] at haccept
    rw [run_bind_error _ haccept] at h
    cases h
  rw [hchecks] at haccept
  -- The sale is accepted only if its write passed, and then it is drained.
  rcases hstorage : network.storage (network.tick w.net) with ⟨_ | e, n⟩
  · have hsaved := haccept.trans (run_bind_ok _ (run_save network vars _ hstorage p))
    rw [run_bind_ok _ hsaved, run_bind, Queue.drain, run_bind_ok _ (run_read _ _ _)] at h
    refine ⟨get_of_acceptChecks queue hchecks, ⟨w.store.insert (.payment p.id) p, n⟩, ?_⟩
    rcases hdrain : (run (reply network) (Queue.drainPayments queue key
        (Queue.ordered queue vars')) vars' ⟨w.store.insert (.payment p.id) p, n⟩).result
      with e | outcomes
    · rw [hdrain] at h
      cases h
    · rw [hdrain] at h
      cases h
      exact ⟨outcomes, hsaved, rfl, rfl⟩
  · have hrefused := haccept.trans (run_bind_error _ (run_save_refused network vars _ hstorage p))
    rw [run_bind_error _ hrefused] at h
    cases h

/-- A T0 sale declares its own outcome exactly if everything the drain retries
    sorts before the new payment. -/
theorem declaresOwn_iff (htotal : ∀ a b, queue.localeCompare a b ∨ queue.localeCompare b a)
    (htrans : ∀ a b c, queue.localeCompare a b → queue.localeCompare b c →
      queue.localeCompare a c) {sale : MerchantApp.Sale}
    (h : (run (reply network) (MerchantApp.accept queue key .t0 payment amount) vars w).result
      = .ok sale) :
    DeclaresOwn network queue key payment amount vars w sale ↔
      ∀ q ∈ vars.payments.toList, q.state.retried = true → SortsBefore queue q
        (acceptedAs queue.kit payment .t0 amount (network.clock (network.tick w.net))) := by
  rcases sale_declared h with ⟨hfree, w', outcomes, haccept, hdrain, rfl⟩
  simp only [DeclaresOwn, haccept]
  set p := acceptedAs queue.kit payment .t0 amount (network.clock (network.tick w.net))
  set vars' : QueueVars := { vars with payments := vars.payments.set p }
  rcases outcomes_eq_drainTurns hdrain with ⟨hsnd, hfst⟩
  -- Its id was free, so it stands last among the payments.
  have hput : vars'.payments.toList = vars.payments.toList ++ [p] :=
    put_of_free fun q hq hid => by
      rw [← hid, Payments.mem_iff_get.mp hq] at hfree
      cases hfree
  have hnodup : (vars.payments.toList ++ [p]).Nodup := by
    rw [← hput]
    exact .of_map _ vars'.payments.nodup
  have hsorted : Queue.ordered queue vars'
      = (vars.payments.toList ++ [p]).insertionSort (SortsBefore queue) := by
    rw [← hput]
    rfl
  have := sortsBefore_total htotal
  have := sortsBefore_trans htrans
  rw [← getLast?_sorted_iff hnodup (show p.state.retried = true from rfl), ← hsorted, ← hfst,
    List.getLast?_map]
  constructor
  · rintro ⟨p', outcome, hp', _, hlast⟩
    cases hp'
    rw [hlast]
    rfl
  · intro hlast
    rcases Option.map_eq_some_iff.mp hlast with ⟨⟨p', outcome⟩, hlast, hp'⟩
    change p' = p at hp'
    rw [hp'] at hlast
    refine ⟨p, outcome, rfl, ?_, hlast⟩
    rw [← hsnd, List.getLast?_map, hlast]
    rfl

end Sale

theorem localeCompare_total (a b : PaymentId) :
    testQueue.localeCompare a b ∨ testQueue.localeCompare b a := by
  simp only [testQueue, decide_eq_true_eq]
  exact List.le_total _ _

theorem localeCompare_trans (a b c : PaymentId) (hab : testQueue.localeCompare a b)
    (hbc : testQueue.localeCompare b c) : testQueue.localeCompare a c := by
  simp only [testQueue, decide_eq_true_eq] at hab hbc ⊢
  exact List.le_trans hab hbc

/-- A queue with one payment, accepted at 100, whose submission has failed. -/
def onceFailed : QueueVars where
  payments :=
    { toList := [{ acceptedAs testKit (testPayment 1) .t2 10 100 with
        state := .failed, attempts := 1 }]
      nodup := List.nodup_singleton _ }
  consecutiveFailedSends := 0

/-- The clock stands at some reading, and the connection drops once. -/
def droppingAt (clock : Int) : World FakeRpc :=
  ⟨∅, { clock, sendPayment := [.error (.error "TypeError" "fetch failed" none)] }⟩

/-- A new payment, sold in tier T0. -/
def soldAt (clock : Int) : Async.Outcome QueueVars Thrown (World FakeRpc) MerchantApp.Sale :=
  run (reply fakeNetwork) (MerchantApp.accept testQueue (testKey 2) .t0 (testPayment 0) 10)
    onceFailed (droppingAt clock)

/-- While the clock goes on, the older payment is submitted first, and the sale
    declares its own outcome. -/
theorem declaresOwn_later :
    ∃ sale, (soldAt 150).result = .ok sale ∧
      DeclaresOwn fakeNetwork testQueue (testKey 2) (testPayment 0) 10 onceFailed
        (droppingAt 150) sale := by
  have hsold : (soldAt 150).result
      = .ok (.settlement (some (.settled (List.replicate 64 1) none))) := by decide +kernel
  refine ⟨_, hsold, (declaresOwn_iff localeCompare_total localeCompare_trans hsold).mpr ?_⟩
  intro q hq _
  rw [List.mem_singleton.mp hq]
  exact .inl (by decide)

/-- The clock went back, so the older payment is submitted last. The new one
    fails, the older one settles, and the sale is declared settled. -/
theorem settled_on_another :
    (soldAt 50).result = .ok (.settlement (some (.settled (List.replicate 64 1) none))) ∧
      ((soldAt 50).vars.payments.get (paymentId testKit (testPayment 0))).map QueuedPayment.state
        = some .failed ∧
      ∀ sale, (soldAt 50).result = .ok sale →
        ¬ DeclaresOwn fakeNetwork testQueue (testKey 2) (testPayment 0) 10 onceFailed
          (droppingAt 50) sale := by
  refine ⟨by decide +kernel, by decide +kernel, ?_⟩
  rintro sale _ ⟨p, outcome, haccepted, _, hlast⟩
  let o := run (reply fakeNetwork) (Queue.accept testQueue (testPayment 0) .t0 10 none)
    onceFailed (droppingAt 50)
  have hown : o.result.toOption.map QueuedPayment.id
      = some (paymentId testKit (testPayment 0)) := by
    decide +kernel
  have hother : (drainTurns fakeNetwork testQueue (testKey 2) (Queue.ordered testQueue o.vars)
      o.vars o.world).getLast?.map (fun turn => turn.1.id)
        = some (paymentId testKit (testPayment 1)) := by
    decide +kernel
  rw [haccepted] at hown
  rw [hlast] at hother
  have hsame := hown.symm.trans hother
  exact absurd hsame (by decide +kernel)

end Vadum
