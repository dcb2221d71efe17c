import Mathlib.Algebra.Order.BigOperators.Group.List
import Mathlib.Algebra.Order.Ring.Int
import Vadum.Theory.QueueThreads

/-!
# What Is Handed Over and Not Yet Settled

The exposure is a sum over the payments in memory, so what a segment does to it
can be read off the keys: under a key a payment may come to count for less, and
a payment under a free key adds what it counts for. The order of the list does
not matter, and neither does the order in which payments were put in.

## Main definitions

* `QueuedPayment.exposed`: What a payment counts for.

## Theorems

* `exposure_eq`: The exposure is the sum over the payments.
* `exposure_le`: If every payment counts for no more, the sum is no more.
* `exposure_put`: A new payment adds what it counts for.
-/

namespace Vadum

/-- What a payment counts for in the exposure. -/
def QueuedPayment.exposed (payment : QueuedPayment) : Int :=
  if payment.tier ≠ .t0 ∧ payment.state ∈ unsettled then payment.amount else 0

section Exposure

variable {queue : QueueConfig}

/-- The exposure is what the payments count for, in any order. -/
theorem exposure_eq (vars : QueueVars) : Queue.exposure queue vars
    = (vars.payments.toList.map QueuedPayment.exposed).sum := by
  have hsum : ∀ payments : List QueuedPayment,
      ((payments.filter fun payment => payment.tier ≠ .t0 ∧ payment.state ∈ unsettled).map
        QueuedPayment.amount).sum = (payments.map QueuedPayment.exposed).sum := by
    intro payments
    induction payments with
    | nil => rfl
    | cons payment payments ih =>
        rw [List.map_cons, List.sum_cons, ← ih, QueuedPayment.exposed]
        by_cases h : payment.tier ≠ .t0 ∧ payment.state ∈ unsettled
        · simp only [List.filter_cons, decide_eq_true_eq, if_pos h, List.map_cons, List.sum_cons]
        · simp only [List.filter_cons, decide_eq_true_eq, if_neg h, zero_add]
  exact (((List.perm_insertionSort _ _).filter _).map _).sum_eq.trans (hsum _)

/-- The keys of what is in memory. -/
theorem mem_keys {payments : Payments} {id : PaymentId} :
    id ∈ payments.toList.map QueuedPayment.id ↔ payments.get id ≠ none := by
  rw [Option.ne_none_iff_exists', List.mem_map]
  constructor
  · rintro ⟨payment, hmem, rfl⟩
    exact ⟨payment, Payments.mem_iff_get.mp hmem⟩
  · rintro ⟨payment, hget⟩
    have hid := Payments.id_of_get hget
    exact ⟨payment, Payments.mem_iff_get.mpr (hid ▸ hget), hid⟩

/-- The same sum, key by key. -/
theorem sum_keys (payments : Payments) : (payments.toList.map QueuedPayment.exposed).sum
    = ((payments.toList.map QueuedPayment.id).map fun id =>
      (payments.get id).elim 0 QueuedPayment.exposed).sum := by
  rw [List.map_map]
  refine congrArg List.sum (List.map_congr_left fun payment hmem => ?_)
  rw [Function.comp_apply, Payments.mem_iff_get.mp hmem, Option.elim_some]

/-- If under every key there is what was there, or a payment that counts for no
    more, then the exposure is no more. -/
theorem exposure_le {s s' : QueueVars}
    (h : ∀ id, s'.payments.get id = s.payments.get id ∨ ∃ q q', s.payments.get id = some q ∧
      s'.payments.get id = some q' ∧ q'.exposed ≤ q.exposed) :
    Queue.exposure queue s' ≤ Queue.exposure queue s := by
  have hkeys : (s'.payments.toList.map QueuedPayment.id).Perm
      (s.payments.toList.map QueuedPayment.id) := by
    refine (List.perm_ext_iff_of_nodup s'.payments.nodup s.payments.nodup).mpr fun id => ?_
    rw [mem_keys, mem_keys]
    rcases h id with hsame | ⟨q, q', hq, hq', _⟩
    · rw [hsame]
    · simp only [hq, hq', ne_eq, reduceCtorEq, not_false_eq_true]
  rw [exposure_eq, exposure_eq, sum_keys, sum_keys, (hkeys.map _).sum_eq]
  refine List.sum_le_sum fun id _ => ?_
  rcases h id with hsame | ⟨q, q', hq, hq', hle⟩
  · rw [hsame]
  · rw [hq, hq']
    exact hle

/-- A payment under a free key comes last. -/
theorem put_of_not_mem {payment : QueuedPayment} {payments : List QueuedPayment}
    (h : payment.id ∉ payments.map QueuedPayment.id) :
    Payments.put payment payments = payments ++ [payment] := by
  induction payments with
  | nil => rfl
  | cons other rest ih =>
      rw [List.map_cons, List.mem_cons, not_or] at h
      rw [Payments.put, if_neg (Ne.symm h.1), ih h.2, List.cons_append]

/-- It adds what it counts for. -/
theorem exposure_put {vars : QueueVars} {payment : QueuedPayment}
    (h : vars.payments.get payment.id = none) :
    Queue.exposure queue { vars with payments := vars.payments.set payment }
      = Queue.exposure queue vars + payment.exposed := by
  have hnew : payment.id ∉ vars.payments.toList.map QueuedPayment.id :=
    fun hmem => mem_keys.mp hmem h
  rw [exposure_eq, exposure_eq, Payments.set]
  simp only [put_of_not_mem hnew, List.map_append, List.map_cons, List.map_nil, List.sum_append,
    List.sum_singleton]

end Exposure

end Vadum
