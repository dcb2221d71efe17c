import Mathlib.Data.List.Sort
import Vadum.Client.Submit

/-!
# The Merchant Queue

The payments a merchant has accepted, until they are settled or voided. A
payment is in memory, under its dedupe key, and in the store. `accept` checks
the dedupe key against every payment ever accepted, then the tier rule, then
the caps. `drain` submits what is queued or has failed, oldest first, one after
another. `expire` voids what the send window has outlived.

A JavaScript `Map` keeps one value a key and the order of first insertion, and
`Payments` is a list that does the same. `list` sorts it by time and key.

`expire` is not async: it voids all it finds at once in memory, and lets the
store writes it has started run on their own. Here they follow one another
before `expire` ends, and a failure of one is as unseen as it is there.

## Main definitions

* `Payments`: The payments in memory, one for each dedupe key.
* `QueueLimits`, `QueueConfig`: The caps, and what a queue is created with.
* `paymentId`: The dedupe key.
* `exposure`: What is handed over and not yet settled.
* `acceptChecks`: The rules of `accept`.
* `accept`, `drain`, `expire`, `load`: The operations.
-/

namespace Vadum

/-- Payments by their dedupe key, in the order they were first put in. -/
structure Payments where
  toList : List QueuedPayment
  nodup : (toList.map QueuedPayment.id).Nodup
deriving DecidableEq

namespace Payments

def empty : Payments := ⟨[], List.nodup_nil⟩

def get (payments : Payments) (id : PaymentId) : Option QueuedPayment :=
  payments.toList.find? fun payment => payment.id = id

/-- The list with a payment in the place of the one with its key, or at the
    end. -/
def put (payment : QueuedPayment) : List QueuedPayment → List QueuedPayment
  | [] => [payment]
  | other :: rest => if other.id = payment.id then payment :: rest else other :: put payment rest

/-- Putting a payment adds its key and no other. -/
theorem map_put (payment : QueuedPayment) (payments : List QueuedPayment) :
    (put payment payments).map QueuedPayment.id = payments.map QueuedPayment.id ∨
      (put payment payments).map QueuedPayment.id = payments.map QueuedPayment.id ++ [payment.id] ∧
        payment.id ∉ payments.map QueuedPayment.id := by
  induction payments with
  | nil => exact .inr ⟨rfl, List.not_mem_nil⟩
  | cons other rest ih =>
      by_cases h : other.id = payment.id
      · left
        rw [put, if_pos h, List.map_cons, List.map_cons, h]
      · rw [put, if_neg h]
        rcases ih with ih | ⟨ih, hnot⟩
        · exact .inl (congrArg (other.id :: ·) ih)
        · refine .inr ⟨congrArg (other.id :: ·) ih, fun hmem => ?_⟩
          rcases List.mem_cons.mp hmem with heq | hmem
          · exact h heq.symm
          · exact hnot hmem

def set (payments : Payments) (payment : QueuedPayment) : Payments where
  toList := put payment payments.toList
  nodup := by
    rcases map_put payment payments.toList with h | ⟨h, hnot⟩
    · rw [h]
      exact payments.nodup
    · rw [h]
      exact List.concat_eq_append ▸ payments.nodup.concat hnot

/-- A payment is there if it was put there, or was there under another key. -/
theorem mem_put {payment p : QueuedPayment} {payments : List QueuedPayment}
    (hnodup : (payments.map QueuedPayment.id).Nodup) :
    p ∈ put payment payments ↔ p = payment ∨ p ∈ payments ∧ p.id ≠ payment.id := by
  induction payments with
  | nil => simp only [put, List.mem_singleton, List.not_mem_nil, false_and, or_false]
  | cons other rest ih =>
      rw [List.map_cons, List.nodup_cons] at hnodup
      by_cases h : other.id = payment.id
      · -- The payment with this id is replaced where it stands, and no later one has the id.
        rw [put, if_pos h, List.mem_cons, List.mem_cons]
        constructor
        · rintro (heq | hmem)
          · exact .inl heq
          · refine .inr ⟨.inr hmem, fun hid => hnodup.1 ?_⟩
            rw [h, ← hid]
            exact List.mem_map_of_mem hmem
        · rintro (heq | ⟨rfl | hmem, hid⟩)
          · exact .inl heq
          · exact absurd h hid
          · exact .inr hmem
      · rw [put, if_neg h, List.mem_cons, List.mem_cons, ih hnodup.2]
        constructor
        · rintro (rfl | heq | ⟨hmem, hid⟩)
          · exact .inr ⟨.inl rfl, h⟩
          · exact .inl heq
          · exact .inr ⟨.inr hmem, hid⟩
        · rintro (heq | ⟨rfl | hmem, hid⟩)
          · exact .inr (.inl heq)
          · exact .inl rfl
          · exact .inr (.inr ⟨hmem, hid⟩)

theorem mem_set {payments : Payments} {payment p : QueuedPayment} :
    p ∈ (payments.set payment).toList ↔
      p = payment ∨ p ∈ payments.toList ∧ p.id ≠ payment.id :=
  mem_put payments.nodup

end Payments

structure QueueLimits where
  receiptCapByTier : PaymentTier → Int
  queueExposureCap : Int
  maxConsecutiveFailedSends : Int
  sendWindowMs : Int

/-- T0 waits for confirmation, so it needs no cap. -/
def defaultQueueLimits : QueueLimits where
  receiptCapByTier
    | .t0 => 2 ^ 64 - 1
    | .t1 => 20000000
    | .t2 => 5000000
  queueExposureCap := 50000000
  maxConsecutiveFailedSends := 3
  sendWindowMs := 24 * 60 * 60 * 1000

/-- What a queue is created with, and the order of texts on its platform. -/
structure QueueConfig where
  kit : Kit
  limits : QueueLimits := defaultQueueLimits
  /-- One key sorts before another, or with it. -/
  localeCompare : PaymentId → PaymentId → Bool

/-- The variables of a queue. -/
structure QueueVars where
  payments : Payments
  consecutiveFailedSends : Nat
deriving DecidableEq

/-- A queue that has just been created. -/
def QueueVars.empty : QueueVars := ⟨Payments.empty, 0⟩

/-- A queue's code. -/
abbrev QueueM (α : Type) : Type := Client QueueVars α

/-- The slot and the value on the nonce path, the message on the fresh one. Two
    valid signatures over one message are one payment. -/
def paymentId (kit : Kit) (payment : VerifiedPayment) : PaymentId :=
  match payment.input.nonceRef with
  | some ref => .nonce payment.input.payer ref.index ref.value
  | none => .fresh payment.input.payer (kit.sha256 payment.messageBytes)

def PaymentState.text : PaymentState → String
  | .queued => "queued"
  | .submitting => "submitting"
  | .settled => "settled"
  | .failed => "failed"
  | .voided => "voided"

def PaymentTier.text : PaymentTier → String
  | .t0 => "T0"
  | .t1 => "T1"
  | .t2 => "T2"

def unsettled : List PaymentState := [.queued, .submitting, .failed]

/-- Failures that mean the merchant should stop accepting offline. -/
def countsAsFailedSend (code : VadumErrorCode) : Bool :=
  code = .submitExecutionFailed || code = .submitNonceAbsent

/-- Whether `drain` submits a payment in this state. -/
def PaymentState.retried (state : PaymentState) : Bool := state = .queued || state = .failed

namespace Queue

open Async.Process (read write)

variable (queue : QueueConfig)

/-- Sorted by time, then by key. -/
def ordered (vars : QueueVars) : List QueuedPayment :=
  vars.payments.toList.insertionSort fun a b =>
    a.acceptedAt < b.acceptedAt ∨ a.acceptedAt = b.acceptedAt ∧ queue.localeCompare a.id b.id

/-- A queued payment of tier T0 is no exposure: it is handed over only after
    settlement. -/
def exposure (vars : QueueVars) : Int :=
  (((ordered queue vars).filter fun payment =>
    payment.tier ≠ .t0 ∧ payment.state ∈ unsettled).map QueuedPayment.amount).sum

/-- Put a payment in memory. -/
def setPayment (payment : QueuedPayment) : QueueM Unit := do
  let vars ← read
  write { vars with payments := vars.payments.set payment }

def setConsecutiveFailedSends (n : Nat) : QueueM Unit := do
  let vars ← read
  write { vars with consecutiveFailedSends := n }

def save (payment : QueuedPayment) : QueueM Unit := do
  setPayment payment
  storeSet (.payment payment.id) payment

def saveMeta : QueueM Unit := do
  let vars ← read
  storeSet .queueMeta vars.consecutiveFailedSends

/-- The rules of `accept`, in the order they are checked: the dedupe key, the
    tier, and the caps. -/
def acceptChecks (vars : QueueVars) (payment : VerifiedPayment) (tier : PaymentTier) (amount : Int)
    (precheck : Option NonceVerdict) : Except Thrown Unit := do
  let id := paymentId queue.kit payment
  if let some known := vars.payments.get id then
    throw (vadumError .wireDuplicateAuth
      [("id", .paymentId id), ("state", .text known.state.text)])
  let isNoncePath := payment.input.nonceRef.isSome
  if tier = .t1 ∧ isNoncePath ∧ ¬ precheck.any NonceVerdict.passes then
    throw (vadumError .limitPrecheckRequired
      [("tier", .text tier.text),
        ("reason", .text ((precheck.bind NonceVerdict.reason).getD "no verdict"))])
  if vars.consecutiveFailedSends ≥ queue.limits.maxConsecutiveFailedSends then
    throw (vadumError .limitFailedSends
      [("consecutiveFailedSends", .number vars.consecutiveFailedSends),
        ("max", .number queue.limits.maxConsecutiveFailedSends)])
  let cap := queue.limits.receiptCapByTier tier
  if amount > cap then
    throw (vadumError .limitReceiptCap
      [("tier", .text tier.text), ("cap", .number cap), ("amount", .number amount)])
  let exposed := exposure queue vars
  if tier ≠ .t0 ∧ exposed + amount > queue.limits.queueExposureCap then
    throw (vadumError .limitQueueExposure
      [("exposure", .number exposed), ("amount", .number amount),
        ("cap", .number queue.limits.queueExposureCap)])

def accept (payment : VerifiedPayment) (tier : PaymentTier) (amount : Int)
    (precheck : Option NonceVerdict) : QueueM QueuedPayment := do
  let id := paymentId queue.kit payment
  tick
  let vars ← read
  Async.Process.ofResult (acceptChecks queue vars payment tier amount precheck)
  let acceptedAt ← dateNow
  let accepted : QueuedPayment :=
    { id, payment, tier, acceptedAt, amount, attempts := 0, lastError := none, state := .queued }
  save accepted
  pure accepted

/-- `accept` with the clock's reading given. The clock is read without waiting,
    so where calls overlap nothing comes between the checks and the write. -/
def acceptAt (payment : VerifiedPayment) (tier : PaymentTier) (amount : Int)
    (precheck : Option NonceVerdict) (acceptedAt : Int) : QueueM QueuedPayment := do
  let id := paymentId queue.kit payment
  tick
  let vars ← read
  Async.Process.ofResult (acceptChecks queue vars payment tier amount precheck)
  let accepted : QueuedPayment :=
    { id, payment, tier, acceptedAt, amount, attempts := 0, lastError := none, state := .queued }
  save accepted
  pure accepted

def list : QueueM (List QueuedPayment) := do
  let vars ← read
  pure (ordered queue vars)

/-- What `drain` makes of one outcome. -/
def record (queued : QueuedPayment) : SubmitOutcome → QueueM Unit
  | .settled _ _ => do
    save { queued with state := .settled, attempts := queued.attempts + 1 }
    setConsecutiveFailedSends 0
  | .failed code _ _ => do
    save { queued with state := .failed, attempts := queued.attempts + 1, lastError := some code }
    -- A stale nonce or a dead connection is not the signal to stop trading.
    if countsAsFailedSend code then
      let vars ← read
      setConsecutiveFailedSends (vars.consecutiveFailedSends + 1)

/-- One payment's turn: it is marked, submitted, and marked again. -/
def drainOne (feePayerKey : CryptoKeyPair) (queued : QueuedPayment) : QueueM SubmitOutcome := do
  save { queued with state := .submitting }
  let outcome ← submit queue.kit queued.payment feePayerKey
  record queued outcome
  saveMeta
  pure outcome

/-- Submit those of the given payments that are queued or have failed. -/
def drainPayments (feePayerKey : CryptoKeyPair) :
    List QueuedPayment → QueueM (List SubmitOutcome)
  | [] => pure []
  | queued :: rest =>
    if queued.state.retried then do
      let outcome ← drainOne queue feePayerKey queued
      let outcomes ← drainPayments feePayerKey rest
      pure (outcome :: outcomes)
    else drainPayments feePayerKey rest

def drain (feePayerKey : CryptoKeyPair) : QueueM (List SubmitOutcome) := do
  let vars ← read
  drainPayments queue feePayerKey (ordered queue vars)

/-- A payment whose send window is over and that is not done with. -/
def outlived (now : Int) (payment : QueuedPayment) : Bool :=
  payment.state ≠ .settled ∧ payment.state ≠ .voided ∧
    now - payment.acceptedAt ≥ queue.limits.sendWindowMs

def expire (now : Int) : QueueM (List QueuedPayment) := do
  let vars ← read
  let expired := (ordered queue vars).filter (outlived queue now)
  let voided := expired.map fun payment =>
    { payment with state := .voided, lastError := some .limitSendWindowExpired }
  voided.forM setPayment
  voided.forM fun payment =>
    tryCatch (storeSet (.payment payment.id) payment) fun _ => pure ()
  pure voided

/-- Put what the store has under the given keys in memory. -/
def loadPayments : List PaymentId → QueueM Unit
  | [] => pure ()
  | id :: ids => do
    match ← storeGet (.payment id) with
    | some payment => setPayment payment
    | none => pure ()
    loadPayments ids

def load : QueueM (List QueuedPayment) := do
  loadPayments (← storeKeys .payment)
  setConsecutiveFailedSends ((← storeGet .queueMeta).getD 0)
  list queue

end Queue

end Vadum
