import Vadum.Apps.Till
import Vadum.Async.History
import Vadum.Async.Upholds
import Vadum.Theory.Binding
import Vadum.Theory.MintBlock
import Vadum.Theory.PoolRuns
import Vadum.Theory.QueueThreads

/-!
# A Till in Use

What the merchant's queue is made of, in every run of the till. Whatever is
tapped, typed and scanned, in whatever order, and whatever storage loses: each
payment in the queue was verified from a scanned answer, while the till was
waiting for an answer to a request of its own, and is there for the price and
the tier of that sale.

The code of the queue never looks at what a payment is for, so it upholds any
condition on it. `QueueHolds` and `StoreHolds` are the two places where a payment
is kept, and `TillHolds` adds the screen, and what of the rest the code leaves.

## Main definitions

* `QueueHolds`, `StoreHolds`, `TillHolds`: What the till keeps of its payments.
* `Requested`, `Printed`, `Priced`, `Answered`, `Shown`: What it takes to show a
  screen, and to take a payment.
* `Asked`, `Taken`, `Earned`: The same of a run.

## Theorems

* `upholds_accept`, `upholds_drain`, `upholds_expire`, `upholds_load`: The queue
  upholds what holds of its payments.
* `tillTap_spec`: What an action does.
* `queued_taken`: Where the payments of the queue come from.
-/

namespace Vadum.MerchantApp

open Async (Event eventAt history final)
open Async.Process
open PayerApp (mintMap)

variable {ρ : Type}

/-- What is said of a payment, its tier and its price. -/
abbrev OfSale : Type := VerifiedPayment → PaymentTier → Int → Prop

def QueueHolds (P : OfSale) (vars : QueueVars) : Prop :=
  ∀ p ∈ vars.payments.toList, P p.payment p.tier p.amount

def StoreHolds (P : OfSale) (w : World ρ) : Prop :=
  ∀ id p, w.store.lookup (.payment id) = some p → P p.payment p.tier p.amount

theorem QueueHolds.mono {P Q : OfSale} {vars : QueueVars} (h : QueueHolds P vars)
    (hPQ : ∀ payment tier amount, P payment tier amount → Q payment tier amount) :
    QueueHolds Q vars :=
  fun p hp => hPQ _ _ _ (h p hp)

theorem StoreHolds.mono {P Q : OfSale} {w : World ρ} (h : StoreHolds P w)
    (hPQ : ∀ payment tier amount, P payment tier amount → Q payment tier amount) :
    StoreHolds Q w :=
  fun id p hp => hPQ _ _ _ (h id p hp)

section Queue

variable {network : Network ρ} {P : OfSale}

/-- The store keeps what it has, but for what is put there. -/
theorem StoreHolds.reply {w : World ρ} {r : Req} (h : StoreHolds P w)
    (hr : ∀ id v, r = .storeSet (.payment id) v → P v.payment v.tier v.amount) :
    StoreHolds P (reply network r w).2 := by
  intro id p hp
  rcases reply_store network r w with ⟨hsame, _⟩ | ⟨k, v, rfl, ⟨hsame, _⟩ | hset⟩
  · exact h id p (hsame ▸ hp)
  · exact h id p (hsame ▸ hp)
  · rw [hset] at hp
    by_cases hk : k = .payment id
    · cases hk
      rw [AList.lookup_insert] at hp
      cases hp
      exact hr id p rfl
    · rw [AList.lookup_insert_ne (Ne.symm hk)] at hp
      exact h id p hp

/-- What code signs, it may sign. -/
def SignsOnly (G : CryptoKeyPair → List UInt8 → Prop) (r : Req) : Prop :=
  ∀ key message, r = .sign key message → G key message

section Submit

variable {σ : Type} {R : Req → Prop} (hR : ∀ c, R (.rpc c)) (kit : Kit)
  (payment : VerifiedPayment)

include hR

/-- A lookup only calls the network. -/
theorem calls_newNonceValueOf : Stateless R (newNonceValueOf kit payment : Client σ _) := by
  unfold newNonceValueOf
  split
  · exact stateless_pure _
  · refine stateless_bind (stateless_ofResult _) fun address =>
      stateless_bind (stateless_rpc (.getNonceAccount address) (hR _)) fun account => ?_
    split <;> exact stateless_pure _

theorem calls_precheckNonce : Stateless R (precheckNonce kit payment : Client σ _) := by
  unfold precheckNonce
  split
  · exact stateless_bind (stateless_ofResult _) fun address =>
      stateless_bind (stateless_rpc (.getNonceAccount address) (hR _)) fun account =>
        stateless_pure _
  · exact stateless_throw _

theorem calls_afterFailure (lifetime : PaymentLifetime) (signature : Signature) (error : Thrown) :
    Stateless R (afterFailure kit payment lifetime signature error : Client σ _) := by
  refine stateless_bind (stateless_rpc (.getSignatureOutcome signature) (hR _)) fun outcome => ?_
  cases outcome with
  | landedOk =>
      exact stateless_bind (calls_newNonceValueOf hR kit payment) fun _ => stateless_pure _
  | landedFailed => exact stateless_pure _
  | absent =>
      simp only
      split
      · exact stateless_pure _
      · split
        · exact stateless_pure _
        · refine stateless_bind (calls_precheckNonce hR kit payment) fun verdict => ?_
          split <;> exact stateless_pure _

/-- A submission signs the message of its payment, and nothing else. -/
theorem signs_submit (key : CryptoKeyPair) (hsign : R (.sign key payment.messageBytes)) :
    Stateless R (submit kit payment key : Client σ _) := by
  have hwire : Stateless R (buildWireTransaction kit payment key : Client σ _) := by
    unfold buildWireTransaction
    have hrefuse : ∀ {e : Thrown} {f : Unit → Client σ WireTransaction},
        Stateless R (throw e >>= f) := trivial
    simp only
    split
    · exact hrefuse
    split
    · exact hrefuse
    refine stateless_bind (stateless_ofResult _) fun signers => ?_
    split
    · exact hrefuse
    refine stateless_bind (stateless_sign _ _ hsign) fun signature => ?_
    split
    · exact hrefuse
    · exact stateless_pure _
  exact stateless_bind (stateless_ofResult _) fun lifetime => stateless_bind hwire fun wire =>
    stateless_tryCatch
      (stateless_bind (stateless_rpc (.sendPayment wire lifetime) (hR _)) fun _ =>
        stateless_bind (calls_newNonceValueOf hR kit payment) fun _ => stateless_pure _)
      fun error => calls_afterFailure hR kit payment lifetime _ error

end Submit

variable {G : CryptoKeyPair → List UInt8 → Prop}

/-- Code that upholds a condition on the payments, and signs what it may. -/
abbrev KeepsQueue {α : Type} (network : Network ρ) (P : OfSale)
    (G : CryptoKeyPair → List UInt8 → Prop) (p : QueueM α) (R : α → Prop) : Prop :=
  Upholds (reply network) (QueueHolds P) (StoreHolds P) (SignsOnly G) p R

/-- A request that stores no payment and signs nothing. -/
theorem upholds_request_other {σ : Type} {M : σ → Prop} {r : Req}
    (hstores : ∀ id v, r ≠ .storeSet (.payment id) v) (hsigns : SignsNothing r) :
    Upholds (reply network) M (StoreHolds P) (SignsOnly G)
      (request (I := client) r : Client σ r.Ans) fun _ => True :=
  upholds_request (I := client) (fun key message h => absurd h (hsigns key message))
    fun _ hK => ⟨hK.reply fun id v hr => absurd hr (hstores id v), fun _ _ => trivial⟩

/-- Code that keeps no variables, and stores no payment. -/
theorem upholds_calls {σ α : Type} {M : σ → Prop} {p : Client σ α}
    (hp : Stateless (fun r => SignsOnly G r ∧ ∀ id v, r ≠ Req.storeSet (.payment id) v) p) :
    Upholds (reply network) M (StoreHolds P) (SignsOnly G) p fun _ => True := by
  have hupholds : Upholds (reply network) M (StoreHolds P) _ p fun _ => True :=
    upholds_stateless hp fun r w hr hK => hK.reply fun id v h => absurd h (hr.2 id v)
  exact fun s w hM hK => { hupholds s w hM hK with
    asked := fun r w' hr => ((hupholds s w hM hK).asked r w' hr).1 }

theorem upholds_setPayment {p : QueuedPayment} (h : P p.payment p.tier p.amount) :
    KeepsQueue network P G (Queue.setPayment p) fun _ => True :=
  upholds_bind upholds_read fun vars hvars => upholds_write (fun q hq => by
    rcases Payments.mem_set.mp hq with rfl | ⟨hq, _⟩
    · exact h
    · exact hvars q hq) trivial

theorem upholds_setConsecutiveFailedSends (n : Nat) :
    KeepsQueue network P G (Queue.setConsecutiveFailedSends n) fun _ => True :=
  upholds_bind upholds_read fun _ hvars => upholds_write (fun q hq => hvars q hq) trivial

theorem upholds_storePayment {p : QueuedPayment} {M : QueueVars → Prop}
    (h : P p.payment p.tier p.amount) :
    Upholds (reply network) M (StoreHolds P) (SignsOnly G) (storeSet (.payment p.id) p)
      fun _ => True :=
  upholds_request (I := client) (fun _ _ => Req.noConfusion) fun _ hK =>
    ⟨hK.reply fun _ _ hr => by cases hr; exact h, fun _ _ => trivial⟩

theorem upholds_save {p : QueuedPayment} (h : P p.payment p.tier p.amount) :
    KeepsQueue network P G (Queue.save p) fun _ => True :=
  upholds_bind (upholds_setPayment h) fun _ _ => upholds_storePayment h

theorem upholds_saveMeta : KeepsQueue network P G Queue.saveMeta fun _ => True :=
  upholds_bind upholds_read fun _ _ =>
    upholds_request_other (fun _ _ h => nomatch h) fun _ _ => Req.noConfusion

variable (queue : QueueConfig)

theorem upholds_accept {payment : VerifiedPayment} {tier : PaymentTier} {amount : Int}
    {precheck : Option NonceVerdict}
    (h : amount ≤ queue.limits.receiptCapByTier tier → P payment tier amount) :
    KeepsQueue network P G (Queue.accept queue payment tier amount precheck)
      fun q => amount ≤ queue.limits.receiptCapByTier tier ∧
        q.payment = payment ∧ q.tier = tier ∧ q.amount = amount := by
  have htick : KeepsQueue network P G tick fun _ => True :=
    upholds_request_other (fun _ _ h => nomatch h) fun _ _ => Req.noConfusion
  have hnow : KeepsQueue network P G dateNow fun _ => True :=
    upholds_request_other (fun _ _ h => nomatch h) fun _ _ => Req.noConfusion
  exact upholds_bind htick fun _ _ => upholds_bind upholds_read fun vars _ =>
    upholds_bind (upholds_ofResult fun _ hchecks => (rules_of_acceptChecks hchecks).1)
      fun _ hcap => upholds_bind hnow fun now _ => upholds_bind (upholds_save (h hcap))
        fun _ _ => upholds_pure ⟨hcap, rfl, rfl, rfl⟩

theorem mem_of_ordered {vars : QueueVars} {p : QueuedPayment} (h : p ∈ Queue.ordered queue vars) :
    p ∈ vars.payments.toList :=
  (List.mem_insertionSort _).mp h

theorem upholds_record {queued : QueuedPayment} (outcome : SubmitOutcome)
    (h : P queued.payment queued.tier queued.amount) :
    KeepsQueue network P G (Queue.record queued outcome) fun _ => True := by
  cases outcome with
  | settled signature newNonceValue =>
      exact upholds_bind (upholds_save h) fun _ _ => upholds_setConsecutiveFailedSends 0
  | failed code feeCharged message =>
      refine upholds_bind (upholds_save h) fun _ _ => ?_
      split
      · exact upholds_bind upholds_read fun _ _ => upholds_setConsecutiveFailedSends _
      · exact upholds_pure trivial

section Drain

variable {key : CryptoKeyPair} (hsigns : ∀ {payment : VerifiedPayment} {tier amount},
  P payment tier amount → G key payment.messageBytes)
include hsigns

theorem upholds_drainOne {queued : QueuedPayment}
    (h : P queued.payment queued.tier queued.amount) :
    KeepsQueue network P G (Queue.drainOne queue key queued) fun _ => True := by
  have hsubmit : KeepsQueue network P G (submit queue.kit queued.payment key) fun _ => True :=
    upholds_calls (signs_submit (fun c => ⟨fun _ _ h => (nomatch h), fun _ _ h => (nomatch h)⟩)
      queue.kit queued.payment key
      ⟨fun _ _ heq => by cases heq; exact hsigns h, fun _ _ h => (nomatch h)⟩)
  exact upholds_bind (upholds_save h) fun _ _ => upholds_bind hsubmit fun outcome _ =>
    upholds_bind (upholds_record outcome h) fun _ _ =>
      upholds_bind upholds_saveMeta fun _ _ => upholds_pure trivial

theorem upholds_drainPayments {payments : List QueuedPayment}
    (h : ∀ p ∈ payments, P p.payment p.tier p.amount) :
    KeepsQueue network P G (Queue.drainPayments queue key payments) fun _ => True := by
  induction payments with
  | nil => exact upholds_pure trivial
  | cons queued rest ih =>
      have hrest := ih fun p hp => h p (List.mem_cons_of_mem _ hp)
      rw [Queue.drainPayments]
      split
      · exact upholds_bind (upholds_drainOne queue hsigns (h _ List.mem_cons_self)) fun _ _ =>
          upholds_bind hrest fun _ _ => upholds_pure trivial
      · exact hrest

theorem upholds_drain : KeepsQueue network P G (Queue.drain queue key) fun _ => True :=
  upholds_bind upholds_read fun _ hvars =>
    upholds_drainPayments queue hsigns fun p hp => hvars p (mem_of_ordered queue hp)

end Drain

theorem upholds_expire (now : Int) :
    KeepsQueue network P G (Queue.expire queue now) fun _ => True := by
  refine upholds_bind upholds_read fun vars hvars => ?_
  have hvoided : ∀ p ∈ ((Queue.ordered queue vars).filter (Queue.outlived queue now)).map
      fun payment : QueuedPayment =>
        { payment with state := .voided, lastError := some .limitSendWindowExpired },
      P p.payment p.tier p.amount := by
    intro p hp
    rcases List.mem_map.mp hp with ⟨q, hq, rfl⟩
    exact hvars q (mem_of_ordered queue (List.mem_of_mem_filter hq))
  have hmemory : KeepsQueue network P G (List.forM _ Queue.setPayment) fun _ => True :=
    upholds_forM trivial fun p hp => upholds_setPayment (hvoided p hp)
  have hstore : KeepsQueue network P G (List.forM _ fun payment : QueuedPayment =>
      MonadExcept.tryCatch (storeSet (.payment payment.id) payment) fun _ => pure ())
      fun _ => True :=
    upholds_forM trivial fun p hp =>
      upholds_tryCatch (upholds_storePayment (hvoided p hp)) fun _ => upholds_pure trivial
  exact upholds_bind hmemory fun _ _ => upholds_bind hstore fun _ _ => upholds_pure trivial

theorem upholds_storeGetPayment (id : PaymentId) :
    KeepsQueue network P G (storeGet (.payment id))
      fun found => ∀ p, found = some p → P p.payment p.tier p.amount := by
  refine upholds_request (I := client) (fun _ _ => Req.noConfusion)
    fun w hK => ⟨hK.reply fun _ _ h => (nomatch h), fun found hfound p hp => ?_⟩
  simp only [reply] at hfound
  split at hfound
  · exact hK id p ((Except.ok.inj hfound).trans hp)
  · cases hfound

/-- What is in the store may be put in memory. -/
theorem upholds_loadPayments (ids : List PaymentId) :
    KeepsQueue network P G (Queue.loadPayments ids) fun _ => True := by
  induction ids with
  | nil => exact upholds_pure trivial
  | cons id ids ih =>
      refine upholds_bind (upholds_storeGetPayment id) fun found hfound => ?_
      cases found with
      | none => exact ih
      | some p => exact upholds_bind (upholds_setPayment (hfound p rfl)) fun _ _ => ih

theorem upholds_load : KeepsQueue network P G (Queue.load queue) fun _ => True := by
  have hkeys : KeepsQueue network P G (storeKeys .payment) fun _ => True :=
    upholds_request_other (fun _ _ h => nomatch h) fun _ _ => Req.noConfusion
  have hmeta : KeepsQueue network P G (storeGet .queueMeta) fun _ => True :=
    upholds_request_other (fun _ _ h => nomatch h) fun _ _ => Req.noConfusion
  exact upholds_bind hkeys fun ids _ => upholds_bind (upholds_loadPayments ids) fun _ _ =>
    upholds_bind hmeta fun n _ => upholds_bind (upholds_setConsecutiveFailedSends _) fun _ _ =>
      upholds_bind upholds_read fun _ _ => upholds_pure trivial

end Queue

section Screens

variable (app : TillConfig) (action : TillAction) (till : Till ρ)

/-- The action shows a request: its amount was typed, and is within the cap of the
    tier. -/
structure Requested (intent : Intent) (bytes : List UInt8) (amount : Int) : Prop where
  tapped : ∃ typed mint, action = .tap (.showIntent typed) ∧ till.vars.screen = .home mint ∧
    parseAmount typed mint.decimals.toNat = some amount ∧
    intent = intentFor app till.vars.settings mint (some amount)
  nonzero : amount ≠ 0
  capped : amount ≤ defaultQueueLimits.receiptCapByTier till.vars.settings.tier
  encoded : encodeIntent intent = .ok bytes

/-- The action shows the printed request. -/
structure Printed (intent : Intent) (bytes : List UInt8) : Prop where
  tapped : ∃ mint, action = .tap .showStatic ∧ till.vars.screen = .home mint ∧
    intent = intentFor app till.vars.settings mint none
  encoded : encodeStaticIntent intent = .ok bytes

/-- The price of a sale for a printed request was typed. -/
structure Priced (intent : Intent) (bytes : List UInt8) (amount : Int) : Prop where
  tapped : ∃ typed, action = .tap (.scan typed) ∧ till.vars.screen = .expected intent bytes ∧
    parseAmount typed intent.decimals.toNat = some amount
  nonzero : amount ≠ 0

/-- An answer was scanned while the till waited for it, and verified. -/
structure Answered (intent : Intent) (intentBytes : List UInt8) (amount : Int)
    (payment : VerifiedPayment) : Prop where
  screen : till.vars.screen = .scanning intent intentBytes amount
  verified : ∃ bytes auth, action = .tap (.scanned (.ok bytes)) ∧
    decodeAuth bytes ⟨mintMap till.vars.mints, some (flagsFromByte (intentBytes.getD 2 0))⟩
      = .ok auth ∧
    verifyAuth app.queue.kit intent auth (some amount) = .ok payment

/-- The action takes a payment, for its price and in the tier the till is set to. -/
structure Takes (payment : VerifiedPayment) (tier : PaymentTier) (amount : Int) : Prop where
  mode : tier = till.vars.settings.tier
  capped : amount ≤ app.queue.limits.receiptCapByTier tier
  answered : ∃ intent intentBytes, Answered app action till intent intentBytes amount payment

/-- What a recovery code states: the payment on the screen has settled, and its slot
    has this value now. -/
def Returning (till : Till ρ) (statement : NonceReturnStatement) : Prop :=
  ∃ payment amount signature value ref,
    till.vars.screen = .settled payment amount signature (some value) ∧
    payment.input.nonceRef = some ref ∧
    statement = ⟨payment.input.payer, ref.index, ref.value, value⟩

/-- What it takes for an action to show a screen. -/
def Shown (network : Network ρ) : Screen → Prop
  | .intent intent bytes amount => Requested app action till intent bytes amount
  | .static intent bytes => Printed app action till intent bytes
  | .expected intent bytes => till.vars.screen = .static intent bytes
  | .scanning intent bytes amount => till.vars.screen = .intent intent bytes amount ∨
      Priced action till intent bytes amount
  | .settled payment amount _ _ => Takes app action till payment .t0 amount
  | .handedOver queued => queued.tier ≠ .t0 ∧
      Takes app action till queued.payment queued.tier queued.amount
  | .nonceReturn bytes => ∃ statement message n, Returning till statement ∧
      nonceReturnSigningBytes statement = .ok message ∧
      encodeNonceReturn ⟨statement.nonceIndex, statement.newNonceValue,
        (network.sign app.keyPair message n).1⟩ = .ok bytes
  | _ => True

/-- What an action may sign, when the payments of the queue are such: the message of
    one of them, and what the recovery code states. -/
def MaySign (P : OfSale) (key : CryptoKeyPair) (message : List UInt8) : Prop :=
  key = app.keyPair ∧
    ((∃ payment tier amount, P payment tier amount ∧ message = payment.messageBytes) ∨
      ∃ statement, Returning till statement ∧ nonceReturnSigningBytes statement = .ok message)

end Screens

section Handlers

/-- What the app keeps while an action is handled. -/
structure TillHolds (P : OfSale) (S : Screen → Prop) (N : Settings → MintRecords → Prop)
    (vars : TillVars) : Prop where
  queue : QueueHolds P vars.queue
  screen : S vars.screen
  rest : N vars.settings vars.mints

variable {network : Network ρ} {app : TillConfig} {action : TillAction} {till : Till ρ}
  {P : OfSale} {N : Settings → MintRecords → Prop}

/-- The code keeps the payments as they are to be, shows what the action may show
    and signs what it may sign. -/
abbrev KeepsTill {α : Type} (network : Network ρ) (app : TillConfig) (action : TillAction)
    (till : Till ρ) (P : OfSale) (N : Settings → MintRecords → Prop) (p : TillM α)
    (R : α → Prop) : Prop :=
  Upholds (reply network)
    (TillHolds P (fun screen => screen = till.vars.screen ∨ Shown app action till network screen) N)
    (StoreHolds P) (SignsOnly (MaySign app till P)) p R

theorem keeps_render {screen : Screen} (h : Shown app action till network screen) :
    KeepsTill network app action till P N (render screen) fun _ => True :=
  upholds_bind upholds_read fun _ hvars =>
    upholds_write ⟨hvars.queue, .inr h, hvars.rest⟩ trivial

theorem keeps_failed (e : Thrown) :
    KeepsTill network app action till P N (failed e) fun _ => True := by
  cases e with
  | vadum e => exact keeps_render trivial
  | error name message context => exact keeps_render trivial

theorem keeps_queue {α : Type} {p : QueueM α} {R : α → Prop}
    (h : KeepsQueue network P (MaySign app till P) p R) :
    KeepsTill network app action till P N (zoom queuePart p) R :=
  upholds_zoom h (fun _ hvars => hvars.queue) fun _ _ hvars hqueue =>
    ⟨hqueue, hvars.screen, hvars.rest⟩

theorem keeps_home : KeepsTill network app action till P N home fun _ => True := by
  refine upholds_bind upholds_read fun vars _ => ?_
  cases currentMint vars with
  | none => exact keeps_render trivial
  | some mint => exact keeps_render trivial

section Changing

/-- The settings and the tokens may change. -/
abbrev Changing : Settings → MintRecords → Prop := fun _ _ => True

theorem keeps_saveSettings (settings : Settings) (stored : Except Thrown Unit) :
    KeepsTill network app action till P Changing (saveSettings settings stored) fun _ => True :=
  upholds_bind upholds_read fun _ hvars =>
    upholds_bind (upholds_write (R := fun _ => True) ⟨hvars.queue, hvars.screen, trivial⟩ trivial)
      fun _ _ => upholds_ofResult fun _ _ => trivial

theorem keeps_mints {α : Type} {p : MintCacheM α}
    (h : Upholds (reply network) (fun _ => True) (StoreHolds P)
      (SignsOnly (MaySign app till P)) p fun _ => True) :
    KeepsTill network app action till P Changing (zoom mintsPart p) fun _ => True :=
  upholds_zoom h (fun _ _ => trivial) fun _ _ hvars _ => ⟨hvars.queue, hvars.screen, trivial⟩

/-- The cache stores no payment, and signs nothing. -/
theorem upholds_mintRequest {r : Req} (hstores : ∀ id v, r ≠ .storeSet (.payment id) v)
    (hsigns : SignsNothing r) :
    Upholds (reply network) (fun _ : MintRecords => True) (StoreHolds P)
      (SignsOnly (MaySign app till P)) (request (I := client) r) fun _ => True :=
  upholds_request_other hstores hsigns

theorem upholds_refresh (mint : Address) :
    Upholds (reply network) (fun _ : MintRecords => True) (StoreHolds P)
      (SignsOnly (MaySign app till P)) (MintCache.refresh mint) fun _ => True := by
  refine upholds_bind (upholds_mintRequest (r := .rpc (.getMintAccount mint))
    (fun _ _ h => (nomatch h)) fun _ _ => Req.noConfusion) fun fetched _ => ?_
  refine upholds_bind (R := fun _ => True) (upholds_ofResult fun _ _ => trivial) fun record _ => ?_
  refine upholds_bind (R := fun _ => True) (upholds_bind upholds_read fun _ _ =>
    upholds_write trivial trivial) fun _ _ => ?_
  exact upholds_bind (upholds_mintRequest (r := .storeSet (.mint mint) record)
    (fun _ _ h => (nomatch h)) fun _ _ => Req.noConfusion) fun _ _ => upholds_pure trivial

theorem upholds_loadRecords (mints : List Address) :
    Upholds (reply network) (fun _ : MintRecords => True) (StoreHolds P)
      (SignsOnly (MaySign app till P)) (MintCache.loadRecords mints) fun _ => True := by
  induction mints with
  | nil => exact upholds_pure trivial
  | cons mint mints ih =>
      refine upholds_bind (upholds_mintRequest (r := .storeGet (.mint mint))
        (fun _ _ h => (nomatch h)) fun _ _ => Req.noConfusion) fun record _ => ?_
      cases record with
      | none => exact ih
      | some record =>
          exact upholds_bind (R := fun _ => True) (upholds_bind upholds_read fun _ _ =>
            upholds_write trivial trivial) fun _ _ => ih

theorem upholds_loadMints :
    Upholds (reply network) (fun _ : MintRecords => True) (StoreHolds P)
      (SignsOnly (MaySign app till P)) MintCache.load fun _ => True :=
  upholds_bind (upholds_mintRequest (r := .storeKeys .mint) (fun _ _ h => (nomatch h))
    fun _ _ => Req.noConfusion) fun _ _ => upholds_bind (upholds_loadRecords _) fun _ _ =>
      upholds_bind upholds_read fun _ _ => upholds_pure trivial

theorem keeps_checkToken (mint : Address) (stored : Except Thrown Unit) :
    KeepsTill network app action till P Changing (checkToken mint stored) fun _ => True := by
  refine upholds_tryCatch (upholds_bind (keeps_mints (upholds_refresh mint)) fun record _ => ?_)
    keeps_failed
  split
  · exact keeps_render trivial
  · exact upholds_bind upholds_read fun _ _ => upholds_bind (keeps_saveSettings _ _) fun _ _ =>
      keeps_home

theorem keeps_useTier (tier : PaymentTier) (stored : Except Thrown Unit) :
    KeepsTill network app action till P Changing (useTier tier stored) fun _ => True :=
  upholds_bind upholds_read fun _ _ => upholds_bind (keeps_saveSettings _ _) fun _ _ =>
    keeps_render trivial

theorem keeps_toggleCreateAta (stored : Except Thrown Unit) :
    KeepsTill network app action till P Changing (toggleCreateAta stored) fun _ => True :=
  upholds_bind upholds_read fun _ _ => upholds_bind (keeps_saveSettings _ _) fun _ _ =>
    keeps_render trivial

/-- A till that was just opened is empty, and what the store has is put in the
    queue. -/
theorem keeps_boot (standalone : Bool) (stored : Except Thrown (Option Settings)) :
    KeepsTill network app action till P Changing (boot app standalone stored) fun _ => True := by
  have hempty : QueueHolds P QueueVars.empty := fun _ h => absurd h List.not_mem_nil
  refine upholds_bind (R := fun _ => True)
    (upholds_write ⟨hempty, .inr trivial, trivial⟩ trivial)
    fun _ _ => upholds_tryCatch ?_ fun _ => keeps_render trivial
  · refine upholds_bind (keeps_mints upholds_loadMints) fun _ _ =>
      upholds_bind (keeps_queue (upholds_load app.queue)) fun _ _ =>
      upholds_bind (R := fun _ => True) (upholds_ofResult fun _ _ => trivial) fun settings _ =>
      upholds_bind upholds_read fun vars hvars =>
      upholds_bind (R := fun _ => True)
        (upholds_write ⟨hvars.queue, hvars.screen, trivial⟩ trivial) fun _ _ => ?_
    split
    · exact keeps_render trivial
    · exact keeps_home

end Changing

theorem keeps_settlementScreen {payment : VerifiedPayment} {amount : Int}
    (outcome : Option SubmitOutcome) (h : Takes app action till payment .t0 amount) :
    KeepsTill network app action till P N (settlementScreen payment amount outcome)
      fun _ => True := by
  cases outcome with
  | none => exact keeps_home
  | some outcome => cases outcome with
    | settled signature newNonceValue => exact keeps_render h
    | failed code feeCharged message => exact keeps_render trivial

theorem keeps_priceEntered {intent : Intent} {bytes : List UInt8} {typed : JsString}
    (htapped : action = .tap (.scan typed)) (hscreen : till.vars.screen = .expected intent bytes) :
    KeepsTill network app action till P N (priceEntered intent bytes typed) fun _ => True := by
  unfold priceEntered
  cases hparse : parseAmount typed intent.decimals.toNat with
  | none => exact upholds_pure trivial
  | some amount =>
      simp only
      split
      · exact upholds_pure trivial
      · next hzero => exact keeps_render (.inr ⟨⟨typed, htapped, hscreen, hparse⟩, hzero⟩)

theorem keeps_showNonceReturn {payment : VerifiedPayment} {amount : Int} {signature : Signature}
    {value : Nonce} (hscreen : till.vars.screen = .settled payment amount signature (some value)) :
    KeepsTill network app action till P N (showNonceReturn app payment value) fun _ => True := by
  unfold showNonceReturn
  cases href : payment.input.nonceRef with
  | none => exact keeps_home
  | some ref =>
      have hreturning : Returning till ⟨payment.input.payer, ref.index, ref.value, value⟩ :=
        ⟨payment, amount, signature, value, ref, hscreen, href, rfl⟩
      refine upholds_tryCatch (upholds_bind (R := fun signed => ∃ message n,
        nonceReturnSigningBytes ⟨payment.input.payer, ref.index, ref.value, value⟩ = .ok message ∧
          (network.sign app.keyPair message n).1 = signed) ?_ fun signed hsigned => ?_) keeps_failed
      · refine upholds_bind (upholds_ofResult fun _ hbytes => hbytes) fun message hmessage => ?_
        refine upholds_request (I := client) (fun key signed heq => ?_) fun w hK =>
          ⟨hK.reply fun _ _ h => (nomatch h), fun _ hans => ⟨message, w.net, hmessage,
            Except.ok.inj hans⟩⟩
        cases heq
        exact ⟨rfl, .inr ⟨_, hreturning, hmessage⟩⟩
      · rcases hsigned with ⟨message, n, hmessage, rfl⟩
        exact upholds_bind (upholds_ofResult fun _ hbytes => hbytes) fun bytes hbytes =>
          keeps_render ⟨_, message, n, hreturning, hmessage, hbytes⟩

theorem keeps_queueScreen :
    KeepsTill network app action till P N (queueScreen app) fun _ => True := by
  have hnow : KeepsTill network app action till P N dateNow fun _ => True :=
    upholds_request_other (fun _ _ h => (nomatch h)) fun _ _ => Req.noConfusion
  exact upholds_bind upholds_read fun _ _ => upholds_bind hnow fun now _ =>
    upholds_bind (keeps_queue (upholds_expire app.queue now)) fun _ _ => keeps_render trivial

theorem keeps_drain :
    KeepsQueue network P (MaySign app till P) (Queue.drain app.queue app.keyPair)
      fun _ => True :=
  upholds_drain app.queue fun h => ⟨rfl, .inl ⟨_, _, _, h, rfl⟩⟩

theorem keeps_sendEverything :
    KeepsTill network app action till P N (sendEverything app) fun _ => True :=
  upholds_bind (keeps_render trivial) fun _ _ =>
    upholds_tryCatch (upholds_bind (keeps_queue keeps_drain) fun _ _ => keeps_render trivial)
      keeps_failed

section Unchanged

/-- The settings and the tokens are those the action began with. -/
abbrev Unchanged (till : Till ρ) : Settings → MintRecords → Prop :=
  fun settings mints => settings = till.vars.settings ∧ mints = till.vars.mints

theorem keeps_showIntent {mint : MintRecord} {typed : JsString}
    (htapped : action = .tap (.showIntent typed)) (hscreen : till.vars.screen = .home mint) :
    KeepsTill network app action till P (Unchanged till) (showIntent app mint typed)
      fun _ => True := by
  refine upholds_bind upholds_read fun vars hvars => ?_
  cases hparse : parseAmount typed mint.decimals.toNat with
  | none => exact upholds_pure trivial
  | some amount =>
      simp only
      split
      · exact upholds_pure trivial
      · next hcap =>
        rcases not_or.mp hcap with ⟨hzero, hcap⟩
        refine upholds_bind (upholds_ofResult fun _ hbytes => hbytes) fun bytes hbytes =>
          keeps_render ⟨⟨typed, mint, htapped, hscreen, hparse, ?_⟩, hzero, ?_, hbytes⟩
        · rw [hvars.rest.1]
        · rw [← hvars.rest.1]
          exact not_lt.mp hcap

theorem keeps_showStatic {mint : MintRecord} (htapped : action = .tap .showStatic)
    (hscreen : till.vars.screen = .home mint) :
    KeepsTill network app action till P (Unchanged till) (showStatic app mint) fun _ => True := by
  refine upholds_bind upholds_read fun vars hvars =>
    upholds_bind (upholds_ofResult fun _ hbytes => hbytes) fun bytes hbytes =>
      keeps_render ⟨⟨mint, htapped, hscreen, ?_⟩, hbytes⟩
  rw [hvars.rest.1]

/-- What the screen of a sale is for. -/
def SaleOf (payment : VerifiedPayment) (tier : PaymentTier) (amount : Int) : Sale → Prop
  | .settlement _ => tier = .t0
  | .handedOver queued => tier ≠ .t0 ∧
      queued.payment = payment ∧ queued.tier = tier ∧ queued.amount = amount

theorem upholds_sale {payment : VerifiedPayment} {tier : PaymentTier} {amount : Int}
    (h : amount ≤ app.queue.limits.receiptCapByTier tier → P payment tier amount) :
    KeepsQueue network P (MaySign app till P)
      (MerchantApp.accept app.queue app.keyPair tier payment amount)
      fun sale => amount ≤ app.queue.limits.receiptCapByTier tier ∧
        SaleOf payment tier amount sale := by
  unfold MerchantApp.accept
  split
  · next ht0 =>
    subst ht0
    exact upholds_bind (upholds_accept app.queue h) fun _ haccepted =>
      upholds_bind keeps_drain fun _ _ => upholds_pure ⟨haccepted.1, rfl⟩
  · next ht0 =>
    have haccept : ∀ verdict, KeepsQueue network P (MaySign app till P) (do
        let queued ← Queue.accept app.queue payment tier amount verdict
        pure (Sale.handedOver queued)) fun sale =>
          amount ≤ app.queue.limits.receiptCapByTier tier ∧ SaleOf payment tier amount sale :=
      fun verdict => upholds_bind (upholds_accept app.queue h) fun _ haccepted =>
        upholds_pure ⟨haccepted.1, ht0, haccepted.2⟩
    have hcheck : KeepsQueue network P (MaySign app till P)
        (precheckNonce app.queue.kit payment) fun _ => True :=
      upholds_calls (calls_precheckNonce
        (fun c => ⟨fun _ _ h => (nomatch h), fun _ _ h => (nomatch h)⟩) app.queue.kit payment)
    split
    · exact upholds_bind (upholds_map (Q := fun _ => True) hcheck fun _ _ => trivial)
        fun verdict _ => haccept verdict
    · exact haccept none

theorem keeps_acceptScanned {payment : VerifiedPayment} {amount : Int}
    {intent : Intent} {intentBytes : List UInt8}
    (h : Answered app action till intent intentBytes amount payment)
    (hP : ∀ payment tier amount, Takes app action till payment tier amount →
      P payment tier amount) :
    KeepsTill network app action till P (Unchanged till) (acceptScanned app payment amount)
      fun _ => True := by
  refine upholds_bind upholds_read fun vars hvars => ?_
  have htakes : amount ≤ app.queue.limits.receiptCapByTier vars.settings.tier →
      Takes app action till payment vars.settings.tier amount := fun hcap =>
    ⟨by rw [hvars.rest.1], hcap, intent, intentBytes, h⟩
  have hsale : KeepsTill network app action till P (Unchanged till)
      (zoom queuePart (MerchantApp.accept app.queue app.keyPair vars.settings.tier payment amount))
      fun sale => amount ≤ app.queue.limits.receiptCapByTier vars.settings.tier ∧
        SaleOf payment vars.settings.tier amount sale :=
    keeps_queue (upholds_sale fun hcap => hP _ _ _ (htakes hcap))
  have hsettled : ∀ outcome, amount ≤ app.queue.limits.receiptCapByTier vars.settings.tier →
      vars.settings.tier = .t0 → KeepsTill network app action till P (Unchanged till)
        (settlementScreen payment amount outcome) fun _ => True := by
    intro outcome hcap ht0
    exact keeps_settlementScreen outcome (ht0 ▸ htakes hcap)
  have hhanded : ∀ queued, amount ≤ app.queue.limits.receiptCapByTier vars.settings.tier →
      SaleOf payment vars.settings.tier amount (.handedOver queued) →
      KeepsTill network app action till P (Unchanged till) (render (.handedOver queued))
        fun _ => True := by
    rintro queued hcap ⟨ht0, rfl, htier, rfl⟩
    exact keeps_render ⟨htier ▸ ht0, htier ▸ htakes hcap⟩
  refine upholds_tryCatch ?_ keeps_failed
  split
  · refine upholds_bind (keeps_render trivial) fun _ _ => upholds_bind hsale fun sale hends => ?_
    cases sale with
    | settlement outcome => exact hsettled outcome hends.1 hends.2
    | handedOver queued => exact hhanded queued hends.1 hends.2
  · refine upholds_bind hsale fun sale hends => ?_
    cases sale with
    | settlement outcome => exact hsettled outcome hends.1 hends.2
    | handedOver queued => exact hhanded queued hends.1 hends.2

theorem keeps_scanAuth {intent : Intent} {intentBytes : List UInt8} {amount : Int}
    {result : Except Thrown (List UInt8)} (htapped : action = .tap (.scanned result))
    (hscreen : till.vars.screen = .scanning intent intentBytes amount)
    (hP : ∀ payment tier amount, Takes app action till payment tier amount →
      P payment tier amount) :
    KeepsTill network app action till P (Unchanged till)
      (scanAuth app intent intentBytes amount result) fun _ => True := by
  refine upholds_tryCatch (upholds_bind (upholds_ofResult fun _ hbytes => hbytes)
    fun bytes hbytes => upholds_bind (R := fun _ => True) (upholds_ofResult fun _ _ => trivial)
    fun type _ => ?_) keeps_failed
  split
  · exact upholds_bind (R := fun _ => False) (upholds_throw _) fun _ h => h.elim
  · refine upholds_bind upholds_read fun vars hvars =>
      upholds_bind (upholds_ofResult fun _ hauth => hauth) fun auth hauth =>
      upholds_bind (upholds_ofResult fun _ hverified => hverified) fun payment hverified =>
      keeps_acceptScanned ⟨hscreen, bytes, auth, ?_, ?_, hverified⟩ hP
    · rw [htapped, hbytes]
    · rw [← hvars.rest.2]
      exact hauth

end Unchanged

/-- The code behind a button. -/
theorem keeps_handler {t : Tap} (htap : action = .tap t)
    (hP : ∀ payment tier amount, Takes app action till payment tier amount →
      P payment tier amount) :
    KeepsTill network app action till P Changing (t.handler app till.vars.screen)
        (fun _ => True) ∨
      KeepsTill network app action till P (Unchanged till) (t.handler app till.vars.screen)
        fun _ => True := by
  have hnothing : KeepsTill network app action till P Changing (pure ()) fun _ => True :=
    upholds_pure trivial
  cases t with
  | home => exact .inl keeps_home
  | chooseMint => exact .inl (keeps_render trivial)
  | checkToken mint stored => exact .inl (keeps_checkToken mint stored)
  | settings => exact .inl (keeps_render trivial)
  | useTier tier stored => exact .inl (keeps_useTier tier stored)
  | toggleCreateAta stored => exact .inl (keeps_toggleCreateAta stored)
  | queue => exact .inl keeps_queueScreen
  | send => exact .inl keeps_sendEverything
  | showIntent typed =>
      cases hscreen : till.vars.screen with
      | home mint => exact .inr (keeps_showIntent htap hscreen)
      | _ => exact .inl hnothing
  | showStatic =>
      cases hscreen : till.vars.screen with
      | home mint => exact .inr (keeps_showStatic htap hscreen)
      | _ => exact .inl hnothing
  | enterExpected =>
      cases hscreen : till.vars.screen with
      | static intent bytes => exact .inl (keeps_render hscreen)
      | _ => exact .inl hnothing
  | scan typed =>
      cases hscreen : till.vars.screen with
      | intent intent bytes amount => exact .inl (keeps_render (.inl hscreen))
      | expected intent bytes => exact .inl (keeps_priceEntered htap hscreen)
      | _ => exact .inl hnothing
  | scanned result =>
      cases hscreen : till.vars.screen with
      | scanning intent bytes amount => exact .inr (keeps_scanAuth htap hscreen hP)
      | _ => exact .inl hnothing
  | showNonceReturn =>
      cases hscreen : till.vars.screen with
      | settled payment amount signature newNonceValue =>
          cases newNonceValue with
          | none => exact .inl hnothing
          | some value => exact .inl (keeps_showNonceReturn hscreen)
      | _ => exact .inl hnothing

end Handlers

section Step

variable (network : Network ρ) (app : TillConfig) (action : TillAction) (till : Till ρ)

/-- What an action has done: the payments are as they are to be, the screen is one
    that it may show, and it signed what it may sign. -/
structure TillDid (P : OfSale) : Prop where
  queue : QueueHolds P (tillTap app network action till).2.vars.queue
  store : StoreHolds P (tillTap app network action till).2.world
  shown : (tillTap app network action till).2.vars.screen = till.vars.screen ∨
    Shown app action till network (tillTap app network action till).2.vars.screen
  signed : ∀ key message w, (Req.sign key message, w) ∈
      requests (reply network) (action.process app till.vars.screen) till.vars till.world →
    MaySign app till P key message

variable {P : OfSale}

theorem StoreHolds.erase {w : World ρ} (h : StoreHolds P w) (keys : List StoreKey) :
    StoreHolds P { w with store := keys.foldl (fun store k => store.erase k) w.store } := by
  induction keys generalizing w with
  | nil => exact h
  | cons k keys ih =>
      refine ih (w := ⟨w.store.erase k, w.net⟩) fun id p hp => ?_
      by_cases hk : (StoreKey.payment id) = k
      · subst hk
        rw [AList.lookup_erase] at hp
        cases hp
      · rw [AList.lookup_erase_ne hk] at hp
        exact h id p hp

/-- Whatever the payments of the queue are to be, they are, if those are so that an
    action takes. -/
theorem tillTap_spec (hqueue : QueueHolds P till.vars.queue) (hstore : StoreHolds P till.world)
    (hP : ∀ payment tier amount, Takes app action till payment tier amount →
      P payment tier amount) : TillDid network app action till P := by
  have hprocess : KeepsTill network app action till P Changing
        (action.process app till.vars.screen) (fun _ => True) ∨
      KeepsTill network app action till P (Unchanged till)
        (action.process app till.vars.screen) fun _ => True := by
    cases action with
    | tap t =>
        rw [TillAction.process]
        split
        · exact keeps_handler rfl hP
        · exact .inl (upholds_pure trivial)
    | reopen standalone stored => exact .inl (keeps_boot standalone stored)
    | lose keys => exact .inl (upholds_pure trivial)
    | wait => exact .inl (upholds_request_other (fun _ _ h => (nomatch h))
        fun _ _ => Req.noConfusion)
  have hdid : ∀ {N : Settings → MintRecords → Prop}, N till.vars.settings till.vars.mints →
      KeepsTill network app action till P N (action.process app till.vars.screen)
        (fun _ => True) → TillDid network app action till P := by
    intro N hN hkeeps
    have hrun := hkeeps till.vars till.world ⟨hqueue, .inl rfl, hN⟩ hstore
    refine ⟨hrun.vars.queue, ?_, hrun.vars.screen,
      fun key message w h => hrun.asked _ w h key message rfl⟩
    cases action with
    | lose keys => exact hrun.world.erase keys
    | _ => exact hrun.world
  rcases hprocess with hkeeps | hkeeps
  · exact hdid trivial hkeeps
  · exact hdid ⟨rfl, rfl⟩ hkeeps

end Step

section Runs

abbrev TillEvent (ρ : Type) : Type := Event TillAction Unit (Till ρ)

/-- What happens to a till. -/
abbrev tillHistory (network : Network ρ) (app : TillConfig) (till : Till ρ)
    (actions : List TillAction) : List (TillEvent ρ) :=
  history (tillTap app network) till actions

abbrev tillFinal (network : Network ρ) (app : TillConfig) (till : Till ρ)
    (actions : List TillAction) : Till ρ :=
  final (tillTap app network) till actions

/-- The merchant asked for this payment: a request for its amount was shown, or the
    price was typed for a printed one that was shown before. -/
def Asked (app : TillConfig) (events : List (TillEvent ρ)) (intent : Intent)
    (bytes : List UInt8) (amount : Int) : Prop :=
  (∃ e ∈ events, Requested app e.op e.before intent bytes amount) ∨
    ∃ pre e post, events = pre ++ e :: post ∧
      (∃ e' ∈ pre, Printed app e'.op e'.before intent bytes) ∧
      Priced e.op e.before intent bytes amount

/-- The payment answers what the merchant asked for, and was taken. -/
def Taken (app : TillConfig) (events : List (TillEvent ρ)) (payment : VerifiedPayment)
    (tier : PaymentTier) (amount : Int) : Prop :=
  ∃ pre e post intent bytes, events = pre ++ e :: post ∧ Asked app pre intent bytes amount ∧
    tier = e.before.vars.settings.tier ∧ amount ≤ app.queue.limits.receiptCapByTier tier ∧
    Answered app e.op e.before intent bytes amount payment

/-- What was done for the screen that is shown. -/
def Earned (network : Network ρ) (app : TillConfig) (events : List (TillEvent ρ)) :
    Screen → Prop
  | .intent intent bytes amount => ∃ e ∈ events, Requested app e.op e.before intent bytes amount
  | .static intent bytes => ∃ e ∈ events, Printed app e.op e.before intent bytes
  | .expected intent bytes => ∃ e ∈ events, Printed app e.op e.before intent bytes
  | .scanning intent bytes amount => Asked app events intent bytes amount
  | .settled payment amount _ _ => Taken app events payment .t0 amount
  | .handedOver queued => queued.tier ≠ .t0 ∧
      Taken app events queued.payment queued.tier queued.amount
  | .nonceReturn bytes => ∃ payment amount ref value message n,
      Taken app events payment .t0 amount ∧ payment.input.nonceRef = some ref ∧
      nonceReturnSigningBytes ⟨payment.input.payer, ref.index, ref.value, value⟩ = .ok message ∧
      encodeNonceReturn ⟨ref.index, value, (network.sign app.keyPair message n).1⟩ = .ok bytes
  | _ => True

variable {network : Network ρ} {app : TillConfig} {till : Till ρ} {events : List (TillEvent ρ)}

theorem Asked.append {intent : Intent} {bytes : List UInt8} {amount : Int}
    (h : Asked app events intent bytes amount) (more : List (TillEvent ρ)) :
    Asked app (events ++ more) intent bytes amount := by
  rcases h with ⟨e, he, hrequested⟩ | ⟨pre, e, post, rfl, hpriced⟩
  · exact .inl ⟨e, List.mem_append_left _ he, hrequested⟩
  · exact .inr ⟨pre, e, post ++ more, by rw [List.append_assoc, List.cons_append], hpriced⟩

theorem Taken.append {payment : VerifiedPayment} {tier : PaymentTier} {amount : Int}
    (h : Taken app events payment tier amount) (more : List (TillEvent ρ)) :
    Taken app (events ++ more) payment tier amount := by
  rcases h with ⟨pre, e, post, intent, bytes, rfl, htaken⟩
  exact ⟨pre, e, post ++ more, intent, bytes, by rw [List.append_assoc, List.cons_append], htaken⟩

theorem Earned.append {screen : Screen} (h : Earned network app events screen)
    (more : List (TillEvent ρ)) : Earned network app (events ++ more) screen := by
  cases screen with
  | intent intent bytes amount =>
      rcases h with ⟨e, he, hrequested⟩
      exact ⟨e, List.mem_append_left _ he, hrequested⟩
  | static intent bytes =>
      rcases h with ⟨e, he, hprinted⟩
      exact ⟨e, List.mem_append_left _ he, hprinted⟩
  | expected intent bytes =>
      rcases h with ⟨e, he, hprinted⟩
      exact ⟨e, List.mem_append_left _ he, hprinted⟩
  | scanning intent bytes amount => exact Asked.append h more
  | settled payment amount signature newNonceValue => exact Taken.append h more
  | handedOver queued => exact ⟨h.1, h.2.append more⟩
  | nonceReturn bytes =>
      rcases h with ⟨payment, amount, ref, value, message, n, htaken, hreturn⟩
      exact ⟨payment, amount, ref, value, message, n, htaken.append more, hreturn⟩
  | _ => trivial

/-- The payments and the screen of a till, after what has happened to it. -/
structure Provenance (network : Network ρ) (app : TillConfig) (events : List (TillEvent ρ))
    (till : Till ρ) : Prop where
  queue : QueueHolds (Taken app events) till.vars.queue
  store : StoreHolds (Taken app events) till.world
  screen : Earned network app events till.vars.screen

/-- What an action takes answers what was asked for. -/
theorem Provenance.taken {action : TillAction} (h : Provenance network app events till)
    {payment : VerifiedPayment} {tier : PaymentTier} {amount : Int}
    (htakes : Takes app action till payment tier amount) :
    Taken app (events ++ [eventAt (tillTap app network) action till]) payment tier amount := by
  rcases htakes.answered with ⟨intent, bytes, hanswered⟩
  have hasked := h.screen
  rw [hanswered.screen] at hasked
  exact ⟨events, _, [], intent, bytes, rfl, hasked, htakes.mode, htakes.capped, hanswered⟩

theorem Provenance.did {action : TillAction} (h : Provenance network app events till) :
    TillDid network app action till
      (Taken app (events ++ [eventAt (tillTap app network) action till])) :=
  tillTap_spec network app action till (h.queue.mono fun _ _ _ htaken => htaken.append _)
    (h.store.mono fun _ _ _ htaken => htaken.append _) fun _ _ _ htakes => h.taken htakes

/-- Whatever happens next keeps it so. -/
theorem Provenance.step {action : TillAction} (h : Provenance network app events till) :
    Provenance network app (events ++ [eventAt (tillTap app network) action till])
      (tillTap app network action till).2 where
  queue := h.did.queue
  store := h.did.store
  screen := by
    rcases h.did.shown with hsame | hshown
    · rw [hsame]
      exact h.screen.append _
    · have hlast : ∀ {e : TillEvent ρ}, e ∈ events ++ [e] :=
        List.mem_append_right _ (List.mem_singleton_self _)
      have hscreen := h.screen
      cases hafter : (tillTap app network action till).2.vars.screen with
      | intent intent bytes amount =>
          rw [hafter] at hshown
          exact ⟨_, hlast, hshown⟩
      | static intent bytes =>
          rw [hafter] at hshown
          exact ⟨_, hlast, hshown⟩
      | expected intent bytes =>
          rw [hafter] at hshown
          rw [show till.vars.screen = _ from hshown] at hscreen
          exact (show Earned network app events (.expected intent bytes) from hscreen).append _
      | scanning intent bytes amount =>
          rw [hafter] at hshown
          -- The camera is open for a request on the screen, or for a price just typed.
          rcases hshown with hintent | hpriced
          · rw [hintent] at hscreen
            rcases hscreen with ⟨e, he, hrequested⟩
            exact .inl ⟨e, List.mem_append_left _ he, hrequested⟩
          · rcases hpriced.tapped with ⟨_, _, hexpected, _⟩
            rw [hexpected] at hscreen
            exact .inr ⟨events, _, [], rfl, hscreen, hpriced⟩
      | settled payment amount signature newNonceValue =>
          rw [hafter] at hshown
          exact h.taken hshown
      | handedOver queued =>
          rw [hafter] at hshown
          exact ⟨hshown.1, h.taken hshown.2⟩
      | nonceReturn bytes =>
          -- A recovery code is shown from a settled screen, which was earned.
          rw [hafter] at hshown
          rcases hshown with
            ⟨statement, message, n, ⟨payment, amount, _, value, ref, hsettled, href, rfl⟩,
              hmessage, hencode⟩
          rw [hsettled] at hscreen
          exact ⟨payment, amount, ref, value, message, n, Taken.append hscreen _, href, hmessage,
            hencode⟩
      | _ => trivial

/-- A till that was just switched on, and has taken no payment yet. -/
structure Till.Fresh (till : Till ρ) : Prop where
  screen : till.vars.screen = .waiting
  queue : till.vars.queue.payments.toList = []
  store : ∀ id, till.world.store.lookup (.payment id) = none

theorem Till.Fresh.provenance (h : till.Fresh) : Provenance network app [] till where
  queue := fun p hp => by
    rw [h.queue] at hp
    cases hp
  store := fun id p hp => by
    rw [h.store id] at hp
    cases hp
  screen := by
    rw [h.screen]
    trivial

theorem provenance_run (network : Network ρ) (app : TillConfig) (h : till.Fresh)
    (actions : List TillAction) :
    Provenance network app (tillHistory network app till actions)
        (tillFinal network app till actions) ∧
      ∀ pre e post, tillHistory network app till actions = pre ++ e :: post →
        Provenance network app pre e.before :=
  @Async.history_rule _ _ _ (tillTap app network) (Provenance network app) (fun _ _ => True)
    (fun _ _ _ h _ => h.step) [] till actions h.provenance fun _ _ _ _ => trivial

/-- What is taken is paid to the till, for the price that was asked. -/
theorem Taken.sold {payment : VerifiedPayment} {tier : PaymentTier} {amount : Int}
    (h : Taken app events payment tier amount) :
    payment.input.amount = amount ∧ payment.input.intent.merchant = app.keyPair.publicKey ∧
      payment.input.intent.feePayer = app.keyPair.publicKey ∧
      buildMessage app.queue.kit payment.input = .ok payment.messageBytes ∧
      app.queue.kit.verifySignature payment.input.payer payment.auth.signature
        payment.messageBytes = .ok true := by
  rcases h with ⟨pre, e, post, intent, bytes, rfl, hasked, _, _, hanswered⟩
  rcases hanswered.verified with ⟨scanned, auth, _, _, hverified⟩
  rcases verifyAuth_ok hverified with ⟨_, hamount, _, _, _, hinput, hbuild, hverify⟩
  have hintent : ∃ settings mint amount, intent = intentFor app settings mint amount := by
    rcases hasked with ⟨e', _, hrequested⟩ | ⟨_, _, _, _, ⟨e', _, hprinted⟩, _⟩
    · rcases hrequested.tapped with ⟨_, mint, _, _, _, hintent⟩
      exact ⟨_, mint, _, hintent⟩
    · rcases hprinted.tapped with ⟨mint, _, _, hintent⟩
      exact ⟨_, mint, _, hintent⟩
  rcases hintent with ⟨settings, mint, own, rfl⟩
  have hauth : payment.auth = auth := ((verifyAuth_eq_ok _).mp hverified).2.2.2.2.2.1
  refine ⟨hamount _ rfl, by rw [hinput]; rfl, by rw [hinput]; rfl, hbuild, ?_⟩
  rw [hinput, hauth]
  exact hverify

theorem taken_of_queued (network : Network ρ) (app : TillConfig) (hfresh : till.Fresh)
    (actions : List TillAction) {p : QueuedPayment}
    (hp : p ∈ (tillFinal network app till actions).vars.queue.payments.toList ∨
      ∃ id, (tillFinal network app till actions).world.store.lookup (.payment id) = some p) :
    Taken app (tillHistory network app till actions) p.payment p.tier p.amount := by
  have hafter := (provenance_run network app hfresh actions).1
  rcases hp with hmem | ⟨id, hstored⟩
  · exact hafter.queue p hmem
  · exact hafter.store id p hstored

/-- In every run of a till, whatever is tapped, typed, scanned and lost: each payment
    in the queue and in the store answers a request that the merchant made, for the
    price and in the tier of the sale; and so does what a screen declares settled or
    handed over. -/
theorem queued_taken (network : Network ρ) (app : TillConfig) (hfresh : till.Fresh)
    (actions : List TillAction) :
    let after := tillFinal network app till actions
    let events := tillHistory network app till actions
    (∀ p : QueuedPayment, (p ∈ after.vars.queue.payments.toList ∨
      ∃ id, after.world.store.lookup (.payment id) = some p) →
        Taken app events p.payment p.tier p.amount) ∧
    (∀ payment amount signature newNonceValue,
      after.vars.screen = .settled payment amount signature newNonceValue →
        Taken app events payment .t0 amount) ∧
    ∀ queued, after.vars.screen = .handedOver queued →
      queued.tier ≠ .t0 ∧ Taken app events queued.payment queued.tier queued.amount := by
  have hafter := (provenance_run network app hfresh actions).1
  refine ⟨fun p hp => taken_of_queued network app hfresh actions hp,
    fun payment amount signature newNonceValue hscreen => ?_, fun queued hscreen => ?_⟩
  · have hearned := hafter.screen
    rw [hscreen] at hearned
    exact hearned
  · have hearned := hafter.screen
    rw [hscreen] at hearned
    exact hearned

/-- A till that was just switched on, where the token of the sale can be checked. -/
def testTill : Till FakeRpc where
  vars := ⟨defaultSettings, QueueVars.empty, [], .waiting⟩
  world := ⟨∅, { mints := [(testAddress 4, ⟨plainMint, 0⟩)] }⟩

def testTillConfig : TillConfig := ⟨testQueue, testKey 2⟩

theorem fresh_testTill : testTill.Fresh := ⟨rfl, rfl, fun _ => rfl⟩

/-- What a payer shows to pay. -/
def answerOf (payment : VerifiedPayment) : List UInt8 :=
  ((encodeAuth payment.auth (flagsFromByte (PayerApp.answerFlags testIntent))).toOption).getD []

/-- A sale: the token is checked, the request shown, and the answer scanned. -/
def saleOf (payment : VerifiedPayment) (tier : PaymentTier) : List TillAction :=
  [.reopen true (.ok (some ⟨none, tier, false⟩)), .tap (.checkToken (testAddress 4) (.ok ())),
    .tap (.showIntent (formatAmount 10 6)), .tap (.scan []),
    .tap (.scanned (.ok (answerOf payment)))]

abbrev sale : PaymentTier → List TillAction := saleOf (testPayment 0)

theorem queued_taken_sale :
    acceptedAs testKit (testPayment 0) .t2 10 0
        ∈ (tillFinal fakeNetwork testTillConfig testTill (sale .t2)).vars.queue.payments.toList ∧
      Taken testTillConfig (tillHistory fakeNetwork testTillConfig testTill (sale .t2))
        (testPayment 0) .t2 10 := by
  have hqueued : acceptedAs testKit (testPayment 0) .t2 10 0
      ∈ (tillFinal fakeNetwork testTillConfig testTill (sale .t2)).vars.queue.payments.toList := by
    decide +kernel
  exact ⟨hqueued, (queued_taken fakeNetwork testTillConfig fresh_testTill (sale .t2)).1 _
    (.inl hqueued)⟩

/-- In every run of a till its key signs the messages of payments that were taken,
    and for one that is shown as settled what its recovery code states. No other key
    signs. -/
theorem till_signs (network : Network ρ) (app : TillConfig) (hfresh : till.Fresh)
    (actions : List TillAction) {e : TillEvent ρ}
    (he : e ∈ tillHistory network app till actions) {key : CryptoKeyPair}
    {message : List UInt8} {w : World ρ}
    (hsigned : (Req.sign key message, w) ∈ requests (reply network)
      (e.op.process app e.before.vars.screen) e.before.vars e.before.world) :
    key = app.keyPair ∧ ∃ payment tier amount,
      Taken app (tillHistory network app till actions) payment tier amount ∧
      (message = payment.messageBytes ∨ tier = .t0 ∧ ∃ ref signature value,
        payment.input.nonceRef = some ref ∧
        e.before.vars.screen = .settled payment amount signature (some value) ∧
        nonceReturnSigningBytes ⟨payment.input.payer, ref.index, ref.value, value⟩
          = .ok message) := by
  rcases List.append_of_mem he with ⟨pre, post, hsplit⟩
  have hbefore := (provenance_run network app hfresh actions).2 pre e post hsplit
  have heq : e = eventAt (tillTap app network) e.op e.before := Async.eventAt_of_mem _ he
  have hmore : ∀ {payment tier amount}, Taken app (pre ++ [eventAt (tillTap app network) e.op
      e.before]) payment tier amount →
      Taken app (tillHistory network app till actions) payment tier amount := by
    intro payment tier amount htaken
    have hrest := htaken.append post
    rwa [← heq, List.append_assoc, List.singleton_append, ← hsplit] at hrest
  rcases hbefore.did.signed key message w hsigned with ⟨hkey, hmessage | hstatement⟩
  · rcases hmessage with ⟨payment, tier, amount, htaken, rfl⟩
    exact ⟨hkey, payment, tier, amount, hmore htaken, .inl rfl⟩
  · rcases hstatement with ⟨statement, ⟨payment, amount, signature, value, ref, hscreen, href,
      rfl⟩, hbytes⟩
    have hearned := hbefore.screen
    rw [hscreen] at hearned
    exact ⟨hkey, payment, .t0, amount, hmore (Taken.append hearned _),
      .inr ⟨rfl, ref, signature, value, href, hscreen, hbytes⟩⟩

/-- The scan that ends a sale. -/
def scanOf (tier : PaymentTier) : TillEvent FakeRpc :=
  eventAt (tillTap testTillConfig fakeNetwork) (.tap (.scanned (.ok (answerOf (testPayment 0)))))
    (tillFinal fakeNetwork testTillConfig testTill ((sale tier).take 4))

/-- A payment of tier T0 is signed for and sent at once. -/
theorem till_signs_sale :
    ∃ key message w, (Req.sign key message, w) ∈ requests (reply fakeNetwork)
        ((scanOf .t0).op.process testTillConfig (scanOf .t0).before.vars.screen)
        (scanOf .t0).before.vars (scanOf .t0).before.world ∧
      key = testKey 2 ∧ ∃ payment tier amount,
        Taken testTillConfig (tillHistory fakeNetwork testTillConfig testTill (sale .t0)) payment
          tier amount ∧
        (message = payment.messageBytes ∨ tier = .t0 ∧ ∃ ref signature value,
          payment.input.nonceRef = some ref ∧
          (scanOf .t0).before.vars.screen = .settled payment amount signature (some value) ∧
          nonceReturnSigningBytes ⟨payment.input.payer, ref.index, ref.value, value⟩
            = .ok message) := by
  have hscan : scanOf .t0 ∈ tillHistory fakeNetwork testTillConfig testTill (sale .t0) :=
    List.mem_of_mem_getLast? rfl
  rcases exists_sign (show (requests (reply fakeNetwork)
      ((scanOf .t0).op.process testTillConfig (scanOf .t0).before.vars.screen)
      (scanOf .t0).before.vars (scanOf .t0).before.world).any _ = true by decide +kernel)
    with ⟨key, message, w, hsigned⟩
  exact ⟨key, message, w, hsigned,
    till_signs fakeNetwork testTillConfig fresh_testTill (sale .t0) hscan hsigned⟩

end Runs

end Vadum.MerchantApp
