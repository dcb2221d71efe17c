import Vadum.Client.Queue
import Vadum.Theory.Submission

/-!
# What a Queue Asks For

The requests of the queue's operations. A queue writes payments under their own
keys and its counter, reads what it wrote, and goes online in `drain`; only
`drain` writes a payment as being submitted.

The statements are about any set of requests large enough, `Allows`, so that
each use can choose the set that says what it needs.

## Main definitions

* `AllowsLoaded`, `Allows`: The requests every operation may make.
* `Keyed`: A store that keeps payments under their own keys.

## Theorems

* `asks_accept`, `asks_expire`, `asks_load`, `asks_drainPayments`: What the
  operations ask for.
* `keyed_reply`: Writing payments under their own keys keeps a store keyed.
-/

namespace Vadum

open Async.Process

/-- The requests a queue makes that has been loaded, but for writing a payment as
    being submitted. -/
structure AllowsLoaded (R : Req → Prop) : Prop where
  online : ∀ r, r.isOnline = true → R r
  tick : R .tick
  now : R .now
  queueMeta : ∀ n : Nat, R (.storeSet .queueMeta n)
  payment : ∀ p : QueuedPayment, p.state ≠ .submitting → R (.storeSet (.payment p.id) p)

/-- The requests all operations of a queue may make: everything but to write a
    payment as being submitted. -/
structure Allows (R : Req → Prop) : Prop extends AllowsLoaded R where
  storeGet : ∀ k, R (.storeGet k)
  storeKeys : ∀ p, R (.storeKeys p)

section Asks

variable {R : Req → Prop}

theorem asks_of_online {σ α : Type} (h : AllowsLoaded R) {p : Client σ α} (hp : Online p) :
    Asks R p := fun past s =>
  obeys_mono (fun _ _ _ => nofun) (fun _ _ r honline => h.online r honline) (fun _ _ _ hQ => hQ)
    (hp past s)

theorem asks_setPayment (p : QueuedPayment) : Asks R (Queue.setPayment p) :=
  asks_bind asks_read fun _ => asks_write _

theorem asks_setConsecutiveFailedSends (n : Nat) : Asks R (Queue.setConsecutiveFailedSends n) :=
  asks_bind asks_read fun _ => asks_write _

theorem asks_save {p : QueuedPayment} (h : R (.storeSet (.payment p.id) p)) :
    Asks R (Queue.save p) :=
  asks_bind (asks_setPayment p) fun _ => asks_request (I := client) h

section Loaded

variable (h : AllowsLoaded R) (queue : QueueConfig)

include h

theorem asks_saveMeta : Asks R Queue.saveMeta :=
  asks_bind asks_read fun vars =>
    asks_request (I := client) (h.queueMeta vars.consecutiveFailedSends)

theorem asks_record (queued : QueuedPayment) (o : SubmitOutcome) :
    Asks R (Queue.record queued o) := by
  cases o with
  | settled signature value =>
      exact asks_bind (asks_save (h.payment _ PaymentState.noConfusion)) fun _ =>
        asks_setConsecutiveFailedSends 0
  | failed code feeCharged detail =>
      refine asks_bind (asks_save (h.payment _ PaymentState.noConfusion)) fun _ => ?_
      split
      · exact asks_bind asks_read fun _ => asks_setConsecutiveFailedSends _
      · exact asks_pure ()

/-- What a turn asks for once its payment is marked. -/
theorem asks_submitted (feePayerKey : CryptoKeyPair) (queued : QueuedPayment) :
    Asks R (do
      let outcome ← submit queue.kit queued.payment feePayerKey
      Queue.record queued outcome
      Queue.saveMeta
      pure outcome) :=
  asks_bind (asks_of_online h (online_submit _ _ _)) fun outcome =>
    asks_bind (asks_record h queued outcome) fun _ =>
      asks_bind (asks_saveMeta h) fun _ => asks_pure outcome

theorem asks_accept (payment : VerifiedPayment) (tier : PaymentTier) (amount : Int)
    (precheck : Option NonceVerdict) : Asks R (Queue.accept queue payment tier amount precheck) :=
  asks_bind (asks_request (I := client) h.tick) fun _ => asks_bind asks_read fun _ =>
    asks_bind (asks_ofResult _) fun _ => asks_bind (asks_request (I := client) h.now) fun _ =>
      asks_bind (asks_save (h.payment _ PaymentState.noConfusion)) fun _ => asks_pure _

theorem asks_expire (now : Int) : Asks R (Queue.expire queue now) := by
  refine asks_bind asks_read fun vars => asks_bind (asks_forM fun p _ => asks_setPayment p)
    fun _ => asks_bind (asks_forM fun p hp => ?_) fun _ => asks_pure _
  rcases List.mem_map.mp hp with ⟨q, _, rfl⟩
  exact asks_tryCatch (asks_request (I := client) (h.payment _ PaymentState.noConfusion)) fun _ =>
    asks_pure ()

/-- A drain also writes its marks. -/
theorem asks_drainPayments (hmark : ∀ p : QueuedPayment, R (.storeSet (.payment p.id) p))
    (feePayerKey : CryptoKeyPair) (payments : List QueuedPayment) :
    Asks R (Queue.drainPayments queue feePayerKey payments) := by
  induction payments with
  | nil => exact asks_pure []
  | cons first rest ih =>
      rw [Queue.drainPayments]
      split
      · exact asks_bind (asks_bind (asks_save (hmark _)) fun _ =>
          asks_submitted h queue feePayerKey first) fun _ => asks_bind ih fun _ => asks_pure _
      · exact ih

end Loaded

variable (h : Allows R) (queue : QueueConfig)

include h

theorem asks_loadPayments (ids : List PaymentId) : Asks R (Queue.loadPayments ids) := by
  induction ids with
  | nil => exact asks_pure ()
  | cons id ids ih =>
      refine asks_bind (asks_request (I := client) (h.storeGet (.payment id))) fun payment => ?_
      cases payment with
      | none => exact ih
      | some payment => exact asks_bind (asks_setPayment payment) fun _ => ih

theorem asks_load : Asks R (Queue.load queue) :=
  asks_bind (asks_request (I := client) (h.storeKeys .payment)) fun ids =>
    asks_bind (asks_loadPayments h ids) fun _ =>
      asks_bind (asks_request (I := client) (h.storeGet .queueMeta)) fun _ =>
        asks_bind (asks_setConsecutiveFailedSends _) fun _ =>
          asks_bind asks_read fun _ => asks_pure _

end Asks

/-- A store that keeps payments under their own keys. -/
def Keyed (store : Store) : Prop :=
  ∀ id p, store.lookup (.payment id) = some p → p.id = id

/-- A request that writes payments under their own keys. -/
def Req.IsKeyed : Req → Prop
  | .storeSet (.payment id) p => QueuedPayment.id p = id
  | _ => True

theorem allows_keyed : Allows Req.IsKeyed where
  online := fun r hr => by
    cases r with
    | storeSet k v => cases hr
    | _ => trivial
  tick := trivial
  now := trivial
  storeGet := fun _ => trivial
  storeKeys := fun _ => trivial
  queueMeta := fun _ => trivial
  payment := fun _ _ => rfl

/-- Such requests keep a store keyed. -/
theorem keyed_reply {ρ : Type} (network : Network ρ) (r : Req) (w : World ρ) (hr : r.IsKeyed)
    (h : Keyed w.store) : Keyed (reply network r w).2.store := by
  cases r with
  | storeSet k v =>
      simp only [reply]
      split
      · intro id p hp
        -- The key that was written holds what the request put under it, by its own id.
        by_cases hk : StoreKey.payment id = k
        · subst hk
          rw [AList.lookup_insert] at hp
          rw [← Option.some.inj hp]
          exact hr
        · rw [AList.lookup_insert_ne hk] at hp
          exact h id p hp
      · exact h
  | storeGet k =>
      simp only [reply]
      split <;> exact h
  | storeKeys p =>
      simp only [reply]
      split <;> exact h
  | _ => exact h

end Vadum
