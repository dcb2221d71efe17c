import Vadum.Async.Rely
import Vadum.Theory.QueueRuns

/-!
# Calls of a Queue at the Same Time

`accept`, `drain` and `expire` as threads over the payments of one queue, and
what each of them does in a segment. An accept adds one payment under a free
key, in the segment in which it checks the rules. An expire voids in its first
segment what has outlived its window. A drain goes through a snapshot of the
queue: what it retries is `Claimed` from its first write on, until its outcome
is recorded, and it writes over claimed payments only, as they were when it
took them. That holds if nobody else writes over them.

The clock is read without waiting, so an `accept` among others is `acceptAt`.

## Main definitions

* `QueueCall`: The calls, and their code.
* `Claimed`: What a drain has taken and not yet recorded.
* `Alters`, `Adds`: What a segment makes of the payments.
* `QueueCall.Does`, `QueueCall.Pauses`, `QueueCall.Ends`: What a call
  guarantees.

## Theorems

* `keeps_accept`, `keeps_drain`, `keeps_expire`: The calls keep their contracts.
-/

namespace Vadum

open Async (Act Moment)
open Async.Process

variable {ρ : Type}

/-- A call of a queue among others. -/
inductive QueueCall where
  | accept (payment : VerifiedPayment) (tier : PaymentTier) (amount : Int)
      (precheck : Option NonceVerdict) (acceptedAt : Int)
  | drain (feePayerKey : CryptoKeyPair)
  | expire (now : Int)
deriving DecidableEq

/-- The code of a call. -/
def QueueCall.process (queue : QueueConfig) : QueueCall → QueueM QueueResult
  | .accept payment tier amount precheck acceptedAt =>
    .accepted <$> Queue.acceptAt queue payment tier amount precheck acceptedAt
  | .drain feePayerKey => .outcomes <$> Queue.drain queue feePayerKey
  | .expire now => .payments <$> Queue.expire queue now

/-- What a queue's call has done so far. -/
abbrev QueuePast : Type := List (Act client QueueVars Thrown)

abbrev QueueMoment : Type := Moment client QueueVars Thrown

/-- Settled or voided: nothing more can come of the payment. -/
def PaymentState.isFinal (state : PaymentState) : Bool := state = .settled || state = .voided

/-- The outcome of a payment marked by a call has been recorded by it. -/
def Recorded (past : QueuePast) (q : QueuedPayment) : Prop :=
  ∃ seen new, Act.wrote seen new ∈ past ∧ seen.payments.get q.id = some (marked q) ∧
    new.payments.get q.id ≠ some (marked q)

/-- What a drain has taken when it began and not yet recorded: it writes over
    these payments, and over no others. -/
def Claimed (past : QueuePast) (q : QueuedPayment) : Prop :=
  (∃ seen new rest, past = .wrote seen new :: rest ∧ q ∈ seen.payments.toList) ∧
    q.state.retried = true ∧ ¬ Recorded past q

/-- One payment, at two times. -/
structure SameSale (q q' : QueuedPayment) : Prop where
  id_eq : q'.id = q.id
  payment_eq : q'.payment = q.payment
  tier_eq : q'.tier = q.tier
  amount_eq : q'.amount = q.amount

/-- A segment that leaves the payments as they are, but for some that are not
    done with. -/
def Alters (may : QueuedPayment → Prop) (s s' : QueueVars) : Prop :=
  ∀ id, s'.payments.get id = s.payments.get id ∨ ∃ q q', s.payments.get id = some q ∧
    s'.payments.get id = some q' ∧ q.state.isFinal = false ∧ SameSale q q' ∧ may q

/-- A segment that adds one payment, by the rules. -/
def Adds (queue : QueueConfig) (payment : VerifiedPayment) (tier : PaymentTier) (amount : Int)
    (precheck : Option NonceVerdict) (acceptedAt : Int) (s s' : QueueVars) : Prop :=
  let p := acceptedAs queue.kit payment tier amount acceptedAt
  Queue.acceptChecks queue s payment tier amount precheck = .ok () ∧
    s' = { s with payments := s.payments.set p }

/-- A call has written something. -/
def HasWritten (past : QueuePast) : Prop := ∃ seen new, Act.wrote seen new ∈ past

/-- Where a drain is about to submit a payment, the payment is marked as being
    submitted. -/
def Handed (m : QueueMoment) : Prop :=
  ∀ earlier (q : QueuedPayment),
    m.before = earlier ++ [.asked (I := client) (Req.storeSet (.payment q.id) q) (.ok ())] →
    q.state = .submitting → m.start.payments.get q.id = some q

/-- What a segment of a call does. -/
def QueueCall.Does (queue : QueueConfig) (m : QueueMoment) : QueueCall → Prop
  | .accept payment tier amount precheck acceptedAt =>
    m.now.payments = m.start.payments ∧ (HasWritten m.past → HasWritten m.before) ∨
      Adds queue payment tier amount precheck acceptedAt m.start m.now
  | .drain _ =>
    Alters (fun q => m.before = [] ∧ q.state.retried = true ∨
        ∃ c, Claimed m.before c ∧ c.id = q.id) m.start m.now ∧
      (m.before = [] → ∀ c, Claimed m.past c →
        c ∈ m.start.payments.toList ∧ c.state.retried = true) ∧
      Handed m
  | .expire now =>
    Alters (fun q => m.before = [] ∧ Queue.outlived queue now q = true) m.start m.now

/-- What a segment changes is still to be stored. -/
def OwesChanges {α : Type} (m : QueueMoment) (rest : QueueM α) : Prop :=
  ∀ id p, m.now.payments.get id = some p →
    m.start.payments.get id = some p ∨ rest.Owes (Req.storeSet (.payment id) p)

def QueueCall.Pauses (queue : QueueConfig) (call : QueueCall) (m : QueueMoment)
    (rest : QueueM QueueResult) : Prop :=
  call.Does queue m ∧ OwesChanges m rest

/-- The rules an accepted payment was accepted by. -/
def QueueCall.Accepts (queue : QueueConfig) (m : QueueMoment) (result : QueueResult) :
    QueueCall → Prop
  | .accept payment tier amount precheck acceptedAt =>
    result = .accepted (acceptedAs queue.kit payment tier amount acceptedAt) ∧
      HasWritten m.past ∧ amount ≤ queue.limits.receiptCapByTier tier ∧
      (tier = .t1 → payment.input.nonceRef.isSome = true →
        precheck.any NonceVerdict.passes = true)
  | _ => ∀ p, result ≠ .accepted p

def QueueCall.Ends (queue : QueueConfig) (call : QueueCall) (m : QueueMoment)
    (x : Except Thrown QueueResult) : Prop :=
  m.now.payments = m.start.payments ∧ call.Does queue m ∧
    ∀ result, x = .ok result → call.Accepts queue m result

section Parts

variable {queue : QueueConfig} {Rely : QueuePast → QueueVars → QueueVars → Prop}
  {Ask : QueuePast → QueueVars → Req → Prop}

theorem alters_refl {may : QueuedPayment → Prop} {s s' : QueueVars} (h : s'.payments = s.payments) :
    Alters may s s' := fun id => .inl (by rw [h])

theorem owes_same {α : Type} {m : QueueMoment} {rest : QueueM α}
    (h : m.now.payments = m.start.payments) : OwesChanges m rest :=
  fun id p hp => .inl (by rwa [← h])

/-- A payment that was put in is still to be stored. -/
theorem owes_put {α : Type} {m : QueueMoment} {rest : QueueM α} {p : QueuedPayment}
    (h : m.now.payments = m.start.payments.set p)
    (hrest : rest.Owes (Req.storeSet (.payment p.id) p)) : OwesChanges m rest := by
  intro id q hq
  rw [h, Payments.get_set] at hq
  by_cases hid : id = p.id
  · rw [if_pos hid] at hq
    rw [hid, ← Option.some.inj hq]
    exact .inr hrest
  · rw [if_neg hid] at hq
    exact .inl hq

theorem keeps_tick {Pauses : QueueMoment → QueueM Unit → Prop}
    {Ends : QueueMoment → Except Thrown Unit → Prop} {m : QueueMoment}
    (hpause : Pauses m tick) (hask : ∀ s', Rely m.past m.now s' → Ask m.past s' .tick)
    (hend : ∀ (a : Except Thrown Unit) s' s'', Rely m.past m.now s' →
      Rely (m.past ++ [.asked (I := client) Req.tick a]) s' s'' →
      Ends (.opening (m.past ++ [.asked (I := client) Req.tick a]) m.seen s'') a) :
    (tick : QueueM Unit).Keeps Rely Ask Pauses Ends m :=
  keeps_request (I := client) hpause hask hend

theorem keeps_storeSet {k : StoreKey} {v : k.Value} {Pauses : QueueMoment → QueueM Unit → Prop}
    {Ends : QueueMoment → Except Thrown Unit → Prop} {m : QueueMoment}
    (hpause : Pauses m (storeSet k v))
    (hask : ∀ s', Rely m.past m.now s' → Ask m.past s' (.storeSet k v))
    (hend : ∀ (a : Except Thrown Unit) s' s'', Rely m.past m.now s' →
      Rely (m.past ++ [.asked (I := client) (Req.storeSet k v) a]) s' s'' →
      Ends (.opening (m.past ++ [.asked (I := client) (Req.storeSet k v) a]) m.seen s'') a) :
    (storeSet k v : QueueM Unit).Keeps Rely Ask Pauses Ends m :=
  keeps_request (I := client) hpause hask hend

/-- A payment is put in memory and stored. -/
theorem keeps_save {Pauses : QueueMoment → QueueM Unit → Prop}
    {Ends : QueueMoment → Except Thrown Unit → Prop} {m : QueueMoment} {p : QueuedPayment}
    (h : (storeSet (.payment p.id) p : QueueM Unit).Keeps Rely Ask Pauses Ends
      (m.read.wrote { m.now with payments := m.now.payments.set p })) :
    (Queue.save p).Keeps Rely Ask Pauses Ends m := h

/-- What an admitted payment passes. -/
theorem rules_of_acceptChecks {payment : VerifiedPayment} {tier : PaymentTier} {amount : Int}
    {precheck : Option NonceVerdict} {vars : QueueVars}
    (h : Queue.acceptChecks queue vars payment tier amount precheck = .ok ()) :
    amount ≤ queue.limits.receiptCapByTier tier ∧
      (tier = .t1 → payment.input.nonceRef.isSome = true →
        precheck.any NonceVerdict.passes = true) ∧
      (tier ≠ .t0 → Queue.exposure queue vars + amount ≤ queue.limits.queueExposureCap) := by
  have hfree := get_of_acceptChecks queue h
  unfold Queue.acceptChecks at h
  simp only [hfree] at h
  split at h
  · cases h
  next hverdict =>
  split at h
  · cases h
  split at h
  · cases h
  next hcap =>
  split at h
  · cases h
  next hexposure =>
  -- The checks that were passed, in the order the source makes them.
  refine ⟨not_lt.mp hcap, fun ht1 hnonce => ?_, fun ht0 => ?_⟩
  · by_contra hpasses
    exact hverdict ⟨ht1, hnonce, hpasses⟩
  · by_contra hover
    exact hexposure ⟨ht0, not_le.mp hover⟩

section Accept

variable (hother : ∀ past s r, (∀ id p, r ≠ .storeSet (.payment id) p) → Ask past s r)
  (hstored : ∀ past s s' (p : QueuedPayment), s.payments.get p.id = some p → Rely past s s' →
    Ask past s' (.storeSet (.payment p.id) p))

include hother hstored

omit hother hstored in
/-- A segment of an accept without a write. -/
theorem accept_idle {payment : VerifiedPayment} {tier : PaymentTier} {amount : Int}
    {precheck : Option NonceVerdict} {acceptedAt : Int} (m : QueueMoment)
    (hsame : m.now.payments = m.start.payments) (hpast : m.past = m.before) :
    (QueueCall.accept payment tier amount precheck acceptedAt).Does queue m :=
  .inl ⟨hsame, by rw [hpast]; exact id⟩

omit hother hstored in
/-- An accept that ends in an exception has changed nothing in its last segment. -/
theorem accept_throws {payment : VerifiedPayment} {tier : PaymentTier} {amount : Int}
    {precheck : Option NonceVerdict} {acceptedAt : Int} {m : QueueMoment}
    (hsame : m.now.payments = m.start.payments) (hpast : m.past = m.before) (e : Thrown) :
    (QueueCall.accept payment tier amount precheck acceptedAt).Ends queue m (.error e) :=
  ⟨hsame, accept_idle m hsame hpast, fun _ h => by cases h⟩

/-- An accept keeps its contract among any others. -/
theorem keeps_accept (payment : VerifiedPayment) (tier : PaymentTier) (amount : Int)
    (precheck : Option NonceVerdict) (acceptedAt : Int) (seen s : QueueVars) :
    ((QueueCall.accept payment tier amount precheck acceptedAt).process queue).Keeps Rely Ask
      ((QueueCall.accept payment tier amount precheck acceptedAt).Pauses queue)
      ((QueueCall.accept payment tier amount precheck acceptedAt).Ends queue)
      (.opening [] seen s) := by
  refine keeps_map_iff.mpr (keeps_bind (keeps_tick ?_ ?_ ?_))
  · exact ⟨accept_idle _ rfl rfl, owes_same rfl⟩
  · exact fun s' _ => hother _ _ _ fun _ _ => nofun
  intro a s' s'' _ _
  rcases a with e | ⟨⟩
  · exact accept_throws rfl rfl e
  refine keeps_bind (p := Async.Process.read) ?_
  refine keeps_bind (keeps_ofResult ?_)
  -- The checks read the queue of this very moment, and nothing is awaited between them and `set`.
  rcases hchecks : Queue.acceptChecks queue s'' payment tier amount precheck with e | ⟨⟩
  · simp only [Moment.opening, hchecks]
    exact accept_throws rfl rfl e
  simp only [Moment.opening, hchecks]
  refine keeps_bind (keeps_save (keeps_storeSet ?_ ?_ ?_))
  · exact ⟨.inr ⟨hchecks, rfl⟩, owes_put rfl (owes_map (owes_bind (owes_request _) _) _)⟩
  · intro s₁ hs₁
    refine hstored _ _ _ _ ?_ hs₁
    exact Payments.mem_iff_get.mp (Payments.mem_set.mpr (.inl rfl))
  intro a' s₁ s₂ _ _
  rcases a' with e | ⟨⟩
  · exact accept_throws rfl rfl e
  refine ⟨rfl, accept_idle _ rfl rfl, fun result hresult => ?_⟩
  -- The write has passed, so the call resolves: with it the three rules.
  rcases rules_of_acceptChecks hchecks with ⟨hcap, hverdict, _⟩
  cases hresult
  exact ⟨rfl, ⟨_, _, List.mem_append_left _ (List.mem_append_right _ List.mem_cons_self)⟩, hcap,
    hverdict⟩

end Accept

section Expire

/-- The payments are put in memory one after another, in one segment. -/
theorem keeps_forM_setPayment {Pauses : QueueMoment → QueueM Unit → Prop}
    {Ends : QueueMoment → Except Thrown Unit → Prop} {payments : List QueuedPayment}
    {m : QueueMoment}
    (h : ∀ m' : QueueMoment, m'.before = m.before → m'.start = m.start →
      m'.now = { m.now with payments := payments.foldl Payments.set m.now.payments } →
      Ends m' (.ok ())) :
    (payments.forM Queue.setPayment).Keeps Rely Ask Pauses Ends m := by
  induction payments generalizing m with
  | nil => exact h m rfl rfl rfl
  | cons p rest ih =>
      refine keeps_bind (p := Queue.setPayment p) ?_
      exact ih fun m' hbefore hstart hnow => h m' hbefore hstart hnow

/-- The writes an expire has started, and what it returns. -/
def storing (voided left : List QueuedPayment) : QueueM QueueResult :=
  .payments <$> do
    left.forM fun payment =>
      Async.Process.tryCatch (storeSet (.payment payment.id) payment) fun _ => pure ()
    pure voided

theorem owes_storing {voided left : List QueuedPayment} {p : QueuedPayment} (h : p ∈ left) :
    (storing voided left).Owes (Req.storeSet (.payment p.id) p) := by
  induction left with
  | nil => exact absurd h List.not_mem_nil
  | cons first left ih =>
      rcases List.mem_cons.mp h with rfl | h
      · exact .inl rfl
      · refine .inr fun a => ?_
        rcases a with e | ⟨⟩
        · exact ih h
        · exact ih h

theorem keeps_storing {now : Int} {voided left : List QueuedPayment} {m : QueueMoment}
    (hstored : ∀ past s s' (p : QueuedPayment), p.state = .voided →
      s.payments.get p.id = some p → Rely past s s' → s'.payments.get p.id = some p ∧
        Ask past s' (.storeSet (.payment p.id) p))
    (hleft : ∀ p ∈ left, p.state = .voided ∧ m.now.payments.get p.id = some p)
    (hdoes : (QueueCall.expire now).Does queue m) (howes : OwesChanges m (storing voided left))
    (hsame : left = [] → m.now.payments = m.start.payments) :
    (storing voided left).Keeps Rely Ask ((QueueCall.expire now).Pauses queue)
      ((QueueCall.expire now).Ends queue) m := by
  induction left generalizing m with
  | nil => exact ⟨hsame rfl, hdoes, fun _ h p hp => by cases h; cases hp⟩
  | cons first left ih =>
      -- The first write is pending: the call owes the rest whatever it answers.
      rcases hleft first List.mem_cons_self with ⟨hstate, hget⟩
      refine ⟨⟨hdoes, howes⟩, fun s' hs' => ⟨(hstored _ _ _ _ hstate hget hs').2,
        fun a s'' hs'' => ?_⟩⟩
      have hnext : ∀ p ∈ left, p.state = .voided ∧ s''.payments.get p.id = some p := by
        intro p hp
        rcases hleft p (List.mem_cons_of_mem _ hp) with ⟨hstate, hget⟩
        exact ⟨hstate, (hstored _ _ _ _ hstate (hstored _ _ _ _ hstate hget hs').1 hs'').1⟩
      have hgo := @ih (.opening (m.past ++ [.asked (I := client)
        (Req.storeSet (.payment first.id) first) a]) m.seen s'') hnext (alters_refl rfl)
        (owes_same rfl) fun _ => rfl
      rcases a with e | ⟨⟩
      · exact hgo
      · exact hgo

theorem notFinal_of_outlived {now : Int} {q : QueuedPayment}
    (h : Queue.outlived queue now q = true) : q.state.isFinal = false := by
  rcases of_decide_eq_true h with ⟨hsettled, hvoided, _⟩
  simp only [PaymentState.isFinal, hsettled, hvoided, decide_false, Bool.or_self]

/-- An expire keeps its contract if the others leave voided payments alone. -/
theorem keeps_expire (now : Int)
    (hstored : ∀ past s s' (p : QueuedPayment), p.state = .voided →
      s.payments.get p.id = some p → Rely past s s' → s'.payments.get p.id = some p ∧
        Ask past s' (.storeSet (.payment p.id) p))
    (seen s : QueueVars) :
    ((QueueCall.expire now).process queue).Keeps Rely Ask ((QueueCall.expire now).Pauses queue)
      ((QueueCall.expire now).Ends queue) (.opening [] seen s) := by
  refine keeps_map_iff.mpr (keeps_bind (p := Async.Process.read) ?_)
  refine keeps_bind (keeps_forM_setPayment fun m' hbefore hstart hnow => ?_)
  -- What the loop over the map leaves there: the outlived are voided, the others as they were.
  have hget : ∀ id, m'.now.payments.get id = (m'.start.payments.get id).map fun payment =>
      if Queue.outlived queue now payment then voided payment else payment := by
    rw [hnow, hstart]
    exact get_foldl_expired queue now s
  refine keeps_map_iff.mp (@keeps_storing _ _ _ now (expired queue now s) (expired queue now s) m'
    hstored ?_ ?_ ?_ ?_)
  · intro p hp
    rcases mem_expired queue now s hp with ⟨q, hq, hout, rfl⟩
    refine ⟨rfl, ?_⟩
    rw [hget, hstart]
    change Option.map _ (s.payments.get (voided q).id) = _
    rw [hq, Option.map_some, if_pos hout]
  · intro id
    rcases hq : m'.start.payments.get id with _ | q
    · exact .inl (by rw [hget, hq]; rfl)
    · by_cases hout : Queue.outlived queue now q = true
      · exact .inr ⟨q, voided q, rfl, by rw [hget, hq, Option.map_some, if_pos hout],
          notFinal_of_outlived hout, ⟨rfl, rfl, rfl, rfl⟩, hbefore, hout⟩
      · exact .inl (by rw [hget, hq, Option.map_some, if_neg hout])
  · -- A payment of the map that changed is one whose write is still owed.
    intro id p hp
    rw [hget] at hp
    rcases hq : m'.start.payments.get id with _ | q
    · rw [hq] at hp
      cases hp
    · rw [hq, Option.map_some, Option.some.injEq] at hp
      split at hp
      · next hout =>
        refine .inr ?_
        have hid : id = p.id := by
          rw [← hp]
          exact (Payments.id_of_get hq).symm
        rw [hid]
        rw [hstart] at hq
        rw [← hp]
        exact owes_storing (List.mem_map_of_mem (List.mem_filter.mpr ⟨mem_ordered.mpr
          (Payments.mem_iff_get.mpr (Payments.id_of_get hq ▸ hq)), hout⟩))
      · exact .inl (congrArg some hp)
  · intro hnone
    rw [hnow, hstart]
    change List.foldl Payments.set _ (expired queue now s) = _
    rw [hnone]
    rfl

end Expire

section Claims

theorem claimed_asked {past : QueuePast} {q : QueuedPayment} (h : Claimed past q) (r : Req)
    (a : Except Thrown r.Ans) : Claimed (past ++ [.asked (I := client) r a]) q := by
  rcases h with ⟨⟨seen, new, rest, rfl, hmem⟩, hretried, hnot⟩
  refine ⟨⟨seen, new, rest ++ [.asked r a], rfl, hmem⟩, hretried, ?_⟩
  rintro ⟨seen', new', hact, hmarked⟩
  exact hnot ⟨seen', new', Act.wrote_of_asked hact, hmarked⟩

/-- A write that does not record a payment's outcome leaves it claimed. -/
theorem claimed_wrote {past : QueuePast} {q : QueuedPayment} (h : Claimed past q)
    {seen new : QueueVars} (hkeep : seen.payments.get q.id = some (marked q) →
      new.payments.get q.id = some (marked q)) :
    Claimed (past ++ [.wrote seen new]) q := by
  rcases h with ⟨⟨seen₀, new₀, rest, rfl, hmem⟩, hretried, hnot⟩
  refine ⟨⟨seen₀, new₀, rest ++ [.wrote seen new], rfl, hmem⟩, hretried, ?_⟩
  rintro ⟨seen', new', hact, hmarked, hrecorded⟩
  rcases List.mem_append.mp hact with hact | hact
  · exact hnot ⟨seen', new', hact, hmarked, hrecorded⟩
  · cases List.mem_singleton.mp hact
    exact hrecorded (hkeep hmarked)

theorem ne_marked {q : QueuedPayment} (h : q.state.retried = true) : q ≠ marked q := by
  intro heq
  have hstate : q.state = .submitting := congrArg QueuedPayment.state heq
  rw [hstate] at h
  cases h

/-- With its first write a drain takes all it retries. -/
theorem claimed_first {q : QueuedPayment} {seen : QueueVars} (new : QueueVars)
    (hget : seen.payments.get q.id = some q) (hretried : q.state.retried = true) :
    Claimed [.wrote seen new] q := by
  refine ⟨⟨seen, new, [], rfl, Payments.mem_iff_get.mpr hget⟩, hretried, ?_⟩
  rintro ⟨seen', new', hact, hmarked, _⟩
  cases List.mem_singleton.mp hact
  rw [hget, Option.some.injEq] at hmarked
  exact ne_marked hretried hmarked

/-- What was claimed before more was done and is claimed now. -/
theorem claimed_before {past acts : QueuePast} {q : QueuedPayment}
    (h : Claimed (past ++ acts) q) (hne : past ≠ []) : Claimed past q := by
  rcases h with ⟨⟨seen, new, rest, heq, hmem⟩, hretried, hnot⟩
  rcases List.append_eq_cons_iff.mp heq with ⟨hnil, _⟩ | ⟨rest', rfl, _⟩
  · exact absurd hnil hne
  · refine ⟨⟨seen, new, rest', rfl, hmem⟩, hretried, fun ⟨seen', new', hact, hmarked⟩ => ?_⟩
    exact hnot ⟨seen', new', List.mem_append_left _ hact, hmarked⟩

theorem notFinal_of_retried {state : PaymentState} (h : state.retried = true) :
    state.isFinal = false := by
  cases state with
  | queued => rfl
  | failed => rfl
  | _ => cases h

end Claims

section Drain

/-- A drain between two turns: nothing has been changed in this segment, and what
    is left to go through is as it was when the drain began, and claimed. -/
structure Draining (left : List QueuedPayment) (m : QueueMoment) : Prop where
  same : m.now.payments = m.start.payments
  held : ∀ r ∈ left, r.state.retried = true → m.now.payments.get r.id = some r
  claims : m.before = [] ∧ m.past = [] ∨
    m.before ≠ [] ∧ ∀ r ∈ left, r.state.retried = true → Claimed m.before r ∧ Claimed m.past r
  handed : Handed m

/-- A drain in the middle of a turn: its payment is marked. -/
structure Submitting (q : QueuedPayment) (left : List QueuedPayment) (m : QueueMoment) :
    Prop extends Draining left m where
  marked : m.now.payments.get q.id = some (marked q)
  retried : q.state.retried = true
  claimed : Claimed m.before q ∧ Claimed m.past q

variable {key : CryptoKeyPair} {q : QueuedPayment} {left : List QueuedPayment} {m : QueueMoment}

theorem ne_nil_of_claimed {past : QueuePast} (h : Claimed past q) : past ≠ [] := by
  rcases h with ⟨⟨_, _, _, rfl, _⟩, _⟩
  exact List.cons_ne_nil _ _

theorem Submitting.begun (h : Submitting q left m) : m.before ≠ [] :=
  ne_nil_of_claimed h.claimed.1

theorem Submitting.claims_left (h : Submitting q left m) {r : QueuedPayment} (hr : r ∈ left)
    (hretried : r.state.retried = true) : Claimed m.past r :=
  ((h.claims.resolve_left fun hnone => h.begun hnone.1).2 r hr hretried).2

theorem Draining.does (h : Draining left m) : (QueueCall.drain key).Does queue m := by
  refine ⟨alters_refl h.same, fun hbefore c hc => ?_, h.handed⟩
  rcases h.claims with ⟨_, hpast⟩ | ⟨hne, _⟩
  · rcases hc with ⟨⟨_, _, _, heq, _⟩, _⟩
    rw [hpast] at heq
    cases heq
  · exact absurd hbefore hne

theorem Draining.read (h : Draining left m) : Draining left m.read :=
  ⟨h.same, h.held, h.claims, h.handed⟩

theorem Draining.tail (h : Draining (q :: left) m) : Draining left m where
  same := h.same
  held := fun r hr => h.held r (List.mem_cons_of_mem _ hr)
  claims := h.claims.imp_right fun ⟨hne, hc⟩ =>
    ⟨hne, fun r hr => hc r (List.mem_cons_of_mem _ hr)⟩
  handed := h.handed

/-- The write of a turn: a payment the drain has taken, or takes now, is replaced. -/
theorem does_put {q' p : QueuedPayment} (hsame : m.now.payments = m.start.payments)
    (hget : m.now.payments.get q.id = some p) (hfinal : p.state.isFinal = false)
    (hsale : SameSale p q') (hclaims : m.before = [] ∧ m.past = [] ∧ p.state.retried = true ∨
      m.before ≠ [] ∧ Claimed m.before q) (hid : q'.id = q.id) (hhanded : Handed m) :
    (QueueCall.drain key).Does queue
      (m.read.wrote { m.now with payments := m.now.payments.set q' }) := by
  refine ⟨fun id => ?_, fun hbefore c hc => ?_, hhanded⟩
  · -- Every other payment is as the segment found it.
    change (m.now.payments.set q').get id = m.start.payments.get id ∨ _
    by_cases heq : id = q.id
    · refine .inr ⟨p, q', ?_, ?_, hfinal, hsale, ?_⟩
      · rw [heq]
        exact hsame ▸ hget
      · change (m.now.payments.set q').get id = _
        rw [Payments.get_set, if_pos (heq.trans hid.symm)]
      · rcases hclaims with ⟨hbefore, _, hretried⟩ | ⟨_, hclaimed⟩
        · exact .inl ⟨hbefore, hretried⟩
        · exact .inr ⟨q, hclaimed, (Payments.id_of_get hget).symm⟩
    · left
      rw [Payments.get_set, if_neg (fun h => heq (h.trans hid)), hsame]
  · -- Only the first write of a drain is a claim, and it is of what the ledger held.
    rcases hclaims with ⟨_, hpast, _⟩ | ⟨hne, _⟩
    · rcases hc with ⟨⟨seen, new, rest, hacts, hmem⟩, hretried, _⟩
      change m.past ++ _ = _ at hacts
      rw [hpast, List.nil_append, List.cons.injEq] at hacts
      cases hacts.1
      exact ⟨hsame ▸ hmem, hretried⟩
    · exact absurd hbefore hne

theorem handed_of_ne {past : QueuePast} {seen s : QueueVars} {r : Req} {a : Except Thrown r.Ans}
    (h : ∀ (p : QueuedPayment), r = .storeSet (.payment p.id) p → p.state ≠ .submitting) :
    Handed (.opening (past ++ [.asked (I := client) r a]) seen s) := by
  intro earlier q heq hstate
  cases List.head_eq_of_cons_eq (List.append_inj' heq rfl).2
  exact absurd hstate (h q rfl)

/-- A payment stored under its key is the payment stored. -/
theorem storeSet_inj {p p' : QueuedPayment}
    (h : Req.storeSet (.payment p.id) p = Req.storeSet (.payment p'.id) p') : p = p' := by
  generalize hid : p.id = id at h
  generalize hid' : p'.id = id' at h
  injection h

theorem asked_inj {r r' : Req} {a : Except Thrown r.Ans} {a' : Except Thrown r'.Ans}
    (h : Act.asked (I := client) (σ := QueueVars) r a = .asked (I := client) r' a') : r = r' := by
  injection h

/-- What is left is as it was after a wait. -/
theorem Draining.resume
    (hclaims : ∀ past s s' (q p : QueuedPayment), Rely past s s' → Claimed past q →
      s.payments.get q.id = some p → s'.payments.get q.id = some p)
    (hheld : ∀ r ∈ left, r.state.retried = true →
      m.now.payments.get r.id = some r ∧ Claimed m.past r)
    {r : Req} {a : Except Thrown r.Ans} {s' s'' : QueueVars} (hs' : Rely m.past m.now s')
    (hs'' : Rely (m.past ++ [.asked (I := client) r a]) s' s'')
    (hhanded : Handed (.opening (m.past ++ [.asked (I := client) r a]) m.seen s'')) :
    Draining left (.opening (m.past ++ [.asked (I := client) r a]) m.seen s'') where
  same := rfl
  held := fun p hp hretried => by
    rcases hheld p hp hretried with ⟨hget, hclaimed⟩
    exact hclaims _ _ _ _ _ hs'' (claimed_asked hclaimed r a)
      (hclaims _ _ _ _ _ hs' hclaimed hget)
  claims := .inr ⟨List.append_ne_nil_of_right_ne_nil _ (List.cons_ne_nil _ _), fun p hp hretried =>
    have hclaimed := claimed_asked (hheld p hp hretried).2 r a
    ⟨hclaimed, hclaimed⟩⟩
  handed := hhanded

/-- With its first write a drain claims what it goes through, and later writes
    leave what is left claimed. -/
theorem Draining.claim (h : Draining left m) (new : QueueVars) {r : QueuedPayment} (hr : r ∈ left)
    (hretried : r.state.retried = true) : Claimed (m.read.wrote new).past r := by
  have hget := h.held r hr hretried
  rcases h.claims with ⟨_, hpast⟩ | ⟨_, hclaims⟩
  · change Claimed (m.past ++ _) r
    rw [hpast]
    exact claimed_first _ hget hretried
  · refine claimed_wrote (hclaims r hr hretried).2 fun hmarked => ?_
    exact absurd (Option.some.inj (hget.symm.trans hmarked)) (ne_marked hretried)

/-- The write of a turn leaves what is left as it was. -/
theorem Draining.put (h : Draining left m) (q' : QueuedPayment)
    (hne : q'.id ∉ left.map QueuedPayment.id) {r : QueuedPayment} (hr : r ∈ left)
    (hretried : r.state.retried = true) : (m.now.payments.set q').get r.id = some r := by
  have hid : r.id ≠ q'.id := fun heq => hne (heq ▸ List.mem_map_of_mem hr)
  rw [Payments.get_set, if_neg hid]
  exact h.held r hr hretried

/-- Counting leaves the payments alone. -/
theorem Draining.count (h : Draining left m) (hbegun : m.before ≠ []) (n : Nat) :
    Draining left (m.read.wrote { m.now with consecutiveFailedSends := n }) where
  same := h.same
  held := h.held
  claims := .inr ⟨hbegun, fun r hr hretried =>
    ⟨((h.claims.resolve_left fun hnone => hbegun hnone.1).2 r hr hretried).1,
      h.claim _ hr hretried⟩⟩
  handed := h.handed

/-- What a drain's parts promise where they stop makes up what the drain
    promises. -/
structure Turning {β : Type} (queue : QueueConfig) (key : CryptoKeyPair)
    (P : QueueMoment → QueueM β → Prop) (E : QueueMoment → Except Thrown β → Prop) : Prop where
  pauses : ∀ m rest, (QueueCall.drain key).Does queue m → OwesChanges m rest → P m rest
  throws : ∀ m e, m.now.payments = m.start.payments → (QueueCall.drain key).Does queue m →
    E m (.error e)

theorem owes_changes_bind {α β : Type} {rest : QueueM α} (h : OwesChanges m rest)
    (f : α → QueueM β) : OwesChanges m (rest >>= f) :=
  fun id p hp => (h id p hp).imp_right fun h => owes_bind h f

theorem Turning.bind {α β : Type} {P : QueueMoment → QueueM β → Prop}
    {E : QueueMoment → Except Thrown β → Prop} (h : Turning queue key P E) (f : α → QueueM β) :
    Turning queue key (fun m rest => P m (rest >>= f)) (SetsUp Rely Ask P E f) :=
  ⟨fun m _ hdoes howes => h.pauses m _ hdoes (owes_changes_bind howes f), h.throws⟩

section Turn

variable
  (hother : ∀ past s r, (∀ id p, r ≠ .storeSet (.payment id) p) → Ask past s r)
  (hstored : ∀ past s s' (p : QueuedPayment), s.payments.get p.id = some p → Rely past s s' →
    Ask past s' (.storeSet (.payment p.id) p))
  (hclaims : ∀ past s s' (q p : QueuedPayment), Rely past s s' → Claimed past q →
    s.payments.get q.id = some p → s'.payments.get q.id = some p)

section Mark

include hstored hclaims

/-- The first half of a turn: a payment is marked. -/
theorem keeps_mark {P : QueueMoment → QueueM Unit → Prop}
    {E : QueueMoment → Except Thrown Unit → Prop} (hturn : Turning queue key P E)
    (hok : ∀ m, Submitting q left m → E m (.ok ()))
    (hne : q.id ∉ left.map QueuedPayment.id) (hretried : q.state.retried = true)
    (h : Draining (q :: left) m) : (Queue.save (marked q)).Keeps Rely Ask P E m := by
  have hq := h.held q List.mem_cons_self hretried
  have hmarked : (m.now.payments.set (marked q)).get q.id = some (marked q) := by
    rw [Payments.get_set]
    exact if_pos rfl
  refine keeps_save (keeps_storeSet ?_ ?_ ?_)
  · refine hturn.pauses _ _ (does_put h.same hq (notFinal_of_retried hretried)
      ⟨rfl, rfl, rfl, rfl⟩ ?_ rfl h.handed)
      (owes_put (congrArg (fun payments => payments.set (marked q)) h.same) (owes_request _))
    exact h.claims.imp (fun ⟨hb, hp⟩ => ⟨hb, hp, hretried⟩)
      fun ⟨hb, hc⟩ => ⟨hb, (hc q List.mem_cons_self hretried).1⟩
  · exact fun s' hs' => hstored _ _ _ _ hmarked hs'
  intro a s' s'' hs' hs''
  -- From here on the payment is this drain's: other calls leave it as it is marked.
  have hc := h.claim { m.now with payments := m.now.payments.set (marked q) }
    List.mem_cons_self hretried
  have hc' := claimed_asked hc (.storeSet (.payment q.id) (marked q)) a
  have hnow : s''.payments.get q.id = some (marked q) :=
    hclaims _ _ _ q _ hs'' hc' (hclaims _ _ _ q _ hs' hc hmarked)
  have hnext : Draining left (.opening _ _ s'') :=
    Draining.resume hclaims (fun r hr hr' => ⟨h.tail.put (marked q) hne hr hr',
      h.claim _ (List.mem_cons_of_mem _ hr) hr'⟩) hs' hs'' fun earlier p heq _ => by
        rw [← storeSet_inj (asked_inj (List.head_eq_of_cons_eq (List.append_inj' heq rfl).2))]
        exact hnow
  rcases a with e | ⟨⟩
  · exact hturn.throws _ e rfl hnext.does
  · exact hok _ ⟨hnext, hnow, hretried, hc', hc'⟩

end Mark

include hother hclaims in
/-- While a payment is being submitted nothing is written. -/
theorem keeps_submit {P : QueueMoment → QueueM SubmitOutcome → Prop}
    {E : QueueMoment → Except Thrown SubmitOutcome → Prop} (hturn : Turning queue key P E)
    (hok : ∀ m o, Submitting q left m → E m (.ok o)) (h : Submitting q left m) :
    (submit queue.kit q.payment key).Keeps Rely Ask P E m := by
  refine keeps_of_obeys (R := fun r => Req.isOnline r = true) (Submitting q left) ?_ ?_ ?_
    (online_submit queue.kit q.payment key [] m.now) h
  · exact fun m h => ⟨h.toDraining.read, h.marked, h.retried, h.claimed⟩
  · intro m r k h honline
    -- Nothing that is asked online is a write of a payment.
    have hne : ∀ id p, r ≠ .storeSet (.payment id) p := by
      rintro id p rfl
      cases honline
    refine ⟨hturn.pauses m _ h.toDraining.does (owes_same h.same), fun s' hs' =>
      ⟨hother _ _ _ hne, fun a s'' hs'' => ?_⟩⟩
    have hc := claimed_asked h.claimed.2 r a
    refine ⟨Draining.resume hclaims (fun p hp hp' => ⟨h.held p hp hp', h.claims_left hp hp'⟩)
      hs' hs'' (handed_of_ne fun p heq => absurd heq (hne _ _)), ?_, h.retried, hc, hc⟩
    exact hclaims _ _ _ q _ hs'' hc (hclaims _ _ _ q _ hs' h.claimed.2 h.marked)
  · rintro m (e | o) h
    · exact hturn.throws m e h.same h.toDraining.does
    · exact hok m o h

include hstored hclaims in
/-- The second half of a turn: the payment's outcome is stored. -/
theorem keeps_outcome {P : QueueMoment → QueueM Unit → Prop}
    {E : QueueMoment → Except Thrown Unit → Prop} (hturn : Turning queue key P E)
    (o : SubmitOutcome) (hok : ∀ m, Draining left m → m.before ≠ [] → E m (.ok ()))
    (hne : q.id ∉ left.map QueuedPayment.id) (h : Submitting q left m) :
    (Queue.save (recorded q o)).Keeps Rely Ask P E m := by
  -- Recording the outcome changes neither the id nor the terms, and ends `submitting`.
  have hid : (recorded q o).id = q.id := by
    cases o with
    | settled _ _ => rfl
    | failed _ _ _ => rfl
  have hsale : SameSale (marked q) (recorded q o) := by
    cases o with
    | settled _ _ => exact ⟨rfl, rfl, rfl, rfl⟩
    | failed _ _ _ => exact ⟨rfl, rfl, rfl, rfl⟩
  have hfinal : (recorded q o).state ≠ .submitting := by
    cases o with
    | settled _ _ => exact PaymentState.noConfusion
    | failed _ _ _ => exact PaymentState.noConfusion
  have hstore : (m.now.payments.set (recorded q o)).get (recorded q o).id
      = some (recorded q o) := by
    rw [Payments.get_set]
    exact if_pos rfl
  refine keeps_save (keeps_storeSet ?_ ?_ ?_)
  · exact hturn.pauses _ _ (does_put h.same h.marked rfl hsale (.inr ⟨h.begun, h.claimed.1⟩) hid
      h.handed)
      (owes_put (congrArg (fun payments => payments.set (recorded q o)) h.same) (owes_request _))
  · exact fun s' hs' => hstored _ _ _ _ hstore hs'
  intro a s' s'' hs' hs''
  have hnext : Draining left (.opening _ _ s'') :=
    Draining.resume hclaims (fun r hr hr' => ⟨h.toDraining.put (recorded q o) (hid ▸ hne) hr hr',
      h.toDraining.claim _ hr hr'⟩) hs' hs''
      (handed_of_ne fun p heq => storeSet_inj heq ▸ hfinal)
  rcases a with e | ⟨⟩
  · exact hturn.throws _ e rfl hnext.does
  · exact hok _ hnext (List.append_ne_nil_of_right_ne_nil _ (List.cons_ne_nil _ _))

include hstored hclaims in
/-- Then the failed sends are counted. -/
theorem keeps_record {P : QueueMoment → QueueM Unit → Prop}
    {E : QueueMoment → Except Thrown Unit → Prop} (hturn : Turning queue key P E)
    (o : SubmitOutcome) (hok : ∀ m, Draining left m → m.before ≠ [] → E m (.ok ()))
    (hne : q.id ∉ left.map QueuedPayment.id) (h : Submitting q left m) :
    (Queue.record q o).Keeps Rely Ask P E m := by
  have hcount : ∀ m n, Draining left m → m.before ≠ [] →
      (Queue.setConsecutiveFailedSends n).Keeps Rely Ask P E m :=
    fun m n h hbegun => hok _ (h.count hbegun n) hbegun
  cases o with
  | settled signature newNonceValue =>
      refine keeps_bind (p := Queue.save (recorded q (.settled signature newNonceValue))) ?_
      exact keeps_outcome hstored hclaims
        (hturn.bind fun _ => Queue.setConsecutiveFailedSends 0) _ (fun m => hcount m 0) hne h
  | failed code signature newNonceValue =>
      refine keeps_bind (p := Queue.save (recorded q (.failed code signature newNonceValue))) ?_
      refine keeps_outcome hstored hclaims (hturn.bind fun _ => if countsAsFailedSend code then do
          let vars ← Async.Process.read
          Queue.setConsecutiveFailedSends (vars.consecutiveFailedSends + 1)
        else pure ()) _ (fun m hm hbegun => ?_) hne h
      change (if countsAsFailedSend code = true then _ else _ : QueueM Unit).Keeps Rely Ask P E m
      split
      · -- Only a failure that counts reads and raises the counter.
        exact hcount _ _ hm.read hbegun
      · exact hok m hm hbegun

include hother hclaims in
theorem keeps_saveMeta {P : QueueMoment → QueueM Unit → Prop}
    {E : QueueMoment → Except Thrown Unit → Prop} (hturn : Turning queue key P E)
    (hok : ∀ m, Draining left m → m.before ≠ [] → E m (.ok ())) (hbegun : m.before ≠ [])
    (h : Draining left m) : Queue.saveMeta.Keeps Rely Ask P E m := by
  refine keeps_bind (p := Async.Process.read) ?_
  refine keeps_storeSet ?_ (fun s' _ => hother _ _ _ fun _ _ => nofun) ?_
  · exact hturn.pauses _ _ h.read.does (owes_same h.same)
  intro a s' s'' hs' hs''
  have hnext := Draining.resume hclaims (fun r hr hr' => ⟨h.read.held r hr hr',
    ((h.claims.resolve_left fun hnone => hbegun hnone.1).2 r hr hr').2⟩) hs' hs''
    (handed_of_ne fun p heq => by injection heq with hkey; cases hkey)
  rcases a with e | ⟨⟩
  · exact hturn.throws _ e rfl hnext.does
  · exact hok _ hnext (List.append_ne_nil_of_right_ne_nil _ (List.cons_ne_nil _ _))

include hother hstored hclaims

/-- A turn keeps the drain's contract. -/
theorem keeps_drainOne {P : QueueMoment → QueueM SubmitOutcome → Prop}
    {E : QueueMoment → Except Thrown SubmitOutcome → Prop} (hturn : Turning queue key P E)
    (hok : ∀ m o, Draining left m → E m (.ok o))
    (hne : q.id ∉ left.map QueuedPayment.id) (hretried : q.state.retried = true)
    (h : Draining (q :: left) m) : (Queue.drainOne queue key q).Keeps Rely Ask P E m := by
  refine keeps_bind (p := Queue.save (marked q)) ?_
  refine keeps_mark hstored hclaims (hturn.bind _) (fun m h => ?_) hne hretried h
  refine keeps_bind (p := submit queue.kit q.payment key) ?_
  refine keeps_submit hother hclaims (hturn.bind _) (fun m o h => ?_) h
  refine keeps_bind (p := Queue.record q o) ?_
  refine keeps_record hstored hclaims (hturn.bind _) o (fun m h hbegun => ?_) hne h
  refine keeps_bind (p := Queue.saveMeta) ?_
  exact keeps_saveMeta hother hclaims (hturn.bind _) (fun m h _ => hok m o h) hbegun h

/-- Turn by turn. -/
theorem keeps_drainPayments {P : QueueMoment → QueueM (List SubmitOutcome) → Prop}
    {E : QueueMoment → Except Thrown (List SubmitOutcome) → Prop} (hturn : Turning queue key P E)
    (hok : ∀ m outcomes, Draining [] m → E m (.ok outcomes))
    (hnodup : (left.map QueuedPayment.id).Nodup) (h : Draining left m) :
    (Queue.drainPayments queue key left).Keeps Rely Ask P E m := by
  induction left generalizing P E m with
  | nil => exact hok m [] h
  | cons q left ih =>
      rw [List.map_cons, List.nodup_cons] at hnodup
      rw [Queue.drainPayments]
      split
      · next hretried =>
        refine keeps_bind (p := Queue.drainOne queue key q) ?_
        refine keeps_drainOne hother hstored hclaims (hturn.bind _) (fun m o h => ?_) hnodup.1
          hretried h
        refine keeps_bind (p := Queue.drainPayments queue key left) ?_
        exact ih (hturn.bind _) (fun m outcomes h => hok m (o :: outcomes) h) hnodup.2 h
      · exact ih hturn hok hnodup.2 h.tail

/-- A drain keeps its contract if nobody else writes over what it has claimed. -/
theorem keeps_drain (seen s : QueueVars) :
    ((QueueCall.drain key).process queue).Keeps Rely Ask ((QueueCall.drain key).Pauses queue)
      ((QueueCall.drain key).Ends queue) (.opening [] seen s) := by
  refine keeps_map_iff.mpr (keeps_bind (p := Async.Process.read) ?_)
  refine keeps_drainPayments hother hstored hclaims ⟨fun m rest hdoes howes => ?_,
    fun m e hsame hdoes => ?_⟩ (fun m outcomes h => ?_) (nodup_ordered queue s) ?_
  · exact ⟨hdoes, fun id p hp => (howes id p hp).imp_right fun h => owes_map h _⟩
  · exact ⟨hsame, hdoes, fun _ h => by cases h⟩
  · exact ⟨h.same, h.does, fun _ h p hp => by cases h; cases hp⟩
  · refine ⟨rfl, fun r hr _ => ?_, .inl ⟨rfl, rfl⟩, fun earlier q heq _ => ?_⟩
    · exact Payments.mem_iff_get.mp (mem_ordered.mp hr)
    · exact absurd heq.symm (List.append_ne_nil_of_right_ne_nil _ (List.cons_ne_nil _ _))

end Turn

end Drain

end Parts

end Vadum
