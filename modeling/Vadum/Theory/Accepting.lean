import Vadum.Theory.Exposure
import Vadum.Theory.Finality
import Vadum.Theory.Reopening
import Vadum.Theory.Signing

/-!
# Accepting at the Same Time

Several accepts may be under way at once: each waits for a hash before it
checks the rules, and for a write after it has added its payment. What makes
this safe is that nothing comes between the checks and the addition, and that
an addition takes nothing away: under the eyes of an accept that waits, the
payments in memory only grow. A drain and an expire change payments in place,
so they run while no accept is in progress. The writes that an expire has
started harm nobody, since what is voided stays voided.

A queue's life is a sequence of such times, with the store loaded and the queue
reopened in between, when nothing is in progress. What carries over is that
memory and store hold the same payments: what a call has changed in memory it
still has to write, until it has.

## Main definitions

* `Acceptance`, `acceptances`: What accepts have returned.
* `QueueCall.Carries`: An accept passes the amount of a verified payment.
* `QueueCall.joins`, `Crowded`, `OneAtATime`: Which calls may overlap.
* `Trades`: The lives of a queue, from one time to the next.
* `OtherSale`, `Blocks`: What an accepted payment rules out.
* `Selling`, `Storing`: What holds while calls are under way.
* `Safe`: What holds of the acceptances so far.

## Theorems

* `steps_sale`: Every schedule keeps what holds while calls are under way.
* `Trades.safe`: What carries over from one time to the next.
* `accepts_safe`: No key twice, no cap passed, whatever the interleaving.
-/

namespace Vadum

open Async
open Async.Process (run)

variable {ρ ω : Type}

/-- A payment that an accept has returned, and the verdict it was given. -/
structure Acceptance where
  payment : QueuedPayment
  precheck : Option NonceVerdict
deriving DecidableEq

/-- What a call has returned, if it is an accept that has resolved. -/
def acceptanceAt (calls : List QueueCall) (sys : QueueSystem ω) (t : Nat) : Option Acceptance :=
  match calls[t]?, sys.result t with
  | some (.accept _ _ _ precheck _), some (.ok (.accepted payment)) => some ⟨payment, precheck⟩
  | _, _ => none

/-- What the accepts among the calls have returned. -/
def acceptances (calls : List QueueCall) (sys : QueueSystem ω) : List Acceptance :=
  (List.range calls.length).filterMap (acceptanceAt calls sys)

/-- A payment that has been verified. -/
def Verified (kit : Kit) (payment : VerifiedPayment) : Prop :=
  ∃ intent auth expectedAmount, verifyAuth kit intent auth expectedAmount = .ok payment

/-- An accept passes the amount that its payment carries. -/
def QueueCall.Carries (queue : QueueConfig) : QueueCall → Prop
  | .accept payment _ amount _ _ => Verified queue.kit payment ∧ amount = payment.input.amount
  | _ => True

/-- The first call may begin while the second is under way: both are accepts,
    or the second is an expire, of which only writes are left. -/
def QueueCall.joins : QueueCall → QueueCall → Bool
  | _, .expire _ => true
  | .accept _ _ _ _ _, .accept _ _ _ _ _ => true
  | _, _ => false

def joinsAt (calls : List QueueCall) (t t' : Nat) : Bool :=
  match calls[t]?, calls[t']? with
  | some call, some call' => call.joins call'
  | _, _ => true

/-- A call is about to begin while another is under way that it may not join. -/
def Crowded (calls : List QueueCall) (sys : QueueSystem ω) (t : Nat) : Prop :=
  Begins sys t ∧ ∃ t' < calls.length, t' ≠ t ∧ InProgress sys t' ∧ joinsAt calls t t' = false

/-- A store write is about to be refused. -/
def Refused (network : Network ρ) (sys : QueueSystem (World ρ)) (t : Nat) : Prop :=
  ∃ seen k v next, sys.threads[t]? = some ⟨seen, .waiting (.storeSet k v) next⟩ ∧
    (network.storage sys.world.net).1 ≠ none

/-- A schedule in which no call begins where it is crowded. -/
def OneAtATime (reply : Reply client Thrown ω) (calls : List QueueCall) :
    List Choice → QueueSystem ω → Prop
  | [], _ => True
  | choice :: choices, sys => (∀ t, choice = .resume t → ¬ Crowded calls sys t) ∧
      OneAtATime reply calls choices (sys.step reply choice)

/-- A schedule in which no store write is refused. -/
def WritesPass (network : Network ρ) (choices : List Choice) (sys : QueueSystem (World ρ)) : Prop :=
  ∀ pre t post, choices = pre ++ .serve t :: post →
    ¬ Refused network (sys.steps (reply network) pre) t

/-- Calls under way, in the order of a schedule. -/
def underWay (network : Network ρ) (queue : QueueConfig) (vars : QueueVars) (w : World ρ)
    (calls : List QueueCall) (choices : List Choice) : QueueSystem (World ρ) :=
  (System.start vars w (calls.map (QueueCall.process queue))).steps (reply network) choices

/-- The lives of a queue over a store that holds no payment at first: what its
    accepts have returned, and what it finds when nothing is in progress. -/
inductive Trades (network : Network ρ) (queue : QueueConfig) :
    List Acceptance → QueueVars → World ρ → Prop where
  | fresh {w : World ρ} (hnone : ∀ id, w.store.lookup (.payment id) = none) :
      Trades network queue [] .empty w
  | calls {accepted : List Acceptance} {vars : QueueVars} {w : World ρ}
      (h : Trades network queue accepted vars w) (calls : List QueueCall) (choices : List Choice)
      (hcarry : ∀ call ∈ calls, call.Carries queue)
      (hschedule : OneAtATime (reply network) calls choices
        (System.start vars w (calls.map (QueueCall.process queue))))
      (hwrites : WritesPass network choices
        (System.start vars w (calls.map (QueueCall.process queue))))
      (hidle : ∀ t, ¬ InProgress (underWay network queue vars w calls choices) t) :
      Trades network queue
        (accepted ++ acceptances calls (underWay network queue vars w calls choices))
        (underWay network queue vars w calls choices).vars
        (underWay network queue vars w calls choices).world
  | load {accepted : List Acceptance} {vars : QueueVars} {w : World ρ}
      (h : Trades network queue accepted vars w) :
      Trades network queue accepted (run (reply network) (Queue.load queue) vars w).vars
        (run (reply network) (Queue.load queue) vars w).world
  | reopen {accepted : List Acceptance} {vars vars' : QueueVars} {w w' : World ρ}
      {payments : List QueuedPayment} (h : Trades network queue accepted vars w)
      (hload : run (reply network) (Queue.load queue) .empty w = ⟨.ok payments, vars', w'⟩) :
      Trades network queue accepted vars' w'

/-- Two payments that share no key, and neither a slot with its value nor a
    message. -/
structure OtherSale (kit : Kit) (a b : QueuedPayment) : Prop where
  id : a.id ≠ b.id
  nonce : ∀ ref, a.payment.input.nonceRef = some ref → b.payment.input.nonceRef = some ref →
    a.payment.input.payer ≠ b.payment.input.payer
  fresh : a.payment.input.nonceRef = none → b.payment.input.nonceRef = none →
    a.payment.input.payer = b.payment.input.payer →
    kit.sha256 a.payment.messageBytes ≠ kit.sha256 b.payment.messageBytes

/-- Another payment under the key is refused. -/
def Blocks (queue : QueueConfig) (vars : QueueVars) (p : QueuedPayment) : Prop :=
  ∀ payment tier amount precheck, paymentId queue.kit payment = p.id → ∃ state : PaymentState,
    Queue.acceptChecks queue vars payment tier amount precheck
      = .error (vadumError .wireDuplicateAuth
        [("id", .paymentId p.id), ("state", .text state.text)])

instance decidableCrowded (calls : List QueueCall) (sys : QueueSystem ω) (t : Nat) :
    Decidable (Crowded calls sys t) :=
  inferInstanceAs (Decidable (Begins sys t ∧ ∃ t' < calls.length, t' ≠ t ∧ InProgress sys t' ∧
    joinsAt calls t t' = false))

instance decidableOneAtATime (reply : Reply client Thrown ω) (calls : List QueueCall) :
    (choices : List Choice) → (sys : QueueSystem ω) → Decidable (OneAtATime reply calls choices sys)
  | [], _ => .isTrue trivial
  | .resume t :: choices, sys =>
    have := decidableOneAtATime reply calls choices (sys.step reply (.resume t))
    decidable_of_iff (¬ Crowded calls sys t ∧ _)
      (and_congr_left fun _ => ⟨fun h _ ht' => Choice.resume.inj ht' ▸ h, fun h => h t rfl⟩)
  | .serve t :: choices, sys =>
    have := decidableOneAtATime reply calls choices (sys.step reply (.serve t))
    decidable_of_iff _ (and_iff_right fun _ => Choice.noConfusion).symm

theorem writesPass_of_works {network : Network ρ} (hs : StorageWorks network)
    (choices : List Choice) (sys : QueueSystem (World ρ)) : WritesPass network choices sys := by
  rintro pre t post _ ⟨_, _, _, _, _, hrefused⟩
  exact hrefused (hs _)

section Contracts

/-- What is in memory stays as it is. -/
def Grows (s s' : QueueVars) : Prop :=
  ∀ id p, s.payments.get id = some p → s'.payments.get id = some p

/-- What a call relies on: an expire that voided payments stay, the others that
    all payments do. -/
def SaleRely (calls : List QueueCall) (t : Nat) (_ : QueuePast) (s s' : QueueVars) : Prop :=
  FinalStay s s' ∧ ((∀ now, calls[t]? ≠ some (.expire now)) → Grows s s')

/-- A payment that is written to the store is in memory. -/
def SaleAsk (s : QueueVars) (r : Req) : Prop :=
  ∀ id p, r = .storeSet (.payment id) p → s.payments.get id = some p

theorem saleAsk_of_ne {s : QueueVars} {r : Req} (h : ∀ id p, r ≠ .storeSet (.payment id) p) :
    SaleAsk s r := fun id p hr => absurd hr (h id p)

theorem saleAsk_storeSet {s : QueueVars} {p : QueuedPayment}
    (h : s.payments.get p.id = some p) : SaleAsk s (.storeSet (.payment p.id) p) := by
  intro id p' hr
  injection hr with hkey hvalue
  cases hkey
  rw [← hvalue]
  exact h

variable {queue : QueueConfig} {calls : List QueueCall}

/-- The contracts of the calls fit together. -/
theorem fits_sale : Fits (calls.map (QueueCall.process queue)) (SaleRely calls)
    (fun _ _ => SaleAsk) (callPauses queue calls) (callEnds queue calls) where
  refl t past s := ⟨finalStay_refl s, fun _ _ _ h => h⟩
  trans t past s s' s'' h h' :=
    ⟨h.1.trans h'.1, fun hother id p hp => h'.2 hother id p (h.2 hother id p hp)⟩
  keeps t p hp seen s := by
    rw [List.getElem?_map, Option.map_eq_some_iff] at hp
    rcases hp with ⟨call, hcall, rfl⟩
    refine keeps_call hcall ?_
    have hother : ∀ {call' : QueueCall}, calls[t]? = some call' → (∀ now, call' ≠ .expire now) →
        ∀ now, calls[t]? ≠ some (.expire now) := fun hcall' hne now heq =>
      hne now (Option.some.inj (hcall'.symm.trans heq))
    -- Only an expiry removes payments from those in sight, and it writes nothing it does not own.
    cases call with
    | accept payment tier amount precheck acceptedAt =>
        have hgrows := hother hcall fun _ => QueueCall.noConfusion
        exact keeps_accept (fun _ _ _ => saleAsk_of_ne)
          (fun _ _ _ p hp h => saleAsk_storeSet (h.2 hgrows p.id p hp)) _ _ _ _ _ _ _
    | drain key =>
        have hgrows := hother hcall fun _ => QueueCall.noConfusion
        exact keeps_drain (fun _ _ _ => saleAsk_of_ne)
          (fun _ _ _ p hp h => saleAsk_storeSet (h.2 hgrows p.id p hp))
          (fun _ _ _ q p h _ hp => h.2 hgrows q.id p hp) _ _
    | expire now =>
        refine keeps_expire now (fun _ _ _ p hstate hp h => ?_) _ _
        have hstay := h.1 p.id p hp (by rw [hstate]; rfl)
        exact ⟨hstay, saleAsk_storeSet hstay⟩

end Contracts

section Changes

variable {queue : QueueConfig} {m : QueueMoment} {call : QueueCall}

/-- What a segment does to memory: it changes payments that are not done with, in
    place, or it adds one by the rules. -/
theorem QueueCall.Does.changes (h : call.Does queue m) :
    Alters (fun _ => True) m.start m.now ∨
      ∃ payment tier amount precheck acceptedAt,
        call = .accept payment tier amount precheck acceptedAt ∧
        Adds queue payment tier amount precheck acceptedAt m.start m.now := by
  have hany : ∀ {may : QueuedPayment → Prop}, Alters may m.start m.now →
      Alters (fun _ => True) m.start m.now := fun h id => (h id).imp_right
    fun ⟨q, q', hq, hq', hnot, hsale, _⟩ => ⟨q, q', hq, hq', hnot, hsale, trivial⟩
  cases call with
  | accept payment tier amount precheck acceptedAt =>
      rcases h with ⟨hsame, _⟩ | hadds
      · exact .inl (alters_refl hsame)
      · exact .inr ⟨_, _, _, _, _, rfl, hadds⟩
  | drain key => exact .inl (hany h.1)
  | expire now => exact .inl (hany h)

/-- No key is given up. -/
theorem QueueCall.Does.remains (h : call.Does queue m) {id : PaymentId}
    (hid : m.start.payments.get id ≠ none) : m.now.payments.get id ≠ none := by
  rcases h.changes with halters | ⟨_, _, _, _, _, _, hadds⟩
  · rcases halters id with hsame | ⟨q, q', _, hq', _⟩
    · rwa [hsame]
    · rw [hq']
      exact Option.some_ne_none q'
  · rcases Option.ne_none_iff_exists'.mp hid with ⟨p, hp⟩
    rw [hadds.get hp]
    exact Option.some_ne_none p

theorem unsettled_of_notFinal {state : PaymentState} (h : state.isFinal = false) :
    state ∈ unsettled := by
  revert h
  cases state <;> decide

/-- A payment changed in place counts for no more. -/
theorem exposed_le {q q' : QueuedPayment} (hnot : q.state.isFinal = false)
    (hsale : SameSale q q') (hamount : 0 ≤ q.amount) : q'.exposed ≤ q.exposed := by
  have hunsettled := unsettled_of_notFinal hnot
  rw [QueuedPayment.exposed, QueuedPayment.exposed, hsale.tier_eq, hsale.amount_eq]
  by_cases htier : q.tier = .t0
  · rw [if_neg fun h => h.1 htier, if_neg fun h => h.1 htier]
  · rw [if_pos (⟨htier, hunsettled⟩ : q.tier ≠ .t0 ∧ q.state ∈ unsettled)]
    split
    · exact le_refl _
    · exact hamount

/-- What was added had a free key, and now has it. -/
theorem Adds.held {payment : VerifiedPayment} {tier : PaymentTier} {amount : Int}
    {precheck : Option NonceVerdict} {acceptedAt : Int} {s s' : QueueVars}
    (h : Adds queue payment tier amount precheck acceptedAt s s') :
    s.payments.get (paymentId queue.kit payment) = none ∧
      s'.payments.get (paymentId queue.kit payment)
        = some (acceptedAs queue.kit payment tier amount acceptedAt) := by
  rcases h with ⟨hchecks, rfl⟩
  refine ⟨get_of_acceptChecks queue hchecks, ?_⟩
  rw [Payments.get_set]
  exact if_pos rfl

/-- No payment in memory has a negative amount. -/
def NonNegative (s : QueueVars) : Prop :=
  ∀ id p, s.payments.get id = some p → 0 ≤ p.amount

theorem amount_nonneg {kit : Kit} {payment : VerifiedPayment} (h : Verified kit payment) :
    0 ≤ payment.input.amount := by
  rcases h with ⟨intent, auth, expectedAmount, hverify⟩
  rcases (verifyAuth_eq_ok kit).mp hverify with ⟨_, _, _, hbuild, _⟩
  exact ((buildMessage_eq_ok kit).mp hbuild).1

theorem QueueCall.Does.nonNegative (h : call.Does queue m) (hcarry : call.Carries queue)
    (hstart : NonNegative m.start) : NonNegative m.now := by
  intro id p hp
  rcases h.changes with halters | ⟨payment, _, _, _, _, rfl, hadds⟩
  · rcases halters id with hsame | ⟨q, q', hq, hq', _, hsale, _⟩
    · exact hstart id p (hsame ▸ hp)
    · rw [hq', Option.some.injEq] at hp
      rw [← hp, hsale.amount_eq]
      exact hstart id q hq
  · rcases hadds with ⟨_, hnow⟩
    rw [hnow, Payments.get_set] at hp
    split at hp
    · rw [← Option.some.inj hp, acceptedAs, hcarry.2]
      exact amount_nonneg hcarry.1
    · exact hstart id p hp

/-- The exposure is within the cap, or there is none. -/
def WithinCap (queue : QueueConfig) (s : QueueVars) : Prop :=
  Queue.exposure queue s ≤ max 0 queue.limits.queueExposureCap

theorem QueueCall.Does.withinCap (h : call.Does queue m) (hstart : NonNegative m.start)
    (hcap : WithinCap queue m.start) : WithinCap queue m.now := by
  rcases h.changes with halters | ⟨payment, tier, amount, precheck, acceptedAt, rfl, hadds⟩
  · refine le_trans (exposure_le fun id => ?_) hcap
    exact (halters id).imp_right fun ⟨q, q', hq, hq', hnot, hsale, _⟩ =>
      ⟨q, q', hq, hq', exposed_le hnot hsale (hstart id q hq)⟩
  · have hfree := hadds.held.1
    rcases hadds with ⟨hchecks, hnow⟩
    rw [WithinCap, hnow, exposure_put hfree, QueuedPayment.exposed]
    split
    · next hexposed =>
      exact ((rules_of_acceptChecks hchecks).2.2 hexposed.1).trans (le_max_right _ _)
    · rw [add_zero]
      exact hcap

/-- Under the eyes of a call that is no expire, payments stay as they are: what
    joins it only adds, and of an expire it joins only writes are left. -/
theorem QueueCall.Does.grows (h : call.Does queue m) {call' : QueueCall}
    (hexpire : ∀ now, call' ≠ .expire now)
    (hjoins : call.joins call' = true ∨ m.before ≠ [] ∧ call'.joins call = true) :
    Grows m.start m.now := by
  intro id p hp
  cases call with
  | accept payment tier amount precheck acceptedAt =>
      rcases h with ⟨hsame, _⟩ | hadds
      · rwa [hsame]
      · exact hadds.get hp
  | drain key => cases call' with
    | expire now => exact absurd rfl (hexpire now)
    | accept _ _ _ _ _ => rcases hjoins with hjoins | ⟨_, hjoins⟩ <;> cases hjoins
    | drain _ => rcases hjoins with hjoins | ⟨_, hjoins⟩ <;> cases hjoins
  | expire now =>
      -- An expiry voids in its first segment only, and this one is past it.
      have hbegun : m.before ≠ [] := by
        rcases hjoins with hjoins | ⟨hbegun, _⟩
        · cases call' with
          | expire now' => exact absurd rfl (hexpire now')
          | accept _ _ _ _ _ => cases hjoins
          | drain _ => cases hjoins
        · exact hbegun
      rcases h id with hsame | ⟨_, _, _, _, _, _, hnil, _⟩
      · rwa [hsame]
      · exact absurd hnil hbegun

end Changes

section Selling

variable {queue : QueueConfig} {calls : List QueueCall}

/-- An accept has added its payment. -/
def Sells (queue : QueueConfig) (calls : List QueueCall) (sys : QueueSystem ω) (t : Nat)
    (p : QueuedPayment) : Prop :=
  ∃ payment tier amount precheck acceptedAt,
    calls[t]? = some (.accept payment tier amount precheck acceptedAt) ∧
    HasWritten (pastOf t sys.log) ∧ p = acceptedAs queue.kit payment tier amount acceptedAt

/-- What holds in memory while calls are under way that found the first
    variables. -/
structure Selling (queue : QueueConfig) (calls : List QueueCall) (vars : QueueVars)
    (sys : QueueSystem ω) : Prop where
  length : sys.threads.length = calls.length
  kept : Async.Kept (calls.map (QueueCall.process queue)) (SaleRely calls) (fun _ _ => SaleAsk)
    (callPauses queue calls) (callEnds queue calls) sys
  together : ∀ t t', t ≠ t' → InProgress sys t → InProgress sys t' →
    joinsAt calls t t' = true ∨ joinsAt calls t' t = true
  remains : ∀ id, vars.payments.get id ≠ none → sys.vars.payments.get id ≠ none
  sold : ∀ t p, Sells queue calls sys t p →
    vars.payments.get p.id = none ∧ sys.vars.payments.get p.id ≠ none
  apart : ∀ t t' p p', t ≠ t' → Sells queue calls sys t p → Sells queue calls sys t' p' →
    p.id ≠ p'.id
  nonNegative : NonNegative sys.vars
  within : WithinCap queue sys.vars
  returned : ∀ t call result, calls[t]? = some call → sys.result t = some (.ok result) →
    ∃ m : QueueMoment, m.past = pastOf t sys.log ∧ call.Accepts queue m result

variable {sys : QueueSystem ω} {vars : QueueVars} {reply : Reply client Thrown ω}

theorem selling_start (w : ω) (hnonneg : NonNegative vars) (hwithin : WithinCap queue vars) :
    Selling queue calls vars
      (System.start vars w (calls.map (QueueCall.process queue)) : QueueSystem ω) where
  length := by simp only [System.start, List.length_map]
  kept := kept_start vars w
  together t t' _ h := absurd h (not_inProgress_start vars w _ t)
  remains _ h := h
  sold t p h := by
    rcases h with ⟨_, _, _, _, _, _, ⟨_, _, hact⟩, _⟩
    cases hact
  apart t t' p p' _ h := by
    rcases h with ⟨_, _, _, _, _, _, ⟨_, _, hact⟩, _⟩
    cases hact
  nonNegative := hnonneg
  within := hwithin
  returned t call result _ hresult := by
    rcases System.result_eq_some.mp hresult with ⟨seen, hthread⟩
    simp only [System.start, List.getElem?_map, Option.map_eq_some_iff] at hthread
    rcases hthread with ⟨_, _, hthread⟩
    cases hthread

theorem sells_congr {sys' : QueueSystem ω} {t : Nat} {p : QueuedPayment}
    (h : pastOf t sys'.log = pastOf t sys.log) :
    Sells queue calls sys' t p ↔ Sells queue calls sys t p := by
  simp only [Sells, h]

theorem joinsAt_iff {t t' : Nat} {call call' : QueueCall} (hcall : calls[t]? = some call)
    (hcall' : calls[t']? = some call') : joinsAt calls t t' = true ↔ call.joins call' = true := by
  simp only [joinsAt, hcall, hcall']

/-- Where a segment ends a call, the call has ended as it does. -/
theorem ends_of_stops {t : Nat} {call : QueueCall} (hcall : calls[t]? = some call)
    {m : QueueMoment} {segment : Segment client QueueVars Thrown QueueResult}
    (h : Stops (callPauses queue calls t) (callEnds queue calls t) m segment)
    {x : Except Thrown QueueResult} (hx : segment.thread.phase = .ended x) :
    call.Ends queue { m with
      past := m.past ++ segment.acts, seen := segment.thread.seen, now := segment.vars } x := by
  simp only [Stops, hx] at h
  exact h call hcall

section Step

variable {t : Nat} {seen : QueueVars} {p : QueueM QueueResult} {call : QueueCall}

/-- Whoever is under way when a call has its turn, the one joins the other. -/
theorem Selling.joins (h : Selling queue calls vars sys)
    (hthread : sys.threads[t]? = some ⟨seen, .ready p⟩) (huncrowded : ¬ Crowded calls sys t)
    {t' : Nat} (ht : t' ≠ t) (hprogress : InProgress sys t') :
    joinsAt calls t t' = true ∨ pastOf t sys.log ≠ [] ∧ joinsAt calls t' t = true := by
  by_cases hnil : pastOf t sys.log = []
  · refine .inl (Bool.of_not_eq_false fun hjoins => huncrowded ⟨⟨⟨seen, p, hthread⟩, hnil⟩, t', ?_⟩)
    exact ⟨h.length ▸ hprogress.lt, ht, hprogress, hjoins⟩
  · have hself : InProgress sys t := by
      simp only [InProgress, hthread]
      exact hnil
    exact (h.together t t' (Ne.symm ht) hself hprogress).imp_right fun hjoins => ⟨hnil, hjoins⟩

/-- What an accept has added after its turn, it had added, or it was added now
    under a free key. -/
theorem sells_resume (reply : Reply client Thrown ω)
    (hthread : sys.threads[t]? = some ⟨seen, .ready p⟩) (hcall : calls[t]? = some call)
    (hdoes : call.Does queue ⟨pastOf t sys.log, sys.vars,
      pastOf t sys.log ++ (p.settle seen sys.vars).acts, (p.settle seen sys.vars).thread.seen,
      (p.settle seen sys.vars).vars⟩) {q : QueuedPayment}
    (h : Sells queue calls (sys.step reply (.resume t)) t q) :
    Sells queue calls sys t q ∨ sys.vars.payments.get q.id = none ∧
      (p.settle seen sys.vars).vars.payments.get q.id ≠ none := by
  rcases h with ⟨payment, tier, amount, precheck, acceptedAt, haccept, hwritten, rfl⟩
  rw [System.step_resume reply hthread, pastOf_append, pastOf_map_self] at hwritten
  rw [hcall, Option.some.injEq] at haccept
  subst haccept
  rcases hdoes with ⟨_, hbefore⟩ | hadds
  · exact .inl ⟨_, _, _, _, _, hcall, hbefore hwritten, rfl⟩
  · refine .inr ⟨hadds.held.1, fun hnone => ?_⟩
    exact Option.some_ne_none _ (hadds.held.2.symm.trans hnone)

/-- A call's turn keeps what holds. -/
theorem Selling.resume (h : Selling queue calls vars sys)
    (hcarry : ∀ call ∈ calls, call.Carries queue)
    (hthread : sys.threads[t]? = some ⟨seen, .ready p⟩) (huncrowded : ¬ Crowded calls sys t) :
    Selling queue calls vars (sys.step reply (.resume t)) := by
  have hlt : t < calls.length := h.length ▸ (List.getElem?_eq_some_iff.mp hthread).1
  have hcall : calls[t]? = some calls[t] := List.getElem?_eq_getElem hlt
  have hstops := h.kept.segment fits_sale hthread
  have hdoes := does_of_stops hcall hstops
  have hvars : (sys.step reply (.resume t)).vars = (p.settle seen sys.vars).vars := by
    rw [System.step_resume reply hthread]
  have hremains : ∀ id, sys.vars.payments.get id ≠ none →
      (sys.step reply (.resume t)).vars.payments.get id ≠ none := fun id hid =>
    hvars ▸ hdoes.remains hid
  -- The only new sale of this segment is by its own thread, under an id that was free.
  have hsells : ∀ t' q, Sells queue calls (sys.step reply (.resume t)) t' q →
      Sells queue calls sys t' q ∨ t' = t ∧ sys.vars.payments.get q.id = none ∧
        (sys.step reply (.resume t)).vars.payments.get q.id ≠ none := by
    intro t' q hq
    by_cases ht : t' = t
    · subst ht
      exact (sells_resume reply hthread hcall hdoes hq).imp_right fun hnew =>
        ⟨rfl, hnew.1, hvars ▸ hnew.2⟩
    · exact .inl ((sells_congr (resume_other reply ht).2).mp hq)
  -- In the order of the fields; `together`, `sold` and `apart` split on whose thread it is.
  refine ⟨(System.length_step reply _ sys).trans h.length, ?_, ?_, ?_, ?_, ?_, ?_, ?_, ?_⟩
  · refine h.kept.resume fits_sale hthread fun t' ht hprogress => ⟨hdoes.finalStay, ?_⟩
    intro hother
    have hlt' : t' < calls.length := h.length ▸ hprogress.lt
    have hcall' : calls[t']? = some calls[t'] := List.getElem?_eq_getElem hlt'
    refine hdoes.grows (fun now heq => hother now (hcall'.trans (congrArg some heq))) ?_
    rw [← joinsAt_iff hcall hcall', ← joinsAt_iff hcall' hcall]
    exact h.joins hthread huncrowded ht hprogress
  · intro t₁ t₂ hne h₁ h₂
    by_cases ht₁ : t₁ = t
    · subst ht₁
      have h₂ := (inProgress_congr (resume_other reply (Ne.symm hne))).mp h₂
      exact (h.joins hthread huncrowded (Ne.symm hne) h₂).imp_right And.right
    · have hold₁ := (inProgress_congr (resume_other reply ht₁)).mp h₁
      by_cases ht₂ : t₂ = t
      · subst ht₂
        exact ((h.joins hthread huncrowded ht₁ hold₁).imp_right And.right).symm
      · exact h.together t₁ t₂ hne hold₁ ((inProgress_congr (resume_other reply ht₂)).mp h₂)
  · exact fun id hid => hremains id (h.remains id hid)
  · intro t' q hq
    rcases hsells t' q hq with hold | ⟨_, hfree, hheld⟩
    · exact ⟨(h.sold t' q hold).1, hremains q.id (h.sold t' q hold).2⟩
    · exact ⟨by_contra fun hid => h.remains q.id hid hfree, hheld⟩
  · intro t₁ t₂ q₁ q₂ hne h₁ h₂ hid
    rcases hsells t₁ q₁ h₁ with hold₁ | ⟨ht₁, hfree₁, _⟩
    · rcases hsells t₂ q₂ h₂ with hold₂ | ⟨_, hfree₂, _⟩
      · exact h.apart t₁ t₂ q₁ q₂ hne hold₁ hold₂ hid
      · exact (h.sold t₁ q₁ hold₁).2 (hid ▸ hfree₂)
    · rcases hsells t₂ q₂ h₂ with hold₂ | ⟨ht₂, _, _⟩
      · exact (h.sold t₂ q₂ hold₂).2 (hid ▸ hfree₁)
      · exact hne (ht₁.trans ht₂.symm)
  · exact hvars ▸ hdoes.nonNegative (hcarry _ (List.getElem_mem hlt)) h.nonNegative
  · exact hvars ▸ hdoes.withinCap h.nonNegative h.within
  · intro t' call' result hcall' hresult
    by_cases ht : t' = t
    · subst ht
      rw [hcall, Option.some.injEq] at hcall'
      subst hcall'
      rcases System.result_eq_some.mp hresult with ⟨seen', hended⟩
      rw [System.step_resume reply hthread, List.getElem?_set_self
        (List.getElem?_eq_some_iff.mp hthread).1, Option.some.injEq] at hended
      have hends := ends_of_stops hcall hstops (congrArg Thread.phase hended)
      refine ⟨_, ?_, hends.2.2 result rfl⟩
      rw [System.step_resume reply hthread, pastOf_append, pastOf_map_self]
      rfl
    · rw [(resume_other reply ht).2]
      refine h.returned t' call' result hcall' ?_
      rw [System.result_eq_some] at hresult ⊢
      rwa [(resume_other reply ht).1] at hresult

/-- So does serving a request. -/
theorem Selling.serve (h : Selling queue calls vars sys) {r : Req}
    {k : Except Thrown r.Ans → QueueM QueueResult}
    (hthread : sys.threads[t]? = some ⟨seen, .waiting r k⟩) :
    Selling queue calls vars (sys.step reply (.serve t)) := by
  have hvars : (sys.step reply (.serve t)).vars = sys.vars := by
    rw [System.step_serve reply hthread]
  -- What was just answered is not the opening of a sale.
  have hsells : ∀ t' q, Sells queue calls (sys.step reply (.serve t)) t' q →
      Sells queue calls sys t' q := by
    intro t' q hq
    by_cases ht : t' = t
    · subst ht
      rcases hq with ⟨payment, tier, amount, precheck, acceptedAt, hcall, ⟨x, y, hact⟩, rfl⟩
      rw [System.step_serve reply hthread, pastOf_append, pastOf_self] at hact
      exact ⟨_, _, _, _, _, hcall, ⟨x, y, Act.wrote_of_asked hact⟩, rfl⟩
    · exact (sells_congr (serve_other reply ht).2).mp hq
  have hprogress : ∀ t', InProgress (sys.step reply (.serve t)) t' → InProgress sys t' := by
    intro t' h'
    by_cases ht : t' = t
    · subst ht
      simp only [InProgress, hthread]
    · exact (inProgress_congr (serve_other reply ht)).mp h'
  refine ⟨(System.length_step reply _ sys).trans h.length, h.kept.serve fits_sale hthread, ?_, ?_,
    ?_, ?_, hvars ▸ h.nonNegative, hvars ▸ h.within, ?_⟩
  · exact fun t₁ t₂ hne h₁ h₂ => h.together t₁ t₂ hne (hprogress t₁ h₁) (hprogress t₂ h₂)
  · exact fun id hid => hvars ▸ h.remains id hid
  · exact fun t' q hq => hvars ▸ h.sold t' q (hsells t' q hq)
  · exact fun t₁ t₂ q₁ q₂ hne h₁ h₂ => h.apart t₁ t₂ q₁ q₂ hne (hsells t₁ q₁ h₁) (hsells t₂ q₂ h₂)
  · intro t' call' result hcall' hresult
    rcases System.result_eq_some.mp hresult with ⟨seen', hended⟩
    by_cases ht : t' = t
    · subst ht
      rw [System.step_serve reply hthread, List.getElem?_set_self
        (List.getElem?_eq_some_iff.mp hthread).1] at hended
      cases hended
    · rw [(serve_other reply ht).1] at hended
      rw [(serve_other reply ht).2]
      exact h.returned t' call' result hcall' (System.result_eq_some.mpr ⟨seen', hended⟩)

/-- A step that crowds no call keeps what holds in memory. -/
theorem Selling.step (h : Selling queue calls vars sys)
    (hcarry : ∀ call ∈ calls, call.Carries queue) (choice : Choice)
    (huncrowded : ∀ t, choice = .resume t → ¬ Crowded calls sys t) :
    Selling queue calls vars (sys.step reply choice) := by
  rcases System.step_cases reply choice sys with
    ⟨t, seen, p, rfl, hthread⟩ | ⟨t, seen, r, k, rfl, hthread⟩ | hsame
  · exact h.resume hcarry hthread (huncrowded t rfl)
  · exact h.serve hthread
  · rw [hsame]
    exact h

end Step

end Selling

section Storing

variable {queue : QueueConfig} {calls : List QueueCall} {vars : QueueVars} {network : Network ρ}
  {sys : QueueSystem (World ρ)}

/-- A call in progress still has to write a payment to the store. -/
def Owed (sys : QueueSystem (World ρ)) (id : PaymentId) (p : QueuedPayment) : Prop :=
  ∃ t thread, sys.threads[t]? = some thread ∧ InProgress sys t ∧
    thread.Owes (Req.storeSet (.payment id) p)

/-- Memory and store while calls are under way: what is in memory is in the store
    or owed to it, and the store knows no more keys. -/
structure Storing (sys : QueueSystem (World ρ)) : Prop where
  covered : ∀ id p, sys.vars.payments.get id = some p →
    sys.world.store.lookup (.payment id) = some p ∨ Owed sys id p
  known : ∀ id, sys.world.store.lookup (.payment id) ≠ none → sys.vars.payments.get id ≠ none

theorem storing_start {w : World ρ}
    (h : ∀ id, w.store.lookup (.payment id) = vars.payments.get id) :
    Storing (System.start vars w (calls.map (QueueCall.process queue)) :
      QueueSystem (World ρ)) where
  covered := fun id _ hp => .inl ((h id).trans hp)
  known := fun id hid => h id ▸ hid

/-- When nothing is in progress, memory and store hold the same payments. -/
theorem Storing.idle (h : Storing sys) (hidle : ∀ t, ¬ InProgress sys t) (id : PaymentId) :
    sys.world.store.lookup (.payment id) = sys.vars.payments.get id := by
  rcases hget : sys.vars.payments.get id with _ | p
  · exact by_contra fun hid => h.known id hid hget
  · rcases h.covered id p hget with hstored | ⟨t, _, _, hprogress, _⟩
    · exact hstored
    · exact absurd hprogress (hidle t)

section Step

variable {t : Nat} {seen : QueueVars} {p : QueueM QueueResult} {call : QueueCall}

/-- What a segment changes its call still has to write. -/
theorem owes_of_stops (hcall : calls[t]? = some call) {m : QueueMoment}
    {segment : Segment client QueueVars Thrown QueueResult}
    (h : Stops (callPauses queue calls t) (callEnds queue calls t) m segment) {id : PaymentId}
    {q : QueuedPayment} (hq : segment.vars.payments.get id = some q) :
    m.start.payments.get id = some q ∨ segment.thread.Owes (Req.storeSet (.payment id) q) := by
  rcases segment with ⟨acts, s, seen, p | ⟨r, k⟩ | x⟩
  · exact h.elim
  · exact (h call hcall).2 id q hq
  · exact .inl ((congrArg (Payments.get · id) (h call hcall).1).symm.trans hq)

/-- A call's turn keeps what holds. -/
theorem Storing.resume (h : Storing sys) (hselling : Selling queue calls vars sys)
    (hthread : sys.threads[t]? = some ⟨seen, .ready p⟩) :
    Storing (sys.step (reply network) (.resume t)) := by
  have hlt : t < calls.length := hselling.length ▸ (List.getElem?_eq_some_iff.mp hthread).1
  have hcall : calls[t]? = some calls[t] := List.getElem?_eq_getElem hlt
  have hstops := hselling.kept.segment fits_sale hthread
  have hvars : (sys.step (reply network) (.resume t)).vars = (p.settle seen sys.vars).vars := by
    rw [System.step_resume (reply network) hthread]
  have hworld : (sys.step (reply network) (.resume t)).world = sys.world := by
    rw [System.step_resume (reply network) hthread]
  have hself : (sys.step (reply network) (.resume t)).threads[t]?
      = some (p.settle seen sys.vars).thread := by
    rw [System.step_resume (reply network) hthread]
    exact List.getElem?_set_self (List.getElem?_eq_some_iff.mp hthread).1
  have howed : ∀ {id q}, (p.settle seen sys.vars).thread.Owes (Req.storeSet (.payment id) q) →
      Owed (sys.step (reply network) (.resume t)) id q := by
    intro id q howes
    refine ⟨t, _, hself, ?_, howes⟩
    -- A thread that owes a write has stopped at a request, so it is in progress.
    rcases hsegment : (p.settle seen sys.vars).thread with ⟨seen', p' | ⟨r, k⟩ | x⟩
    · rw [Stops, hsegment] at hstops
      exact hstops.elim
    · simp only [InProgress, hself, hsegment]
    · rw [hsegment] at howes
      exact howes.elim
  refine ⟨fun id q hq => ?_, fun id hid => ?_⟩
  · rcases owes_of_stops hcall hstops (hvars ▸ hq) with hold | howes
    · rw [hworld]
      refine (h.covered id q hold).imp_right fun howed' => ?_
      -- What another thread owed it still owes; what this one owed survives the segment.
      rcases howed' with ⟨t', thread, hthread', hprogress, howes⟩
      by_cases ht : t' = t
      · subst ht
        rw [hthread, Option.some.injEq] at hthread'
        subst hthread'
        exact howed (owes_settle howes seen sys.vars)
      · have hother := @resume_other _ _ _ _ _ (reply network) sys _ _ ht
        exact ⟨t', thread, hother.1.trans hthread', (inProgress_congr hother).mpr hprogress, howes⟩
    · exact .inr (howed howes)
  · rw [hworld] at hid
    exact hvars ▸ (does_of_stops hcall hstops).remains (h.known id hid)

/-- So does serving a request, if it is not refused. -/
theorem Storing.serve (h : Storing sys) (hselling : Selling queue calls vars sys) {r : Req}
    {k : Except Thrown r.Ans → QueueM QueueResult}
    (hthread : sys.threads[t]? = some ⟨seen, .waiting r k⟩) (hwrites : ¬ Refused network sys t) :
    Storing (sys.step (reply network) (.serve t)) := by
  have hask := hselling.kept.ask fits_sale hthread
  have hvars : (sys.step (reply network) (.serve t)).vars = sys.vars := by
    rw [System.step_serve (reply network) hthread]
  have hworld : (sys.step (reply network) (.serve t)).world = (reply network r sys.world).2 := by
    rw [System.step_serve (reply network) hthread]
  have hself : (sys.step (reply network) (.serve t)).threads[t]?
      = some ⟨seen, .ready (k (reply network r sys.world).1)⟩ := by
    rw [System.step_serve (reply network) hthread]
    exact List.getElem?_set_self (List.getElem?_eq_some_iff.mp hthread).1
  -- Under a key the store has what was written, or what it had.
  have hstore : ∀ id, (∀ q, r ≠ .storeSet (.payment id) q) ∧
      (reply network r sys.world).2.store.lookup (.payment id)
        = sys.world.store.lookup (.payment id) ∨
      ∃ q, r = .storeSet (.payment id) q ∧
        (reply network r sys.world).2.store.lookup (.payment id) = some q := by
    intro id
    by_cases hset : ∃ q, r = .storeSet (.payment id) q
    · rcases hset with ⟨q, rfl⟩
      refine .inr ⟨q, rfl, ?_⟩
      rcases hstorage : network.storage sys.world.net with ⟨_ | e, n⟩
      · simp only [reply, hstorage]
        exact AList.lookup_insert _
      · refine absurd ⟨seen, _, _, k, hthread, ?_⟩ hwrites
        rw [hstorage]
        exact Option.some_ne_none e
    · refine .inl ⟨fun q hr => hset ⟨q, hr⟩, ?_⟩
      rcases reply_store network r sys.world with ⟨hsame, _⟩ | ⟨key, v, rfl, ⟨hsame, _⟩ | hinsert⟩
      · rw [hsame]
      · rw [hsame]
      · rw [hinsert]
        refine AList.lookup_insert_ne ?_
        rintro rfl
        exact hset ⟨v, rfl⟩
  refine ⟨fun id q hq => ?_, fun id hid => ?_⟩
  · rw [hvars] at hq
    rw [hworld]
    rcases hstore id with ⟨hne, hsame⟩ | ⟨q', rfl, hstored⟩
    · rw [hsame]
      refine (h.covered id q hq).imp_right fun howed' => ?_
      rcases howed' with ⟨t', thread, hthread', hprogress, howes⟩
      by_cases ht : t' = t
      · subst ht
        rw [hthread, Option.some.injEq] at hthread'
        subst hthread'
        refine ⟨t', _, hself, ?_, howes.resolve_left (hne q) _⟩
        simp only [InProgress, hself]
        rw [System.step_serve (reply network) hthread, pastOf_append, pastOf_self]
        exact List.append_ne_nil_of_right_ne_nil _ (List.cons_ne_nil _ _)
      · have hother := @serve_other _ _ _ _ _ (reply network) sys _ _ ht
        exact ⟨t', thread, hother.1.trans hthread', (inProgress_congr hother).mpr hprogress, howes⟩
    · rw [hask id q' rfl, Option.some.injEq] at hq
      exact .inl (hq ▸ hstored)
  · rw [hvars]
    rw [hworld] at hid
    rcases hstore id with ⟨_, hsame⟩ | ⟨q', rfl, _⟩
    · exact h.known id (hsame ▸ hid)
    · rw [hask id q' rfl]
      exact Option.some_ne_none q'

end Step

/-- A schedule keeps what holds in memory, and between memory and store. -/
theorem steps_sale {choices : List Choice} (hselling : Selling queue calls vars sys)
    (hstoring : Storing sys) (hcarry : ∀ call ∈ calls, call.Carries queue)
    (hschedule : OneAtATime (reply network) calls choices sys)
    (hwrites : WritesPass network choices sys) :
    Selling queue calls vars (sys.steps (reply network) choices) ∧
      Storing (sys.steps (reply network) choices) := by
  induction choices generalizing sys with
  | nil => exact ⟨hselling, hstoring⟩
  | cons choice choices ih =>
      rcases hschedule with ⟨huncrowded, hrest⟩
      refine ih (hselling.step hcarry choice huncrowded) ?_ hrest fun pre t post hsplit =>
        hwrites (choice :: pre) t post (congrArg (choice :: ·) hsplit)
      rcases System.step_cases (reply network) choice sys with
        ⟨t, seen, p, rfl, hthread⟩ | ⟨t, seen, r, k, rfl, hthread⟩ | hsame
      · exact hstoring.resume hselling hthread
      · exact hstoring.serve hselling hthread (hwrites [] t choices rfl)
      · rw [hsame]
        exact hstoring

end Storing

section Lives

variable {network : Network ρ} {queue : QueueConfig} {accepted : List Acceptance}
  {vars : QueueVars} {w : World ρ} {calls : List QueueCall}

/-- What an acceptance has been checked for. -/
structure Ruled (queue : QueueConfig) (a : Acceptance) : Prop where
  id_eq : a.payment.id = paymentId queue.kit a.payment.payment
  within : a.payment.amount ≤ queue.limits.receiptCapByTier a.payment.tier
  verdict : a.payment.tier = .t1 → a.payment.payment.input.nonceRef.isSome = true →
    a.precheck.any NonceVerdict.passes = true

/-- What holds of the acceptances so far, in a state. -/
structure Safe (queue : QueueConfig) (accepted : List Acceptance) (vars : QueueVars) : Prop where
  ruled : ∀ a ∈ accepted, Ruled queue a
  apart : accepted.Pairwise fun a b => a.payment.id ≠ b.payment.id
  held : ∀ a ∈ accepted, vars.payments.get a.payment.id ≠ none
  nonNegative : NonNegative vars
  within : WithinCap queue vars

/-- What an accept returns, it has added by the rules. -/
theorem Selling.acceptance {sys : QueueSystem ω} (h : Selling queue calls vars sys) {t : Nat}
    {a : Acceptance} (ha : acceptanceAt calls sys t = some a) :
    Sells queue calls sys t a.payment ∧ Ruled queue a := by
  unfold acceptanceAt at ha
  split at ha
  · next hcall hresult =>
    cases ha
    rcases h.returned t _ _ hcall hresult with ⟨m, hpast, heq, hwritten, hcap, hverdict⟩
    cases heq
    exact ⟨⟨_, _, _, _, _, hcall, hpast ▸ hwritten, rfl⟩, rfl, hcap, hverdict⟩
  · cases ha

/-- What calls under way have accepted is safe beside what was accepted before. -/
theorem Selling.safe {sys : QueueSystem ω} (h : Selling queue calls vars sys)
    (hsafe : Safe queue accepted vars) :
    Safe queue (accepted ++ acceptances calls sys) sys.vars where
  ruled a ha := by
    rcases List.mem_append.mp ha with hold | hnew
    · exact hsafe.ruled a hold
    · rcases List.mem_filterMap.mp hnew with ⟨t, _, ha⟩
      exact (h.acceptance ha).2
  apart := by
    -- An id sold before is still held, so no later call sells it again.
    refine List.pairwise_append.mpr ⟨hsafe.apart, ?_, fun a ha b hb hid => ?_⟩
    · refine List.pairwise_filterMap.mpr (List.pairwise_lt_range.imp ?_)
      intro t t' hlt a ha b hb
      exact h.apart t t' _ _ (ne_of_lt hlt) (h.acceptance ha).1 (h.acceptance hb).1
    · rcases List.mem_filterMap.mp hb with ⟨t, _, hb⟩
      exact hsafe.held a ha (hid ▸ (h.sold t _ (h.acceptance hb).1).1)
  held a ha := by
    rcases List.mem_append.mp ha with hold | hnew
    · exact h.remains _ (hsafe.held a hold)
    · rcases List.mem_filterMap.mp hnew with ⟨t, _, ha⟩
      exact (h.sold t _ (h.acceptance ha).1).2
  nonNegative := h.nonNegative
  within := h.within

/-- Only what is under the keys counts. -/
theorem Safe.congr {vars' : QueueVars} (h : Safe queue accepted vars)
    (hget : ∀ id, vars'.payments.get id = vars.payments.get id) : Safe queue accepted vars' where
  ruled := h.ruled
  apart := h.apart
  held a ha := by
    rw [hget]
    exact h.held a ha
  nonNegative id p hp := h.nonNegative id p (hget id ▸ hp)
  within := le_trans (exposure_le fun id => .inl (hget id)) h.within

theorem safe_empty (queue : QueueConfig) : Safe queue [] .empty where
  ruled _ ha := absurd ha List.not_mem_nil
  apart := .nil
  held _ ha := absurd ha List.not_mem_nil
  nonNegative id p hp := by cases hp
  within := by
    rw [WithinCap, exposure_eq]
    exact le_max_left _ _

/-- When nothing is in progress, what was accepted is safe, and memory and store
    hold the same payments. -/
theorem Trades.safe (h : Trades network queue accepted vars w) :
    Safe queue accepted vars ∧ ∀ id, w.store.lookup (.payment id) = vars.payments.get id := by
  induction h with
  | fresh hnone => exact ⟨safe_empty queue, hnone⟩
  | @calls _ _ w _ calls choices hcarry hschedule hwrites hidle ih =>
      rcases steps_sale (selling_start w ih.1.nonNegative ih.1.within) (storing_start ih.2) hcarry
        hschedule hwrites with ⟨hselling, hstoring⟩
      exact ⟨hselling.safe ih.1, hstoring.idle hidle⟩
  | @load _ vars w _ ih =>
      rcases @load_same _ network queue vars w ih.2 with ⟨x, vars', n, hrun, hsame, _⟩
      rw [hrun]
      exact ⟨ih.1.congr fun id => (hsame id).symm.trans (ih.2 id), hsame⟩
  | @reopen _ vars _ w w' _ _ hload ih =>
      have hkeyed : ∀ id p, w.store.lookup (.payment id) = some p → p.id = id :=
        fun id p hp => Payments.id_of_get ((ih.2 id).symm.trans hp)
      rcases @load_synced _ _ (working_works network) queue .empty w hkeyed (fun _ _ => rfl) with
        ⟨payments', vars', n, hrun, hsynced⟩
      cases (run_load_working hload).symm.trans hrun
      exact ⟨ih.1.congr fun id => (hsynced.payments id).symm.trans (ih.2 id), hsynced.payments⟩

theorem otherSale_of_ne {a b : Acceptance} (ha : Ruled queue a) (hb : Ruled queue b)
    (hne : a.payment.id ≠ b.payment.id) : OtherSale queue.kit a.payment b.payment where
  id := hne
  nonce ref href href' hpayer := by
    refine hne ?_
    rw [ha.id_eq, hb.id_eq, paymentId, paymentId, href, href', hpayer]
  fresh hnone hnone' hpayer hhash := by
    refine hne ?_
    rw [ha.id_eq, hb.id_eq, paymentId, paymentId, hnone, hnone', hpayer, hhash]

/-- A key in memory is refused. -/
theorem blocks_of_held {p : QueuedPayment} (h : vars.payments.get p.id ≠ none) :
    Blocks queue vars p := by
  intro payment tier amount precheck hid
  rcases Option.ne_none_iff_exists'.mp h with ⟨known, hknown⟩
  refine ⟨known.state, ?_⟩
  unfold Queue.acceptChecks
  simp only [hid, hknown]
  rfl

end Lives

/-- Whatever the order in which accepts go on, in every state no two accepted
    payments are the same sale, every accepted payment blocks its key, every
    acceptance was by the rules of its tier, and the exposure is within its
    cap. -/
theorem accepts_safe (network : Network ρ) (queue : QueueConfig) {accepted : List Acceptance}
    {vars : QueueVars} {w : World ρ} (h : Trades network queue accepted vars w)
    (calls : List QueueCall) (choices : List Choice) (hcarry : ∀ call ∈ calls, call.Carries queue)
    (hschedule : OneAtATime (reply network) calls choices
      (System.start vars w (calls.map (QueueCall.process queue))))
    (hwrites : WritesPass network choices
      (System.start vars w (calls.map (QueueCall.process queue)))) :
    let sys := underWay network queue vars w calls choices
    let all := accepted ++ acceptances calls sys
    (all.Pairwise fun a b => OtherSale queue.kit a.payment b.payment) ∧
    (∀ a ∈ all, Blocks queue sys.vars a.payment) ∧
    (∀ a ∈ all, a.payment.amount ≤ queue.limits.receiptCapByTier a.payment.tier) ∧
    (∀ a ∈ all, a.payment.tier = .t1 → a.payment.payment.input.nonceRef.isSome = true →
      a.precheck.any NonceVerdict.passes = true) ∧
    Queue.exposure queue sys.vars ≤ max 0 queue.limits.queueExposureCap := by
  intro sys all
  rcases h.safe with ⟨hsafe, hsame⟩
  have hselling := (steps_sale (selling_start w hsafe.nonNegative hsafe.within)
    (storing_start hsame) hcarry hschedule hwrites).1
  have hall : Safe queue all sys.vars := hselling.safe hsafe
  refine ⟨?_, fun a ha => blocks_of_held (hall.held a ha), fun a ha => (hall.ruled a ha).within,
    fun a ha => (hall.ruled a ha).verdict, hall.within⟩
  exact hall.apart.imp_of_mem fun ha hb => otherSale_of_ne (hall.ruled _ ha) (hall.ruled _ hb)

/-- The same payment, offered twice at once. -/
def twiceCalls : List QueueCall :=
  [.accept (testPayment 0) .t2 10 none 100, .accept (testPayment 0) .t2 10 none 100]

/-- It is offered again after the queue was reopened, with another one. -/
def againCalls : List QueueCall :=
  [.accept (testPayment 0) .t2 10 none 300, .accept (testPayment 1) .t2 10 none 200,
    .drain (testKey 2)]

/-- Both accepts wait, then both check. -/
def crossed : List Choice :=
  [.resume 0, .resume 1, .serve 0, .serve 1, .resume 1, .resume 0, .serve 1, .resume 1]

/-- The first time, until nothing is in progress. -/
def twiceEnd : QueueSystem (World FakeRpc) :=
  underWay fakeNetwork testQueue .empty ⟨∅, {}⟩ twiceCalls crossed

/-- The queue after it was reopened. -/
def reopenedEnd : Outcome QueueVars Thrown (World FakeRpc) (List QueuedPayment) :=
  run (reply fakeNetwork) (Queue.load testQueue) .empty twiceEnd.world

theorem verified_testPayment (index : Nat) (h : index < 2) :
    Verified testKit (testPayment index) := by
  refine ⟨testIntent, (testPayment index).auth, some 10, ?_⟩
  revert index
  decide +kernel

theorem carries_twiceCalls : ∀ call ∈ twiceCalls, call.Carries testQueue := by
  intro call hcall
  simp only [twiceCalls, List.mem_cons, List.not_mem_nil, or_false, or_self] at hcall
  rw [hcall]
  exact ⟨verified_testPayment 0 (by decide), rfl⟩

theorem carries_againCalls : ∀ call ∈ againCalls, call.Carries testQueue := by
  intro call hcall
  simp only [againCalls, List.mem_cons, List.not_mem_nil, or_false] at hcall
  rcases hcall with rfl | rfl | rfl
  · exact ⟨verified_testPayment 0 (by decide), rfl⟩
  · exact ⟨verified_testPayment 1 (by decide), rfl⟩
  · trivial

theorem trades_reopenedEnd : Trades fakeNetwork testQueue (acceptances twiceCalls twiceEnd)
    reopenedEnd.vars reopenedEnd.world := by
  have hidle : ∀ t, ¬ InProgress twiceEnd t := fun t hprogress =>
    (by decide +kernel : ∀ t < twiceEnd.threads.length, ¬ InProgress twiceEnd t) t hprogress.lt
      hprogress
  have hfresh : Trades fakeNetwork testQueue [] .empty ⟨∅, {}⟩ := .fresh fun _ => rfl
  have hcalls := hfresh.calls twiceCalls crossed carries_twiceCalls (by decide +kernel)
    (writesPass_of_works fakeNetwork_storageWorks _ _) hidle
  have hresult : reopenedEnd.result = .ok [acceptedAs testKit (testPayment 0) .t2 10 100] := by
    decide +kernel
  have hload : run (reply fakeNetwork) (Queue.load testQueue) .empty twiceEnd.world
      = ⟨.ok [acceptedAs testKit (testPayment 0) .t2 10 100], reopenedEnd.vars,
        reopenedEnd.world⟩ := by
    rw [← hresult]
    rfl
  exact hcalls.reopen hload

/-- The payment was accepted once, and is refused in the reopened queue. -/
theorem accepts_safe_reopened :
    let sys := underWay fakeNetwork testQueue reopenedEnd.vars reopenedEnd.world againCalls crossed
    let all := acceptances twiceCalls twiceEnd ++ acceptances againCalls sys
    all.map (fun a => a.payment.payment) = [testPayment 0, testPayment 1] ∧
      (all.Pairwise fun a b => OtherSale testKit a.payment b.payment) ∧
      (∀ a ∈ all, Blocks testQueue sys.vars a.payment) ∧
      Queue.exposure testQueue sys.vars ≤ max 0 50000000 := by
  have h := accepts_safe fakeNetwork testQueue trades_reopenedEnd againCalls crossed
    carries_againCalls (by decide +kernel) (writesPass_of_works fakeNetwork_storageWorks _ _)
  exact ⟨by decide +kernel, h.1, h.2.1, h.2.2.2.2⟩

end Vadum
