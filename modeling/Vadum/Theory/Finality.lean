import Vadum.Theory.QueueThreads
import Vadum.Theory.OwnOutcome

/-!
# Settled and Voided Are Final

A drain goes through a snapshot and writes each payment back after it has
waited for the network. What happens to the payment meanwhile is lost: an expire
that voids it, or a second drain that settles it, is written over, and a voided
payment is submitted.

That is the only way. If no drain and no expire begins by taking a payment that
a drain in progress has claimed, the payments that drains have claimed stay
apart, nobody writes over what another has claimed, and settled and voided
payments stay what they are, in every order of the calls' segments.

## Main definitions

* `Claims`: What a drain in progress has claimed.
* `Disputed`, `Undisputed`: A call begins by taking it; it never happens in a
  schedule.
* `HandsOver`: A drain is about to submit a payment.

## Theorems

* `final_of_undisputed`: In an undisputed schedule what is settled or voided
  stays so, and a voided payment is not submitted.
* `voided_handed_over`: An expire while a drain waits for the network.
-/

namespace Vadum

open Async

variable {ρ ω : Type}

/-- Threads over the payments of a queue. -/
abbrev QueueSystem (ω : Type) : Type := System client QueueVars Thrown ω QueueResult

/-- The payments that a call writes over when it begins. -/
def QueueCall.takes (queue : QueueConfig) : QueueCall → QueuedPayment → Bool
  | .accept _ _ _ _ _, _ => false
  | .drain _, p => p.state.retried
  | .expire now, p => Queue.outlived queue now p

/-- A drain in progress has claimed a payment. -/
def Claims (calls : List QueueCall) (sys : QueueSystem ω) (t : Nat) (q : QueuedPayment) : Prop :=
  (∃ key, calls[t]? = some (.drain key)) ∧ InProgress sys t ∧ Claimed (pastOf t sys.log) q

/-- A call is about to begin, and takes what a drain in progress has claimed. -/
def Disputed (queue : QueueConfig) (calls : List QueueCall) (sys : QueueSystem ω) (t : Nat) :
    Prop :=
  Begins sys t ∧ ∃ call, calls[t]? = some call ∧ ∃ t' q p, t' ≠ t ∧ Claims calls sys t' q ∧
    sys.vars.payments.get q.id = some p ∧ call.takes queue p = true

/-- No call of a schedule does. -/
def Undisputed (queue : QueueConfig) (calls : List QueueCall) (reply : Reply client Thrown ω) :
    List Choice → QueueSystem ω → Prop
  | [], _ => True
  | choice :: choices, sys => (∀ t, choice = .resume t → ¬ Disputed queue calls sys t) ∧
      Undisputed queue calls reply choices (sys.step reply choice)

/-- A drain is about to submit a payment: its mark has just been stored, and
    what comes next is `submit`. -/
def HandsOver (calls : List QueueCall) (sys : QueueSystem ω) (t : Nat) (q : QueuedPayment) :
    Prop :=
  (∃ key, calls[t]? = some (.drain key)) ∧
    (∃ seen p, sys.threads[t]? = some ⟨seen, .ready p⟩) ∧ q.state = .submitting ∧
    ∃ earlier, pastOf t sys.log
      = earlier ++ [.asked (I := client) (Req.storeSet (.payment q.id) q) (.ok ())]

/-- Settled and voided payments stay what they are. -/
def FinalStay (s s' : QueueVars) : Prop :=
  ∀ id p, s.payments.get id = some p → p.state.isFinal = true → s'.payments.get id = some p

/-- What a call relies on: final payments stay, and what a drain has claimed is
    left to it. -/
def FinalRely (calls : List QueueCall) (t : Nat) (past : QueuePast) (s s' : QueueVars) : Prop :=
  FinalStay s s' ∧ ((∃ key, calls[t]? = some (.drain key)) → ∀ q p, Claimed past q →
    s.payments.get q.id = some p → s'.payments.get q.id = some p)

/-- No payment is claimed by two drains. -/
def Apart (calls : List QueueCall) (sys : QueueSystem ω) : Prop :=
  ∀ t t' q q', t ≠ t' → Claims calls sys t q → Claims calls sys t' q' → q.id ≠ q'.id

section Decidable

variable (queue : QueueConfig) (calls : List QueueCall)

/-- The drains among the calls. -/
def drainAt (t : Nat) : Bool :=
  match calls[t]? with
  | some (.drain _) => true
  | _ => false

theorem drainAt_iff {t : Nat} : drainAt calls t = true ↔ ∃ key, calls[t]? = some (.drain key) := by
  rw [drainAt]
  split
  · next key h => exact ⟨fun _ => ⟨key, h⟩, fun _ => rfl⟩
  · next h => exact ⟨nofun, fun ⟨key, hkey⟩ => absurd hkey (h key)⟩

/-- A write that records the outcome of a payment. -/
def records (q : QueuedPayment) : Act client QueueVars Thrown → Bool
  | .wrote seen new => seen.payments.get q.id = some (marked q) ∧
      new.payments.get q.id ≠ some (marked q)
  | .asked _ _ => false

theorem recorded_iff {past : QueuePast} {q : QueuedPayment} :
    past.any (records q) = true ↔ Recorded past q := by
  rw [List.any_eq_true]
  constructor
  · rintro ⟨⟨seen, new⟩ | ⟨r, a⟩, hmem, h⟩
    · exact ⟨seen, new, hmem, of_decide_eq_true h⟩
    · cases h
  · rintro ⟨seen, new, hmem, h⟩
    exact ⟨_, hmem, decide_eq_true h⟩

/-- All that a drain has claimed. -/
def claimedBy : QueuePast → List QueuedPayment
  | .wrote seen new :: rest => seen.payments.toList.filter fun q =>
      q.state.retried && !(Act.wrote seen new :: rest).any (records q)
  | _ => []

theorem mem_claimedBy {past : QueuePast} {q : QueuedPayment} :
    q ∈ claimedBy past ↔ Claimed past q := by
  unfold claimedBy
  split
  · next seen new rest =>
    rw [List.mem_filter, Bool.and_eq_true, Bool.not_eq_true', ← Bool.not_eq_true, recorded_iff]
    refine ⟨fun ⟨hmem, h⟩ => ⟨⟨seen, new, rest, rfl, hmem⟩, h⟩, ?_⟩
    rintro ⟨⟨_, _, _, heq, hmem⟩, h⟩
    cases heq
    exact ⟨hmem, h⟩
  · next hne =>
    refine ⟨nofun, fun ⟨⟨seen, new, rest, heq, _⟩, _⟩ => absurd heq (hne seen new rest)⟩

/-- Whether a call's beginning is disputed, computed. -/
def disputes (sys : QueueSystem ω) (t : Nat) : Bool :=
  decide (Begins sys t) && (calls[t]?).any fun call => (List.range calls.length).any fun t' =>
    decide (t' ≠ t) && drainAt calls t' && decide (InProgress sys t') &&
      (claimedBy (pastOf t' sys.log)).any fun q =>
        (sys.vars.payments.get q.id).any (call.takes queue)

theorem disputes_iff {sys : QueueSystem ω} {t : Nat} :
    disputes queue calls sys t = true ↔ Disputed queue calls sys t := by
  simp only [disputes, Bool.and_eq_true, decide_eq_true_eq, Option.any_eq_true, List.any_eq_true,
    List.mem_range, drainAt_iff, mem_claimedBy]
  constructor
  · rintro ⟨hbegins, call, hcall, t', _, ⟨⟨hne, hdrain⟩, hprogress⟩, q, hq, p, hp, htakes⟩
    exact ⟨hbegins, call, hcall, t', q, p, hne, ⟨hdrain, hprogress, hq⟩, hp, htakes⟩
  · rintro ⟨hbegins, call, hcall, t', q, p, hne, ⟨⟨key, hdrain⟩, hprogress, hq⟩, hp, htakes⟩
    exact ⟨hbegins, call, hcall, t', (List.getElem?_eq_some_iff.mp hdrain).1,
      ⟨⟨hne, key, hdrain⟩, hprogress⟩, q, hq, p, hp, htakes⟩

instance decidableDisputed (sys : QueueSystem ω) (t : Nat) :
    Decidable (Disputed queue calls sys t) :=
  decidable_of_iff _ (disputes_iff queue calls)

instance decidableUndisputed (reply : Reply client Thrown ω) : (choices : List Choice) →
    (sys : QueueSystem ω) → Decidable (Undisputed queue calls reply choices sys)
  | [], _ => .isTrue trivial
  | .resume t :: choices, sys =>
    have := decidableUndisputed reply choices (sys.step reply (.resume t))
    decidable_of_iff (¬ Disputed queue calls sys t ∧ _)
      (and_congr_left fun _ => ⟨fun h _ ht' => Choice.resume.inj ht' ▸ h, fun h => h t rfl⟩)
  | .serve t :: choices, sys =>
    have := decidableUndisputed reply choices (sys.step reply (.serve t))
    decidable_of_iff _ (and_iff_right (fun _ => nofun)).symm

end Decidable

section Contracts

variable (queue : QueueConfig) (calls : List QueueCall)

/-- What the call of a thread promises where a segment ends in a request. -/
def callPauses (t : Nat) (m : QueueMoment) (rest : QueueM QueueResult) : Prop :=
  ∀ call, calls[t]? = some call → call.Pauses queue m rest

/-- What it promises where it ends. -/
def callEnds (t : Nat) (m : QueueMoment) (x : Except Thrown QueueResult) : Prop :=
  ∀ call, calls[t]? = some call → call.Ends queue m x

variable {queue calls}

theorem keeps_call {Rely : QueuePast → QueueVars → QueueVars → Prop}
    {Ask : QueuePast → QueueVars → Req → Prop} {t : Nat} {call : QueueCall}
    (hcall : calls[t]? = some call) {m : QueueMoment} {p : QueueM QueueResult}
    (h : p.Keeps Rely Ask (call.Pauses queue) (call.Ends queue) m) :
    p.Keeps Rely Ask (callPauses queue calls t) (callEnds queue calls t) m := by
  refine Process.keeps_mono (fun m rest h call' hcall' => ?_) (fun m x h call' hcall' => ?_) h
  · rw [hcall, Option.some.injEq] at hcall'
    exact hcall' ▸ h
  · rw [hcall, Option.some.injEq] at hcall'
    exact hcall' ▸ h

/-- Wherever a segment of a call stops, it has done what the call does. -/
theorem does_of_stops {t : Nat} {call : QueueCall} (hcall : calls[t]? = some call)
    {m : QueueMoment} {segment : Segment client QueueVars Thrown QueueResult}
    (h : Stops (callPauses queue calls t) (callEnds queue calls t) m segment) :
    call.Does queue { m with
      past := m.past ++ segment.acts, seen := segment.thread.seen, now := segment.vars } := by
  rcases segment with ⟨acts, s, seen, p | ⟨r, k⟩ | x⟩
  · exact h.elim
  · exact (h call hcall).1
  · exact (h call hcall).2.1

end Contracts

variable {queue : QueueConfig} {calls : List QueueCall} {network : Network ρ}

theorem finalStay_refl (s : QueueVars) : FinalStay s s := fun _ _ h _ => h

theorem FinalStay.trans {s s' s'' : QueueVars} (h : FinalStay s s') (h' : FinalStay s' s'') :
    FinalStay s s'' := fun id p hp hfinal => h' id p (h id p hp hfinal) hfinal

/-- The contracts of the calls fit together. -/
theorem fits_final : Fits (calls.map (QueueCall.process queue)) (FinalRely calls)
    (fun _ _ _ _ => True) (callPauses queue calls) (callEnds queue calls) where
  refl t past s := ⟨finalStay_refl s, fun _ _ _ _ h => h⟩
  trans t past s s' s'' h h' :=
    ⟨h.1.trans h'.1, fun hdrain q p hq hp => h'.2 hdrain q p hq (h.2 hdrain q p hq hp)⟩
  keeps t p hp seen s := by
    rw [List.getElem?_map, Option.map_eq_some_iff] at hp
    rcases hp with ⟨call, hcall, rfl⟩
    refine keeps_call hcall ?_
    cases call with
    | accept payment tier amount precheck acceptedAt =>
        exact keeps_accept (fun _ _ _ _ => trivial) (fun _ _ _ _ _ _ => trivial) _ _ _ _ _ _ _
    | drain key =>
        exact keeps_drain (fun _ _ _ _ => trivial) (fun _ _ _ _ _ _ => trivial)
          (fun past s s' q p h hq hp => h.2 ⟨key, hcall⟩ q p hq hp) _ _
    | expire now =>
        exact keeps_expire now (fun past s s' p hstate hp h =>
          ⟨h.1 p.id p hp (by rw [hstate]; rfl), trivial⟩) _ _

/-- Under the rules nothing that is there is replaced. -/
theorem Adds.get {payment : VerifiedPayment} {tier : PaymentTier} {amount : Int}
    {precheck : Option NonceVerdict} {acceptedAt : Int} {s s' : QueueVars}
    (h : Adds queue payment tier amount precheck acceptedAt s s') {id : PaymentId}
    {p : QueuedPayment} (hp : s.payments.get id = some p) : s'.payments.get id = some p := by
  rcases h with ⟨hchecks, rfl⟩
  have hfree := get_of_acceptChecks queue hchecks
  rw [Payments.get_set, if_neg, hp]
  intro hid
  rw [hid] at hp
  cases hfree.symm.trans hp

/-- A segment leaves final payments alone. -/
theorem QueueCall.Does.finalStay {call : QueueCall} {m : QueueMoment} (h : call.Does queue m) :
    FinalStay m.start m.now := by
  have halters : ∀ {may : QueuedPayment → Prop}, Alters may m.start m.now →
      FinalStay m.start m.now := by
    intro may h id p hp hfinal
    rcases h id with hsame | ⟨q, q', hq, _, hnot, _⟩
    · rw [hsame, hp]
    · rw [hp, Option.some.injEq] at hq
      rw [hq, hnot] at hfinal
      cases hfinal
  cases call with
  | accept payment tier amount precheck acceptedAt =>
      rcases h with ⟨hsame, _⟩ | hadds
      · exact fun id p hp _ => by rw [hsame, hp]
      · exact fun id p hp _ => hadds.get hp
  | drain key => exact halters h.1
  | expire now => exact halters h

section Step

variable {sys : QueueSystem ω} {t : Nat} {seen : QueueVars} {p : QueueM QueueResult}
  {call : QueueCall}

/-- What a segment does to a payment another thread has claimed: nothing. -/
theorem claimed_kept (hapart : Apart calls sys)
    (hthread : sys.threads[t]? = some ⟨seen, .ready p⟩) (hcall : calls[t]? = some call)
    (hundisputed : ¬ Disputed queue calls sys t) {m : QueueMoment}
    (hbefore : m.before = pastOf t sys.log) (hstart : m.start = sys.vars)
    (hdoes : call.Does queue m) {t' : Nat} (ht : t' ≠ t) {q q₀ : QueuedPayment}
    (hclaims : Claims calls sys t' q) (hq₀ : sys.vars.payments.get q.id = some q₀) :
    m.now.payments.get q.id = some q₀ := by
  -- To take the payment at its first look would be a dispute.
  have hdispute : m.before = [] → ¬ call.takes queue q₀ = true := fun hnil htakes =>
    hundisputed ⟨⟨⟨seen, p, hthread⟩, hbefore ▸ hnil⟩, call, hcall, t', q, q₀, ht, hclaims, hq₀,
      htakes⟩
  cases call with
  | accept payment tier amount precheck acceptedAt =>
      rcases hdoes with ⟨hsame, _⟩ | hadds
      · rw [hsame, hstart, hq₀]
      · exact hadds.get (hstart ▸ hq₀)
  | drain key =>
      rcases hdoes.1 q.id with hsame | ⟨q₁, q', hq₁, _, _, _, hmay⟩
      · rw [hsame, hstart, hq₀]
      · rw [hstart, hq₀, Option.some.injEq] at hq₁
        subst hq₁
        rcases hmay with ⟨hnil, hretried⟩ | ⟨c, hc, hid⟩
        · exact absurd hretried (hdispute hnil)
        · rw [hbefore] at hc
          -- It has claimed the payment too, but claims are apart.
          have hprogress : InProgress sys t := by
            simp only [InProgress, hthread]
            exact ne_nil_of_claimed hc
          exact absurd (hid.trans (Payments.id_of_get hq₀))
            (hapart t t' c q (Ne.symm ht) ⟨⟨key, hcall⟩, hprogress, hc⟩ hclaims)
  | expire now =>
      rcases hdoes q.id with hsame | ⟨q₁, q', hq₁, _, _, _, hnil, hout⟩
      · rw [hsame, hstart, hq₀]
      · rw [hstart, hq₀, Option.some.injEq] at hq₁
        subst hq₁
        exact absurd hout (hdispute hnil)

/-- What a thread has claimed after its turn, it had claimed, or it begins and
    finds it waiting to be submitted. -/
theorem claims_resume (reply : Reply client Thrown ω)
    (hthread : sys.threads[t]? = some ⟨seen, .ready p⟩) (hcall : calls[t]? = some call)
    (hdoes : call.Does queue ⟨pastOf t sys.log, sys.vars,
      pastOf t sys.log ++ (p.settle seen sys.vars).acts, (p.settle seen sys.vars).thread.seen,
      (p.settle seen sys.vars).vars⟩) {q : QueuedPayment}
    (h : Claims calls (sys.step reply (.resume t)) t q) :
    Claims calls sys t q ∨ Begins sys t ∧ sys.vars.payments.get q.id = some q ∧
      call.takes queue q = true := by
  rcases h with ⟨⟨key, hdrain⟩, _, hclaimed⟩
  rw [System.step_resume reply hthread, pastOf_append, pastOf_map_self] at hclaimed
  rw [hcall, Option.some.injEq] at hdrain
  subst hdrain
  by_cases hnil : pastOf t sys.log = []
  · rcases hdoes.2.1 hnil q hclaimed with ⟨hmem, hretried⟩
    exact .inr ⟨⟨⟨seen, p, hthread⟩, hnil⟩, Payments.mem_iff_get.mp hmem, hretried⟩
  · refine .inl ⟨⟨key, hcall⟩, ?_, claimed_before hclaimed hnil⟩
    simp only [InProgress, hthread]
    exact hnil

theorem claims_serve (reply : Reply client Thrown ω) {r : Req}
    {k : Except Thrown r.Ans → QueueM QueueResult}
    (hthread : sys.threads[t]? = some ⟨seen, .waiting r k⟩) {q : QueuedPayment}
    (h : Claims calls (sys.step reply (.serve t)) t q) : Claims calls sys t q := by
  rcases h with ⟨hdrain, _, hclaimed⟩
  rw [System.step_serve reply hthread, pastOf_append, pastOf_self] at hclaimed
  refine ⟨hdrain, ?_, claimed_before hclaimed fun hnil => ?_⟩
  · simp only [InProgress, hthread]
  · rcases hclaimed with ⟨⟨_, _, _, heq, _⟩, _⟩
    rw [hnil] at heq
    cases heq

theorem claims_congr {sys' : QueueSystem ω} {q : QueuedPayment}
    (h : sys'.threads[t]? = sys.threads[t]? ∧ pastOf t sys'.log = pastOf t sys.log) :
    Claims calls sys' t q ↔ Claims calls sys t q := by
  simp only [Claims, inProgress_congr h, h.2]

/-- Claims stay apart if the thread whose turn it is claims nothing of another's. -/
theorem apart_of_step {sys' : QueueSystem ω} (hapart : Apart calls sys)
    (hothers : ∀ t', t' ≠ t → ∀ q, Claims calls sys' t' q → Claims calls sys t' q)
    (hself : ∀ q, Claims calls sys' t q →
      ∀ t' q', t' ≠ t → Claims calls sys t' q' → q.id ≠ q'.id) : Apart calls sys' := by
  intro t₁ t₂ q₁ q₂ hne h₁ h₂
  by_cases ht₁ : t₁ = t
  · subst ht₁
    exact hself q₁ h₁ t₂ q₂ (Ne.symm hne) (hothers t₂ (Ne.symm hne) q₂ h₂)
  by_cases ht₂ : t₂ = t
  · subst ht₂
    exact (hself q₂ h₂ t₁ q₁ ht₁ (hothers t₁ ht₁ q₁ h₁)).symm
  exact hapart t₁ t₂ q₁ q₂ hne (hothers t₁ ht₁ q₁ h₁) (hothers t₂ ht₂ q₂ h₂)

end Step

/-- What holds of the threads in an undisputed schedule. -/
structure Peaceful (queue : QueueConfig) (calls : List QueueCall) (sys : QueueSystem ω) : Prop where
  length : sys.threads.length = calls.length
  kept : Async.Kept (calls.map (QueueCall.process queue)) (FinalRely calls) (fun _ _ _ _ => True)
    (callPauses queue calls) (callEnds queue calls) sys
  apart : Apart calls sys

section Run

variable {sys : QueueSystem ω} {reply : Reply client Thrown ω}

theorem peaceful_start (vars : QueueVars) (w : ω) :
    Peaceful queue calls
      (System.start vars w (calls.map (QueueCall.process queue)) : QueueSystem ω) where
  length := by simp only [System.start, List.length_map]
  kept := kept_start vars w
  apart t t' q q' _ h := by
    rcases h with ⟨_, _, ⟨_, _, _, heq, _⟩, _⟩
    cases heq

/-- A step that disputes nothing keeps the claims apart, and leaves what is final
    alone. -/
theorem Peaceful.step (h : Peaceful queue calls sys) (choice : Choice)
    (hundisputed : ∀ t, choice = .resume t → ¬ Disputed queue calls sys t) :
    Peaceful queue calls (sys.step reply choice) ∧
      FinalStay sys.vars (sys.step reply choice).vars := by
  rcases System.step_cases reply choice sys with
    ⟨t, seen, p, rfl, hthread⟩ | ⟨t, seen, r, k, rfl, hthread⟩ | hsame
  · have hlt : t < calls.length := h.length ▸ (List.getElem?_eq_some_iff.mp hthread).1
    have hcall : calls[t]? = some calls[t] := List.getElem?_eq_getElem hlt
    have hdoes := does_of_stops hcall (h.kept.segment fits_final hthread)
    have hfinal : FinalStay sys.vars (p.settle seen sys.vars).vars := hdoes.finalStay
    -- What others have claimed this segment leaves as they marked it.
    have hkept : ∀ t' q q₀, t' ≠ t → Claims calls sys t' q →
        sys.vars.payments.get q.id = some q₀ →
        (p.settle seen sys.vars).vars.payments.get q.id = some q₀ :=
      fun t' q q₀ ht hclaims hq₀ => claimed_kept h.apart hthread hcall
        (hundisputed t rfl) rfl rfl hdoes ht hclaims hq₀
    refine ⟨⟨(System.length_step reply _ sys).trans h.length, ?_, ?_⟩, ?_⟩
    · refine h.kept.resume fits_final hthread fun t' ht hprogress => ⟨hfinal, ?_⟩
      exact fun hdrain q q₀ hclaimed hq₀ => hkept t' q q₀ ht ⟨hdrain, hprogress, hclaimed⟩ hq₀
    · refine apart_of_step h.apart (fun t' ht q => (claims_congr (resume_other reply ht)).mp) ?_
      intro q hq t' q' ht hq'
      rcases claims_resume reply hthread hcall hdoes hq with hclaims | ⟨hbegins, hget, htakes⟩
      · exact h.apart t t' q q' (Ne.symm ht) hclaims hq'
      · -- A new claim on what another has claimed is a dispute.
        intro hid
        exact hundisputed t rfl ⟨hbegins, _, hcall, t', q', q, ht, hq', hid ▸ hget, htakes⟩
    · rw [System.step_resume reply hthread]
      exact hfinal
  · refine ⟨⟨(System.length_step reply _ sys).trans h.length,
      h.kept.serve fits_final hthread, ?_⟩, ?_⟩
    · refine apart_of_step h.apart (fun t' ht q => (claims_congr (serve_other reply ht)).mp) ?_
      exact fun q hq t' q' ht hq' =>
        h.apart t t' q q' (Ne.symm ht) (claims_serve reply hthread hq) hq'
    · rw [System.step_serve reply hthread]
      exact finalStay_refl _
  · rw [hsame]
    exact ⟨h, finalStay_refl _⟩

/-- So does a schedule. -/
theorem Peaceful.steps (h : Peaceful queue calls sys) {choices : List Choice}
    (hundisputed : Undisputed queue calls reply choices sys) :
    Peaceful queue calls (sys.steps reply choices) ∧
      FinalStay sys.vars (sys.steps reply choices).vars := by
  induction choices generalizing sys with
  | nil => exact ⟨h, finalStay_refl _⟩
  | cons choice choices ih =>
      rcases h.step choice hundisputed.1 with ⟨hnext, hfinal⟩
      rcases ih hnext hundisputed.2 with ⟨hend, hrest⟩
      exact ⟨hend, hfinal.trans hrest⟩

theorem undisputed_append {choices later : List Choice} :
    Undisputed queue calls reply (choices ++ later) sys ↔
      Undisputed queue calls reply choices sys ∧
        Undisputed queue calls reply later (sys.steps reply choices) := by
  induction choices generalizing sys with
  | nil => exact (and_iff_right trivial).symm
  | cons choice choices ih =>
      exact (and_congr_right fun _ => ih).trans and_assoc.symm

/-- What a drain is about to submit is in memory, as being submitted. -/
theorem Peaceful.handsOver (h : Peaceful queue calls sys) {t : Nat} {q : QueuedPayment}
    (hover : HandsOver calls sys t q) : sys.vars.payments.get q.id = some q := by
  rcases hover with ⟨⟨key, hcall⟩, ⟨seen, p, hthread⟩, hstate, earlier, hpast⟩
  exact (does_of_stops hcall (h.kept.segment fits_final hthread)).2.2 earlier q hpast hstate

end Run

/-- In a schedule in which no drain and no expire begins by taking what a drain
    in progress has claimed, what is settled or voided stays what it is, and a
    voided payment is not submitted. -/
theorem final_of_undisputed (network : Network ρ) (queue : QueueConfig) (calls : List QueueCall)
    (vars : QueueVars) (w : World ρ) (choices later : List Choice)
    (h : Undisputed queue calls (reply network) (choices ++ later)
      (System.start vars w (calls.map (QueueCall.process queue)))) :
    let sys := (System.start vars w (calls.map (QueueCall.process queue))).steps (reply network)
      choices
    let sys' := sys.steps (reply network) later
    (∀ id p, sys.vars.payments.get id = some p → p.state.isFinal = true →
      sys'.vars.payments.get id = some p) ∧
    ∀ t q p, HandsOver calls sys' t q → sys.vars.payments.get q.id = some p →
      p.state ≠ .voided := by
  intro sys sys'
  rcases undisputed_append.mp h with ⟨hchoices, hlater⟩
  rcases (peaceful_start vars w).steps hchoices with ⟨hmiddle, _⟩
  rcases hmiddle.steps hlater with ⟨hend, hfinal⟩
  refine ⟨hfinal, fun t q p hover hp hvoided => ?_⟩
  have hsame : some p = some q := (hfinal _ _ hp (by rw [hvoided]; rfl)).symm.trans
    (hend.handsOver hover)
  rw [Option.some.inj hsame, hover.2.2.1] at hvoided
  cases hvoided

/-- A thread's next turns, its requests served as they are made. -/
def nextTurns (t n : Nat) : List Choice := (List.replicate n [.serve t, .resume t]).flatten

/-- A drain, an expire before anything has outlived its window, a sale, and an
    expire after. -/
def dayCalls : List QueueCall :=
  [.drain (testKey 2), .expire 500, .accept (testPayment 0) .t2 10 none 500, .expire 90000000]

def dayStart : QueueSystem (World FakeRpc) :=
  System.start onceFailed ⟨∅, {}⟩ (dayCalls.map (QueueCall.process testQueue))

/-- The first expire and the sale come while the drain waits. -/
def untilSettled : List Choice :=
  [.resume 0, .resume 1, .serve 0, .resume 2] ++ nextTurns 0 7 ++ nextTurns 2 2

def afterSettled : List Choice := .resume 3 :: nextTurns 3 2

theorem final_of_undisputed_day :
    let sys := dayStart.steps (reply fakeNetwork) untilSettled
    let sys' := sys.steps (reply fakeNetwork) afterSettled
    (∀ id p, sys.vars.payments.get id = some p → p.state.isFinal = true →
      sys'.vars.payments.get id = some p) ∧
    ∀ t q p, HandsOver dayCalls sys' t q → sys.vars.payments.get q.id = some p →
      p.state ≠ .voided :=
  final_of_undisputed fakeNetwork testQueue dayCalls onceFailed ⟨∅, {}⟩ untilSettled afterSettled
    (by decide +kernel)

/-- A drain, and an expire that comes while it waits for the network. -/
def crossedCalls : List QueueCall := [.drain (testKey 2), .expire 90000000]

def crossedStart : QueueSystem (World FakeRpc) :=
  System.start onceFailed ⟨∅, {}⟩ (crossedCalls.map (QueueCall.process testQueue))

/-- The payment the drain marks. -/
def oncePayment : QueuedPayment :=
  { acceptedAs testKit (testPayment 1) .t2 10 100 with state := .failed, attempts := 1 }

/-- The payment is voided, handed to `submit` nevertheless, and ends settled. -/
theorem voided_handed_over :
    let sys := crossedStart.steps (reply fakeNetwork) [.resume 0, .resume 1]
    (sys.vars.payments.get oncePayment.id).map QueuedPayment.state = some .voided ∧
      HandsOver crossedCalls (sys.steps (reply fakeNetwork) [.serve 0]) 0 (marked oncePayment) ∧
      ((sys.steps (reply fakeNetwork) (nextTurns 0 7)).vars.payments.get oncePayment.id).map
        QueuedPayment.state = some .settled := by
  refine ⟨by decide +kernel, ⟨⟨testKey 2, rfl⟩, ⟨_, _, rfl⟩, rfl, ⟨[_], rfl⟩⟩, by decide +kernel⟩

end Vadum
