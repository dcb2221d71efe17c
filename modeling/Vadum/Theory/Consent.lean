import Vadum.Theory.Decoding
import Vadum.Theory.DeviceRuns

/-!
# What a Payer Consents To

A code on the payer's screen is money: whoever holds it can be paid. What has
to have happened before one is shown is said here of every run of the device,
whatever the payer taps, scans and types, however the network and the storage
behave, and whatever is lost on the way.

The run of the device carries a lossy run of its pool, of the commands of each
action in turn. What holds of every such run of a pool holds of the device.

## Main definitions

* `TapEvent`, `tapHistory`, `tapFinal`: The runs of a device.
* `Asked`, `Authorised`: What the payer did for a code.
* `commands`: The commands of an event.

## Theorems

* `code_authorised`: What the payer did for the code on the screen.
* `lossyRun_history`: The run of the pool in the run of its device.
* `codes_share_no_slot`: Two codes carry the same value of a slot only if it
  was released in between.
* `no_code_until_created`: A device that has lost its ledger shows no code.
-/

namespace Vadum

open Async (Event eventAt history final)

variable {ρ : Type}

namespace PayerApp

abbrev TapEvent (ρ : Type) : Type := Event DeviceAction Unit (Device ρ)

/-- What happens to a device. -/
abbrev tapHistory (network : Network ρ) (app : DeviceConfig) (device : Device ρ)
    (actions : List DeviceAction) : List (TapEvent ρ) :=
  history (deviceTap app network) device actions

abbrev tapFinal (network : Network ρ) (app : DeviceConfig) (device : Device ρ)
    (actions : List DeviceAction) : Device ρ :=
  final (deviceTap app network) device actions

/-- The payer scanned this printed request, to pay it. -/
def ScannedPrinted (events : List (TapEvent ρ)) (intent : Intent) : Prop :=
  ∃ e ∈ events, e.before.vars.screen = .scanning .payment ∧
    ∃ bytes, e.op = .tap (.scanned (.ok bytes)) ∧ peekPayloadType bytes = .ok .staticIntent ∧
      decodeStaticIntent bytes ⟨mintMap e.before.vars.mints, none⟩ = .ok intent

/-- The payer was asked for this payment: a request with its own amount was
    scanned, or the amount was typed for a printed one that was scanned before. -/
def Asked (events : List (TapEvent ρ)) (intent : Intent) (amount : Int) : Prop :=
  ∃ pre e post, events = pre ++ e :: post ∧ Opened e.op e.before intent amount ∧
    (e.before.vars.screen = .enterAmount intent → ScannedPrinted pre intent)

/-- The payer was asked for this payment, for an amount within the limit, and then
    confirmed it. The message is that of the payment, with a slot that was reserved
    for it in the same tap. -/
def Agreed (network : Network ρ) (app : DeviceConfig) (events : List (TapEvent ρ))
    (intent : Intent) (amount : Int) (r : Reservation) (message : List UInt8) : Prop :=
  ∃ pre e post, events = pre ++ e :: post ∧ Asked pre intent amount ∧
    withinPayerCap amount payerPerPaymentCap = true ∧
    ∃ commands, LossyRun network app.pool (e.op.Loses app.pool) e.before.sys commands e.after.sys ∧
      Signable app e.op e.before commands intent amount r message

/-- The payer agreed to this payment, and the code holds a signature of its
    message. -/
def Authorised (network : Network ρ) (app : DeviceConfig) (events : List (TapEvent ρ))
    (payload : List UInt8) (intent : Intent) (amount : Int) : Prop :=
  ∃ r message n, Agreed network app events intent amount r message ∧
    encodeAuth (authOf (paymentWith app intent amount r) (network.sign app.keyPair message n).1)
      (flagsFromByte (answerFlags intent)) = .ok payload

/-- What was done for the screen that is shown. -/
def Earned (network : Network ρ) (app : DeviceConfig) (events : List (TapEvent ρ)) :
    Screen → Prop
  | .enterAmount intent => ScannedPrinted events intent
  | .confirm intent amount _ => Asked events intent amount ∧
      withinPayerCap amount payerPerPaymentCap = true
  | .code payload intent amount => Authorised network app events payload intent amount
  | _ => True

section Consent

variable {network : Network ρ} {app : DeviceConfig} {device : Device ρ}
  {events : List (TapEvent ρ)} {intent : Intent} {amount : Int}

theorem ScannedPrinted.append (h : ScannedPrinted events intent) (more : List (TapEvent ρ)) :
    ScannedPrinted (events ++ more) intent := by
  rcases h with ⟨e, he, hscanned⟩
  exact ⟨e, List.mem_append_left _ he, hscanned⟩

theorem Asked.append (h : Asked events intent amount) (more : List (TapEvent ρ)) :
    Asked (events ++ more) intent amount := by
  rcases h with ⟨pre, e, post, rfl, hopened⟩
  exact ⟨pre, e, post ++ more, by rw [List.append_assoc, List.cons_append], hopened⟩

theorem Agreed.append {r : Reservation} {message : List UInt8}
    (h : Agreed network app events intent amount r message) (more : List (TapEvent ρ)) :
    Agreed network app (events ++ more) intent amount r message := by
  rcases h with ⟨pre, e, post, rfl, hagreed⟩
  exact ⟨pre, e, post ++ more, by rw [List.append_assoc, List.cons_append], hagreed⟩

theorem Earned.append {screen : Screen} (h : Earned network app events screen)
    (more : List (TapEvent ρ)) : Earned network app (events ++ more) screen := by
  cases screen with
  | enterAmount intent => exact ScannedPrinted.append h more
  | confirm intent amount warning => exact ⟨h.1.append more, h.2⟩
  | code payload intent amount =>
      rcases h with ⟨r, message, n, hagreed, hencode⟩
      exact ⟨r, message, n, hagreed.append more, hencode⟩
  | _ => trivial

/-- What may be signed in an event was agreed to. -/
theorem agreed_of_signable {action : DeviceAction} {commands : List (PoolEvent ρ)}
    {r : Reservation} {message : List UInt8}
    (h : Earned network app events device.vars.screen)
    (hlossy : LossyRun network app.pool (action.Loses app.pool) device.sys commands
      (deviceTap app network action device).2.sys)
    (hsignable : Signable app action device commands intent amount r message) :
    Agreed network app (events ++ [eventAt (deviceTap app network) action device]) intent amount
      r message := by
  rcases hsignable.confirmed.tapped with ⟨_, _, _, hconfirm, _⟩
  rw [hconfirm] at h
  exact ⟨events, _, [], rfl, h.1, h.2, commands, hlossy, hsignable⟩

/-- Whatever an action shows was earned. -/
theorem earned_step {action : DeviceAction} (h : Earned network app events device.vars.screen) :
    Earned network app (events ++ [eventAt (deviceTap app network) action device])
      (deviceTap app network action device).2.vars.screen := by
  rcases tap_spec network app action device with ⟨commands, hlossy, _, hshown | hsame, _⟩
  · cases hscreen : (deviceTap app network action device).2.vars.screen with
    | enterAmount intent =>
        rw [hscreen] at hshown
        exact ⟨_, List.mem_append_right _ (List.mem_singleton_self _), hshown⟩
    | confirm intent amount warning =>
        rw [hscreen] at hshown
        refine ⟨⟨events, _, [], rfl, hshown.1, fun hentered => ?_⟩, hshown.2⟩
        rwa [show device.vars.screen = _ from hentered] at h
    | code payload intent amount =>
        rw [hscreen] at hshown
        rcases hshown with ⟨r, message, n, hsignable, hencode⟩
        exact ⟨r, message, n, agreed_of_signable h hlossy hsignable, hencode⟩
    | _ => trivial
  · rw [hsame]
    exact h.append _

/-- So every screen of a run was earned. -/
theorem earned_run (network : Network ρ) (app : DeviceConfig) {device : Device ρ}
    (hstart : device.vars.screen = .waiting) (actions : List DeviceAction) :
    Earned network app (tapHistory network app device actions)
        (tapFinal network app device actions).vars.screen ∧
      ∀ pre e post, tapHistory network app device actions = pre ++ e :: post →
        Earned network app pre e.before.vars.screen := by
  have hinit : Earned network app [] device.vars.screen := by
    rw [hstart]
    trivial
  exact @Async.history_rule _ _ _ (deviceTap app network)
    (fun events device => Earned network app events device.vars.screen) (fun _ _ => True)
    (fun _ _ _ h _ => earned_step h) [] device actions hinit fun _ _ _ _ => trivial

/-- In every run of a device that was just switched on, the code on the screen was
    authorised by the payer: a request was scanned, its amount settled within the
    limit and confirmed, and a slot was reserved for it and signed with. -/
theorem code_authorised (network : Network ρ) (app : DeviceConfig) (device : Device ρ)
    (hstart : device.vars.screen = .waiting) (actions : List DeviceAction)
    {payload : List UInt8} {intent : Intent} {amount : Int}
    (hcode : (tapFinal network app device actions).vars.screen
      = .code payload intent amount) :
    Authorised network app (tapHistory network app device actions) payload intent amount := by
  have hearned := (earned_run network app hstart actions).1
  rw [hcode] at hearned
  exact hearned

/-- The same network, with a clock that moves on while the app waits. -/
def aging (network : Network ρ) (interval : Nat) : Network (ρ × Nat) where
  rpc := fun c n => ((network.rpc c n.1).1, ((network.rpc c n.1).2, n.2))
  storage := fun n => ((network.storage n.1).1, ((network.storage n.1).2, n.2))
  sign := fun key message n =>
    ((network.sign key message n.1).1, ((network.sign key message n.1).2, n.2))
  clock := fun n => n.2
  randomUUID := fun n => ((network.randomUUID n.1).1, ((network.randomUUID n.1).2, n.2))
  tick := fun n => (network.tick n.1, n.2 + interval)

/-- Setting up happens once on this network, and a tenth of a day passes with every
    wait. -/
def slowSetup : Network (Bool × Nat) := aging setupOnce 8640000

def testApp : DeviceConfig := ⟨testPool, testKey 1⟩

/-- A device that knows the mint, and has no pool yet. -/
def testDevice : Device (Bool × Nat) where
  vars := ⟨true, none, none, [], .waiting⟩
  world := ⟨(∅ : Store).insert (.mint testRecord.mint) testRecord, (false, 0)⟩

/-- Scanning a request, signing it, and showing the code. -/
def payOnce : List DeviceAction :=
  [.tap (.scan .payment), .tap (.scanned (.ok (intentBytes testIntent 10))), .tap (.sign [])]

def payingRun : List DeviceAction := [.reopen true, .tap .create, .tap .home] ++ payOnce

/-- The code of the payment from the first slot. -/
def testCode : List UInt8 :=
  ((encodeAuth (testPayment 0).auth (flagsFromByte (answerFlags testIntent))).toOption).getD []

theorem code_authorised_payingRun :
    Authorised slowSetup testApp (tapHistory slowSetup testApp testDevice payingRun) testCode
      testIntent 10 :=
  code_authorised slowSetup testApp testDevice rfl payingRun (by decide +kernel)

end Consent

section Commands

variable (network : Network ρ) (app : DeviceConfig)

/-- The commands that an event is of. -/
noncomputable def commands (e : TapEvent ρ) : List (PoolEvent ρ) :=
  (tap_spec network app e.op e.before).choose

/-- The pool of a device makes a lossy run, of the commands of each event in turn. -/
theorem lossyRun_history (device : Device ρ) (actions : List DeviceAction) :
    LossyRun network app.pool (∃ action ∈ actions, action.Loses app.pool) device.sys
      ((tapHistory network app device actions).flatMap (commands network app))
      (tapFinal network app device actions).sys := by
  induction actions generalizing device with
  | nil => exact .start
  | cons action actions ih =>
      have hfirst := (tap_spec network app action device).choose_spec.1
      refine .append (hfirst.mono fun h => ⟨action, List.mem_cons_self, h⟩) ((ih _).mono ?_)
      rintro ⟨lossy, hmem, h⟩
      exact ⟨lossy, List.mem_cons_of_mem _ hmem, h⟩

variable {network app}

/-- What an event of a device does to the pool, and to the screens. -/
theorem commands_spec {e : TapEvent ρ} (he : e = eventAt (deviceTap app network) e.op e.before) :
    LossyRun network app.pool (e.op.Loses app.pool) e.before.sys (commands network app e)
      e.after.sys ∧
    (∀ c ∈ commands network app e, Caused network e.op e.before c) ∧
    (Shown network app e.op e.before (commands network app e) e.after.vars.screen ∨
      e.after.vars.screen = e.before.vars.screen) := by
  have hafter : e.after = (deviceTap app network e.op e.before).2 := by rw [he]; rfl
  rw [hafter]
  rcases (tap_spec network app e.op e.before).choose_spec with ⟨hlossy, hcaused, hshown, _⟩
  exact ⟨hlossy, hcaused, hshown⟩

/-- In this event the payer's key is asked to sign a message. -/
def SignsMessage (network : Network ρ) (app : DeviceConfig) (e : TapEvent ρ)
    (message : List UInt8) : Prop :=
  ∃ w, (Req.sign app.keyPair message, w) ∈
    Async.Process.requests (reply network) (e.op.process app e.before.vars.screen) e.before.vars
      e.before.world

/-- A message that is signed is one that the event may sign. -/
theorem signable_of_signed {e : TapEvent ρ} {message : List UInt8}
    (h : SignsMessage network app e message) : ∃ intent amount r,
      Signable app e.op e.before (commands network app e) intent amount r message := by
  rcases h with ⟨w, hsigned⟩
  exact ((tap_spec network app e.op e.before).choose_spec.2.2.2.1 _ _ _ hsigned).2

end Commands

section Slots

variable {network : Network ρ} {app : DeviceConfig} {device : Device ρ}

/-- The slot a merchant reads in the code on the screen. -/
def Screen.slot : Screen → Option NonceRef
  | .code payload intent _ =>
    match decodeAuth payload ⟨fun _ => none, some (flagsFromByte (answerFlags intent))⟩ with
    | .ok auth => auth.nonceRef
    | .error _ => none
  | _ => none

theorem slot_eq {screen : Screen} {ref : NonceRef} (h : screen.slot = some ref) :
    ∃ payload intent amount auth, screen = .code payload intent amount ∧
      decodeAuth payload ⟨fun _ => none, some (flagsFromByte (answerFlags intent))⟩ = .ok auth ∧
      auth.nonceRef = some ref := by
  cases screen with
  | code payload intent amount =>
      simp only [Screen.slot] at h
      split at h
      · next auth hauth => exact ⟨payload, intent, amount, auth, rfl, hauth, h⟩
      · cases h
  | _ => cases h

/-- The event shows a code that was not there before, with this slot. -/
def NewCode (e : TapEvent ρ) (ref : NonceRef) : Prop :=
  e.after.vars.screen ≠ e.before.vars.screen ∧ e.after.vars.screen.slot = some ref

/-- Every recovery code that is scanned in the run is honest. -/
def HonestScans (chain : Chain network) (app : DeviceConfig) (events : List (TapEvent ρ)) :
    Prop :=
  ∀ e ∈ events, ∀ bytes payload, e.op = .tap (.scanned (.ok bytes)) →
    decodeNonceReturn bytes = .ok payload →
    HonestReturn chain app.pool
      (eventAt (poolStep network app.pool) (.call (.applyNonceReturn payload)) e.before.sys)

/-- The event is a tap on the button that signs, and reserves this slot. -/
def Reserves (network : Network ρ) (app : DeviceConfig) (e : TapEvent ρ) (r : Reservation) :
    Prop :=
  (∃ retyped, e.op = .tap (.sign retyped)) ∧
    ∃ c ∈ commands network app e, ∃ m, made c = some m ∧ m.reservation = r ∧
      m.now = network.clock c.before.world.net

/-- What is signed for was reserved in the same tap. -/
theorem reserves_of_signable {e : TapEvent ρ}
    (he : e = eventAt (deviceTap app network) e.op e.before) {intent : Intent} {amount : Int}
    {r : Reservation} {message : List UInt8}
    (h : Signable app e.op e.before (commands network app e) intent amount r message) :
    Reserves network app e r := by
  rcases h.confirmed.tapped with ⟨retyped, _, hop, _⟩
  rcases h.reserved with ⟨c, hc, now, hmade⟩
  refine ⟨⟨retyped, hop⟩, c, hc, _, hmade, rfl, ?_⟩
  rcases (commands_spec he).2.1 c hc with ⟨op, hcall, hcause⟩
  cases (made_eq hmade).1.symm.trans hcall
  exact hcause.2

/-- The slot of a new code was reserved in the tap that shows it. -/
theorem reserves_of_newCode {e : TapEvent ρ}
    (he : e = eventAt (deviceTap app network) e.op e.before) {ref : NonceRef}
    (hnew : NewCode e ref) : Reserves network app e ⟨ref.index, ref.value⟩ := by
  rcases slot_eq hnew.2 with ⟨payload, intent, amount, auth, hscreen, hdecode, href⟩
  rcases (commands_spec he).2.2 with hshown | hsame
  · rw [hscreen] at hshown
    rcases hshown with ⟨r, message, n, hsignable, hencode⟩
    -- What the merchant reads is what was encoded.
    rw [decodeAuth_encodeAuth hencode rfl] at hdecode
    rw [← Except.ok.inj hdecode] at href
    rw [← Option.some.inj href]
    exact reserves_of_signable he hsignable
  · exact absurd hsame hnew.1

/-- The readings of the pool's clock in the run of a device never go back. -/
theorem readings_ordered {lost : Prop} {sys sys' : PoolSys ρ} {events : List (PoolEvent ρ)}
    (hclock : ∀ n n', Later network n n' → network.clock n ≤ network.clock n')
    (hrun : LossyRun network app.pool lost sys events sys')
    (hcaused : ∀ c ∈ events, ∃ action device, Caused network action device c) :
    (readings events).Pairwise (· ≤ ·) := by
  have hreading : ∀ c ∈ events, ∀ now, c.op.reading = some now →
      now = network.clock c.before.world.net := by
    intro c hc now hnow
    rcases hcaused c hc with ⟨action, device, op, hcall, hcause⟩
    simp only [hcall, PoolCommand.reading, PoolCommand.op] at hnow
    cases op with
    | reserveSlot merchant now' amount =>
        cases hnow
        exact hcause.2
    | _ => cases hnow
  refine List.pairwise_filterMap.mpr (hrun.ordered.imp_of_mem fun hc hc' hlater now hnow now'
    hnow' => ?_)
  rw [hreading _ hc now hnow, hreading _ hc' now' hnow']
  exact hclock _ _ hlater

/-- The returns among the commands are those of the codes that were scanned. -/
theorem honest_commands {chain : Chain network} {events : List (TapEvent ρ)}
    (hevent : ∀ e ∈ events, e = eventAt (deviceTap app network) e.op e.before)
    (hhonest : HonestScans chain app events) :
    ∀ c ∈ events.flatMap (commands network app), HonestReturn chain app.pool c := by
  intro c hc payload state slot record statement hreturn
  rcases List.mem_flatMap.mp hc with ⟨e, he, hc⟩
  rcases (commands_spec (hevent e he)).2.1 c hc with ⟨op, hcall, hcause⟩
  cases (show some op = some (.applyNonceReturn payload) from by rw [← hreturn, hcall]; rfl)
  rcases hcause with ⟨hbefore, bytes, hop, hpayload⟩
  rw [hbefore]
  exact hhonest e he bytes payload hop hpayload payload state slot record statement rfl

section Apart

variable (chain : Chain network) {events pre mid post : List (TapEvent ρ)}
  {e₁ e₂ : TapEvent ρ}

/-- Two taps of a run reserve the same slot with the same value only if in between
    the payer has refreshed the pool, and the clock has moved on by the send window. -/
theorem reserves_apart (hfresh : device.sys.Fresh app.pool)
    (hclock : ∀ n n', Later network n n' → network.clock n ≤ network.clock n')
    {actions : List DeviceAction} (hevents : tapHistory network app device actions = events)
    (hhonest : HonestScans chain app events) {r : Reservation}
    (hsplit : events = pre ++ e₁ :: (mid ++ e₂ :: post))
    (h₁ : Reserves network app e₁ r) (h₂ : Reserves network app e₂ r) :
    ∃ e ∈ mid, e.op = .tap .restore ∧
      network.clock e₁.before.world.net + app.pool.sendWindowMs
        ≤ network.clock e.after.world.net := by
  have hevent : ∀ e ∈ events, e = eventAt (deviceTap app network) e.op e.before := fun e he =>
    Async.eventAt_of_mem _ (hevents ▸ he)
  have hcaused : ∀ c ∈ events.flatMap (commands network app), ∃ e ∈ events,
      Caused network e.op e.before c := by
    intro c hc
    rcases List.mem_flatMap.mp hc with ⟨e, he, hc⟩
    exact ⟨e, he, (commands_spec (hevent e he)).2.1 c hc⟩
  have he₁ : e₁ ∈ events := hsplit ▸ List.mem_append_right _ List.mem_cons_self
  have hmid : ∀ e ∈ mid, e ∈ events := fun e he => hsplit ▸ List.mem_append_right _
    (List.mem_cons_of_mem _ (List.mem_append_left _ he))
  have he₂ : e₂ ∈ events := hsplit ▸ List.mem_append_right _
    (List.mem_cons_of_mem _ (List.mem_append_right _ List.mem_cons_self))
  have hlossy := lossyRun_history network app device actions
  rw [hevents] at hlossy
  rcases h₁ with ⟨⟨retyped₁, hsign₁⟩, c₁, hc₁, m₁, hmade₁, hres₁, hnow₁⟩
  rcases h₂ with ⟨⟨retyped₂, hsign₂⟩, c₂, hc₂, m₂, hmade₂, hres₂, _⟩
  rcases List.append_of_mem hc₁ with ⟨before₁, after₁, heq₁⟩
  rcases List.append_of_mem hc₂ with ⟨before₂, after₂, heq₂⟩
  have hcut : events.flatMap (commands network app)
      = (pre.flatMap (commands network app) ++ before₁) ++ c₁ ::
        ((after₁ ++ (mid.flatMap (commands network app) ++ before₂)) ++ c₂ ::
          (after₂ ++ post.flatMap (commands network app))) := by
    simp only [hsplit, List.flatMap_append, List.flatMap_cons, heq₁, heq₂, List.append_assoc,
      List.cons_append]
  rcases hand_out_once_lossy chain app.pool hfresh hlossy
      (readings_ordered hclock hlossy fun c hc => by
        rcases hcaused c hc with ⟨e, _, h⟩
        exact ⟨_, _, h⟩)
      (honest_commands hevent hhonest) hcut hmade₁ hmade₂ (hres₁.trans hres₂.symm) with
    ⟨c, hc, now, hreleases, hdue⟩
  -- Signing reconciles nothing, so the release was caused by an event in between.
  have hrestores : ∀ e ∈ events, c ∈ commands network app e →
      e.op = .tap .restore ∧ now = network.clock c.before.world.net := by
    intro e he hce
    rcases (commands_spec (hevent e he)).2.1 c hce with ⟨op, hcall, hcause⟩
    cases (show some op = some (.reconcile now) from by
      rw [← hreleases.reconcile, hcall]; rfl)
    exact hcause
  rcases List.mem_append.mp hc with hc | hc
  · cases hsign₁.symm.trans (hrestores e₁ he₁ (heq₁ ▸ List.mem_append_right _
      (List.mem_cons_of_mem _ hc))).1
  rcases List.mem_append.mp hc with hc | hc
  · rcases List.mem_flatMap.mp hc with ⟨e, he, hce⟩
    rcases hrestores e (hmid e he) hce with ⟨hop, hnow⟩
    refine ⟨e, he, hop, ?_⟩
    have hstart := ((commands_spec (hevent e₁ he₁)).1.event hc₁).2.1
    have hrun := (commands_spec (hevent e (hmid e he))).1
    have hend := (hrun.event hce).2.2
    have hcommand : Later network c.before.world.net c.after.world.net := by
      rw [(hrun.event hce).1]
      exact command_later network app.pool c.op c.before
    calc network.clock e₁.before.world.net + app.pool.sendWindowMs
        ≤ m₁.now + app.pool.sendWindowMs := by
          rw [hnow₁]
          exact Int.add_le_add_right (hclock _ _ hstart) _
      _ ≤ now := hdue
      _ ≤ network.clock e.after.world.net := by
          rw [hnow]
          exact hclock _ _ (hcommand.trans hend)
  · cases hsign₂.symm.trans (hrestores e₂ he₂ (heq₂ ▸ List.mem_append_left _ hc)).1

end Apart

/-- A step of the network with a clock is one of the network, and the clock never
    goes back. -/
theorem steps_aging {network : Network ρ} {interval : Nat} {n n' : ρ × Nat}
    (h : Steps (aging network interval) n n') : Steps network n.1 n'.1 ∧ n.2 ≤ n'.2 := by
  rcases h with ⟨r, w, rfl, rfl⟩
  have hstep : ∀ net, (reply network r ⟨w.store, w.net.1⟩).2.net = net →
      Steps network w.net.1 net := fun net hnet => ⟨r, ⟨w.store, w.net.1⟩, rfl, hnet⟩
  cases r with
  | tick => exact ⟨hstep _ rfl, Nat.le_add_right _ _⟩
  | storeGet k =>
      simp only [reply, aging] at hstep ⊢
      generalize network.storage w.net.1 = answer at hstep ⊢
      rcases answer with ⟨_ | e, net⟩ <;> exact ⟨hstep _ rfl, le_rfl⟩
  | storeSet k v =>
      simp only [reply, aging] at hstep ⊢
      generalize network.storage w.net.1 = answer at hstep ⊢
      rcases answer with ⟨_ | e, net⟩ <;> exact ⟨hstep _ rfl, le_rfl⟩
  | storeKeys p =>
      simp only [reply, aging] at hstep ⊢
      generalize network.storage w.net.1 = answer at hstep ⊢
      rcases answer with ⟨_ | e, net⟩ <;> exact ⟨hstep _ rfl, le_rfl⟩
  | _ => exact ⟨hstep _ rfl, le_rfl⟩

theorem clock_aging {network : Network ρ} {interval : Nat} {n n' : ρ × Nat}
    (h : Later (aging network interval) n n') :
    (aging network interval).clock n ≤ (aging network interval).clock n' := by
  induction h with
  | refl => exact le_rfl
  | tail _ hstep ih => exact ih.trans (Int.ofNat_le.mpr (steps_aging hstep).2)

def slowSetupChain : Chain slowSetup where
  register := fun n a => setupOnceChain.register n.1 a
  next := fun _ _ a h => setupOnceChain.next _ _ a (steps_aging h).1
  truthful := fun n n' a account h => by
    rcases Prod.mk.inj h with ⟨haccount, rfl⟩
    exact setupOnceChain.truthful n.1 _ a account (Prod.ext haccount rfl)
  setup := fun n n' instructions key signature h => by
    rcases Prod.mk.inj h with ⟨hsent, rfl⟩
    exact setupOnceChain.setup n.1 _ instructions key signature (Prod.ext hsent rfl)

/-- All five slots are paid with, and then the first one again. -/
def spendingTaps : List DeviceAction :=
  let payNext : List DeviceAction := .tap .home :: payOnce
  [.reopen true, .tap .create] ++ payNext ++ payNext ++ payNext ++ payNext ++ payNext ++
    [.tap .home, .tap .restore] ++ payOnce

def spendingEvents : List (TapEvent (Bool × Nat)) :=
  tapHistory slowSetup testApp testDevice spendingTaps

theorem length_spendingEvents : spendingEvents.length = 27 := rfl

def spendingEvent (n : Fin 27) : TapEvent (Bool × Nat) :=
  spendingEvents.get (n.cast length_spendingEvents.symm)

/-- The scan of a recovery code. -/
def scansReturn : DeviceAction → Bool
  | .tap (.scanned (.ok bytes)) => (decodeNonceReturn bytes).toOption.isSome
  | _ => false

/-- Where no recovery code is scanned, none is dishonest. -/
theorem honestScans_of_requests {chain : Chain slowSetup} {app : DeviceConfig}
    {device : Device (Bool × Nat)} {actions : List DeviceAction}
    (h : ∀ action ∈ actions, scansReturn action = false) :
    HonestScans chain app (tapHistory slowSetup app device actions) := by
  intro e he bytes payload hop hdecode
  have hnone := h e.op (Async.op_mem_of_mem _ he)
  simp only [hop, scansReturn, hdecode] at hnone
  cases hnone

theorem honestScans_spendingEvents : HonestScans slowSetupChain testApp spendingEvents :=
  honestScans_of_requests (by decide +kernel)

end Slots

section Lost

variable {network : Network ρ} {app : DeviceConfig} {device : Device ρ}

/-- No code is on the screen. -/
def NoCode (device : Device ρ) : Prop :=
  ∀ payload intent amount, device.vars.screen ≠ .code payload intent amount

/-- Only the button of the setup creates a pool. -/
theorem not_confirms {action : DeviceAction} {c : PoolEvent ρ}
    (hcaused : Caused network action device c) (hnone : action ≠ .tap .create) :
    ¬ Confirms network app.pool c := by
  rintro ⟨⟨size, payerKey, hcreate⟩, _⟩
  rcases hcaused with ⟨op, hcall, hcause⟩
  cases (show some op = some (.create size payerKey) from by rw [← hcreate, hcall]; rfl)
  exact hnone hcause

/-- A device with nothing to spend shows no code, and has nothing to spend after. -/
theorem unspendable_tap (network : Network ρ) (action : DeviceAction)
    (h : Unspendable app.pool device.sys)
    (hnone : action ≠ .tap .create) :
    Unspendable app.pool (deviceTap app network action device).2.sys ∧
      (NoCode (deviceTap app network action device).2 ∨
        (deviceTap app network action device).2.vars.screen = device.vars.screen) := by
  rcases tap_spec network app action device with ⟨events, hlossy, hcaused, hshown, _⟩
  rcases hlossy.unspendable h fun c hc => not_confirms (hcaused c hc) hnone with ⟨hafter, hmade⟩
  refine ⟨hafter, hshown.imp_left fun hshown payload intent amount hscreen => ?_⟩
  rw [hscreen] at hshown
  rcases hshown with ⟨r, message, n, hsignable, _⟩
  rcases hsignable.reserved with ⟨c, hc, _, hreserved⟩
  cases (hmade c hc).symm.trans hreserved

/-- Opening the app starts from what is stored, whatever was in memory. -/
theorem unspendable_reopen (network : Network ρ) (hlost : device.sys.stored app.pool = none)
    (standalone : Bool) :
    Unspendable app.pool (deviceTap app network (.reopen standalone) device).2.sys ∧
      NoCode (deviceTap app network (.reopen standalone) device).2 := by
  let closed : Device ρ := ⟨{ device.vars with pool := none, screen := .waiting }, device.world⟩
  have hstart : Unspendable app.pool closed.sys :=
    ⟨fun state h => (nomatch h), fun state h => (nomatch hlost.symm.trans h)⟩
  have hsame : deviceTap app network (.reopen standalone) device
      = deviceTap app network (.reopen standalone) closed := rfl
  rw [hsame]
  rcases unspendable_tap network (.reopen standalone) hstart
    (by simp only [ne_eq, reduceCtorEq, not_false_eq_true]) with ⟨hafter, hnone | hscreen⟩
  · exact ⟨hafter, hnone⟩
  · refine ⟨hafter, fun payload intent amount h => ?_⟩
    cases hscreen.symm.trans h

/-- A device that has lost its ledger and is opened again shows no code before the
    payer has set up a new pool, whatever is restored, recovered or scanned. -/
theorem no_code_until_created (network : Network ρ) (app : DeviceConfig) (device : Device ρ)
    (hlost : device.sys.stored app.pool = none) (standalone : Bool) {actions : List DeviceAction}
    (hnone : .tap .create ∉ actions) :
    ∀ e ∈ tapHistory network app device (.reopen standalone :: actions),
      ∀ payload intent amount, e.after.vars.screen ≠ .code payload intent amount := by
  have hreopen := unspendable_reopen network hlost standalone
  have hstep : ∀ (action : DeviceAction) (device : Device ρ),
      Unspendable app.pool device.sys ∧ NoCode device → action ≠ .tap .create →
      Unspendable app.pool (deviceTap app network action device).2.sys ∧
        NoCode (deviceTap app network action device).2 := by
    rintro action device ⟨hspend, hcode⟩ haction
    rcases unspendable_tap network action hspend haction with ⟨hafter, hnone | hscreen⟩
    · exact ⟨hafter, hnone⟩
    · exact ⟨hafter, fun payload intent amount h => hcode payload intent amount (hscreen ▸ h)⟩
  intro e he
  rcases List.mem_cons.mp he with rfl | he
  · exact hreopen.2
  · have hcreate : ∀ e ∈ tapHistory network app
        (deviceTap app network (.reopen standalone) device).2 actions, e.op ≠ .tap .create :=
      fun e he hop => hnone (hop ▸ Async.op_mem_of_mem _ he)
    have hbefore := (Async.history_invariant (deviceTap app network)
      (A := fun e => e.op ≠ .tap .create) hstep hreopen hcreate).2 e he
    have hafter := hstep e.op e.before hbefore (hcreate e he)
    rw [Async.eventAt_of_mem _ he]
    exact hafter.2

/-- A device that loses the ledger of the pool it has just set up. -/
def lostDevice : Device (Bool × Nat) :=
  tapFinal slowSetup testApp testDevice
    [.reopen true, .tap .create, .lose [.pool testPool.payer] false]

theorem no_code_until_created_lostDevice :
    ¬ ∃ e ∈ tapHistory slowSetup testApp lostDevice
        (.reopen true :: .tap .restore :: .tap .home :: payOnce),
      ∃ payload intent amount, e.after.vars.screen = .code payload intent amount := by
  rintro ⟨e, he, payload, intent, amount, hcode⟩
  exact no_code_until_created slowSetup testApp lostDevice (by decide +kernel) true (by
    simp only [payOnce, List.mem_cons, List.not_mem_nil, DeviceAction.tap.injEq, reduceCtorEq,
      or_self, not_false_eq_true]) e he payload intent amount hcode

end Lost

end PayerApp

end Vadum
