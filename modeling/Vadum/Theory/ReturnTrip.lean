import Vadum.Theory.AirGap
import Vadum.Theory.EndToEnd
import Vadum.Theory.Returning

/-!
# The Way Back of a Slot

A slot that has paid is of no use to the payer until its new value is known. The
merchant, who has settled the payment, knows it, and shows a recovery code that
the payer scans: the slot pays again without the payer's phone ever going online.

Both directions are said of runs. A recovery code that a till shows re-arms the
slot it is about, in whatever state the rest of the payer's device is. And a code
that re-arms a slot, whoever showed it, is one that the till signed after it had
taken the payment that was made from that slot, which is the one the payer agreed
to.

## Main definitions

* `Offline`: A request that is no call of the network.

## Theorems

* `scanned_return`: A recovery code that is scanned goes to the pool.
* `asks_scanned`: A scan needs no network.
* `return_trip`: The code a till shows re-arms the slot.
* `rearmed_by_sale`: A slot is re-armed by nothing else.
-/

namespace Vadum

open Async (eventAt)
open Async.Process
open MerchantApp (Till TillConfig TillAction TillEvent tillHistory tillFinal Taken)
open PayerApp (slowSetup Agreed Device DeviceConfig DeviceAction DeviceVars deviceTap ScanPurpose
  paymentWith TapEvent tapHistory tapFinal)

variable {ρ ρ' : Type}

section Scanned

variable {network : Network ρ} {app : DeviceConfig} {device : Device ρ} {purpose : ScanPurpose}
  {bytes : List UInt8} {payload : NonceReturnPayload}

/-- Whatever the scan is for, a recovery code goes to the pool. -/
theorem run_routeScanned (hdecode : decodeNonceReturn bytes = .ok payload) (s : DeviceVars)
    (w : World ρ) : run (reply network) (PayerApp.routeScanned app bytes purpose) s w
      = run (reply network) (do
          let status ← zoom PayerApp.poolPart (Pool.applyNonceReturn app.pool payload)
          PayerApp.render (.restored status)) s w := by
  have htype : peekPayloadType bytes = .ok .nonceReturn := by
    have hheader := hdecode
    unfold decodeNonceReturn at hheader
    rcases Checks.bind_eq_ok.mp hheader with ⟨flags, hflags, _⟩
    exact peekPayloadType_of_decode hflags
  rw [PayerApp.routeScanned, htype, hdecode]
  rw [run_bind_ok _ (run_ofResult _ _ _ _), run_bind_ok _ (run_read _ _ _)]
  simp only [or_true, if_true, ne_eq, not_true_eq_false, if_false]
  rfl

/-- It is applied as the pool applies it, and then the screen says so. -/
theorem scanned_return (hscreen : device.vars.screen = .scanning purpose)
    (hdecode : decodeNonceReturn bytes = .ok payload) :
    let x := run (reply network) (Pool.applyNonceReturn app.pool payload) device.vars.pool
      device.world
    let after := (deviceTap app network (.tap (.scanned (.ok bytes))) device).2
    after.vars.pool = x.vars ∧ after.world = x.world ∧
      ∀ status, x.result = .ok status → after.vars.screen = .restored status := by
  have hprocess : DeviceAction.process app device.vars.screen (.tap (.scanned (.ok bytes)))
      = MonadExcept.tryCatch (PayerApp.routeScanned app bytes purpose) PayerApp.failed := by
    rw [hscreen]
    rfl
  have hrun := run_tryCatch (reply network) (PayerApp.routeScanned app bytes purpose)
    PayerApp.failed device.vars device.world
  rw [run_routeScanned hdecode, run_bind, run_zoom] at hrun
  simp only [deviceTap, hprocess]
  change run (reply network) (MonadExcept.tryCatch _ _) _ _ = _ at hrun
  rw [hrun, show PayerApp.poolPart.get device.vars = device.vars.pool from rfl]
  rcases run (reply network) (Pool.applyNonceReturn app.pool payload) device.vars.pool device.world
    with ⟨e | status, pool, world⟩
  · exact ⟨rfl, rfl, fun _ h => nomatch h⟩
  · exact ⟨rfl, rfl, fun _ h => Except.ok.inj h ▸ rfl⟩

/-- A request that is no call of the network. -/
def Offline (r : Req) : Prop := ∀ c, r ≠ .rpc c

theorem ledgerAllows_offline (pool : PoolConfig) : LedgerAllows pool Offline where
  tick := fun _ => Req.noConfusion
  storeGet := fun _ => Req.noConfusion
  storeSet := fun _ _ => Req.noConfusion

theorem asks_render (screen : PayerApp.Screen) : Asks Offline (PayerApp.render screen) :=
  asks_bind asks_read fun _ => asks_write _

theorem asks_dateNow : Asks Offline (dateNow : PayerApp.DeviceM Int) :=
  asks_request (I := client) (r := .now) fun _ => Req.noConfusion

theorem asks_openConfirm (intent : Intent) (amount : Int) :
    Asks Offline (PayerApp.openConfirm app intent amount) := by
  refine asks_bind asks_read fun vars => asks_bind asks_dateNow fun openedAt => ?_
  dsimp only
  split
  · exact asks_render _
  · refine asks_bind asks_dateNow fun now => asks_bind (asks_zoom _
      (asks_allowance (ledgerAllows_offline app.pool) now)) fun allowance => ?_
    split <;> exact asks_render _

/-- Whatever is scanned, the network is not needed for it. -/
theorem asks_scanned (purpose : ScanPurpose) (bytes : List UInt8) :
    Asks Offline (DeviceAction.process app (.scanning purpose) (.tap (.scanned (.ok bytes)))) := by
  refine asks_tryCatch (p := PayerApp.routeScanned app bytes purpose) (c := PayerApp.failed) ?_
    fun error => asks_render _
  refine asks_bind (asks_ofResult _) fun type => asks_bind asks_read fun vars => ?_
  dsimp only
  split
  · split
    · exact fun _ _ => trivial
    · exact asks_bind (asks_ofResult _) fun payload => asks_bind (asks_zoom _
        (asks_returned (ledgerAllows_offline app.pool) payload)) fun status => asks_render _
  · split
    · exact asks_bind (asks_ofResult _) fun intent => asks_openConfirm intent _
    · exact asks_bind (asks_ofResult _) fun intent => asks_render _
    · exact fun _ _ => trivial

end Scanned

section Applied

variable {network : Network ρ} {pool : PoolConfig} {s : Option PoolState} {w : World ρ}
  {state : PoolState} {net : ρ} {payload : NonceReturnPayload} {slot : PoolSlot}
  {record : SpentRecord} {bytes : List UInt8}

/-- A return that names a spent slot, and verifies under the key of the recorded
    merchant, is applied. -/
theorem returned_of_names (hfinds : Finds network pool s w state net)
    (hnames : Names state payload slot record) (hlength : payload.signature.length = 64)
    (hbytes : nonceReturnSigningBytes
      ⟨pool.payer, payload.nonceIndex, record.value, payload.newNonceValue⟩ = .ok bytes)
    (hverify : pool.kit.verifySignature record.merchant payload.signature bytes = .ok true) :
    Returned network pool (returnedTo state slot payload) w
      (run (reply network) (Pool.applyNonceReturn pool payload) s w) := by
  have hv : verifyNonceReturn pool.kit payload ⟨pool.payer, record.merchant, record.value⟩
      = .ok ⟨pool.payer, payload.nonceIndex, record.value, payload.newNonceValue⟩ := by
    unfold verifyNonceReturn
    simp only [Checks.throw_bind, if_neg hnames.moved, ne_eq, hlength, not_true_eq_false, if_false,
      hbytes, Checks.ok_bind, hverify]
    rfl
  have hindex : slot.index = payload.nonceIndex := by
    simpa only [decide_eq_true_eq] using List.find?_some hnames.found
  rcases slot with ⟨index, address, value, _, _, releasedAt⟩
  cases hnames.spent
  cases hnames.against
  cases hindex
  have hwritten := @returned_persist _ network pool (some state)
    ⟨w.store, network.tick (network.tick net)⟩ (returnedTo state
      ⟨payload.nonceIndex, address, value, .spent, some record, releasedAt⟩ payload)
  rw [Pool.applyNonceReturn, run_bind_ok _ (run_awaited_loaded hfinds)]
  dsimp only
  rw [hnames.found]
  dsimp only
  rw [hv]
  exact hwritten

end Applied

section Shown

variable {network : Network ρ} {app : DeviceConfig} {network' : Network ρ'} {shop : TillConfig}
  {till : Till ρ'} {sales : List (TillEvent ρ')} {payment : VerifiedPayment} {tier : PaymentTier}
  {amount : Int} {signature : Signature} {value : Nonce} {ref : NonceRef}

/-- The slot of a payment that was taken came through the camera. -/
theorem nonceRef_of_taken (htaken : Taken shop sales payment tier amount)
    (href : payment.input.nonceRef = some ref) : ref.index ≤ 255 ∧ ref.value.bytes.length = 32 := by
  rcases htaken with ⟨_, _, _, intent, _, _, _, _, _, hanswered⟩
  rcases hanswered.verified with ⟨bytes, auth, _, hdecode, hverified⟩
  have hinput := (verifyAuth_ok hverified).2.2.2.2.2.1
  rw [hinput] at href
  rcases decodeAuth_eq_ok.mp hdecode with ⟨flags, _, hencodable, _⟩
  exact hencodable.nonceRef_le ref href

/-- The recovery code of a settled payment is shown. -/
theorem shown_return (hscreen : till.vars.screen = .settled payment amount signature (some value))
    (href : payment.input.nonceRef = some ref) {message bytes : List UInt8}
    (hmessage : nonceReturnSigningBytes ⟨payment.input.payer, ref.index, ref.value, value⟩
      = .ok message)
    (hencode : encodeNonceReturn ⟨ref.index, value,
      (network'.sign shop.keyPair message till.world.net).1⟩ = .ok bytes) :
    (MerchantApp.tillTap shop network' (.tap .showNonceReturn) till).2.vars.screen
      = .nonceReturn bytes := by
  have hprocess : TillAction.process shop till.vars.screen (.tap .showNonceReturn)
      = MerchantApp.showNonceReturn shop payment value := by
    rw [hscreen]
    simp only [TillAction.process, MerchantApp.Screen.offers, href, Option.isSome_some, and_self,
      decide_true, if_true]
    rfl
  simp only [MerchantApp.tillTap, hprocess, MerchantApp.showNonceReturn, href]
  change MerchantApp.TillVars.screen (run _ (Async.Process.tryCatch _ _) _ _).vars = _
  rw [run_tryCatch, run_bind, signNonceReturn, hmessage, run_bind_ok _ (run_ofResult _ _ _ _),
    run_sign]
  dsimp only
  rw [run_bind, run_ofResult, hencode]
  rfl

/-- Once a payment has settled, in any run of a till, its recovery code can be shown,
    and any device of the payer that has the payment on record, as one to this till,
    re-arms its slot with the value the chain has now when it scans the code, and does
    not call the network for it. -/
theorem return_trip (hfresh : till.Fresh) (actions : List TillAction)
    (ed25519 : Ed25519 app.pool.kit network')
    (hsettled : (tillFinal network' shop till actions).vars.screen
      = .settled payment amount signature (some value))
    (href : payment.input.nonceRef = some ref) (hwidth : value.bytes.length = 32)
    {device : Device ρ} {purpose : ScanPurpose} {state : PoolState} {net : ρ} {slot : PoolSlot}
    {record : SpentRecord} (hscanning : device.vars.screen = .scanning purpose)
    (hpayer : payment.input.payer = app.pool.payer)
    (hfinds : Finds network app.pool device.vars.pool device.world state net)
    (hfound : state.slots.find? (fun candidate => candidate.index = ref.index) = some slot)
    (hspent : slot.state = .spent) (hagainst : slot.spentAgainst = some record)
    (hvalue : record.value = ref.value) (hmerchant : record.merchant = shop.keyPair.publicKey)
    (hmoved : value ≠ ref.value) :
    Taken shop (tillHistory network' shop till actions) payment .t0 amount ∧
      ∃ bytes payload,
        (tillFinal network' shop till (actions ++ [.tap .showNonceReturn])).vars.screen
          = .nonceReturn bytes ∧
        payload.nonceIndex = ref.index ∧ payload.newNonceValue = value ∧
        (deviceTap app network (.tap (.scanned (.ok bytes))) device).2.vars.pool
          = some (returnedTo state slot payload) ∧
        ∀ entry ∈ requests (reply network) (DeviceAction.process app device.vars.screen
          (.tap (.scanned (.ok bytes)))) device.vars device.world, Offline entry.1 := by
  have htaken : Taken shop (tillHistory network' shop till actions) payment .t0 amount := by
    have hscreen := (MerchantApp.provenance_run network' shop hfresh actions).1.screen
    rwa [hsettled] at hscreen
  refine ⟨htaken, ?_⟩
  rcases nonceRef_of_taken htaken href with ⟨hindex, hprior⟩
  -- The statement can be made and encoded, since the payment was decoded itself.
  rcases show ∃ message, nonceReturnSigningBytes
      ⟨payment.input.payer, ref.index, ref.value, value⟩ = .ok message from
    ⟨_, signingBytes_eq_ok.mpr ⟨hindex, hprior, hwidth, rfl⟩⟩ with ⟨message, hmessage⟩
  have hlength := ed25519.length_sign shop.keyPair message
    (tillFinal network' shop till actions).world.net
  rcases show ∃ bytes, encodeNonceReturn ⟨ref.index, value, (network'.sign shop.keyPair message
      (tillFinal network' shop till actions).world.net).1⟩ = .ok bytes from
    ⟨_, encodeNonceReturn_eq_ok.mpr ⟨⟨hindex, hwidth, hlength⟩, rfl⟩⟩ with ⟨bytes, hencode⟩
  -- What the payer has on record of the slot is what the till signs for.
  have hnames : ∀ signed, Names state ⟨ref.index, value, signed⟩ slot record := fun _ =>
    ⟨hfound, hspent, hagainst, hvalue ▸ hmoved⟩
  have hreturned := returned_of_names hfinds (hnames _) hlength
    (by rw [← hpayer, hvalue]; exact hmessage) (by rw [hmerchant]; exact ed25519.verify_sign _ _ _)
  refine ⟨bytes, _, ?_, rfl, rfl, (scanned_return hscanning
    (decodeNonceReturn_eq_ok.mpr (encodeNonceReturn_eq_ok.mp hencode))).1.trans hreturned.1,
    fun entry hentry => ?_⟩
  · rw [tillFinal, Async.final_append]
    exact shown_return hsettled href hmessage hencode
  · rw [hscanning] at hentry
    exact asks_requests (reply network) (asks_scanned purpose bytes) hentry

/-- A till on a chain where the payment settles, and the slot has moved on. -/
def settlingTill : Till FakeRpc :=
  ⟨MerchantApp.testTill.vars, ∅,
    { mints := [(testAddress 4, ⟨plainMint, 0⟩)],
      nonceAccounts := [testAccount 0 (testNonce 9)] }⟩

/-- The device that has paid, with the camera open to scan a recovery code. -/
def paidDevice : Device (Bool × Nat) :=
  tapFinal slowSetup PayerApp.testApp PayerApp.testDevice
    (PayerApp.payingRun ++ [.tap .home, .tap (.scan .recovery)])

def paidSlot : PoolSlot :=
  ⟨0, (testAccount 0 (testNonce 7)).1, some (testNonce 7), .spent,
    some ⟨testNonce 7, testAddress 2, 25920000⟩, none⟩

def paidState : PoolState := paidDevice.vars.pool.getD settledState

theorem return_trip_sale :
    Taken MerchantApp.testTillConfig (tillHistory fakeNetwork MerchantApp.testTillConfig
        settlingTill (MerchantApp.sale .t0)) (testPayment 0) .t0 10 ∧
      ∃ bytes payload,
        (tillFinal fakeNetwork MerchantApp.testTillConfig settlingTill
          (MerchantApp.sale .t0 ++ [.tap .showNonceReturn])).vars.screen = .nonceReturn bytes ∧
        payload.nonceIndex = 0 ∧ payload.newNonceValue = testNonce 9 ∧
        (deviceTap PayerApp.testApp slowSetup (.tap (.scanned (.ok bytes))) paidDevice).2.vars.pool
          = some (returnedTo paidState paidSlot payload) ∧
        ∀ entry ∈ requests (reply slowSetup) (DeviceAction.process PayerApp.testApp
          paidDevice.vars.screen (.tap (.scanned (.ok bytes)))) paidDevice.vars paidDevice.world,
          Offline entry.1 := by
  have hsettled : (tillFinal fakeNetwork MerchantApp.testTillConfig settlingTill
      (MerchantApp.sale .t0)).vars.screen = .settled (testPayment 0) 10 (List.replicate 64 1)
        (some (testNonce 9)) := by
    decide +kernel
  have hscanning : paidDevice.vars.screen = .scanning .recovery := by
    decide +kernel
  have hledger : paidDevice.vars.pool = some paidState := by
    decide +kernel
  have hfound : paidState.slots.find? (fun candidate => candidate.index = 0)
      = some paidSlot := by
    decide +kernel
  exact return_trip ⟨rfl, rfl, fun _ => rfl⟩ (MerchantApp.sale .t0)
    ⟨ed25519_strictKit.length_sign, ed25519_strictKit.verify_sign⟩ hsettled rfl rfl hscanning rfl
    (.inl ⟨hledger, rfl⟩) hfound rfl rfl rfl rfl (by decide)

end Shown

section Rearmed

variable {network : Network ρ} {app : DeviceConfig} {device : Device ρ} {network' : Network ρ'}
  {shop : TillConfig} {till : Till ρ'} {held : Set Signature} {payload : NonceReturnPayload}
  {bytes : List UInt8}

/-- A statement that verifies under the key of a till is about a payment of tier T0
    that the till has taken. -/
theorem taken_of_statement (hfresh : till.Fresh) (actions : List TillAction)
    (hversion : VersionZero shop.queue.kit)
    (hheld : Holds shop.queue.kit held shop.keyPair.publicKey
      (TillSigned network' shop (tillHistory network' shop till actions)))
    {statement : NonceReturnStatement} (hbytes : nonceReturnSigningBytes statement = .ok bytes)
    {signature : Signature} (hsignature : signature ∈ held)
    (hverify : shop.queue.kit.verifySignature shop.keyPair.publicKey signature bytes = .ok true) :
    ∃ payment amount, Taken shop (tillHistory network' shop till actions) payment .t0 amount ∧
      payment.input.payer = statement.payer ∧
      payment.input.nonceRef = some ⟨statement.nonceIndex, statement.spentAgainstValue⟩ := by
  rcases hheld signature hsignature bytes hverify with ⟨e, he, w, hsigned⟩
  rcases (MerchantApp.till_signs network' shop hfresh actions he hsigned).2 with
    ⟨payment, tier, amount, htaken, hmessage | ⟨rfl, ref, _, value, href, _, hstated⟩⟩
  · rcases htaken.sold with ⟨_, _, _, hbuild, _⟩
    rw [← hmessage] at hbuild
    exact absurd hbuild (signingBytes_ne_message hversion hbytes)
  · cases signingBytes_inj hbytes hstated
    exact ⟨payment, amount, htaken, rfl, href⟩

/-- A recovery code, whoever shows it and whenever it is scanned, changes nothing, or
    re-arms a slot that was spent. If that slot was spent on a payment to a till, the
    till has taken a payment of tier T0 from the value it was spent against, and the
    payer had agreed to that payment. -/
theorem rearmed_by_sale (hstart : device.vars.screen = .waiting) (actions : List DeviceAction)
    (hfresh : till.Fresh) (actions' : List TillAction) (hkit : shop.queue.kit = app.pool.kit)
    (hpayer : app.keyPair.publicKey = app.pool.payer) (faithful : Faithful app.pool.kit)
    (hversion : VersionZero app.pool.kit) (hslots : SlotsApart app.pool.kit app.pool.payer)
    (hheld : Holds app.pool.kit held app.keyPair.publicKey
      (PayerSigned network app (tapHistory network app device actions)))
    (hheld' : Holds app.pool.kit held shop.keyPair.publicKey
      (TillSigned network' shop (tillHistory network' shop till actions')))
    (htakes : ∀ payment tier amount,
      Taken shop (tillHistory network' shop till actions') payment tier amount →
        payment.auth.signature ∈ held)
    {e : TapEvent ρ} (he : e ∈ tapHistory network app device actions) {purpose : ScanPurpose}
    (hscreen : e.before.vars.screen = .scanning purpose)
    (hop : e.op = .tap (.scanned (.ok bytes))) (hdecode : decodeNonceReturn bytes = .ok payload)
    (hsignature : payload.signature ∈ held) {state : PoolState} {net : ρ}
    (hfinds : Finds network app.pool e.before.vars.pool e.before.world state net) :
    e.after.vars.pool = some state ∨
      ∃ slot record, Names state payload slot record ∧
        e.after.vars.pool = some (returnedTo state slot payload) ∧
        (record.merchant = shop.keyPair.publicKey → ∃ payment intent amount,
          Taken shop (tillHistory network' shop till actions') payment .t0 amount ∧
          Agreed network app (tapHistory network app device actions) intent amount
            ⟨payload.nonceIndex, record.value⟩ payment.messageBytes ∧
          termsOf payment.input
            = termsOf (paymentWith app intent amount ⟨payload.nonceIndex, record.value⟩)) := by
  have heq : e = eventAt (deviceTap app network) e.op e.before := Async.eventAt_of_mem _ he
  have hpool : e.after.vars.pool = (run (reply network) (Pool.applyNonceReturn app.pool payload)
      e.before.vars.pool e.before.world).vars := by
    rw [show e.after = _ from congrArg Async.Event.after heq, hop]
    exact (scanned_return hscreen hdecode).1
  rcases run_applyNonceReturn hfinds payload with
    ⟨slot, record, statement, hnames, hbytes, hverify, hreturned⟩ | hrefused
  · refine .inr ⟨slot, record, hnames, hpool.trans hreturned.1, fun hmerchant => ?_⟩
    rw [hmerchant] at hverify
    rcases taken_of_statement hfresh actions' (hkit ▸ hversion) (hkit ▸ hheld') hbytes hsignature
      (hkit ▸ hverify) with ⟨payment, amount, htaken, hpaid, href⟩
    have hown := hpaid.trans hpayer.symm
    rcases agreed_of_taken hstart hkit faithful hheld htaken hown (htakes _ _ _ htaken) with
      ⟨intent, r, hagreed, hbuild, hterms⟩
    have htook := htaken.sold.2.2.2.1
    rw [hkit] at htook
    -- The slot that was agreed on is the one in the merchant's message.
    have hslot := nonceRef_eq faithful hpaid.symm hslots hbuild htook
    rw [href] at hslot
    cases r
    cases hslot
    exact ⟨payment, intent, amount, htaken, hagreed, hterms.symm⟩
  · exact .inl (hpool.trans hrefused.2.1)

/-- The recovery code of the trade. -/
def tradeReturn : List UInt8 := nonceReturnBytes settledReturn

/-- The payer's side of the trade, up to the scan of the recovery code. -/
def rearmingRun : List DeviceAction :=
  PayerApp.payingRun ++ [.tap .home, .tap (.scan .recovery)]

def rearmingDevice : Device (Bool × Nat) :=
  tapFinal slowSetup tradeApp PayerApp.testDevice rearmingRun

def rearmingState : PoolState := rearmingDevice.vars.pool.getD settledState

/-- Scanning the recovery code. -/
def rearmingScan : TapEvent (Bool × Nat) :=
  eventAt (deviceTap tradeApp slowSetup) (.tap (.scanned (.ok tradeReturn))) rearmingDevice

def rearmingEvents : List (TapEvent (Bool × Nat)) :=
  tapHistory slowSetup tradeApp PayerApp.testDevice
    (rearmingRun ++ [.tap (.scanned (.ok tradeReturn))])

/-- The till of the trade, on a chain where the slot has moved on. -/
def tradeTill : Till FakeRpc :=
  ⟨MerchantApp.testTill.vars, ∅,
    { mints := [(testAddress 4, ⟨plainMint, 0⟩)],
      nonceAccounts := [(tradeAccount ("vadum-" ++ toString 0),
        .initialized (testAddress 1) (testNonce 9) 1056640)] }⟩

/-- The merchant's side of the trade, with the recovery code. -/
def tradeSales : List (TillEvent FakeRpc) :=
  tillHistory fakeNetwork tradeShop tradeTill
    (MerchantApp.saleOf tradePayment .t0 ++ [.tap .showNonceReturn])

theorem holds_rearmingEvents :
    Holds tradeKit Set.univ (testAddress 1) (PayerSigned slowSetup tradeApp rearmingEvents) := by
  intro signature _ message hverify
  rcases (of_decide_eq_true (Except.ok.inj hverify)).2 with ⟨_, rfl⟩ | ⟨hkey, _⟩
  · exact signed_of_any (by decide +kernel)
  · exact absurd hkey (by decide)

theorem holds_tradeSales :
    Holds tradeKit Set.univ (testAddress 2) (TillSigned fakeNetwork tradeShop tradeSales) := by
  intro signature _ message hverify
  rcases (of_decide_eq_true (Except.ok.inj hverify)).2 with ⟨hkey, _⟩ | ⟨_, rfl | rfl⟩
  · exact absurd hkey (by decide)
  · exact signed_of_any (by decide +kernel)
  · exact signed_of_any (by decide +kernel)

theorem rearmed_by_sale_trade :
    ∃ payment intent amount, Taken tradeShop tradeSales payment .t0 amount ∧
      Agreed slowSetup tradeApp rearmingEvents intent amount ⟨0, testNonce 7⟩
        payment.messageBytes ∧
      termsOf payment.input = termsOf (paymentWith tradeApp intent amount ⟨0, testNonce 7⟩) := by
  have hversion : VersionZero tradeKit := fun message bytes h => by
    rw [(compiled_tradeKit h).2]
    rfl
  have hledger : rearmingScan.before.vars.pool = some rearmingState := by
    decide +kernel
  have hscreen : rearmingScan.before.vars.screen = .scanning .recovery := by
    decide +kernel
  have hslot : rearmingState.slots.find? (fun candidate => candidate.index = 0)
      = some { paidSlot with address := tradeAccount ("vadum-" ++ toString 0) } := by
    decide +kernel
  have hscan : rearmingScan ∈ rearmingEvents := by
    rw [rearmingEvents, tapHistory, Async.history_append]
    exact List.mem_append_right _ List.mem_cons_self
  rcases @rearmed_by_sale _ _ slowSetup tradeApp PayerApp.testDevice fakeNetwork tradeShop tradeTill
    Set.univ settledReturn tradeReturn rfl _ ⟨rfl, rfl, fun _ => rfl⟩ _ rfl rfl faithful_tradeKit
    hversion (slotsApart_tradeKit _) holds_rearmingEvents holds_tradeSales
    (fun _ _ _ _ => Set.mem_univ _) rearmingScan hscan _ hscreen rfl
    (decodeNonceReturn_eq_ok.mpr ⟨⟨by decide, rfl, by decide⟩, rfl⟩) (Set.mem_univ _) _ _
    (.inl ⟨hledger, rfl⟩) with hsame | ⟨slot, record, hnames, _, hsold⟩
  · exact absurd hsame (by decide +kernel)
  · cases Option.some.inj (hnames.found.symm.trans hslot)
    cases hnames.against
    exact hsold rfl

end Rearmed

end Vadum
