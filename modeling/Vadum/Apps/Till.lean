import Vadum.Apps.Format
import Vadum.Apps.Merchant
import Vadum.Apps.Payer
import Vadum.Async.Zoom
import Vadum.Core.NonceReturn

/-!
# The Merchant's Till

The screens of the merchant app, as `Apps.Device` has those of the payer's. A
sale starts with a request on the screen, or with a printed one and a price. The
answer is scanned, verified, and accepted in the tier the till is set to; and
once a payment has settled, the till can show the payer a recovery code.

The settings are in the store under a key of their own. Nothing else is read or
written there, so what storage answers to an access of the settings comes with
the tap that makes it.

## Main definitions

* `Settings`, `Screen`, `Tap`, `Screen.offers`: The screens and their buttons.
* `TillVars`, `TillM`: The variables of the app, and its code.
* `home`, `showIntent`, `showStatic`, `scanAuth`: Up to the scan of an answer.
* `accept`, `settlementScreen`, `showNonceReturn`: From the scan to its end.
* `queueScreen`, `sendEverything`: The queue.
* `boot`: The start of the app.
* `Till`, `tillTap`: What happens to a till.
-/

namespace Vadum.MerchantApp

open Async (Lens)
open Async.Process (read write ofResult zoom run)
open PayerApp (mintMap unexpectedType)

structure Settings where
  mint : Option Address
  tier : PaymentTier
  /-- Pay the rent of the merchant's token account inside the payment, once. -/
  includeCreateAta : Bool
deriving DecidableEq

def defaultSettings : Settings := ⟨none, .t0, true⟩

inductive Screen where
  /-- A screen without buttons, while something is under way. -/
  | waiting
  | notStarted
  /-- The till runs in a browser tab. -/
  | notInstalled
  | chooseMint
  | incompatible (record : MintRecord)
  | settings
  /-- The keypad. -/
  | home (mint : MintRecord)
  /-- A request for the amount. -/
  | intent (intent : Intent) (bytes : List UInt8) (amount : Int)
  /-- The printed request of the till. -/
  | static (intent : Intent) (bytes : List UInt8)
  /-- The price of a sale for a printed request. -/
  | expected (intent : Intent) (bytes : List UInt8)
  | scanning (intent : Intent) (bytes : List UInt8) (expectedAmount : Int)
  | settled (payment : VerifiedPayment) (amount : Int) (signature : Signature)
      (newNonceValue : Option Nonce)
  /-- What the code means is explained. -/
  | copy (code : VadumErrorCode)
  | handedOver (queued : QueuedPayment)
  | nonceReturn (bytes : List UInt8)
  | queue (payments : List QueuedPayment)
  | sent (outcomes : List SubmitOutcome)
  | failed
deriving DecidableEq

inductive Tap where
  | home
  | chooseMint
  /-- With the address that was typed, and what storage answers to the settings. -/
  | checkToken (mint : Address) (stored : Except Thrown Unit)
  | settings
  | useTier (tier : PaymentTier) (stored : Except Thrown Unit)
  | toggleCreateAta (stored : Except Thrown Unit)
  /-- With the amount that was typed. -/
  | showIntent (typed : JsString)
  | showStatic
  | enterExpected
  /-- With the price that was typed, for a printed request. -/
  | scan (typed : JsString)
  /-- The camera has read a code, or failed. -/
  | scanned (result : Except Thrown (List UInt8))
  | showNonceReturn
  | queue
  | send

/-- What can be tapped on a screen. -/
def Screen.offers : Screen → Tap → Bool
  | .notInstalled, .home => true
  | .chooseMint, .checkToken _ _ => true
  | .chooseMint, .home => true
  | .incompatible _, .home => true
  | .settings, .chooseMint => true
  | .settings, .useTier _ _ => true
  | .settings, .toggleCreateAta _ => true
  | .settings, .home => true
  | .home _, .showIntent _ => true
  | .home _, .showStatic => true
  | .home _, .queue => true
  | .home _, .settings => true
  | .intent _ _ _, .scan _ => true
  | .intent _ _ _, .home => true
  | .static _ _, .enterExpected => true
  | .static _ _, .home => true
  | .expected _ _, .scan _ => true
  | .expected _ _, .home => true
  | .scanning _ _ _, .scanned _ => true
  | .scanning _ _ _, .home => true
  | .settled payment _ _ newNonceValue, .showNonceReturn =>
    payment.input.nonceRef.isSome ∧ newNonceValue.isSome
  | .settled _ _ _ _, .home => true
  | .copy _, .home => true
  | .handedOver _, .home => true
  | .handedOver _, .queue => true
  | .nonceReturn _, .home => true
  | .queue payments, .send => payments.any fun payment => payment.state.retried
  | .queue _, .home => true
  | .sent _, .queue => true
  | .failed, .home => true
  | _, _ => false

structure TillVars where
  settings : Settings
  queue : QueueVars
  mints : MintRecords
  screen : Screen

/-- The app's code. -/
abbrev TillM (α : Type) : Type := Client TillVars α

def queuePart : Lens TillVars QueueVars where
  get := TillVars.queue
  set := fun queue vars => { vars with queue }
  get_set := fun _ _ => rfl
  set_get := fun _ => rfl
  set_set := fun _ _ _ => rfl

def mintsPart : Lens TillVars MintRecords where
  get := TillVars.mints
  set := fun mints vars => { vars with mints }
  get_set := fun _ _ => rfl
  set_get := fun _ => rfl
  set_set := fun _ _ _ => rfl

/-- The identity of the till, and its queue. -/
structure TillConfig where
  queue : QueueConfig
  keyPair : CryptoKeyPair

def render (screen : Screen) : TillM Unit := do
  let vars ← read
  write { vars with screen }

/-- Our own errors are explained, and of the others it is said that they are. -/
def failed : Thrown → TillM Unit
  | .vadum error => render (.copy error.code)
  | .error _ _ _ => render .failed

/-- The settings change at once, and are written after. -/
def saveSettings (settings : Settings) (stored : Except Thrown Unit) : TillM Unit := do
  let vars ← read
  write { vars with settings }
  ofResult stored

def currentMint (vars : TillVars) : Option MintRecord :=
  vars.settings.mint.bind (MintCache.get vars.mints)

variable (app : TillConfig)

/-- Without a token there is nothing to sell for. -/
def home : TillM Unit := do
  let vars ← read
  match currentMint vars with
  | none => render .chooseMint
  | some mint => render (.home mint)

def checkToken (mint : Address) (stored : Except Thrown Unit) : TillM Unit :=
  tryCatch (do
    let record ← zoom mintsPart (MintCache.refresh mint)
    if ¬ record.compatible then
      render (.incompatible record)
    else
      let vars ← read
      saveSettings { vars.settings with mint := some record.mint } stored
      home) failed

def useTier (tier : PaymentTier) (stored : Except Thrown Unit) : TillM Unit := do
  let vars ← read
  saveSettings { vars.settings with tier } stored
  render .settings

def toggleCreateAta (stored : Except Thrown Unit) : TillM Unit := do
  let vars ← read
  saveSettings { vars.settings with includeCreateAta := ¬ vars.settings.includeCreateAta } stored
  render .settings

def intentFor (settings : Settings) (mint : MintRecord) (amount : Option Int) : Intent where
  merchant := app.keyPair.publicKey
  mint := mint.mint
  decimals := mint.decimals
  amount := amount
  lifetime := .nonce
  includeCreateAta := settings.includeCreateAta
  tokenProgram := mint.tokenProgram
  feePayer := app.keyPair.publicKey
  isStatic := amount.isNone

/-- The cap is enforced before there is a payment the till could not accept. What
    cannot be read or is above it leaves the keypad as it is. -/
def showIntent (mint : MintRecord) (typed : JsString) : TillM Unit := do
  let vars ← read
  match parseAmount typed mint.decimals.toNat with
  | none => pure ()
  | some amount =>
    if amount = 0 ∨ amount > defaultQueueLimits.receiptCapByTier vars.settings.tier then
      pure ()
    else
      let intent := intentFor app vars.settings mint (some amount)
      let bytes ← ofResult (encodeIntent intent)
      render (.intent intent bytes amount)

def showStatic (mint : MintRecord) : TillM Unit := do
  let vars ← read
  let intent := intentFor app vars.settings mint none
  let bytes ← ofResult (encodeStaticIntent intent)
  render (.static intent bytes)

/-- The price comes before the scan. -/
def priceEntered (intent : Intent) (bytes : List UInt8) (typed : JsString) : TillM Unit :=
  match parseAmount typed intent.decimals.toNat with
  | none => pure ()
  | some amount => if amount = 0 then pure () else render (.scanning intent bytes amount)

def settlementScreen (payment : VerifiedPayment) (amount : Int) :
    Option SubmitOutcome → TillM Unit
  | none => home
  | some (.failed code _ _) => render (.copy code)
  | some (.settled signature newNonceValue) =>
    render (.settled payment amount signature newNonceValue)

def acceptScanned (payment : VerifiedPayment) (amount : Int) : TillM Unit := do
  let vars ← read
  let tier := vars.settings.tier
  tryCatch (do
    if tier ≠ .t2 then
      render .waiting
    match ← zoom queuePart (MerchantApp.accept app.queue app.keyPair tier payment amount) with
    | .settlement outcome => settlementScreen payment amount outcome
    | .handedOver queued => render (.handedOver queued)) failed

/-- The answer is verified against a message that is built here. -/
def scanAuth (intent : Intent) (intentBytes : List UInt8) (expectedAmount : Int)
    (result : Except Thrown (List UInt8)) : TillM Unit :=
  tryCatch (do
    let bytes ← ofResult result
    let type ← ofResult (peekPayloadType bytes)
    if type ≠ .auth then
      throw (unexpectedType .auth type)
    let vars ← read
    let auth ← ofResult (decodeAuth bytes
      ⟨mintMap vars.mints, some (flagsFromByte (intentBytes.getD 2 0))⟩)
    let payment ← ofResult (verifyAuth app.queue.kit intent auth (some expectedAmount))
    acceptScanned app payment expectedAmount) failed

/-- What the payer scans to get the slot back. -/
def showNonceReturn (payment : VerifiedPayment) (newNonceValue : Nonce) : TillM Unit :=
  match payment.input.nonceRef with
  | none => home
  | some nonceRef =>
    tryCatch (do
      let signature ← signNonceReturn
        { payer := payment.input.payer
          nonceIndex := nonceRef.index
          spentAgainstValue := nonceRef.value
          newNonceValue } app.keyPair
      let bytes ← ofResult (encodeNonceReturn
        { nonceIndex := nonceRef.index, newNonceValue, signature })
      render (.nonceReturn bytes)) failed

/-- The queue is listed as it was before anything in it expires. -/
def queueScreen : TillM Unit := do
  let vars ← read
  let payments := Queue.ordered app.queue vars.queue
  let now ← dateNow
  let _ ← zoom queuePart (Queue.expire app.queue now)
  render (.queue payments)

def sendEverything : TillM Unit := do
  render .waiting
  tryCatch (do
    let outcomes ← zoom queuePart (Queue.drain app.queue app.keyPair)
    render (.sent outcomes)) failed

/-- The code behind a button. What it needs of its screen comes with it. -/
def Tap.handler (screen : Screen) : Tap → TillM Unit
  | .home => MerchantApp.home
  | .chooseMint => render .chooseMint
  | .checkToken mint stored => MerchantApp.checkToken mint stored
  | .settings => render .settings
  | .useTier tier stored => MerchantApp.useTier tier stored
  | .toggleCreateAta stored => MerchantApp.toggleCreateAta stored
  | .showIntent typed => match screen with
    | .home mint => MerchantApp.showIntent app mint typed
    | _ => pure ()
  | .showStatic => match screen with
    | .home mint => MerchantApp.showStatic app mint
    | _ => pure ()
  | .enterExpected => match screen with
    | .static intent bytes => render (.expected intent bytes)
    | _ => pure ()
  | .scan typed => match screen with
    | .intent intent bytes amount => render (.scanning intent bytes amount)
    | .expected intent bytes => priceEntered intent bytes typed
    | _ => pure ()
  | .scanned result => match screen with
    | .scanning intent bytes expectedAmount => scanAuth app intent bytes expectedAmount result
    | _ => pure ()
  | .showNonceReturn => match screen with
    | .settled payment _ _ (some newNonceValue) =>
      MerchantApp.showNonceReturn app payment newNonceValue
    | _ => pure ()
  | .queue => queueScreen app
  | .send => sendEverything app

/-- The start of the app, with the settings that storage has, if it has them. -/
def boot (standalone : Bool) (stored : Except Thrown (Option Settings)) : TillM Unit := do
  write ⟨defaultSettings, QueueVars.empty, [], .waiting⟩
  tryCatch (do
    let _ ← zoom mintsPart MintCache.load
    let _ ← zoom queuePart (Queue.load app.queue)
    let settings ← ofResult stored
    let vars ← read
    write { vars with settings := settings.getD defaultSettings }
    if ¬ standalone then render .notInstalled
    else MerchantApp.home) fun _ => render .notStarted

/-- A till and the world it is in. -/
structure Till (ρ : Type) where
  vars : TillVars
  world : World ρ

inductive TillAction where
  | tap (tap : Tap)
  /-- The app is closed, and opened again. -/
  | reopen (standalone : Bool) (stored : Except Thrown (Option Settings))
  /-- Storage loses what is kept under some keys. -/
  | lose (keys : List StoreKey)
  /-- Time passes. -/
  | wait

def TillAction.process (screen : Screen) : TillAction → TillM Unit
  | .tap t => if screen.offers t then t.handler app screen else pure ()
  | .reopen standalone stored => boot app standalone stored
  | .lose _ => pure ()
  | .wait => tick

variable {ρ : Type}

/-- What an action makes of a till. An exception that no code catches ends the tap,
    and leaves the screen as it is. -/
def tillTap (network : Network ρ) (action : TillAction) (till : Till ρ) : Unit × Till ρ :=
  let outcome := run (reply network) (action.process app till.vars.screen) till.vars till.world
  let world := match action with
    | .lose keys =>
      { outcome.world with store := keys.foldl (fun store k => store.erase k) outcome.world.store }
    | _ => outcome.world
  ((), ⟨outcome.vars, world⟩)

end Vadum.MerchantApp
