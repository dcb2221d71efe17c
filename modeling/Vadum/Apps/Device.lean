import Vadum.Apps.Format
import Vadum.Apps.Gate
import Vadum.Apps.Payer
import Vadum.Async.Zoom

/-!
# The Payer's Device

The screens of the payer app, and what leads from one to the next. Every screen
shows some buttons and no others. A tap runs the code behind its button, which
ends by showing another screen; a tap is handled before the next one comes.

The device keeps the marker of its ledger's epoch apart from the store. Both
outlive the app, and either can be lost. The app can be closed and opened again
at any time, and then starts from what is left.

What a screen says is left out, but for the data it is given. A code that is
shown is its bytes.

## Main definitions

* `Screen`, `Tap`, `Screen.offers`: The screens and their buttons.
* `DeviceVars`, `DeviceM`: The variables of the app, and its code.
* `restore`, `createPoolNow`, `onboarding`, `tokens`, `closePool`, `home`: The
  code behind the buttons.
* `routeScanned`, `enterAmount`, `openConfirm`, `signNow`: From a scan to a code.
* `boot`: The start of the app.
* `Device`, `deviceTap`: What happens to a device.
-/

namespace Vadum.PayerApp

open Async (Lens)
open Async.Process (read write ofResult zoom run)

inductive Screen where
  /-- A screen without buttons, while something is under way. -/
  | waiting
  | notStarted
  | blocked (reason : SigningBlock)
  | onboarding (cost : SetupCost)
  | home (status : PoolStatus) (tokenCount : Nat)
  | tokens (checked : List MintRecord)
  | incompatible (record : MintRecord)
  /-- The slots that were found on chain. -/
  | recovered (status : PoolStatus)
  | closed (refundedLamports : Int)
  | scanning (purpose : ScanPurpose)
  /-- A slot is available again. -/
  | restored (status : PoolStatus)
  | enterAmount (intent : Intent)
  | abovePayerCap (intent : Intent) (amount : Int)
  | overAllowance (intent : Intent) (amount : Int) (allowance : SpendAllowance)
  | confirm (intent : Intent) (amount : Int) (warning : ConfirmWarning)
  /-- The code for the merchant. -/
  | code (payload : List UInt8) (intent : Intent) (amount : Int)
  /-- Something failed. It may be that checking a token would help. -/
  | failed (offersTokens : Bool)
deriving DecidableEq

inductive Tap where
  | restore
  | create
  | onboarding
  | home
  | tokens
  | checkToken (mint : Address)
  | close
  | scan (purpose : ScanPurpose)
  /-- The camera has read a code, or failed. -/
  | scanned (result : Except Thrown (List UInt8))
  /-- With the amount that was typed. -/
  | continue' (typed : JsString)
  /-- With the amount that was typed again, where that is asked for. -/
  | sign (retyped : JsString)

/-- What can be tapped on a screen. -/
def Screen.offers : Screen → Tap → Bool
  | .blocked .ledgerMissing, .restore => true
  | .onboarding _, .create => true
  | .home status tokenCount, .scan .payment => status.unspentCount ≠ 0 ∧ tokenCount ≠ 0
  | .home _ _, .scan .recovery => true
  | .home _ _, .tokens => true
  -- Every slot unknown means that the pool was closed or recovered.
  | .home status _, .onboarding => status.slots.all fun slot => slot.state = .unknown
  | .home _ _, .restore => true
  | .home _ _, .close => true
  | .tokens _, .checkToken _ => true
  | .tokens _, .home => true
  | .incompatible _, .tokens => true
  | .recovered _, .close => true
  | .closed _, .home => true
  | .scanning _, .scanned _ => true
  | .scanning _, .home => true
  | .restored _, .home => true
  | .enterAmount _, .continue' _ => true
  | .enterAmount _, .home => true
  | .abovePayerCap _ _, .home => true
  | .overAllowance _ _ _, .home => true
  | .confirm _ _ _, .sign _ => true
  | .confirm _ _ _, .home => true
  | .code _ _ _, .home => true
  | .failed _, .home => true
  | .failed offersTokens, .tokens => offersTokens
  | _, _ => false

/-- The variables of the app. The marker is in storage, and read and written
    without waiting. -/
structure DeviceVars where
  standalone : Bool
  epochMarker : Option String
  pool : Option PoolState
  mints : MintRecords
  screen : Screen

/-- The app's code. -/
abbrev DeviceM (α : Type) : Type := Client DeviceVars α

def poolPart : Lens DeviceVars (Option PoolState) where
  get := DeviceVars.pool
  set := fun pool vars => { vars with pool }
  get_set := fun _ _ => rfl
  set_get := fun _ => rfl
  set_set := fun _ _ _ => rfl

def mintsPart : Lens DeviceVars MintRecords where
  get := DeviceVars.mints
  set := fun mints vars => { vars with mints }
  get_set := fun _ _ => rfl
  set_get := fun _ => rfl
  set_set := fun _ _ _ => rfl

/-- The identity of the device, and the pool of its payer. -/
structure DeviceConfig where
  pool : PoolConfig
  keyPair : CryptoKeyPair

def poolSize : Int := 5

def render (screen : Screen) : DeviceM Unit := do
  let vars ← read
  write { vars with screen }

def writeEpochMarker (epoch : String) : DeviceM Unit := do
  let vars ← read
  write { vars with epochMarker := some epoch }

/-- The codes for which the failure screen leads to the tokens. -/
def fixedByCheckingAToken : List VadumErrorCode :=
  [.mintUnknown, .mintDecimalsMismatch, .mintTokenProgramMismatch]

/-- The code of one of our own errors. -/
def codeOf : Thrown → Option VadumErrorCode
  | .vadum error => some error.code
  | .error _ _ _ => none

def failed (error : Thrown) : DeviceM Unit :=
  render (.failed ((codeOf error).any (· ∈ fixedByCheckingAToken)))

variable (app : DeviceConfig)

def home : DeviceM Unit := do
  let status ← zoom poolPart (Pool.load app.pool)
  let vars ← read
  render (.home status (MintCache.entries vars.mints).length)

/-- The ledger is gone, so the slots are looked for on chain. -/
def recoverFromChain : DeviceM Unit := do
  render .waiting
  tryCatch (do
    let status ← zoom poolPart (Pool.recover app.pool defaultRecoverProbe)
    writeEpochMarker status.epoch
    render (.recovered status)) failed

def restore : DeviceM Unit := do
  render .waiting
  tryCatch (do
    let status ← zoom poolPart (Pool.refresh app.pool)
    let now ← dateNow
    let _ ← zoom poolPart (Pool.reconcile app.pool now)
    writeEpochMarker status.epoch
    home app) fun error =>
      if codeOf error = some .nonceLedgerMissing then recoverFromChain app else failed error

def onboarding : DeviceM Unit := do
  render .waiting
  tryCatch (do
    let cost ← zoom poolPart (Pool.estimateSetupCost poolSize)
    render (.onboarding cost)) failed

def tokens : DeviceM Unit := do
  let vars ← read
  render (.tokens (MintCache.entries vars.mints))

def createPoolNow : DeviceM Unit := do
  render .waiting
  tryCatch (do
    let status ← zoom poolPart (Pool.create app.pool poolSize app.keyPair)
    writeEpochMarker status.epoch
    tokens) failed

def checkToken (mint : Address) : DeviceM Unit :=
  tryCatch (do
    let record ← zoom mintsPart (MintCache.refresh mint)
    if ¬ record.compatible then render (.incompatible record) else tokens) failed

def closePool : DeviceM Unit := do
  render .waiting
  tryCatch (do
    let refundedLamports ← zoom poolPart (Pool.close app.pool app.keyPair)
    render (.closed refundedLamports)) failed

/-- The payer's own limits come before the confirmation. -/
def openConfirm (intent : Intent) (amount : Int) : DeviceM Unit := do
  let vars ← read
  let openedAt ← dateNow
  let warning := confirmWarning vars.mints intent openedAt
  if ¬ withinPayerCap amount payerPerPaymentCap then
    render (.abovePayerCap intent amount)
  else
    let now ← dateNow
    let allowance ← zoom poolPart (Pool.allowance app.pool now)
    if amount > allowance.remaining then
      render (.overAllowance intent amount allowance)
    else
      render (.confirm intent amount warning)

def routeScanned (bytes : List UInt8) (purpose : ScanPurpose) : DeviceM Unit := do
  let type ← ofResult (peekPayloadType bytes)
  let vars ← read
  let ctx : DecodeContext := ⟨mintMap vars.mints, none⟩
  if purpose = .recovery ∨ type = .nonceReturn then
    if type ≠ .nonceReturn then
      throw (unexpectedType .nonceReturn type)
    let payload ← ofResult (decodeNonceReturn bytes)
    let status ← zoom poolPart (Pool.applyNonceReturn app.pool payload)
    render (.restored status)
  else
    match type with
    | .intent =>
      let intent ← ofResult (decodeIntent bytes ctx)
      openConfirm app intent (intent.amount.getD 0)
    | .staticIntent =>
      let intent ← ofResult (decodeStaticIntent bytes ctx)
      render (.enterAmount intent)
    | type => throw (unexpectedType .intent type)

/-- An amount that cannot be read leaves the screen as it is. -/
def enterAmount (intent : Intent) (typed : JsString) : DeviceM Unit :=
  match parseAmount typed intent.decimals.toNat with
  | none => pure ()
  | some amount => if amount = 0 then pure () else openConfirm app intent amount

def signNow (intent : Intent) (amount : Int) : DeviceM Unit := do
  render .waiting
  tryCatch (do
    let vars ← read
    let stored ← hasPoolState app.pool.payer
    match signingBlock vars.standalone (assessLedger vars.epochMarker stored) with
    | some reason => render (.blocked reason)
    | none =>
      let now ← dateNow
      let payload ← zoom poolPart (PayerApp.signedCode app.pool app.keyPair intent amount now)
      render (.code payload intent amount)) failed

/-- Above the threshold the amount is typed again first. -/
def confirmed (intent : Intent) (amount : Int) (retyped : JsString) : DeviceM Unit :=
  if needsRetype amount payerRetypeThreshold ∧
      parseAmount retyped intent.decimals.toNat ≠ some amount then
    pure ()
  else signNow app intent amount

/-- The code behind a button. What it needs of its screen comes with it. -/
def Tap.handler (screen : Screen) : Tap → DeviceM Unit
  | .restore => PayerApp.restore app
  | .create => createPoolNow app
  | .onboarding => PayerApp.onboarding
  | .home => PayerApp.home app
  | .tokens => PayerApp.tokens
  | .checkToken mint => PayerApp.checkToken mint
  | .close => closePool app
  | .scan purpose => render (.scanning purpose)
  | .scanned result => match screen with
    | .scanning purpose =>
      tryCatch (do routeScanned app (← ofResult result) purpose) failed
    | _ => pure ()
  | .continue' typed => match screen with
    | .enterAmount intent => PayerApp.enterAmount app intent typed
    | _ => pure ()
  | .sign retyped => match screen with
    | .confirm intent amount _ => confirmed app intent amount retyped
    | _ => pure ()

/-- The start of the app, on a device that was opened so. -/
def boot (standalone : Bool) : DeviceM Unit := do
  let vars ← read
  write { vars with standalone, pool := none, mints := [], screen := .waiting }
  tryCatch (do
    let _ ← zoom mintsPart MintCache.load
    let stored ← hasPoolState app.pool.payer
    let ledger := assessLedger vars.epochMarker stored
    if ¬ standalone then render (.blocked .notInstalled)
    else match ledger with
      | .empty => PayerApp.onboarding
      | .recovery => render (.blocked .ledgerMissing)
      | .ready => PayerApp.home app) fun _ => render .notStarted

/-- A device and the world it is in. -/
structure Device (ρ : Type) where
  vars : DeviceVars
  world : World ρ

inductive DeviceAction where
  | tap (tap : Tap)
  /-- The app is closed, and opened again. -/
  | reopen (standalone : Bool)
  /-- Storage loses what is kept under some keys, or the marker. -/
  | lose (keys : List StoreKey) (marker : Bool)
  /-- Time passes. -/
  | wait

def DeviceAction.process (screen : Screen) : DeviceAction → DeviceM Unit
  | .tap t => if screen.offers t then t.handler app screen else pure ()
  | .reopen standalone => boot app standalone
  | .lose _ marker => do
    let vars ← read
    if marker then write { vars with epochMarker := none }
  | .wait => tick

variable {ρ : Type}

/-- What an action makes of a device. An exception that no code catches ends the
    tap, and leaves the screen as it is. -/
def deviceTap (network : Network ρ) (action : DeviceAction) (device : Device ρ) :
    Unit × Device ρ :=
  let outcome := run (reply network) (action.process app device.vars.screen) device.vars
    device.world
  let world := match action with
    | .lose keys _ =>
      { outcome.world with store := keys.foldl (fun store k => store.erase k) outcome.world.store }
    | _ => outcome.world
  ((), ⟨outcome.vars, world⟩)

end Vadum.PayerApp
