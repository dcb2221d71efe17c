import Vadum.Apps.Gate
import Vadum.Apps.Limits
import Vadum.Client.MintCache
import Vadum.Core.Sign
import Vadum.Wire.Codec

/-!
# The Payer App

What the payer's screens do between a scan and the code they show: the scan is
decoded against the mint cache, the payer confirms an amount, a slot is spent,
and only then the message is signed, on a device whose gate is open. The screens
themselves are left out.

## Main definitions

* `scannedRequest`, `routeScan`: What a scan is taken for.
* `authorise`: A slot, and then a signature against it.
* `signedCode`, `sign`: The payload shown to the merchant, and the gate before it.
* `mintMap`: The mint cache as the decoders see it.
* `confirm`: The limits, and then the signature.
* `confirmWarning`, `confirmScreen`: The screen on which the payer confirms.
* `pay`: A scan, to the code it ends in.
-/

namespace Vadum.PayerApp

open Async.Process (ofResult)

/-- What the camera was opened for. -/
inductive ScanPurpose where
  | payment
  | recovery
deriving DecidableEq

inductive Scanned where
  | request (intent : Intent)
  | recovery (payload : NonceReturnPayload)

def unexpectedType (expected actual : PayloadType) : Thrown :=
  vadumError .wireUnexpectedType
    [("expected", .text expected.text), ("actual", .text actual.text)]

/-- A scanned payment request, dynamic or printed. -/
def scannedRequest (bytes : List UInt8) (ctx : DecodeContext) : Except Thrown Intent := do
  match ← peekPayloadType bytes with
  | .intent => decodeIntent bytes ctx
  | .staticIntent => decodeStaticIntent bytes ctx
  | type => throw (unexpectedType .intent type)

def routeScan (bytes : List UInt8) (ctx : DecodeContext) (purpose : ScanPurpose) :
    Except Thrown Scanned := do
  let type ← peekPayloadType bytes
  if purpose = .recovery ∨ type = .nonceReturn then
    if type ≠ .nonceReturn then
      throw (unexpectedType .nonceReturn type)
    pure (.recovery (← decodeNonceReturn bytes))
  else
    pure (.request (← scannedRequest bytes ctx))

/-- A slot, and then a signature against it. The slot is kept as spent before a
    signature exists. -/
def authorise (pool : PoolConfig) (key : CryptoKeyPair) (intent : Intent) (amount now : Int) :
    PoolM Auth := do
  let slot ← Pool.reserveSlot pool intent.merchant now amount
  signAsPayer pool.kit
    { intent, payer := pool.payer, nonceRef := some ⟨slot.index, slot.value⟩, amount } key

/-- The flags byte an answer to this intent carries. -/
def answerFlags (intent : Intent) : UInt8 :=
  (if intent.isStatic then Flag.amountInAuth else 0) |||
    (if intent.includeCreateAta then Flag.includeCreateAta else 0) |||
    (if intent.tokenProgram = .token2022 then Flag.token2022 else 0) |||
    (match intent.lifetime with
      | .fresh _ _ => Flag.lifetimeFresh
      | .nonce => 0)

/-- The code for the merchant, once the gate is open. -/
def signedCode (pool : PoolConfig) (key : CryptoKeyPair) (intent : Intent) (amount now : Int) :
    PoolM (List UInt8) := do
  let auth ← authorise pool key intent amount now
  ofResult (encodeAuth auth (flagsFromByte (answerFlags intent)))

/-- How the app was opened, and the marker of the ledger's epoch. -/
structure Installation where
  standalone : Bool
  epochMarker : Option String

/-- The gate, and then the code. -/
def sign (device : Installation) (pool : PoolConfig) (key : CryptoKeyPair) (intent : Intent)
    (amount now : Int) : PoolM (Option (List UInt8)) := do
  let stored ← hasPoolState pool.payer
  if (signingBlock device.standalone (assessLedger device.epochMarker stored)).isSome then
    pure none
  else
    some <$> signedCode pool key intent amount now

/-- The records by the mint they are of. Of two, the later one counts. -/
def mintMap (records : MintRecords) : MintMap := fun mint =>
  (MintCache.entries records).reverse.find? fun record => record.mint = mint

/-- The limits, and then the signature. Above a limit nothing is signed and
    there is no code to show. The allowance is asked for when the screen opens, and
    the payer signs later. -/
def confirm (device : Installation) (pool : PoolConfig) (key : CryptoKeyPair) (intent : Intent)
    (amount askedAt now : Int) : PoolM (Option (List UInt8)) := do
  if ¬ withinPayerCap amount payerPerPaymentCap then
    pure none
  else
    let allowance ← Pool.allowance pool askedAt
    if amount > allowance.remaining then
      pure none
    else
      sign device pool key intent amount now

/-- What the confirmation screen warns of. -/
inductive ConfirmWarning where
  /-- The mint's rules can change and were not checked lately. -/
  | mintRecordStale
  /-- The request was printed. -/
  | printedCode
  | offline
deriving DecidableEq

def confirmWarning (records : MintRecords) (intent : Intent) (now : Int) : ConfirmWarning :=
  if MintCache.staleness records intent.mint now = .staleMutable then .mintRecordStale
  else if intent.isStatic then .printedCode
  else .offline

/-- The confirmation screen: what it warns of, and the code that follows if the
    payer signs. -/
def confirmScreen (device : Installation) (pool : PoolConfig) (key : CryptoKeyPair)
    (records : MintRecords) (intent : Intent) (amount openedAt askedAt now : Int) :
    PoolM (Option (ConfirmWarning × List UInt8)) := do
  let warning := confirmWarning records intent openedAt
  let code ← confirm device pool key intent amount askedAt now
  pure (code.map fun code => (warning, code))

/-- A payment scan, to the code it ends in. The payer types the amount of a
    printed request. -/
def pay (device : Installation) (pool : PoolConfig) (key : CryptoKeyPair) (records : MintRecords)
    (bytes : List UInt8) (typed askedAt now : Int) : PoolM (Option (List UInt8)) := do
  match ← ofResult (routeScan bytes ⟨mintMap records, none⟩ .payment) with
  | .recovery payload =>
    let _ ← Pool.applyNonceReturn pool payload
    pure none
  | .request intent =>
    confirm device pool key intent (if intent.isStatic then typed else intent.amount.getD 0)
      askedAt now

end Vadum.PayerApp
