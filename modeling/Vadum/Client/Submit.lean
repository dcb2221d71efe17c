import Vadum.Client.NonceCheck
import Vadum.Core.Errors
import Vadum.Core.Sign

/-!
# Submission

A payment is sent once, through the confirmer that matches its lifetime. If
that fails, the chain decides what it cost: the signature is looked up, and a
transaction the cluster processed has charged its fee even though it failed.
On the nonce path the nonce account then decides between a stale value and an
absent one, and only what is left is read out of the error's own text.

`afterFailure` is the `catch` of the source's `submit`. A failure inside it is
caught by nobody.

## Main definitions

* `SubmitOutcome`: How a submission ended.
* `codeFromError`: What a thrown error says about itself.
* `lifetimeOf`: The lifetime a payment is sent with.
* `newNonceValueOf`: The slot's value after settlement.
* `afterFailure`, `submit`: The submission.
-/

namespace Vadum

inductive SubmitOutcome where
  /-- The new value is absent on the fresh path, and when the slot cannot be
      read back. -/
  | settled (signature : Signature) (newNonceValue : Option Nonce)
  | failed (code : VadumErrorCode) (feeCharged : Bool) (detail : Option JsString)
deriving DecidableEq

def executionMarkers : List String :=
  ["InstructionError", "custom program error", "insufficient funds", "insufficient lamports",
    "AccountFrozen"]

def expiryMarkers : List String :=
  ["BlockhashNotFound", "block height exceeded", "BlockHeightExceeded", "TransactionExpired"]

def transportMarkers : List String :=
  ["fetch failed", "Failed to fetch", "NetworkError", "ECONNREFUSED", "ETIMEDOUT",
    "socket hang up", "timed out", "WebSocket failed to connect", "CHANNEL_FAILED_TO_CONNECT"]

/-- A marker occurs somewhere in a message. -/
def includes (message marker : String) : Bool := marker.toList <:+: message.toList

def codeFromError (kit : Kit) (error : Thrown) : Option VadumErrorCode :=
  let message := text kit error
  if includes message "already been processed" || includes message "AlreadyProcessed" then
    some .submitAlreadyProcessed
  else if executionMarkers.any (includes message) then some .submitExecutionFailed
  else if expiryMarkers.any (includes message) then some .submitBlockhashExpired
  else if transportMarkers.any (includes message) then some .submitRpcUnavailable
  else none

def lifetimeOf (kit : Kit) (payment : VerifiedPayment) : Except Thrown PaymentLifetime :=
  match payment.input.intent.lifetime, payment.input.nonceRef with
  | .nonce, some ref => do
    let address ← deriveNonceAddress kit payment.input.payer ref.index
    pure (.nonce ref.value address payment.input.payer)
  | .fresh blockhash lastValidBlockHeight, _ => pure (.fresh blockhash lastValidBlockHeight)
  | .nonce, none => throw (vadumError .internalNotApplicable
      [("reason", .text "a nonce-path payment without a nonce reference")])

section Submit

variable {σ : Type} (kit : Kit) (payment : VerifiedPayment)

def newNonceValueOf : Client σ (Option Nonce) := do
  match payment.input.nonceRef with
  | none => pure none
  | some ref =>
    let address ← Async.Process.ofResult (deriveNonceAddress kit payment.input.payer ref.index)
    match ← getNonceAccount address with
    | .initialized _ value _ => pure (some value)
    | _ => pure none

/-- What became of a payment whose sending threw. -/
def afterFailure (lifetime : PaymentLifetime) (signature : Signature) (error : Thrown) :
    Client σ SubmitOutcome := do
  let detail := some ((jsString (text kit error)).take 400)
  match ← getSignatureOutcome signature with
  -- A dropped socket after a successful landing is not a failure.
  | .landedOk => pure (.settled signature (← newNonceValueOf kit payment))
  | .landedFailed => pure (.failed .submitExecutionFailed true detail)
  | .absent =>
    let fromError := codeFromError kit error
    if fromError = some .submitAlreadyProcessed then
      pure (.failed .submitAlreadyProcessed false detail)
    else
      match lifetime with
      | .fresh _ _ => pure (.failed (fromError.getD .submitRpcUnavailable) false detail)
      | .nonce _ _ _ =>
        match ← precheckNonce kit payment with
        | .ok _ => pure (.failed (fromError.getD .submitRpcUnavailable) false detail)
        | .stale _ => pure (.failed .submitNonceStale false detail)
        | _ => pure (.failed .submitNonceAbsent false detail)

/-- Send a payment and wait until it is settled. -/
def sendAndReadBack (wireTransaction : WireTransaction) (lifetime : PaymentLifetime) :
    Client σ SubmitOutcome := do
  let signature ← sendPayment wireTransaction lifetime
  pure (.settled signature (← newNonceValueOf kit payment))

def submit (feePayerKey : CryptoKeyPair) : Client σ SubmitOutcome := do
  let lifetime ← Async.Process.ofResult (lifetimeOf kit payment)
  let wireTransaction ← buildWireTransaction kit payment feePayerKey
  -- Known before the send, so a failure can be looked up.
  let signature := wireTransaction.signature
  tryCatch (sendAndReadBack kit payment wireTransaction lifetime)
    fun error => afterFailure kit payment lifetime signature error

end Submit

end Vadum
