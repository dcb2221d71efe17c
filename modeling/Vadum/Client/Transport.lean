import Mathlib.Algebra.Ring.Int.Defs
import Mathlib.Data.List.Infix
import Vadum.Async.Retry
import Vadum.Client.Projection
import Vadum.Client.World
import Vadum.Core.Errors

/-!
# The RPC Layer

Where the network lives. The methods of the seam are made of the library's
requests to an endpoint: each is repeated while the endpoint is overloaded or
out of reach, a payment goes through the confirmer that matches its lifetime,
and where that confirmer has no connection the transaction is broadcast again
and its status polled until it is confirmed or a deadline has passed.

`transport` is the interface below the seam. An error carries more here than the
code above ever sees: the HTTP status and the library's own code are read from
its context, and `RpcError` keeps both beside the error itself.

The polling loop runs by the clock, so it is cut off after `fuel` rounds here.
With a clock that goes on while the loop sleeps that is never reached.

## Main definitions

* `TransportReq`, `transport`: What the layer asks of the library.
* `isRetryable`, `isSubscriptionFailure`: What it reads out of an error.
* `withRetry`: A request, repeated.
* `broadcastAndPoll`, `sendPayment`, `sendSetup`, `getSignatureOutcome` and the
  other methods of the seam.
* `rpcMethod`: All of them, by the call they answer.
* `overRpc`: A network whose calls are answered by this layer.
-/

namespace Vadum

/-- An error as the layer sees it. -/
structure RpcError where
  thrown : Thrown
  /-- The HTTP status in its context. -/
  statusCode : Option Int
  /-- The library's code in its context. -/
  code : Option Int
deriving DecidableEq

/-- One of our own errors has no context. -/
def rpcError (code : VadumErrorCode) (detail : List (String × DetailValue)) : RpcError :=
  ⟨vadumError code detail, none, none⟩

inductive ConfirmationStatus where
  | processed
  | confirmed
  | finalized
deriving DecidableEq

/-- What an endpoint says of a signature it knows. -/
structure SignatureStatus where
  err : Option DetailValue
  confirmationStatus : Option ConfirmationStatus
deriving DecidableEq

/-- An account, fetched parsed. -/
structure AccountInfo where
  owner : Address
  data : Json

/-- A nonce account as its decoder has it; state 1 is initialized. -/
structure NonceAccountData where
  state : Nat
  authority : Address
  blockhash : Nonce
  lamports : Int
deriving DecidableEq

inductive TransportReq where
  | sendTransaction (wire : WireTransaction) (skipPreflight : Bool)
  | getSignatureStatuses (signature : Signature) (searchTransactionHistory : Bool)
  | getMinimumBalanceForRentExemption (size : Nat)
  | getAccountInfo (address : Address)
  | fetchMaybeNonce (address : Address)
  | getBalance (address : Address)
  | getLatestBlockhash
  /-- Compile instructions with a blockhash and sign what they need signed. -/
  | signSetup (instructions : List SetupInstruction) (feePayerKey : CryptoKeyPair)
      (blockhash : Blockhash)
  /-- The library's confirmer for a durable nonce. -/
  | sendAndConfirmDurableNonce (wire : WireTransaction) (nonce : Nonce)
      (nonceAccountAddress nonceAuthorityAddress : Address)
  /-- The library's confirmer for a blockhash. -/
  | sendAndConfirm (wire : WireTransaction) (blockhash : Blockhash) (lastValidBlockHeight : Int)
  | sleep (ms : Int)
  | now
  /-- A random number below the bound. -/
  | random (bound : Nat)

@[reducible] def TransportReq.Ans : TransportReq → Type
  | .sendTransaction _ _ => Signature
  | .getSignatureStatuses _ _ => Option SignatureStatus
  | .getMinimumBalanceForRentExemption _ => Int
  | .getAccountInfo _ => Option AccountInfo
  | .fetchMaybeNonce _ => Option NonceAccountData
  | .getBalance _ => Int
  | .getLatestBlockhash => Blockhash
  | .signSetup _ _ _ => WireTransaction
  | .sendAndConfirmDurableNonce _ _ _ _ => Unit
  | .sendAndConfirm _ _ _ => Unit
  | .sleep _ => Unit
  | .now => Int
  | .random _ => Nat

/-- The requests of the layer. -/
@[reducible] def transport : Async.Interface := ⟨TransportReq, TransportReq.Ans⟩

/-- The layer's code. It keeps no variables. -/
abbrev TransportM (α : Type) : Type := Async.Process transport Unit RpcError α

/-- An endpoint and the platform, as a state machine. -/
abbrev Endpoint (ρ : Type) : Type := Async.Reply transport RpcError ρ

def confirmTimeoutMs : Int := 90000

def pollIntervalMs : Int := 2000

def retryAttempts : Nat := 5

def retryableStatus : List Int := [429, 500, 502, 503, 504]

/-- A text has another in it, in capitals or not. -/
def includesIgnoringCase (message marker : String) : Bool :=
  marker.toList.map Char.toLower <:+: message.toList.map Char.toLower

/-- An error's own message, without its name and its context. -/
def Thrown.message (kit : Kit) : Thrown → String
  | .vadum e => e.message kit
  | .error _ message _ => message

def isRetryable (kit : Kit) (error : RpcError) : Bool :=
  match error.statusCode with
  | some status => status ∈ retryableStatus
  | none =>
    ["Too Many Requests", "rate limit", "fetch failed", "ETIMEDOUT", "ECONNRESET",
      "socket hang up"].any (includesIgnoringCase (error.thrown.message kit))

/-- The library's code for a channel that failed to connect, or anything else
    that names the socket. -/
def isSubscriptionFailure (kit : Kit) (error : RpcError) : Bool :=
  if error.code = some 8190004 then true
  else ["WebSocket", "subscription"].any (includesIgnoringCase (error.thrown.message kit))

namespace Transport

open Async.Process (request ofResult)

def sleep (ms : Int) : TransportM Unit := request (I := transport) (.sleep ms)

/-- The pause after failed attempt number `attempt`. -/
def backoff (attempt : Nat) : TransportM Unit := do
  let jitter ← request (I := transport) (.random 100)
  sleep (200 * 2 ^ attempt + jitter)

variable (kit : Kit)

/-- Only transport failures are retried: what the chain decided is passed
    straight through. -/
def withRetry {α : Type} (p : TransportM α) : TransportM α :=
  Async.Process.retry (isRetryable kit) backoff p 1 (retryAttempts - 1)

/-- One request to the endpoint, repeated. -/
def ask (r : TransportReq) : TransportM r.Ans := withRetry kit (request (I := transport) r)

/-- Poll a signature until it is confirmed or the deadline has passed. -/
def poll (signature : Signature) (deadline : Int) : Nat → TransportM Signature
  | 0 => throw ⟨.error "RangeError" "out of fuel" none, none, none⟩
  | fuel + 1 => do
    let now ← request (I := transport) .now
    if now < deadline then
      let status ← ask kit (.getSignatureStatuses signature false)
      if let some err := status.bind SignatureStatus.err then
        throw (rpcError .submitExecutionFailed [("signature", .base58 signature), ("err", err)])
      else if status.bind SignatureStatus.confirmationStatus = some .confirmed ∨
          status.bind SignatureStatus.confirmationStatus = some .finalized then
        pure signature
      else do
        sleep pollIntervalMs
        poll signature deadline fuel
    else
      throw (rpcError .submitRpcUnavailable
        [("reason", .text "the transaction did not confirm in time"),
          ("signature", .base58 signature)])

/-- Broadcast over HTTP and confirm by polling. -/
def broadcastAndPoll (fuel : Nat) (wire : WireTransaction) (skipPreflight : Bool) :
    TransportM Signature := do
  let signature := wire.signature
  let _ ← ask kit (.sendTransaction wire skipPreflight)
  let started ← request (I := transport) .now
  poll kit signature (started + confirmTimeoutMs) fuel

def getNonceRentExemption : TransportM Int :=
  ask kit (.getMinimumBalanceForRentExemption nonceSize)

def getRentExemption (dataLength : Nat) : TransportM Int :=
  ask kit (.getMinimumBalanceForRentExemption dataLength)

def getMintAccount (asAddress : Json → Address) (mint : Address) : TransportM RawMintFetch := do
  let fetchedAt ← request (I := transport) .now
  match ← ask kit (.getAccountInfo mint) with
  | none => throw (rpcError .mintIncompatible
      [("blockers", .blockers []), ("reason", .text "the mint account does not exist"),
        ("mint", .address mint)])
  | some account =>
    let raw ← ofResult ((projectMint kit asAddress mint account.owner account.data).mapError
      fun error => ⟨error, none, none⟩)
    pure ⟨raw, fetchedAt⟩

def getNonceAccount (address : Address) : TransportM NonceAccountState := do
  match ← ask kit (.fetchMaybeNonce address) with
  | none => pure .absent
  | some account =>
    if account.state ≠ 1 then pure .uninitialized
    else pure (.initialized account.authority account.blockhash account.lamports)

def getBalance (address : Address) : TransportM Int := ask kit (.getBalance address)

/-- Setup is confirmed by polling. -/
def sendSetup (fuel : Nat) (instructions : List SetupInstruction) (feePayerKey : CryptoKeyPair) :
    TransportM Signature := do
  let blockhash ← ask kit .getLatestBlockhash
  let signed ← request (I := transport) (.signSetup instructions feePayerKey blockhash)
  broadcastAndPoll kit fuel signed false

def getSignatureOutcome (signature : Signature) : TransportM SignatureOutcome := do
  match ← ask kit (.getSignatureStatuses signature true) with
  | none => pure .absent
  | some status => pure (if status.err = none then .landedOk else .landedFailed)

/-- The confirmer that matches a lifetime. -/
def confirmer (wire : WireTransaction) : PaymentLifetime → TransportM Unit
  | .nonce nonce account authority =>
    request (I := transport) (.sendAndConfirmDurableNonce wire nonce account authority)
  | .fresh blockhash lastValidBlockHeight =>
    request (I := transport) (.sendAndConfirm wire blockhash lastValidBlockHeight)

def sendPayment (fuel : Nat) (wire : WireTransaction) (lifetime : PaymentLifetime)
    (skipPreflight : Bool) : TransportM Signature :=
  -- The confirmers preflight by construction.
  if skipPreflight then broadcastAndPoll kit fuel wire true
  else
    Async.Process.tryCatch (confirmer wire lifetime >>= fun _ => pure wire.signature) fun error =>
      -- The channel may never have opened, or the send was throttled. The signature is
      -- fixed, so broadcasting again is the first send or changes nothing.
      if isSubscriptionFailure kit error ∨ isRetryable kit error then
        broadcastAndPoll kit fuel wire false
      else throw error

end Transport

/-- The method that answers a call. -/
def rpcMethod (kit : Kit) (asAddress : Json → Address) (fuel : Nat) :
    (c : Call) → TransportM c.Answer
  | .getNonceRentExemption => Transport.getNonceRentExemption kit
  | .getRentExemption dataLength => Transport.getRentExemption kit dataLength
  | .getMintAccount mint => Transport.getMintAccount kit asAddress mint
  | .getNonceAccount address => Transport.getNonceAccount kit address
  | .getBalance address => Transport.getBalance kit address
  | .getSignatureOutcome signature => Transport.getSignatureOutcome kit signature
  | .sendSetup instructions feePayerKey => Transport.sendSetup kit fuel instructions feePayerKey
  | .sendPayment wire lifetime => Transport.sendPayment kit fuel wire lifetime false

/-- A network whose calls are answered by this layer over an endpoint. The code
    above sees an error without what the layer read out of it. -/
def overRpc {ρ : Type} (kit : Kit) (asAddress : Json → Address) (fuel : Nat)
    (endpoint : Endpoint ρ) (platform : Network ρ) : Network ρ :=
  { platform with
    rpc := fun c n =>
      let x := Async.Process.run endpoint (rpcMethod kit asAddress fuel c) () n
      (x.result.mapError RpcError.thrown, x.world) }

end Vadum
