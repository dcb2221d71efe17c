import Mathlib.Algebra.Ring.Int.Defs
import Vadum.Client.World
import Vadum.Core.NonceReturn

/-!
# The Nonce Pool

The single owner of payer slot state. A pool keeps one ledger, in memory and
in the store, and every operation reads a ledger, asks the network for what it
needs, and writes a whole ledger back. `reserveSlot` writes before it
resolves: the app signs only afterwards, so a crash costs a slot until
reconciliation and never a second payment against it.

The source's closure variable `current` is the variable of the process here,
and `PoolConfig` holds what the closure captured. A loop over slots is a
recursion over the list; the ones that wait for the network are processes of
their own.

## Main definitions

* `PoolConfig`: The payer, the windows and the spend limit of a pool.
* `counted`, `allowanceOf`: What counts against the spend limit.
* `withSlot`, `rearmed`: Replacing one slot of a ledger.
* `persist`, `loaded`: Writing and reading the ledger.
* `create`, `reserveSlot`, `allowance`, `applyNonceReturn`, `refresh`,
  `recover`, `close`, `reconcile`, `status`, `load`: The operations.
-/

namespace Vadum

/-- The fee is per signature, and pool setup carries exactly one. -/
def lamportsPerSignature : Int := 5000

/-- The product send window. It also gates the payer's reconciliation. -/
def sendWindowMs : Int := 24 * 60 * 60 * 1000

def poolLowWaterMark : Nat := 2

/-- How many derived seeds `recover` probes when it is not told. -/
def defaultRecoverProbe : Nat := 16

/-- The most a device signs offline in any 24 hours. -/
def defaultSpendLimit : Int := 100000000

/-- The rolling window the spend limit applies over. -/
def spendLimitWindowMs : Int := 24 * 60 * 60 * 1000

/-- What a pool is created with. -/
structure PoolConfig where
  kit : Kit
  payer : Address
  sendWindowMs : Int := sendWindowMs
  spendLimit : Int := defaultSpendLimit
  spendLimitWindowMs : Int := spendLimitWindowMs

structure PoolStatus where
  payer : Address
  size : Nat
  slots : List PoolSlot
  unspentCount : Nat
  belowLowWaterMark : Bool
  epoch : String
deriving DecidableEq

structure SpendAllowance where
  limit : Int
  spent : Int
  remaining : Int
  /-- When the earliest counted payment leaves the window. -/
  nextRefillAt : Option Int
deriving DecidableEq

structure SetupCost where
  nonceRent : Int
  fee : Int
  walletMinimum : Int
deriving DecidableEq

/-- A slot handed out, and the value to sign against. -/
structure Reservation where
  index : Nat
  value : Nonce
deriving DecidableEq

structure Reconciliation where
  released : List Nat
  settled : List Nat
  stillPending : List Nat
deriving DecidableEq

/-- A pool's code. Its variable is the ledger in memory, absent until read. -/
abbrev PoolM (α : Type) : Type := Client (Option PoolState) α

/-- An entry counts until the window has passed since it was made. One the
    clock places in the future counts too. -/
def counted (log : Option (List SpendEntry)) (now windowMs : Int) : List SpendEntry :=
  (log.getD []).filter fun entry => entry.at' > now - windowMs

def statusOf (state : PoolState) : PoolStatus :=
  let unspentCount := (state.slots.filter fun slot => slot.state = .unspent).length
  { payer := state.payer
    size := state.size
    slots := state.slots
    unspentCount := unspentCount
    belowLowWaterMark := unspentCount ≤ poolLowWaterMark
    epoch := state.epoch }

def withSlot (state : PoolState) (slot : PoolSlot) : PoolState :=
  { state with
    slots := state.slots.map fun candidate =>
      if candidate.index = slot.index then slot else candidate }

/-- Drops `spentAgainst` rather than carrying a stale record along. -/
def rearmed (slot : PoolSlot) (value : Option Nonce) (state : SlotState)
    (releasedAt : Option Int) : PoolSlot :=
  { index := slot.index
    address := slot.address
    value := value
    state := state
    spentAgainst := none
    releasedAt := releasedAt }

namespace Pool

open Async.Process (read write ofResult)

variable (pool : PoolConfig)

def allowanceOf (state : Option PoolState) (now : Int) : SpendAllowance :=
  let entries := counted (state.bind PoolState.spendLog) now pool.spendLimitWindowMs
  let spent := (entries.map SpendEntry.amount).sum
  { limit := pool.spendLimit
    spent := spent
    remaining := if spent ≥ pool.spendLimit then 0 else pool.spendLimit - spent
    nextRefillAt := (entries.map SpendEntry.at').min?.map (· + pool.spendLimitWindowMs) }

/-- The ledger in memory, or else the one in the store. -/
def currentOrStored : PoolM (Option PoolState) := do
  match ← read with
  | some state => pure (some state)
  | none => storeGet (.pool pool.payer)

/-- The log outlives the pool it was written under. -/
def priorSpendLog : PoolM (List SpendEntry) := do
  let state ← currentOrStored pool
  pure ((state.bind PoolState.spendLog).getD [])

def persist (state : PoolState) : PoolM PoolStatus := do
  write (some state)
  storeSet (.pool pool.payer) state
  pure (statusOf state)

def loaded : PoolM PoolState := do
  match ← read with
  | some state => pure state
  | none =>
    let stored ← storeGet (.pool pool.payer)
    write stored
    match stored with
    | some state => pure state
    | none => throw (vadumError .nonceLedgerMissing [("payer", .address pool.payer)])

def assertPayerKey (payerKey : CryptoKeyPair) : PoolM Unit := do
  if payerKey.publicKey ≠ pool.payer then
    throw (vadumError .canonAccountMismatch
      [("reason", .text "the key is not this pool’s payer"), ("payer", .address pool.payer),
        ("key", .address payerKey.publicKey)])

/-- A slot's value and balance on chain. -/
def readValue (slot : PoolSlot) : PoolM (Option Nonce × Int) := do
  match ← getNonceAccount slot.address with
  | .initialized _ value lamports => pure (some value, lamports)
  | _ => pure (none, 0)

def estimateSetupCost (size : Int) : PoolM SetupCost := do
  let nonceRent ← getNonceRentExemption
  let walletMinimum ← getRentExemption 0
  pure { nonceRent := nonceRent * size, fee := lamportsPerSignature, walletMinimum }

/-- The instructions and the slots `create` makes, from the given indices. -/
def setupSlots (perSlot : Int) :
    List Nat → Except Thrown (List SetupInstruction × List PoolSlot)
  | [] => pure ([], [])
  | index :: indices => do
    let address ← deriveNonceAddress pool.kit pool.payer index
    let seed ← nonceSeed index
    let (instructions, slots) ← setupSlots perSlot indices
    pure
      (.createAccountWithSeed pool.payer address pool.payer seed perSlot nonceSize
          pool.kit.systemProgramAddress
        :: .initializeNonceAccount address pool.payer :: instructions,
        { index, address, value := none, state := .unspent, spentAgainst := none,
          releasedAt := none } :: slots)

/-- Read every slot's value again, keeping the rest of it. -/
def refreshSlots : List PoolSlot → PoolM (List PoolSlot)
  | [] => pure []
  | slot :: slots => do
    let (value, _) ← readValue slot
    let rest ← refreshSlots slots
    pure ({ slot with value } :: rest)

def refresh : PoolM PoolStatus := do
  let state ← awaited (loaded pool)
  let slots ← refreshSlots state.slots
  persist pool { state with slots }

def create (size : Int) (payerKey : CryptoKeyPair) : PoolM PoolStatus := do
  if size < 1 ∨ size > 256 then
    throw (vadumError .nonceIndexOutOfRange [("index", .number (size - 1))])
  assertPayerKey pool payerKey
  let { nonceRent, fee, walletMinimum } ← estimateSetupCost size
  let balance ← getBalance pool.payer
  -- A system account must end every transaction at zero or rent-exempt.
  if balance < nonceRent + fee ∨
      (balance > nonceRent + fee ∧ balance < nonceRent + fee + walletMinimum) then
    throw (vadumError .noncePoolUnderfunded
      [("balance", .number balance), ("nonceRent", .number nonceRent), ("fee", .number fee),
        ("walletMinimum", .number walletMinimum)])
  let (instructions, slots) ←
    ofResult (setupSlots pool (nonceRent.tdiv size) (List.range size.toNat))
  let _ ← sendSetup instructions payerKey
  let epoch ← randomUUID
  let spendLog ← awaited (priorSpendLog pool)
  let _ ← persist pool
    { payer := pool.payer, size := size.toNat, epoch, slots, spendLog := some spendLog }
  refresh pool

/-- The unspent slots with a known value. -/
def usable (state : PoolState) : List PoolSlot :=
  state.slots.filter fun candidate => candidate.state = .unspent ∧ candidate.value ≠ none

/-- The slot to hand out. A released slot still carries a payment some merchant
    could submit late, so it goes last, and the least recently released first. -/
def chooseSlot (state : PoolState) : Option PoolSlot :=
  ((usable state).find? fun candidate => candidate.releasedAt = none).or
    ((usable state).mergeSort fun a b => a.releasedAt.getD 0 ≤ b.releasedAt.getD 0).head?

def reserveSlot (merchant : Address) (now amount : Int) : PoolM Reservation := do
  let state ← awaited (loaded pool)
  -- A zero or negative entry would lower the total rather than count against it.
  if amount ≤ 0 then
    throw (vadumError .limitPayerAllowance
      [("reason", .text "an offline payment must be positive"), ("amount", .number amount)])
  let allowance := allowanceOf pool (some state) now
  if amount > allowance.remaining then
    throw (vadumError .limitPayerAllowance
      [("amount", .number amount), ("spent", .number allowance.spent),
        ("limit", .number allowance.limit), ("nextRefillAt", .ofOption allowance.nextRefillAt)])
  match chooseSlot state with
  | some slot@{ value := some value, .. } =>
    let spendLog := counted state.spendLog now pool.spendLimitWindowMs ++ [⟨now, amount⟩]
    let spent := withSlot state
      { slot with state := .spent, spentAgainst := some ⟨value, merchant, now⟩ }
    let _ ← persist pool { spent with spendLog := some spendLog }
    pure { index := slot.index, value }
  | _ => throw (vadumError .noncePoolExhausted
      [("payer", .address pool.payer), ("size", .number state.size)])

def allowance (now : Int) : PoolM SpendAllowance := do
  let state ← currentOrStored pool
  pure (allowanceOf pool state now)

def applyNonceReturn (payload : NonceReturnPayload) : PoolM PoolStatus := do
  let state ← awaited (loaded pool)
  let slot? := state.slots.find? fun candidate => candidate.index = payload.nonceIndex
  match slot? with
  | some slot@{ state := .spent, spentAgainst := some record, .. } =>
    -- Only the payload's index, new value and signature are trusted input.
    let _ ← ofResult (verifyNonceReturn pool.kit payload
      { payer := pool.payer, merchant := record.merchant, spentAgainstValue := record.value })
    tick
    persist pool (withSlot state (rearmed slot payload.newNonceValue .unspent none))
  | _ => throw (untrusted "the ledger holds no spent record for this slot" payload.nonceIndex)

/-- The slots of this payer among the given indices, as the chain shows them. -/
def probe : List Nat → PoolM (List PoolSlot)
  | [] => pure []
  | index :: indices => do
    let address ← ofResult (deriveNonceAddress pool.kit pool.payer index)
    let account ← getNonceAccount address
    let slots ← probe indices
    match account with
    | .initialized authority value _ =>
      if authority = pool.payer then
        -- `unknown`, never `unspent`: some merchant may hold a payment signed
        -- against this value.
        pure ({ index, address, value := some value, state := .unknown, spentAgainst := none,
                releasedAt := none } :: slots)
      else pure slots
    | _ => pure slots

def recover (maxProbe : Nat) : PoolM PoolStatus := do
  let slots ← probe pool (List.range maxProbe)
  if slots = [] then
    throw (vadumError .nonceLedgerMissing
      [("payer", .address pool.payer),
        ("reason", .text "no nonce account of this payer exists on chain"),
        ("maxProbe", .number maxProbe)])
  let epoch ← randomUUID
  let spendLog ← awaited (priorSpendLog pool)
  persist pool
    { payer := pool.payer
      size := (slots.getLast?.map PoolSlot.index).getD 0 + 1
      epoch
      slots
      spendLog := some spendLog }

/-- One withdrawal for every slot that holds lamports, and their sum. -/
def withdrawals : List PoolSlot → PoolM (List SetupInstruction × Int)
  | [] => pure ([], 0)
  | slot :: slots => do
    let (_, lamports) ← readValue slot
    let (instructions, refunded) ← withdrawals slots
    if lamports = 0 then pure (instructions, refunded)
    else
      pure (.withdrawNonceAccount slot.address pool.payer pool.payer lamports :: instructions,
        lamports + refunded)

def close (payerKey : CryptoKeyPair) : PoolM Int := do
  let state ← awaited (loaded pool)
  assertPayerKey pool payerKey
  -- The payer pays the close fee and must be rent-exempt after it.
  let balance ← getBalance pool.payer
  let walletMinimum ← getRentExemption 0
  if balance ≠ 0 ∧ balance < lamportsPerSignature + walletMinimum then
    throw (vadumError .noncePoolUnderfunded
      [("reason", .text "the payer cannot pay the close fee and stay rent-exempt"),
        ("balance", .number balance), ("fee", .number lamportsPerSignature),
        ("walletMinimum", .number walletMinimum)])
  let (instructions, refundedLamports) ← withdrawals pool state.slots
  if instructions ≠ [] then
    let _ ← sendSetup instructions payerKey
  -- The record stays, with every slot unknown: a closed pool is no missing ledger.
  let _ ← persist pool
    { state with slots := state.slots.map fun slot => rearmed slot none .unknown none }
  pure refundedLamports

/-- The reconciliation of the given slots, on a ledger that evolves. -/
def reconcileSlots (now : Int) (state : PoolState) (r : Reconciliation) :
    List PoolSlot → PoolM (PoolState × Reconciliation)
  | [] => pure (state, r)
  | slot :: slots =>
    match slot with
    | { state := .spent, spentAgainst := some record, .. } => do
      let (value, _) ← readValue slot
      match value with
      | none =>
        -- The account is gone. The payment can never settle.
        reconcileSlots now (withSlot state (rearmed slot none .unknown none))
          { r with released := r.released ++ [slot.index] } slots
      | some value =>
        if value ≠ record.value then
          -- A settled nonce always advances: the payment landed.
          reconcileSlots now (withSlot state (rearmed slot value .unspent none))
            { r with settled := r.settled ++ [slot.index] } slots
        else if now - record.at' ≥ pool.sendWindowMs then
          -- Released, not settled: the signed payment is still valid, so it is marked.
          reconcileSlots now (withSlot state (rearmed slot value .unspent (some now)))
            { r with released := r.released ++ [slot.index] } slots
        else
          reconcileSlots now state { r with stillPending := r.stillPending ++ [slot.index] } slots
    | _ => reconcileSlots now state r slots

def reconcile (now : Int) : PoolM Reconciliation := do
  let state ← awaited (loaded pool)
  let (state, r) ← reconcileSlots pool now state ⟨[], [], []⟩ state.slots
  let _ ← persist pool state
  pure r

/-- The status of the ledger in memory, which must have been read. -/
def status : PoolM PoolStatus := do
  match ← read with
  | some state => pure (statusOf state)
  | none => throw (vadumError .nonceLedgerMissing [("payer", .address pool.payer)])

def load : PoolM PoolStatus := do
  let state ← awaited (loaded pool)
  pure (statusOf state)

end Pool

end Vadum
