import Vadum.Client.Pool

/-!
# Moves of the Ledger

What a pool operation can do to the ledger, said once. A pool is a ledger that
moves: it is reserved from, re-armed by a return, read again, reconciled,
closed, or replaced by a new one. `Write` lists the writes of an operation,
each with what justifies it: the ledger the operation had last seen, and the
answers it had been given by then. `Theory.Contract` proves that the code does
nothing else.

Nothing here says when an answer was true or whether the ledger last seen is
still there. Those depend on how operations are run, and the theorems about
runs bring it in.

## Main definitions

* `PoolOp`, `PoolResult`, `PoolOp.process`: The operations as data.
* `Answered`, `Heard`, `ReadStore`: What an operation has been told.
* `reserved`: The ledger a reservation leaves.
* `Reread`, `Reconciled`: What `refresh` and `reconcile` make of the slots.
* `Move`, `NewLedger`, `Write`: The writes of an operation.
* `Stores`: The store writes of an operation.
* `Ends`: What an operation's result says about its writes.
-/

namespace Vadum

open Async (Act)

inductive PoolOp where
  | create (size : Int) (payerKey : CryptoKeyPair)
  | reserveSlot (merchant : Address) (now amount : Int)
  | allowance (now : Int)
  | applyNonceReturn (payload : NonceReturnPayload)
  | refresh
  | recover (maxProbe : Nat)
  | close (payerKey : CryptoKeyPair)
  | reconcile (now : Int)
  | load
deriving DecidableEq

inductive PoolResult where
  | status (s : PoolStatus)
  | reservation (r : Reservation)
  | allowance (a : SpendAllowance)
  | refunded (lamports : Int)
  | reconciliation (r : Reconciliation)
deriving DecidableEq

/-- The code of an operation. -/
def PoolOp.process (pool : PoolConfig) : PoolOp → PoolM PoolResult
  | .create size payerKey => .status <$> Pool.create pool size payerKey
  | .reserveSlot merchant now amount =>
    .reservation <$> Pool.reserveSlot pool merchant now amount
  | .allowance now => .allowance <$> Pool.allowance pool now
  | .applyNonceReturn payload => .status <$> Pool.applyNonceReturn pool payload
  | .refresh => .status <$> Pool.refresh pool
  | .recover maxProbe => .status <$> Pool.recover pool maxProbe
  | .close payerKey => .refunded <$> Pool.close pool payerKey
  | .reconcile now => .reconciliation <$> Pool.reconcile pool now
  | .load => .status <$> Pool.load pool

/-- What a pool operation has done so far. -/
abbrev Past : Type := List (Act client (Option PoolState) Thrown)

/-- The network has answered this call. -/
def Answered (past : Past) (c : Call) (a : c.Answer) : Prop :=
  Act.asked (I := client) (Req.rpc c) (.ok a) ∈ past

/-- The network has answered this call since the ledger was last written. -/
def Heard (past : Past) (c : Call) (a : c.Answer) : Prop :=
  ∃ earlier later, past = earlier ++ .asked (I := client) (Req.rpc c) (.ok a) :: later ∧
    ∀ seen new, Act.wrote seen new ∉ later

/-- The store has been read. -/
def ReadStore (pool : PoolConfig) (past : Past) (stored : Option PoolState) : Prop :=
  Act.asked (I := client) (Req.storeGet (.pool pool.payer)) (.ok stored) ∈ past

/-- The value an account holds, if it is one that holds any. -/
def NonceAccountState.value : NonceAccountState → Option Nonce
  | .initialized _ value _ => some value
  | _ => none

/-- The ledger a reservation leaves. -/
def reserved (pool : PoolConfig) (state : PoolState) (slot : PoolSlot) (value : Nonce)
    (merchant : Address) (now amount : Int) : PoolState :=
  { withSlot state { slot with state := .spent, spentAgainst := some ⟨value, merchant, now⟩ } with
    spendLog := some (counted state.spendLog now pool.spendLimitWindowMs ++ [⟨now, amount⟩]) }

/-- A slot after `refresh`: its value is what its account was read to hold. -/
inductive Reread (past : Past) : PoolSlot → PoolSlot → Prop
  | mk (slot : PoolSlot) (account : NonceAccountState)
      (heard : Heard past (.getNonceAccount slot.address) account) :
      Reread past slot { slot with value := account.value }

/-- What `reconcile` makes of the given slots, one after another. -/
inductive Reconciled (pool : PoolConfig) (now : Int) (past : Past) :
    List PoolSlot → PoolState × Reconciliation → PoolState × Reconciliation → Prop
  | nil (x : PoolState × Reconciliation) : Reconciled pool now past [] x x
  | skip {slot : PoolSlot} {slots : List PoolSlot} {x y : PoolState × Reconciliation}
      (h : slot.state ≠ .spent ∨ slot.spentAgainst = none)
      (rest : Reconciled pool now past slots x y) : Reconciled pool now past (slot :: slots) x y
  | gone {slot : PoolSlot} {slots : List PoolSlot} {record : SpentRecord} {state : PoolState}
      {r : Reconciliation} {y : PoolState × Reconciliation} {account : NonceAccountState}
      (spent : slot.state = .spent) (against : slot.spentAgainst = some record)
      (heard : Heard past (.getNonceAccount slot.address) account)
      (value : account.value = none)
      (rest : Reconciled pool now past slots
        (withSlot state (rearmed slot none .unknown none),
          { r with released := r.released ++ [slot.index] }) y) :
      Reconciled pool now past (slot :: slots) (state, r) y
  | settled {slot : PoolSlot} {slots : List PoolSlot} {record : SpentRecord} {state : PoolState}
      {r : Reconciliation} {y : PoolState × Reconciliation} {account : NonceAccountState}
      {v : Nonce} (spent : slot.state = .spent) (against : slot.spentAgainst = some record)
      (heard : Heard past (.getNonceAccount slot.address) account)
      (value : account.value = some v) (moved : v ≠ record.value)
      (rest : Reconciled pool now past slots
        (withSlot state (rearmed slot v .unspent none),
          { r with settled := r.settled ++ [slot.index] }) y) :
      Reconciled pool now past (slot :: slots) (state, r) y
  | released {slot : PoolSlot} {slots : List PoolSlot} {record : SpentRecord}
      {state : PoolState} {r : Reconciliation} {y : PoolState × Reconciliation}
      {account : NonceAccountState} (spent : slot.state = .spent)
      (against : slot.spentAgainst = some record)
      (heard : Heard past (.getNonceAccount slot.address) account)
      (value : account.value = some record.value)
      (elapsed : now - record.at' ≥ pool.sendWindowMs)
      (rest : Reconciled pool now past slots
        (withSlot state (rearmed slot record.value .unspent (some now)),
          { r with released := r.released ++ [slot.index] }) y) :
      Reconciled pool now past (slot :: slots) (state, r) y
  | pending {slot : PoolSlot} {slots : List PoolSlot} {record : SpentRecord} {state : PoolState}
      {r : Reconciliation} {y : PoolState × Reconciliation} {account : NonceAccountState}
      (spent : slot.state = .spent) (against : slot.spentAgainst = some record)
      (heard : Heard past (.getNonceAccount slot.address) account)
      (value : account.value = some record.value)
      (within : now - record.at' < pool.sendWindowMs)
      (rest : Reconciled pool now past slots
        (state, { r with stillPending := r.stillPending ++ [slot.index] }) y) :
      Reconciled pool now past (slot :: slots) (state, r) y

/-- A write that turns the ledger last seen into another. -/
inductive Move (pool : PoolConfig) (past : Past) : PoolOp → PoolState → PoolState → Prop
  | reserve {state : PoolState} {slot : PoolSlot} {value : Nonce} {merchant : Address}
      {now amount : Int} (positive : 0 < amount)
      (within : amount ≤ (Pool.allowanceOf pool (some state) now).remaining)
      (chosen : Pool.chooseSlot state = some slot) (known : slot.value = some value) :
      Move pool past (.reserveSlot merchant now amount) state
        (reserved pool state slot value merchant now amount)
  | returned {state : PoolState} {slot : PoolSlot} {record : SpentRecord}
      {payload : NonceReturnPayload} {statement : NonceReturnStatement}
      (found : state.slots.find? (fun c => c.index = payload.nonceIndex) = some slot)
      (spent : slot.state = .spent) (against : slot.spentAgainst = some record)
      (verified : verifyNonceReturn pool.kit payload
        ⟨pool.payer, record.merchant, record.value⟩ = .ok statement) :
      Move pool past (.applyNonceReturn payload) state
        (withSlot state (rearmed slot payload.newNonceValue .unspent none))
  | reread {op : PoolOp} {state : PoolState} {slots : List PoolSlot}
      (online : op = .refresh ∨ ∃ size payerKey, op = .create size payerKey)
      (values : List.Forall₂ (Reread past) state.slots slots) :
      Move pool past op state { state with slots }
  | reconciled {now : Int} {state state' : PoolState} {r : Reconciliation}
      (slots : Reconciled pool now past state.slots (state, ⟨[], [], []⟩) (state', r)) :
      Move pool past (.reconcile now) state state'
  | closed {payerKey : CryptoKeyPair} {state : PoolState} :
      Move pool past (.close payerKey) state
        { state with slots := state.slots.map fun slot => rearmed slot none .unknown none }

/-- A slot `recover` lists: an account of this payer's, as it was read. -/
inductive Probed (pool : PoolConfig) (past : Past) : PoolSlot → Prop
  | mk {index : Nat} {address : Address} {value : Nonce} {lamports : Int}
      (derived : deriveNonceAddress pool.kit pool.payer index = .ok address)
      (answered : Answered past (.getNonceAccount address)
        (.initialized pool.payer value lamports)) :
      Probed pool past ⟨index, address, some value, .unknown, none, none⟩

/-- A write of a new ledger. It keeps the spend log of the one last seen, or of
    the one in the store when none was. -/
inductive NewLedger (pool : PoolConfig) (past : Past) :
    PoolOp → Option PoolState → PoolState → Prop
  | created {size perSlot : Int} {payerKey : CryptoKeyPair}
      {instructions : List SetupInstruction} {slots : List PoolSlot} {signature : Signature}
      {source : Option PoolState} {epoch : String}
      (bounds : 1 ≤ size ∧ size ≤ 256)
      (setup : Pool.setupSlots pool perSlot (List.range size.toNat) = .ok (instructions, slots))
      (sent : Answered past (.sendSetup instructions payerKey) signature)
      {seen : Option PoolState}
      (prior : source = seen ∧ seen ≠ none ∨ seen = none ∧ ReadStore pool past source) :
      NewLedger pool past (.create size payerKey) seen
        ⟨pool.payer, size.toNat, epoch, slots,
          some ((source.bind PoolState.spendLog).getD [])⟩
  | recovered {maxProbe size : Nat} {slots : List PoolSlot} {source : Option PoolState}
      {epoch : String} {seen : Option PoolState}
      (probed : ∀ slot ∈ slots, Probed pool past slot)
      (prior : source = seen ∧ seen ≠ none ∨ seen = none ∧ ReadStore pool past source)
      (increasing : slots.Pairwise fun a b => a.index < b.index) :
      NewLedger pool past (.recover maxProbe) seen
        ⟨pool.payer, size, epoch, slots, some ((source.bind PoolState.spendLog).getD [])⟩

/-- A write of an operation, given what it had last seen. -/
inductive Write (pool : PoolConfig) (op : PoolOp) (past : Past) :
    Option PoolState → Option PoolState → Prop
  /-- The first read of the store. -/
  | load {stored : Option PoolState} (h : ReadStore pool past stored) :
      Write pool op past none stored
  | move {state state' : PoolState} (h : Move pool past op state state') :
      Write pool op past (some state) (some state')
  | new {seen : Option PoolState} {state : PoolState} (h : NewLedger pool past op seen state) :
      Write pool op past seen (some state)

/-- A store write writes the ledger just written to memory. -/
def Stores (pool : PoolConfig) (past : Past) (seen : Option PoolState) (r : Req) : Prop :=
  ∀ k v, r = .storeSet k v → ∃ state earlier prior, seen = some state ∧
    r = .storeSet (.pool pool.payer) state ∧ past = earlier ++ [.wrote prior seen]

/-- A reservation that is returned is the one just written, in memory and in
    the store. -/
def Ends (pool : PoolConfig) (op : PoolOp) (past : Past) (seen : Option PoolState)
    (x : Except Thrown PoolResult) : Prop :=
  ∀ merchant now amount r, op = .reserveSlot merchant now amount →
    x = .ok (.reservation r) → ∃ before slot earlier,
      Move pool earlier op before (reserved pool before slot r.value merchant now amount) ∧
      slot.index = r.index ∧ slot.value = some r.value ∧
      Pool.chooseSlot before = some slot ∧
      seen = some (reserved pool before slot r.value merchant now amount) ∧
      past = earlier ++ [.wrote (some before) seen, .asked (Req.storeSet (.pool pool.payer)
        (reserved pool before slot r.value merchant now amount)) (.ok ())]

end Vadum
