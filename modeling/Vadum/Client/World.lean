import Mathlib.Data.List.AList
import Mathlib.Logic.Relation
import Vadum.Async.Alike
import Vadum.Client.Rpc

/-!
# The World of a Client

The objects of the client package, a pool, a queue and a mint cache, keep
their variables in memory and their records in a key-value store, and ask the
network and the platform for the rest. `client` is the interface all of them
share, and `World` the state of everything outside an object: the store, and
whatever the network is.

`Network` is the part nobody here controls. It answers every call from a state
of its own, so one `Network` can be a chain, a chain behind a bad connection,
or an arbitrary list of answers. It also decides when the device's storage
refuses an access, which signature a key produces, and what the clock says.

The store is typed by its keys: the prefix of a key settles what is kept under
it. `tick` is the `await` of something already there. It asks for nothing, and
lets other operations of the same object run.

## Main definitions

* `PoolState`, `QueuedPayment`: The records of the pool and of the queue.
* `StoreKey`, `Store`: The key-value store.
* `Req`, `client`: The requests of a client.
* `Network`, `World`, `reply`: Who answers them.
* `Steps`, `Later`, `Since`: The network as time passes.
* `StorageWorks`: Storage that never refuses an access.

## Theorems

* `reply_storeGet`, `reply_storeSet`, `reply_storeKeys`: Storage that works
  reads and writes the store.
-/

namespace Vadum

inductive SlotState where
  | unspent
  | spent
  | unknown
deriving DecidableEq

/-- What a slot was spent on. -/
structure SpentRecord where
  value : Nonce
  merchant : Address
  at' : Int
deriving DecidableEq

structure PoolSlot where
  index : Nat
  address : Address
  /-- Absent when not yet read. -/
  value : Option Nonce
  state : SlotState
  spentAgainst : Option SpentRecord
  /-- When reconciliation released this slot without its value changing. -/
  releasedAt : Option Int
deriving DecidableEq

structure SpendEntry where
  at' : Int
  amount : Int
deriving DecidableEq

/-- A pool's ledger. -/
structure PoolState where
  payer : Address
  size : Nat
  epoch : String
  slots : List PoolSlot
  /-- Every offline signing still inside the window. -/
  spendLog : Option (List SpendEntry)
deriving DecidableEq

inductive PaymentState where
  | queued
  | submitting
  | settled
  | failed
  | voided
deriving DecidableEq

structure QueuedPayment where
  id : PaymentId
  payment : VerifiedPayment
  tier : PaymentTier
  acceptedAt : Int
  amount : Int
  attempts : Nat
  lastError : Option VadumErrorCode
  state : PaymentState
deriving DecidableEq

inductive StoreKey where
  | pool (payer : Address)
  | payment (id : PaymentId)
  | queueMeta
  | mint (mint : Address)
deriving DecidableEq

/-- What is kept under a key. -/
@[reducible] def StoreKey.Value : StoreKey → Type
  | .pool _ => PoolState
  | .payment _ => QueuedPayment
  | .queueMeta => Nat
  | .mint _ => MintRecord

abbrev Store : Type := AList StoreKey.Value

/-- The prefixes the source lists keys by. -/
inductive StorePrefix where
  | payment
  | mint

@[reducible] def StorePrefix.Key : StorePrefix → Type
  | .payment => PaymentId
  | .mint => Address

/-- The keys of a store that have a prefix. -/
def Store.keysWith (store : Store) : (p : StorePrefix) → List p.Key
  | .payment => store.keys.filterMap fun
    | .payment id => some id
    | _ => none
  | .mint => store.keys.filterMap fun
    | .mint mint => some mint
    | _ => none

inductive Req where
  | tick
  | storeGet (k : StoreKey)
  | storeSet (k : StoreKey) (v : k.Value)
  | storeKeys (p : StorePrefix)
  | rpc (c : Call)
  | sign (key : CryptoKeyPair) (message : List UInt8)
  | now
  | randomUUID

@[reducible] def Req.Ans : Req → Type
  | .tick => Unit
  | .storeGet k => Option k.Value
  | .storeSet _ _ => Unit
  | .storeKeys p => List p.Key
  | .rpc c => c.Answer
  | .sign _ _ => Signature
  | .now => Int
  | .randomUUID => String

/-- The requests of a client. -/
@[reducible] def client : Async.Interface := ⟨Req, Req.Ans⟩

/-- Client code over the variables `σ` of its object. -/
abbrev Client (σ α : Type) : Type := Async.Process client σ Thrown α

/-- The network and the platform, as a state machine over `ρ`. -/
structure Network (ρ : Type) where
  rpc : (c : Call) → ρ → Except Thrown c.Answer × ρ
  /-- Whether storage refuses an access, and with what. -/
  storage : ρ → Option Thrown × ρ
  /-- A signature of the key over the message. Two calls may differ. -/
  sign : CryptoKeyPair → List UInt8 → ρ → Signature × ρ
  clock : ρ → Int
  randomUUID : ρ → String × ρ
  /-- What happens while an operation waits for nothing in particular. -/
  tick : ρ → ρ

structure World (ρ : Type) where
  store : Store
  net : ρ

variable {ρ : Type}

/-- How the world answers a client. -/
def reply (network : Network ρ) : Async.Reply client Thrown (World ρ)
  | .tick, w => (.ok (), { w with net := network.tick w.net })
  | .storeGet k, w => match network.storage w.net with
    | (none, net) => (.ok (w.store.lookup k), { w with net := net })
    | (some e, net) => (.error e, { w with net := net })
  | .storeSet k v, w => match network.storage w.net with
    | (none, net) => (.ok (), { store := w.store.insert k v, net := net })
    | (some e, net) => (.error e, { w with net := net })
  | .storeKeys p, w => match network.storage w.net with
    | (none, net) => (.ok (w.store.keysWith p), { w with net := net })
    | (some e, net) => (.error e, { w with net := net })
  | .rpc c, w => ((network.rpc c w.net).1, { w with net := (network.rpc c w.net).2 })
  | .sign key message, w =>
    (.ok (network.sign key message w.net).1, { w with net := (network.sign key message w.net).2 })
  | .now, w => (.ok (network.clock w.net), w)
  | .randomUUID, w =>
    (.ok (network.randomUUID w.net).1, { w with net := (network.randomUUID w.net).2 })

/-- The network takes one step. -/
def Steps (network : Network ρ) (n n' : ρ) : Prop :=
  ∃ r w, w.net = n ∧ (reply network r w).2.net = n'

/-- The network takes some steps, or none. -/
abbrev Later (network : Network ρ) : ρ → ρ → Prop := Relation.ReflTransGen (Steps network)

/-- Between two moments, the network answered this call so. -/
def Since (network : Network ρ) (m n : ρ) (c : Call) (a : c.Answer) : Prop :=
  ∃ n₁ n₂, Later network m n₁ ∧ network.rpc c n₁ = (.ok a, n₂) ∧ Later network n₂ n

/-- Storage that never refuses an access. -/
def StorageWorks (network : Network ρ) : Prop :=
  ∀ net, (network.storage net).1 = none

section Requests

variable {σ : Type}

open Async.Process (request)

def tick : Client σ Unit := request (I := client) .tick

def storeGet (k : StoreKey) : Client σ (Option k.Value) := request (I := client) (.storeGet k)

def storeSet (k : StoreKey) (v : k.Value) : Client σ Unit := request (I := client) (.storeSet k v)

def storeKeys (p : StorePrefix) : Client σ (List p.Key) := request (I := client) (.storeKeys p)

def rpc (c : Call) : Client σ c.Answer := request (I := client) (.rpc c)

def sign (key : CryptoKeyPair) (message : List UInt8) : Client σ Signature :=
  request (I := client) (.sign key message)

def dateNow : Client σ Int := request (I := client) .now

def randomUUID : Client σ String := request (I := client) .randomUUID

def getNonceRentExemption : Client σ Int := rpc .getNonceRentExemption

def getRentExemption (dataLength : Nat) : Client σ Int := rpc (.getRentExemption dataLength)

def getMintAccount (mint : Address) : Client σ RawMintFetch := rpc (.getMintAccount mint)

def getNonceAccount (address : Address) : Client σ NonceAccountState :=
  rpc (.getNonceAccount address)

def getBalance (address : Address) : Client σ Int := rpc (.getBalance address)

def getSignatureOutcome (signature : Signature) : Client σ SignatureOutcome :=
  rpc (.getSignatureOutcome signature)

def sendSetup (instructions : List SetupInstruction) (feePayerKey : CryptoKeyPair) :
    Client σ Signature :=
  rpc (.sendSetup instructions feePayerKey)

def sendPayment (wireTransaction : WireTransaction) (lifetime : PaymentLifetime) :
    Client σ Signature :=
  rpc (.sendPayment wireTransaction lifetime)

/-- Call an async function and wait for it: what it returns is fixed before
    other operations get their turn. -/
def awaited {α : Type} (p : Client σ α) : Client σ α := do
  let a ← p
  tick
  pure a

theorem stateless_rpc {R : Req → Prop} (c : Call) (h : R (.rpc c)) :
    Async.Process.Stateless R (rpc c : Client σ c.Answer) :=
  Async.Process.stateless_request (I := client) (r := .rpc c) h

end Requests

theorem later_reply (network : Network ρ) (r : Req) (w : World ρ) :
    Later network w.net (reply network r w).2.net :=
  .single ⟨r, w, rfl, rfl⟩

/-- Running moves the network on. -/
theorem run_later (network : Network ρ) {σ α : Type} (p : Client σ α) (s : σ) (w : World ρ) :
    Later network w.net (Async.Process.run (reply network) p s w).world.net :=
  (Async.Process.run_reaches (reply network) p s w).lift
    World.net fun w _ ⟨r, h⟩ => ⟨r, w, rfl, h ▸ rfl⟩

/-- A request is made while its run goes on, and answered before it ends. -/
theorem requests_later (network : Network ρ) {σ α : Type} {p : Client σ α} {r : Req} {s : σ}
    {w w' : World ρ} (h : (r, w') ∈ Async.Process.requests (reply network) p s w) :
    Later network w.net w'.net ∧ Later network (reply network r w').2.net
      (Async.Process.run (reply network) p s w).world.net := by
  rcases Async.Process.requests_reaches (reply network) h with ⟨hbefore, hafter⟩
  exact ⟨hbefore.lift World.net fun w _ ⟨r, h⟩ => ⟨r, w, rfl, h ▸ rfl⟩,
    hafter.lift World.net fun w _ ⟨r, h⟩ => ⟨r, w, rfl, h ▸ rfl⟩⟩

/-- A clock that no step moves back is never moved back. -/
theorem clock_le_of_later {network : Network ρ}
    (hforward : ∀ n n', Steps network n n' → network.clock n ≤ network.clock n') {n n' : ρ}
    (h : Later network n n') : network.clock n ≤ network.clock n' := by
  induction h with
  | refl => exact Int.le_refl _
  | tail _ hstep ih => exact Int.le_trans ih (hforward _ _ hstep)

/-- Reading the store gives what is there, or fails. -/
theorem run_storeGet_eq (network : Network ρ) {σ : Type} (k : StoreKey) (s : σ) (w : World ρ) :
    Async.Process.run (reply network) (storeGet k) s w
      = ⟨match (network.storage w.net).1 with
          | none => .ok (w.store.lookup k)
          | some e => .error e, s, ⟨w.store, (network.storage w.net).2⟩⟩ := by
  rw [storeGet, Async.Process.run_request (I := client)]
  simp only [reply]
  rcases network.storage w.net with ⟨_ | e, net⟩
  · rfl
  · rfl

theorem Since.later {network : Network ρ} {m n n' : ρ} {c : Call} {a : c.Answer}
    (h : Since network m n c a) (hn : Later network n n') : Since network m n' c a := by
  rcases h with ⟨n₁, n₂, h₁, hans, h₂⟩
  exact ⟨n₁, n₂, h₁, hans, h₂.trans hn⟩

theorem Since.earlier {network : Network ρ} {m m' n : ρ} {c : Call} {a : c.Answer}
    (h : Since network m n c a) (hm : Later network m' m) : Since network m' n c a := by
  rcases h with ⟨n₁, n₂, h₁, hans, h₂⟩
  exact ⟨n₁, n₂, hm.trans h₁, hans, h₂⟩

section Storage

variable {network : Network ρ} (h : StorageWorks network) (w : World ρ)

include h

theorem storage_eq (net : ρ) : network.storage net = (none, (network.storage net).2) :=
  Prod.ext (h net) rfl

theorem reply_storeGet (k : StoreKey) : reply network (.storeGet k) w
    = (.ok (w.store.lookup k), { w with net := (network.storage w.net).2 }) := by
  simp only [reply]
  rw [storage_eq h]

theorem reply_storeSet (k : StoreKey) (v : k.Value) : reply network (.storeSet k v) w
    = (.ok (), { store := w.store.insert k v, net := (network.storage w.net).2 }) := by
  simp only [reply]
  rw [storage_eq h]

theorem reply_storeKeys (p : StorePrefix) : reply network (.storeKeys p) w
    = (.ok (w.store.keysWith p), { w with net := (network.storage w.net).2 }) := by
  simp only [reply]
  rw [storage_eq h]

end Storage

end Vadum
