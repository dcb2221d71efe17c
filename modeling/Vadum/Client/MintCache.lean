import Vadum.Client.World
import Vadum.Core.Mint

/-!
# The Mint Cache

The mints a device has checked, in memory under the address they were asked for
and in the store. A check is online; `load` brings back what the store has.
Whether a record is old depends on what can still change: the verdict on a mint
without authorities does not.

## Main definitions

* `MintRecords`: The records in memory.
* `refresh`, `load`, `get`, `entries`, `staleness`: The operations.
-/

namespace Vadum

/-- One day, and only for a mint that can change. -/
def mintCacheTtlMs : Int := 24 * 60 * 60 * 1000

inductive MintStaleness where
  | fresh
  | staleMutable
  | unknown
deriving DecidableEq

/-- Records by the address they were put in under, in the order of first
    insertion. -/
abbrev MintRecords : Type := List (Address × MintRecord)

/-- A cache's code. -/
abbrev MintCacheM (α : Type) : Type := Client MintRecords α

namespace MintCache

open Async.Process (read write ofResult)

def setRecord (mint : Address) (record : MintRecord) : MintRecords → MintRecords
  | [] => [(mint, record)]
  | entry :: rest =>
    if entry.1 = mint then (mint, record) :: rest else entry :: setRecord mint record rest

def get (records : MintRecords) (mint : Address) : Option MintRecord := records.lookup mint

def entries (records : MintRecords) : List MintRecord := records.map Prod.snd

/-- Put a record in memory. -/
def set (mint : Address) (record : MintRecord) : MintCacheM Unit := do
  let records ← read
  write (setRecord mint record records)

def refresh (mint : Address) : MintCacheM MintRecord := do
  let { raw, fetchedAt } ← getMintAccount mint
  let record ← ofResult (evaluateMint raw fetchedAt)
  set mint record
  storeSet (.mint mint) record
  pure record

def staleness (records : MintRecords) (mint : Address) (now : Int) : MintStaleness :=
  match get records mint with
  | none => .unknown
  | some record =>
    if ¬ record.mutableMint then .fresh
    else if now - record.checkedAt ≥ mintCacheTtlMs then .staleMutable
    else .fresh

/-- Put what the store has under the given keys in memory. -/
def loadRecords : List Address → MintCacheM Unit
  | [] => pure ()
  | mint :: mints => do
    if let some record ← storeGet (.mint mint) then
      set record.mint record
    loadRecords mints

def load : MintCacheM (List MintRecord) := do
  loadRecords (← storeKeys .mint)
  let records ← read
  pure (entries records)

end MintCache

end Vadum
