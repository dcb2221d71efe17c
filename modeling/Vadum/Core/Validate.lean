import Vadum.Bytes.Fields
import Vadum.Core.Canonical

/-!
# The Instruction Whitelist

Before the payer signs a message it is held against the canonical one, built
again and compared byte for byte. Only when the two differ are both decoded,
to say how.

## Main definitions

* `resolveInstructions`: A decoded message, with its accounts looked up.
* `explainDifference`: The error that names a difference.
* `assertCanonical`: The check.

## Theorems

* `assertCanonical_self`: The canonical message passes.
-/

namespace Vadum

def advanceNonceData : List UInt8 := [4, 0, 0, 0]

/-- The first byte of a transfer's data. -/
def transferChecked : UInt8 := 12

/-- An instruction with its accounts looked up. An index outside the account
    list gives none. -/
structure ResolvedInstruction where
  program : Option Address
  accounts : List (Option Address)
  data : List UInt8
deriving DecidableEq

structure ResolvedMessage where
  version : MessageVersion
  lookups : Nat
  instructions : Option (List ResolvedInstruction)
deriving DecidableEq

def MessageVersion.text : MessageVersion → String
  | .legacy => "legacy"
  | .number n => toString n

/-- The detail of an account that may be missing. -/
def DetailValue.ofAddress : Option Address → DetailValue
  | some a => .address a
  | none => .null

/-- The amount in a transfer's data. -/
def amountOf (data : List UInt8) : Option Int :=
  if data.length = 10 ∧ data[0]? = some transferChecked then
    some (Bytes.ofLe (Bytes.slice data 1 8))
  else
    none

def mismatch (reason : String) (extra : List (String × DetailValue)) : Thrown :=
  vadumError .canonAccountMismatch (("reason", .text reason) :: extra)

variable (kit : Kit)

def isAdvanceNonce (instruction : ResolvedInstruction) : Bool :=
  instruction.program = some kit.systemProgramAddress ∧ instruction.data = advanceNonceData

def resolveInstructions (bytes : List UInt8) : Option ResolvedMessage :=
  (kit.decodeMessage bytes).map fun message =>
    match message.instructions with
    | none => { version := message.version, lookups := 0, instructions := none }
    | some instructions =>
      { version := message.version
        lookups := message.addressTableLookups
        instructions := some (instructions.map fun instruction =>
          { program := message.staticAccounts[instruction.programAddressIndex]?
            accounts := instruction.accountIndices.map fun index => message.staticAccounts[index]?
            data := instruction.data }) }

/-- What sets the instruction at an index apart from the one wanted there. -/
def explainInstruction (index : Nat) (got want : Option ResolvedInstruction) : Option Thrown :=
  match got, want with
  | got, none => some (vadumError .canonInstructionNotAllowed
      [("programAddress", .ofAddress (got.bind ResolvedInstruction.program)),
        ("index", .number index)])
  | none, some w => some (mismatch "an expected instruction is missing"
      [("programAddress", .ofAddress w.program), ("index", .number index)])
  | some g, some w =>
    let notAllowed := vadumError .canonInstructionNotAllowed
      [("programAddress", .ofAddress g.program), ("index", .number index)]
    if g.program ≠ w.program ∨ g.data[0]? ≠ w.data[0]? ∨
        w.program = some kit.systemProgramAddress ∧ ¬ isAdvanceNonce kit g then
      some notAllowed
    else if w.program = some kit.associatedTokenProgramAddress ∧
        (g.accounts[1]?.join ≠ w.accounts[1]?.join ∨ g.accounts[2]?.join ≠ w.accounts[2]?.join) then
      some (vadumError .canonDestinationMismatch
        [("expected", .ofAddress w.accounts[1]?.join), ("actual", .ofAddress g.accounts[1]?.join)])
    else
      let isTransfer := w.data[0]? = some transferChecked ∧
        w.program ≠ some kit.systemProgramAddress ∧
        w.program ≠ some kit.associatedTokenProgramAddress
      if isTransfer ∧ g.data ≠ w.data then
        some (vadumError .canonAmountMismatch
          [("expected", .ofOption (amountOf w.data)), ("actual", .ofOption (amountOf g.data)),
            ("expectedDecimals", .ofOption (w.data[9]?.map fun byte => byte.toNat)),
            ("actualDecimals", .ofOption (g.data[9]?.map fun byte => byte.toNat))])
      else if isTransfer ∧ g.accounts[2]?.join ≠ w.accounts[2]?.join then
        some (vadumError .canonDestinationMismatch
          [("expected", .ofAddress w.accounts[2]?.join),
            ("actual", .ofAddress g.accounts[2]?.join)])
      else if g.data ≠ w.data then
        some notAllowed
      else if g.accounts ≠ w.accounts then
        some (mismatch "instruction accounts differ"
          [("programAddress", .ofAddress g.program), ("index", .number index)])
      else
        none

def explainInstructions (got want : List ResolvedInstruction) : Thrown :=
  let allowed := want.map ResolvedInstruction.program
  match got.find? fun instruction => instruction.program ∉ allowed with
  | some foreign => vadumError .canonInstructionNotAllowed
      [("programAddress", .ofAddress foreign.program)]
  | none =>
    let advanceAt := got.findIdx? (isAdvanceNonce kit)
    if want.head?.any (isAdvanceNonce kit) ∧ advanceAt ≠ some 0 then
      vadumError .canonInstructionOrder
        [("advanceNonceIndex", .number ((advanceAt.map Int.ofNat).getD (-1)))]
    else
      ((List.range (max got.length want.length)).findSome? fun index =>
        explainInstruction kit index got[index]? want[index]?).getD
          (mismatch "the fee payer, signer header or lifetime differs" [])

def explainDifference (actualBytes canonicalBytes : List UInt8) : Thrown :=
  match resolveInstructions kit actualBytes, resolveInstructions kit canonicalBytes with
  | none, _ => mismatch "the message does not decode" []
  | some actual, canonical =>
    match actual.instructions with
    | some got =>
      if actual.version ≠ .number 0 then
        mismatch "the message is not version 0" [("version", .text actual.version.text)]
      else if actual.lookups > 0 then
        mismatch "address lookup tables are never canonical" []
      else
        match canonical.bind ResolvedMessage.instructions with
        | none => mismatch "the canonical message does not decode" []
        | some want => explainInstructions kit got want
    | none => mismatch "the message is not version 0" [("version", .text actual.version.text)]

/-- The message is exactly the canonical one for this payment. -/
def assertCanonical (messageBytes : List UInt8) (expected : CanonicalInput) :
    Except Thrown Unit := do
  let canonical ← buildMessage kit expected
  if messageBytes = canonical then pure ()
  else throw (explainDifference kit messageBytes canonical)

/-- The canonical message passes. -/
theorem assertCanonical_self {input : CanonicalInput} {bytes : List UInt8}
    (h : buildMessage kit input = .ok bytes) : assertCanonical kit bytes input = .ok () := by
  rw [assertCanonical, h]
  exact if_pos rfl

end Vadum
