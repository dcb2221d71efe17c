import Mathlib.Algebra.Order.Monoid.Unbundled.WithTop
import Mathlib.Algebra.Order.Ring.Rat
import Mathlib.Data.Finset.Insert
import Vadum.Core.Types

/-!
# Mint Compatibility

The verdict on a mint, from its account as the chain shows it. The extensions of
the mint are looked at one after another. Some of them make a payment
unverifiable offline, and block; some are worth a warning; some have an
authority that can change the verdict later, which makes the mint mutable. What
cannot be read blocks, except a pause.

## Main definitions

* `feeBasisPoints`: A transfer fee, infinite if it cannot be read.
* `judge`: What one extension adds to the findings.
* `evaluateMint`: The record of a mint.
* `assertMintCompatible`: The check of a record.

## Theorems

* `blockers_judge`: Whether an extension blocks does not depend on the others.
* `evaluateMint_ok`: A mint is compatible if none of its extensions blocks.
* `evaluateMint_blockers`: A compatible record lists no blocker.
-/

namespace Vadum

def blockerOrder : List MintBlocker :=
  [.transferHookActive, .transferFeeNonzero, .defaultAccountStateFrozen, .nonTransferable, .paused]

def warningOrder : List MintWarning :=
  [.permanentDelegate, .pausable, .confidentialTransfer, .freezeAuthority, .mintCloseAuthority,
    .unknownExtension]

/-- Recognised extensions with no effect on building or verifying a transfer. -/
def withoutEffect : List String := ["metadataPointer", "tokenMetadata"]

/-- The fields of an extension's state. -/
abbrev ExtensionState : Type := List (String × Json)

/-- A field is there and is null. -/
def isNull (state : ExtensionState) (field : String) : Bool :=
  match state.lookup field with
  | some .null => true
  | _ => false

/-- A field is there and is this text. -/
def isText (state : ExtensionState) (field value : String) : Bool :=
  match state.lookup field with
  | some (.string s) => s = value
  | _ => false

/-- A field is there and is true. -/
def isTrue (state : ExtensionState) (field : String) : Bool :=
  match state.lookup field with
  | some (.bool b) => b
  | _ => false

/-- A transfer fee in basis points. One that cannot be read is infinite. -/
def feeBasisPoints (fee : Option Json) : WithTop Rat :=
  match fee with
  | some (.object fields) => match fields.lookup "transferFeeBasisPoints" with
    | some (.number n) => n
    | _ => ⊤
  | _ => ⊤

/-- What has been found about a mint so far. -/
structure Findings where
  blockers : Finset MintBlocker
  warnings : Finset MintWarning
  mutableMint : Bool

namespace Findings

def none : Findings := ⟨∅, ∅, false⟩

/-- A blocker is found if a condition holds. -/
def block (found : Findings) (blocker : MintBlocker) (condition : Prop) [Decidable condition] :
    Findings :=
  if condition then { found with blockers := insert blocker found.blockers } else found

def warn (found : Findings) (warning : MintWarning) (condition : Prop) [Decidable condition] :
    Findings :=
  if condition then { found with warnings := insert warning found.warnings } else found

/-- The verdict can change if a condition holds. -/
def change (found : Findings) (condition : Prop) [Decidable condition] : Findings :=
  if condition then { found with mutableMint := true } else found

end Findings

/-- What one extension adds to the findings. -/
def judge (raw : RawMintData) (found : Findings) (entry : RawMintExtension) : Findings :=
  let state := entry.state
  match entry.extension with
  | "transferHook" =>
    -- Only an explicit null is no hook.
    (found.block .transferHookActive (¬ isNull state "programId")).change
      (¬ isNull state "authority")
  | "transferFeeConfig" =>
    -- The newer fee takes effect at an epoch an offline device cannot see.
    (found.block .transferFeeNonzero (0 < feeBasisPoints (state.lookup "olderTransferFee") ∨
      0 < feeBasisPoints (state.lookup "newerTransferFee"))).change
      (¬ isNull state "transferFeeConfigAuthority")
  | "nonTransferable" => found.block .nonTransferable True
  | "defaultAccountState" =>
    (found.block .defaultAccountStateFrozen (¬ isText state "accountState" "initialized")).change
      (raw.freezeAuthority ≠ none)
  | "permanentDelegate" => found.warn .permanentDelegate (¬ isNull state "delegate")
  | "pausableConfig" =>
    -- A pause that cannot be read warns and does not block.
    ((found.warn .pausable True).block .paused (isTrue state "paused")).change True
  | "confidentialTransferMint" => found.warn .confidentialTransfer True
  | "confidentialTransferFeeConfig" => found.warn .confidentialTransfer True
  | "mintCloseAuthority" => found.warn .mintCloseAuthority (¬ isNull state "closeAuthority")
  | extension => found.warn .unknownExtension (extension ∉ withoutEffect)

/-- The record of a mint. `checkedAt` is when it was fetched. -/
def evaluateMint (raw : RawMintData) (checkedAt : Int) : Except Thrown MintRecord := do
  if ¬ raw.decimals.isInt then
    throw (vadumError .mintIncompatible
      [("blockers", .blockers []),
        ("reason", .text "RawMintData is not the jsonParsed projection")])
  let found := raw.extensions.foldl (judge raw) .none
  let found := found.warn .freezeAuthority (raw.freezeAuthority ≠ none)
  pure { mint := raw.mint, tokenProgram := raw.tokenProgram, decimals := raw.decimals.num
         compatible := found.blockers = ∅
         blockers := blockerOrder.filter (· ∈ found.blockers)
         warnings := warningOrder.filter (· ∈ found.warnings)
         mutableMint := found.mutableMint, checkedAt }

def assertMintCompatible (record : MintRecord) : Except Thrown Unit := do
  if ¬ record.compatible ∨ record.blockers ≠ [] then
    throw (vadumError .mintIncompatible [("blockers", .blockers record.blockers)])

/-- An extension that makes an offline payment unverifiable. -/
def Blocking (entry : RawMintExtension) : Prop :=
  match entry.extension with
  | "transferHook" => isNull entry.state "programId" = false
  | "transferFeeConfig" => 0 < feeBasisPoints (entry.state.lookup "olderTransferFee") ∨
      0 < feeBasisPoints (entry.state.lookup "newerTransferFee")
  | "nonTransferable" => True
  | "defaultAccountState" => isText entry.state "accountState" "initialized" = false
  | "pausableConfig" => isTrue entry.state "paused" = true
  | _ => False

@[simp] theorem blockers_block (found : Findings) (blocker : MintBlocker) (c : Prop) [Decidable c] :
    (found.block blocker c).blockers = ∅ ↔ found.blockers = ∅ ∧ ¬ c := by
  unfold Findings.block
  by_cases h : c
  · simp only [h, if_true, Finset.insert_ne_empty, not_true_eq_false, and_false]
  · simp only [h, if_false, not_false_eq_true, and_true]

@[simp] theorem blockers_warn (found : Findings) (warning : MintWarning) (c : Prop)
    [Decidable c] : (found.warn warning c).blockers = found.blockers := by
  unfold Findings.warn
  split <;> rfl

@[simp] theorem blockers_change (found : Findings) (c : Prop) [Decidable c] :
    (found.change c).blockers = found.blockers := by
  unfold Findings.change
  split <;> rfl

/-- After an extension nothing blocks if nothing did before and it does not. -/
theorem blockers_judge (raw : RawMintData) (found : Findings) (entry : RawMintExtension) :
    (judge raw found entry).blockers = ∅ ↔ found.blockers = ∅ ∧ ¬ Blocking entry := by
  unfold judge Blocking
  split <;> simp [*]

theorem blockers_foldl (raw : RawMintData) (found : Findings) (entries : List RawMintExtension) :
    (entries.foldl (judge raw) found).blockers = ∅ ↔
      found.blockers = ∅ ∧ ∀ entry ∈ entries, ¬ Blocking entry := by
  induction entries generalizing found with
  | nil => simp only [List.foldl_nil, List.not_mem_nil, false_implies, implies_true, and_true]
  | cons entry entries ih =>
      rw [List.foldl_cons, ih, blockers_judge, List.forall_mem_cons, and_assoc]

/-- A record is of the mint that was fetched, and says that it is compatible if
    none of its extensions blocks. -/
theorem evaluateMint_ok {raw : RawMintData} {checkedAt : Int} {record : MintRecord}
    (h : evaluateMint raw checkedAt = .ok record) :
    record.mint = raw.mint ∧ record.tokenProgram = raw.tokenProgram ∧
      (record.compatible = true ↔ ∀ entry ∈ raw.extensions, ¬ Blocking entry) := by
  unfold evaluateMint at h
  by_cases hint : raw.decimals.isInt
  · rw [if_neg (not_not.mpr hint)] at h
    cases h
    refine ⟨rfl, rfl, ?_⟩
    change decide _ = true ↔ _
    rw [decide_eq_true_iff, blockers_warn, blockers_foldl]
    exact and_iff_right rfl
  · rw [if_pos hint] at h
    cases h

/-- A compatible record lists no blocker. -/
theorem evaluateMint_blockers {raw : RawMintData} {checkedAt : Int} {record : MintRecord}
    (h : evaluateMint raw checkedAt = .ok record) (hcompatible : record.compatible = true) :
    record.blockers = [] := by
  unfold evaluateMint at h
  by_cases hint : raw.decimals.isInt
  · rw [if_neg (not_not.mpr hint)] at h
    cases h
    have hnone := of_decide_eq_true hcompatible
    simp only [hnone, Finset.notMem_empty, decide_false, List.filter_false]
  · rw [if_pos hint] at h
    cases h

end Vadum
