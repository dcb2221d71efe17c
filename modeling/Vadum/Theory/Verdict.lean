import Mathlib.Data.Finset.Lattice.Lemmas
import Mathlib.Order.BooleanAlgebra.Basic
import Vadum.Checks.Collect
import Vadum.Client.FakeRpc
import Vadum.Client.MintCache

/-!
# The Verdict on a Mint

What the record of a mint depends on, and how long it can be relied on. The
extensions are judged one by one, and each adds the same to the findings
whatever was found before. So the record is one of a set of extensions, and more
of them leave fewer mints that can be paid in.

A mint is called mutable if somebody can change the verdict later. `AuthorityStep`
lists what the authorities of a mint can do. If none of those that matter are
left, no sequence of such steps changes whether the mint is compatible.

## Main definitions

* `verdict`: The findings about a mint.
* `ReadsFee`: What a transfer fee is, if it can be read.
* `recognised`: The extensions the code knows.
* `AuthorityStep`: What an authority of a mint can do.
* `Settled`: A mint nobody can change the verdict on.

## Theorems

* `judge_collects`: What an extension adds does not depend on the others.
* `evaluateMint_extensions`: The record depends on the set of extensions, and
  grows with it.
* `immutable_stays`: An immutable verdict stays what it is.
-/

namespace Vadum

namespace Findings

instance : LE Findings where
  le a b := a.blockers ⊆ b.blockers ∧ a.warnings ⊆ b.warnings ∧ a.mutableMint ≤ b.mutableMint

/-- Findings are ordered by what they hold. -/
instance : SemilatticeSup Findings where
  le_refl a := ⟨subset_refl _, subset_refl _, le_refl _⟩
  le_trans a b c hab hbc :=
    ⟨hab.1.trans hbc.1, hab.2.1.trans hbc.2.1, hab.2.2.trans hbc.2.2⟩
  le_antisymm a b hab hba := by
    cases a
    cases b
    rw [mk.injEq]
    exact ⟨hab.1.antisymm hba.1, hab.2.1.antisymm hba.2.1, le_antisymm hab.2.2 hba.2.2⟩
  sup a b := ⟨a.blockers ∪ b.blockers, a.warnings ∪ b.warnings, a.mutableMint ⊔ b.mutableMint⟩
  le_sup_left a b := ⟨Finset.subset_union_left, Finset.subset_union_left, le_sup_left⟩
  le_sup_right a b := ⟨Finset.subset_union_right, Finset.subset_union_right, le_sup_right⟩
  sup_le a b c hac hbc := ⟨Finset.union_subset hac.1 hbc.1,
    Finset.union_subset hac.2.1 hbc.2.1, sup_le hac.2.2 hbc.2.2⟩

theorem sup_def (a b : Findings) :
    a ⊔ b = ⟨a.blockers ∪ b.blockers, a.warnings ∪ b.warnings, a.mutableMint ⊔ b.mutableMint⟩ :=
  rfl

@[simp] theorem sup_none (a : Findings) : a ⊔ none = a := by
  rw [sup_def, none, Finset.union_empty, Finset.union_empty, max_eq_left (Bool.false_le _)]

theorem block_sup (a b : Findings) (blocker : MintBlocker) (c : Prop) [Decidable c] :
    (a ⊔ b).block blocker c = a ⊔ b.block blocker c := by
  unfold block
  by_cases h : c
  · simp only [h, if_true, sup_def, Finset.union_insert]
  · simp only [h, if_false]

theorem warn_sup (a b : Findings) (warning : MintWarning) (c : Prop) [Decidable c] :
    (a ⊔ b).warn warning c = a ⊔ b.warn warning c := by
  unfold warn
  by_cases h : c
  · simp only [h, if_true, sup_def, Finset.union_insert]
  · simp only [h, if_false]

theorem change_sup (a b : Findings) (c : Prop) [Decidable c] :
    (a ⊔ b).change c = a ⊔ b.change c := by
  unfold change
  by_cases h : c
  · simp only [h, if_true, sup_def, sup_of_le_right (Bool.le_true _)]
  · simp only [h, if_false]

end Findings

section Extensions

/-- What an extension adds to the findings does not depend on the others. -/
theorem judge_collects (raw : RawMintData) :
    Checks.Collects (judge raw) (judge raw .none) := by
  intro found entry
  have hsup : ∀ a b, judge raw (a ⊔ b) entry = a ⊔ judge raw b entry := by
    intro a b
    unfold judge
    split <;> simp only [Findings.block_sup, Findings.warn_sup, Findings.change_sup]
  rw [← hsup, Findings.sup_none]

/-- The findings about a mint. -/
def verdict (raw : RawMintData) : Findings :=
  (raw.extensions.foldl (judge raw) .none).warn .freezeAuthority (raw.freezeAuthority ≠ none)

/-- The record that says what was found. -/
def recordOf (raw : RawMintData) (found : Findings) (checkedAt : Int) : MintRecord where
  mint := raw.mint
  tokenProgram := raw.tokenProgram
  decimals := raw.decimals.num
  compatible := found.blockers = ∅
  blockers := blockerOrder.filter (· ∈ found.blockers)
  warnings := warningOrder.filter (· ∈ found.warnings)
  mutableMint := found.mutableMint
  checkedAt := checkedAt

theorem evaluateMint_eq {raw : RawMintData} (hformed : raw.decimals.isInt = true)
    (checkedAt : Int) :
    evaluateMint raw checkedAt = .ok (recordOf raw (verdict raw) checkedAt) := by
  rw [evaluateMint, if_neg (not_not.mpr hformed)]
  rfl

@[simp] theorem mem_blockers {raw : RawMintData} {found : Findings} {checkedAt : Int}
    {blocker : MintBlocker} :
    blocker ∈ (recordOf raw found checkedAt).blockers ↔ blocker ∈ found.blockers := by
  have hall : blocker ∈ blockerOrder := by
    cases blocker <;> decide
  simp only [recordOf, List.mem_filter, hall, decide_eq_true_eq, true_and]

@[simp] theorem mem_warnings {raw : RawMintData} {found : Findings} {checkedAt : Int}
    {warning : MintWarning} :
    warning ∈ (recordOf raw found checkedAt).warnings ↔ warning ∈ found.warnings := by
  have hall : warning ∈ warningOrder := by
    cases warning <;> decide
  simp only [recordOf, List.mem_filter, hall, decide_eq_true_eq, true_and]

/-- A record is compatible if it lists no blocker. -/
theorem compatible_iff {raw : RawMintData} {found : Findings} {checkedAt : Int} :
    (recordOf raw found checkedAt).compatible = true ↔
      (recordOf raw found checkedAt).blockers = [] := by
  rw [List.eq_nil_iff_forall_not_mem]
  simp only [mem_blockers]
  exact decide_eq_true_iff.trans Finset.eq_empty_iff_forall_notMem

theorem warn_mono {a b : Findings} (h : a ≤ b) (warning : MintWarning) (c : Prop) [Decidable c] :
    a.warn warning c ≤ b.warn warning c := by
  unfold Findings.warn
  by_cases hc : c
  · rw [if_pos hc, if_pos hc]
    exact ⟨h.1, Finset.insert_subset_insert _ h.2.1, h.2.2⟩
  · rw [if_neg hc, if_neg hc]
    exact h

/-- What an extension adds is in the verdict. -/
theorem judge_le_verdict {raw : RawMintData} {entry : RawMintExtension}
    (h : entry ∈ raw.extensions) : judge raw .none entry ≤ verdict raw := by
  have hfound := (judge_collects raw).finds_le_foldl .none h
  refine hfound.trans ?_
  unfold verdict Findings.warn
  split
  · exact ⟨subset_refl _, Finset.subset_insert _ _, le_refl _⟩
  · exact le_refl _

/-- What a transfer fee is, if it can be read. -/
def ReadsFee (fee : Option Json) (n : Rat) : Prop :=
  ∃ fields, fee = some (.object fields) ∧
    fields.lookup "transferFeeBasisPoints" = some (.number n)

theorem feeBasisPoints_pos {fee : Option Json} (h : ∀ n, ReadsFee fee n → 0 < n) :
    0 < feeBasisPoints fee := by
  unfold feeBasisPoints
  split
  · rename_i fields
    split
    · rename_i n hn
      exact WithTop.coe_lt_coe.mpr (h n ⟨fields, rfl, hn⟩)
    · exact WithTop.coe_lt_top 0
  · exact WithTop.coe_lt_top 0

/-- An entry that blocks wherever it stands: a hook without its program, a fee that
    is charged or cannot be read, accounts that cannot be read to start
    initialised, and a token that cannot be transferred. -/
inductive Condemns : RawMintExtension → MintBlocker → Prop
  | hook {state : ExtensionState} (missing : state.lookup "programId" = none) :
      Condemns ⟨"transferHook", state⟩ .transferHookActive
  | fee {state : ExtensionState} {field : String}
      (either : field = "olderTransferFee" ∨ field = "newerTransferFee")
      (charged : ∀ n, ReadsFee (state.lookup field) n → 0 < n) :
      Condemns ⟨"transferFeeConfig", state⟩ .transferFeeNonzero
  | frozen {state : ExtensionState}
      (unread : state.lookup "accountState" ≠ some (.string "initialized")) :
      Condemns ⟨"defaultAccountState", state⟩ .defaultAccountStateFrozen
  | bound {state : ExtensionState} : Condemns ⟨"nonTransferable", state⟩ .nonTransferable

/-- The extensions the code knows. -/
def recognised : List String :=
  ["transferHook", "transferFeeConfig", "nonTransferable", "defaultAccountState",
    "permanentDelegate", "pausableConfig", "confidentialTransferMint",
    "confidentialTransferFeeConfig", "mintCloseAuthority"] ++ withoutEffect

theorem mem_block (found : Findings) (blocker : MintBlocker) {c : Prop} [Decidable c] (h : c) :
    blocker ∈ (found.block blocker c).blockers := by
  rw [Findings.block, if_pos h]
  exact Finset.mem_insert_self _ _

theorem mem_block_change (found : Findings) (blocker : MintBlocker) {c : Prop} [Decidable c]
    (d : Prop) [Decidable d] (h : c) : blocker ∈ ((found.block blocker c).change d).blockers := by
  rw [blockers_change]
  exact mem_block found blocker h

theorem mem_warn (found : Findings) (warning : MintWarning) {c : Prop} [Decidable c] (h : c) :
    warning ∈ (found.warn warning c).warnings := by
  rw [Findings.warn, if_pos h]
  exact Finset.mem_insert_self _ _

theorem judge_condemned (raw : RawMintData) {entry : RawMintExtension} {blocker : MintBlocker}
    (h : Condemns entry blocker) : blocker ∈ (judge raw .none entry).blockers := by
  cases h with
  | @hook state missing =>
      refine mem_block_change _ _ _ ?_
      simp only [isNull, missing, Bool.false_eq_true, not_false_eq_true]
  | @fee state field either charged =>
      refine mem_block_change _ _ _ ?_
      rcases either with rfl | rfl
      · exact .inl (feeBasisPoints_pos charged)
      · exact .inr (feeBasisPoints_pos charged)
  -- Anything but the text "initialized" counts as frozen.
  | @frozen state unread =>
      refine mem_block_change _ _ _ ?_
      intro htext
      unfold isText at htext
      split at htext
      · rename_i text hlookup
        exact unread (hlookup.trans (congrArg _ (congrArg _ (of_decide_eq_true htext))))
      · cases htext
  | bound => exact mem_block _ _ trivial

theorem judge_unrecognised (raw : RawMintData) {entry : RawMintExtension}
    (h : entry.extension ∉ recognised) :
    .unknownExtension ∈ (judge raw .none entry).warnings := by
  unfold judge
  split <;> rename_i hname
  case h_10 => exact mem_warn _ _ fun hmem => h (List.mem_append_right _ hmem)
  all_goals exact absurd (hname ▸ by decide) h

/-- The record of a well-formed mint is one of the set of its extensions. More of
    them leave all that was found, a compatible record lists no blocker, and some
    entries always block or warn. -/
theorem evaluateMint_extensions (raw : RawMintData) (hformed : raw.decimals.isInt = true)
    (checkedAt : Int) :
    ∃ record, evaluateMint raw checkedAt = .ok record ∧
      (∀ extensions : List RawMintExtension,
        (∀ entry, entry ∈ extensions ↔ entry ∈ raw.extensions) →
        evaluateMint { raw with extensions } checkedAt = .ok record) ∧
      (∀ extensions, raw.extensions ⊆ extensions →
        ∃ record', evaluateMint { raw with extensions } checkedAt = .ok record' ∧
          record.blockers ⊆ record'.blockers ∧ record.warnings ⊆ record'.warnings ∧
          (record.compatible = false → record'.compatible = false) ∧
          (record.mutableMint = true → record'.mutableMint = true)) ∧
      (record.compatible = true ↔ record.blockers = []) ∧
      ∀ entry ∈ raw.extensions,
        (∀ blocker, Condemns entry blocker →
          blocker ∈ record.blockers ∧ record.compatible = false) ∧
        (entry.extension ∉ recognised → .unknownExtension ∈ record.warnings) := by
  refine ⟨recordOf raw (verdict raw) checkedAt, evaluateMint_eq hformed checkedAt,
    fun extensions hsame => ?_, fun extensions hsub => ?_, compatible_iff,
    fun entry hentry => ⟨fun blocker hcondemned => ?_, fun hunknown => ?_⟩⟩
  · have hfound := (judge_collects raw).foldl_congr .none hsame
    have hverdict : verdict { raw with extensions } = verdict raw :=
      congrArg (fun found : Findings => found.warn .freezeAuthority (raw.freezeAuthority ≠ none))
        hfound
    -- The same entries in another order or number collect the same findings.
    rw [@evaluateMint_eq { raw with extensions } hformed, hverdict]
    rfl
  · have hle : verdict raw ≤ verdict { raw with extensions } :=
      warn_mono ((judge_collects raw).foldl_mono .none hsub) _ _
    refine ⟨_, @evaluateMint_eq { raw with extensions } hformed checkedAt,
      fun blocker hb => mem_blockers.mpr (hle.1 (mem_blockers.mp hb)),
      fun warning hw => mem_warnings.mpr (hle.2.1 (mem_warnings.mp hw)), fun hno => ?_,
      fun hmutable => top_le_iff.mp (hmutable.ge.trans hle.2.2)⟩
    -- More entries find more, so what blocked still does.
    have hsome : (verdict raw).blockers ≠ ∅ := of_decide_eq_false hno
    exact decide_eq_false fun hempty => hsome (Finset.subset_empty.mp (hempty ▸ hle.1))
  · have hmem : blocker ∈ (verdict raw).blockers :=
      (judge_le_verdict hentry).1 (judge_condemned raw hcondemned)
    exact ⟨mem_blockers.mpr hmem, decide_eq_false (Finset.ne_empty_of_mem hmem)⟩
  · exact mem_warnings.mpr ((judge_le_verdict hentry).2.1 (judge_unrecognised raw hunknown))

/-- A mint with a hook that names no program, twice, and an unknown extension. -/
def barredMint : RawMintData where
  mint := testAddress 4
  tokenProgram := .token2022
  decimals := 6
  freezeAuthority := none
  extensions := [⟨"transferHook", [("authority", .null)]⟩, ⟨"scaledUiAmount", []⟩,
    ⟨"transferHook", [("authority", .null)]⟩]

theorem evaluateMint_extensions_barredMint :
    ∃ record, evaluateMint barredMint 0 = .ok record ∧
      .transferHookActive ∈ record.blockers ∧ record.compatible = false ∧
      .unknownExtension ∈ record.warnings := by
  rcases evaluateMint_extensions barredMint (by decide) 0 with ⟨record, hok, _, _, _, hentries⟩
  have hhook := (hentries ⟨"transferHook", [("authority", .null)]⟩ List.mem_cons_self).1 _
    (.hook (by decide))
  have hunknown := (hentries ⟨"scaledUiAmount", []⟩
    (List.mem_cons_of_mem _ List.mem_cons_self)).2 (by decide)
  exact ⟨record, hok, hhook.1, hhook.2, hunknown⟩

end Extensions

section Authorities

/-- Some extension of a mint of this kind has an authority left in this field. -/
def HasAuthority (raw : RawMintData) (extension field : String) : Prop :=
  ∃ entry ∈ raw.extensions, entry.extension = extension ∧ isNull entry.state field = false

/-- One extension of a mint is changed, in the given fields of its state only. -/
def Rewrites (extension : String) (fields : List String) (raw raw' : RawMintData) : Prop :=
  ∃ before state state' after, raw.extensions = before ++ ⟨extension, state⟩ :: after ∧
    (∀ field, field ∉ fields → state'.lookup field = state.lookup field) ∧
    raw' = { raw with extensions := before ++ ⟨extension, state'⟩ :: after }

/-- What an authority of a mint can do: set what it is the authority of, or pass
    its own part on. A mint that can be paused is, by somebody. -/
inductive AuthorityStep (raw : RawMintData) : RawMintData → Prop
  | hook {raw' : RawMintData} (live : HasAuthority raw "transferHook" "authority")
      (rewrites : Rewrites "transferHook" ["programId", "authority"] raw raw') :
      AuthorityStep raw raw'
  | fee {raw' : RawMintData}
      (live : HasAuthority raw "transferFeeConfig" "transferFeeConfigAuthority")
      (rewrites : Rewrites "transferFeeConfig"
        ["olderTransferFee", "newerTransferFee", "transferFeeConfigAuthority"] raw raw') :
      AuthorityStep raw raw'
  | accountState {raw' : RawMintData} (live : raw.freezeAuthority ≠ none)
      (rewrites : Rewrites "defaultAccountState" ["accountState"] raw raw') :
      AuthorityStep raw raw'
  | pause {raw' : RawMintData}
      (rewrites : Rewrites "pausableConfig" ["paused", "authority"] raw raw') :
      AuthorityStep raw raw'
  | freeze (live : raw.freezeAuthority ≠ none) (authority : Option Address) :
      AuthorityStep raw { raw with freezeAuthority := authority }

/-- A mint nobody can change the verdict on. -/
def Settled (raw : RawMintData) : Prop := (verdict raw).mutableMint = false

theorem change_mutable (found : Findings) {c : Prop} [Decidable c] (h : c) :
    (found.change c).mutableMint = true := by
  rw [Findings.change, if_pos h]

@[simp] theorem mutable_block (found : Findings) (blocker : MintBlocker) (c : Prop)
    [Decidable c] : (found.block blocker c).mutableMint = found.mutableMint := by
  unfold Findings.block
  split <;> rfl

@[simp] theorem mutable_warn (found : Findings) (warning : MintWarning) (c : Prop)
    [Decidable c] : (found.warn warning c).mutableMint = found.mutableMint := by
  unfold Findings.warn
  split <;> rfl

/-- A settled mint has no extension that makes one mutable. -/
theorem Settled.not_mem {raw : RawMintData} (h : Settled raw) {entry : RawMintExtension}
    (hmutable : (judge raw .none entry).mutableMint = true) : entry ∉ raw.extensions := by
  intro hentry
  have hle := (judge_le_verdict hentry).2.2
  rw [hmutable, show (verdict raw).mutableMint = false from h] at hle
  exact absurd hle (by decide)

theorem Settled.no_hook {raw : RawMintData} (h : Settled raw) :
    ¬ HasAuthority raw "transferHook" "authority" := by
  rintro ⟨⟨_, state⟩, hentry, rfl, hlive⟩
  have hmutable : (judge raw .none ⟨"transferHook", state⟩).mutableMint = true :=
    change_mutable _ (by simp only [hlive, Bool.false_eq_true, not_false_eq_true])
  exact h.not_mem hmutable hentry

theorem Settled.no_fee {raw : RawMintData} (h : Settled raw) :
    ¬ HasAuthority raw "transferFeeConfig" "transferFeeConfigAuthority" := by
  rintro ⟨⟨_, state⟩, hentry, rfl, hlive⟩
  have hmutable : (judge raw .none ⟨"transferFeeConfig", state⟩).mutableMint = true :=
    change_mutable _ (by simp only [hlive, Bool.false_eq_true, not_false_eq_true])
  exact h.not_mem hmutable hentry

theorem Settled.no_pause {raw : RawMintData} (h : Settled raw) (state : ExtensionState) :
    ⟨"pausableConfig", state⟩ ∉ raw.extensions :=
  h.not_mem (change_mutable _ trivial)

theorem Settled.no_accountState {raw : RawMintData} (h : Settled raw)
    (hlive : raw.freezeAuthority ≠ none) (state : ExtensionState) :
    ⟨"defaultAccountState", state⟩ ∉ raw.extensions :=
  h.not_mem (change_mutable _ hlive)

/-- Who may freeze matters to the default state of accounts, and to nothing else. -/
theorem judge_freezeAuthority (raw : RawMintData) (authority : Option Address) (found : Findings)
    {entry : RawMintExtension} (h : entry.extension ≠ "defaultAccountState") :
    judge { raw with freezeAuthority := authority } found entry = judge raw found entry := by
  unfold judge
  split <;> rename_i hname
  case h_4 => exact absurd hname h
  all_goals rfl

/-- Of what is left to do about a settled mint, nothing changes the verdict: who
    may freeze it can change, when there is no default state to set. -/
theorem Settled.step {raw raw' : RawMintData} (h : Settled raw) (hstep : AuthorityStep raw raw') :
    Settled raw' ∧ (verdict raw').blockers = (verdict raw).blockers ∧
      raw'.decimals = raw.decimals := by
  cases hstep with
  -- A live authority of these is what a settled mint does not have.
  | hook live => exact absurd live h.no_hook
  | fee live => exact absurd live h.no_fee
  | accountState live rewrites =>
      rcases rewrites with ⟨before, state, _, after, hsplit, _⟩
      have hmem : ⟨"defaultAccountState", state⟩ ∈ raw.extensions := by
        rw [hsplit]
        exact List.mem_append_right _ List.mem_cons_self
      exact absurd hmem (h.no_accountState live state)
  | pause rewrites =>
      rcases rewrites with ⟨before, state, _, after, hsplit, _⟩
      have hmem : ⟨"pausableConfig", state⟩ ∈ raw.extensions := by
        rw [hsplit]
        exact List.mem_append_right _ List.mem_cons_self
      exact absurd hmem (h.no_pause state)
  | freeze live authority =>
      -- The freeze authority only matters to an entry that is not there.
      have hsame : raw.extensions.foldl (judge { raw with freezeAuthority := authority }) .none
          = raw.extensions.foldl (judge raw) .none := by
        refine List.foldl_ext _ _ _ fun found entry hentry => ?_
        refine judge_freezeAuthority raw authority found fun hname => ?_
        rcases entry with ⟨_, state⟩
        cases hname
        exact h.no_accountState live state hentry
      refine ⟨?_, ?_, rfl⟩
      · unfold Settled verdict at h ⊢
        rw [mutable_warn] at h ⊢
        exact (congrArg Findings.mutableMint hsame).trans h
      · unfold verdict
        rw [blockers_warn, blockers_warn]
        exact congrArg Findings.blockers hsame

theorem Settled.steps {raw raw' : RawMintData} (h : Settled raw)
    (hsteps : Relation.ReflTransGen AuthorityStep raw raw') :
    Settled raw' ∧ (verdict raw').blockers = (verdict raw).blockers ∧
      raw'.decimals = raw.decimals := by
  induction hsteps with
  | refl => exact ⟨h, rfl, rfl⟩
  | tail _ hstep ih =>
      have hnext := ih.1.step hstep
      exact ⟨hnext.1, hnext.2.1.trans ih.2.1, hnext.2.2.trans ih.2.2⟩

/-- An immutable verdict stays what it is, whatever the authorities of the mint
    do, so the cache is right never to call its record old. -/
theorem immutable_stays (raw : RawMintData) (checkedAt : Int) {record : MintRecord}
    (hrecord : evaluateMint raw checkedAt = .ok record) (himmutable : record.mutableMint = false)
    {raw' : RawMintData} (hsteps : Relation.ReflTransGen AuthorityStep raw raw')
    (checkedAt' : Int) :
    (∃ record', evaluateMint raw' checkedAt' = .ok record' ∧
      record'.compatible = record.compatible ∧ record'.mutableMint = false) ∧
    ∀ records mint now, MintCache.get records mint = some record →
      MintCache.staleness records mint now = .fresh := by
  have hformed : raw.decimals.isInt = true := by
    by_contra hnot
    rw [evaluateMint, if_pos hnot] at hrecord
    cases hrecord
  have heq : record = recordOf raw (verdict raw) checkedAt :=
    (Except.ok.inj ((evaluateMint_eq hformed checkedAt).symm.trans hrecord)).symm
  have hsettled : Settled raw := by
    rw [heq] at himmutable
    exact himmutable
  -- Settled mints stay settled, with the same blockers.
  rcases hsettled.steps hsteps with ⟨hsettled', hblockers, hdecimals⟩
  refine ⟨⟨_, evaluateMint_eq (hdecimals ▸ hformed) checkedAt', ?_, hsettled'⟩, ?_⟩
  · rw [heq]
    simp only [recordOf, hblockers]
  · intro records mint now hget
    rw [MintCache.staleness, hget]
    simp only [himmutable, Bool.false_eq_true, not_false_eq_true, if_true]

/-- A mint with a hook nobody can set, that can still be frozen. -/
def freezableMint : RawMintData where
  mint := testAddress 4
  tokenProgram := .token2022
  decimals := 6
  freezeAuthority := some (testAddress 9)
  extensions := [⟨"transferHook", [("authority", .null), ("programId", .null)]⟩]

/-- The authority gives itself up. -/
theorem immutable_stays_freezableMint :
    ∃ record record', evaluateMint freezableMint 0 = .ok record ∧
      evaluateMint { freezableMint with freezeAuthority := none } 9 = .ok record' ∧
      record.compatible = true ∧ record'.compatible = record.compatible := by
  have hok := @evaluateMint_eq freezableMint (by decide) 0
  rcases (immutable_stays freezableMint 0 hok (by decide)
    (.single (.freeze (Option.some_ne_none _) none)) 9).1 with ⟨record', hok', hsame, _⟩
  exact ⟨_, record', hok, hok', by decide, hsame⟩

end Authorities

end Vadum
