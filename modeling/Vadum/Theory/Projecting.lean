import Vadum.Checks.Sequence
import Vadum.Client.Projection
import Vadum.Theory.Verdict

/-!
# What the Projection Drops

The record of a mint says something about every extension that the account lists,
as long as it lists them: each is a blocker, a warning, a reason to look again, or
known to be harmless. But where the account's extensions are no list, the projection
puts an empty one in their place, and the mint passes as one that has none. And where
an entry has no state, it puts an empty one there: a kind that needs nothing of its
state passes as if it had been read.

An entry is read here from the JSON of the account, not from the projection:
`NamedAs` is the name it gives, `stateField` what its state has in a field.

## Main definitions

* `NamedAs`, `stateField`: What an entry of the extensions says.
* `Blocked`, `Warned`, `Harmless`: What a record can make of it.
* `Malformed`, `Unknown`: An entry that cannot be read, and one of no known kind.
* `Bars`: An entry that a payment is barred by.
* `KeepsExtensions`: Nothing of the account's extensions is dropped.
* `Dropped`: Extensions that are dropped, in an account that passes.

## Theorems

* `named_reflected`: What is found of an entry with a name is about it.
* `projectMint_ok`: What a projection is made of.
* `keepsExtensions_iff`: When nothing is dropped.
-/

namespace Vadum

/-- The name that an entry of the extensions gives. -/
def NamedAs (entry : Json) (name : String) : Prop := entry.field "extension" = some (.string name)

/-- What the state of an entry has in a field, where it can be read. -/
def stateField (entry : Json) (field : String) : Option Json :=
  (entry.field "state").bind (Json.field field)

/-- The blocker an extension can be. -/
def blockerOf : String → Option MintBlocker
  | "transferHook" => some .transferHookActive
  | "transferFeeConfig" => some .transferFeeNonzero
  | "nonTransferable" => some .nonTransferable
  | "defaultAccountState" => some .defaultAccountStateFrozen
  | "pausableConfig" => some .paused
  | _ => none

/-- The warning an extension can be. -/
def warningOf : String → Option MintWarning
  | "permanentDelegate" => some .permanentDelegate
  | "pausableConfig" => some .pausable
  | "confidentialTransferMint" => some .confidentialTransfer
  | "confidentialTransferFeeConfig" => some .confidentialTransfer
  | "mintCloseAuthority" => some .mintCloseAuthority
  | name => if name ∈ recognised then none else some .unknownExtension

/-- The extensions with an authority that can change the verdict. -/
def changing : List String :=
  ["transferHook", "transferFeeConfig", "defaultAccountState", "pausableConfig"]

/-- An entry blocks. -/
def Blocked (record : MintRecord) (entry : Json) : Prop :=
  ∃ name blocker, NamedAs entry name ∧ blockerOf name = some blocker ∧
    blocker ∈ record.blockers ∧ record.compatible = false

/-- An entry is warned of: by its name, or because it has none. -/
def Warned (record : MintRecord) (entry : Json) : Prop :=
  (∃ name warning, NamedAs entry name ∧ warningOf name = some warning ∧
    warning ∈ record.warnings) ∨
  (∀ name, ¬ NamedAs entry name) ∧ .unknownExtension ∈ record.warnings

/-- An entry that a payment is safe with: of a kind that has no effect, or of a kind
    that says itself that it has none here and that nobody can change that. -/
inductive Harmless (info : List (String × Json)) (entry : Json) : Prop
  | withoutEffect {name : String} (names : NamedAs entry name) (known : name ∈ withoutEffect)
  | hook (names : NamedAs entry "transferHook")
      (unset : stateField entry "programId" = some .null)
      (fixed : stateField entry "authority" = some .null)
  | fee {older newer : Rat} (names : NamedAs entry "transferFeeConfig")
      (readsOlder : ReadsFee (stateField entry "olderTransferFee") older) (olderFree : older ≤ 0)
      (readsNewer : ReadsFee (stateField entry "newerTransferFee") newer) (newerFree : newer ≤ 0)
      (fixed : stateField entry "transferFeeConfigAuthority" = some .null)
  | initialized (names : NamedAs entry "defaultAccountState")
      (starts : stateField entry "accountState" = some (.string "initialized"))
      (fixed : ∀ value, info.lookup "freezeAuthority" = some value → value = .null)
  | undelegated (names : NamedAs entry "permanentDelegate")
      (unset : stateField entry "delegate" = some .null)
  | unclosable (names : NamedAs entry "mintCloseAuthority")
      (unset : stateField entry "closeAuthority" = some .null)

/-- What a record can make of an entry. -/
def ReflectedIn (record : MintRecord) (info : List (String × Json)) (entry : Json) : Prop :=
  Blocked record entry ∨ Warned record entry ∨
    (∃ name ∈ changing, NamedAs entry name ∧ record.mutableMint = true) ∨ Harmless info entry

/-- An entry that cannot be read: it gives no name, or has no state. -/
def Malformed (entry : Json) : Prop :=
  (∀ name, ¬ NamedAs entry name) ∨ ∀ state, entry.field "state" ≠ some (.object state)

/-- An entry of no kind that the code knows. -/
def Unknown (entry : Json) : Prop := ∀ name, NamedAs entry name → name ∉ recognised

/-- An entry that a payment is barred by, from what it says itself. -/
inductive Bars (entry : Json) : Prop
  | hook (names : NamedAs entry "transferHook")
      (unfree : stateField entry "programId" ≠ some .null)
  | fee {field : String} (names : NamedAs entry "transferFeeConfig")
      (either : field = "olderTransferFee" ∨ field = "newerTransferFee")
      (charged : ∀ n, ReadsFee (stateField entry field) n → 0 < n)
  | bound (names : NamedAs entry "nonTransferable")
  | frozen (names : NamedAs entry "defaultAccountState")
      (unread : stateField entry "accountState" ≠ some (.string "initialized"))
  | paused (names : NamedAs entry "pausableConfig")
      (holds : stateField entry "paused" = some (.bool true))

/-- A record keeps what an account says in its extensions: every entry is reflected in
    it, and what cannot be read blocks or is warned of as unknown. -/
structure KeepsExtensions (record : MintRecord) (info : List (String × Json))
    (extensions : Json) : Prop where
  /-- Extensions that are no list. -/
  unlisted : (∀ entries, extensions ≠ .array entries) →
    record.compatible = false ∨ .unknownExtension ∈ record.warnings
  /-- Every entry. -/
  reflected : ∀ entries, extensions = .array entries → ∀ entry ∈ entries,
    ReflectedIn record info entry
  /-- An entry that cannot be read: the warning is its own if its kind is unknown. -/
  unreadable : ∀ entries, extensions = .array entries → ∀ entry ∈ entries, Malformed entry →
    record.compatible = false ∨ Unknown entry ∧ .unknownExtension ∈ record.warnings

section Entries

variable {entry : Json} {name field : String}

theorem extension_projectExtension (hname : NamedAs entry name) :
    (projectExtension entry).extension = name := by
  have hfield : entry.field "extension" = some (.string name) := hname
  simp only [projectExtension, hfield]

theorem names_extension (hnamed : ∃ name, NamedAs entry name) :
    NamedAs entry (projectExtension entry).extension := by
  rcases hnamed with ⟨name, hname⟩
  rwa [extension_projectExtension hname]

/-- An entry without a name is called unknown. -/
theorem extension_of_unnamed (hunnamed : ∀ name, ¬ NamedAs entry name) :
    (projectExtension entry).extension = "unknown" := by
  rw [projectExtension]
  split
  · rename_i name hname
    exact absurd hname (hunnamed name)
  · rfl

/-- A state that cannot be read has no fields. -/
theorem lookup_state (entry : Json) (field : String) :
    (projectExtension entry).state.lookup field = stateField entry field := by
  simp only [projectExtension, stateField]
  rcases entry.field "state" with _ | value
  · rfl
  · cases value <;> rfl

theorem isNull_iff : isNull (projectExtension entry).state field = true ↔
    stateField entry field = some .null := by
  rw [isNull, lookup_state]
  rcases stateField entry field with _ | value
  · exact ⟨Bool.noConfusion, fun h => by cases h⟩
  · cases value <;> simp only [reduceCtorEq, Bool.false_eq_true, Option.some.injEq]

theorem isText_iff {value : String} :
    isText (projectExtension entry).state field value = true ↔
      stateField entry field = some (.string value) := by
  rw [isText, lookup_state]
  rcases stateField entry field with _ | found
  · exact ⟨Bool.noConfusion, fun h => by cases h⟩
  · cases found <;> simp only [reduceCtorEq, Bool.false_eq_true, Option.some.injEq,
      Json.string.injEq, decide_eq_true_eq]

theorem isTrue_iff : isTrue (projectExtension entry).state field = true ↔
    stateField entry field = some (.bool true) := by
  rw [isTrue, lookup_state]
  rcases stateField entry field with _ | found
  · exact ⟨Bool.noConfusion, fun h => by cases h⟩
  · cases found <;> simp only [reduceCtorEq, Bool.false_eq_true, Option.some.injEq,
      Json.bool.injEq]

/-- A fee counts if it cannot be read, or is more than none. -/
theorem charged_iff : 0 < feeBasisPoints ((projectExtension entry).state.lookup field) ↔
    ∀ n, ReadsFee (stateField entry field) n → 0 < n := by
  rw [lookup_state]
  refine ⟨fun hpos n hn => ?_, feeBasisPoints_pos⟩
  rcases hn with ⟨fields, hfields, hread⟩
  simp only [feeBasisPoints, hfields, hread] at hpos
  exact WithTop.coe_lt_coe.mp hpos

/-- A fee that does not count is one that is read. -/
theorem readsFee_of_not_pos
    (hfree : ¬ 0 < feeBasisPoints ((projectExtension entry).state.lookup field)) :
    ∃ n, ReadsFee (stateField entry field) n ∧ n ≤ 0 := by
  rcases not_forall.mp (charged_iff.not.mp hfree) with ⟨n, hn⟩
  rcases Classical.not_imp.mp hn with ⟨hread, hle⟩
  exact ⟨n, hread, not_lt.mp hle⟩

/-- An entry of no known kind is called by no name that is known. -/
theorem unknown_iff : Unknown entry ↔ (projectExtension entry).extension ∉ recognised := by
  by_cases hnamed : ∃ name, NamedAs entry name
  · rcases hnamed with ⟨name, hname⟩
    rw [extension_projectExtension hname]
    refine ⟨fun h => h name hname, fun h other hother => ?_⟩
    rwa [Json.string.inj (Option.some.inj (hother.symm.trans hname))]
  · have hunnamed : ∀ name, ¬ NamedAs entry name := fun name hname => hnamed ⟨name, hname⟩
    rw [extension_of_unnamed hunnamed]
    exact iff_of_true (fun name hname => absurd hname (hunnamed name)) (by decide)

/-- What blocks is what says so in the account. -/
theorem blocking_iff : Blocking (projectExtension entry) ↔ Bars entry := by
  constructor
  · intro hblocks
    have hnamed : ∀ kind, (projectExtension entry).extension = kind → kind ≠ "unknown" →
        NamedAs entry kind := fun kind hkind hne => by
      by_contra hnot
      refine hne (hkind.symm.trans (extension_of_unnamed fun name hname => hnot ?_))
      rwa [← hkind, extension_projectExtension hname]
    unfold Blocking at hblocks
    split at hblocks <;> rename_i hkind
    · exact .hook (hnamed _ hkind (by decide)) (isNull_iff.not.mp (ne_true_of_eq_false hblocks))
    · rcases hblocks with hcharged | hcharged
      · exact .fee (hnamed _ hkind (by decide)) (.inl rfl) (charged_iff.mp hcharged)
      · exact .fee (hnamed _ hkind (by decide)) (.inr rfl) (charged_iff.mp hcharged)
    · exact .bound (hnamed _ hkind (by decide))
    · exact .frozen (hnamed _ hkind (by decide)) (isText_iff.not.mp (ne_true_of_eq_false hblocks))
    · exact .paused (hnamed _ hkind (by decide)) (isTrue_iff.mp hblocks)
    · cases hblocks
  · intro hbars
    unfold Blocking
    cases hbars with
    | hook names unfree =>
        rw [extension_projectExtension names]
        exact eq_false_of_ne_true (isNull_iff.not.mpr unfree)
    | fee names either charged =>
        rw [extension_projectExtension names]
        rcases either with rfl | rfl
        · exact .inl (charged_iff.mpr charged)
        · exact .inr (charged_iff.mpr charged)
    | bound names =>
        rw [extension_projectExtension names]
        trivial
    | frozen names unread =>
        rw [extension_projectExtension names]
        exact eq_false_of_ne_true (isText_iff.not.mpr unread)
    | paused names holds =>
        rw [extension_projectExtension names]
        exact isTrue_iff.mpr holds

end Entries

section Reflecting

variable {raw : RawMintData} {entry : Json} {info : List (String × Json)} {checkedAt : Int}

theorem blocked_of (hmem : projectExtension entry ∈ raw.extensions)
    (hnamed : ∃ name, NamedAs entry name) {blocker : MintBlocker}
    (hof : blockerOf (projectExtension entry).extension = some blocker)
    (hfound : blocker ∈ (judge raw .none (projectExtension entry)).blockers) :
    Blocked (recordOf raw (verdict raw) checkedAt) entry := by
  have hverdict := (judge_le_verdict hmem).1 hfound
  exact ⟨_, blocker, names_extension hnamed, hof, mem_blockers.mpr hverdict,
    decide_eq_false (Finset.ne_empty_of_mem hverdict)⟩

theorem warned_of (hmem : projectExtension entry ∈ raw.extensions)
    (hnamed : ∃ name, NamedAs entry name) {warning : MintWarning}
    (hof : warningOf (projectExtension entry).extension = some warning)
    (hfound : warning ∈ (judge raw .none (projectExtension entry)).warnings) :
    Warned (recordOf raw (verdict raw) checkedAt) entry :=
  .inl ⟨_, warning, names_extension hnamed, hof,
    mem_warnings.mpr ((judge_le_verdict hmem).2.1 hfound)⟩

theorem mutable_of (hmem : projectExtension entry ∈ raw.extensions)
    (hfound : (judge raw .none (projectExtension entry)).mutableMint = true) :
    (recordOf raw (verdict raw) checkedAt).mutableMint = true :=
  top_le_iff.mp (hfound.ge.trans (judge_le_verdict hmem).2.2)

theorem warnings_block (found : Findings) (blocker : MintBlocker) (c : Prop) [Decidable c] :
    (found.block blocker c).warnings = found.warnings := by
  unfold Findings.block
  split <;> rfl

theorem warnings_change (found : Findings) (c : Prop) [Decidable c] :
    (found.change c).warnings = found.warnings := by
  unfold Findings.change
  split <;> rfl

theorem warningOf_unrecognised {name : String} (h : name ∉ recognised) :
    warningOf name = some .unknownExtension := by
  unfold warningOf
  split
  case h_6 => exact if_neg h
  all_goals exact absurd (by decide) h

theorem mutable_change (found : Findings) {c : Prop} [Decidable c] (h : c) :
    (found.change c).mutableMint = true := by
  rw [Findings.change, if_pos h]

/-- An entry of no known kind is warned of. -/
theorem unknown_warned (hmem : projectExtension entry ∈ raw.extensions) (hunknown : Unknown entry) :
    .unknownExtension ∈ (recordOf raw (verdict raw) checkedAt).warnings :=
  mem_warnings.mpr ((judge_le_verdict hmem).2.1 (judge_unrecognised raw (unknown_iff.mp hunknown)))

/-- A kind that blocks under one condition and can change under another. -/
theorem reflected_of_block (hmem : projectExtension entry ∈ raw.extensions)
    (hnamed : ∃ name, NamedAs entry name) {blocker : MintBlocker} {c d : Prop} [Decidable c]
    [Decidable d] (hkind : (projectExtension entry).extension ∈ changing)
    (hof : blockerOf (projectExtension entry).extension = some blocker)
    (hjudge : judge raw .none (projectExtension entry) = (Findings.none.block blocker c).change d)
    (hharmless : ¬ c → ¬ d → Harmless info entry) :
    ReflectedIn (recordOf raw (verdict raw) checkedAt) info entry := by
  by_cases hc : c
  · exact .inl (blocked_of hmem hnamed hof (hjudge ▸ mem_block_change _ _ _ hc))
  · by_cases hd : d
    · exact .inr (.inr (.inl ⟨_, hkind, names_extension hnamed,
        mutable_of hmem (hjudge ▸ mutable_change _ hd)⟩))
    · exact .inr (.inr (.inr (hharmless hc hd)))

/-- A kind that is warned of under a condition. -/
theorem reflected_of_warn (hmem : projectExtension entry ∈ raw.extensions)
    (hnamed : ∃ name, NamedAs entry name) {warning : MintWarning} {c : Prop} [Decidable c]
    (hof : warningOf (projectExtension entry).extension = some warning)
    (hjudge : judge raw .none (projectExtension entry) = Findings.none.warn warning c)
    (hharmless : ¬ c → Harmless info entry) :
    ReflectedIn (recordOf raw (verdict raw) checkedAt) info entry := by
  by_cases hc : c
  · exact .inr (.inl (warned_of hmem hnamed hof (hjudge ▸ mem_warn _ _ hc)))
  · exact .inr (.inr (.inr (hharmless hc)))

/-- What is found of an entry with a name: it blocks, is warned of or is harmless, or
    somebody can change what its state has. -/
theorem named_reflected (hmem : projectExtension entry ∈ raw.extensions)
    (hfreeze : raw.freezeAuthority = none →
      ∀ value, info.lookup "freezeAuthority" = some value → value = .null)
    (hnamed : ∃ name, NamedAs entry name) :
    ReflectedIn (recordOf raw (verdict raw) checkedAt) info entry := by
  have hname := names_extension hnamed
  generalize hfound : judge raw .none (projectExtension entry) = found
  have hjudge := hfound
  unfold judge at hfound
  simp only at hfound
  -- The kinds, in the order of `judge`.
  split at hfound <;> rename_i hkind <;> subst hfound
  case h_1 =>
    have hhook := hkind ▸ hname
    refine reflected_of_block hmem hnamed (hkind ▸ by decide) (hkind ▸ rfl) hjudge
      fun hprogram hauthority => ?_
    exact .hook hhook (isNull_iff.mp (not_not.mp hprogram)) (isNull_iff.mp (not_not.mp hauthority))
  case h_2 =>
    have hfee := hkind ▸ hname
    refine reflected_of_block hmem hnamed (hkind ▸ by decide) (hkind ▸ rfl) hjudge
      fun hfree hauthority => ?_
    rcases readsFee_of_not_pos (not_or.mp hfree).1 with ⟨older, holder, holderFree⟩
    rcases readsFee_of_not_pos (not_or.mp hfree).2 with ⟨newer, hnewer, hnewerFree⟩
    exact .fee hfee holder holderFree hnewer hnewerFree (isNull_iff.mp (not_not.mp hauthority))
  case h_3 =>
    exact .inl (blocked_of hmem hnamed (hkind ▸ rfl) (hjudge ▸ mem_block _ _ trivial))
  case h_4 =>
    have hfrozen := hkind ▸ hname
    refine reflected_of_block hmem hnamed (hkind ▸ by decide) (hkind ▸ rfl) hjudge
      fun hstarts hfreezes => ?_
    exact .initialized hfrozen (isText_iff.mp (not_not.mp hstarts)) (hfreeze (not_not.mp hfreezes))
  case h_5 =>
    have hdelegate := hkind ▸ hname
    refine reflected_of_warn hmem hnamed (hkind ▸ rfl) hjudge fun hunset => ?_
    exact .undelegated hdelegate (isNull_iff.mp (not_not.mp hunset))
  case h_6 =>
    -- A pause warns whether it can be read or not.
    refine .inr (.inl (warned_of hmem hnamed (hkind ▸ rfl) (?_ : MintWarning.pausable ∈ _)))
    rw [hjudge, warnings_change, warnings_block]
    exact mem_warn _ _ trivial
  case h_7 => exact reflected_of_warn hmem hnamed (hkind ▸ rfl) hjudge fun h => absurd trivial h
  case h_8 => exact reflected_of_warn hmem hnamed (hkind ▸ rfl) hjudge fun h => absurd trivial h
  case h_9 =>
    have hclose := hkind ▸ hname
    refine reflected_of_warn hmem hnamed (hkind ▸ rfl) hjudge fun hunset => ?_
    exact .unclosable hclose (isNull_iff.mp (not_not.mp hunset))
  case h_10 =>
    by_cases hknown : (projectExtension entry).extension ∈ withoutEffect
    · exact .inr (.inr (.inr (.withoutEffect hname hknown)))
    · refine reflected_of_warn hmem hnamed (warningOf_unrecognised fun hrecognised => ?_) hjudge
        fun h => absurd hknown h
      rcases List.mem_append.mp hrecognised with hjudged | heffect
      · simp only [List.mem_cons, List.not_mem_nil, or_false] at hjudged
        rcases hjudged with h | h | h | h | h | h | h | h | h <;> contradiction
      · exact hknown heffect

end Reflecting

section Projections

variable {kit : Kit} {asAddress : Json → Address} {mint owner : Address} {data : Json}

/-- What a projection is made of. -/
theorem projectMint_ok {raw : RawMintData}
    (h : projectMint kit asAddress mint owner data = .ok raw) :
    ∃ info, (data.field "parsed").bind (Json.field "info") = some (.object info) ∧
      (raw.freezeAuthority = none →
        ∀ value, info.lookup "freezeAuthority" = some value → value = .null) ∧
      (∀ entries, info.lookup "extensions" = some (.array entries) →
        raw.extensions = entries.map projectExtension) ∧
      ((∀ entries, info.lookup "extensions" ≠ some (.array entries)) → raw.extensions = []) := by
  unfold projectMint at h
  split at h
  · rename_i tokenProgram hprogram
    simp only at h
    split at h
    · rename_i info hinfo
      split at h
      · rename_i decimals hdecimals
        cases h
        refine ⟨info, hinfo, fun hnone value hvalue => ?_, fun entries hentries => ?_,
          fun hunlisted => ?_⟩
        · cases value with
          | null => rfl
          | _ =>
              simp only [hvalue] at hnone
              cases hnone
        · simp only [hentries]
        · -- Anything but a list is projected to an empty one.
          refine List.map_eq_nil_iff.mpr ?_
          split
          · rename_i entries hentries
            exact absurd hentries (hunlisted entries)
          · rfl
      · cases h
    · cases h
  · cases h

/-- A record that is returned says what was found. -/
theorem eq_recordOf {raw : RawMintData} {record : MintRecord} {checkedAt : Int}
    (h : evaluateMint raw checkedAt = .ok record) :
    record = recordOf raw (verdict raw) checkedAt := by
  by_cases hformed : raw.decimals.isInt = true
  · rw [evaluateMint_eq hformed] at h
    exact (Except.ok.inj h).symm
  · rw [evaluateMint, if_pos hformed] at h
    cases h

/-- Where there are no extensions, nothing blocks and none is unknown. -/
theorem record_of_no_extensions {raw : RawMintData} (hnone : raw.extensions = [])
    (checkedAt : Int) :
    (recordOf raw (verdict raw) checkedAt).compatible = true ∧
      .unknownExtension ∉ (recordOf raw (verdict raw) checkedAt).warnings := by
  have hverdict : verdict raw
      = Findings.none.warn .freezeAuthority (raw.freezeAuthority ≠ none) := by
    rw [verdict, hnone, List.foldl_nil]
  refine ⟨decide_eq_true ?_, fun hmem => ?_⟩
  · rw [hverdict, blockers_warn]
    rfl
  · rw [mem_warnings, hverdict, Findings.warn] at hmem
    split at hmem
    · rcases Finset.mem_insert.mp hmem with heq | hempty
      · cases heq
      · exact absurd hempty (Finset.notMem_empty _)
    · exact absurd hmem (Finset.notMem_empty _)

/-- A mint is compatible if no entry bars its payments. -/
theorem compatible_iff_bars {raw : RawMintData} {entries : List Json}
    (hlisted : raw.extensions = entries.map projectExtension) (checkedAt : Int) :
    (recordOf raw (verdict raw) checkedAt).compatible = true ↔ ∀ entry ∈ entries, ¬ Bars entry := by
  change decide _ = true ↔ _
  rw [decide_eq_true_iff, verdict, blockers_warn, blockers_foldl, hlisted, List.forall_mem_map]
  simp only [blocking_iff]
  exact and_iff_right rfl

/-- Where the extensions are a list, the record keeps what they say if an entry bars
    all payments, or else whatever cannot be read is of no known kind. -/
theorem keepsExtensions_array_iff {raw : RawMintData} {info : List (String × Json)}
    {entries : List Json}
    (hfreeze : raw.freezeAuthority = none →
      ∀ value, info.lookup "freezeAuthority" = some value → value = .null)
    (hlisted : raw.extensions = entries.map projectExtension) (checkedAt : Int) :
    KeepsExtensions (recordOf raw (verdict raw) checkedAt) info (.array entries) ↔
      (∃ entry ∈ entries, Bars entry) ∨ ∀ entry ∈ entries, Malformed entry → Unknown entry := by
  have hmem : ∀ entry ∈ entries, projectExtension entry ∈ raw.extensions := fun entry hentry =>
    hlisted ▸ List.mem_map_of_mem hentry
  have hcompatible := compatible_iff_bars hlisted checkedAt
  constructor
  · intro hkept
    refine or_iff_not_imp_left.mpr fun hnone entry hentry hmalformed => ?_
    have hpasses := hcompatible.mpr fun other hother hbars => hnone ⟨other, hother, hbars⟩
    rcases hkept.unreadable entries rfl entry hentry hmalformed with hblocked | ⟨hunknown, _⟩
    · rw [hpasses] at hblocked
      cases hblocked
    · exact hunknown
  · intro hcond
    refine ⟨fun hunlisted => absurd rfl (hunlisted entries), ?_, ?_⟩
    · rintro _ ⟨⟩ entry hentry
      by_cases hnamed : ∃ name, NamedAs entry name
      · exact named_reflected (hmem entry hentry) hfreeze hnamed
      · have hunnamed : ∀ name, ¬ NamedAs entry name := fun name hname => hnamed ⟨name, hname⟩
        exact .inr (.inl (.inr ⟨hunnamed, unknown_warned (hmem entry hentry)
          fun name hname => absurd hname (hunnamed name)⟩))
    · rintro _ ⟨⟩ entry hentry hmalformed
      rcases hcond with ⟨other, hother, hbars⟩ | hunknown
      · exact .inl (eq_false_of_ne_true fun hpasses => hcompatible.mp hpasses other hother hbars)
      · have hentryUnknown := hunknown entry hentry hmalformed
        exact .inr ⟨hentryUnknown, unknown_warned (hmem entry hentry) hentryUnknown⟩

/-- A mint's record keeps what the account says in its extensions exactly if these are
    not there, or are a list in which an entry bars all payments or else whatever
    cannot be read is of no known kind. -/
theorem keepsExtensions_iff {record : MintRecord} {checkedAt : Int}
    (h : (do
      let raw ← projectMint kit asAddress mint owner data
      evaluateMint raw checkedAt) = .ok record) :
    ∃ info, (data.field "parsed").bind (Json.field "info") = some (.object info) ∧
      ((∀ extensions, info.lookup "extensions" = some extensions →
          KeepsExtensions record info extensions) ↔
        info.lookup "extensions" = none ∨
          ∃ entries, info.lookup "extensions" = some (.array entries) ∧
            ((∃ entry ∈ entries, Bars entry) ∨
              ∀ entry ∈ entries, Malformed entry → Unknown entry)) := by
  rcases Checks.bind_eq_ok.mp h with ⟨raw, hproject, hevaluate⟩
  rcases projectMint_ok hproject with ⟨info, hinfo, hfreeze, hlisted, hunlisted⟩
  rw [eq_recordOf hevaluate]
  refine ⟨info, hinfo, fun hkept => ?_, ?_⟩
  · rcases hthere : info.lookup "extensions" with _ | extensions
    · exact .inl rfl
    · by_cases harray : ∃ entries, extensions = .array entries
      · rcases harray with ⟨entries, rfl⟩
        exact .inr ⟨entries, rfl, (keepsExtensions_array_iff hfreeze (hlisted entries hthere)
          checkedAt).mp (hkept _ hthere)⟩
      · have hnot : ∀ entries, extensions ≠ .array entries := fun entries hentries =>
          harray ⟨entries, hentries⟩
        -- What is no list is projected to none, and then there is nothing to find.
        have hrecord := record_of_no_extensions (hunlisted fun entries hentries =>
          hnot entries (Option.some.inj (hthere.symm.trans hentries))) checkedAt
        rcases (hkept extensions hthere).unlisted hnot with hcompatible | hwarned
        · rw [hrecord.1] at hcompatible
          cases hcompatible
        · exact absurd hwarned hrecord.2
  · rintro (hnone | ⟨entries, hentries, hcond⟩) extensions hextensions
    · rw [hnone] at hextensions
      cases hextensions
    · rw [hentries] at hextensions
      cases hextensions
      exact (keepsExtensions_array_iff hfreeze (hlisted entries hentries) checkedAt).mpr hcond

/-- What an account of a mint says, with extensions of some shape. -/
def infoOf (extensions : Json) : List (String × Json) :=
  [("decimals", .number 6), ("extensions", extensions)]

/-- The record that is made of it. -/
def recordFor (extensions : Json) : Except Thrown MintRecord := do
  let raw ← projectMint testKit (fun _ => testAddress 0) (testAddress 4) (testAddress 253)
    (.object [("parsed", .object [("info", .object (infoOf extensions))])])
  evaluateMint raw 0

/-- Extensions by their names, not as a list. -/
def keyedExtensions : Json :=
  .object [("transferHook", .object [("programId", .string "hook")]),
    ("pausableConfig", .object [])]

/-- An extension with a state that is none. -/
def numberedState : Json :=
  .array [.object [("extension", .string "metadataPointer"), ("state", .number 5)]]

/-- A mint with such extensions passes, with nothing to warn of, though its record does
    not keep them. -/
def Dropped (extensions : Json) : Prop :=
  ∃ record, recordFor extensions = .ok record ∧ record.compatible = true ∧
    record.warnings = [] ∧ record.mutableMint = false ∧
    ¬ KeepsExtensions record (infoOf extensions) extensions

/-- One mint has a hook and can be paused, the one entry of the other cannot be read. -/
theorem drops_keyedExtensions : Dropped keyedExtensions ∧ Dropped numberedState := by
  let record : MintRecord := ⟨testAddress 4, .token2022, 6, true, [], [], false, 0⟩
  constructor
  · refine ⟨record, rfl, rfl, rfl, rfl, fun hkept => ?_⟩
    -- No blocker, and no warning either.
    rcases hkept.unlisted (fun entries h => by cases h) with hcompatible | hwarned
    · cases hcompatible
    · cases hwarned
  · refine ⟨record, rfl, rfl, rfl, rfl, fun hkept => ?_⟩
    rcases hkept.unreadable _ rfl _ List.mem_cons_self (.inr fun state h => by cases h) with
      hcompatible | ⟨_, hwarned⟩
    · cases hcompatible
    · cases hwarned

/-- A list of something that is no entry, and an unknown one without a state. -/
def listedExtensions : Json := .array [.null, .object [("extension", .string "scaledUiAmount")]]

theorem keepsExtensions_listed :
    ∃ record, recordFor listedExtensions = .ok record ∧ record.compatible = true ∧
      KeepsExtensions record (infoOf listedExtensions) listedExtensions := by
  have hok : recordFor listedExtensions
      = .ok ⟨testAddress 4, .token2022, 6, true, [], [.unknownExtension], false, 0⟩ := rfl
  rcases keepsExtensions_iff hok with ⟨info, hinfo, hkept⟩
  cases hinfo
  refine ⟨_, hok, rfl, hkept.mpr (.inr ⟨_, rfl, .inr fun entry hentry _ name hname => ?_⟩) _ rfl⟩
  simp only [List.mem_cons, List.not_mem_nil, or_false] at hentry
  rcases hentry with rfl | rfl
  · cases hname
  · cases hname
    decide

end Projections

end Vadum
