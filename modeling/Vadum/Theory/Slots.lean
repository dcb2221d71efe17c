import Vadum.Theory.PoolRuns

/-!
# Slots under a Move

What a move does to the single slots of a ledger. A ledger is rewritten slot
by slot: `reserveSlot` and `applyNonceReturn` replace one, `refresh` and
`close` touch each, `reconcile` replaces those it has settled or released. An
invariant that speaks of every slot of a ledger only needs to know where a
slot of the new ledger came from.

## Theorems

* `mem_withSlot`: A slot was put there or was there and has another index.
* `mem_of_chooseSlot`: The slot handed out is unspent and of known value.
* `mem_of_reread`, `exists_reread`: Slots before and after `refresh`.
* `setupSlots_ok`: The slots `create` makes, and the instructions for them.
* `Reconciled.slot_mem`: Where a reconciled slot came from.
-/

namespace Vadum

variable {pool : PoolConfig}

/-- A slot of a ledger one slot was put into is that one, or was there and has
    another index. -/
theorem mem_withSlot {state : PoolState} {slot slot' : PoolSlot}
    (h : slot' ∈ (withSlot state slot).slots) :
    slot' = slot ∨ slot' ∈ state.slots ∧ slot'.index ≠ slot.index := by
  rcases List.mem_map.mp h with ⟨candidate, hmem, hcandidate⟩
  by_cases hindex : candidate.index = slot.index
  · rw [if_pos hindex] at hcandidate
    exact .inl hcandidate.symm
  · rw [if_neg hindex] at hcandidate
    exact .inr ⟨hcandidate ▸ hmem, hcandidate ▸ hindex⟩

/-- A reservation's slot, or one it leaves alone. -/
theorem mem_reserved {pool : PoolConfig} {state : PoolState} {slot slot' : PoolSlot}
    {value : Nonce} {merchant : Address} {now amount : Int}
    (h : slot' ∈ (reserved pool state slot value merchant now amount).slots) :
    slot' = { slot with state := .spent, spentAgainst := some ⟨value, merchant, now⟩ } ∨
      slot' ∈ state.slots ∧ slot'.index ≠ slot.index :=
  mem_withSlot h

/-- The slot that is put in stands where one of its index stood. -/
theorem mem_withSlot_self {state : PoolState} {slot slot' : PoolSlot} (h : slot' ∈ state.slots)
    (hindex : slot'.index = slot.index) : slot ∈ (withSlot state slot).slots :=
  List.mem_map.mpr ⟨slot', h, if_pos hindex⟩

/-- Slots of other indices stay. -/
theorem mem_withSlot_of_ne {state : PoolState} {slot slot' : PoolSlot} (h : slot' ∈ state.slots)
    (hindex : slot'.index ≠ slot.index) : slot' ∈ (withSlot state slot).slots :=
  List.mem_map.mpr ⟨slot', h, if_neg hindex⟩

/-- The slot handed out is one of the ledger's, unspent and of known value. -/
theorem mem_of_chooseSlot {state : PoolState} {slot : PoolSlot}
    (h : Pool.chooseSlot state = some slot) :
    slot ∈ state.slots ∧ slot.state = .unspent ∧ slot.value ≠ none := by
  have husable : slot ∈ Pool.usable state := by
    unfold Pool.chooseSlot at h
    rcases Option.or_eq_some_iff.mp h with hfresh | ⟨_, hreleased⟩
    · exact List.mem_of_find?_eq_some hfresh
    · exact List.mem_mergeSort.mp (List.mem_of_head? hreleased)
  simpa only [Pool.usable, List.mem_filter, decide_eq_true_eq] using husable

/-- Of two lists related in order, every element of the first has a partner. -/
theorem exists_mem_of_forall₂ {α β : Type} {R : α → β → Prop} {xs : List α} {ys : List β}
    (h : List.Forall₂ R xs ys) {x : α} (hmem : x ∈ xs) : ∃ y ∈ ys, R x y := by
  induction h with
  | nil => exact absurd hmem List.not_mem_nil
  | cons hhead _ ih =>
      rcases List.mem_cons.mp hmem with rfl | hmem
      · exact ⟨_, List.mem_cons_self, hhead⟩
      · rcases ih hmem with ⟨y, hy, hrelated⟩
        exact ⟨y, List.mem_cons_of_mem _ hy, hrelated⟩

/-- A slot read again was there before. -/
theorem mem_of_reread {past : Past} {slots slots' : List PoolSlot}
    (h : List.Forall₂ (Reread past) slots slots') {slot' : PoolSlot} (hmem : slot' ∈ slots') :
    ∃ slot ∈ slots, Reread past slot slot' :=
  have hback : List.Forall₂ (flip (Reread past)) slots' slots := .flip h
  exists_mem_of_forall₂ hback hmem

/-- A slot that was there is read again. -/
theorem exists_reread {past : Past} {slots slots' : List PoolSlot}
    (h : List.Forall₂ (Reread past) slots slots') {slot : PoolSlot} (hmem : slot ∈ slots) :
    ∃ slot' ∈ slots', Reread past slot slot' :=
  exists_mem_of_forall₂ h hmem

/-- The instructions create this account. -/
def Creates (instructions : List SetupInstruction) (address : Address) : Prop :=
  (∃ payer base seed amount space program,
    .createAccountWithSeed payer address base seed amount space program ∈ instructions) ∧
  ∃ authority, .initializeNonceAccount address authority ∈ instructions

theorem Creates.cons₂ {instructions : List SetupInstruction} {address : Address}
    (h : Creates instructions address) (i j : SetupInstruction) :
    Creates (i :: j :: instructions) address := by
  rcases h with ⟨⟨payer, base, seed, amount, space, program, hcreate⟩, authority, hinit⟩
  exact ⟨⟨payer, base, seed, amount, space, program,
    List.mem_cons_of_mem _ (List.mem_cons_of_mem _ hcreate)⟩, authority,
    List.mem_cons_of_mem _ (List.mem_cons_of_mem _ hinit)⟩

/-- The slots `create` makes are unspent, of unknown value, never released, at
    the derived address of their index, and the instructions create their accounts. -/
theorem setupSlots_ok {perSlot : Int} {indices : List Nat} {instructions : List SetupInstruction}
    {slots : List PoolSlot}
    (h : Pool.setupSlots pool perSlot indices = .ok (instructions, slots)) {slot : PoolSlot}
    (hslot : slot ∈ slots) :
    deriveNonceAddress pool.kit pool.payer slot.index = .ok slot.address ∧
      slot.value = none ∧ slot.state = .unspent ∧ slot.releasedAt = none ∧
      Creates instructions slot.address := by
  induction indices generalizing instructions slots with
  | nil =>
      rcases Prod.mk.inj (Except.ok.inj h) with ⟨rfl, rfl⟩
      exact absurd hslot List.not_mem_nil
  | cons index indices ih =>
      simp only [Pool.setupSlots, bind, Except.bind] at h
      cases hd : deriveNonceAddress pool.kit pool.payer index with
      | error e => rw [hd] at h; cases h
      | ok address =>
      cases hs : nonceSeed index with
      | error e => rw [hd, hs] at h; cases h
      | ok seed =>
      cases hr : Pool.setupSlots pool perSlot indices with
      | error e => rw [hd, hs, hr] at h; cases h
      | ok rest =>
          -- Nothing threw, so the slot is this index's or one of the rest.
          rw [hd, hs, hr] at h
          rcases Prod.mk.inj (Except.ok.inj h) with ⟨rfl, rfl⟩
          rcases List.mem_cons.mp hslot with rfl | hrest
          · exact ⟨hd, rfl, rfl, rfl, ⟨_, _, _, _, _, _, List.mem_cons_self⟩, _,
              List.mem_cons_of_mem _ List.mem_cons_self⟩
          · rcases ih hr hrest with ⟨hderived, hvalue, hstate, hreleased, hcreates⟩
            exact ⟨hderived, hvalue, hstate, hreleased, hcreates.cons₂ _ _⟩

/-- What `reconcile` made of a slot it rewrote. -/
inductive Rearmed (pool : PoolConfig) (now : Int) (past : Past) (slot : PoolSlot)
    (record : SpentRecord) : PoolSlot → Prop
  | gone {account : NonceAccountState}
      (heard : Heard past (.getNonceAccount slot.address) account)
      (value : account.value = none) :
      Rearmed pool now past slot record (rearmed slot none .unknown none)
  | settled {account : NonceAccountState} {v : Nonce}
      (heard : Heard past (.getNonceAccount slot.address) account)
      (value : account.value = some v) (moved : v ≠ record.value) :
      Rearmed pool now past slot record (rearmed slot v .unspent none)
  | released {account : NonceAccountState}
      (heard : Heard past (.getNonceAccount slot.address) account)
      (value : account.value = some record.value)
      (elapsed : now - record.at' ≥ pool.sendWindowMs) :
      Rearmed pool now past slot record (rearmed slot record.value .unspent (some now))

/-- A slot of a reconciled ledger was there before, or is what was made of a
    spent one. -/
theorem Reconciled.slot_mem {now : Int} {past : Past} {slots : List PoolSlot}
    {x y : PoolState × Reconciliation} (h : Reconciled pool now past slots x y)
    {slot' : PoolSlot} (hslot : slot' ∈ y.1.slots) :
    slot' ∈ x.1.slots ∨ ∃ slot ∈ slots, ∃ record, slot.state = .spent ∧
      slot.spentAgainst = some record ∧ Rearmed pool now past slot record slot' := by
  -- The rest of the loop explains the slot, or it was put in by this step.
  have hput : ∀ {slot : PoolSlot} {rest : List PoolSlot} {record : SpentRecord}
      {state : PoolState} {put : PoolSlot}, slot.state = .spent →
      slot.spentAgainst = some record → Rearmed pool now past slot record put →
      (slot' ∈ (withSlot state put).slots ∨ ∃ s ∈ rest, ∃ record, s.state = .spent ∧
        s.spentAgainst = some record ∧ Rearmed pool now past s record slot') →
      slot' ∈ state.slots ∨ ∃ s ∈ slot :: rest, ∃ record, s.state = .spent ∧
        s.spentAgainst = some record ∧ Rearmed pool now past s record slot' := by
    intro slot rest record state put hspent hagainst hrearmed hcase
    rcases hcase with hmem | ⟨s, hs, hrest⟩
    · rcases mem_withSlot hmem with rfl | ⟨hmem, _⟩
      · exact .inr ⟨slot, List.mem_cons_self, record, hspent, hagainst, hrearmed⟩
      · exact .inl hmem
    · exact .inr ⟨s, List.mem_cons_of_mem _ hs, hrest⟩
  have hlater : ∀ {slot : PoolSlot} {rest : List PoolSlot} {state : PoolState},
      (slot' ∈ state.slots ∨ ∃ s ∈ rest, ∃ record, s.state = .spent ∧
        s.spentAgainst = some record ∧ Rearmed pool now past s record slot') →
      slot' ∈ state.slots ∨ ∃ s ∈ slot :: rest, ∃ record, s.state = .spent ∧
        s.spentAgainst = some record ∧ Rearmed pool now past s record slot' :=
    fun hcase => hcase.imp_right fun ⟨s, hs, hrest⟩ => ⟨s, List.mem_cons_of_mem _ hs, hrest⟩
  induction h with
  | nil x => exact .inl hslot
  | skip _ _ ih => exact hlater (ih hslot)
  | gone spent against heard value _ ih =>
      exact hput spent against (.gone heard value) (ih hslot)
  | settled spent against heard value moved _ ih =>
      exact hput spent against (.settled heard value moved) (ih hslot)
  | released spent against heard value elapsed _ ih =>
      exact hput spent against (.released heard value elapsed) (ih hslot)
  | pending _ _ _ _ _ _ ih => exact hlater (ih hslot)

/-- Reconciling slots leaves the log alone. -/
theorem Reconciled.spendLog_eq {now : Int} {past : Past} {slots : List PoolSlot}
    {x y : PoolState × Reconciliation} (h : Reconciled pool now past slots x y) :
    y.1.spendLog = x.1.spendLog := by
  induction h with
  | nil => rfl
  | skip _ _ ih => exact ih
  | gone _ _ _ _ _ ih => exact ih
  | settled _ _ _ _ _ _ ih => exact ih
  | released _ _ _ _ _ _ ih => exact ih
  | pending _ _ _ _ _ _ ih => exact ih

end Vadum
