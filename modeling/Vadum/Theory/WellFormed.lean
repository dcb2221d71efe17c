import Vadum.Theory.HandOut
import Vadum.Theory.InStep

/-!
# Well-Formed Ledgers

What holds of every ledger a pool ever has, in memory or in the store. Slots
are in the order of their indices, each at its derived address; a slot has a
record if and only if it is spent, and one of unknown state was never released;
and every entry of the spend log counts. Operations rely on it without checking
it: `withSlot` replaces by index, and the choice of a slot goes by order.

A slot is rewritten in place, so what one rewrite has to keep is said of a slot
(`SlotOk`), and each move is a rewrite of some.

## Main definitions

* `SlotOk`, `WellFormed`: A well-formed slot and ledger.

## Theorems

* `WellFormed.move`, `wellFormed_new`: What an operation writes is well formed.
* `reachable_wellFormed`: So is every ledger of a run, and if its store writes
  succeed the one in memory is the one in the store.
-/

namespace Vadum

open Async (history final)

variable {ρ : Type} {pool : PoolConfig}

/-- A well-formed slot. -/
structure SlotOk (pool : PoolConfig) (slot : PoolSlot) : Prop where
  byte : slot.index ≤ 255
  derived : deriveNonceAddress pool.kit pool.payer slot.index = .ok slot.address
  spent : slot.spentAgainst.isSome = true ↔ slot.state = .spent
  released : slot.releasedAt.isSome = true → slot.state ≠ .unknown

/-- A well-formed ledger. -/
structure WellFormed (pool : PoolConfig) (state : PoolState) : Prop where
  increasing : state.slots.Pairwise fun a b => a.index < b.index
  slots : ∀ slot ∈ state.slots, SlotOk pool slot
  positive : ∀ entry ∈ state.spendLog.getD [], 0 < entry.amount

/-- A re-armed slot is well formed. -/
theorem SlotOk.rearmed {slot : PoolSlot} (h : SlotOk pool slot) {value : Option Nonce}
    {state : SlotState} {releasedAt : Option Int} (hstate : state ≠ .spent)
    (hreleased : releasedAt.isSome = true → state ≠ .unknown) :
    SlotOk pool (rearmed slot value state releasedAt) where
  byte := h.byte
  derived := h.derived
  spent := iff_of_false Bool.false_ne_true hstate
  released := hreleased

/-- Being in order is about the indices alone. -/
theorem increasing_congr {slots slots' : List PoolSlot}
    (hindex : slots'.map PoolSlot.index = slots.map PoolSlot.index)
    (h : slots.Pairwise fun a b => a.index < b.index) :
    slots'.Pairwise fun a b => a.index < b.index := by
  have hincreasing : (slots.map PoolSlot.index).Pairwise (· < ·) := List.pairwise_map.mpr h
  rw [← hindex] at hincreasing
  exact List.pairwise_map.mp hincreasing

/-- Slots of increasing indices that share one are the same. -/
theorem eq_of_index_eq {slots : List PoolSlot}
    (h : slots.Pairwise fun a b => a.index < b.index) {a b : PoolSlot} (ha : a ∈ slots)
    (hb : b ∈ slots) (hindex : a.index = b.index) : a = b := by
  by_contra hne
  let Differ (x y : PoolSlot) : Prop := x.index ≠ y.index
  have : Std.Symm Differ := ⟨fun _ _ => Ne.symm⟩
  have hdiffer : slots.Pairwise Differ := h.imp fun hlt => hlt.ne
  exact hdiffer.forall ha hb hne hindex

/-- Slots that are rewritten in place stay in order. -/
theorem increasing_map {slots : List PoolSlot} {f : PoolSlot → PoolSlot}
    (h : slots.Pairwise fun a b => a.index < b.index) (hf : ∀ slot, (f slot).index = slot.index) :
    (slots.map f).Pairwise fun a b => a.index < b.index := by
  refine List.pairwise_map.mpr (h.imp fun {a b} hab => ?_)
  rw [hf a, hf b]
  exact hab

/-- Putting a well-formed slot in keeps a ledger well formed. -/
theorem WellFormed.withSlot {state : PoolState} (h : WellFormed pool state) {slot : PoolSlot}
    (hslot : SlotOk pool slot) : WellFormed pool (withSlot state slot) where
  increasing := by
    refine increasing_map h.increasing fun candidate => ?_
    split
    · next hindex => exact hindex.symm
    · rfl
  slots := fun slot' hmem => by
    rcases mem_withSlot hmem with rfl | ⟨hmem, _⟩
    · exact hslot
    · exact h.slots slot' hmem
  positive := h.positive

theorem positive_counted {log : Option (List SpendEntry)} {now windowMs : Int}
    (h : ∀ entry ∈ log.getD [], 0 < entry.amount) :
    ∀ entry ∈ counted log now windowMs, 0 < entry.amount :=
  fun entry hentry => h entry (List.mem_of_mem_filter hentry)

/-- A reservation leaves a well-formed ledger. -/
theorem WellFormed.reserved {state : PoolState} (h : WellFormed pool state) {slot : PoolSlot}
    (hslot : slot ∈ state.slots) {value : Nonce} {merchant : Address} {now amount : Int}
    (hamount : 0 < amount) :
    WellFormed pool (reserved pool state slot value merchant now amount) := by
  have hok : SlotOk pool
      { slot with state := .spent, spentAgainst := some ⟨value, merchant, now⟩ } :=
    ⟨(h.slots slot hslot).byte, (h.slots slot hslot).derived, iff_of_true rfl rfl,
      fun _ => nofun⟩
  have hput := h.withSlot hok
  refine ⟨hput.increasing, hput.slots, fun entry hentry => ?_⟩
  rcases List.mem_append.mp hentry with hentry | hentry
  · exact positive_counted h.positive entry hentry
  · rw [List.mem_singleton.mp hentry]
    exact hamount

/-- Slots read again are those of the same indices. -/
theorem index_of_reread {past : Past} {slots slots' : List PoolSlot}
    (h : List.Forall₂ (Reread past) slots slots') :
    slots'.map PoolSlot.index = slots.map PoolSlot.index := by
  induction h with
  | nil => rfl
  | cons hhead _ ih =>
      rcases hhead with ⟨slot, account, _⟩
      rw [List.map_cons, List.map_cons, ih]

/-- Reading slots again keeps what is said of them. -/
theorem WellFormed.reread {past : Past} {state : PoolState} (h : WellFormed pool state)
    {slots : List PoolSlot} (hslots : List.Forall₂ (Reread past) state.slots slots) :
    WellFormed pool { state with slots } where
  increasing := increasing_congr (index_of_reread hslots) h.increasing
  slots := fun slot' hmem => by
    rcases mem_of_reread hslots hmem with ⟨slot, hslot, hreread⟩
    rcases hreread with ⟨_, account, _⟩
    have hok := h.slots slot hslot
    exact ⟨hok.byte, hok.derived, hok.spent, hok.released⟩
  positive := h.positive

/-- So does reconciling them. -/
theorem WellFormed.reconciled {now : Int} {past : Past} {slots : List PoolSlot}
    {x y : PoolState × Reconciliation} (hslots : Reconciled pool now past slots x y)
    (hok : ∀ slot ∈ slots, SlotOk pool slot) (h : WellFormed pool x.1) : WellFormed pool y.1 := by
  induction hslots with
  | nil => exact h
  | skip _ _ ih => exact ih (fun s hs => hok s (List.mem_cons_of_mem _ hs)) h
  | gone _ _ _ _ _ ih =>
      refine ih (fun s hs => hok s (List.mem_cons_of_mem _ hs)) (h.withSlot ?_)
      exact (hok _ List.mem_cons_self).rearmed nofun nofun
  | settled _ _ _ _ _ _ ih =>
      refine ih (fun s hs => hok s (List.mem_cons_of_mem _ hs)) (h.withSlot ?_)
      exact (hok _ List.mem_cons_self).rearmed nofun nofun
  | released _ _ _ _ _ _ ih =>
      refine ih (fun s hs => hok s (List.mem_cons_of_mem _ hs)) (h.withSlot ?_)
      exact (hok _ List.mem_cons_self).rearmed nofun fun _ => nofun
  | pending _ _ _ _ _ _ ih => exact ih (fun s hs => hok s (List.mem_cons_of_mem _ hs)) h

/-- Every move keeps a ledger well formed. -/
theorem WellFormed.move {past : Past} {op : PoolOp} {state state' : PoolState}
    (h : WellFormed pool state) (hmove : Move pool past op state state') :
    WellFormed pool state' := by
  cases hmove with
  | reserve positive within chosen known =>
      exact h.reserved (mem_of_chooseSlot chosen).1 positive
  | returned found spent against verified =>
      exact h.withSlot ((h.slots _ (List.mem_of_find?_eq_some found)).rearmed nofun nofun)
  | reread online values => exact h.reread values
  | reconciled slots => exact WellFormed.reconciled slots h.slots h
  | closed =>
      refine ⟨increasing_map h.increasing fun _ => rfl, fun slot' hmem => ?_, h.positive⟩
      rcases List.mem_map.mp hmem with ⟨slot, hslot, rfl⟩
      exact (h.slots slot hslot).rearmed nofun nofun

/-- The slots `create` makes are those of the given indices. -/
theorem setupSlots_index {perSlot : Int} {indices : List Nat}
    {instructions : List SetupInstruction} {slots : List PoolSlot}
    (h : Pool.setupSlots pool perSlot indices = .ok (instructions, slots)) :
    slots.map PoolSlot.index = indices ∧ ∀ slot ∈ slots, slot.spentAgainst = none := by
  induction indices generalizing instructions slots with
  | nil =>
      rcases Prod.mk.inj (Except.ok.inj h) with ⟨rfl, rfl⟩
      exact ⟨rfl, fun _ hmem => absurd hmem List.not_mem_nil⟩
  | cons index indices ih =>
      rcases ok_of_bind_ok h with ⟨address, _, h⟩
      rcases ok_of_bind_ok h with ⟨seed, _, h⟩
      rcases ok_of_bind_ok h with ⟨⟨instructions', slots'⟩, hrest, h⟩
      rcases Prod.mk.inj (Except.ok.inj h) with ⟨rfl, rfl⟩
      rcases ih hrest with ⟨hindex, hnone⟩
      refine ⟨by rw [List.map_cons, hindex], fun slot hmem => ?_⟩
      rcases List.mem_cons.mp hmem with rfl | hmem
      · rfl
      · exact hnone slot hmem

/-- A new ledger is well formed, if the one whose log it keeps was. -/
theorem wellFormed_new {past : Past} {op : PoolOp} {seen : Option PoolState} {state : PoolState}
    (hseen : ∀ prior, seen = some prior → WellFormed pool prior)
    (hread : ∀ prior, ReadStore pool past (some prior) → WellFormed pool prior)
    (hnew : NewLedger pool past op seen state) : WellFormed pool state := by
  -- The log of a new ledger is that of the one before, from memory or from the store.
  have hsource : ∀ source : Option PoolState,
      (source = seen ∧ seen ≠ none ∨ seen = none ∧ ReadStore pool past source) →
      ∀ entry ∈ (some ((source.bind PoolState.spendLog).getD [])).getD [], 0 < entry.amount := by
    intro source hprior entry hentry
    cases source with
    | none => cases hentry
    | some prior =>
        suffices hprior : WellFormed pool prior from hprior.positive entry hentry
        rcases hprior with ⟨heq, _⟩ | ⟨_, hread'⟩
        · exact hseen prior heq.symm
        · exact hread prior hread'
  cases hnew with
  | created bounds setup sent prior =>
      rcases setupSlots_index setup with ⟨hindex, hnone⟩
      refine ⟨?_, fun slot hslot => ?_, hsource _ prior⟩
      · refine List.pairwise_map.mp ?_
        rw [hindex]
        exact List.pairwise_lt_range
      · rcases setupSlots_ok setup hslot with ⟨hderived, _, hstate, hreleased, _⟩
        refine ⟨(deriveNonceAddress_ok _ hderived).1, hderived, iff_of_false ?_ ?_, fun h => ?_⟩
        · rw [hnone slot hslot]
          exact Bool.false_ne_true
        · rw [hstate]
          exact nofun
        · rw [hreleased] at h
          cases h
  | recovered probed prior increasing =>
      refine ⟨increasing, fun slot hslot => ?_, hsource _ prior⟩
      rcases probed slot hslot with ⟨hderived, _⟩
      exact ⟨(deriveNonceAddress_ok _ hderived).1, hderived, iff_of_false Bool.false_ne_true nofun,
        nofun⟩

/-- A property of ledgers that is well-formedness, of the ledger if there is one. -/
def LedgerOk (pool : PoolConfig) (_ : ρ) (ledger : Option PoolState) : Prop :=
  ∀ state, ledger = some state → WellFormed pool state

theorem kept_wellFormed (network : Network ρ) (pool : PoolConfig) (op : PoolOp) (sys : PoolSys ρ) :
    Kept network pool op sys (LedgerOk pool) (LedgerOk pool) where
  memory := fun _ _ _ _ h => h
  store := fun _ _ _ _ h => h
  persist := fun _ _ h => h
  load := fun _ _ _ h => h
  move := fun _ _ _ state state' _ _ _ h hmove s hs => by
    rw [← Option.some.inj hs]
    exact (h state rfl).move hmove
  new := fun _ _ _ _ _ _ hread hseen hnew s hs => by
    rw [← Option.some.inj hs]
    exact wellFormed_new (fun prior hprior => hseen prior hprior prior hprior)
      (fun prior hprior => hread _ hprior prior rfl) hnew

/-- A pool that was never used has no ledger. -/
theorem ledgers_fresh {sys : PoolSys ρ} (hfresh : sys.Fresh pool) :
    Ledgers pool (LedgerOk pool) (LedgerOk pool) sys := by
  refine ⟨fun state hs => ?_, fun state hs => ?_⟩
  · rw [hfresh.1] at hs
    cases hs
  · rw [hfresh.2] at hs
    cases hs

/-- Both ledgers of a pool are well formed after a run. -/
theorem ledgers_wellFormed (network : Network ρ) {sys : PoolSys ρ} (hfresh : sys.Fresh pool)
    (commands : List PoolCommand) :
    Ledgers pool (LedgerOk pool) (LedgerOk pool)
      (final (poolStep network pool) sys commands) :=
  (@Async.history_invariant _ _ _ (poolStep network pool)
    (Ledgers pool (LedgerOk pool) (LedgerOk pool)) (fun _ => True)
    (fun _ _ h _ => command_kept (fun op _ => kept_wellFormed network pool op _) h) sys commands
    (ledgers_fresh hfresh) fun _ _ => trivial).1

/-- Every ledger of a run is well formed, in memory and in the store. If no store
    write of the run failed, the one in memory, if it has been read, is the one
    in the store, and while one object is used the two are the same. -/
theorem reachable_wellFormed (network : Network ρ) (pool : PoolConfig) (sys : PoolSys ρ)
    (hfresh : sys.Fresh pool) (commands : List PoolCommand) :
    let after := final (poolStep network pool) sys commands
    (∀ state, after.current = some state ∨ after.stored pool = some state →
      WellFormed pool state) ∧
    ((∀ e ∈ poolHistory network pool sys commands, WritesSucceed network pool e) →
      InStep pool after ∧ ((∀ command ∈ commands, ∃ op, command = .call op) →
        after.current = after.stored pool)) := by
  have hend := ledgers_wellFormed network hfresh commands
  refine ⟨?_, fun hwrites => ⟨inStep_final (.inl hfresh.1) hwrites, fun hcalls =>
    same_final (hfresh.1.trans hfresh.2.symm) hcalls hwrites⟩⟩
  rintro state (hs | hs)
  · exact hend.memory state hs state hs
  · exact hend.store state hs

/-- A slot is made, reserved, released and reserved again. -/
theorem reachable_wellFormed_releasingRun :
    let after := final (poolStep setupOnce testPool) releasingStart releasingRun
    after.current.isSome = true ∧
      (∀ state, after.current = some state ∨ after.stored testPool = some state →
        WellFormed testPool state) ∧ InStep testPool after := by
  have h := reachable_wellFormed setupOnce testPool releasingStart ⟨rfl, rfl⟩ releasingRun
  refine ⟨by decide +kernel, h.1, (h.2 fun e _ => ?_).1⟩
  exact writesSucceed_of_works (fun _ => rfl) testPool e

end Vadum
