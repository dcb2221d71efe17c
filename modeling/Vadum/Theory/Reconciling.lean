import Vadum.Theory.Reserving

/-!
# Reconciling against a Snapshot

What `reconcile` makes of a ledger when every account it reads is as one
snapshot of the chain has it. The loop walks one list of slots and rewrites
another by index, and keeps three lists of what it found. On a well-formed
ledger the two lists agree, so the loop is a map: each spent slot has one fate,
which decides both what becomes of the slot and which list its index joins.

## Main definitions

* `Fate`, `fateOf`: What becomes of a spent slot.
* `reconciledSlot`, `fated`: The slot afterwards, and the indices of a fate.
* `Reconciles`: A run of `reconcile` that finds a ledger and leaves another.
* `Classifies`: What a reconciliation promises.

## Theorems

* `run_reconcileSlots`: The loop is a map.
* `reconcile_classifies`: A reconciliation classifies every spent slot exactly
  once, and the next one on the same snapshot changes nothing.
-/

namespace Vadum

open Async.Process

variable {ρ : Type}

section Fate

variable (pool : PoolConfig) (now : Int) (chain : Address → NonceAccountState)

/-- What becomes of a spent slot: its account is gone, its payment has landed, it
    is released with its value unchanged, or it must wait. -/
inductive Fate where
  | gone
  | landed (value : Nonce)
  | released (value : Nonce)
  | pending
deriving DecidableEq

/-- The fate of a slot, if it is spent. -/
def fateOf (slot : PoolSlot) : Option Fate :=
  match slot.state, slot.spentAgainst with
  | .spent, some record =>
    match (chain slot.address).value with
    | none => some .gone
    | some value =>
      if value ≠ record.value then some (.landed value)
      else if now - record.at' ≥ pool.sendWindowMs then some (.released value)
      else some .pending
  | _, _ => none

/-- The slot after reconciliation. -/
def reconciledSlot (slot : PoolSlot) : PoolSlot :=
  match fateOf pool now chain slot with
  | some .gone => rearmed slot none .unknown none
  | some (.landed value) => rearmed slot value .unspent none
  | some (.released value) => rearmed slot value .unspent (some now)
  | _ => slot

def Fate.isReleased : Fate → Bool
  | .gone => true
  | .released _ => true
  | _ => false

def Fate.isLanded : Fate → Bool
  | .landed _ => true
  | _ => false

def Fate.isPending : Fate → Bool
  | .pending => true
  | _ => false

/-- The indices of the slots with such a fate, in order. -/
def fated (p : Fate → Bool) (slots : List PoolSlot) : List Nat :=
  (slots.filter fun slot => (fateOf pool now chain slot).any p).map PoolSlot.index

/-- The three lists of a reconciliation of some slots. -/
def reconciliationOf (slots : List PoolSlot) : Reconciliation where
  released := fated pool now chain Fate.isReleased slots
  settled := fated pool now chain Fate.isLanded slots
  stillPending := fated pool now chain Fate.isPending slots

variable {pool now chain}

theorem reconciledSlot_index (slot : PoolSlot) :
    (reconciledSlot pool now chain slot).index = slot.index := by
  unfold reconciledSlot
  split <;> rfl

theorem fateOf_eq_none {slot : PoolSlot}
    (h : ¬ ∃ record, slot.state = .spent ∧ slot.spentAgainst = some record) :
    fateOf pool now chain slot = none := by
  unfold fateOf
  split
  · next record hstate hrecord => exact absurd ⟨record, hstate, hrecord⟩ h
  · rfl

/-- Only a spent slot has a fate, and a well-formed spent slot has one. -/
theorem fateOf_isSome {slot : PoolSlot} (hok : SlotOk pool slot) :
    (fateOf pool now chain slot).isSome = true ↔ slot.state = .spent := by
  unfold fateOf
  split
  · next record hstate hrecord =>
    refine iff_of_true ?_ hstate
    split
    · rfl
    · split
      · rfl
      · split <;> rfl
  · next hnot =>
    refine iff_of_false Bool.false_ne_true fun hstate => ?_
    rcases Option.isSome_iff_exists.mp (hok.spent.mpr hstate) with ⟨record, hrecord⟩
    exact hnot record hstate hrecord

/-- What is fated to wait stays as it is, and nothing else is spent afterwards. -/
theorem reconciledSlot_state (slot : PoolSlot) (hok : SlotOk pool slot) :
    (reconciledSlot pool now chain slot).state = .spent ↔
      (fateOf pool now chain slot).any Fate.isPending = true := by
  have hspent := @fateOf_isSome pool now chain slot hok
  unfold reconciledSlot
  rcases hfate : fateOf pool now chain slot with _ | fate
  · rw [hfate] at hspent
    exact iff_of_false (fun h => by cases hspent.mpr h) Bool.false_ne_true
  · rw [hfate] at hspent
    cases fate with
    | gone => exact iff_of_false nofun Bool.false_ne_true
    | landed value => exact iff_of_false nofun Bool.false_ne_true
    | released value => exact iff_of_false nofun Bool.false_ne_true
    | pending => exact iff_of_true (hspent.mp rfl) rfl

/-- A slot that was reconciled has no fate any more, but to wait. -/
theorem fateOf_reconciledSlot (slot : PoolSlot) :
    fateOf pool now chain (reconciledSlot pool now chain slot) =
      if (fateOf pool now chain slot).any Fate.isPending = true then some .pending else none := by
  rcases hfate : fateOf pool now chain slot with _ | fate
  · rw [reconciledSlot, hfate]
    exact hfate
  · cases fate <;> rw [reconciledSlot, hfate]
    · rfl
    · rfl
    · rfl
    · exact hfate

theorem fated_nil (p : Fate → Bool) : fated pool now chain p [] = [] := rfl

theorem fated_cons (p : Fate → Bool) (slot : PoolSlot) (slots : List PoolSlot) :
    fated pool now chain p (slot :: slots)
      = fated pool now chain p [slot] ++ fated pool now chain p slots := by
  rw [fated, ← List.singleton_append, List.filter_append, List.map_append]
  rfl

theorem fated_single (p : Fate → Bool) (slot : PoolSlot) :
    fated pool now chain p [slot]
      = if (fateOf pool now chain slot).any p = true then [slot.index] else [] := by
  rw [fated, List.filter_cons, List.filter_nil]
  split <;> rfl

/-- Putting a slot in where one of its index stands, and only there. -/
theorem withSlot_middle {state : PoolState} {before after : List PoolSlot} {slot put : PoolSlot}
    (h : (before ++ slot :: after).Pairwise fun a b => a.index < b.index)
    (hindex : put.index = slot.index) :
    withSlot { state with slots := before ++ slot :: after } put
      = { state with slots := (before ++ [put]) ++ after } := by
  rcases List.pairwise_append.mp h with ⟨_, hafter, hbefore⟩
  have hleave : ∀ slots : List PoolSlot, (∀ other ∈ slots, other.index ≠ slot.index) →
      slots.map (fun other => if other.index = put.index then put else other) = slots :=
    fun slots hne => (List.map_congr_left fun other hother =>
      if_neg (hindex ▸ hne other hother)).trans (List.map_id slots)
  have hslots : (before ++ slot :: after).map
      (fun other => if other.index = put.index then put else other)
      = (before ++ [put]) ++ after := by
    rw [List.map_append, List.map_cons, if_pos hindex.symm, List.append_assoc,
      List.singleton_append, hleave before fun other hother =>
        (hbefore other hother slot List.mem_cons_self).ne, hleave after fun other hother =>
        ((List.pairwise_cons.mp hafter).1 other hother).ne']
  rw [withSlot]
  exact congrArg (fun slots => { state with slots }) hslots

end Fate

section Run

variable {network : Network ρ} {pool : PoolConfig} {now : Int}
  {chain : Address → NonceAccountState}

/-- Reading a slot reads the snapshot. -/
theorem run_readValue
    (hsnapshot : ∀ n address, (network.rpc (.getNonceAccount address) n).1 = .ok (chain address))
    (slot : PoolSlot) (s : Option PoolState) (w : World ρ) :
    ∃ lamports net, run (reply network) (Pool.readValue slot) s w
      = ⟨.ok ((chain slot.address).value, lamports), s, ⟨w.store, net⟩⟩ := by
  have hreply : (reply network (.rpc (.getNonceAccount slot.address)) w).1
      = .ok (chain slot.address) := hsnapshot _ _
  simp only [Pool.readValue, getNonceAccount, rpc, run_bind, run_request (I := client), hreply]
  cases chain slot.address with
  | absent => exact ⟨0, _, rfl⟩
  | uninitialized => exact ⟨0, _, rfl⟩
  | initialized authority value lamports => exact ⟨lamports, _, rfl⟩

theorem reconcileSlots_skip {state : PoolState} {slot : PoolSlot}
    (h : ¬ ∃ record, slot.state = .spent ∧ slot.spentAgainst = some record)
    (r : Reconciliation) (slots : List PoolSlot) :
    Pool.reconcileSlots pool now state r (slot :: slots)
      = Pool.reconcileSlots pool now state r slots := by
  rw [Pool.reconcileSlots]
  rintro _ _ _ record _ rfl
  exact h ⟨record, rfl, rfl⟩

/-- One turn of the loop. -/
theorem run_reconcileSlots_cons
    (hsnapshot : ∀ n address, (network.rpc (.getNonceAccount address) n).1 = .ok (chain address))
    {state : PoolState} {slot : PoolSlot} (hsame : withSlot state slot = state)
    (r : Reconciliation) (slots : List PoolSlot) (s : Option PoolState) (w : World ρ) :
    ∃ net, run (reply network) (Pool.reconcileSlots pool now state r (slot :: slots)) s w
      = run (reply network) (Pool.reconcileSlots pool now
          (withSlot state (reconciledSlot pool now chain slot))
          ⟨r.released ++ fated pool now chain Fate.isReleased [slot],
            r.settled ++ fated pool now chain Fate.isLanded [slot],
            r.stillPending ++ fated pool now chain Fate.isPending [slot]⟩ slots) s
          ⟨w.store, net⟩ := by
  by_cases hspent : ∃ record, slot.state = .spent ∧ slot.spentAgainst = some record
  · rcases hspent with ⟨record, hstate, hagainst⟩
    rcases run_readValue hsnapshot slot s w with ⟨lamports, net, hread⟩
    refine ⟨net, ?_⟩
    rcases slot with ⟨index, address, value, slotState, against, releasedAt⟩
    cases hstate
    cases hagainst
    rw [Pool.reconcileSlots, run_bind_ok _ hread]
    -- The four fates of a spent slot, one for each branch of the loop's body.
    cases hvalue : (chain address).value with
    | none => simp [fated_single, reconciledSlot, fateOf, hvalue, Fate.isReleased, Fate.isLanded,
        Fate.isPending]
    | some v =>
        by_cases hmoved : v ≠ record.value
        · simp [fated_single, reconciledSlot, fateOf, hvalue, hmoved, Fate.isReleased,
            Fate.isLanded, Fate.isPending]
        by_cases helapsed : now - record.at' ≥ pool.sendWindowMs
        · simp [fated_single, reconciledSlot, fateOf, hvalue, hmoved, helapsed, Fate.isReleased,
            Fate.isLanded, Fate.isPending]
        · simp [fated_single, reconciledSlot, fateOf, hvalue, hmoved, helapsed, Fate.isReleased,
            Fate.isLanded, Fate.isPending, hsame]
  · have hfate : fateOf pool now chain slot = none := fateOf_eq_none hspent
    refine ⟨w.net, ?_⟩
    rw [reconcileSlots_skip hspent]
    simp only [fated_single, reconciledSlot, hfate, Option.any_none, Bool.false_eq_true,
      if_false, List.append_nil, hsame]

/-- The loop maps what is left of the slots, and adds their fates to its lists. -/
theorem run_reconcileSlots
    (hsnapshot : ∀ n address, (network.rpc (.getNonceAccount address) n).1 = .ok (chain address))
    {state : PoolState} {before slots : List PoolSlot}
    (h : (before ++ slots).Pairwise fun a b => a.index < b.index) (r : Reconciliation)
    (s : Option PoolState) (w : World ρ) :
    ∃ net, run (reply network)
        (Pool.reconcileSlots pool now { state with slots := before ++ slots } r slots) s w
      = ⟨.ok ({ state with slots := before ++ slots.map (reconciledSlot pool now chain) },
          ⟨r.released ++ fated pool now chain Fate.isReleased slots,
            r.settled ++ fated pool now chain Fate.isLanded slots,
            r.stillPending ++ fated pool now chain Fate.isPending slots⟩), s, ⟨w.store, net⟩⟩ := by
  induction slots generalizing before r w with
  | nil =>
      refine ⟨w.net, ?_⟩
      simp only [List.append_nil, List.map_nil, fated_nil]
      rfl
  | cons slot slots ih =>
      have hsame : withSlot { state with slots := before ++ slot :: slots } slot
          = { state with slots := before ++ slot :: slots } := by
        rw [withSlot_middle h rfl, List.append_assoc, List.singleton_append]
      have hindex := @reconciledSlot_index pool now chain slot
      rcases run_reconcileSlots_cons hsnapshot hsame r slots s w with ⟨net, hturn⟩
      rw [hturn, withSlot_middle h hindex]
      -- Looking at a slot leaves its index, so the rest is still in order.
      have hrest : ((before ++ [reconciledSlot pool now chain slot]) ++ slots).Pairwise
          fun a b => a.index < b.index := by
        refine increasing_congr ?_ h
        simp only [List.map_append, List.map_cons, List.append_assoc, List.singleton_append,
          hindex]
      rcases ih hrest _ ⟨w.store, net⟩ with ⟨net', hloop⟩
      refine ⟨net', hloop.trans ?_⟩
      rw [fated_cons Fate.isReleased slot slots, fated_cons Fate.isLanded slot slots,
        fated_cons Fate.isPending slot slots, List.map_cons]
      simp only [List.append_assoc, List.singleton_append]

/-- A run of `reconcile` that leaves this ledger: it is written to memory, and
    once the store has taken it the run resolves with these lists. -/
def Reconciles (network : Network ρ) (pool : PoolConfig) (now : Int) (s : Option PoolState)
    (w : World ρ) (state' : PoolState) (r : Reconciliation) : Prop :=
  ∃ net, run (reply network) (Pool.reconcile pool now) s w = match network.storage net with
    | (none, net') => ⟨.ok r, some state', ⟨w.store.insert (.pool pool.payer) state', net'⟩⟩
    | (some e, net') => ⟨.error e, some state', ⟨w.store, net'⟩⟩

/-- A reconciliation maps the slots of the ledger it finds. -/
theorem run_reconcile
    (hsnapshot : ∀ n address, (network.rpc (.getNonceAccount address) n).1 = .ok (chain address))
    {state : PoolState} (h : state.slots.Pairwise fun a b => a.index < b.index)
    {s : Option PoolState} {w : World ρ} {net : ρ} (hfinds : Finds network pool s w state net) :
    Reconciles network pool now s w
      { state with slots := state.slots.map (reconciledSlot pool now chain) }
      (reconciliationOf pool now chain state.slots) := by
  have hloop : ∃ net', run (reply network)
      (Pool.reconcileSlots pool now state ⟨[], [], []⟩ state.slots) (some state)
      ⟨w.store, network.tick net⟩
      = ⟨.ok ({ state with slots := state.slots.map (reconciledSlot pool now chain) },
          reconciliationOf pool now chain state.slots), some state, ⟨w.store, net'⟩⟩ :=
    @run_reconcileSlots ρ network pool now chain hsnapshot state [] state.slots h _ _ _
  rcases hloop with ⟨net', hloop⟩
  refine ⟨net', ?_⟩
  rw [Pool.reconcile, run_bind_ok _ (run_awaited_loaded hfinds), run_bind_ok _ hloop]
  simp only [run_bind, run_persist]
  rcases network.storage net' with ⟨_ | e, net''⟩
  · rfl
  · rfl

/-- What a reconciliation promises. Together its lists have the index of each
    spent slot exactly once, and no other. A slot is still spent exactly if its
    index is among those still pending, and one left unspent with the value it
    was spent against was spent at least a send window ago. All other slots, the
    log and the rest of the ledger stay. -/
structure Classifies (pool : PoolConfig) (now : Int) (state : PoolState) (r : Reconciliation)
    (state' : PoolState) : Prop where
  lists : (r.released ++ r.settled ++ r.stillPending).Perm
    ((state.slots.filter fun slot => slot.state = .spent).map PoolSlot.index)
  once : (r.released ++ r.settled ++ r.stillPending).Nodup
  spent : ∀ slot' ∈ state'.slots, slot'.state = .spent ↔ slot'.index ∈ r.stillPending
  elapsed : ∀ slot ∈ state.slots, ∀ record, slot.state = .spent →
    slot.spentAgainst = some record → ∀ slot' ∈ state'.slots, slot'.index = slot.index →
    slot'.state = .unspent → slot'.value = some record.value →
    now - record.at' ≥ pool.sendWindowMs
  indices : state'.slots.map PoolSlot.index = state.slots.map PoolSlot.index
  kept : ∀ slot ∈ state.slots, slot.state ≠ .spent ∨ slot.index ∈ r.stillPending →
    slot ∈ state'.slots
  rest : state' = { state with slots := state'.slots }

/-- The three lists of the fates of well-formed slots are those of the spent. -/
theorem fated_perm {slots : List PoolSlot} (hok : ∀ slot ∈ slots, SlotOk pool slot) :
    (fated pool now chain Fate.isReleased slots ++ fated pool now chain Fate.isLanded slots
      ++ fated pool now chain Fate.isPending slots).Perm
      ((slots.filter fun slot => slot.state = .spent).map PoolSlot.index) := by
  refine List.perm_iff_count.mpr fun i => ?_
  induction slots with
  | nil => rfl
  | cons slot slots ih =>
      have hrest := ih fun s hs => hok s (List.mem_cons_of_mem _ hs)
      have hspent := @fateOf_isSome pool now chain slot (hok slot List.mem_cons_self)
      rw [fated_cons Fate.isReleased slot slots, fated_cons Fate.isLanded slot slots,
        fated_cons Fate.isPending slot slots]
      simp only [fated_single, List.filter_cons, List.count_append] at hrest ⊢
      -- A spent slot has one fate, so it is in exactly one of the three lists.
      rcases hfate : fateOf pool now chain slot with _ | fate
      · rw [hfate] at hspent
        have hnot : ¬ slot.state = .spent := fun h => by cases hspent.mpr h
        simpa only [Option.any_none, Bool.false_eq_true, if_false, List.count_nil, Nat.zero_add,
          hnot, decide_false] using hrest
      · rw [hfate] at hspent
        have hyes : slot.state = .spent := hspent.mp rfl
        simp only [hyes, decide_true, if_true, List.map_cons, List.count_cons, ← hrest]
        cases fate <;> simp only [Option.any_some, Fate.isReleased, Fate.isLanded, Fate.isPending,
          if_true, Bool.false_eq_true, if_false, List.count_singleton, List.count_nil] <;> omega

/-- A pending slot, or one that was not spent, stays. -/
theorem reconciledSlot_eq {slot : PoolSlot} (hok : SlotOk pool slot)
    (h : slot.state ≠ .spent ∨ (fateOf pool now chain slot).any Fate.isPending = true) :
    reconciledSlot pool now chain slot = slot := by
  have hspent := @fateOf_isSome pool now chain slot hok
  unfold reconciledSlot
  rcases hfate : fateOf pool now chain slot with _ | fate
  · rfl
  · rw [hfate] at hspent h
    have hpending := h.resolve_left fun hne => hne (hspent.mp rfl)
    cases fate with
    | pending => rfl
    | gone => cases hpending
    | landed value => cases hpending
    | released value => cases hpending

/-- A slot left unspent with the value it was spent against was released. -/
theorem elapsed_of_reconciledSlot {slot : PoolSlot} {record : SpentRecord}
    (hspent : slot.state = .spent) (hrecord : slot.spentAgainst = some record)
    (hunspent : (reconciledSlot pool now chain slot).state = .unspent)
    (hvalue : (reconciledSlot pool now chain slot).value = some record.value) :
    now - record.at' ≥ pool.sendWindowMs := by
  rcases slot with ⟨index, address, value, slotState, against, releasedAt⟩
  cases hspent
  cases hrecord
  simp only [reconciledSlot, fateOf] at hunspent hvalue
  cases hread : (chain address).value with
  | none =>
      simp only [hread] at hunspent
      cases hunspent
  | some v =>
      by_cases hmoved : v ≠ record.value
      · simp only [hread, if_pos hmoved] at hvalue
        exact absurd (Option.some.inj hvalue) hmoved
      by_cases helapsed : now - record.at' ≥ pool.sendWindowMs
      · exact helapsed
      · simp only [hread, if_neg hmoved, if_neg helapsed] at hunspent
        cases hunspent

/-- The indices of a fate are those of the slots that have it. -/
theorem mem_fated {p : Fate → Bool} {slots : List PoolSlot}
    (h : slots.Pairwise fun a b => a.index < b.index) {slot : PoolSlot} (hslot : slot ∈ slots) :
    slot.index ∈ fated pool now chain p slots ↔ (fateOf pool now chain slot).any p = true := by
  refine ⟨fun hmem => ?_,
    fun hfate => List.mem_map.mpr ⟨slot, List.mem_filter.mpr ⟨hslot, hfate⟩, rfl⟩⟩
  rcases List.mem_map.mp hmem with ⟨other, hother, hindex⟩
  rcases List.mem_filter.mp hother with ⟨hother, hfate⟩
  rwa [eq_of_index_eq h hother hslot hindex] at hfate

/-- The slots that are left have no fate but to wait. -/
theorem fated_reconciled (p : Fate → Bool) (slots : List PoolSlot) :
    fated pool now chain p (slots.map (reconciledSlot pool now chain))
      = if p .pending = true then fated pool now chain Fate.isPending slots else [] := by
  induction slots with
  | nil => split <;> rfl
  | cons slot slots ih =>
      rw [List.map_cons, fated_cons, ih, fated_single, fateOf_reconciledSlot,
        fated_cons Fate.isPending slot slots, fated_single, reconciledSlot_index]
      by_cases hpending : (fateOf pool now chain slot).any Fate.isPending = true
      · simp only [if_pos hpending, Option.any_some]
        split <;> rfl
      · simp only [if_neg hpending, Option.any_none, Bool.false_eq_true, if_false,
          List.nil_append]

theorem reconciledSlot_reconciledSlot (slot : PoolSlot) :
    reconciledSlot pool now chain (reconciledSlot pool now chain slot)
      = reconciledSlot pool now chain slot := by
  rw [reconciledSlot, fateOf_reconciledSlot]
  by_cases hpending : (fateOf pool now chain slot).any Fate.isPending = true
  · rw [if_pos hpending]
  · rw [if_neg hpending]

/-- A reconciliation classifies every spent slot of a well-formed ledger exactly
    once, whatever the time and the snapshot. One more on the ledger it left
    finds the same pending, and changes nothing. -/
theorem reconcile_classifies (network : Network ρ) (pool : PoolConfig)
    (chain : Address → NonceAccountState)
    (hsnapshot : ∀ n address, (network.rpc (.getNonceAccount address) n).1 = .ok (chain address))
    (state : PoolState) (hwf : WellFormed pool state) (now : Int) :
    ∃ r state', Classifies pool now state r state' ∧
      (∀ s w net, Finds network pool s w state net →
        Reconciles network pool now s w state' r) ∧
      ∀ s w net, Finds network pool s w state' net →
        Reconciles network pool now s w state' ⟨[], [], r.stillPending⟩ := by
  have hindex : (state.slots.map (reconciledSlot pool now chain)).map PoolSlot.index
      = state.slots.map PoolSlot.index := by
    rw [List.map_map]
    exact List.map_congr_left fun slot _ => reconciledSlot_index slot
  refine ⟨reconciliationOf pool now chain state.slots,
    { state with slots := state.slots.map (reconciledSlot pool now chain) }, ?_,
    fun s w net hfinds => run_reconcile hsnapshot hwf.increasing hfinds, fun s w net hfinds => ?_⟩
  · have hperm := @fated_perm pool now chain state.slots hwf.slots
    refine ⟨hperm, hperm.nodup_iff.mpr ?_, fun slot' hslot' => ?_, ?_, hindex, ?_, rfl⟩
    · have hnodup : (state.slots.map PoolSlot.index).Nodup :=
        List.pairwise_map.mpr (hwf.increasing.imp fun hlt => hlt.ne)
      exact hnodup.sublist (List.filter_sublist.map _)
    · rcases List.mem_map.mp hslot' with ⟨slot, hslot, rfl⟩
      rw [reconciledSlot_index, reconciledSlot_state slot (hwf.slots slot hslot)]
      exact (mem_fated hwf.increasing hslot).symm
    · intro slot hslot record hspent hrecord slot' hslot' hsame hunspent hvalue
      rcases List.mem_map.mp hslot' with ⟨other, hother, rfl⟩
      rw [reconciledSlot_index] at hsame
      cases eq_of_index_eq hwf.increasing hother hslot hsame
      exact elapsed_of_reconciledSlot hspent hrecord hunspent hvalue
    · intro slot hslot hstays
      have hstays := hstays.imp_right
        (@mem_fated pool now chain Fate.isPending _ hwf.increasing _ hslot).mp
      exact List.mem_map.mpr ⟨slot, hslot, reconciledSlot_eq (hwf.slots slot hslot) hstays⟩
  · -- A second time, every fate but waiting is gone, and the slots stay what they are.
    have hagain := @run_reconcile ρ network pool now chain hsnapshot _
      (increasing_congr hindex hwf.increasing) s w net hfinds
    have hlists : reconciliationOf pool now chain
        (state.slots.map (reconciledSlot pool now chain))
        = ⟨[], [], fated pool now chain Fate.isPending state.slots⟩ := by
      simp only [reconciliationOf, fated_reconciled]
      rfl
    have hslots : (state.slots.map (reconciledSlot pool now chain)).map
        (reconciledSlot pool now chain) = state.slots.map (reconciledSlot pool now chain) := by
      rw [List.map_map]
      exact List.map_congr_left fun slot _ => reconciledSlot_reconciledSlot slot
    simp only [hlists, hslots] at hagain
    exact hagain

/-- A chain where nothing happens. -/
def stillChain (address : Address) : NonceAccountState :=
  if address = (testAccount 0 (testNonce 7)).1 then .absent
  else .initialized testPool.payer (testNonce 7) 1056640

def stillNetwork : Network Unit where
  rpc := fun c _ => match c with
    | .getNonceRentExemption => (.ok 1056640, ())
    | .getRentExemption _ => (.ok 890880, ())
    | .getMintAccount _ => (.error testKit.unexpectedSigner, ())
    | .getNonceAccount address => (.ok (stillChain address), ())
    | .getBalance _ => (.ok 1000000000, ())
    | .getSignatureOutcome _ => (.ok .absent, ())
    | .sendSetup _ _ => (.error testKit.unexpectedSigner, ())
    | .sendPayment _ _ => (.error testKit.unexpectedSigner, ())
  storage := fun _ => (none, ())
  sign := fun key message _ => (testSignature key.publicKey message, ())
  clock := fun _ => 0
  randomUUID := fun _ => ("epoch", ())
  tick := id

/-- A spent slot of the test pool, reserved at time 0. -/
def spentSlot (index : Nat) (n : UInt8) : PoolSlot where
  index
  address := (testAccount index (testNonce n)).1
  value := some (testNonce n)
  state := .spent
  spentAgainst := some ⟨testNonce n, testAddress 2, 0⟩
  releasedAt := none

/-- Three slots are spent: the account of the first is gone, the payment of the
    second has landed, and that of the third has not. -/
def threeSpent : PoolState where
  payer := testPool.payer
  size := 3
  epoch := "epoch"
  slots := [spentSlot 0 7, spentSlot 1 6, spentSlot 2 7]
  spendLog := none

theorem wellFormed_threeSpent : WellFormed testPool threeSpent where
  increasing := by decide
  slots := fun slot hslot => by
    have hderived : deriveNonceAddress testKit testPool.payer slot.index = .ok slot.address := by
      rcases List.mem_cons.mp hslot with rfl | hslot
      · rfl
      rcases List.mem_cons.mp hslot with rfl | hslot
      · rfl
      rcases List.mem_singleton.mp hslot with rfl
      rfl
    simp only [threeSpent, List.mem_cons, List.not_mem_nil, or_false] at hslot
    rcases hslot with rfl | rfl | rfl <;> exact ⟨by decide, hderived, by decide, by decide⟩
  positive := fun entry hentry => by cases hentry

theorem reconcile_classifies_threeSpent :
    ∃ r state', Classifies testPool sendWindowMs threeSpent r state' ∧
      (∀ s w net, Finds stillNetwork testPool s w threeSpent net →
        Reconciles stillNetwork testPool sendWindowMs s w state' r) ∧
      ∀ s w net, Finds stillNetwork testPool s w state' net →
        Reconciles stillNetwork testPool sendWindowMs s w state' ⟨[], [], r.stillPending⟩ :=
  reconcile_classifies stillNetwork testPool stillChain (fun _ _ => rfl) threeSpent
    wellFormed_threeSpent sendWindowMs

end Run

end Vadum
