import Vadum.Theory.PoolRuns
import Vadum.Theory.Slots

/-!
# What a Ledger Shows

When several calls of a pool run at the same time, there is more than one
ledger: the one in memory, those that calls have seen and will write back, and
those on their way to the store. What can be asked of each of them is how many
of the reservations made so far it shows. A ledger shows a reservation if the
slot is spent against it, unless it was re-armed since, and if the amount is in
the spend log.

The log of a schedule is the measure: `Shows` relates a ledger to all that has
happened up to some moment. A write over a ledger that shows everything shows
everything too.

## Main definitions

* `PoolLog`: What has happened, by which call.
* `AtOnce`: The operations that are called at the same time.
* `Rearms`: A write that re-arms a slot.
* `Stands`: A slot is spent against a record.
* `Shows`: A ledger shows the reservations before it.

## Theorems

* `stands_move`: A move that re-arms nothing leaves what is spent.
* `amounts_move`: A move keeps what was spent inside the window.
* `shows_write`: A write shows what the ledger before it showed, and itself.
-/

namespace Vadum

open Async (Act)

/-- What has happened, by which call. -/
abbrev PoolLog : Type := List (Nat × Act client (Option PoolState) Thrown)

/-- The operations that are called at the same time. -/
def AtOnce : PoolOp → Prop
  | .reserveSlot _ _ _ => True
  | .refresh => True
  | .reconcile _ => True
  | .applyNonceReturn _ => True
  | _ => False

/-- A slot of this index is spent. -/
def SpentAt (state : PoolState) (index : Nat) : Prop :=
  ∃ slot ∈ state.slots, slot.index = index ∧ slot.state = .spent

/-- An entry re-arms a slot: a return or a reconciliation writes a ledger in
    which it is no longer spent. -/
def Rearms (ops : List PoolOp) (index : Nat)
    (entry : Nat × Act client (Option PoolState) Thrown) : Prop :=
  ∃ before after, entry.2 = .wrote (some before) (some after) ∧
    ((∃ payload, ops[entry.1]? = some (.applyNonceReturn payload)) ∨
      ∃ now, ops[entry.1]? = some (.reconcile now)) ∧
    SpentAt before index ∧ ¬ SpentAt after index

/-- The slots of an index are there, and spent against a record. -/
def Stands (state : PoolState) (index : Nat) (record : SpentRecord) : Prop :=
  (∃ slot ∈ state.slots, slot.index = index) ∧
    ∀ slot ∈ state.slots, slot.index = index →
      slot.state = .spent ∧ slot.spentAgainst = some record

/-- The entry by which a call reserves a slot. -/
def reserving (pool : PoolConfig) (t : Nat) (before : PoolState) (slot : PoolSlot)
    (m : MadeReservation) : Nat × Act client (Option PoolState) Thrown :=
  (t, .wrote (some before)
    (some (reserved pool before slot m.reservation.value m.merchant m.now m.amount)))

/-- What the calls of `reserveSlot` have added to the spend log, by which. -/
def spends (ops : List PoolOp) (log : PoolLog) : List (Nat × SpendEntry) :=
  log.filterMap fun entry => match entry.2, ops[entry.1]? with
    | .wrote (some _) _, some (.reserveSlot _ now amount) => some (entry.1, ⟨now, amount⟩)
    | _, _ => none

/-- The spend log of a ledger. -/
def spendLogOf (ledger : Option PoolState) : List SpendEntry :=
  (ledger.bind PoolState.spendLog).getD []

/-- A ledger shows the reservations made before it: their slots are spent, if
    not re-armed since, and their amounts are in its spend log. -/
structure Shows (ops : List PoolOp) (pool : PoolConfig) (log : PoolLog)
    (ledger : Option PoolState) : Prop where
  spent : ∀ earlier t before slot m later,
    log = earlier ++ reserving pool t before slot m :: later →
    ops[t]? = some (.reserveSlot m.merchant m.now m.amount) → slot ∈ before.slots →
    (∀ entry ∈ later, ¬ Rearms ops slot.index entry) →
    ∃ state, ledger = some state ∧
      Stands state slot.index ⟨m.reservation.value, m.merchant, m.now⟩
  amounts : ((spends ops log).map Prod.snd).Sublist (spendLogOf ledger)

section Ledger

variable {ops : List PoolOp} {pool : PoolConfig} {log : PoolLog}

/-- Replacing a slot keeps the indices of a ledger. -/
theorem index_withSlot (state : PoolState) (slot : PoolSlot) {index : Nat} :
    (∃ s ∈ (withSlot state slot).slots, s.index = index) ↔
      ∃ s ∈ state.slots, s.index = index := by
  constructor
  · rintro ⟨s, hs, rfl⟩
    rcases List.mem_map.mp hs with ⟨candidate, hmem, rfl⟩
    refine ⟨candidate, hmem, ?_⟩
    split
    · next h => exact h
    · rfl
  · rintro ⟨s, hs, rfl⟩
    by_cases h : s.index = slot.index
    · exact ⟨slot, mem_withSlot_self hs h, h.symm⟩
    · exact ⟨s, mem_withSlot_of_ne hs h, rfl⟩

/-- A slot that is replaced leaves the others standing. -/
theorem stands_withSlot {state : PoolState} {slot : PoolSlot} {index : Nat}
    {record : SpentRecord} (h : Stands state index record) (hne : slot.index ≠ index) :
    Stands (withSlot state slot) index record := by
  refine ⟨(index_withSlot state slot).mpr h.1, fun s hs hindex => ?_⟩
  rcases mem_withSlot hs with rfl | ⟨hmem, _⟩
  · exact absurd hindex hne
  · exact h.2 s hmem hindex

/-- A reservation's slot stands. -/
theorem stands_reserved {state : PoolState} {slot : PoolSlot} (hmem : slot ∈ state.slots)
    (m : MadeReservation) :
    Stands (reserved pool state slot m.reservation.value m.merchant m.now m.amount) slot.index
      ⟨m.reservation.value, m.merchant, m.now⟩ := by
  refine ⟨⟨_, mem_withSlot_self hmem rfl, rfl⟩, fun s hs hindex => ?_⟩
  rcases mem_reserved hs with rfl | ⟨_, hne⟩
  · exact ⟨rfl, rfl⟩
  · exact absurd hindex hne

/-- Reconciling leaves the slots of an index alone, or leaves none of them
    spent. -/
theorem Reconciled.slots_of_index {now : Int} {past : Past} {slots : List PoolSlot}
    {x y : PoolState × Reconciliation} (h : Reconciled pool now past slots x y) (index : Nat) :
    ((∃ s ∈ y.1.slots, s.index = index) ↔ ∃ s ∈ x.1.slots, s.index = index) ∧
      ((∀ s ∈ y.1.slots, s.index = index → s ∈ x.1.slots) ∨
        ∀ s ∈ y.1.slots, s.index = index → s.state ≠ .spent) := by
  -- Once a slot of the index is replaced, none of them is spent, now or later.
  have hput : ∀ {state : PoolState} {put : PoolSlot} {y : PoolState × Reconciliation},
      put.state ≠ .spent →
      (((∃ s ∈ y.1.slots, s.index = index) ↔ ∃ s ∈ (withSlot state put).slots, s.index = index) ∧
        ((∀ s ∈ y.1.slots, s.index = index → s ∈ (withSlot state put).slots) ∨
          ∀ s ∈ y.1.slots, s.index = index → s.state ≠ .spent)) →
      ((∃ s ∈ y.1.slots, s.index = index) ↔ ∃ s ∈ state.slots, s.index = index) ∧
        ((∀ s ∈ y.1.slots, s.index = index → s ∈ state.slots) ∨
          ∀ s ∈ y.1.slots, s.index = index → s.state ≠ .spent) := by
    intro state put y hstate hrest
    refine ⟨hrest.1.trans (index_withSlot state put), ?_⟩
    rcases hrest.2 with hold | hnew
    · by_cases hindex : put.index = index
      · refine .inr fun s hs hs' => ?_
        rcases mem_withSlot (hold s hs hs') with rfl | ⟨_, hne⟩
        · exact hstate
        · exact absurd (hs'.trans hindex.symm) hne
      · refine .inl fun s hs hs' => ?_
        rcases mem_withSlot (hold s hs hs') with rfl | ⟨hmem, _⟩
        · exact absurd hs' hindex
        · exact hmem
    · exact .inr hnew
  induction h with
  | nil x => exact ⟨Iff.rfl, .inl fun _ hs _ => hs⟩
  | skip _ _ ih => exact ih
  | pending _ _ _ _ _ _ ih => exact ih
  | gone _ _ _ _ _ ih => exact hput SlotState.noConfusion ih
  | settled _ _ _ _ _ _ ih => exact hput SlotState.noConfusion ih
  | released _ _ _ _ _ _ ih => exact hput SlotState.noConfusion ih

/-- A move that re-arms nothing leaves standing what stands. -/
theorem stands_move {t : Nat} {op : PoolOp} {past : Past} {state state' : PoolState} {index : Nat}
    {record : SpentRecord} (hop : ops[t]? = some op) (honce : AtOnce op)
    (hmove : Move pool past op state state')
    (hrearms : ¬ Rearms ops index (t, .wrote (some state) (some state')))
    (h : Stands state index record) : Stands state' index record := by
  have hspent : SpentAt state index := by
    rcases h.1 with ⟨slot, hslot, hindex⟩
    exact ⟨slot, hslot, hindex, (h.2 slot hslot hindex).1⟩
  cases hmove with
  | @reserve _ slot value merchant now amount positive within chosen known =>
      rcases mem_of_chooseSlot chosen with ⟨hmem, hunspent, _⟩
      have hne : slot.index ≠ index := fun hindex => by
        have := (h.2 slot hmem hindex).1
        rw [hunspent] at this
        cases this
      refine ⟨(index_withSlot state _).mpr h.1, fun s hs hindex => ?_⟩
      rcases mem_reserved hs with rfl | ⟨hmem', _⟩
      · exact absurd hindex hne
      · exact h.2 s hmem' hindex
  | @returned _ slot held payload statement found spent against verified =>
      -- Freeing the slot would rearm it, which was said not to happen.
      refine stands_withSlot h fun hindex => hrearms
        ⟨state, _, rfl, .inl ⟨payload, hop⟩, hspent, ?_⟩
      rintro ⟨s, hs, hs', hspent'⟩
      rcases mem_withSlot hs with rfl | ⟨_, hne⟩
      · cases hspent'
      · exact hne (hs'.trans hindex.symm)
  | @reread _ _ slots online values =>
      refine ⟨?_, fun slot' hslot' hindex => ?_⟩
      · rcases h.1 with ⟨slot, hslot, hindex⟩
        rcases exists_reread values hslot with ⟨slot', hslot', account, heard⟩
        exact ⟨_, hslot', hindex⟩
      · rcases mem_of_reread values hslot' with ⟨slot, hslot, account, heard⟩
        exact h.2 slot hslot hindex
  | @reconciled now _ _ r slots =>
      rcases slots.slots_of_index index with ⟨hthere, hold | hnone⟩
      · exact ⟨hthere.mpr h.1, fun s hs hindex => h.2 s (hold s hs hindex) hindex⟩
      · refine absurd ⟨state, state', rfl, .inr ⟨now, hop⟩, hspent, ?_⟩ hrearms
        rintro ⟨s, hs, hindex, hspent'⟩
        exact hnone s hs hindex hspent'
  | closed => exact honce.elim

theorem spends_append (log log' : PoolLog) :
    spends ops (log ++ log') = spends ops log ++ spends ops log' :=
  List.filterMap_append

/-- An entry that is no write adds nothing. -/
theorem spends_asked (t : Nat) (r : Req) (a : Except Thrown r.Ans) :
    spends ops [(t, .asked (I := client) r a)] = [] := rfl

/-- A first load adds nothing. -/
theorem spends_load (t : Nat) (new : Option PoolState) : spends ops [(t, .wrote none new)] = [] :=
  rfl

/-- An act that writes over no ledger leaves to show what was to be shown. -/
theorem Shows.snoc {ledger : Option PoolState} (h : Shows ops pool log ledger)
    {entry : Nat × Act client (Option PoolState) Thrown}
    (hentry : ∀ t before slot m, entry ≠ reserving pool t before slot m)
    (hspends : spends ops [entry] = []) : Shows ops pool (log ++ [entry]) ledger := by
  refine ⟨fun earlier t before slot m later heq hop hmem hlater => ?_, ?_⟩
  · rcases Async.snoc_split heq with ⟨_, hact, _⟩ | ⟨rest, rfl, hlog⟩
    · exact absurd hact (hentry t before slot m)
    · exact h.spent earlier t before slot m rest hlog hop hmem
        fun entry he => hlater entry (List.mem_append_left _ he)
  · rw [spends_append, hspends, List.append_nil]
    exact h.amounts

/-- Nothing reserves when a request is served. -/
theorem Shows.asked {ledger : Option PoolState} (h : Shows ops pool log ledger) (t : Nat) (r : Req)
    (a : Except Thrown r.Ans) :
    Shows ops pool (log ++ [(t, .asked (I := client) r a)]) ledger :=
  h.snoc (fun _ _ _ _ heq => by cases (Prod.mk.inj heq).2) (spends_asked t r a)

/-- A first load of what is there already shows what was shown. -/
theorem Shows.load {ledger : Option PoolState} (h : Shows ops pool log ledger) (t : Nat)
    (new : Option PoolState) : Shows ops pool (log ++ [(t, .wrote none new)]) ledger :=
  h.snoc (fun _ _ _ _ heq => by cases (Prod.mk.inj heq).2) (spends_load t new)

/-- A log that has written no ledger over another shows in every ledger. -/
theorem shows_of_loads (h : ∀ t before after, (t, Act.wrote before after) ∈ log → before = none)
    (ledger : Option PoolState) : Shows ops pool log ledger := by
  refine ⟨fun earlier t before slot m later heq => ?_, ?_⟩
  · have := h t (some before) _ (heq ▸ List.mem_append_right _ List.mem_cons_self)
    cases this
  · have hnone : spends ops log = [] := by
      refine List.filterMap_eq_nil_iff.mpr fun entry he => ?_
      rcases entry with ⟨t, ⟨seen, new⟩ | ⟨r, a⟩⟩
      · rw [h t seen new he]
      · rfl
    rw [hnone]
    exact List.nil_sublist _

/-- What a reservation's time has to do with another's: it is inside the spend
    window of it. -/
def SameWindow (pool : PoolConfig) (ops : List PoolOp) : Prop :=
  ∀ merchant now amount merchant' now' amount', .reserveSlot merchant now amount ∈ ops →
    .reserveSlot merchant' now' amount' ∈ ops → now - pool.spendLimitWindowMs < now'

/-- What was spent, was spent inside the window of every reservation. -/
theorem mem_spends {e : Nat × SpendEntry} (h : e ∈ spends ops log) :
    ∃ merchant, .reserveSlot merchant e.2.at' e.2.amount ∈ ops := by
  rcases List.mem_filterMap.mp h with ⟨entry, _, heq⟩
  split at heq
  · next merchant now amount _ hop =>
    rw [← Option.some.inj heq]
    exact ⟨merchant, List.mem_of_getElem? hop⟩
  · cases heq

/-- A move adds to the spend log what it spends, and keeps the rest of it. -/
theorem amounts_move {t : Nat} {op : PoolOp} {past : Past} {state state' : PoolState}
    (hop : ops[t]? = some op) (honce : AtOnce op) (hwindow : SameWindow pool ops)
    (hmove : Move pool past op state state')
    (h : ((spends ops log).map Prod.snd).Sublist (spendLogOf (some state))) :
    ((spends ops (log ++ [(t, .wrote (some state) (some state'))])).map Prod.snd).Sublist
      (spendLogOf (some state')) := by
  have hquiet : (∀ merchant now amount, op ≠ .reserveSlot merchant now amount) →
      spendLogOf (some state') = spendLogOf (some state) →
      ((spends ops (log ++ [(t, .wrote (some state) (some state'))])).map Prod.snd).Sublist
        (spendLogOf (some state')) := by
    intro hne hlog
    have hnone : spends ops [(t, .wrote (some state) (some state'))] = [] := by
      refine List.filterMap_eq_nil_iff.mpr fun entry he => ?_
      rw [List.mem_singleton.mp he, hop]
      cases op with
      | reserveSlot merchant now amount => exact absurd rfl (hne merchant now amount)
      | _ => rfl
    rw [spends_append, hnone, List.append_nil, hlog]
    exact h
  cases hmove with
  | @reserve _ slot value merchant now amount positive within chosen known =>
      have hnew : spends ops [(t, .wrote (some state)
          (some (reserved pool state slot value merchant now amount)))] = [(t, ⟨now, amount⟩)] := by
        simp only [spends, List.filterMap_cons, List.filterMap_nil, hop]
      rw [spends_append, hnew, List.map_append]
      refine List.Sublist.append ?_ (List.Sublist.refl _)
      -- Nothing that was spent leaves the window.
      have hkept : ((spends ops log).map Prod.snd).filter
          (fun entry => entry.at' > now - pool.spendLimitWindowMs)
            = (spends ops log).map Prod.snd := by
        refine List.filter_eq_self.mpr fun entry hentry => ?_
        rcases List.mem_map.mp hentry with ⟨e, he, rfl⟩
        rcases mem_spends he with ⟨merchant', hmem⟩
        exact decide_eq_true (hwindow _ _ _ _ _ _ (List.mem_of_getElem? hop) hmem)
      rw [← hkept]
      exact h.filter _
  | returned => exact hquiet (fun _ _ _ => PoolOp.noConfusion) rfl
  | reread online values =>
      refine hquiet (fun merchant now amount heq => ?_) rfl
      rcases online with rfl | ⟨_, _, rfl⟩ <;> cases heq
  | reconciled slots =>
      refine hquiet (fun _ _ _ => PoolOp.noConfusion) ?_
      have hlog : state'.spendLog = state.spendLog := slots.spendLog_eq
      simp only [spendLogOf, Option.bind_some, hlog]
  | closed => exact honce.elim

/-- A write over the ledger in memory shows what that ledger showed, and the
    reservation it makes if it makes one. -/
theorem shows_write {t : Nat} {op : PoolOp} {past : Past} {state state' : PoolState}
    (hop : ops[t]? = some op) (honce : AtOnce op) (hwindow : SameWindow pool ops)
    (hmove : Move pool past op state state') (h : Shows ops pool log (some state)) :
    Shows ops pool (log ++ [(t, .wrote (some state) (some state'))]) (some state') := by
  refine ⟨fun earlier t' before slot m later heq hop' hmem hlater => ?_,
    amounts_move hop honce hwindow hmove h.amounts⟩
  rcases Async.snoc_split heq with ⟨_, hact, _⟩ | ⟨rest, rfl, hlog⟩
  · have hwrote := Act.wrote.inj (Prod.mk.inj hact).2
    rw [← Option.some.inj hwrote.1] at hmem hwrote
    exact ⟨state', rfl, Option.some.inj hwrote.2 ▸ stands_reserved hmem m⟩
  · rcases h.spent earlier t' before slot m rest hlog hop' hmem
      (fun entry he => hlater entry (List.mem_append_left _ he)) with ⟨w, hw, hstands⟩
    rw [← Option.some.inj hw] at hstands
    exact ⟨state', rfl, stands_move hop honce hmove
      (hlater _ (List.mem_append_right _ (List.mem_singleton_self _))) hstands⟩

end Ledger

end Vadum
