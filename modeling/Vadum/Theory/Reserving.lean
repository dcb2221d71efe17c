import Vadum.Theory.WellFormed

/-!
# Handing Out a Slot

The run of `reserveSlot`, from whatever ledger it finds. Some slots are riskier
than others: one that was released still carries a payment a merchant could
submit late, so it is handed out after all that were not, and the one released
longest ago first. The code has this order from a filter, a search and a stable
sort of a list whose own order is an invariant of the ledger.

## Main definitions

* `Finds`: The ledger a pool's operation starts from.
* `Safest`: A usable slot that no other should be handed out before.
* `HandsOut`: What a reservation makes of a ledger.

## Theorems

* `loaded_cases`: An operation finds a ledger, or it leaves everything alone.
* `run_reserveSlot`: A reservation writes before it resolves.
* `head_mergeSort`: The first of a stably sorted list.
* `chooseSlot_safest`: The slot chosen is the safest.
* `reserveSlot_safest`: In every run, a reservation hands out the safest slot
  and changes nothing else, and one that rejects changes nothing.
-/

namespace Vadum

open Async (Act history final)
open Async.Process

variable {ρ : Type}

section Reserving

/-- The ledger a pool's operation starts from: the one in memory, or else the
    one in the store. `net` is the network once it is read. -/
def Finds (network : Network ρ) (pool : PoolConfig) (s : Option PoolState) (w : World ρ)
    (state : PoolState) (net : ρ) : Prop :=
  s = some state ∧ net = w.net ∨
    s = none ∧ w.store.lookup (.pool pool.payer) = some state ∧ network.storage w.net = (none, net)

variable {network : Network ρ} {pool : PoolConfig} {s : Option PoolState} {w : World ρ}
  {state : PoolState} {net : ρ}

theorem run_awaited_loaded (h : Finds network pool s w state net) :
    run (reply network) (awaited (Pool.loaded pool)) s w
      = ⟨.ok state, some state, ⟨w.store, network.tick net⟩⟩ := by
  rcases h with ⟨rfl, rfl⟩ | ⟨rfl, hstored, hstorage⟩
  · rfl
  · have hread := run_storeGet_eq network (.pool pool.payer) (none : Option PoolState) w
    rw [hstorage, hstored] at hread
    have htick (w : World ρ) : reply network .tick w
        = (.ok (), { w with net := network.tick w.net }) := rfl
    simp only [awaited, Pool.loaded, run_bind, run_read, hread, run_write, run_pure, tick,
      run_request (I := client), htick]

/-- Reading the ledger in memory, or else the one in the store, leaves everything
    as it is. -/
theorem currentOrStored_cases (s : Option PoolState) (w : World ρ) :
    ∃ x w', w'.store = w.store ∧
      run (reply network) (Pool.currentOrStored pool) s w = ⟨x, s, w'⟩ ∧
      ∀ state, x = .ok state → state = s.or (w.store.lookup (.pool pool.payer)) := by
  cases s with
  | some state => exact ⟨_, w, rfl, rfl, fun state hstate => (by cases hstate; rfl)⟩
  | none =>
      have hread := run_storeGet_eq network (.pool pool.payer) (none : Option PoolState) w
      refine ⟨_, ⟨w.store, (network.storage w.net).2⟩, rfl,
        (run_bind_ok _ (run_read _ _ _)).trans hread, fun state hstate => ?_⟩
      split at hstate
      · cases hstate
        rfl
      · cases hstate

/-- An operation finds a ledger, or it ends with everything as it was. -/
theorem loaded_cases (network : Network ρ) (pool : PoolConfig) (s : Option PoolState)
    (w : World ρ) : (∃ state net, Finds network pool s w state net) ∨
      s = none ∧ ∃ e net, run (reply network) (awaited (Pool.loaded pool)) s w
        = ⟨.error e, none, ⟨w.store, net⟩⟩ := by
  cases s with
  | some state => exact .inl ⟨state, w.net, .inl ⟨rfl, rfl⟩⟩
  | none =>
      have hread := run_storeGet_eq network (.pool pool.payer) (none : Option PoolState) w
      rcases hstorage : network.storage w.net with ⟨_ | e, net⟩
      · cases hstored : w.store.lookup (.pool pool.payer) with
        | some state => exact .inl ⟨state, net, .inr ⟨rfl, hstored, hstorage⟩⟩
        | none =>
            rw [hstorage, hstored] at hread
            refine .inr ⟨rfl, vadumError .nonceLedgerMissing [("payer", .address pool.payer)], net,
              ?_⟩
            simp only [awaited, Pool.loaded, run_bind, run_read, hread, run_write, run_throw]
      · rw [hstorage] at hread
        refine .inr ⟨rfl, e, net, ?_⟩
        simp only [awaited, Pool.loaded, run_bind, run_read, hread]

theorem Finds.ledger_eq (h : Finds network pool s w state net) :
    (PoolSys.mk s w).ledger pool = some state := by
  rcases h with ⟨rfl, _⟩ | ⟨rfl, hstored, _⟩
  · rfl
  · exact hstored

/-- A ledger is written to memory, and then to the store, which may refuse. -/
theorem run_persist (state' : PoolState) :
    run (reply network) (Pool.persist pool state') s w
      = match network.storage w.net with
        | (none, net') => ⟨.ok (statusOf state'), some state',
            ⟨w.store.insert (.pool pool.payer) state', net'⟩⟩
        | (some e, net') => ⟨.error e, some state', ⟨w.store, net'⟩⟩ := by
  simp only [Pool.persist, run_bind, run_write, storeSet, run_request (I := client), reply,
    run_pure]
  rcases network.storage w.net with ⟨_ | e, net'⟩
  · rfl
  · rfl

/-- A ledger with a slot reserved is another ledger. -/
theorem reserved_ne {slot : PoolSlot} {value : Nonce} {merchant : Address} {now amount : Int}
    (h : Pool.chooseSlot state = some slot) :
    reserved pool state slot value merchant now amount ≠ state := by
  intro heq
  rcases mem_of_chooseSlot h with ⟨hmem, hunspent, _⟩
  have hmem' : slot ∈ (reserved pool state slot value merchant now amount).slots := by
    rw [heq]
    exact hmem
  rcases List.mem_map.mp hmem' with ⟨candidate, _, hcandidate⟩
  split at hcandidate
  · rw [← hcandidate] at hunspent
    cases hunspent
  · exact absurd (congrArg PoolSlot.index hcandidate) (by assumption)

theorem exists_chooseSlot (h : Pool.usable state ≠ []) :
    ∃ slot value, Pool.chooseSlot state = some slot ∧ slot.value = some value := by
  have hchosen : Pool.chooseSlot state ≠ none := by
    intro hnone
    have hsorted := List.head?_eq_none_iff.mp (Option.or_eq_none_iff.mp hnone).2
    exact h (List.length_eq_zero_iff.mp (by rw [← List.length_mergeSort, hsorted, List.length_nil]))
  rcases Option.ne_none_iff_exists'.mp hchosen with ⟨slot, hslot⟩
  rcases Option.ne_none_iff_exists'.mp (mem_of_chooseSlot hslot).2.2 with ⟨value, hvalue⟩
  exact ⟨slot, value, hslot, hvalue⟩

/-- A reservation writes before it resolves. -/
theorem run_reserveSlot (hfinds : Finds network pool s w state net) {slot : PoolSlot}
    {value : Nonce} (hslot : Pool.chooseSlot state = some slot) (hvalue : slot.value = some value)
    {merchant : Address} {now amount : Int} (hpos : 0 < amount)
    (hallowance : amount ≤ (Pool.allowanceOf pool (some state) now).remaining) :
    run (reply network) (Pool.reserveSlot pool merchant now amount) s w
      = match network.storage (network.tick net) with
        | (none, net') => ⟨.ok ⟨slot.index, value⟩,
            some (reserved pool state slot value merchant now amount),
            ⟨w.store.insert (.pool pool.payer) (reserved pool state slot value merchant now amount),
              net'⟩⟩
        | (some e, net') => ⟨.error e, some (reserved pool state slot value merchant now amount),
            ⟨w.store, net'⟩⟩ := by
  rcases slot with ⟨index, address, value', slotState, spentAgainst, releasedAt⟩
  cases hvalue
  simp only [Pool.reserveSlot, run_bind, run_awaited_loaded hfinds, if_neg (not_le.mpr hpos),
    if_neg (not_lt.mpr hallowance), gt_iff_lt, hslot, run_pure,
    run_persist]
  rcases network.storage (network.tick net) with ⟨_ | e, net'⟩
  · rfl
  · rfl

end Reserving

section Choice

/-- The first of a list that is sorted by a key and stably: it has the least key,
    and came first among those that have it. -/
theorem head_mergeSort {α κ : Type} [LinearOrder κ] {key : α → κ} {R : α → α → Prop}
    {l : List α} {a : α} (hR : l.Pairwise R) (hasymm : ∀ a b, R a b → ¬ R b a)
    (h : (l.mergeSort fun a b => key a ≤ key b).head? = some a) :
    a ∈ l ∧ ∀ b ∈ l, b ≠ a → key a < key b ∨ key a = key b ∧ R a b := by
  have htrans : ∀ a b c : α, decide (key a ≤ key b) = true → decide (key b ≤ key c) = true →
      decide (key a ≤ key c) = true := by
    simp only [decide_eq_true_eq]
    exact fun a b c => le_trans
  have htotal : ∀ a b : α, (decide (key a ≤ key b) || decide (key b ≤ key a)) = true := by
    simp only [Bool.or_eq_true, decide_eq_true_eq]
    exact fun a b => le_total _ _
  rcases List.head?_eq_some_iff.mp h with ⟨rest, hsorted⟩
  have hperm := List.mergeSort_perm l fun a b => key a ≤ key b
  have hle := List.pairwise_mergeSort htrans htotal l
  rw [hsorted] at hperm hle
  have hnodup : (a :: rest).Nodup := hperm.nodup_iff.mpr
    (hR.imp fun {x y} hxy (heq : x = y) => hasymm x y hxy (heq ▸ hxy))
  refine ⟨hperm.mem_iff.mp List.mem_cons_self, fun b hb hne => ?_⟩
  have hrest : b ∈ rest := (List.mem_cons.mp (hperm.mem_iff.mpr hb)).resolve_left hne
  have hab : key a ≤ key b := of_decide_eq_true ((List.pairwise_cons.mp hle).1 b hrest)
  refine (lt_or_eq_of_le hab).imp_right fun heq => ⟨heq, ?_⟩
  -- Had `b` come first, the sort would have left it first.
  let Either (x y : α) : Prop := [x, y].Sublist l ∨ [y, x].Sublist l
  have : Std.Symm Either := ⟨fun _ _ => Or.symm⟩
  have hpairs : l.Pairwise Either := List.pairwise_iff_forall_sublist.mpr .inl
  have heither : Either a b :=
    hpairs.forall (hperm.mem_iff.mp List.mem_cons_self) hb hne.symm
  rcases heither with hfirst | hafter
  · exact List.pairwise_iff_forall_sublist.mp hR hfirst
  · have hkept := List.pair_sublist_mergeSort htrans htotal (decide_eq_true heq.ge) hafter
    rw [hsorted] at hkept
    have hmem : a ∈ rest := by
      cases hkept with
      | cons _ hrest => exact hrest.subset (List.mem_cons_of_mem _ List.mem_cons_self)
      | cons_cons _ hrest => exact absurd rfl hne
    exact absurd hmem (List.nodup_cons.mp hnodup).1

/-- A slot no other should be handed out before. Slots that were not released
    come first, and among them the one of the lowest index; the others in the
    order they were released in, and at one time in that of their indices. -/
structure Safest (state : PoolState) (slot : PoolSlot) : Prop where
  usable : slot ∈ Pool.usable state
  unreleased : (∃ other ∈ Pool.usable state, other.releasedAt = none) →
    slot.releasedAt = none ∧ ∀ other ∈ Pool.usable state, other.releasedAt = none →
      slot.index ≤ other.index
  released : (∀ other ∈ Pool.usable state, other.releasedAt ≠ none) →
    ∃ at', slot.releasedAt = some at' ∧ ∀ other ∈ Pool.usable state,
      ∀ at'', other.releasedAt = some at'' →
        at' < at'' ∨ at' = at'' ∧ slot.index ≤ other.index

/-- The slot chosen is the safest, of slots in the order of their indices. -/
theorem chooseSlot_safest {state : PoolState} {slot : PoolSlot}
    (hincreasing : state.slots.Pairwise fun a b => a.index < b.index)
    (h : Pool.chooseSlot state = some slot) : Safest state slot := by
  have hordered : (Pool.usable state).Pairwise fun a b => a.index < b.index :=
    hincreasing.filter _
  have husable : slot ∈ Pool.usable state := by
    simpa only [Pool.usable, List.mem_filter, decide_eq_true_eq] using mem_of_chooseSlot h
  -- A slot never released if there is one, else the one released longest ago.
  rcases Option.or_eq_some_iff.mp h with hfresh | ⟨hnone, hsorted⟩
  · rcases List.find?_eq_some_iff_append.mp hfresh with ⟨hreleased, before, after, hsplit, hbefore⟩
    have hreleased := of_decide_eq_true hreleased
    refine ⟨husable, fun _ => ⟨hreleased, fun other hother hnone => ?_⟩, fun hall => ?_⟩
    · rw [hsplit] at hother hordered
      rcases List.mem_append.mp hother with hother | hother
      · exact absurd hnone (by simpa using hbefore other hother)
      · rcases List.mem_cons.mp hother with rfl | hother
        · exact le_rfl
        · have hlater := (List.pairwise_append.mp hordered).2.1
          exact ((List.pairwise_cons.mp hlater).1 other hother).le
    · exact absurd hreleased (hall slot husable)
  · have hall : ∀ other ∈ Pool.usable state, other.releasedAt ≠ none := fun other hother hr =>
      List.find?_eq_none.mp hnone other hother (decide_eq_true hr)
    refine ⟨husable, fun hex => ?_, fun _ => ?_⟩
    · rcases hex with ⟨other, hother, hr⟩
      exact absurd hr (hall other hother)
    rcases Option.ne_none_iff_exists'.mp (hall slot husable) with ⟨at', hat⟩
    refine ⟨at', hat, fun other hother at'' hat' => ?_⟩
    by_cases hsame : other = slot
    · rw [hsame, hat] at hat'
      exact .inr ⟨Option.some.inj hat', hsame ▸ le_rfl⟩
    · -- Sorting by the release keeps equals in the order of their indices.
      have hfirst := @head_mergeSort PoolSlot Int _ (fun s => s.releasedAt.getD 0) _ _ _ hordered
        (fun _ _ => lt_asymm) hsorted
      rcases hfirst.2 other hother hsame with hlt | ⟨heq, hindex⟩
      · rw [hat, hat'] at hlt
        exact .inl hlt
      · rw [hat, hat'] at heq
        exact .inr ⟨heq, hindex.le⟩

end Choice

section Runs

variable {network : Network ρ} {pool : PoolConfig}

/-- What a reservation makes of a ledger: the safest slot is spent, recorded with
    the value returned, and the log gains one entry and loses those the window
    has passed. The other slots, and all else, stay. -/
structure HandsOut (pool : PoolConfig) (merchant : Address) (now amount : Int) (state : PoolState)
    (slot : PoolSlot) (r : Reservation) (state' : PoolState) : Prop where
  safest : Safest state slot
  index : r.index = slot.index
  value : slot.value = some r.value
  alone : ∀ other ∈ state.slots, other.index = slot.index → other = slot
  ledger : state' = { state with
    slots := state.slots.map fun other =>
      if other = slot then
        { slot with state := .spent, spentAgainst := some ⟨r.value, merchant, now⟩ }
      else other
    spendLog := some ((state.spendLog.getD []).filter
      (fun entry => now - pool.spendLimitWindowMs < entry.at') ++ [⟨now, amount⟩]) }

/-- A reservation from a well-formed ledger. -/
theorem handsOut_reserved {state : PoolState} {slot : PoolSlot} {value : Nonce}
    (hincreasing : state.slots.Pairwise fun a b => a.index < b.index)
    (hchosen : Pool.chooseSlot state = some slot) (hvalue : slot.value = some value)
    (merchant : Address) (now amount : Int) :
    HandsOut pool merchant now amount state slot ⟨slot.index, value⟩
      (reserved pool state slot value merchant now amount) where
  safest := chooseSlot_safest hincreasing hchosen
  index := rfl
  value := hvalue
  alone := fun _ hother => eq_of_index_eq hincreasing hother (mem_of_chooseSlot hchosen).1
  ledger := by
    have hslots : (withSlot state
        { slot with state := .spent, spentAgainst := some ⟨value, merchant, now⟩ }).slots
        = state.slots.map fun other => if other = slot then
            { slot with state := .spent, spentAgainst := some ⟨value, merchant, now⟩ }
          else other := by
      refine List.map_congr_left fun other hother => ?_
      by_cases hsame : other = slot
      · rw [if_pos hsame, if_pos (congrArg PoolSlot.index hsame)]
      · rw [if_neg hsame, if_neg fun hindex => hsame ?_]
        exact eq_of_index_eq hincreasing hother (mem_of_chooseSlot hchosen).1 hindex
    rw [reserved, hslots]
    rfl

/-- How `reserveSlot` ends: it leaves the ledger alone, or it has a slot to hand
    out. -/
theorem reserveSlot_cases (network : Network ρ) (pool : PoolConfig) (merchant : Address)
    (now amount : Int) (s : Option PoolState) (w : World ρ) :
    let o := run (reply network) (Pool.reserveSlot pool merchant now amount) s w
    ((∃ e, o.result = .error e) ∧ o.world.store = w.store ∧
      (PoolSys.mk o.vars o.world).ledger pool = (PoolSys.mk s w).ledger pool) ∨
    ∃ state net slot value, Finds network pool s w state net ∧
      Pool.chooseSlot state = some slot ∧ slot.value = some value ∧ 0 < amount ∧
      amount ≤ (Pool.allowanceOf pool (some state) now).remaining := by
  rcases loaded_cases network pool s w with ⟨state, net, hfinds⟩ | ⟨rfl, e, net, hrun⟩
  · -- The three refusals, in the order of the source, leave the ledger as it was.
    by_cases hpositive : amount ≤ 0
    · left
      simp only [Pool.reserveSlot, run_bind, run_awaited_loaded hfinds, if_pos hpositive,
        run_throw]
      exact ⟨⟨_, rfl⟩, trivial, hfinds.ledger_eq.symm⟩
    by_cases hallowance : amount > (Pool.allowanceOf pool (some state) now).remaining
    · left
      simp only [Pool.reserveSlot, run_bind, run_awaited_loaded hfinds, if_neg hpositive,
        if_pos hallowance, run_throw]
      exact ⟨⟨_, rfl⟩, trivial, hfinds.ledger_eq.symm⟩
    cases hchosen : Pool.chooseSlot state with
    | none =>
        left
        simp only [Pool.reserveSlot, run_bind, run_awaited_loaded hfinds, if_neg hpositive,
          if_neg hallowance, hchosen, run_throw]
        exact ⟨⟨_, rfl⟩, trivial, hfinds.ledger_eq.symm⟩
    | some slot =>
        rcases Option.ne_none_iff_exists'.mp (mem_of_chooseSlot hchosen).2.2 with ⟨value, hvalue⟩
        exact .inr ⟨state, net, slot, value, hfinds, hchosen, hvalue, Int.not_le.mp hpositive,
          Int.not_lt.mp hallowance⟩
  · left
    rw [Pool.reserveSlot, run_bind, hrun]
    exact ⟨⟨e, rfl⟩, rfl, rfl⟩

/-- The store write of a reservation is among its requests. -/
theorem mem_requests_reserveSlot {s : Option PoolState} {w : World ρ} {state : PoolState} {net : ρ}
    (hfinds : Finds network pool s w state net) {slot : PoolSlot} {value : Nonce}
    (hslot : Pool.chooseSlot state = some slot) (hvalue : slot.value = some value)
    {merchant : Address} {now amount : Int} (hpos : 0 < amount)
    (hallowance : amount ≤ (Pool.allowanceOf pool (some state) now).remaining) :
    (Req.storeSet (.pool pool.payer) (reserved pool state slot value merchant now amount),
        (⟨w.store, network.tick net⟩ : World ρ)) ∈
      requests (reply network) (Pool.reserveSlot pool merchant now amount) s w := by
  rcases slot with ⟨index, address, value', slotState, spentAgainst, releasedAt⟩
  cases hvalue
  rw [Pool.reserveSlot, requests_bind, run_awaited_loaded hfinds]
  refine List.mem_append_right _ ?_
  simp only [if_neg (not_le.mpr hpos), if_neg (not_lt.mpr hallowance), gt_iff_lt, hslot]
  rw [requests_bind]
  refine List.mem_append_left _ ?_
  exact List.mem_cons_self

/-- In every run, a reservation that resolves hands out the safest slot and
    changes nothing else, in memory and in the store. One that rejects changes
    nothing, if its store writes succeed. -/
theorem reserveSlot_safest (network : Network ρ) (pool : PoolConfig) (sys : PoolSys ρ)
    (hfresh : sys.Fresh pool) (commands : List PoolCommand) (merchant : Address)
    (now amount : Int) :
    let before := final (poolStep network pool) sys commands
    let e := Async.eventAt (poolStep network pool) (.call (.reserveSlot merchant now amount)) before
    (∀ r, e.result = some (.ok (.reservation r)) → ∃ state slot state',
      before.ledger pool = some state ∧ HandsOut pool merchant now amount state slot r state' ∧
      e.after.current = some state' ∧ e.after.stored pool = some state') ∧
    (WritesSucceed network pool e → ∀ x, e.result = some (.error x) →
      e.after.ledger pool = before.ledger pool ∧ e.after.stored pool = before.stored pool) := by
  intro before e
  have hledgers := ledgers_wellFormed network hfresh commands
  have hresult : e.result = some ((run (reply network) (Pool.reserveSlot pool merchant now amount)
      before.current before.world).result.map .reservation) :=
    congrArg (fun o : Async.Outcome _ _ _ _ => some o.result) (run_map _ _ _ _ _)
  have hafter : e.after = ⟨(run (reply network) (Pool.reserveSlot pool merchant now amount)
      before.current before.world).vars, (run (reply network)
      (Pool.reserveSlot pool merchant now amount) before.current before.world).world⟩ :=
    congrArg (fun o : Async.Outcome _ _ _ _ => PoolSys.mk o.vars o.world) (run_map _ _ _ _ _)
  -- It is refused before it writes anything, or it writes once, and that decides.
  rcases reserveSlot_cases network pool merchant now amount before.current before.world with
    ⟨⟨x, herror⟩, hstore, hsame⟩ | ⟨state, net, slot, value, hfinds, hchosen, hvalue, hpos, hallow⟩
  · rw [herror] at hresult
    refine ⟨fun r hr => ?_, fun _ _ _ => ?_⟩
    · rw [hresult] at hr
      cases hr
    · rw [hafter]
      exact ⟨hsame, congrArg (fun store : Store => store.lookup (.pool pool.payer)) hstore⟩
  have hledger : before.ledger pool = some state := hfinds.ledger_eq
  have hincreasing : state.slots.Pairwise fun a b => a.index < b.index := by
    rcases hfinds with ⟨hcurrent, _⟩ | ⟨_, hstored, _⟩
    · exact (hledgers.memory state hcurrent state hcurrent).increasing
    · exact (hledgers.store state hstored).increasing
  have hrun := @run_reserveSlot ρ network pool _ _ _ _ hfinds _ _ hchosen hvalue merchant _ _
    hpos hallow
  rcases hset : network.storage (network.tick net) with ⟨_ | x, net'⟩
  · rw [hset] at hrun
    rw [hrun] at hresult hafter
    refine ⟨fun r hr => ?_, fun _ x hx => ?_⟩
    · rw [hresult] at hr
      cases hr
      refine ⟨state, slot, _, hledger, handsOut_reserved hincreasing hchosen hvalue merchant now
        amount, congrArg PoolSys.current hafter, ?_⟩
      rw [hafter]
      exact AList.lookup_insert _
    · rw [hresult] at hx
      cases hx
  · rw [hset] at hrun
    rw [hrun] at hresult
    refine ⟨fun r hr => ?_, fun hwrites x' _ => ?_⟩
    · rw [hresult] at hr
      cases hr
    · -- The write that failed is one of the operation's.
      have hmem : _ ∈ requestsOf network pool e.op e.before :=
        (requests_map (reply network) _ _ before.current before.world).symm ▸
          mem_requests_reserveSlot hfinds hchosen hvalue hpos hallow
      have hworks := hwrites _ _ _ hmem
      rw [hset] at hworks
      cases hworks

/-- Two slots, of which the first was reserved and released. -/
def riskyRun : List PoolCommand :=
  [.call (.create 2 (testKey 1)), .call (.reserveSlot (testAddress 2) 5 10),
    .call (.reconcile (5 + sendWindowMs))]

/-- The one that was never handed out is next. -/
theorem reserveSlot_safest_riskyRun :
    let before := final (poolStep setupOnce testPool) releasingStart riskyRun
    let e := Async.eventAt (poolStep setupOnce testPool)
      (.call (.reserveSlot (testAddress 3) (6 + sendWindowMs) 10)) before
    e.result = some (.ok (.reservation ⟨1, testNonce 7⟩)) ∧ ∃ state slot state',
      before.ledger testPool = some state ∧
      HandsOut testPool (testAddress 3) (6 + sendWindowMs) 10 state slot ⟨1, testNonce 7⟩ state' ∧
      e.after.current = some state' ∧ e.after.stored testPool = some state' := by
  have hresult : (Async.eventAt (poolStep setupOnce testPool)
      (.call (.reserveSlot (testAddress 3) (6 + sendWindowMs) 10))
      (final (poolStep setupOnce testPool) releasingStart riskyRun)).result
      = some (.ok (.reservation ⟨1, testNonce 7⟩)) := by decide +kernel
  exact ⟨hresult, (reserveSlot_safest setupOnce testPool releasingStart ⟨rfl, rfl⟩ riskyRun
    (testAddress 3) (6 + sendWindowMs) 10).1 _ hresult⟩

end Runs

end Vadum
