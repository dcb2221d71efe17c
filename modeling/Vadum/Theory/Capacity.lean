import Vadum.Theory.Reserving
import Vadum.Theory.SpendLimit

/-!
# The Capacity of a Pool

How many payments a pool can make offline. The status counts the slots that are
unspent, and a reservation needs one whose value is known too. A reservation
takes one such slot and leaves the others, so a pool makes as many payments as
it has usable slots, and then it is exhausted. What the status advertises is
that number exactly if no unspent slot is without a value: `create` and
`refresh` leave such slots when they do not find the accounts.

## Main definitions

* `reserveCalls`: Reservations, one after another.
* `Affordable`: There was enough allowance for every reservation.
* `Serves`: So many reservations succeed, and then the pool is exhausted.

## Theorems

* `usable_reserved`: A reservation takes one usable slot.
* `serves_usable`: A pool serves as many payments as it has usable slots.
* `serves_unspentCount_iff`: When the status tells the truth.
-/

namespace Vadum

open Async (final history)
open Async.Process

variable {ρ : Type}

section Counting

/-- Replacing the one slot of an index leaves the slots before and after it. -/
theorem withSlot_split {state : PoolState} {slot slot' : PoolSlot} {before after : List PoolSlot}
    (hincreasing : state.slots.Pairwise fun a b => a.index < b.index)
    (hsplit : state.slots = before ++ slot :: after) (hindex : slot'.index = slot.index) :
    (withSlot state slot').slots = before ++ slot' :: after := by
  have hkept : ∀ l : List PoolSlot, (∀ other ∈ l, other.index ≠ slot.index) →
      l.map (fun other => if other.index = slot'.index then slot' else other) = l := by
    intro l hne
    refine (List.map_congr_left fun other hother => ?_).trans (List.map_id l)
    rw [hindex, if_neg (hne other hother), id]
  rw [hsplit, List.pairwise_append] at hincreasing
  rcases hincreasing with ⟨_, hafter, hbefore⟩
  -- The indices increase, so no other slot has this one's.
  have hlast := hkept after fun other hother =>
    ((List.pairwise_cons.mp hafter).1 other hother).ne'
  have hfirst := hkept before fun other hother =>
    (hbefore other hother slot List.mem_cons_self).ne
  simp only [withSlot]
  rw [hsplit, List.map_append, List.map_cons, if_pos hindex.symm, hfirst, hlast]

/-- A reservation takes one of the usable slots. -/
theorem usable_reserved {pool : PoolConfig} {state : PoolState} {slot : PoolSlot}
    (hincreasing : state.slots.Pairwise fun a b => a.index < b.index)
    (hslot : Pool.chooseSlot state = some slot) (value : Nonce) (merchant : Address)
    (now amount : Int) :
    (Pool.usable (reserved pool state slot value merchant now amount)).length + 1
      = (Pool.usable state).length := by
  rcases mem_of_chooseSlot hslot with ⟨hmem, hunspent, hvalue⟩
  rcases List.append_of_mem hmem with ⟨before, after, hsplit⟩
  have hslots := @withSlot_split state slot
    { slot with state := .spent, spentAgainst := some ⟨value, merchant, now⟩ } before after
    hincreasing hsplit rfl
  simp only [Pool.usable, reserved, hslots, hsplit, List.filter_append, List.filter_cons,
    hunspent, hvalue, List.length_append, reduceCtorEq, ne_eq, not_false_eq_true, and_true,
    decide_true, if_true, decide_false, Bool.false_eq_true, if_false, List.length_cons]
  omega

/-- The unspent slots are the usable ones exactly if their values are known. -/
theorem unspentCount_eq_iff (state : PoolState) :
    (Pool.usable state).length = (statusOf state).unspentCount ↔
      ∀ slot ∈ state.slots, slot.state = .unspent → slot.value ≠ none := by
  have husable : Pool.usable state
      = (state.slots.filter fun slot => slot.state = .unspent).filter fun slot =>
          slot.value ≠ none := by
    rw [Pool.usable, List.filter_filter]
    refine List.filter_congr fun slot _ => ?_
    rw [Bool.eq_iff_iff, Bool.and_eq_true]
    simp only [decide_eq_true_eq]
    exact And.comm
  rw [husable]
  refine List.length_filter_eq_length_iff.trans ?_
  simp only [List.mem_filter, decide_eq_true_eq, and_imp]

end Counting

section Runs

variable {network : Network ρ} {pool : PoolConfig}

/-- Reservations, one after another. -/
def reserveCalls (calls : List (Address × Int × Int)) : List PoolCommand :=
  calls.map fun c => .call (.reserveSlot c.1 c.2.1 c.2.2)

/-- There was enough allowance left for a reservation. -/
def Affordable (pool : PoolConfig) (e : PoolEvent ρ) : Prop :=
  ∀ merchant now amount, e.op = .call (.reserveSlot merchant now amount) →
    0 < amount ∧ amount ≤ (Pool.allowanceOf pool (e.before.ledger pool) now).remaining

/-- The first `n` reservations succeed, and the next one finds the pool exhausted. -/
def Serves (events : List (PoolEvent ρ)) (n : Nat) : Prop :=
  (∀ i < n, ∃ e r, events[i]? = some e ∧ e.result = some (.ok (.reservation r))) ∧
    ∃ e detail, events[n]? = some e ∧
      e.result = some (.error (vadumError .noncePoolExhausted detail))

/-- A pool serves one number of payments. -/
theorem Serves.unique {events : List (PoolEvent ρ)} {m n : Nat} (hm : Serves events m)
    (hn : Serves events n) : m = n := by
  have hnot : ∀ {m n}, Serves events m → Serves events n → ¬ m < n := by
    rintro m n ⟨_, e, detail, he, hexhausted⟩ ⟨hserved, _⟩ hlt
    rcases hserved m hlt with ⟨e', r, he', hok⟩
    rw [he] at he'
    cases he'
    rw [hexhausted] at hok
    cases hok
  exact le_antisymm (not_lt.mp (hnot hn hm)) (not_lt.mp (hnot hm hn))

/-- What loading a ledger reports is the ledger in memory from then on. -/
theorem load_status {sys : PoolSys ρ} {status : PoolStatus}
    (h : (Async.eventAt (poolStep network pool) (.call .load) sys).result
      = some (.ok (.status status))) :
    ∃ state, (poolStep network pool (.call .load) sys).2.current = some state ∧
      status = statusOf state := by
  have hrun := run_map (reply network) (Pool.load pool) PoolResult.status sys.current sys.world
  have hresult := Option.some.inj ((congrArg (fun o : Async.Outcome _ _ _ _ => some o.result)
    hrun).symm.trans h)
  have hcurrent : (poolStep network pool (.call .load) sys).2.current
      = (run (reply network) (Pool.load pool) sys.current sys.world).vars :=
    congrArg Async.Outcome.vars hrun
  rw [hcurrent]
  -- Either the ledger was found, or it threw.
  rcases loaded_cases network pool sys.current sys.world with
    ⟨state, net, hfinds⟩ | ⟨_, e, net, hfail⟩
  · rw [Pool.load, run_bind, run_awaited_loaded hfinds] at hresult ⊢
    cases hresult
    exact ⟨state, rfl, rfl⟩
  · rw [Pool.load, run_bind, hfail] at hresult
    cases hresult

/-- A reservation that can be afforded takes a usable slot, if there is one. -/
theorem reserve_or_exhausted {sys : PoolSys ρ} {state : PoolState}
    (hcurrent : sys.current = some state) {merchant : Address} {now amount : Int}
    (hpos : 0 < amount) (hallow : amount ≤ (Pool.allowanceOf pool (some state) now).remaining)
    (hwrites : WritesSucceed network pool
      (Async.eventAt (poolStep network pool) (.call (.reserveSlot merchant now amount)) sys)) :
    let e := Async.eventAt (poolStep network pool) (.call (.reserveSlot merchant now amount)) sys
    (Pool.usable state = [] ∧ ∃ detail,
      e.result = some (.error (vadumError .noncePoolExhausted detail))) ∨
    ∃ slot value r, Pool.chooseSlot state = some slot ∧
      e.result = some (.ok (.reservation r)) ∧
      e.after.current = some (reserved pool state slot value merchant now amount) := by
  intro e
  have hfinds : Finds network pool sys.current sys.world state sys.world.net :=
    .inl ⟨hcurrent, rfl⟩
  have hmap := run_map (reply network) (Pool.reserveSlot pool merchant now amount)
    PoolResult.reservation sys.current sys.world
  have hresult : e.result = some ((run (reply network)
      (Pool.reserveSlot pool merchant now amount) sys.current sys.world).result.map
        .reservation) :=
    congrArg (fun o : Async.Outcome _ _ _ _ => some o.result) hmap
  have hafter : e.after.current = (run (reply network)
      (Pool.reserveSlot pool merchant now amount) sys.current sys.world).vars :=
    congrArg Async.Outcome.vars hmap
  -- It is refused exactly if no slot is usable.
  cases hchosen : Pool.chooseSlot state with
  | none =>
      refine .inl ⟨?_, ?_⟩
      · by_contra hne
        rcases exists_chooseSlot hne with ⟨slot, _, hslot, _⟩
        rw [hchosen] at hslot
        cases hslot
      · rw [hresult]
        simp only [Pool.reserveSlot, run_bind, run_awaited_loaded hfinds, if_neg (not_le.mpr hpos),
          if_neg (not_lt.mpr hallow), gt_iff_lt, hchosen, run_throw]
        exact ⟨_, rfl⟩
  | some slot =>
      rcases Option.ne_none_iff_exists'.mp (mem_of_chooseSlot hchosen).2.2 with ⟨value, hvalue⟩
      have hrequests : requestsOf network pool e.op e.before = requests (reply network)
          (Pool.reserveSlot pool merchant now amount) sys.current sys.world :=
        requests_map _ _ _ _ _
      have hrequest : (Req.storeSet (.pool pool.payer)
          (reserved pool state slot value merchant now amount),
            (⟨sys.world.store, network.tick sys.world.net⟩ : World ρ))
          ∈ requestsOf network pool e.op e.before := by
        rw [hrequests]
        exact mem_requests_reserveSlot hfinds hchosen hvalue hpos hallow
      -- The write is among the requests, so it succeeds.
      have hstored := hwrites _ _ _ hrequest
      have hrun := @run_reserveSlot ρ network pool _ _ _ _ hfinds _ _ hchosen hvalue merchant _ _
        hpos hallow
      rcases hset : network.storage (network.tick sys.world.net) with ⟨_ | x, net'⟩
      · rw [hset] at hrun
        rw [hrun] at hresult hafter
        exact .inr ⟨slot, value, _, rfl, hresult, hafter⟩
      · rw [hset] at hstored
        cases hstored

/-- A pool serves as many payments as it has usable slots. -/
theorem serves_usable {sys : PoolSys ρ} {state : PoolState} (hcurrent : sys.current = some state)
    (hwell : WellFormed pool state) {calls : List (Address × Int × Int)}
    (hlength : (Pool.usable state).length < calls.length)
    (hwrites : ∀ e ∈ poolHistory network pool sys (reserveCalls calls),
      WritesSucceed network pool e)
    (haffordable : ∀ e ∈ poolHistory network pool sys (reserveCalls calls),
      Affordable pool e) :
    Serves (poolHistory network pool sys (reserveCalls calls)) (Pool.usable state).length := by
  induction calls generalizing sys state with
  | nil => exact absurd hlength (Nat.not_lt_zero _)
  | cons c calls ih =>
      rcases c with ⟨merchant, now, amount⟩
      have hfirst : Async.eventAt (poolStep network pool)
          (.call (.reserveSlot merchant now amount)) sys
          ∈ poolHistory network pool sys (reserveCalls ((merchant, now, amount) :: calls)) :=
        List.mem_cons_self
      -- The first call is affordable, and so are the rest from where it leads.
      rcases haffordable _ hfirst _ _ _ rfl with ⟨hpos, hallow⟩
      have hledger : sys.ledger pool = some state := by
        rw [PoolSys.ledger, hcurrent, Option.some_or]
      have hallow : amount ≤ (Pool.allowanceOf pool (some state) now).remaining :=
        hledger ▸ hallow
      rcases reserve_or_exhausted hcurrent hpos hallow (hwrites _ hfirst) with
        ⟨hempty, detail, hexhausted⟩ | ⟨slot, value, r, hslot, hok, hafter⟩
      · rw [hempty]
        exact ⟨fun i hi => absurd hi (Nat.not_lt_zero i), _, detail, rfl, hexhausted⟩
      -- One slot fewer, and one call fewer.
      have hone := @usable_reserved pool state slot hwell.increasing hslot value merchant now amount
      have hnext := ih hafter (hwell.reserved (mem_of_chooseSlot hslot).1 hpos)
        (by rw [List.length_cons] at hlength; omega)
        (fun e he => hwrites e (List.mem_cons_of_mem _ he))
        (fun e he => haffordable e (List.mem_cons_of_mem _ he))
      rw [← hone]
      refine ⟨fun i hi => ?_, ?_⟩
      · cases i with
        | zero => exact ⟨_, r, rfl, hok⟩
        | succ i => exact hnext.1 i (Nat.lt_of_succ_lt_succ hi)
      · exact hnext.2

/-- The status of a reachable ledger says how many payments can follow exactly if
    the value of every unspent slot is known. -/
theorem serves_unspentCount_iff (network : Network ρ) (pool : PoolConfig) (sys : PoolSys ρ)
    (hfresh : sys.Fresh pool) (commands : List PoolCommand) (status : PoolStatus)
    (hstatus : (Async.eventAt (poolStep network pool) (.call .load)
      (final (poolStep network pool) sys commands)).result = some (.ok (.status status)))
    (calls : List (Address × Int × Int)) (hlength : status.unspentCount < calls.length)
    (hwrites : ∀ e ∈ poolHistory network pool
      (final (poolStep network pool) sys (commands ++ [.call .load])) (reserveCalls calls),
      WritesSucceed network pool e)
    (haffordable : ∀ e ∈ poolHistory network pool
      (final (poolStep network pool) sys (commands ++ [.call .load])) (reserveCalls calls),
      Affordable pool e) :
    Serves (poolHistory network pool
        (final (poolStep network pool) sys (commands ++ [.call .load])) (reserveCalls calls))
        status.unspentCount ↔
      ∀ slot ∈ status.slots, slot.state = .unspent → slot.value ≠ none := by
  rcases load_status hstatus with ⟨state, hcurrent, rfl⟩
  have hafter : (final (poolStep network pool) sys (commands ++ [.call .load])).current
      = some state := by
    rw [Async.final_append]
    exact hcurrent
  have hwell : WellFormed pool state := (reachable_wellFormed network pool sys hfresh
    (commands ++ [.call .load])).1 state (.inl hafter)
  -- At most what the status announces is usable, so there are enough calls.
  have hle : (Pool.usable state).length ≤ (statusOf state).unspentCount := by
    refine List.Sublist.length_le (List.monotone_filter_right _ fun slot h => ?_)
    exact decide_eq_true (of_decide_eq_true h).1
  have hserves := serves_usable hafter hwell (lt_of_le_of_lt hle hlength) hwrites haffordable
  refine Iff.trans ⟨fun h => ?_, fun h => ?_⟩ (unspentCount_eq_iff state)
  · exact hserves.unique h
  · exact h ▸ hserves

/-- Three payments of ten units. -/
def tenThrice : List (Address × Int × Int) :=
  [(testAddress 2, 5, 10), (testAddress 2, 6, 10), (testAddress 2, 7, 10)]

/-- Ten units can be paid three times when the allowance was. -/
theorem affordable_tenThrice {sys : PoolSys FakeRpc}
    (h : ∀ e ∈ poolHistory fakeNetwork testPool sys (reserveCalls tenThrice),
      ∀ now ∈ [5, 6, 7],
        10 ≤ (Pool.allowanceOf testPool (e.before.ledger testPool) now).remaining) :
    ∀ e ∈ poolHistory fakeNetwork testPool sys (reserveCalls tenThrice),
      Affordable testPool e := by
  intro e he merchant now amount hop
  have hmem : PoolCommand.call (.reserveSlot merchant now amount) ∈ reserveCalls tenThrice :=
    hop ▸ Async.op_mem_of_mem _ he
  simp only [reserveCalls, tenThrice, List.map_cons, List.map_nil, List.mem_cons,
    List.not_mem_nil, or_false, PoolCommand.call.injEq, PoolOp.reserveSlot.injEq] at hmem
  rcases hmem with ⟨rfl, rfl, rfl⟩ | ⟨rfl, rfl, rfl⟩ | ⟨rfl, rfl, rfl⟩
  · exact ⟨by decide, h e he 5 (by decide)⟩
  · exact ⟨by decide, h e he 6 (by decide)⟩
  · exact ⟨by decide, h e he 7 (by decide)⟩

/-- The status of a pool of two unspent slots, with these values. -/
def unspentStatus (value value' : Option Nonce) : PoolStatus where
  payer := testAddress 1
  size := 2
  slots := [⟨0, (testAccount 0 (testNonce 7)).1, value, .unspent, none, none⟩,
    ⟨1, (testAccount 1 (testNonce 8)).1, value', .unspent, none, none⟩]
  unspentCount := 2
  belowLowWaterMark := true
  epoch := "epoch"

/-- The setup of a pool, and reading it again. -/
def setUp (start : PoolSys FakeRpc) : PoolSys FakeRpc :=
  final (poolStep fakeNetwork testPool) start [.call (.create 2 (testKey 1)), .call .load]

theorem serves_unspentCount_iff_setUp :
    Serves (poolHistory fakeNetwork testPool (setUp spendingStart) (reserveCalls tenThrice))
      2 :=
  (serves_unspentCount_iff fakeNetwork testPool spendingStart ⟨rfl, rfl⟩
    [.call (.create 2 (testKey 1))] (unspentStatus (some (testNonce 7)) (some (testNonce 8)))
    (by decide +kernel) tenThrice (by decide)
    (fun e _ => writesSucceed_of_works fakeNetwork_storageWorks testPool e)
    (affordable_tenThrice (by decide +kernel))).mpr (by decide)

/-- A device whose network does not show the new accounts yet. -/
def laggingStart : PoolSys FakeRpc where
  current := none
  world := { store := ∅, net := { balance := 2 * 1056640 + 5000, setup := [] } }

/-- Two payments are announced, and not one can be made. -/
theorem serves_none_of_two :
    laggingStart.Fresh testPool ∧
      (Async.eventAt (poolStep fakeNetwork testPool) (.call .load)
        (final (poolStep fakeNetwork testPool) laggingStart
          [.call (.create 2 (testKey 1))])).result
        = some (.ok (.status (unspentStatus none none))) ∧
      (∀ e ∈ poolHistory fakeNetwork testPool (setUp laggingStart) (reserveCalls tenThrice),
        WritesSucceed fakeNetwork testPool e ∧ Affordable testPool e) ∧
      ¬ Serves (poolHistory fakeNetwork testPool (setUp laggingStart) (reserveCalls tenThrice))
        (unspentStatus none none).unspentCount := by
  refine ⟨⟨rfl, rfl⟩, by decide +kernel, fun e he => ⟨?_, ?_⟩, fun h => ?_⟩
  · exact writesSucceed_of_works fakeNetwork_storageWorks testPool e
  · exact affordable_tenThrice (by decide +kernel) e he
  · rcases h.1 0 (by decide) with ⟨e, r, he, hok⟩
    cases he
    have hexhausted : (Async.eventAt (poolStep fakeNetwork testPool)
        (.call (.reserveSlot (testAddress 2) 5 10)) (setUp laggingStart)).result
        = some (.error (vadumError .noncePoolExhausted
            [("payer", .address (testAddress 1)), ("size", .number 2)])) := by
      decide +kernel
    rw [hexhausted] at hok
    cases hok

end Runs

end Vadum
