import Vadum.Theory.Reserving
import Vadum.Theory.SpendLimit

/-!
# The Allowance

What `allowance` tells the payer, and what becomes of it. The figure for a later
time is the figure for now with the entries dropped that the window has passed
by then, so it only improves, and not before the earliest of them is passed.
What `reserveSlot` refuses is decided by the same figure.

The log is in no order, and an entry may be later than the clock: nothing here
depends on where in the log an entry is.

## Main definitions

* `Spends`: A ledger whose log has positive amounts only.
* `RefusedForLimit`: A result that refuses a payment for the limit.
* `StorageErrors`: A storage that fails with no error of this code.

## Theorems

* `counted_later`: What counts later is what counts now, less what is passed.
* `allowance_before_refill`, `spent_at_refill`: Nothing returns before the
  refill, and something does at it.
* `refusedForLimit_iff`: What a reservation is refused for.
* `allowance_truthful`: The reported allowance, its refills and its enforcement.
-/

namespace Vadum

open Async (final)
open Async.Process
open Window

variable {ρ : Type} {pool : PoolConfig}

section Refills

/-- What counts later is what counts now, less what the window has passed. -/
theorem counted_later (log : Option (List SpendEntry)) {now t windowMs : Int} (h : now ≤ t) :
    counted log t windowMs
      = (counted log now windowMs).filter fun entry => entry.at' > t - windowMs := by
  rw [counted, counted, List.filter_filter]
  refine List.filter_congr fun entry _ => ?_
  rw [Bool.eq_iff_iff, Bool.and_eq_true, decide_eq_true_iff, decide_eq_true_iff]
  omega

/-- Every entry of a ledger's log is of a positive amount. -/
def Spends (ledger : Option PoolState) : Prop :=
  ∀ entry ∈ (ledger.bind PoolState.spendLog).getD [], 0 < entry.amount

theorem Spends.pos {ledger : Option PoolState} (h : Spends ledger) :
    ∀ e ∈ entriesOf ledger, 0 < e.2 := by
  intro e he
  rcases List.mem_map.mp he with ⟨entry, hentry, rfl⟩
  exact h entry hentry

theorem spent_antitone {ledger : Option PoolState} (h : Spends ledger) {now t : Int}
    (hnow : now ≤ t) :
    (Pool.allowanceOf pool ledger t).spent ≤ (Pool.allowanceOf pool ledger now).spent := by
  rw [spent_eq, spent_eq]
  exact sumAfter_mono (fun e he => (h.pos e he).le) (by omega)

theorem remaining_eq_max (ledger : Option PoolState) (now : Int) :
    (Pool.allowanceOf pool ledger now).remaining
      = max 0 (pool.spendLimit - (Pool.allowanceOf pool ledger now).spent) := by
  simp only [Pool.allowanceOf]
  split
  · rw [max_eq_left (by omega)]
  · rw [max_eq_right (by omega)]

/-- There is a refill to wait for if anything counts. -/
theorem nextRefillAt_eq_none (ledger : Option PoolState) (now : Int) :
    (Pool.allowanceOf pool ledger now).nextRefillAt = none ↔
      counted (ledger.bind PoolState.spendLog) now pool.spendLimitWindowMs = [] := by
  simp only [Pool.allowanceOf, Option.map_eq_none_iff, List.min?_eq_none_iff, List.map_eq_nil_iff]

/-- The next refill is when the earliest entry that counts is passed. -/
theorem nextRefillAt_eq_some {ledger : Option PoolState} {now next : Int}
    (h : (Pool.allowanceOf pool ledger now).nextRefillAt = some next) :
    let entries := counted (ledger.bind PoolState.spendLog) now pool.spendLimitWindowMs
    (∃ entry ∈ entries, entry.at' = next - pool.spendLimitWindowMs) ∧
      ∀ entry ∈ entries, next - pool.spendLimitWindowMs ≤ entry.at' := by
  rcases Option.map_eq_some_iff.mp h with ⟨earliest, hmin, rfl⟩
  rcases List.min?_eq_some_iff.mp hmin with ⟨hmem, hleast⟩
  rcases List.mem_map.mp hmem with ⟨entry, hentry, rfl⟩
  refine ⟨⟨entry, hentry, by omega⟩, fun other hother => ?_⟩
  have := hleast other.at' (List.mem_map_of_mem hother)
  omega

/-- Until the next refill the allowance is the same. -/
theorem allowance_before_refill {ledger : Option PoolState} {now t next : Int} (hnow : now ≤ t)
    (h : (Pool.allowanceOf pool ledger now).nextRefillAt = some next) (hbefore : t < next) :
    Pool.allowanceOf pool ledger t = Pool.allowanceOf pool ledger now := by
  have hleast := (nextRefillAt_eq_some h).2
  have hsame : counted (ledger.bind PoolState.spendLog) t pool.spendLimitWindowMs
      = counted (ledger.bind PoolState.spendLog) now pool.spendLimitWindowMs := by
    rw [counted_later _ hnow, List.filter_eq_self]
    intro entry hentry
    have := hleast entry hentry
    exact decide_eq_true (by omega)
  simp only [Pool.allowanceOf, hsame]

/-- At the next refill less is spent. -/
theorem spent_at_refill {ledger : Option PoolState} (hspends : Spends ledger) {now next : Int}
    (hnow : now ≤ next) (h : (Pool.allowanceOf pool ledger now).nextRefillAt = some next) :
    (Pool.allowanceOf pool ledger next).spent < (Pool.allowanceOf pool ledger now).spent := by
  rcases (nextRefillAt_eq_some h).1 with ⟨entry, hentry, hat⟩
  rcases List.mem_filter.mp hentry with ⟨hlogged, hcounts⟩
  rw [spent_eq, spent_eq]
  refine sumAfter_lt hspends.pos (by omega)
    (List.mem_map_of_mem (f := fun entry => (entry.at', entry.amount)) hlogged)
    (of_decide_eq_true hcounts) ?_
  exact not_lt.mpr hat.le

end Refills

section Enforcement

variable {network : Network ρ}

/-- The payment was refused for the limit. -/
def RefusedForLimit {α : Type} (x : Except Thrown α) : Prop :=
  ∃ detail, x = .error (vadumError .limitPayerAllowance detail)

/-- The storage fails with errors of its own, as a database does. -/
def StorageErrors (network : Network ρ) : Prop :=
  ∀ net error, (network.storage net).1 = some error →
    ∀ code detail, error ≠ vadumError code detail

theorem StorageWorks.errors (h : StorageWorks network) : StorageErrors network :=
  fun net _ herror => absurd (herror.symm.trans (h net)) (by
    simp only [reduceCtorEq, not_false_eq_true])

theorem refusedForLimit_map {α β : Type} (f : α → β) (x : Except Thrown α) :
    RefusedForLimit (x.map f) ↔ RefusedForLimit x := by
  cases x with
  | error e => simp only [RefusedForLimit, Except.map, Except.error.injEq]
  | ok a => simp only [RefusedForLimit, Except.map, reduceCtorEq]

/-- A report reads the ledger and leaves everything alone. -/
theorem run_allowance (s : Option PoolState) (w : World ρ) (now : Int) :
    let o := run (reply network) (Pool.allowance pool now) s w
    o.vars = s ∧ o.world.store = w.store ∧ ∀ a, o.result = .ok a →
      a = Pool.allowanceOf pool ((PoolSys.mk s w).ledger pool) now := by
  rcases @currentOrStored_cases _ network pool s w with ⟨e | state, w', hstore, hrun, hstate⟩
  · rw [Pool.allowance, run_bind_error _ hrun]
    exact ⟨rfl, hstore, fun a ha => by cases ha⟩
  · rw [Pool.allowance, run_bind_ok _ hrun]
    refine ⟨rfl, hstore, fun a ha => ?_⟩
    rw [PoolSys.ledger, PoolSys.stored, ← hstate state rfl]
    exact (Except.ok.inj ha).symm

/-- A reservation that has its ledger is refused for the limit if the amount is
    not positive or not in the allowance. -/
theorem refusedForLimit_iff (hstorage : StorageErrors network) {s : Option PoolState}
    {w : World ρ} {state : PoolState} {net : ρ} (hfinds : Finds network pool s w state net)
    (merchant : Address) (now amount : Int) :
    RefusedForLimit (run (reply network) (Pool.reserveSlot pool merchant now amount) s w).result ↔
      amount ≤ 0 ∨ (Pool.allowanceOf pool (some state) now).remaining < amount := by
  by_cases hpositive : amount ≤ 0
  · refine iff_of_true ?_ (.inl hpositive)
    simp only [Pool.reserveSlot, run_bind, run_awaited_loaded hfinds, if_pos hpositive, run_throw]
    exact ⟨_, rfl⟩
  by_cases hallowance : amount > (Pool.allowanceOf pool (some state) now).remaining
  · refine iff_of_true ?_ (.inr hallowance)
    simp only [Pool.reserveSlot, run_bind, run_awaited_loaded hfinds, if_neg hpositive,
      if_pos hallowance, run_throw]
    exact ⟨_, rfl⟩
  -- Past both checks, it is refused for another reason or not at all.
  refine iff_of_false ?_ (not_or.mpr ⟨hpositive, hallowance⟩)
  rintro ⟨detail, hrefused⟩
  cases hchosen : Pool.chooseSlot state with
  | none =>
      simp only [Pool.reserveSlot, run_bind, run_awaited_loaded hfinds, if_neg hpositive,
        if_neg hallowance, hchosen, run_throw] at hrefused
      cases hrefused
  | some slot =>
      rcases Option.ne_none_iff_exists'.mp (mem_of_chooseSlot hchosen).2.2 with ⟨value, hvalue⟩
      rw [run_reserveSlot hfinds hchosen hvalue (Int.not_le.mp hpositive)
        (Int.not_lt.mp hallowance)] at hrefused
      rcases hset : network.storage (network.tick net) with ⟨_ | e, net'⟩
      · rw [hset] at hrefused
        cases hrefused
      · rw [hset] at hrefused
        -- The store may fail, but not with an error of this kind.
        exact hstorage _ e (congrArg Prod.fst hset) _ _ (Except.error.inj hrefused)

/-- The allowance that is reported only improves, not before the next refill but
    then for sure, and it is what the next reservation is held to. -/
theorem allowance_truthful (network : Network ρ) (hstorage : StorageErrors network)
    (pool : PoolConfig) (sys : PoolSys ρ) (hspends : Spends (sys.ledger pool)) {now t : Int}
    (hnow : now ≤ t) :
    let entries := counted ((sys.ledger pool).bind PoolState.spendLog)
    let here := Pool.allowanceOf pool (sys.ledger pool) now
    let later := Pool.allowanceOf pool (sys.ledger pool) t
    (later.spent ≤ here.spent ∧ here.remaining ≤ later.remaining ∧
      here.remaining = max 0 (here.limit - here.spent)) ∧
    (∀ next, here.nextRefillAt = some next →
      (t < next → later = here) ∧ (t = next → later.spent < here.spent)) ∧
    (here.nextRefillAt = none ↔ entries now pool.spendLimitWindowMs = []) ∧
    ∀ merchant amount,
      let report := Async.eventAt (poolStep network pool) (.call (.allowance now)) sys
      let e := Async.eventAt (poolStep network pool) (.call (.reserveSlot merchant now amount))
        report.after
      ∀ a, report.result = some (.ok (.allowance a)) → a = here ∧
        ∀ state net, Finds network pool report.after.current report.after.world state net →
          ((∃ x, e.result = some x ∧ RefusedForLimit x) ↔ amount ≤ 0 ∨ a.remaining < amount) := by
  intro entries here later
  have hspent : later.spent ≤ here.spent := spent_antitone hspends hnow
  refine ⟨⟨hspent, ?_, remaining_eq_max _ now⟩, fun next hnext => ⟨fun hbefore => ?_, ?_⟩,
    nextRefillAt_eq_none _ now, ?_⟩
  · have hhere : here.remaining = max 0 (pool.spendLimit - here.spent) := remaining_eq_max _ now
    have hlater : later.remaining = max 0 (pool.spendLimit - later.spent) := remaining_eq_max _ t
    omega
  · exact allowance_before_refill hnow hnext hbefore
  · rintro rfl
    exact spent_at_refill hspends hnow hnext
  -- The report leaves the ledger as it is, so the reservation meets the same one.
  intro merchant amount report e a hreport
  have hrun := run_map (reply network) (Pool.allowance pool now) PoolResult.allowance
    sys.current sys.world
  rcases @run_allowance ρ pool network sys.current sys.world now with ⟨hvars, hstore, hresult⟩
  have hafter : report.after.ledger pool = sys.ledger pool := by
    have hcurrent : report.after.current = sys.current :=
      (congrArg Async.Outcome.vars hrun).trans hvars
    have hstored : report.after.stored pool = sys.stored pool :=
      congrArg (fun store : Store => store.lookup (.pool pool.payer))
        ((congrArg (fun o => (Async.Outcome.world o).store) hrun).trans hstore)
    rw [PoolSys.ledger, PoolSys.ledger, hcurrent, hstored]
  have ha : a = here := by
    have hmap := Option.some.inj
      ((congrArg (fun o => some (Async.Outcome.result o)) hrun).symm.trans hreport)
    rcases hr : (run (reply network) (Pool.allowance pool now) sys.current sys.world).result with
      x | b
    · rw [hr] at hmap
      cases hmap
    · rw [hr] at hmap
      cases hmap
      exact hresult a hr
  refine ⟨ha, fun state net hfinds => ?_⟩
  have hledger : sys.ledger pool = some state := hafter.symm.trans hfinds.ledger_eq
  have hremaining : a.remaining = (Pool.allowanceOf pool (some state) now).remaining := by
    rw [ha, ← hledger]
  have hevent : e.result = some ((run (reply network)
      (Pool.reserveSlot pool merchant now amount) report.after.current
        report.after.world).result.map .reservation) :=
    congrArg (fun o : Async.Outcome _ _ _ _ => some o.result) (run_map _ _ _ _ _)
  rw [hremaining, ← refusedForLimit_iff hstorage hfinds merchant now amount,
    ← refusedForLimit_map PoolResult.reservation, hevent]
  constructor
  · rintro ⟨x, hx, hrefused⟩
    exact Option.some.inj hx ▸ hrefused
  · exact fun hrefused => ⟨_, rfl, hrefused⟩

/-- The ledger after the first payment of the run. -/
def spentOnce : PoolSys FakeRpc :=
  final (poolStep fakeNetwork testPool) spendingStart (spendingRun.take 2)

/-- Forty units remain of the hundred until the window has passed the sixty. -/
theorem allowance_truthful_spentOnce :
    let report := Async.eventAt (poolStep fakeNetwork testPool) (.call (.allowance 7)) spentOnce
    let e := Async.eventAt (poolStep fakeNetwork testPool)
      (.call (.reserveSlot (testAddress 2) 7 40000001)) report.after
    (Pool.allowanceOf testPool (spentOnce.ledger testPool) (5 + spendLimitWindowMs)).spent
        < (Pool.allowanceOf testPool (spentOnce.ledger testPool) 7).spent ∧
      ∃ x, e.result = some x ∧ RefusedForLimit x := by
  intro report e
  have htruth := allowance_truthful fakeNetwork fakeNetwork_storageWorks.errors testPool spentOnce
    (by unfold Spends; decide +kernel) (show 7 ≤ 5 + spendLimitWindowMs by decide)
  refine ⟨(htruth.2.1 _ (by decide +kernel)).2 rfl, ?_⟩
  have hreport : report.result
      = some (.ok (.allowance ⟨100000000, 60000000, 40000000, some 86400005⟩)) := by
    decide +kernel
  have hledger : report.after.current ≠ none := by decide +kernel
  rcases Option.ne_none_iff_exists'.mp hledger with ⟨state, hstate⟩
  refine ((htruth.2.2.2 (testAddress 2) 40000001 _ hreport).2 state _ (.inl ⟨hstate, rfl⟩)).mpr ?_
  exact .inr (by decide)

end Enforcement

end Vadum
