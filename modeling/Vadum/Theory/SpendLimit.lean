import Vadum.Apps.Limits
import Vadum.Client.FakeRpc
import Vadum.Theory.Slots
import Vadum.Window.Sliding

/-!
# The Spend Limit

What a stolen device can sign (T12). The pool looks back over the log it
keeps in its ledger and refuses what would exceed the limit, and on every
reservation it drops from the log what has left the window. The ledger is
rewritten by every operation, built anew by `create` and `recover`, and lost
from memory whenever the app closes.

`Covers` is the invariant: from the latest clock reading on, the log of a
ledger still shows everything that was reserved. Both ledgers have it, the one
in memory and the one in the store, so it does not matter which one the next
reservation looks back over, and `Window.Admitted` follows.

## Main definitions

* `readings`, `reservations`: The clock readings and the reservations of a run.
* `entriesOf`: The spend log of a ledger.
* `Covers`: A ledger shows what was reserved.

## Theorems

* `spent_eq`: What counts against the limit is what the window holds.
* `covers_kept`: Every operation keeps what a ledger shows.
* `reservations_admitted`: The reservations of a run were made by looking back.
* `theft_bound`: No window holds more than the limit.
-/

namespace Vadum

open Async (history final)
open Window

variable {ρ : Type}

/-- The clock reading a command passes to `reserveSlot`. -/
def PoolCommand.reading (command : PoolCommand) : Option Int :=
  match command.op with
  | some (.reserveSlot _ now _) => some now
  | _ => none

/-- The clock readings passed to `reserveSlot`, in order. -/
def readings (events : List (PoolEvent ρ)) : List Int := events.filterMap fun e => e.op.reading

/-- The time and amount of every reservation that resolved, in order. -/
def reservations (events : List (PoolEvent ρ)) : List (Int × Int) :=
  events.filterMap fun e => (made e).map fun m => (m.now, m.amount)

/-- The spend log of a ledger. -/
def entriesOf (s : Option PoolState) : List (Int × Int) :=
  ((s.bind PoolState.spendLog).getD []).map fun entry => (entry.at', entry.amount)

/-- From the latest reading on, the log of a ledger shows what was reserved. -/
def Covers (pool : PoolConfig) (reserved : List (Int × Int)) (read : List Int)
    (s : Option PoolState) : Prop :=
  ∀ now, (∀ t ∈ read, t ≤ now) → sumAfter reserved (now - pool.spendLimitWindowMs)
    ≤ sumAfter (entriesOf s) (now - pool.spendLimitWindowMs)

variable {pool : PoolConfig}

@[simp] theorem readings_append (events events' : List (PoolEvent ρ)) :
    readings (events ++ events') = readings events ++ readings events' :=
  List.filterMap_append

@[simp] theorem reservations_append (events events' : List (PoolEvent ρ)) :
    reservations (events ++ events') = reservations events ++ reservations events' :=
  List.filterMap_append

/-- The counted entries are the log of the ledger, pruned. -/
theorem counted_map (log : Option (List SpendEntry)) (now windowMs : Int) :
    (counted log now windowMs).map (fun entry => (entry.at', entry.amount))
      = ((log.getD []).map fun entry => (entry.at', entry.amount)).filter
          fun e => now - windowMs < e.1 := by
  rw [List.filter_map]
  rfl

/-- What counts against the limit is what the window ending now holds. -/
theorem spent_eq (s : Option PoolState) (now : Int) :
    (Pool.allowanceOf pool s now).spent
      = sumAfter (entriesOf s) (now - pool.spendLimitWindowMs) := by
  have hmap : (counted (s.bind PoolState.spendLog) now pool.spendLimitWindowMs).map
      SpendEntry.amount = ((counted (s.bind PoolState.spendLog) now pool.spendLimitWindowMs).map
        fun entry => (entry.at', entry.amount)).map Prod.snd := by
    rw [List.map_map]
    rfl
  simp only [Pool.allowanceOf]
  rw [hmap, counted_map]
  rfl

/-- What fits the allowance fits the limit. -/
theorem spent_add_le {s : Option PoolState} {now amount : Int} (hpos : 0 < amount)
    (h : amount ≤ (Pool.allowanceOf pool s now).remaining) :
    sumAfter (entriesOf s) (now - pool.spendLimitWindowMs) + amount ≤ pool.spendLimit := by
  rw [← spent_eq]
  simp only [Pool.allowanceOf] at h ⊢
  split at h
  · omega
  · omega

/-- The log a reservation leaves, seen from its time on: the old log and the
    new entry. -/
theorem sumAfter_reserved (state : PoolState) (slot : PoolSlot) (value : Nonce)
    (merchant : Address) {now amount now' : Int} (h : now ≤ now') :
    sumAfter (entriesOf (some (reserved pool state slot value merchant now amount)))
        (now' - pool.spendLimitWindowMs)
      = sumAfter (entriesOf (some state)) (now' - pool.spendLimitWindowMs)
        + sumAfter [(now, amount)] (now' - pool.spendLimitWindowMs) := by
  simp only [entriesOf, reserved, Option.bind_some, Option.getD_some, List.map_append,
    List.map_cons, List.map_nil, sumAfter_append, counted_map]
  rw [sumAfter_prune _ (by omega)]

theorem covers_mono {log : List (Int × Int)} {read read' : List Int} {s : Option PoolState}
    (h : Covers pool log read s) (hsub : read ⊆ read') : Covers pool log read' s :=
  fun now hnow => h now fun t ht => hnow t (hsub ht)

/-- A ledger that keeps the log of another shows as much. -/
theorem covers_congr {log : List (Int × Int)} {read : List Int} {s s' : Option PoolState}
    (h : Covers pool log read s) (heq : entriesOf s' = entriesOf s) : Covers pool log read s' :=
  fun now hnow => heq ▸ h now hnow

/-- A reservation shows what the ledger before it showed, and itself. -/
theorem covers_reserved {log : List (Int × Int)} {read : List Int} {state : PoolState}
    {now amount : Int} (h : Covers pool log read (some state)) (hnow : now ∈ read)
    (slot : PoolSlot) (value : Nonce) (merchant : Address) :
    Covers pool (log ++ [(now, amount)]) read
      (some (reserved pool state slot value merchant now amount)) := by
  intro now' hread
  rw [sumAfter_reserved state slot value merchant (hread now hnow), sumAfter_append]
  have := h now' hread
  omega

/-- What a ledger shows with a reservation it shows without. -/
theorem covers_of_append {log : List (Int × Int)} {e : Int × Int} {read : List Int}
    {s : Option PoolState} (h : Covers pool (log ++ [e]) read s) (he : 0 ≤ e.2) :
    Covers pool log read s := by
  intro now hread
  have hall := h now hread
  rw [sumAfter_append, sumAfter_singleton] at hall
  split at hall <;> omega

/-- Every operation keeps what a ledger shows, once its own clock reading is
    among those read. -/
theorem covers_kept (network : Network ρ) {op : PoolOp} {sys : PoolSys ρ} {log : List (Int × Int)}
    {read : List Int} (hread : ∀ merchant now amount, op = .reserveSlot merchant now amount →
      now ∈ read) :
    Kept network pool op sys (fun _ => Covers pool log read) (fun _ => Covers pool log read) where
  memory := fun _ _ _ _ h => h
  store := fun _ _ _ _ h => h
  persist := fun _ _ h => h
  load := fun _ _ _ h => h
  move := fun m n past state state' _ _ _ hk hmove => by
    cases hmove with
    | reserve positive within chosen known =>
        exact covers_of_append (covers_reserved hk (hread _ _ _ rfl) _ _ _) positive.le
    | returned => exact covers_congr hk rfl
    | reread => exact covers_congr hk rfl
    | reconciled slots =>
        refine covers_congr hk ?_
        have hlog : state'.spendLog = state.spendLog := slots.spendLog_eq
        simp only [entriesOf, Option.bind_some, hlog]
    | closed => exact covers_congr hk rfl
  new := fun n past seen state _ _ hstored hseen hnew => by
    have hsource : ∀ source, (source = seen ∧ seen ≠ none ∨ seen = none ∧
        ReadStore pool past source) → Covers pool log read source := by
      rintro source (⟨rfl, hne⟩ | ⟨_, hr⟩)
      · rcases Option.ne_none_iff_exists'.mp hne with ⟨prior, hprior⟩
        exact hseen prior hprior
      · exact hstored source hr
    cases hnew with
    | created bounds setup sent prior => exact covers_congr (hsource _ prior) rfl
    | recovered probed prior => exact covers_congr (hsource _ prior) rfl

/-- What holds in a run so far: both ledgers show what was reserved, and it was
    reserved by looking back. -/
structure LimitHeld (pool : PoolConfig) (events : List (PoolEvent ρ)) (sys : PoolSys ρ) :
    Prop where
  ledgers : Ledgers pool (fun _ => Covers pool (reservations events) (readings events))
    (fun _ => Covers pool (reservations events) (readings events)) sys
  admitted : Admitted pool.spendLimitWindowMs pool.spendLimit (reservations events)

/-- A command that reserves nothing keeps it. -/
theorem limitHeld_silent (network : Network ρ) {events : List (PoolEvent ρ)}
    {command : PoolCommand} {sys : PoolSys ρ}
    (hmade : made (Async.eventAt (poolStep network pool) command sys) = none)
    (h : LimitHeld pool events sys) :
    LimitHeld pool (events ++ [Async.eventAt (poolStep network pool) command sys])
      (poolStep network pool command sys).2 := by
  set event := Async.eventAt (poolStep network pool) command sys with hevent
  have hres : reservations (events ++ [event]) = reservations events := by
    rw [reservations_append, show reservations [event] = [] by
      simp only [reservations, List.filterMap_cons, hmade, Option.map_none, List.filterMap_nil],
      List.append_nil]
  have hsub : readings events ⊆ readings (events ++ [event]) := by
    rw [readings_append]
    exact List.subset_append_left _ _
  refine ⟨?_, hres ▸ h.admitted⟩
  rw [hres]
  refine command_kept (fun op hop => covers_kept network ?_)
    ⟨fun state hs => covers_mono (h.ledgers.memory state hs) hsub,
      covers_mono h.ledgers.store hsub⟩
  -- A reservation that failed had its reading taken all the same.
  rintro merchant now amount rfl
  rw [readings_append]
  refine List.mem_append_right _ (List.mem_filterMap.mpr ⟨event, List.mem_singleton_self _, ?_⟩)
  simp only [hevent, Async.eventAt, PoolCommand.reading, hop]

/-- A reservation keeps it too, if no clock reading was later. -/
theorem limitHeld_made (network : Network ρ) {events : List (PoolEvent ρ)} {op : PoolOp}
    {sys : PoolSys ρ} {m : MadeReservation}
    (hmade : made (Async.eventAt (poolStep network pool) (.call op) sys) = some m)
    (hclock : ∀ t ∈ readings events, t ≤ m.now) (h : LimitHeld pool events sys) :
    LimitHeld pool (events ++ [Async.eventAt (poolStep network pool) (.call op) sys])
      (poolStep network pool (.call op) sys).2 := by
  set event := Async.eventAt (poolStep network pool) (.call op) sys with hevent
  have hop : op = .reserveSlot m.merchant m.now m.amount :=
    PoolCommand.call.inj (made_eq hmade).1
  have hres : reservations (events ++ [event]) = reservations events ++ [(m.now, m.amount)] := by
    rw [reservations_append]
    simp only [reservations, List.filterMap_cons, hmade, Option.map_some, List.filterMap_nil]
  have hread : readings (events ++ [event]) = readings events ++ [m.now] := by
    rw [readings_append]
    simp only [readings, List.filterMap_cons, hevent, Async.eventAt, PoolCommand.reading,
      PoolCommand.op, hop, List.filterMap_nil]
  -- Its own reading is among those the ledger has to cover.
  have hin : m.now ∈ readings events ++ [m.now] :=
    List.mem_append_right _ (List.mem_singleton_self _)
  have hkept : Kept network pool op sys
      (fun _ => Covers pool (reservations events) (readings events ++ [m.now]))
      (fun _ => Covers pool (reservations events) (readings events ++ [m.now])) :=
    covers_kept network fun _ _ _ hop' => by
      rw [hop] at hop'
      rw [← (PoolOp.reserveSlot.inj hop').2.1]
      exact hin
  have hsub := List.subset_append_left (readings events) [m.now]
  rcases (op_kept hkept ⟨fun state hs => covers_mono (h.ledgers.memory state hs) hsub,
    covers_mono h.ledgers.store hsub⟩).2 m hmade with ⟨state, slot, hm⟩
  have hafter : Covers pool (reservations events ++ [(m.now, m.amount)])
      (readings events ++ [m.now])
      (some (reserved pool state slot m.reservation.value m.merchant m.now m.amount)) :=
    covers_reserved hm.kept hin _ _ _
  refine ⟨?_, ?_⟩
  · rw [hres, hread]
    exact hm.ledgers hafter
  · rw [hres]
    refine .snoc h.admitted hm.positive.le ?_
    -- No reading was later, so the log shows everything in the window.
    have hcovers := hm.kept m.now fun t ht => by
      rcases List.mem_append.mp ht with ht | ht
      · exact hclock t ht
      · exact (List.mem_singleton.mp ht).le
    have := spent_add_le hm.positive hm.within
    simp only
    omega

/-- The reservations of a run whose clock readings never decrease were made by
    looking back. -/
theorem reservations_admitted (network : Network ρ) {sys : PoolSys ρ} (hfresh : sys.Fresh pool)
    {commands : List PoolCommand}
    (hclock : (readings (poolHistory network pool sys commands)).Pairwise (· ≤ ·)) :
    Admitted pool.spendLimitWindowMs pool.spendLimit
      (reservations (poolHistory network pool sys commands)) := by
  have hstart : LimitHeld pool ([] : List (PoolEvent ρ)) sys := by
    refine ⟨⟨fun state hs => absurd hs (hfresh.1 ▸ by
      simp only [reduceCtorEq, not_false_eq_true]), fun now _ => ?_⟩, .nil⟩
    rw [hfresh.2]
    exact le_refl _
  refine (Async.history_rule (poolStep network pool) (J := LimitHeld pool)
    (A := fun pre e => ∀ now, e.op.reading = some now → ∀ t ∈ readings pre, t ≤ now)
    ?_ hstart ?_).1.admitted
  · -- Every command keeps the invariant, whether it reserves or not.
    intro pre command s hs hA
    cases hmade : made (Async.eventAt (poolStep network pool) command s) with
    | none => exact limitHeld_silent network hmade hs
    | some m =>
        rcases made_eq hmade with ⟨hop, _⟩
        have hop : command = .call (.reserveSlot m.merchant m.now m.amount) := hop
        subst hop
        exact limitHeld_made network hmade (fun t ht => hA m.now rfl t ht) hs
  · intro pre e post hsplit now hnow t ht
    rw [show poolHistory network pool sys commands = pre ++ e :: post from hsplit,
      readings_append, List.pairwise_append] at hclock
    exact hclock.2.2 t (by simpa only [List.nil_append] using ht) now
      (List.mem_filterMap.mpr ⟨e, List.mem_cons_self, hnow⟩)

/-- No window holds more than the limit, and what is reserved while a device is
    held for some time stays within `theftExposure`. -/
theorem theft_bound (network : Network ρ) (pool : PoolConfig) (hlimit : 0 ≤ pool.spendLimit)
    (hwindow : 0 < pool.spendLimitWindowMs) {sys : PoolSys ρ} (hfresh : sys.Fresh pool)
    (commands : List PoolCommand)
    (hclock : (readings (poolHistory network pool sys commands)).Pairwise (· ≤ ·)) (t : Int) :
    sumIn (reservations (poolHistory network pool sys commands)) t
        (t + pool.spendLimitWindowMs) ≤ pool.spendLimit ∧
      ∀ heldForMs, sumWithin (reservations (poolHistory network pool sys commands)) t
        (t + heldForMs) ≤ theftExposure heldForMs pool.spendLimit pool.spendLimitWindowMs := by
  have hadmitted := reservations_admitted network hfresh hclock
  refine ⟨hadmitted.window_le hlimit t, fun heldForMs => ?_⟩
  have hquot : 0 ≤ max 0 heldForMs / pool.spendLimitWindowMs :=
    Int.ediv_nonneg (le_max_left _ _) hwindow.le
  have hcast : ((max 0 heldForMs / pool.spendLimitWindowMs).toNat + 1 : Nat)
      = max 0 heldForMs / pool.spendLimitWindowMs + 1 := by
    rw [Nat.cast_succ, Int.toNat_of_nonneg hquot]
  -- The time held is covered by whole windows, one more than fit in it.
  have hcover : heldForMs < ((max 0 heldForMs / pool.spendLimitWindowMs).toNat + 1)
      • pool.spendLimitWindowMs := by
    rw [nsmul_eq_mul, hcast]
    have := Int.lt_ediv_add_one_mul_self (max 0 heldForMs) hwindow
    omega
  have := hadmitted.within_le hwindow.le hlimit t hcover
  rwa [hcast] at this

/-- Two slots on a funded device. The second payment is reserved by an object
    that has read the first one back from the store, and the third is refused. -/
def spendingRun : List PoolCommand :=
  [.call (.create 2 (testKey 1)), .call (.reserveSlot (testAddress 2) 5 60000000), .reopen,
    .call (.reserveSlot (testAddress 2) 6 40000000), .call (.reserveSlot (testAddress 2) 7 1)]

def spendingStart : PoolSys FakeRpc where
  current := none
  world :=
    { store := ∅
      net :=
        { balance := 2 * 1056640 + 5000
          setup := [testAccount 0 (testNonce 7), testAccount 1 (testNonce 8)] } }

theorem theft_bound_spendingRun :
    reservations (poolHistory fakeNetwork testPool spendingStart spendingRun)
        = [(5, 60000000), (6, 40000000)] ∧
      sumIn (reservations (poolHistory fakeNetwork testPool spendingStart spendingRun)) 5
        (5 + spendLimitWindowMs) ≤ defaultSpendLimit :=
  ⟨by decide +kernel,
    (theft_bound fakeNetwork testPool (by decide) (by decide) ⟨rfl, rfl⟩ spendingRun
      (by decide +kernel) 5).1⟩

end Vadum
