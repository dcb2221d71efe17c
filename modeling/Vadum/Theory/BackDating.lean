import Vadum.Theory.HandOut
import Vadum.Theory.SpendLimit

/-!
# Dating Payments Back

The spend limit against a clock that lags (T12). A payment is logged with the
reading of the device's clock and counts until the reading has moved on by the
window, while the limit is about true time. A reading that lags counts more, not
less. But a payment dated back leaves the window early once the clock is set
right again, so putting the clock back and forth buys allowance.

What the limit needs is that no payment goes out of sight early: a reservation
less than a window after a payment, in true time, has a reading less than a
window after its reading. Then true time has no window above the limit.

## Main definitions

* `TimedCommand`, `timedStep`: A command with the true time of its call and of its
  end.
* `DatedPayment`, `datedPayments`: The payments of a run, by both times.
* `InSight`: No recent payment has gone out of sight.
* `SeesRecent`: What a reservation is held to.

## Theorems

* `showsRecent_reserved`, `showsRecent_paid`: A reservation keeps in sight what is
  recent.
* `recent_kept`: Every operation does.
* `limitTrue_step`: A sequential command that sees what is recent keeps the limit.
* `true_window_le`: No window of true time holds more than the limit.
* `dated_back_spends_twice`: Without it an instant can hold twice as much.
-/

namespace Vadum

open Async (eventAt history)
open Window

variable {ρ : Type}

section Timing

/-- A command, with the true time at which it is called and at which it ends. -/
structure TimedCommand where
  command : PoolCommand
  called : Int
  resolved : Int

def timedStep (network : Network ρ) (pool : PoolConfig) (c : TimedCommand) (sys : PoolSys ρ) :
    Option (Except Thrown PoolResult) × PoolSys ρ :=
  poolStep network pool c.command sys

abbrev TimedEvent (ρ : Type) : Type :=
  Async.Event TimedCommand (Option (Except Thrown PoolResult)) (PoolSys ρ)

/-- The event without its times. -/
def untimed (e : TimedEvent ρ) : PoolEvent ρ := ⟨e.op.command, e.before, e.result, e.after⟩

/-- What happens in a run of a pool. -/
abbrev timedHistory (network : Network ρ) (pool : PoolConfig) (sys : PoolSys ρ)
    (commands : List TimedCommand) : List (TimedEvent ρ) :=
  history (timedStep network pool) sys commands

/-- One command after another, and true time never goes back. -/
structure Sequential (commands : List TimedCommand) : Prop where
  ends : ∀ c ∈ commands, c.called ≤ c.resolved
  forward : commands.Pairwise fun c c' => c.resolved ≤ c'.called

/-- No clock reading is ahead of true time. -/
def NeverAhead (commands : List TimedCommand) : Prop :=
  ∀ c ∈ commands, ∀ now, c.command.reading = some now → now ≤ c.called

/-- A reservation that resolved: when it did, and what it was logged with. -/
structure DatedPayment where
  resolved : Int
  now : Int
  amount : Int
deriving DecidableEq

def datedPayments (events : List (TimedEvent ρ)) : List DatedPayment :=
  events.filterMap fun e => (made (untimed e)).map fun m => ⟨e.op.resolved, m.now, m.amount⟩

/-- The amounts of some payments by true time. -/
def trueLog (payments : List DatedPayment) : List (Int × Int) :=
  payments.map fun p => (p.resolved, p.amount)

end Timing

section Showing

variable {pool : PoolConfig}

/-- Of the payments of the last window of true time, each counts at a reading. -/
def InSight (pool : PoolConfig) (payments : List DatedPayment) (t now : Int) : Prop :=
  ∀ p ∈ payments, t < p.resolved + pool.spendLimitWindowMs →
    now < p.now + pool.spendLimitWindowMs

/-- From a time on, the log of a ledger shows at least the recent payments wherever
    they are in sight. -/
structure ShowsRecent (pool : PoolConfig) (payments : List DatedPayment) (start : Int)
    (s : Option PoolState) : Prop where
  nonneg : Nonneg (entriesOf s)
  shows_recent : ∀ t now, start ≤ t → InSight pool payments t now →
    sumAfter (trueLog payments) (t - pool.spendLimitWindowMs)
      ≤ sumAfter (entriesOf s) (now - pool.spendLimitWindowMs)

theorem InSight.later {payments : List DatedPayment} {t t' now : Int}
    (h : InSight pool payments t now) (ht : t ≤ t') : InSight pool payments t' now :=
  fun p hp hrecent => h p hp (lt_of_le_of_lt ht hrecent)

theorem InSight.max {payments : List DatedPayment} {t now now' : Int}
    (h : InSight pool payments t now) (h' : InSight pool payments t now') :
    InSight pool payments t (max now now') :=
  fun p hp hrecent => max_lt (h p hp hrecent) (h' p hp hrecent)

theorem ShowsRecent.later {payments : List DatedPayment} {start start' : Int}
    {s : Option PoolState} (h : ShowsRecent pool payments start s) (hle : start ≤ start') :
    ShowsRecent pool payments start' s :=
  ⟨h.nonneg, fun t now ht => h.shows_recent t now (hle.trans ht)⟩

/-- A ledger that keeps the log of another shows as much. -/
theorem ShowsRecent.congr {payments : List DatedPayment} {start : Int} {s s' : Option PoolState}
    (h : ShowsRecent pool payments start s) (heq : entriesOf s' = entriesOf s) :
    ShowsRecent pool payments start s' :=
  ⟨heq ▸ h.nonneg, fun t now ht hsight => heq ▸ h.shows_recent t now ht hsight⟩

/-- The log of a ledger with a reservation: the old one pruned, and the new entry. -/
theorem entriesOf_reserved (state : PoolState) (slot : PoolSlot) (value : Nonce)
    (merchant : Address) (now amount : Int) :
    entriesOf (some (reserved pool state slot value merchant now amount))
      = ((entriesOf (some state)).filter fun e => now - pool.spendLimitWindowMs < e.1)
        ++ [(now, amount)] := by
  simp only [entriesOf, reserved, Option.bind_some, Option.getD_some, List.map_append,
    List.map_cons, List.map_nil, counted_map]

/-- Pruning at a reading leaves what is in sight there. -/
theorem shows_pruned {payments : List DatedPayment} {start now : Int} {state : PoolState}
    (h : ShowsRecent pool payments start (some state)) (hsight : InSight pool payments start now)
    {t now' : Int} (ht : start ≤ t) (hsight' : InSight pool payments t now') :
    sumAfter (trueLog payments) (t - pool.spendLimitWindowMs)
      ≤ sumAfter ((entriesOf (some state)).filter fun e => now - pool.spendLimitWindowMs < e.1)
        (now' - pool.spendLimitWindowMs) := by
  have hnonneg : Nonneg ((entriesOf (some state)).filter fun e =>
      now - pool.spendLimitWindowMs < e.1) :=
    fun e he => h.nonneg e (List.mem_of_mem_filter he)
  have hshown := h.shows_recent t (max now' now) ht (hsight'.max (hsight.later ht))
  have hstart : now - pool.spendLimitWindowMs ≤ max now' now - pool.spendLimitWindowMs := by omega
  rw [← sumAfter_prune (entriesOf (some state)) hstart] at hshown
  exact hshown.trans (sumAfter_mono hnonneg (by omega))

theorem nonneg_reserved {state : PoolState} (h : Nonneg (entriesOf (some state)))
    (slot : PoolSlot) (value : Nonce) (merchant : Address) {now amount : Int} (hpos : 0 < amount) :
    Nonneg (entriesOf (some (reserved pool state slot value merchant now amount))) := by
  intro e he
  rw [entriesOf_reserved] at he
  rcases List.mem_append.mp he with he | he
  · exact h e (List.mem_of_mem_filter he)
  · rw [List.mem_singleton.mp he]
    exact hpos.le

/-- A reservation that has everything recent in sight keeps it in sight. -/
theorem showsRecent_reserved {payments : List DatedPayment} {start now amount : Int}
    {state : PoolState} (h : ShowsRecent pool payments start (some state))
    (hsight : InSight pool payments start now) (hpos : 0 < amount) (slot : PoolSlot)
    (value : Nonce) (merchant : Address) :
    ShowsRecent pool payments start
      (some (reserved pool state slot value merchant now amount)) := by
  refine ⟨nonneg_reserved h.nonneg slot value merchant hpos, fun t now' ht hsight' => ?_⟩
  have hpruned := shows_pruned h hsight ht hsight'
  rw [entriesOf_reserved, sumAfter_append, sumAfter_singleton]
  split
  · omega
  · omega

/-- And the payment it makes is in sight too. -/
theorem showsRecent_paid {payments : List DatedPayment} {start now amount resolved : Int}
    {state : PoolState} (h : ShowsRecent pool payments start (some state))
    (hsight : InSight pool payments start now) (hpos : 0 < amount) (slot : PoolSlot)
    (value : Nonce) (merchant : Address) :
    ShowsRecent pool (payments ++ [⟨resolved, now, amount⟩]) start
      (some (reserved pool state slot value merchant now amount)) := by
  refine ⟨nonneg_reserved h.nonneg slot value merchant hpos, fun t now' ht hsight' => ?_⟩
  have hpruned := shows_pruned h hsight ht fun p hp => hsight' p (List.mem_append_left _ hp)
  -- The new payment is recent or it is not, and only then has it to be in sight.
  have hlast := hsight' _ (List.mem_append_right _ (List.mem_singleton_self _))
  have hlog : trueLog (payments ++ [⟨resolved, now, amount⟩])
      = trueLog payments ++ [(resolved, amount)] := List.map_append
  rw [hlog, entriesOf_reserved, sumAfter_append, sumAfter_append, sumAfter_singleton,
    sumAfter_singleton]
  dsimp only at hlast ⊢
  split
  · next hrecent =>
    rw [if_pos (by have := hlast (by omega); omega)]
    omega
  · split
    · omega
    · omega

end Showing

section Running

/-- A ledger has room and a slot for a payment. -/
def Reservable (pool : PoolConfig) (ledger : Option PoolState) (now amount : Int) : Prop :=
  ∃ state slot value, ledger = some state ∧ 0 < amount ∧
    amount ≤ (Pool.allowanceOf pool (some state) now).remaining ∧
    Pool.chooseSlot state = some slot ∧ slot.value = some value

/-- A reservation the ledger has room and a slot for has every payment of the last
    window of true time in sight. -/
def SeesRecent (pool : PoolConfig) (pre : List (TimedEvent ρ)) (e : TimedEvent ρ) : Prop :=
  ∀ merchant now amount, e.op.command.op = some (.reserveSlot merchant now amount) →
    Reservable pool (e.before.ledger pool) now amount →
    InSight pool (datedPayments pre) e.op.called now

variable {pool : PoolConfig} {payments : List DatedPayment} {start : Int} {sys : PoolSys ρ}
  {command : PoolCommand}

/-- The reservation of a command, if it is one, has everything recent in sight. -/
def SeesPayments (pool : PoolConfig) (payments : List DatedPayment) (start : Int)
    (command : PoolCommand) : Prop :=
  ∀ merchant now amount, command.op = some (.reserveSlot merchant now amount) →
    InSight pool payments start now

/-- What an operation has in memory shows what is recent, and is what it started
    from, or it has written and was entitled to. -/
structure Recent (pool : PoolConfig) (payments : List DatedPayment) (start : Int)
    (command : PoolCommand) (sys : PoolSys ρ) (s : Option PoolState) : Prop where
  shows_recent : ShowsRecent pool payments start s
  source : s = sys.ledger pool ∨ SeesPayments pool payments start command

/-- So does the store, from where it may be read if there is none in memory. -/
structure RecentStored (pool : PoolConfig) (payments : List DatedPayment) (start : Int)
    (command : PoolCommand) (sys : PoolSys ρ) (s : Option PoolState) : Prop where
  shows_recent : ShowsRecent pool payments start s
  source : sys.current = none → s = sys.ledger pool ∨ SeesPayments pool payments start command

/-- A reservation that goes through has everything recent in sight. -/
theorem Recent.sees {state : PoolState} (h : Recent pool payments start command sys (some state))
    (hsees : ∀ merchant now amount, command.op = some (.reserveSlot merchant now amount) →
      Reservable pool (sys.ledger pool) now amount → InSight pool payments start now)
    {merchant : Address} {now amount : Int}
    (hop : command.op = some (.reserveSlot merchant now amount)) (hpos : 0 < amount)
    (hwithin : amount ≤ (Pool.allowanceOf pool (some state) now).remaining) {slot : PoolSlot}
    (hchosen : Pool.chooseSlot state = some slot) {value : Nonce}
    (hknown : slot.value = some value) :
    SeesPayments pool payments start command := by
  rcases h.source with hstate | hsees'
  · intro merchant' now' amount' hop'
    cases hop.symm.trans hop'
    exact hsees _ _ _ hop ⟨state, slot, value, hstate.symm, hpos, hwithin, hchosen, hknown⟩
  · exact hsees'

/-- Every operation keeps in sight what is recent. -/
theorem recent_kept (network : Network ρ) {op : PoolOp} (hop : command.op = some op)
    (hsees : ∀ merchant now amount, command.op = some (.reserveSlot merchant now amount) →
      Reservable pool (sys.ledger pool) now amount → InSight pool payments start now) :
    Kept network pool op sys (fun _ => Recent pool payments start command sys)
      (fun _ => RecentStored pool payments start command sys) where
  memory := fun _ _ _ _ h => h
  store := fun _ _ _ _ h => h
  persist := fun _ _ h => ⟨h.shows_recent, fun _ => h.source⟩
  load := fun _ _ hnone h => ⟨h.shows_recent, h.source hnone⟩
  move := fun m n past state state' _ _ _ hk hmove => by
    have hother (h : ∀ merchant now amount, op ≠ .reserveSlot merchant now amount) :
        SeesPayments pool payments start command := fun merchant now amount hop' =>
      absurd (Option.some.inj (hop.symm.trans hop')) (h merchant now amount)
    cases hmove with
    -- Only this move writes to the log.
    | reserve positive within chosen known =>
        have hsees' := hk.sees hsees hop positive within chosen known
        exact ⟨showsRecent_reserved hk.shows_recent (hsees' _ _ _ hop) positive _ _ _, .inr hsees'⟩
    | returned => exact ⟨hk.shows_recent.congr rfl, .inr (hother fun _ _ _ => PoolOp.noConfusion)⟩
    | reread online =>
        refine ⟨hk.shows_recent.congr rfl, .inr (hother ?_)⟩
        rcases online with rfl | ⟨size, key, rfl⟩
        · exact fun _ _ _ => PoolOp.noConfusion
        · exact fun _ _ _ => PoolOp.noConfusion
    | reconciled slots =>
        have hlog : state'.spendLog = state.spendLog := slots.spendLog_eq
        refine ⟨hk.shows_recent.congr ?_, .inr (hother fun _ _ _ => PoolOp.noConfusion)⟩
        simp only [entriesOf, Option.bind_some, hlog]
    | closed => exact ⟨hk.shows_recent.congr rfl, .inr (hother fun _ _ _ => PoolOp.noConfusion)⟩
  new := fun n past seen state _ _ hstored hseen hnew => by
    have hother (h : ∀ merchant now amount, op ≠ .reserveSlot merchant now amount) :
        SeesPayments pool payments start command := fun merchant now amount hop' =>
      absurd (Option.some.inj (hop.symm.trans hop')) (h merchant now amount)
    -- A new ledger takes over the log of the one in memory or in the store.
    have hsource : ∀ source, (source = seen ∧ seen ≠ none ∨ seen = none ∧
        ReadStore pool past source) → ShowsRecent pool payments start source := by
      rintro source (⟨rfl, hne⟩ | ⟨_, hr⟩)
      · rcases Option.ne_none_iff_exists'.mp hne with ⟨prior, hprior⟩
        exact (hseen prior hprior).shows_recent
      · exact (hstored source hr).shows_recent
    cases hnew with
    | created bounds setup sent prior =>
        exact ⟨(hsource _ prior).congr rfl, .inr (hother fun _ _ _ => PoolOp.noConfusion)⟩
    | recovered probed prior =>
        exact ⟨(hsource _ prior).congr rfl, .inr (hother fun _ _ _ => PoolOp.noConfusion)⟩

/-- What holds in a run so far: both ledgers show what is recent, and no payment took
    true time past the limit. -/
structure LimitTrue (pool : PoolConfig) (events : List (TimedEvent ρ)) (sys : PoolSys ρ) :
    Prop where
  ledgers : ∀ t, (∀ e ∈ events, e.op.resolved ≤ t) →
    Ledgers pool (fun _ => ShowsRecent pool (datedPayments events) t)
      (fun _ => ShowsRecent pool (datedPayments events) t) sys
  admitted : Admitted pool.spendLimitWindowMs pool.spendLimit (trueLog (datedPayments events))

theorem datedPayments_snoc (events : List (TimedEvent ρ)) (e : TimedEvent ρ) :
    datedPayments (events ++ [e])
      = datedPayments events
        ++ ((made (untimed e)).map fun m => ⟨e.op.resolved, m.now, m.amount⟩).toList := by
  rw [datedPayments, List.filterMap_append, ← datedPayments]
  rcases hmade : made (untimed e) with _ | m
  · simp only [List.filterMap_cons, hmade, Option.map_none, List.filterMap_nil,
      Option.toList_none]
  · simp only [List.filterMap_cons, hmade, Option.map_some, List.filterMap_nil,
      Option.toList_some]

/-- A command that is called when the last one has ended, and sees what is recent,
    keeps it. -/
theorem limitTrue_step (network : Network ρ) {events : List (TimedEvent ρ)} {c : TimedCommand}
    (hcalled : ∀ e ∈ events, e.op.resolved ≤ c.called) (hends : c.called ≤ c.resolved)
    (hsees : SeesRecent pool events (eventAt (timedStep network pool) c sys))
    (h : LimitTrue pool events sys) :
    LimitTrue pool (events ++ [eventAt (timedStep network pool) c sys])
      (timedStep network pool c sys).2 := by
  have hkept : ∀ op, c.command.op = some op → Kept network pool op sys
      (fun _ => Recent pool (datedPayments events) c.called c.command sys)
      (fun _ => RecentStored pool (datedPayments events) c.called c.command sys) :=
    fun op hop => recent_kept network hop hsees
  have hstart : Ledgers pool
      (fun _ => Recent pool (datedPayments events) c.called c.command sys)
      (fun _ => RecentStored pool (datedPayments events) c.called c.command sys) sys :=
    ⟨fun state hs => ⟨(h.ledgers c.called hcalled).memory state hs,
        .inl ((ledger_eq sys pool).1 state hs).symm⟩,
      (h.ledgers c.called hcalled).store,
      fun hnone => .inl ((ledger_eq sys pool).2 hnone).symm⟩
  -- From the end of this command on, what is recent was so at its call too.
  have hlater : ∀ t, (∀ e ∈ events ++ [eventAt (timedStep network pool) c sys],
      e.op.resolved ≤ t) → c.called ≤ t := fun t ht =>
    hends.trans (ht _ (List.mem_append_right _ (List.mem_singleton_self _)))
  have hsnoc := datedPayments_snoc events (eventAt (timedStep network pool) c sys)
  rcases hmade : made (untimed (eventAt (timedStep network pool) c sys)) with _ | m
  · rw [hmade, Option.map_none, Option.toList_none, List.append_nil] at hsnoc
    have hafter := command_kept hkept hstart
    refine ⟨?_, hsnoc ▸ h.admitted⟩
    rw [hsnoc]
    exact fun t ht => ⟨fun state hs => (hafter.memory state hs).shows_recent.later (hlater t ht),
      hafter.store.shows_recent.later (hlater t ht)⟩
  · rw [hmade, Option.map_some, Option.toList_some] at hsnoc
    rcases c with ⟨command, called, resolved⟩
    have hop : command = .call (.reserveSlot m.merchant m.now m.amount) := (made_eq hmade).1
    subst hop
    rcases (op_kept (hkept _ rfl) hstart).2 m hmade with ⟨state, slot, hm⟩
    -- The ledger it was made from was in sight of everything recent.
    have hsight := hm.kept.sees hsees rfl hm.positive hm.within hm.chosen hm.known _ _ _ rfl
    have hpaid := @showsRecent_paid pool _ _ _ _ resolved _ hm.kept.shows_recent hsight hm.positive
      slot m.reservation.value m.merchant
    refine ⟨?_, ?_⟩
    · rw [hsnoc]
      intro t ht
      exact hm.ledgers (hpaid.later (hlater t ht))
    · have hlog : trueLog (datedPayments events ++ [⟨resolved, m.now, m.amount⟩])
          = trueLog (datedPayments events) ++ [(resolved, m.amount)] := List.map_append
      rw [hsnoc]
      refine hlog ▸ .snoc h.admitted hm.positive.le ?_
      -- What is recent at the end is no more than what was counted at the reading.
      have hshown := hm.kept.shows_recent.shows_recent resolved m.now hends (hsight.later hends)
      have := spent_add_le hm.positive hm.within
      dsimp only
      omega

/-- Before any payment a ledger shows what is recent, if it was never written. -/
theorem limitTrue_fresh (hfresh : sys.Fresh pool) :
    LimitTrue pool ([] : List (TimedEvent ρ)) sys := by
  have hnone : ∀ t, ShowsRecent pool [] t none :=
    fun _ => ⟨fun _ he => absurd he List.not_mem_nil, fun _ _ _ _ => le_refl _⟩
  refine ⟨fun t _ => ⟨fun state hs => ?_, ?_⟩, .nil⟩
  · rw [hfresh.1] at hs
    cases hs
  · rw [hfresh.2]
    exact hnone t

/-- What a command of a sequential run comes after has ended. -/
theorem Sequential.between {network : Network ρ} {commands : List TimedCommand}
    (h : Sequential commands) {pre post : List (TimedEvent ρ)} {e : TimedEvent ρ}
    (hsplit : timedHistory network pool sys commands = pre ++ e :: post) :
    (∀ e' ∈ pre, e'.op.resolved ≤ e.op.called) ∧ e.op.called ≤ e.op.resolved := by
  rcases Async.history_split _ hsplit with ⟨before, after, rfl, hbefore, hafter⟩
  have he : e.op ∈ after := Async.op_mem_of_mem _ (hafter ▸ List.mem_cons_self)
  refine ⟨fun e' he' => ?_, h.ends _ (List.mem_append_right _ he)⟩
  have hmem : e'.op ∈ before := Async.op_mem_of_mem _ (hbefore ▸ he')
  exact (List.pairwise_append.mp h.forward).2.2 _ hmem _ he

/-- In every run whose reservations have in sight what is recent, no window of true
    time holds more than the limit. -/
theorem true_window_le (network : Network ρ) (pool : PoolConfig) (hlimit : 0 ≤ pool.spendLimit)
    {sys : PoolSys ρ} (hfresh : sys.Fresh pool) (commands : List TimedCommand)
    (hsequential : Sequential commands)
    (hsees : ∀ pre e post, timedHistory network pool sys commands = pre ++ e :: post →
      SeesRecent pool pre e) (t : Int) :
    sumIn (trueLog (datedPayments (timedHistory network pool sys commands))) t
      (t + pool.spendLimitWindowMs) ≤ pool.spendLimit := by
  have hrule := @Async.history_rule _ _ _ (timedStep network pool) (LimitTrue pool)
    -- What the run promises of an event, given the events before it.
    (fun pre e => ((∀ e' ∈ pre, e'.op.resolved ≤ e.op.called) ∧ e.op.called ≤ e.op.resolved) ∧
      SeesRecent pool pre e)
    (fun _ _ _ h hA => limitTrue_step network hA.1.1 hA.1.2 hA.2 h)
    [] sys commands (limitTrue_fresh hfresh)
    fun pre e post hsplit => ⟨hsequential.between hsplit, hsees pre e post hsplit⟩
  exact hrule.1.admitted.window_le hlimit t

/-- A payment has the reading of its command. -/
theorem reading_of_datedPayments {events : List (TimedEvent ρ)} {p : DatedPayment}
    (h : p ∈ datedPayments events) :
    ∃ e ∈ events, e.op.command.reading = some p.now := by
  rcases List.mem_filterMap.mp h with ⟨e, he, hmap⟩
  rcases Option.map_eq_some_iff.mp hmap with ⟨m, hmade, rfl⟩
  have hop : e.op.command = .call (.reserveSlot m.merchant m.now m.amount) := (made_eq hmade).1
  exact ⟨e, he, congrArg PoolCommand.reading hop⟩

/-- Readings less than a window apart leave every payment in sight. -/
theorem seesRecent_of_near (network : Network ρ) {commands : List TimedCommand}
    (hnear : ∀ c ∈ commands, ∀ c' ∈ commands, ∀ now, c.command.reading = some now →
      ∀ now', c'.command.reading = some now' → now < now' + pool.spendLimitWindowMs)
    {pre post : List (TimedEvent ρ)} {e : TimedEvent ρ}
    (hsplit : timedHistory network pool sys commands = pre ++ e :: post) :
    SeesRecent pool pre e := by
  intro merchant now amount hop _ p hp _
  rcases reading_of_datedPayments hp with ⟨e', he', hreading⟩
  have hmem : ∀ x ∈ pre ++ e :: post, x.op ∈ commands := fun x hx =>
    Async.op_mem_of_mem _ (hsplit ▸ hx)
  exact hnear _ (hmem e (List.mem_append_right _ List.mem_cons_self)) _
    (hmem e' (List.mem_append_left _ he')) now
    (by rw [PoolCommand.reading, hop]) p.now hreading

/-- A payment dated to the clock's start, a window after it, and another once the
    clock is set right. -/
def datedBackRun : List TimedCommand :=
  [⟨.call (.create 2 (testKey 1)), 0, 0⟩,
    ⟨.call (.reserveSlot (testAddress 2) 0 defaultSpendLimit), spendLimitWindowMs,
      spendLimitWindowMs⟩,
    ⟨.call (.reserveSlot (testAddress 2) spendLimitWindowMs defaultSpendLimit),
      spendLimitWindowMs, spendLimitWindowMs⟩]

/-- The clock is never ahead, and an instant holds twice the limit. -/
theorem dated_back_spends_twice :
    spendingStart.Fresh testPool ∧ Sequential datedBackRun ∧ NeverAhead datedBackRun ∧
      testPool.spendLimit < sumIn
        (trueLog (datedPayments (timedHistory fakeNetwork testPool spendingStart datedBackRun)))
        spendLimitWindowMs (spendLimitWindowMs + testPool.spendLimitWindowMs) := by
  refine ⟨⟨rfl, rfl⟩, ⟨by decide, by decide⟩, ?_, by decide +kernel⟩
  unfold NeverAhead
  decide

/-- A clock that lags, and is put back between two payments. -/
def laggingRun : List TimedCommand :=
  [⟨.call (.create 2 (testKey 1)), 0, 0⟩,
    ⟨.call (.reserveSlot (testAddress 2) 5 60000000), 1000, 1000⟩,
    ⟨.call (.reserveSlot (testAddress 2) 3 40000000), 2000, 2000⟩]

theorem true_window_le_laggingRun :
    trueLog (datedPayments (timedHistory fakeNetwork testPool spendingStart laggingRun))
        = [(1000, 60000000), (2000, 40000000)] ∧
      sumIn (trueLog (datedPayments
        (timedHistory fakeNetwork testPool spendingStart laggingRun))) 1000
        (1000 + testPool.spendLimitWindowMs) ≤ testPool.spendLimit :=
  ⟨by decide +kernel, true_window_le fakeNetwork testPool (by decide) ⟨rfl, rfl⟩ laggingRun
    ⟨by decide, by decide⟩ (fun _ _ _ hsplit => seesRecent_of_near fakeNetwork (by decide) hsplit)
    1000⟩

end Running

end Vadum
