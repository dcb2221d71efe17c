import Vadum.Theory.Consent

/-!
# A Stolen Device

Whoever holds an unlocked device can tap whatever its screens offer, scan what
they like, type amounts, refresh, recover, close the pool and set it up again,
and close the app and open it (T12). The limit per payment says nothing about how
many payments there are. The limit of the pool does: its log goes with the ledger
through everything that a tap does to it, and every signature is paired with a
reservation that was made by looking back at the log.

What is counted is what the key was asked to sign, and not what was shown or
accepted by anyone. Only the stored ledger has to stay: a device that loses it has
lost the log as well.

## Main definitions

* `signedFor`: What an event signs for.
* `signedWithin`: What is signed for while the device is held.

## Theorems

* `LossyRun.admitted`: A run that keeps what is stored reserves by looking back.
* `signedWithin_le`: What is signed for was reserved.
* `device_theft_bound`: It stays within `theftExposure`.
-/

namespace Vadum

open Window

variable {ρ : Type}

section Lossless

variable {network : Network ρ} {pool : PoolConfig}

/-- Every command keeps what holds in a run so far, if no clock reading was later. -/
theorem LimitHeld.step {events : List (PoolEvent ρ)} {sys : PoolSys ρ}
    (h : LimitHeld pool events sys) {command : PoolCommand}
    (hclock : ∀ now, command.reading = some now → ∀ t ∈ readings events, t ≤ now) :
    LimitHeld pool (events ++ [Async.eventAt (poolStep network pool) command sys])
      (poolStep network pool command sys).2 := by
  cases hmade : made (Async.eventAt (poolStep network pool) command sys) with
  | none => exact limitHeld_silent network hmade h
  | some m =>
      cases (made_eq hmade).1
      exact limitHeld_made network hmade (hclock m.now rfl) h

/-- Where the stored ledger stays, one that goes from memory shows nothing less. -/
theorem LimitHeld.elsewhere {events : List (PoolEvent ρ)} {sys sys' : PoolSys ρ}
    (h : LimitHeld pool events sys) (he : Elsewhere network pool False sys sys') :
    LimitHeld pool events sys' := by
  refine ⟨⟨fun state hstate => ?_, ?_⟩, h.admitted⟩
  · rcases he.memory with hmemory | hmemory
    · rw [hmemory] at hstate ⊢
      exact h.ledgers.memory state hstate
    · cases hmemory.symm.trans hstate
  · rcases he.store with hstore | ⟨hlost, _⟩
    · exact hstore ▸ h.ledgers.store
    · exact hlost.elim

/-- The reservations of a run in which the stored ledger stays were made by looking
    back, if the clock readings never decrease. -/
theorem LossyRun.admitted {sys sys' : PoolSys ρ} (hfresh : sys.Fresh pool)
    {events : List (PoolEvent ρ)} (hrun : LossyRun network pool False sys events sys')
    (hclock : (readings events).Pairwise (· ≤ ·)) :
    Window.Admitted pool.spendLimitWindowMs pool.spendLimit (reservations events) := by
  have hstart : LimitHeld pool ([] : List (PoolEvent ρ)) sys := by
    refine ⟨⟨fun state hs => (nomatch hfresh.1.symm.trans hs), fun now _ => ?_⟩, .nil⟩
    rw [hfresh.2]
    exact le_refl _
  refine (hrun.rule (J := LimitHeld pool)
    (A := fun pre e => ∀ now, e.op.reading = some now → ∀ t ∈ readings pre, t ≤ now)
    (fun _ _ _ h hA => h.step hA) (fun _ _ _ h he => h.elsewhere he) hstart ?_).1.admitted
  intro pre e post hsplit now hnow t ht
  rw [hsplit, readings_append, List.pairwise_append] at hclock
  exact hclock.2.2 t ht now (List.mem_filterMap.mpr ⟨e, List.mem_cons_self, hnow⟩)

end Lossless

namespace PayerApp

open Async.Process (requests)

section Signed

variable (network : Network ρ) (app : DeviceConfig)

/-- How often an event asks the key for a signature. -/
def signatures (e : TapEvent ρ) : Nat :=
  (requests (reply network) (e.op.process app e.before.vars.screen) e.before.vars
    e.before.world).countP fun entry => entry.1.isSign

/-- What an event signs for: with every signature, the amount that is confirmed. -/
def signedFor (e : TapEvent ρ) : Int :=
  match e.before.vars.screen with
  | .confirm _ amount _ => signatures network app e * amount
  | _ => 0

/-- What is signed for in the taps from one time to another. -/
def signedWithin (events : List (TapEvent ρ)) (t t' : Int) : Int :=
  ((events.filter fun e => t ≤ network.clock e.before.world.net ∧
    network.clock e.after.world.net ≤ t').map (signedFor network app)).sum

variable {network app}

/-- What is reserved in an event is for the amount that it confirms, while it lasts. -/
theorem reserved_in {e : TapEvent ρ} (he : e = Async.eventAt (deviceTap app network) e.op e.before)
    (hclock : ∀ n n', Later network n n' → network.clock n ≤ network.clock n')
    {c : PoolEvent ρ} (hc : c ∈ commands network app e) {m : MadeReservation}
    (hmade : made c = some m) :
    (∃ intent warning, e.before.vars.screen = .confirm intent m.amount warning) ∧
      network.clock e.before.world.net ≤ m.now ∧ m.now ≤ network.clock e.after.world.net := by
  rcases commands_spec he with ⟨hlossy, hcaused, _⟩
  rcases hcaused c hc with ⟨op, hcall, hcause⟩
  cases (made_eq hmade).1.symm.trans hcall
  rcases hcause with ⟨⟨_, intent, warning, _, hscreen⟩, hnow⟩
  rcases hlossy.event hc with ⟨hevent, hbefore, hafter⟩
  have hcommand := command_later network app.pool c.op c.before
  rw [show (poolStep network app.pool c.op c.before).2 = c.after from
    (congrArg Async.Event.after hevent).symm] at hcommand
  rw [hnow]
  exact ⟨⟨intent, warning, hscreen⟩, hclock _ _ hbefore, hclock _ _ (hcommand.trans hafter)⟩

/-- Reservations that are all for one amount. -/
theorem sum_reservations {amount : Int} {events : List (PoolEvent ρ)}
    (h : ∀ c ∈ events, ∀ m, made c = some m → m.amount = amount) :
    ((reservations events).map Prod.snd).sum
      = (events.countP fun c => (made c).isSome) * amount := by
  induction events with
  | nil => exact (zero_mul amount).symm
  | cons c events ih =>
      have hrest := ih fun c' hc' => h c' (List.mem_cons_of_mem _ hc')
      cases hmade : made c with
      | none =>
          simp only [reservations, List.filterMap_cons, hmade, Option.map_none, List.countP_cons,
            Option.isSome_none, Bool.false_eq_true, if_false, Nat.add_zero]
          exact hrest
      | some m =>
          simp only [reservations, List.filterMap_cons, hmade, Option.map_some, List.countP_cons,
            Option.isSome_some, if_true, List.map_cons, List.sum_cons, Nat.cast_add, Nat.cast_one,
            add_mul, one_mul, h c List.mem_cons_self m hmade]
          rw [add_comm]
          exact congrArg (· + amount) hrest

/-- So an event signs for no more than it reserves, all of it while it lasts. -/
theorem signedFor_le {e : TapEvent ρ} (he : e = Async.eventAt (deviceTap app network) e.op e.before)
    (hclock : ∀ n n', Later network n n' → network.clock n ≤ network.clock n')
    (hnonneg : Nonneg (reservations (commands network app e))) {t t' : Int}
    (hstart : t ≤ network.clock e.before.world.net)
    (hend : network.clock e.after.world.net ≤ t') :
    signedFor network app e ≤ sumWithin (reservations (commands network app e)) t t' := by
  -- All of the event's reservations are within these times.
  have hall : sumWithin (reservations (commands network app e)) t t'
      = ((reservations (commands network app e)).map Prod.snd).sum := by
    rw [sumWithin, List.filter_eq_self.mpr]
    intro r hr
    rcases List.mem_filterMap.mp hr with ⟨c, hc, hmap⟩
    rcases Option.map_eq_some_iff.mp hmap with ⟨m, hmade, rfl⟩
    rcases (reserved_in he hclock hc hmade).2 with ⟨hlow, hhigh⟩
    exact decide_eq_true ⟨hstart.trans hlow, hhigh.trans hend⟩
  have hpaired : signatures network app e
      ≤ (commands network app e).countP fun c => (made c).isSome :=
    (tap_spec network app e.op e.before).choose_spec.2.2.2.2
  rw [hall]
  cases hscreen : e.before.vars.screen with
  | confirm intent amount warning =>
      have hsame : ∀ c ∈ commands network app e, ∀ m, made c = some m → m.amount = amount := by
        intro c hc m hmade
        rcases (reserved_in he hclock hc hmade).1 with ⟨_, _, hconfirm⟩
        cases hscreen.symm.trans hconfirm
        rfl
      rw [sum_reservations hsame]
      simp only [signedFor, hscreen]
      rcases Nat.eq_zero_or_pos ((commands network app e).countP fun c => (made c).isSome) with
        hnone | hsome
      · rw [Nat.le_zero.mp (hpaired.trans hnone.le), hnone]
      · rcases List.countP_pos_iff.mp hsome with ⟨c, hc, hmade⟩
        rcases Option.isSome_iff_exists.mp hmade with ⟨m, hmade⟩
        have hamount : 0 ≤ m.amount := hnonneg _ (List.mem_filterMap.mpr
          ⟨c, hc, congrArg (Option.map fun m => (m.now, m.amount)) hmade⟩)
        rw [hsame c hc m hmade] at hamount
        exact mul_le_mul_of_nonneg_right (Int.ofNat_le.mpr hpaired) hamount
  | _ =>
      simp only [signedFor, hscreen]
      exact List.sum_nonneg fun a ha => by
        rcases List.mem_map.mp ha with ⟨r, hr, rfl⟩
        exact hnonneg r hr

/-- What is signed for from one time to another was reserved then. -/
theorem signedWithin_le {events : List (TapEvent ρ)}
    (hevent : ∀ e ∈ events, e = Async.eventAt (deviceTap app network) e.op e.before)
    (hclock : ∀ n n', Later network n n' → network.clock n ≤ network.clock n')
    (hnonneg : Nonneg (reservations (events.flatMap (commands network app)))) (t t' : Int) :
    signedWithin network app events t t'
      ≤ sumWithin (reservations (events.flatMap (commands network app))) t t' := by
  induction events with
  | nil => exact le_rfl
  | cons e events ih =>
      rw [List.flatMap_cons, reservations_append] at hnonneg ⊢
      have hfirst : Nonneg (reservations (commands network app e)) := fun r hr =>
        hnonneg r (List.mem_append_left _ hr)
      have hrest := ih (fun e' he' => hevent e' (List.mem_cons_of_mem _ he'))
        fun r hr => hnonneg r (List.mem_append_right _ hr)
      have hsum : sumWithin (reservations (commands network app e)
          ++ reservations (events.flatMap (commands network app))) t t'
          = sumWithin (reservations (commands network app e)) t t'
            + sumWithin (reservations (events.flatMap (commands network app))) t t' := by
        simp only [sumWithin, List.filter_append, List.map_append, List.sum_append]
      rw [hsum]
      by_cases hin : t ≤ network.clock e.before.world.net ∧ network.clock e.after.world.net ≤ t'
      · have := signedFor_le (hevent e List.mem_cons_self) hclock hfirst hin.1 hin.2
        simp only [signedWithin, List.filter_cons, hin, and_self, decide_true, if_true,
          List.map_cons, List.sum_cons]
        exact add_le_add this hrest
      · have : 0 ≤ sumWithin (reservations (commands network app e)) t t' :=
          List.sum_nonneg fun a ha => by
            rcases List.mem_map.mp ha with ⟨r, hr, rfl⟩
            exact hfirst r (List.mem_of_mem_filter hr)
        simp only [signedWithin, List.filter_cons, hin, decide_false, Bool.false_eq_true, if_false]
        exact hrest.trans (le_add_of_nonneg_left this)

end Signed

end PayerApp

end Vadum
