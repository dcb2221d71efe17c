import Vadum.Theory.Closed
import Vadum.Theory.HandOut

/-!
# Lost Ledgers

A device may lose what it has stored, at any time, and so lose its ledger. It
never gets an old one back: what is lost is gone, and the slots that `recover`
finds on chain are of unknown history.

`LossyRun` is a run of a pool during which things happen elsewhere: the network
moves on, the app is closed, and the ledger goes from memory, from the store or
from both. Nothing is said of when or how often. The events of such a run need
not follow one another, so it is a relation and not a history.

## Main definitions

* `Elsewhere`: What may happen to a pool that none of its commands does.
* `LossyRun`: Commands, and losses between them.

## Theorems

* `LossyRun.rule`: The induction over such a run.
* `made_after_release`: A reservation of a value that is still out is not made.
* `hand_out_once_lossy`: Losses do not make a pool hand out a value again.
* `LossyRun.unspendable`: Nor do they give a pool something to spend.
-/

namespace Vadum

open Async (eventAt)

variable {ρ : Type} {network : Network ρ} {pool : PoolConfig} {lost : Prop}

/-- The network moves on, the ledger in memory may go, and the one in the store too
    where something is lost. -/
structure Elsewhere (network : Network ρ) (pool : PoolConfig) (lost : Prop)
    (sys sys' : PoolSys ρ) : Prop where
  later : Later network sys.world.net sys'.world.net
  memory : sys'.current = sys.current ∨ sys'.current = none
  store : sys'.stored pool = sys.stored pool ∨ lost ∧ sys'.stored pool = none

/-- A run of a pool with losses between its commands, where something is lost. -/
inductive LossyRun (network : Network ρ) (pool : PoolConfig) (lost : Prop) (sys : PoolSys ρ) :
    List (PoolEvent ρ) → PoolSys ρ → Prop
  | start : LossyRun network pool lost sys [] sys
  | command {events : List (PoolEvent ρ)} {sys' : PoolSys ρ} (command : PoolCommand)
      (h : LossyRun network pool lost sys events sys') :
      LossyRun network pool lost sys (events ++ [eventAt (poolStep network pool) command sys'])
        (poolStep network pool command sys').2
  | elsewhere {events : List (PoolEvent ρ)} {sys' sys'' : PoolSys ρ}
      (h : LossyRun network pool lost sys events sys')
      (he : Elsewhere network pool lost sys' sys'') :
      LossyRun network pool lost sys events sys''

namespace LossyRun

/-- One run after the other. -/
theorem append {sys sys' sys'' : PoolSys ρ} {events events' : List (PoolEvent ρ)}
    (h : LossyRun network pool lost sys events sys')
    (h' : LossyRun network pool lost sys' events' sys'') :
    LossyRun network pool lost sys (events ++ events') sys'' := by
  induction h' with
  | start => rwa [List.append_nil]
  | command command _ ih =>
      rw [← List.append_assoc]
      exact ih.command command
  | elsewhere _ he ih => exact ih.elsewhere he

/-- A run may be one where more is lost. -/
theorem mono {lost' : Prop} (hlost : lost → lost') {sys sys' : PoolSys ρ}
    {events : List (PoolEvent ρ)} (h : LossyRun network pool lost sys events sys') :
    LossyRun network pool lost' sys events sys' := by
  induction h with
  | start => exact .start
  | command command _ ih => exact ih.command command
  | elsewhere _ he ih =>
      exact ih.elsewhere { he with store := he.store.imp_right (.imp_left hlost) }

/-- A single command. -/
theorem single (command : PoolCommand) (sys : PoolSys ρ) :
    LossyRun network pool lost sys [eventAt (poolStep network pool) command sys]
      (poolStep network pool command sys).2 :=
  .command command .start

theorem later {sys sys' : PoolSys ρ} {events : List (PoolEvent ρ)}
    (h : LossyRun network pool lost sys events sys') :
    Later network sys.world.net sys'.world.net := by
  induction h with
  | start => exact .refl
  | command command _ ih => exact ih.trans (command_later network pool command _)
  | elsewhere _ he ih => exact ih.trans he.later

/-- The events of a run are its commands, one after another. -/
theorem event {sys sys' : PoolSys ρ} {events : List (PoolEvent ρ)}
    (h : LossyRun network pool lost sys events sys') {e : PoolEvent ρ} (he : e ∈ events) :
    e = eventAt (poolStep network pool) e.op e.before ∧
      Later network sys.world.net e.before.world.net ∧
      Later network e.after.world.net sys'.world.net := by
  induction h with
  | start => exact absurd he List.not_mem_nil
  | command command hrun ih =>
      rcases List.mem_append.mp he with he | he
      · exact ⟨(ih he).1, (ih he).2.1,
          (ih he).2.2.trans (command_later network pool command _)⟩
      · rw [List.mem_singleton.mp he]
        exact ⟨rfl, hrun.later, .refl⟩
  | elsewhere _ hlost ih => exact ⟨(ih he).1, (ih he).2.1, (ih he).2.2.trans hlost.later⟩

/-- The events of a run come one after another. -/
theorem ordered {sys sys' : PoolSys ρ} {events : List (PoolEvent ρ)}
    (h : LossyRun network pool lost sys events sys') :
    events.Pairwise fun e e' => Later network e.before.world.net e'.before.world.net := by
  induction h with
  | start => exact .nil
  | command command hrun ih =>
      refine List.pairwise_append.mpr ⟨ih, List.pairwise_singleton _ _, fun e he e' he' => ?_⟩
      rcases hrun.event he with ⟨hevent, _, hlater⟩
      rw [List.mem_singleton.mp he']
      refine .trans ?_ hlater
      rw [hevent]
      exact command_later network pool e.op e.before
  | elsewhere _ _ ih => exact ih

/-- The induction over a run. What every command keeps, given what the run assumes
    of it, and every loss, holds at the end and before every event. -/
theorem rule {J : List (PoolEvent ρ) → PoolSys ρ → Prop}
    {A : List (PoolEvent ρ) → PoolEvent ρ → Prop}
    (hcommand : ∀ events command sys, J events sys →
      A events (eventAt (poolStep network pool) command sys) →
      J (events ++ [eventAt (poolStep network pool) command sys])
        (poolStep network pool command sys).2)
    (helsewhere : ∀ events sys sys', J events sys → Elsewhere network pool lost sys sys' →
      J events sys')
    {sys sys' : PoolSys ρ} {events : List (PoolEvent ρ)}
    (hrun : LossyRun network pool lost sys events sys') (h : J [] sys)
    (hA : ∀ pre e post, events = pre ++ e :: post → A pre e) :
    J events sys' ∧ ∀ pre e post, events = pre ++ e :: post → J pre e.before := by
  induction hrun with
  | start => exact ⟨h, fun pre e post heq => absurd heq.symm (by
      simp only [List.append_eq_nil_iff, reduceCtorEq, and_false, not_false_eq_true])⟩
  | @command events sys' command _ ih =>
      rcases ih fun pre e post heq => hA pre e
          (post ++ [eventAt (poolStep network pool) command sys'])
          (by rw [heq, List.append_assoc, List.cons_append]) with ⟨hend, hbefore⟩
      refine ⟨hcommand _ _ _ hend (hA events _ [] rfl), fun pre e post heq => ?_⟩
      rcases Async.snoc_split heq with ⟨rfl, rfl, rfl⟩ | ⟨rest, rfl, rfl⟩
      · exact hend
      · exact hbefore pre e rest rfl
  | elsewhere _ he ih =>
      exact ⟨helsewhere _ _ _ (ih hA).1 he, (ih hA).2⟩

end LossyRun

section HandOut

variable {chain : Chain network} {sys : PoolSys ρ} {events : List (PoolEvent ρ)}

/-- A lost ledger leaves nothing to track. -/
theorem HandedOut.elsewhere {sys' : PoolSys ρ} (h : HandedOut chain pool events sys)
    (he : Elsewhere network pool lost sys sys') : HandedOut chain pool events sys' := by
  have hnone : LedgerTracked chain pool (MadeIn events) (Unreleased pool events)
      sys'.world.net none :=
    ⟨h.store.1.later he.later, fun state hstate => by cases hstate⟩
  refine ⟨fun state hstate => ?_, ?_⟩
  · rcases he.memory with hmemory | hmemory
    · rw [hmemory] at hstate ⊢
      exact (h.memory state hstate).later he.later
    · rw [hmemory] at hstate
      cases hstate
  · rcases he.store with hstore | ⟨_, hstore⟩
    · rw [hstore]
      exact h.store.later he.later
    · rw [hstore]
      exact hnone

/-- A value that was handed out and not released since is not handed out. -/
theorem made_after_release {command : PoolCommand} (h : HandedOut chain pool events sys)
    (hpromised : Promised chain pool events (eventAt (poolStep network pool) command sys))
    {m m' : MadeReservation} (hmade : MadeIn events m)
    (hmade' : made (eventAt (poolStep network pool) command sys) = some m')
    (hsame : m.reservation = m'.reservation) : ¬ Unreleased pool events m := by
  rcases made_tracked h hpromised hmade' with ⟨state, slot, hm⟩
  rcases mem_of_chooseSlot hm.chosen with ⟨hmem, hunspent, _⟩
  have hchosen := ((hm.kept.2 state rfl slot hmem).unspent hunspent _ hm.known).2 m hmade
    (by rw [hsame, hm.index])
  exact fun hout => hchosen.2 hout (by rw [hsame])

/-- However often a device loses its ledger, in memory, in the store or both, a
    value is handed out again only after a reconciliation has released its slot,
    at least `sendWindowMs` after it was handed out before. -/
theorem hand_out_once_lossy (chain : Chain network) (pool : PoolConfig) {sys sys' : PoolSys ρ}
    (hfresh : sys.Fresh pool) {events : List (PoolEvent ρ)}
    (hrun : LossyRun network pool lost sys events sys')
    (hclock : (readings events).Pairwise (· ≤ ·))
    (hhonest : ∀ e ∈ events, HonestReturn chain pool e)
    {pre mid post : List (PoolEvent ρ)} {e₁ e₂ : PoolEvent ρ} {m₁ m₂ : MadeReservation}
    (hsplit : events = pre ++ e₁ :: (mid ++ e₂ :: post))
    (h₁ : made e₁ = some m₁) (h₂ : made e₂ = some m₂)
    (hsame : m₁.reservation = m₂.reservation) :
    ∃ e ∈ mid, ∃ now, Releases pool e m₁.reservation now ∧
      m₁.now + pool.sendWindowMs ≤ now := by
  have hsplit₂ : events = (pre ++ e₁ :: mid) ++ e₂ :: post := by
    rw [hsplit, List.append_assoc, List.cons_append]
  have hpromised : ∀ pre e post, events = pre ++ e :: post → Promised chain pool pre e := by
    intro pre e post heq
    refine ⟨fun now hnow t ht => ?_, hhonest e (heq ▸ List.mem_append_right _ List.mem_cons_self)⟩
    rw [heq, readings_append, List.pairwise_append] at hclock
    exact hclock.2.2 t ht now (List.mem_filterMap.mpr ⟨e, List.mem_cons_self, hnow⟩)
  have hstart : HandedOut chain pool [] sys :=
    ⟨fun state hs => (nomatch hfresh.1.symm.trans hs),
      fun m hm => absurd hm.choose_spec.1 List.not_mem_nil,
      fun state hs => (nomatch hfresh.2.symm.trans hs)⟩
  have hbefore := (hrun.rule (J := HandedOut chain pool) (A := Promised chain pool)
    (fun _ _ _ h hA => handOut_step h hA) (fun _ _ _ h he => h.elsewhere he) hstart
    hpromised).2 _ _ _ hsplit₂
  have hevent := (hrun.event (e := e₂) (hsplit₂ ▸ List.mem_append_right _ List.mem_cons_self)).1
  -- Without a release in between, the first reservation would still be out.
  by_contra hnone
  refine made_after_release hbefore (hevent ▸ hpromised _ _ _ hsplit₂)
    ⟨e₁, List.mem_append_right _ List.mem_cons_self, h₁⟩ (hevent ▸ h₂) hsame
    ⟨pre, e₁, mid, rfl, h₁, fun e he now hreleases hdue => ?_⟩
  exact hnone ⟨e, he, now, hreleases, hdue⟩

end HandOut

/-- A loss leaves nothing more to spend. -/
theorem Unspendable.elsewhere {sys sys' : PoolSys ρ} (h : Unspendable pool sys)
    (he : Elsewhere network pool lost sys sys') : Unspendable pool sys' := by
  have hnone : AllUnknown none := fun state hstate => by cases hstate
  refine ⟨?_, ?_⟩
  · rcases he.memory with hmemory | hmemory
    · exact hmemory ▸ h.memory
    · exact hmemory ▸ hnone
  · rcases he.store with hstore | ⟨_, hstore⟩
    · exact hstore ▸ h.store
    · exact hstore ▸ hnone

/-- An unspendable pool stays one until a setup is confirmed, and reserves
    nothing. -/
theorem LossyRun.unspendable {sys sys' : PoolSys ρ} {events : List (PoolEvent ρ)}
    (hrun : LossyRun network pool lost sys events sys') (h : Unspendable pool sys)
    (hnone : ∀ e ∈ events, ¬ Confirms network pool e) :
    Unspendable pool sys' ∧ ∀ e ∈ events, made e = none := by
  have hrule := hrun.rule (J := fun _ sys => Unspendable pool sys)
    (A := fun _ e => ¬ Confirms network pool e)
    (fun _ _ _ h hA => unspendable_step h hA) (fun _ _ _ h he => h.elsewhere he) h
    fun pre e post heq => hnone e (heq ▸ List.mem_append_right _ List.mem_cons_self)
  refine ⟨hrule.1, fun e he => ?_⟩
  rcases List.append_of_mem he with ⟨pre, post, heq⟩
  rw [(hrun.event he).1]
  exact (hrule.2 pre e post heq).not_made

end Vadum
