import Vadum.Theory.HandOut

/-!
# A Payment That Is Withheld

A merchant holds a payment signed against slot `i` at value `v` and does not
submit it (T8). While the chain keeps `v`, the slot should stay spent until the
send window has passed, whatever the merchant signs.

What keeps it spent is the record in the ledger: `reconcile` compares the chain
with it, and `refresh` leaves it alone. What drops it is a return. A return
names the value the account has advanced to, and the pool cannot check it
offline, so the merchant may name any. From then on nothing in the ledger says
that `v` is out, and the next `refresh` reads it back from the chain:
`withheld_payment_freed` is such a run. `withheld_payment_kept` says that
nothing else frees the slot.

## Main definitions

* `PoolCommand.clock`: The clock reading of a command.
* `Withheld`: The slot stands spent against the reservation.
* `Undisturbed`: The commands a run may consist of, and what they may not do.

## Theorems

* `kept_withheld`: Every operation leaves the slot spent.
* `withheld_payment_kept`: The slot is not handed out again.
* `withheld_payment_freed`: An accepted return frees it.
-/

namespace Vadum

open Async (history final)

variable {ρ : Type}

/-- The clock reading a command is given. -/
def PoolCommand.clock (command : PoolCommand) : Option Int :=
  match command.op with
  | some (.reserveSlot _ now _) => some now
  | some (.allowance now) => some now
  | some (.reconcile now) => some now
  | _ => none

/-- The clock readings of a run, in order. -/
def clockReadings (events : List (PoolEvent ρ)) : List Int :=
  events.filterMap fun e => e.op.clock

/-- The slots of a reservation's index stand spent against it. -/
def Withheld (m : MadeReservation) (a : Address) (ledger : Option PoolState) : Prop :=
  ∀ state, ledger = some state → ∀ slot ∈ state.slots, slot.index = m.reservation.index →
    slot.state = .spent ∧ slot.spentAgainst = some ⟨m.reservation.value, m.merchant, m.now⟩ ∧
      slot.address = a

/-- From a moment on, the chain keeps the value a payment was signed against. -/
def Keeps (network : Network ρ) (start : ρ) (a : Address) (v : Nonce) : Prop :=
  ∀ n n' account, Later network start n →
    network.rpc (.getNonceAccount a) n = (.ok account, n') → account.value = some v

/-- A command that only reserves, reads, reconciles and applies returns, but no
    return a reservation's own merchant has signed for its slot. -/
structure Undisturbed (pool : PoolConfig) (m : MadeReservation) (command : PoolCommand) :
    Prop where
  noCreate : ∀ size key, command.op ≠ some (.create size key)
  noRecover : ∀ probe, command.op ≠ some (.recover probe)
  noClose : ∀ key, command.op ≠ some (.close key)
  noReturn : ∀ payload statement, command.op = some (.applyNonceReturn payload) →
    payload.nonceIndex = m.reservation.index →
    verifyNonceReturn pool.kit payload ⟨pool.payer, m.merchant, m.reservation.value⟩
      ≠ .ok statement

theorem undisturbed_reserveSlot (pool : PoolConfig) (m : MadeReservation) (merchant : Address)
    (now amount : Int) : Undisturbed pool m (.call (.reserveSlot merchant now amount)) where
  noCreate := fun _ _ h => PoolOp.noConfusion (Option.some.inj h)
  noRecover := fun _ h => PoolOp.noConfusion (Option.some.inj h)
  noClose := fun _ h => PoolOp.noConfusion (Option.some.inj h)
  noReturn := fun _ _ h => PoolOp.noConfusion (Option.some.inj h)

section Slot

variable {network : Network ρ} {pool : PoolConfig} {m : MadeReservation} {a : Address}

/-- A ledger with one slot of another index replaced still stands so. -/
theorem withheld_withSlot {state : PoolState} {slot : PoolSlot}
    (h : Withheld m a (some state)) (hne : slot.index ≠ m.reservation.index) :
    Withheld m a (some (withSlot state slot)) := by
  intro state' hstate' slot' hslot' hindex
  rw [← Option.some.inj hstate'] at hslot'
  rcases mem_withSlot hslot' with rfl | ⟨hmem, _⟩
  · exact absurd hindex hne
  · exact h state rfl slot' hmem hindex

/-- Only the slots of a ledger matter. -/
theorem withheld_slots {state state' : PoolState} (h : Withheld m a (some state))
    (heq : state'.slots = state.slots) : Withheld m a (some state') := by
  intro state'' hstate slot hslot
  rw [← Option.some.inj hstate, heq] at hslot
  exact h state rfl slot hslot

/-- While the chain keeps the value and the window has not passed, `reconcile`
    leaves the slot pending. -/
theorem withheld_reconciled {sys : PoolSys ρ} {now : Int} {n₁ n : ρ} {past : Past}
    {slots : List PoolSlot} {x y : PoolState × Reconciliation}
    (hkeeps : Keeps network sys.world.net a m.reservation.value)
    (hl : Later network sys.world.net n₁)
    (hheard : ∀ c b, Heard past c b → Since network n₁ n c b)
    (hwindow : now < m.now + pool.sendWindowMs)
    (hslots : ∀ slot ∈ slots, slot.index = m.reservation.index → slot.state = .spent ∧
      slot.spentAgainst = some ⟨m.reservation.value, m.merchant, m.now⟩ ∧ slot.address = a)
    (h : Reconciled pool now past slots x y) (hx : Withheld m a (some x.1)) :
    Withheld m a (some y.1) := by
  -- The chain shows the recorded value for the slot, so it is none of those replaced.
  have hread : ∀ {slot : PoolSlot} {record : SpentRecord} {account : NonceAccountState},
      (slot.index = m.reservation.index → slot.state = .spent ∧
        slot.spentAgainst = some ⟨m.reservation.value, m.merchant, m.now⟩ ∧ slot.address = a) →
      slot.index = m.reservation.index → slot.spentAgainst = some record →
      Heard past (.getNonceAccount slot.address) account →
      account.value = some record.value ∧ record.at' = m.now := by
    intro slot record account hslot hindex hagainst hanswer
    rcases hslot hindex with ⟨_, hrecord, haddress⟩
    have heq := Option.some.inj (hagainst.symm.trans hrecord)
    rw [haddress] at hanswer
    rcases hheard _ _ hanswer with ⟨n₂, n₃, h₂, hans, _⟩
    rw [heq]
    exact ⟨hkeeps n₂ n₃ account (hl.trans h₂) hans, rfl⟩
  induction h with
  | nil => exact hx
  | skip _ _ ih => exact ih (fun s hs => hslots s (List.mem_cons_of_mem _ hs)) hx
  | pending _ _ _ _ _ _ ih => exact ih (fun s hs => hslots s (List.mem_cons_of_mem _ hs)) hx
  | @gone slot _ record state _ _ account spent against heard value _ ih =>
      refine ih (fun s hs => hslots s (List.mem_cons_of_mem _ hs)) (withheld_withSlot hx ?_)
      intro (hindex : slot.index = m.reservation.index)
      have := (hread (hslots slot List.mem_cons_self) hindex against heard).1
      rw [value] at this
      cases this
  | @settled slot _ record state _ _ account v spent against heard value moved _ ih =>
      refine ih (fun s hs => hslots s (List.mem_cons_of_mem _ hs)) (withheld_withSlot hx ?_)
      intro (hindex : slot.index = m.reservation.index)
      have := (hread (hslots slot List.mem_cons_self) hindex against heard).1
      rw [value] at this
      exact moved (Option.some.inj this)
  | @released slot _ record state _ _ account spent against heard value elapsed _ ih =>
      refine ih (fun s hs => hslots s (List.mem_cons_of_mem _ hs)) (withheld_withSlot hx ?_)
      intro (hindex : slot.index = m.reservation.index)
      have := (hread (hslots slot List.mem_cons_self) hindex against heard).2
      omega

/-- Every undisturbed operation leaves the slot spent. -/
theorem kept_withheld {command : PoolCommand} {op : PoolOp} (hop : command.op = some op)
    (hcommand : Undisturbed pool m command)
    (hwindow : ∀ now, op = .reconcile now → now < m.now + pool.sendWindowMs) {sys : PoolSys ρ}
    (hkeeps : Keeps network sys.world.net a m.reservation.value) :
    Kept network pool op sys (fun _ => Withheld m a) (fun _ => Withheld m a) where
  memory := fun _ _ _ _ h => h
  store := fun _ _ _ _ h => h
  persist := fun _ _ h => h
  load := fun _ _ _ h => h
  new := fun n past seen state _ _ _ _ hnew => by
    cases hnew with
    | created => exact absurd hop (hcommand.noCreate _ _)
    | recovered => exact absurd hop (hcommand.noRecover _)
  move := fun n₁ n past state state' hl _ hheard h hmove => by
    cases hmove with
    | @reserve _ slot value merchant now amount positive within chosen known =>
        -- Only unspent slots are handed out, so this is another one.
        rcases mem_of_chooseSlot chosen with ⟨hmem, hunspent, _⟩
        have hne : slot.index ≠ m.reservation.index := fun hindex => by
          have hspent := (h state rfl slot hmem hindex).1
          exact absurd (hunspent.symm.trans hspent) (by
            simp only [reduceCtorEq, not_false_eq_true])
        have hspent : Withheld m a (some (withSlot state { slot with
            state := .spent, spentAgainst := some ⟨value, merchant, now⟩ })) :=
          withheld_withSlot h hne
        exact withheld_slots hspent rfl
    | @returned _ slot record payload statement found spent against verified =>
        -- The slot's return does not verify.
        refine withheld_withSlot h fun hindex => ?_
        have hslot := List.mem_of_find?_eq_some found
        have hpayload : slot.index = payload.nonceIndex := by
          simpa only [decide_eq_true_eq] using List.find?_some found
        rcases h state rfl slot hslot hindex with ⟨_, hrecord, _⟩
        rw [Option.some.inj (against.symm.trans hrecord)] at verified
        exact hcommand.noReturn payload statement hop (hpayload.symm.trans hindex) verified
    | reread online values =>
        intro state'' hstate slot' hslot' hindex
        rw [← Option.some.inj hstate] at hslot'
        rcases mem_of_reread values hslot' with ⟨slot, hslot, account, heard⟩
        exact h state rfl slot hslot hindex
    | reconciled slots =>
        exact withheld_reconciled hkeeps hl hheard (hwindow _ rfl) (h state rfl) slots h
    | closed => exact absurd hop (hcommand.noClose _)

/-- A reservation leaves its slot standing so, in both ledgers. -/
theorem withheld_of_made {K : Option PoolState → Prop} {sys : PoolSys ρ} {state : PoolState}
    {slot : PoolSlot} (hm : Made pool K m sys state slot) :
    Ledgers pool (fun _ => Withheld m slot.address) (fun _ => Withheld m slot.address) sys := by
  have hledger : Withheld m slot.address
      (some (reserved pool state slot m.reservation.value m.merchant m.now m.amount)) := by
    intro state' hstate' slot' hslot' hindex
    rw [← Option.some.inj hstate'] at hslot'
    rcases mem_reserved hslot' with rfl | ⟨_, hne⟩
    · exact ⟨rfl, rfl, rfl⟩
    · exact absurd (hindex.trans hm.index.symm) hne
  exact hm.ledgers hledger

/-- No operation has anything to keep. -/
theorem kept_trivial (network : Network ρ) (pool : PoolConfig) (op : PoolOp) (sys : PoolSys ρ) :
    Kept network pool op sys (fun _ _ => True) (fun _ _ => True) where
  memory := fun _ _ _ _ _ => trivial
  store := fun _ _ _ _ _ => trivial
  persist := fun _ _ _ => trivial
  load := fun _ _ _ _ => trivial
  new := fun _ _ _ _ _ _ _ _ _ => trivial
  move := fun _ _ _ _ _ _ _ _ _ _ => trivial

/-- What every event that returns a reservation leaves behind. -/
theorem exists_made {command : PoolCommand} {sys : PoolSys ρ}
    (hmade : made (Async.eventAt (poolStep network pool) command sys) = some m) :
    ∃ state slot, Made pool (fun _ => True) m (poolStep network pool command sys).2 state slot := by
  have hcommand : command = .call (.reserveSlot m.merchant m.now m.amount) := (made_eq hmade).1
  subst hcommand
  exact (op_kept (kept_trivial network pool _ sys) ⟨fun _ _ => trivial, trivial⟩).2 m hmade

end Slot

/-- The clock readings of a stretch of a run lie between those around it. -/
theorem clock_between {events pre mid post : List (PoolEvent ρ)} {e₁ e₂ e : PoolEvent ρ}
    (hclock : (clockReadings events).Pairwise (· ≤ ·))
    (hsplit : events = pre ++ e₁ :: (mid ++ e₂ :: post)) (he : e ∈ mid) {t t₂ : Int}
    (ht : e.op.clock = some t) (ht₂ : e₂.op.clock = some t₂) : t ≤ t₂ := by
  have happend : clockReadings events = clockReadings (pre ++ e₁ :: mid)
      ++ clockReadings (e₂ :: post) := by
    unfold clockReadings
    rw [hsplit, ← List.filterMap_append, List.append_assoc, List.cons_append]
  rw [happend, List.pairwise_append] at hclock
  refine hclock.2.2 t (List.mem_filterMap.mpr ⟨e, ?_, ht⟩) t₂
    (List.mem_filterMap.mpr ⟨e₂, List.mem_cons_self, ht₂⟩)
  exact List.mem_append_right _ (List.mem_cons_of_mem _ he)

/-- While the chain keeps the value a payment was reserved against and no
    return of its own merchant is applied, the slot is not handed out again at
    that value less than `sendWindowMs` after the reservation. -/
theorem withheld_payment_kept (network : Network ρ) (pool : PoolConfig) (sys : PoolSys ρ)
    (commands : List PoolCommand)
    (hclock : (clockReadings (poolHistory network pool sys commands)).Pairwise (· ≤ ·))
    {pre mid post : List (PoolEvent ρ)} {e₁ e₂ : PoolEvent ρ} {m₁ m₂ : MadeReservation}
    (hsplit : poolHistory network pool sys commands = pre ++ e₁ :: (mid ++ e₂ :: post))
    (h₁ : made e₁ = some m₁) (h₂ : made e₂ = some m₂)
    (hkeeps : ∀ state slot, e₁.after.current = some state → slot ∈ state.slots →
      slot.index = m₁.reservation.index →
      Keeps network e₁.after.world.net slot.address m₁.reservation.value)
    (hundisturbed : ∀ e ∈ mid, Undisturbed pool m₁ e.op)
    (hwithin : m₂.now < m₁.now + pool.sendWindowMs) : m₂.reservation ≠ m₁.reservation := by
  rcases Async.history_split (poolStep network pool) hsplit with ⟨ops₁, ops₂, _, _, hrest⟩
  rcases ops₂ with _ | ⟨command, ops₂⟩
  · cases hrest
  rw [Async.history_cons, List.cons.injEq] at hrest
  rcases hrest with ⟨rfl, hrest⟩
  set start := (poolStep network pool command
    (final (poolStep network pool) sys ops₁)).2 with hstart
  rcases exists_made h₁ with ⟨state, slot, hm⟩
  -- The account of the slot keeps its value, as nothing was submitted.
  have haccount : Keeps network start.world.net slot.address m₁.reservation.value := by
    rcases mem_of_chooseSlot hm.chosen with ⟨hmem, _⟩
    exact hkeeps _ { slot with
      state := .spent, spentAgainst := some ⟨m₁.reservation.value, m₁.merchant, m₁.now⟩ }
      hm.current (mem_withSlot_self hmem rfl) hm.index
  have hreading₂ : e₂.op.clock = some m₂.now := by
    rw [(made_eq h₂).1]
    rfl
  -- The clock of the second payment bounds every reconciliation before it.
  have hwindow : ∀ e ∈ mid, ∀ now, e.op.op = some (.reconcile now) →
      now < m₁.now + pool.sendWindowMs := fun e he now hop => by
    have hreading : e.op.clock = some now := by simp only [PoolCommand.clock, hop]
    have := clock_between hclock hsplit he hreading hreading₂
    omega
  rcases Async.history_split (poolStep network pool) hrest with ⟨ops, rest, _, hmid, hlast⟩
  -- Between the two payments the slot stays spent against the first.
  have hrun := (Async.history_invariant (poolStep network pool)
    (P := fun s => Later network start.world.net s.world.net ∧
      Ledgers pool (fun _ => Withheld m₁ slot.address) (fun _ => Withheld m₁ slot.address) s)
    (A := fun e => e ∈ mid)
    (fun command s hs he => ⟨hs.1.trans (command_later network pool command s),
      command_kept (fun op hop => kept_withheld hop (hundisturbed _ he)
        (fun now hnow => hwindow _ he now (hnow ▸ hop))
        fun n n' account hl => haccount n n' account (hs.1.trans hl)) hs.2⟩)
    ⟨.refl, withheld_of_made hm⟩ (fun e he => hmid ▸ he)).1
  rcases rest with _ | ⟨command₂, rest⟩
  · cases hlast
  rw [Async.history_cons, List.cons.injEq] at hlast
  rcases hlast with ⟨rfl, _⟩
  have hcommand : command₂ = .call (.reserveSlot m₂.merchant m₂.now m₂.amount) := (made_eq h₂).1
  subst hcommand
  have hkept := kept_withheld rfl (undisturbed_reserveSlot pool m₁ m₂.merchant m₂.now m₂.amount)
    (fun _ => PoolOp.noConfusion)
    (fun n n' account hl => haccount n n' account (hrun.1.trans hl))
  rcases (op_kept hkept hrun.2).2 m₂ h₂ with ⟨state₂, slot₂, hm₂⟩
  rcases mem_of_chooseSlot hm₂.chosen with ⟨hmem, hunspent, _⟩
  -- But a slot that is handed out is unspent.
  intro hsame
  have hspent := (hm₂.kept state₂ rfl slot₂ hmem (by rw [hm₂.index, hsame])).1
  exact absurd (hunspent.symm.trans hspent) (by simp only [reduceCtorEq, not_false_eq_true])

/-- The accounts of that chain keep their value. -/
theorem setupOnce_keeps (a : Address) : Keeps setupOnce true a (testNonce 7) := by
  intro n n' account hl hans
  have hn : n = true := by
    clear hans
    induction hl with
    | refl => rfl
    | tail _ hstep ih =>
        rcases setupOnce_next hstep with h | ⟨_, h⟩
        · exact h.trans ih
        · exact h
  subst hn
  rw [← Except.ok.inj (Prod.mk.inj hans).1]
  rfl

/-- Two slots. The first is reserved and left alone by what comes after. -/
def withholdingRun : List PoolCommand :=
  [.call (.create 2 (testKey 1)), .call (.reserveSlot (testAddress 2) 5 10), .call .refresh,
    .call (.reconcile 6), .call (.reserveSlot (testAddress 3) 7 10)]

/-- The event of one of its commands. -/
def withholdingEvent (n : Fin 5) : PoolEvent Bool :=
  (poolHistory setupOnce testPool releasingStart withholdingRun).get n

theorem withheld_payment_kept_withholdingRun :
    (⟨1, testNonce 7⟩ : Reservation) ≠ ⟨0, testNonce 7⟩ :=
  @withheld_payment_kept _ setupOnce testPool releasingStart withholdingRun (by decide +kernel)
    [withholdingEvent 0] [withholdingEvent 2, withholdingEvent 3] [] (withholdingEvent 1)
    (withholdingEvent 4) ⟨testAddress 2, 5, 10, ⟨0, testNonce 7⟩⟩
    ⟨testAddress 3, 7, 10, ⟨1, testNonce 7⟩⟩
    rfl (by decide +kernel) (by decide +kernel)
    (fun _ slot _ _ _ => by
      have hnet : (withholdingEvent 1).after.world.net = true := by decide +kernel
      rw [hnet]
      exact setupOnce_keeps slot.address)
    (fun e he => by
      rcases List.mem_cons.mp he with rfl | he
      · exact ⟨fun _ _ => nofun, fun _ => nofun, fun _ => nofun, fun _ _ => nofun⟩
      · rw [List.mem_singleton.mp he]
        exact ⟨fun _ _ => nofun, fun _ => nofun, fun _ => nofun, fun _ _ => nofun⟩)
    (by decide)

/-- The merchant of the first reservation names a value the account never held,
    and signs it. -/
def forgedReturn : NonceReturnPayload where
  nonceIndex := 0
  newNonceValue := testNonce 9
  signature := testSignature (testAddress 2)
    (nonceReturnDomain ++ (testAddress 1).bytes ++ [0] ++ (testNonce 7).bytes
      ++ (testNonce 9).bytes)

/-- One slot, reserved for that merchant, freed by its return, read again from
    the chain, and reserved again a moment later. -/
def freeingRun : List PoolCommand :=
  [.call (.create 1 (testKey 1)), .call (.reserveSlot (testAddress 2) 5 10),
    .call (.applyNonceReturn forgedReturn), .call .refresh,
    .call (.reserveSlot (testAddress 3) 6 10)]

/-- An accepted return frees the slot of a payment that is withheld: from the
    reservation on the chain shows the value all along, and it is handed out
    again within the window. -/
theorem withheld_payment_freed :
    (poolHistory setupOnce testPool releasingStart freeingRun).map made
        = [none, some ⟨testAddress 2, 5, 10, ⟨0, testNonce 7⟩⟩, none, none,
          some ⟨testAddress 3, 6, 10, ⟨0, testNonce 7⟩⟩] ∧
      (poolHistory setupOnce testPool releasingStart freeingRun).map (fun e => e.after.world.net)
        = [true, true, true, true, true] ∧
      (∀ a, Keeps setupOnce true a (testNonce 7)) ∧ (6 : Int) < 5 + testPool.sendWindowMs :=
  ⟨by decide +kernel, by decide +kernel, setupOnce_keeps, by decide⟩

end Vadum
