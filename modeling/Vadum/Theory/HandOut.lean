import Vadum.Client.FakeRpc
import Vadum.OneWay.Register
import Vadum.Theory.Slots
import Vadum.Theory.SpendLimit

/-!
# Handing Out a Value Once

A value a merchant holds a signature against must not be signed against again
while that payment can still settle. The pool's knowledge of a value is second
hand: it comes from reading the chain, from a merchant's return, or from the
ledger itself, and may lag behind.

A chain is a one-way register for every nonce account, so values can be
compared by when they were held. `Tracked` is the invariant of a slot. An
unspent slot holds a value no older than any handed out before, and none that
is still out; a spent slot's record is at least as recent as every reservation
of its index. What a `reconcile` has released in time counts as no longer out.

## Main definitions

* `Chain`: A network on which account values never return.
* `Releases`: A reconciliation that releases a reservation's slot.
* `Unreleased`: A reservation not released in time.
* `HonestReturn`: A return that carries a later value of the account.
* `Tracked`: The invariant of a slot.

## Theorems

* `tracked_reserved`, `tracked_reread`, `tracked_returned`, `tracked_rearmed`,
  `tracked_created`: What each move makes of it.
* `kept_plain`, `kept_return`, `kept_reconcile`: Every operation keeps it.
* `handOut_step`: So does every command.
* `hand_out_once`: A value is handed out again only after a release in time.
-/

namespace Vadum

open Async (history final)
open OneWay (Register)

variable {ρ : Type}

/-- A network on which the values of nonce accounts never return. A read shows
    the value of its moment, and a setup transaction that is sent created
    accounts that did not exist, which then held a value of their own. -/
structure Chain (network : Network ρ) where
  register : ρ → Address → Register Nonce
  next : ∀ n n' a, Steps network n n' → (register n a).Next (register n' a)
  truthful : ∀ n n' a account, network.rpc (.getNonceAccount a) n = (.ok account, n') →
    account.value = (register n' a).current
  setup : ∀ n n' instructions key signature,
    network.rpc (.sendSetup instructions key) n = (.ok signature, n') →
    ∀ a, Creates instructions a →
      (register n a).current = none ∧ (register n a).held ≠ (register n' a).held

/-- The ledger the next operation works on. -/
def PoolSys.ledger (pool : PoolConfig) (sys : PoolSys ρ) : Option PoolState :=
  sys.current.or (sys.stored pool)

/-- The slot of a ledger is spent against this value. -/
def SpentOn (ledger : Option PoolState) (r : Reservation) : Prop :=
  ∃ state, ledger = some state ∧ ∃ slot ∈ state.slots, ∃ record, slot.index = r.index ∧
    slot.state = .spent ∧ slot.spentAgainst = some record ∧ record.value = r.value

/-- The slot of a ledger was released with this value at this time. -/
def ReleasedIn (ledger : Option PoolState) (r : Reservation) (now : Int) : Prop :=
  ∃ state, ledger = some state ∧ ∃ slot ∈ state.slots, slot.index = r.index ∧
    slot.state = .unspent ∧ slot.value = some r.value ∧ slot.releasedAt = some now

/-- A reconciliation at `now` that releases the slot of a reservation: it was
    spent before, and is unspent after with its value unchanged. -/
structure Releases (pool : PoolConfig) (e : PoolEvent ρ) (r : Reservation) (now : Int) :
    Prop where
  reconcile : e.op.op = some (.reconcile now)
  before : SpentOn (e.before.ledger pool) r
  after : ReleasedIn e.after.current r now ∨ ReleasedIn (e.after.stored pool) r now

/-- A return that is applied carries a value the account took on after the one
    its slot was spent against. -/
def HonestReturn {network : Network ρ} (chain : Chain network) (pool : PoolConfig)
    (e : PoolEvent ρ) : Prop :=
  ∀ payload state slot record statement, e.op.op = some (.applyNonceReturn payload) →
    e.before.ledger pool = some state →
    state.slots.find? (fun c => c.index = payload.nonceIndex) = some slot →
    slot.state = .spent → slot.spentAgainst = some record →
    verifyNonceReturn pool.kit payload ⟨pool.payer, record.merchant, record.value⟩
      = .ok statement →
    payload.newNonceValue ∈ (chain.register e.before.world.net slot.address).held ∧
      (chain.register e.before.world.net slot.address).rank record.value
        < (chain.register e.before.world.net slot.address).rank payload.newNonceValue

/-- A reservation was made. -/
def MadeIn (events : List (PoolEvent ρ)) (m : MadeReservation) : Prop :=
  ∃ e ∈ events, made e = some m

/-- A reservation was made, and its slot not released at least `sendWindowMs`
    after it. -/
def Unreleased (pool : PoolConfig) (events : List (PoolEvent ρ)) (m : MadeReservation) : Prop :=
  ∃ pre e post, events = pre ++ e :: post ∧ made e = some m ∧
    ∀ e' ∈ post, ∀ now, Releases pool e' m.reservation now → ¬ m.now + pool.sendWindowMs ≤ now

theorem madeIn_snoc {events : List (PoolEvent ρ)} {e : PoolEvent ρ} {m : MadeReservation}
    (h : MadeIn (events ++ [e]) m) : MadeIn events m ∨ made e = some m := by
  rcases h with ⟨e', hmem, hm⟩
  rcases List.mem_append.mp hmem with hmem | hmem
  · exact .inl ⟨e', hmem, hm⟩
  · exact .inr (List.mem_singleton.mp hmem ▸ hm)

/-- What is unreleased after one more event was so before, and the event did
    not release it in time, or it is what the event made. -/
theorem unreleased_snoc {pool : PoolConfig} {events : List (PoolEvent ρ)} {e : PoolEvent ρ}
    {m : MadeReservation} (h : Unreleased pool (events ++ [e]) m) :
    Unreleased pool events m ∧ (∀ now, Releases pool e m.reservation now →
      ¬ m.now + pool.sendWindowMs ≤ now) ∨ made e = some m := by
  rcases h with ⟨pre, e', post, heq, hm, hpost⟩
  rcases Async.snoc_split heq with ⟨_, rfl, _⟩ | ⟨rest, rfl, rfl⟩
  · exact .inr hm
  · refine .inl ⟨⟨pre, e', rest, rfl, hm, fun e'' he'' => ?_⟩, ?_⟩
    · exact hpost e'' (List.mem_append_left _ he'')
    · exact hpost e (List.mem_append_right _ (List.mem_singleton_self _))

section Slot

variable {network : Network ρ} (chain : Chain network) (pool : PoolConfig)
  (P U : MadeReservation → Prop)

/-- Every reservation was of a value its account has held. -/
def Known (n : ρ) : Prop :=
  ∀ m, P m → ∃ a, deriveNonceAddress pool.kit pool.payer m.reservation.index = .ok a ∧
    m.reservation.value ∈ (chain.register n a).held

/-- What is known of a slot, given the reservations `P` that were made and
    those `U` that are still out. -/
structure Tracked (n : ρ) (slot : PoolSlot) : Prop where
  derived : deriveNonceAddress pool.kit pool.payer slot.index = .ok slot.address
  unspent : slot.state = .unspent → ∀ u, slot.value = some u →
    u ∈ (chain.register n slot.address).held ∧
      ∀ m, P m → m.reservation.index = slot.index →
        (chain.register n slot.address).rank m.reservation.value
          ≤ (chain.register n slot.address).rank u ∧ (U m → m.reservation.value ≠ u)
  blank : slot.state = .unspent → slot.value = none →
    ∀ m, P m → m.reservation.index = slot.index →
      (chain.register n slot.address).rank m.reservation.value
        < (chain.register n slot.address).floor
  spent : slot.state = .spent → ∀ record, slot.spentAgainst = some record →
    record.value ∈ (chain.register n slot.address).held ∧
      ∀ m, P m → m.reservation.index = slot.index →
        (chain.register n slot.address).rank m.reservation.value
          ≤ (chain.register n slot.address).rank record.value ∧ m.now ≤ record.at'

/-- Every slot of a ledger is tracked. -/
def LedgerTracked (n : ρ) (ledger : Option PoolState) : Prop :=
  Known chain pool P n ∧
    ∀ state, ledger = some state → ∀ slot ∈ state.slots, Tracked chain pool P U n slot

variable {chain pool P U}

theorem Chain.later (chain : Chain network) {n n' : ρ} (h : Later network n n') (a : Address) :
    (chain.register n a).Next (chain.register n' a) := by
  induction h with
  | refl => exact .refl _
  | tail _ hstep ih => exact ih.trans (chain.next _ _ a hstep)

/-- A call is a step of the network. -/
theorem steps_rpc {c : Call} {n n' : ρ} {a : Except Thrown c.Answer}
    (h : network.rpc c n = (a, n')) : Steps network n n' :=
  ⟨.rpc c, ⟨∅, n⟩, rfl, by simp only [reply, h]⟩

theorem Known.later {n n' : ρ} (h : Known chain pool P n) (hl : Later network n n') :
    Known chain pool P n' := by
  intro m hm
  rcases h m hm with ⟨a, hderived, hheld⟩
  exact ⟨a, hderived, (chain.later hl a).mem hheld⟩

/-- A reservation's value was held by the account of every slot of its index. -/
theorem Known.held {n : ρ} (h : Known chain pool P n) {slot : PoolSlot}
    (hderived : deriveNonceAddress pool.kit pool.payer slot.index = .ok slot.address)
    {m : MadeReservation} (hm : P m) (hindex : m.reservation.index = slot.index) :
    m.reservation.value ∈ (chain.register n slot.address).held := by
  rcases h m hm with ⟨a, ha, hheld⟩
  rw [hindex, hderived] at ha
  rwa [Except.ok.inj ha]

/-- What is tracked stays tracked as the chain moves on. -/
theorem Tracked.later {n n' : ρ} (hk : Known chain pool P n) {slot : PoolSlot}
    (h : Tracked chain pool P U n slot) (hl : Later network n n') :
    Tracked chain pool P U n' slot := by
  have hnext := chain.later hl slot.address
  refine ⟨h.derived, fun hu u hvalue => ?_, fun hu hvalue m hm hindex => ?_,
    fun hs record hrecord => ?_⟩
  · rcases h.unspent hu u hvalue with ⟨hheld, hall⟩
    refine ⟨hnext.mem hheld, fun m hm hindex => ?_⟩
    rw [hnext.rank_eq hheld, hnext.rank_eq (hk.held h.derived hm hindex)]
    exact hall m hm hindex
  · rw [hnext.rank_eq (hk.held h.derived hm hindex)]
    exact lt_of_lt_of_le (h.blank hu hvalue m hm hindex) hnext.floor_le
  · rcases h.spent hs record hrecord with ⟨hheld, hall⟩
    refine ⟨hnext.mem hheld, fun m hm hindex => ?_⟩
    rw [hnext.rank_eq hheld, hnext.rank_eq (hk.held h.derived hm hindex)]
    exact hall m hm hindex

/-- Fewer reservations out is less to track. -/
theorem Tracked.mono {n : ρ} {slot : PoolSlot} {U' : MadeReservation → Prop}
    (h : Tracked chain pool P U n slot) (hsub : ∀ m, P m → U' m → U m) :
    Tracked chain pool P U' n slot where
  derived := h.derived
  unspent := fun hu u hvalue => ⟨(h.unspent hu u hvalue).1, fun m hm hindex =>
    ⟨((h.unspent hu u hvalue).2 m hm hindex).1,
      fun hout => ((h.unspent hu u hvalue).2 m hm hindex).2 (hsub m hm hout)⟩⟩
  blank := h.blank
  spent := h.spent

theorem LedgerTracked.later {n n' : ρ} {ledger : Option PoolState}
    (h : LedgerTracked chain pool P U n ledger) (hl : Later network n n') :
    LedgerTracked chain pool P U n' ledger :=
  ⟨h.1.later hl, fun state hstate slot hslot => (h.2 state hstate slot hslot).later h.1 hl⟩

/-- A slot of unknown value is never handed out. -/
theorem tracked_unknown {n : ρ} {slot : PoolSlot}
    (hderived : deriveNonceAddress pool.kit pool.payer slot.index = .ok slot.address)
    (hstate : slot.state = .unknown) : Tracked chain pool P U n slot where
  derived := hderived
  unspent := fun hu => absurd (hstate.symm.trans hu) (by
    simp only [reduceCtorEq, not_false_eq_true])
  blank := fun hu => absurd (hstate.symm.trans hu) (by
    simp only [reduceCtorEq, not_false_eq_true])
  spent := fun hs => absurd (hstate.symm.trans hs) (by
    simp only [reduceCtorEq, not_false_eq_true])

/-- Spending an unspent slot records the latest value and the latest time. -/
theorem tracked_reserved {n : ρ} {slot : PoolSlot} {value : Nonce} {merchant : Address}
    {now : Int} (h : Tracked chain pool P U n slot) (hstate : slot.state = .unspent)
    (hvalue : slot.value = some value) (hclock : ∀ m, P m → m.now ≤ now) :
    Tracked chain pool P U n
      { slot with state := .spent, spentAgainst := some ⟨value, merchant, now⟩ } where
  derived := h.derived
  unspent := fun hu => absurd hu (by simp only [reduceCtorEq, not_false_eq_true])
  blank := fun hu => absurd hu (by simp only [reduceCtorEq, not_false_eq_true])
  spent := fun _ record hrecord => by
    rcases h.unspent hstate value hvalue with ⟨hheld, hall⟩
    rw [← Option.some.inj hrecord]
    exact ⟨hheld, fun m hm hindex => ⟨(hall m hm hindex).1, hclock m hm⟩⟩

/-- A read since a moment shows a value at or above that moment's floor. -/
theorem Chain.read (chain : Chain network) {m n : ρ} {a : Address} {account : NonceAccountState}
    (h : Since network m n (.getNonceAccount a) account) :
    (∀ u, account.value = some u → u ∈ (chain.register n a).held ∧
      (chain.register m a).floor ≤ (chain.register n a).rank u) ∧
      (account.value = none → (chain.register m a).held.length ≤ (chain.register n a).floor) := by
  rcases h with ⟨n₁, n₂, h₁, hans, h₂⟩
  -- The answer was the register's at a moment between the two.
  have hbefore := (chain.later h₁ a).trans (chain.next _ _ a (steps_rpc hans))
  have hafter := chain.later h₂ a
  have hvalue := chain.truthful _ _ _ _ hans
  refine ⟨fun u hu => ?_, fun hnone => ?_⟩
  · have hcurrent : (chain.register n₂ a).current = some u := hvalue ▸ hu
    have hheld := Register.mem_of_current hcurrent
    refine ⟨hafter.mem hheld, ?_⟩
    rw [hafter.rank_eq hheld, Register.rank_current hcurrent]
    exact hbefore.floor_le
  · have hcurrent : (chain.register n₂ a).current = none := hvalue ▸ hnone
    have hfloor : (chain.register n₂ a).floor = (chain.register n₂ a).held.length := by
      simp only [Register.floor, hcurrent]
    have := hbefore.grows.length_le
    have := hafter.floor_le
    omega

/-- Reading a slot again keeps it tracked: what was out before the read is out
    after it, and a later value is newer. -/
theorem tracked_reread {m n : ρ} (hk : Known chain pool P m) {slot : PoolSlot}
    {account : NonceAccountState} (h : Tracked chain pool P U m slot) (hl : Later network m n)
    (hread : Since network m n (.getNonceAccount slot.address) account) :
    Tracked chain pool P U n { slot with value := account.value } := by
  have hnext := chain.later hl slot.address
  have hshown := chain.read hread
  have hranks : ∀ m', P m' → m'.reservation.index = slot.index →
      (chain.register n slot.address).rank m'.reservation.value
        = (chain.register m slot.address).rank m'.reservation.value :=
    fun m' hm' hindex => hnext.rank_eq (hk.held h.derived hm' hindex)
  refine ⟨h.derived, fun hu u hvalue => ?_, fun hu hvalue m' hm' hindex => ?_, ?_⟩
  · rcases hshown.1 u hvalue with ⟨hheld, hfloor⟩
    refine ⟨hheld, fun m' hm' hindex => ?_⟩
    have hle := Register.rank_le_floor (hk.held h.derived hm' hindex)
    rw [hranks m' hm' hindex]
    refine ⟨le_trans hle hfloor, fun hout heq => ?_⟩
    have hrank := hranks m' hm' hindex
    rw [heq] at hrank hle
    -- An old value that is read again was not below the floor before.
    cases hold : slot.value with
    | none =>
        have := h.blank hu hold m' hm' hindex
        rw [heq] at this
        omega
    | some u' =>
        rcases h.unspent hu u' hold with ⟨hheld', hall⟩
        have := Register.rank_le_floor hheld'
        have hbelow := hall m' hm' hindex
        rw [heq] at hbelow
        have hsame : (chain.register m slot.address).rank u
            = (chain.register m slot.address).rank u' := by omega
        refine hbelow.2 hout (Register.rank_inj ?_ hsame)
        rw [← heq]
        exact hk.held h.derived hm' hindex
  · rw [hranks m' hm' hindex]
    exact lt_of_lt_of_le (Register.rank_lt_length (hk.held h.derived hm' hindex))
      (hshown.2 hvalue)
  · exact (h.later hk hl).spent

/-- A return of a later value frees the slot with a value never handed out. -/
theorem tracked_returned {n : ρ} {slot : PoolSlot} {record : SpentRecord} {value : Nonce}
    (h : Tracked chain pool P U n slot) (hstate : slot.state = .spent)
    (hagainst : slot.spentAgainst = some record)
    (hheld : value ∈ (chain.register n slot.address).held)
    (hlater : (chain.register n slot.address).rank record.value
      < (chain.register n slot.address).rank value) :
    Tracked chain pool P U n (rearmed slot value .unspent none) where
  derived := h.derived
  unspent := fun _ u hu => by
    rw [← Option.some.inj hu]
    refine ⟨hheld, fun m hm hindex => ?_⟩
    have hle : (chain.register n slot.address).rank m.reservation.value
        ≤ (chain.register n slot.address).rank record.value :=
      (((h.spent hstate record hagainst).2) m hm hindex).1
    exact ⟨le_trans hle hlater.le, fun _ heq => by rw [heq] at hle; omega⟩
  blank := fun _ hnone => absurd hnone (by simp only [rearmed, reduceCtorEq, not_false_eq_true])
  spent := fun hs => absurd hs (by simp only [rearmed, reduceCtorEq, not_false_eq_true])

/-- What `reconcile` makes of a spent slot is tracked. A released one is so
    with what is due left out. -/
theorem tracked_rearmed {m n : ρ} {now : Int} {past : Past} {slot slot' : PoolSlot}
    {record : SpentRecord} (hk : Known chain pool P m) (h : Tracked chain pool P U m slot)
    (hl : Later network m n) (hheard : ∀ c a, Heard past c a → Since network m n c a)
    (hstate : slot.state = .spent) (hagainst : slot.spentAgainst = some record)
    (hrearmed : Rearmed pool now past slot record slot') :
    Tracked chain pool P U n slot' ∨
      slot'.index = slot.index ∧ slot'.state = .unspent ∧ slot'.value = some record.value ∧
        slot'.releasedAt = some now ∧
        Tracked chain pool P (fun m => U m ∧ ¬ m.now + pool.sendWindowMs ≤ now) n slot' := by
  have hspent := h.spent hstate record hagainst
  have hnow := (h.later hk hl).spent hstate record hagainst
  cases hrearmed with
  | gone heard value => exact .inl (tracked_unknown h.derived rfl)
  -- The account moved on after the value was signed against, so to a later one.
  | @settled account v heard value moved =>
      rcases (chain.read (hheard _ _ heard)).1 v value with ⟨hheld, hfloor⟩
      refine .inl (tracked_returned (h.later hk hl) hstate hagainst hheld ?_)
      have hle : (chain.register n slot.address).rank record.value
          ≤ (chain.register n slot.address).rank v := by
        rw [(chain.later hl slot.address).rank_eq hspent.1]
        exact le_trans (Register.rank_le_floor hspent.1) hfloor
      exact lt_of_le_of_ne hle fun heq => moved (Register.rank_inj hnow.1 heq).symm
  -- The value is the same, so only reservations not released yet are out with it.
  | released heard value elapsed =>
      refine .inr ⟨rfl, rfl, rfl, rfl, h.derived, fun _ u hu => ?_, fun _ hnone => ?_,
        fun hs => absurd hs (by simp only [rearmed, reduceCtorEq, not_false_eq_true])⟩
      · rw [← Option.some.inj hu]
        refine ⟨hnow.1, fun m' hm' hindex => ⟨(hnow.2 m' hm' hindex).1, fun hout _ => ?_⟩⟩
        have := (hnow.2 m' hm' hindex).2
        exact hout.2 (by omega)
      · exact absurd hnone (by simp only [rearmed, reduceCtorEq, not_false_eq_true])

/-- A slot `create` makes starts with everything handed out behind it. -/
theorem tracked_created {start n : ρ} (hk : Known chain pool P start)
    {instructions : List SetupInstruction} {key : CryptoKeyPair} {signature : Signature}
    {slot : PoolSlot} (hsent : Since network start n (.sendSetup instructions key) signature)
    (hderived : deriveNonceAddress pool.kit pool.payer slot.index = .ok slot.address)
    (hvalue : slot.value = none) (hstate : slot.state = .unspent)
    (hcreates : Creates instructions slot.address) : Tracked chain pool P U n slot := by
  rcases hsent with ⟨n₁, n₂, h₁, hans, h₂⟩
  refine ⟨hderived, fun _ u hu => ?_, fun _ _ m hm hindex => ?_, fun hs => ?_⟩
  · rw [hvalue] at hu
    cases hu
  · -- The setup gave every account a value of its own after all that were handed out.
    have hstep := steps_rpc hans
    have hheld := (hk.later h₁).held hderived hm hindex
    have hgrew := (chain.setup _ _ _ _ _ hans _ hcreates).2
    have hfloor := (chain.next _ _ slot.address hstep).length_le_floor hgrew
    have hnext := (chain.next _ _ slot.address hstep).trans (chain.later h₂ slot.address)
    have := Register.rank_lt_length hheld
    have := (chain.later h₂ slot.address).floor_le
    rw [hnext.rank_eq hheld]
    omega
  · rw [hstate] at hs
    cases hs

variable {sys : PoolSys ρ} {op : PoolOp}

theorem derived_of_tracked {n : ρ} {state : PoolState}
    (h : LedgerTracked chain pool P U n (some state)) {slot : PoolSlot}
    (hslot : slot ∈ state.slots) :
    deriveNonceAddress pool.kit pool.payer slot.index = .ok slot.address :=
  (h.2 state rfl slot hslot).derived

/-- A new ledger is tracked. -/
theorem tracked_new {n : ρ} {past : Past} {seen : Option PoolState} {state : PoolState}
    (hk : Known chain pool P sys.world.net) (hl : Later network sys.world.net n)
    (htold : ∀ c a, Answered past c a → Since network sys.world.net n c a)
    (hnew : NewLedger pool past op seen state) : LedgerTracked chain pool P U n (some state) := by
  refine ⟨hk.later hl, fun state' hstate' slot hslot => ?_⟩
  rw [← Option.some.inj hstate'] at hslot
  cases hnew with
  | created bounds setup sent prior =>
      rcases setupSlots_ok setup hslot with ⟨hderived, hvalue, hstate, _, hcreates⟩
      exact tracked_created hk (htold _ _ sent) hderived hvalue hstate hcreates
  | recovered probed prior =>
      rcases probed slot hslot with ⟨hderived, _⟩
      exact tracked_unknown hderived rfl

/-- The ledger a reservation leaves is tracked. -/
theorem ledgerTracked_reserved {n : ρ} {state : PoolState} {slot : PoolSlot} {value : Nonce}
    {merchant : Address} {now amount : Int} (h : LedgerTracked chain pool P U n (some state))
    (hchosen : Pool.chooseSlot state = some slot) (hvalue : slot.value = some value)
    (hclock : ∀ m, P m → m.now ≤ now) :
    LedgerTracked chain pool P U n
      (some (reserved pool state slot value merchant now amount)) := by
  rcases mem_of_chooseSlot hchosen with ⟨hmem, hunspent, _⟩
  refine ⟨h.1, fun state' hstate' slot' hslot' => ?_⟩
  rw [← Option.some.inj hstate'] at hslot'
  rcases mem_reserved hslot' with rfl | ⟨hslot', _⟩
  · exact tracked_reserved (h.2 state rfl slot hmem) hunspent hvalue hclock
  · exact h.2 state rfl slot' hslot'

/-- An operation other than a return or a reconciliation keeps its ledgers
    tracked, if no reservation was made at a later reading. -/
theorem kept_plain (hk : Known chain pool P sys.world.net)
    (hreturn : ∀ payload, op ≠ .applyNonceReturn payload) (hreconcile : ∀ now, op ≠ .reconcile now)
    (hclock : ∀ merchant now amount, op = .reserveSlot merchant now amount →
      ∀ m, P m → m.now ≤ now) :
    Kept network pool op sys (LedgerTracked chain pool P U) (LedgerTracked chain pool P U) where
  memory := fun _ _ _ hstep h => h.later (.single hstep)
  store := fun _ _ _ hstep h => h.later (.single hstep)
  persist := fun _ _ h => h
  load := fun _ _ _ h => h
  new := fun n past seen state hl htold _ _ hnew => tracked_new hk hl htold hnew
  move := fun m n past state state' _ hl hheard h hmove => by
    cases hmove with
    | reserve positive within chosen known =>
        exact ledgerTracked_reserved (h.later hl) chosen known (hclock _ _ _ rfl)
    | returned => exact absurd rfl (hreturn _)
    | reread online values =>
        refine ⟨h.1.later hl, fun state' hstate' slot' hslot' => ?_⟩
        rw [← Option.some.inj hstate'] at hslot'
        rcases mem_of_reread values hslot' with ⟨slot, hslot, account, heard⟩
        exact tracked_reread h.1 (h.2 state rfl slot hslot) hl (hheard _ _ heard)
    | reconciled => exact absurd rfl (hreconcile _)
    | closed =>
        refine ⟨h.1.later hl, fun state' hstate' slot' hslot' => ?_⟩
        rw [← Option.some.inj hstate'] at hslot'
        rcases List.mem_map.mp hslot' with ⟨slot, hslot, rfl⟩
        have hderived := derived_of_tracked h hslot
        exact tracked_unknown hderived rfl

/-- A return that would be accepted from this ledger carries a later value. -/
def HonestIn (chain : Chain network) (pool : PoolConfig) (payload : NonceReturnPayload) (n : ρ)
    (ledger : Option PoolState) : Prop :=
  ∀ state slot record statement, ledger = some state →
    state.slots.find? (fun c => c.index = payload.nonceIndex) = some slot →
    slot.state = .spent → slot.spentAgainst = some record →
    verifyNonceReturn pool.kit payload ⟨pool.payer, record.merchant, record.value⟩
      = .ok statement →
    payload.newNonceValue ∈ (chain.register n slot.address).held ∧
      record.value ∈ (chain.register n slot.address).held ∧
      (chain.register n slot.address).rank record.value
        < (chain.register n slot.address).rank payload.newNonceValue

theorem HonestIn.later {payload : NonceReturnPayload} {n n' : ρ} {ledger : Option PoolState}
    (h : HonestIn chain pool payload n ledger) (hl : Later network n n') :
    HonestIn chain pool payload n' ledger := by
  intro state slot record statement hledger hfound hspent hagainst hverified
  rcases h state slot record statement hledger hfound hspent hagainst hverified with
    ⟨hnew, hold, hlt⟩
  have hnext := chain.later hl slot.address
  refine ⟨hnext.mem hnew, hnext.mem hold, ?_⟩
  rw [hnext.rank_eq hnew, hnext.rank_eq hold]
  exact hlt

/-- A return keeps its ledgers tracked, if it is honest. -/
theorem kept_return {payload : NonceReturnPayload} :
    Kept network pool (.applyNonceReturn payload) sys
      (fun n ledger => LedgerTracked chain pool P U n ledger ∧ HonestIn chain pool payload n ledger)
      (fun n ledger => LedgerTracked chain pool P U n ledger ∧
        (sys.current = none → HonestIn chain pool payload n ledger)) where
  memory := fun _ _ _ hstep h => ⟨h.1.later (.single hstep), h.2.later (.single hstep)⟩
  store := fun _ _ _ hstep h =>
    ⟨h.1.later (.single hstep), fun hnone => (h.2 hnone).later (.single hstep)⟩
  persist := fun _ _ h => ⟨h.1, fun _ => h.2⟩
  load := fun _ _ hnone h => ⟨h.1, h.2 hnone⟩
  new := fun n past seen state _ _ _ _ hnew => by cases hnew
  move := fun m n past state state' _ hl hheard h hmove => by
    cases hmove with
    | @returned _ slot record _ statement found spent against verified =>
        have hslot := List.mem_of_find?_eq_some found
        have htracked := ((h.1.later hl).2 state rfl slot hslot)
        rcases (h.2.later hl) state slot record statement rfl found spent against verified with
          ⟨hheld, _, hlater⟩
        refine ⟨⟨h.1.1.later hl, fun state' hstate' slot' hslot' => ?_⟩, ?_⟩
        · rw [← Option.some.inj hstate'] at hslot'
          rcases mem_withSlot hslot' with rfl | ⟨hslot', _⟩
          · exact tracked_returned htracked spent against hheld hlater
          · exact (h.1.later hl).2 state rfl slot' hslot'
        · -- The slot is no longer spent, so the same return is not accepted again.
          intro state' slot' record' statement' hstate' hfound' hspent'
          rw [← Option.some.inj hstate'] at hfound'
          have hindex : slot.index = payload.nonceIndex := by
            simpa only [decide_eq_true_eq] using List.find?_some found
          have hindex' : slot'.index = payload.nonceIndex := by
            simpa only [decide_eq_true_eq] using List.find?_some hfound'
          rcases mem_withSlot (List.mem_of_find?_eq_some hfound') with rfl | ⟨_, hne⟩
          · exact absurd hspent' (by simp only [rearmed, reduceCtorEq, not_false_eq_true])
          · exact absurd (hindex'.trans hindex.symm) hne
    | reread online => exact absurd online (by simp only [reduceCtorEq, exists_false, or_self,
        not_false_eq_true])

/-- What `reconcile` leaves of a slot: it is tracked, or it was spent in the
    ledger the operation started from, is released, and is tracked with what is
    due left out. -/
def TrackedOrReleased (chain : Chain network) (pool : PoolConfig) (P U : MadeReservation → Prop)
    (start : Option PoolState) (now : Int) (n : ρ) (slot : PoolSlot) : Prop :=
  Tracked chain pool P U n slot ∨
    ∃ v, SpentOn start ⟨slot.index, v⟩ ∧ slot.state = .unspent ∧ slot.value = some v ∧
      slot.releasedAt = some now ∧
      Tracked chain pool P (fun m => U m ∧ ¬ m.now + pool.sendWindowMs ≤ now) n slot

/-- What holds of a ledger while `reconcile` runs. -/
def Reconciling (chain : Chain network) (pool : PoolConfig) (P U : MadeReservation → Prop)
    (start : Option PoolState) (now : Int) (n : ρ) (ledger : Option PoolState) : Prop :=
  Known chain pool P n ∧ ∀ state, ledger = some state → ∀ slot ∈ state.slots,
    TrackedOrReleased chain pool P U start now n slot

/-- The spent slots of a ledger were spent where the operation started. -/
def Inherited (start ledger : Option PoolState) : Prop :=
  ∀ state, ledger = some state → ∀ slot ∈ state.slots, ∀ record, slot.state = .spent →
    slot.spentAgainst = some record → SpentOn start ⟨slot.index, record.value⟩

theorem TrackedOrReleased.later {start : Option PoolState} {now : Int} {n n' : ρ}
    {slot : PoolSlot} (hk : Known chain pool P n)
    (h : TrackedOrReleased chain pool P U start now n slot) (hl : Later network n n') :
    TrackedOrReleased chain pool P U start now n' slot := by
  rcases h with h | ⟨v, hstart, hstate, hvalue, hat, h⟩
  · exact .inl (h.later hk hl)
  · exact .inr ⟨v, hstart, hstate, hvalue, hat, h.later hk hl⟩

theorem Reconciling.later {start : Option PoolState} {now : Int} {n n' : ρ}
    {ledger : Option PoolState} (h : Reconciling chain pool P U start now n ledger)
    (hl : Later network n n') : Reconciling chain pool P U start now n' ledger :=
  ⟨h.1.later hl, fun state hstate slot hslot => (h.2 state hstate slot hslot).later h.1 hl⟩

/-- A spent slot is tracked, released or not. -/
theorem TrackedOrReleased.tracked {start : Option PoolState} {now : Int} {n : ρ}
    {slot : PoolSlot} (h : TrackedOrReleased chain pool P U start now n slot)
    (hspent : slot.state = .spent) : Tracked chain pool P U n slot := by
  rcases h with h | ⟨_, _, hunspent, _⟩
  · exact h
  · exact absurd (hunspent.symm.trans hspent) (by
      simp only [reduceCtorEq, not_false_eq_true])

/-- A reconciliation leaves its slots tracked or released. -/
theorem kept_reconcile {now : Int} :
    Kept network pool (.reconcile now) sys
      (fun n ledger => Reconciling chain pool P U (sys.ledger pool) now n ledger ∧
        Inherited (sys.ledger pool) ledger)
      (fun n ledger => Reconciling chain pool P U (sys.ledger pool) now n ledger ∧
        (sys.current = none → Inherited (sys.ledger pool) ledger)) where
  memory := fun _ _ _ hstep h => ⟨h.1.later (.single hstep), h.2⟩
  store := fun _ _ _ hstep h => ⟨h.1.later (.single hstep), h.2⟩
  persist := fun _ _ h => ⟨h.1, fun _ => h.2⟩
  load := fun _ _ hnone h => ⟨h.1, h.2 hnone⟩
  new := fun n past seen state _ _ _ _ hnew => by cases hnew
  move := fun m n past state state' _ hl hheard h hmove => by
    cases hmove with
    | reread online => exact absurd online (by simp only [reduceCtorEq, exists_false, or_self,
        not_false_eq_true])
    | reconciled slots =>
        have hpast := h.1.2 state rfl
        refine ⟨⟨h.1.1.later hl, fun state'' hstate slot' hslot' => ?_⟩,
          fun state'' hstate slot' hslot' record hspent hagainst => ?_⟩
        · rw [← Option.some.inj hstate] at hslot'
          rcases slots.slot_mem hslot' with hold | ⟨slot, hslot, record, hspent, hagainst, hr⟩
          · exact (hpast slot' hold).later h.1.1 hl
          · have htracked := (hpast slot hslot).tracked hspent
            rcases tracked_rearmed h.1.1 htracked hl hheard hspent hagainst hr with
              hdone | ⟨hindex, hstate, hvalue, hat, hdue⟩
            · exact .inl hdone
            · refine .inr ⟨record.value, ?_, hstate, hvalue, hat, hdue⟩
              rw [hindex]
              exact h.2 state rfl slot hslot record hspent hagainst
        · rw [← Option.some.inj hstate] at hslot'
          rcases slots.slot_mem hslot' with hold | ⟨slot, _, _, _, _, hr⟩
          · exact h.2 state rfl slot' hold record hspent hagainst
          · cases hr <;> exact absurd hspent (by
              simp only [rearmed, reduceCtorEq, not_false_eq_true])

/-- What holds in a run so far: both ledgers are tracked. -/
abbrev HandedOut (chain : Chain network) (pool : PoolConfig) (events : List (PoolEvent ρ))
    (sys : PoolSys ρ) : Prop :=
  Ledgers pool (LedgerTracked chain pool (MadeIn events) (Unreleased pool events))
    (LedgerTracked chain pool (MadeIn events) (Unreleased pool events)) sys

/-- A ledger tracked before an event that makes no reservation is tracked
    after it, if each slot is tracked with what the event released left out. -/
theorem ledgerTracked_silent {events : List (PoolEvent ρ)} {e : PoolEvent ρ} {n : ρ}
    {ledger : Option PoolState} (hmade : made e = none)
    (hknown : Known chain pool (MadeIn events) n)
    (h : ∀ state, ledger = some state → ∀ slot ∈ state.slots,
      Tracked chain pool (MadeIn events) (Unreleased pool (events ++ [e])) n slot) :
    LedgerTracked chain pool (MadeIn (events ++ [e])) (Unreleased pool (events ++ [e])) n
      ledger := by
  have hold : ∀ m, MadeIn (events ++ [e]) m → MadeIn events m := fun m hm => by
    rcases madeIn_snoc hm with hm | hm
    · exact hm
    · rw [hmade] at hm
      cases hm
  refine ⟨fun m hm => hknown m (hold m hm), fun state hstate slot hslot => ?_⟩
  have htracked := h state hstate slot hslot
  exact ⟨htracked.derived,
    fun hu u hvalue => ⟨(htracked.unspent hu u hvalue).1,
      fun m hm => (htracked.unspent hu u hvalue).2 m (hold m hm)⟩,
    fun hu hvalue m hm => htracked.blank hu hvalue m (hold m hm),
    fun hs record hrecord => ⟨(htracked.spent hs record hrecord).1,
      fun m hm => (htracked.spent hs record hrecord).2 m (hold m hm)⟩⟩

/-- Nothing comes out again unless it was handed out. -/
theorem unreleased_of_silent {events : List (PoolEvent ρ)} {e : PoolEvent ρ}
    (hmade : made e = none) {m : MadeReservation} (h : Unreleased pool (events ++ [e]) m) :
    Unreleased pool events m ∧ ∀ now, Releases pool e m.reservation now →
      ¬ m.now + pool.sendWindowMs ≤ now := by
  rcases unreleased_snoc h with h | hm
  · exact h
  · rw [hmade] at hm
    cases hm

/-- A reconciliation keeps its ledgers tracked: what it releases in time is no
    longer out. -/
theorem tracked_of_reconciling {events : List (PoolEvent ρ)} {e : PoolEvent ρ} {now : Int}
    {ledger : Option PoolState} (hmade : made e = none)
    (hop : e.op.op = some (.reconcile now))
    (hledger : ledger = e.after.current ∨ ledger = e.after.stored pool) {n : ρ}
    (h : Reconciling chain pool (MadeIn events) (Unreleased pool events) (e.before.ledger pool)
      now n ledger) :
    LedgerTracked chain pool (MadeIn (events ++ [e])) (Unreleased pool (events ++ [e])) n
      ledger := by
  refine ledgerTracked_silent hmade h.1 fun state hstate slot hslot => ?_
  rcases h.2 state hstate slot hslot with htracked | ⟨v, hstart, hunspent, hvalue, hat, htracked⟩
  · exact htracked.mono fun m _ hm => (unreleased_of_silent hmade hm).1
  · refine ⟨htracked.derived, fun hu u hu' => ?_, htracked.blank, htracked.spent⟩
    rcases htracked.unspent hu u hu' with ⟨hheld, hall⟩
    refine ⟨hheld, fun m hm hindex => ⟨(hall m hm hindex).1, fun hout heq => ?_⟩⟩
    rcases unreleased_of_silent hmade hout with ⟨hold, hnot⟩
    have huv : u = v := Option.some.inj (hu'.symm.trans hvalue)
    -- A reservation of the released value was released by this event.
    have hreservation : m.reservation = ⟨slot.index, v⟩ := by
      rw [← hindex, ← huv, ← heq]
    have hreleased : ReleasedIn ledger m.reservation now := by
      rw [hreservation]
      exact ⟨state, hstate, slot, hslot, rfl, hunspent, hvalue, hat⟩
    have hreleases : Releases pool e m.reservation now := by
      refine ⟨hop, hreservation ▸ hstart, ?_⟩
      rcases hledger with rfl | rfl
      · exact .inl hreleased
      · exact .inr hreleased
    exact (hall m hm hindex).2 ⟨hold, hnot now hreleases⟩ heq

/-- A reservation keeps its ledgers tracked: it is now out itself. -/
theorem tracked_of_made {events : List (PoolEvent ρ)} {e : PoolEvent ρ} {m : MadeReservation}
    {n : ρ} {state : PoolState} {slot : PoolSlot} (hmade : made e = some m)
    (h : LedgerTracked chain pool (MadeIn events) (Unreleased pool events) n (some state))
    (hclock : ∀ m', MadeIn events m' → m'.now ≤ m.now)
    (hchosen : Pool.chooseSlot state = some slot) (hknown : slot.value = some m.reservation.value)
    (hindex : slot.index = m.reservation.index) :
    LedgerTracked chain pool (MadeIn (events ++ [e])) (Unreleased pool (events ++ [e])) n
      (some (reserved pool state slot m.reservation.value m.merchant m.now m.amount)) := by
  rcases mem_of_chooseSlot hchosen with ⟨hmem, hunspent, _⟩
  have hslot := h.2 state rfl slot hmem
  have hheld := (hslot.unspent hunspent _ hknown).1
  have hself : ∀ m', made e = some m' → m' = m := fun m' hm' =>
    Option.some.inj (hm'.symm.trans hmade)
  refine ⟨fun m' hm' => ?_, fun state' hstate' slot' hslot' => ?_⟩
  · rcases madeIn_snoc hm' with hm' | hm'
    · exact h.1 m' hm'
    · rw [hself m' hm', ← hindex]
      exact ⟨slot.address, hslot.derived, hheld⟩
  · rw [← Option.some.inj hstate'] at hslot'
    rcases mem_reserved hslot' with rfl | ⟨hslot', hne⟩
    · have htracked := @tracked_reserved _ _ _ _ _ _ _ _ _ m.merchant _ hslot hunspent hknown hclock
      refine ⟨htracked.derived, fun hu => ?_, fun hu => ?_, fun hs record hrecord => ?_⟩
      · exact absurd hu (by simp only [reduceCtorEq, not_false_eq_true])
      · exact absurd hu (by simp only [reduceCtorEq, not_false_eq_true])
      · rcases htracked.spent hs record hrecord with ⟨hrecorded, hall⟩
        refine ⟨hrecorded, fun m' hm' hindex' => ?_⟩
        -- Either made before, or the one that is made now.
        rcases madeIn_snoc hm' with hm' | hm'
        · exact hall m' hm' hindex'
        · rw [hself m' hm', ← Option.some.inj hrecord]
          exact ⟨le_refl _, le_refl _⟩
    · have htracked := h.2 state rfl slot' hslot'
      -- The other slots keep their history, as the new reservation is of another index.
      have hother : ∀ m', MadeIn (events ++ [e]) m' → m'.reservation.index = slot'.index →
          MadeIn events m' := fun m' hm' hindex' => by
        rcases madeIn_snoc hm' with hm' | hm'
        · exact hm'
        · rw [hself m' hm', ← hindex] at hindex'
          exact absurd hindex'.symm hne
      refine ⟨htracked.derived, fun hu u hvalue => ⟨(htracked.unspent hu u hvalue).1,
        fun m' hm' hindex' => ?_⟩, fun hu hvalue m' hm' hindex' => ?_,
        fun hs record hrecord => ⟨(htracked.spent hs record hrecord).1,
          fun m' hm' hindex' => ?_⟩⟩
      · have hall := (htracked.unspent hu u hvalue).2 m' (hother m' hm' hindex') hindex'
        refine ⟨hall.1, fun hout => hall.2 ?_⟩
        rcases unreleased_snoc hout with ⟨hold, _⟩ | hm''
        · exact hold
        · rw [hself m' hm'', ← hindex] at hindex'
          exact absurd hindex'.symm hne
      · exact htracked.blank hu hvalue m' (hother m' hm' hindex') hindex'
      · exact (htracked.spent hs record hrecord).2 m' (hother m' hm' hindex') hindex'

/-- Both ledgers stay tracked if each of their slots does. -/
theorem handedOut_silent {events : List (PoolEvent ρ)} {e : PoolEvent ρ} (hmade : made e = none)
    (h : HandedOut chain pool events e.after) : HandedOut chain pool (events ++ [e]) e.after := by
  have hledger : ∀ ledger, LedgerTracked chain pool (MadeIn events) (Unreleased pool events)
      e.after.world.net ledger → LedgerTracked chain pool (MadeIn (events ++ [e]))
      (Unreleased pool (events ++ [e])) e.after.world.net ledger := fun ledger hl =>
    ledgerTracked_silent hmade hl.1 fun state hstate slot hslot =>
      (hl.2 state hstate slot hslot).mono fun m _ hm => (unreleased_of_silent hmade hm).1
  exact ⟨fun state hstate => hledger _ (h.memory state hstate), hledger _ h.store⟩

/-- The ledger the next operation works on is the one in memory, or the one in
    the store if none is. -/
theorem ledger_eq (sys : PoolSys ρ) (pool : PoolConfig) :
    (∀ state, sys.current = some state → sys.ledger pool = sys.current) ∧
      (sys.current = none → sys.ledger pool = sys.stored pool) := by
  refine ⟨fun state h => ?_, fun h => ?_⟩
  · simp only [PoolSys.ledger, h, Option.some_or]
  · simp only [PoolSys.ledger, h, Option.none_or]

/-- A return keeps its ledgers tracked, if it is honest. -/
theorem handedOut_return {events : List (PoolEvent ρ)} {command : PoolCommand}
    {payload : NonceReturnPayload} (hop : command.op = some (.applyNonceReturn payload))
    (hhonest : HonestReturn chain pool (Async.eventAt (poolStep network pool) command sys))
    (h : HandedOut chain pool events sys) :
    HandedOut chain pool events (poolStep network pool command sys).2 := by
  -- An honest merchant returns a value later than the one it was paid with.
  have hstart : ∀ ledger, sys.ledger pool = ledger →
      LedgerTracked chain pool (MadeIn events) (Unreleased pool events) sys.world.net ledger →
      HonestIn chain pool payload sys.world.net ledger := by
    intro ledger hledger htracked state slot record statement hstate hfound hspent hagainst hv
    rcases hhonest payload state slot record statement hop (hledger.trans hstate) hfound hspent
      hagainst hv with ⟨hnew, hlt⟩
    have hslot := htracked.2 state hstate slot (List.mem_of_find?_eq_some hfound)
    exact ⟨hnew, (hslot.spent hspent record hagainst).1, hlt⟩
  have hkept : ∀ op', command.op = some op' → Kept network pool op' sys _ _ := fun op' hop' =>
    Option.some.inj (hop.symm.trans hop') ▸
      @kept_return _ _ chain pool (MadeIn events) (Unreleased pool events) sys payload
  have hafter := command_kept hkept
    ⟨fun state hs => ⟨h.memory state hs,
        hstart _ ((ledger_eq sys pool).1 state hs) (h.memory state hs)⟩,
      h.store, fun hnone => hstart _ ((ledger_eq sys pool).2 hnone) h.store⟩
  exact ⟨fun state hs => (hafter.memory state hs).1, hafter.store.1⟩

/-- A reconciliation keeps its ledgers tracked. -/
theorem handedOut_reconcile {events : List (PoolEvent ρ)} {command : PoolCommand} {now : Int}
    (hop : command.op = some (.reconcile now))
    (hmade : made (Async.eventAt (poolStep network pool) command sys) = none)
    (h : HandedOut chain pool events sys) :
    HandedOut chain pool (events ++ [Async.eventAt (poolStep network pool) command sys])
      (poolStep network pool command sys).2 := by
  have hstart : ∀ ledger, LedgerTracked chain pool (MadeIn events) (Unreleased pool events)
      sys.world.net ledger → Reconciling chain pool (MadeIn events) (Unreleased pool events)
        (sys.ledger pool) now sys.world.net ledger := fun ledger hl =>
    ⟨hl.1, fun state hstate slot hslot => .inl (hl.2 state hstate slot hslot)⟩
  -- What is spent when it starts is inherited from the ledger before.
  have hinherited : Inherited (sys.ledger pool) (sys.ledger pool) :=
    fun state hstate slot hslot record hspent hagainst =>
      ⟨state, hstate, slot, hslot, record, rfl, hspent, hagainst, rfl⟩
  have hkept : ∀ op', command.op = some op' → Kept network pool op' sys _ _ := fun op' hop' =>
    Option.some.inj (hop.symm.trans hop') ▸
      @kept_reconcile _ _ chain pool (MadeIn events) (Unreleased pool events) sys now
  have hafter := command_kept hkept
    ⟨fun state hs => ⟨hstart _ (h.memory state hs), by
        rw [← (ledger_eq sys pool).1 state hs]
        exact hinherited⟩,
      hstart _ h.store, fun hnone => by
        rw [← (ledger_eq sys pool).2 hnone]
        exact hinherited⟩
  exact ⟨fun state hs => tracked_of_reconciling hmade hop (.inl rfl) (hafter.memory state hs).1,
    tracked_of_reconciling hmade hop (.inr rfl) hafter.store.1⟩

/-- The readings of a run include those of its reservations. -/
theorem made_reading {events : List (PoolEvent ρ)} {m : MadeReservation}
    (h : MadeIn events m) : m.now ∈ readings events := by
  rcases h with ⟨e, hmem, hm⟩
  refine List.mem_filterMap.mpr ⟨e, hmem, ?_⟩
  simp only [PoolCommand.reading, PoolCommand.op, (made_eq hm).1]

/-- What a run is held to: no reading of `reserveSlot` comes before an earlier
    one, and every return is honest. -/
structure Promised (chain : Chain network) (pool : PoolConfig) (events : List (PoolEvent ρ))
    (e : PoolEvent ρ) : Prop where
  clock : ∀ now, e.op.reading = some now → ∀ t ∈ readings events, t ≤ now
  honest : HonestReturn chain pool e

/-- What a promised command runs, a return or a reconciliation apart, keeps
    both ledgers tracked. -/
theorem kept_of_promised {events : List (PoolEvent ρ)} {command : PoolCommand}
    (h : HandedOut chain pool events sys)
    (hpromised : Promised chain pool events (Async.eventAt (poolStep network pool) command sys))
    (hop : command.op = some op) (hreturn : ∀ payload, op ≠ .applyNonceReturn payload)
    (hreconcile : ∀ now, op ≠ .reconcile now) :
    Kept network pool op sys
      (LedgerTracked chain pool (MadeIn events) (Unreleased pool events))
      (LedgerTracked chain pool (MadeIn events) (Unreleased pool events)) := by
  refine kept_plain h.store.1 hreturn hreconcile fun merchant now amount hreserve m hm => ?_
  refine hpromised.clock now ?_ m.now (made_reading hm)
  simp only [Async.eventAt, PoolCommand.reading, hop, hreserve]

/-- A reservation is made from a tracked ledger. -/
theorem made_tracked {events : List (PoolEvent ρ)} {command : PoolCommand}
    (h : HandedOut chain pool events sys)
    (hpromised : Promised chain pool events (Async.eventAt (poolStep network pool) command sys))
    {m : MadeReservation}
    (hmade : made (Async.eventAt (poolStep network pool) command sys) = some m) :
    ∃ state slot, Made pool (LedgerTracked chain pool (MadeIn events) (Unreleased pool events)
      (poolStep network pool command sys).2.world.net) m
      (poolStep network pool command sys).2 state slot := by
  have hcommand : command = .call (.reserveSlot m.merchant m.now m.amount) := (made_eq hmade).1
  subst hcommand
  exact (op_kept (kept_of_promised h hpromised rfl (fun _ => PoolOp.noConfusion)
    fun _ => PoolOp.noConfusion) h).2 m hmade

/-- Every command keeps both ledgers tracked. -/
theorem handOut_step {events : List (PoolEvent ρ)} {command : PoolCommand}
    (h : HandedOut chain pool events sys)
    (hpromised : Promised chain pool events (Async.eventAt (poolStep network pool) command sys)) :
    HandedOut chain pool (events ++ [Async.eventAt (poolStep network pool) command sys])
      (poolStep network pool command sys).2 := by
  cases hmade : made (Async.eventAt (poolStep network pool) command sys) with
  | some m =>
      rcases made_tracked h hpromised hmade with ⟨state, slot, hm⟩
      have hreading : (Async.eventAt (poolStep network pool) command sys).op.reading
          = some m.now := by
        rw [(made_eq hmade).1]
        rfl
      have hafter := tracked_of_made hmade hm.kept
        (fun m' hm' => hpromised.clock m.now hreading m'.now (made_reading hm'))
        hm.chosen hm.known hm.index
      exact hm.ledgers hafter
  | none =>
      -- Returns and reconciliations free a slot. Everything else frees none.
      by_cases hreturn : ∃ payload, command.op = some (.applyNonceReturn payload)
      · rcases hreturn with ⟨payload, hop⟩
        exact handedOut_silent hmade (handedOut_return hop hpromised.honest h)
      · by_cases hreconcile : ∃ now, command.op = some (.reconcile now)
        · rcases hreconcile with ⟨now, hop⟩
          exact handedOut_reconcile hop hmade h
        · refine handedOut_silent hmade (command_kept (fun op hop => ?_) h)
          exact kept_of_promised h hpromised hop
            (fun payload heq => hreturn ⟨payload, heq ▸ hop⟩)
            fun now heq => hreconcile ⟨now, heq ▸ hop⟩

/-- A run from a pool never used has both ledgers tracked before every event,
    if each event is promised. -/
theorem handedOut_before (hfresh : sys.Fresh pool) {commands : List PoolCommand}
    (hpromised : ∀ pre e post, poolHistory network pool sys commands = pre ++ e :: post →
      Promised chain pool pre e)
    {pre post : List (PoolEvent ρ)} {e : PoolEvent ρ}
    (hsplit : poolHistory network pool sys commands = pre ++ e :: post) :
    HandedOut chain pool pre e.before := by
  have hstart : HandedOut chain pool [] sys :=
    ⟨fun state hs => absurd (hfresh.1.symm.trans hs) (by
        simp only [reduceCtorEq, not_false_eq_true]),
      fun m hm => absurd hm.choose_spec.1 List.not_mem_nil,
      fun state hs => absurd (hfresh.2.symm.trans hs) (by
        simp only [reduceCtorEq, not_false_eq_true])⟩
  exact (Async.history_rule (poolStep network pool) (J := HandedOut chain pool)
    (A := Promised chain pool) (fun _ _ _ hs hA => handOut_step hs hA) hstart
    (fun pre e post heq => hpromised pre e post heq)).2 pre e post hsplit

end Slot

/-- A value is handed out again only after a reconciliation at least
    `sendWindowMs` after the earlier reservation released its slot. -/
theorem hand_out_once {network : Network ρ} (chain : Chain network) (pool : PoolConfig)
    {sys : PoolSys ρ} (hfresh : sys.Fresh pool) (commands : List PoolCommand)
    (hclock : (readings (poolHistory network pool sys commands)).Pairwise (· ≤ ·))
    (hhonest : ∀ e ∈ poolHistory network pool sys commands, HonestReturn chain pool e)
    {pre mid post : List (PoolEvent ρ)} {e₁ e₂ : PoolEvent ρ} {m₁ m₂ : MadeReservation}
    (hsplit : poolHistory network pool sys commands = pre ++ e₁ :: (mid ++ e₂ :: post))
    (h₁ : made e₁ = some m₁) (h₂ : made e₂ = some m₂)
    (hsame : m₁.reservation = m₂.reservation) :
    ∃ e ∈ mid, ∃ now, Releases pool e m₁.reservation now ∧
      m₁.now + pool.sendWindowMs ≤ now := by
  have hsplit₂ : poolHistory network pool sys commands = (pre ++ e₁ :: mid) ++ e₂ :: post := by
    rw [hsplit, List.append_assoc, List.cons_append]
  have hpromised : ∀ pre e post, poolHistory network pool sys commands = pre ++ e :: post →
      Promised chain pool pre e := by
    intro pre e post heq
    refine ⟨fun now hnow t ht => ?_, hhonest e (heq ▸ List.mem_append_right _ List.mem_cons_self)⟩
    rw [heq, readings_append, List.pairwise_append] at hclock
    exact hclock.2.2 t ht now (List.mem_filterMap.mpr ⟨e, List.mem_cons_self, hnow⟩)
  -- Before the second reservation, the slot's value is later than the first one's or released.
  have hbefore := handedOut_before hfresh hpromised hsplit₂
  have hevent := Async.eventAt_of_mem (poolStep network pool) (e := e₂)
    (hsplit₂ ▸ List.mem_append_right _ List.mem_cons_self)
  rcases made_tracked hbefore (hevent ▸ hpromised _ _ _ hsplit₂) (hevent ▸ h₂) with
    ⟨state, slot, hm⟩
  rcases mem_of_chooseSlot hm.chosen with ⟨hmem, hunspent, _⟩
  have hfresh := ((hm.kept.2 state rfl slot hmem).unspent hunspent _ hm.known).2 m₁
    ⟨e₁, List.mem_append_right _ List.mem_cons_self, h₁⟩ (by rw [hsame, hm.index])
  -- Without a release in between, the first reservation would still be out.
  by_contra hnone
  refine hfresh.2 ⟨pre, e₁, mid, rfl, h₁, fun e he now hreleases hdue => ?_⟩ (by rw [hsame])
  exact hnone ⟨e, he, now, hreleases, hdue⟩

/-- A chain of one value: every nonce account holds it once a setup transaction
    was sent, and a second setup transaction fails. -/
def setupOnce : Network Bool where
  rpc := fun c created => match c with
    | .getNonceRentExemption => (.ok 1056640, created)
    | .getRentExemption _ => (.ok 890880, created)
    | .getMintAccount _ => (.error testKit.unexpectedSigner, created)
    | .getNonceAccount _ =>
      (.ok (if created then .initialized testPool.payer (testNonce 7) 1056640 else .absent),
        created)
    | .getBalance _ => (.ok 1000000000, created)
    | .getSignatureOutcome _ => (.ok .absent, created)
    | .sendSetup _ _ =>
      if created then (.error testKit.unexpectedSigner, created) else (.ok [], true)
    | .sendPayment _ _ => (.ok [], created)
  storage := fun created => (none, created)
  sign := fun key message created => (testSignature key.publicKey message, created)
  clock := fun _ => 0
  randomUUID := fun created => ("epoch", created)
  tick := id

/-- What an account of that chain has held. -/
def onceRegister (created : Bool) : Register Nonce where
  held := if created then [testNonce 7] else []
  current := if created then some (testNonce 7) else none
  nodup := by cases created <;> simp
  last := fun v h => by
    cases created with
    | false => cases h
    | true =>
        cases h
        rfl

theorem setupOnce_next {created created' : Bool} (h : Steps setupOnce created created') :
    created' = created ∨ created = false ∧ created' = true := by
  rcases h with ⟨r, w, rfl, rfl⟩
  rcases hw : w.net with _ | _
  · exact (Bool.eq_false_or_eq_true _).symm.imp_right fun h => ⟨rfl, h⟩
  · left
    cases r with
    | rpc c => cases c <;> simp [reply, setupOnce, hw]
    | _ => simp [reply, setupOnce, hw]

def setupOnceChain : Chain setupOnce where
  register := fun created _ => onceRegister created
  next := fun created created' _ h => by
    rcases setupOnce_next h with rfl | ⟨rfl, rfl⟩
    · exact .refl _
    · exact ⟨List.nil_prefix, fun _ _ => by simp [onceRegister]⟩
  truthful := fun created created' _ account h => by
    rcases Prod.mk.inj h with ⟨haccount, rfl⟩
    rw [← Except.ok.inj haccount]
    cases created <;> rfl
  setup := fun created created' _ _ _ h _ _ => by
    cases created with
    | true => cases (Prod.mk.inj h).1
    | false =>
        rcases Prod.mk.inj h with ⟨_, rfl⟩
        exact ⟨rfl, by simp [onceRegister]⟩

/-- One slot, reserved, released when the send window has passed, and reserved
    again. -/
def releasingRun : List PoolCommand :=
  [.call (.create 1 (testKey 1)), .call (.reserveSlot (testAddress 2) 5 10), .reopen,
    .call (.reconcile (5 + sendWindowMs)),
    .call (.reserveSlot (testAddress 3) (6 + sendWindowMs) 10)]

def releasingStart : PoolSys Bool := ⟨none, ⟨∅, false⟩⟩

/-- The event of one of its commands. -/
def releasingEvent (n : Fin 5) : PoolEvent Bool :=
  (poolHistory setupOnce testPool releasingStart releasingRun).get n

theorem hand_out_once_releasingRun :
    ∃ e ∈ [releasingEvent 2, releasingEvent 3], ∃ now,
      Releases testPool e ⟨0, testNonce 7⟩ now ∧ 5 + sendWindowMs ≤ now :=
  @hand_out_once _ _ setupOnceChain testPool releasingStart ⟨rfl, rfl⟩ releasingRun
    (by decide +kernel)
    (fun e he payload _ _ _ _ hop => by
      have hmem := Async.op_mem_of_mem _ he
      simp only [releasingRun, List.mem_cons, List.not_mem_nil, or_false] at hmem
      rcases hmem with h | h | h | h | h <;> rw [h] at hop <;> cases hop)
    [releasingEvent 0] [releasingEvent 2, releasingEvent 3] [] (releasingEvent 1)
    (releasingEvent 4) ⟨testAddress 2, 5, 10, ⟨0, testNonce 7⟩⟩
    ⟨testAddress 3, 6 + sendWindowMs, 10, ⟨0, testNonce 7⟩⟩
    rfl (by decide +kernel) (by decide +kernel) rfl

end Vadum
