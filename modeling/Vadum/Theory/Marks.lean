import Vadum.Client.FakeRpc
import Vadum.Theory.WellFormed

/-!
# Released Marks

A slot that reconciliation released keeps a mark, for its value still belongs to
a payment somebody may submit. The mark is about the value, and is to go as soon
as the value moves. `applyNonceReturn`, `reconcile` and `close` see to that.
`refresh` writes another value under the old mark.

Where no refresh does, a mark can be followed back. An operation leaves a marked
slot as it found it, or it is the reconciliation that released it.

## Main definitions

* `RereadsMoved`: A refresh that gets another value for a marked slot.
* `Marked`: Where the mark of a slot came from during an operation.
* `Recall`: What an operation remembers of the ledger it started from.
* `MarksFollow`: In a run, every mark follows its slot's value.

## Theorems

* `Recall.move`: Every write of an operation remembers.
* `marks_step`: So does every command.
* `marks_follow`: Every mark follows its value, if no refresh gets another.
* `mark_left_behind`: A refresh can leave one behind.
-/

namespace Vadum

open Async (Act history final)
open Async.Process

variable {ρ : Type} {network : Network ρ} {pool : PoolConfig}

/-- An event was told this of an account. -/
def Told (network : Network ρ) (pool : PoolConfig) (e : PoolEvent ρ) (address : Address)
    (account : NonceAccountState) : Prop :=
  ∃ w, (Req.rpc (.getNonceAccount address), w) ∈ requestsOf network pool e.op e.before ∧
    (network.rpc (.getNonceAccount address) w.net).1 = .ok account

/-- A refresh that reads every slot of its ledger, and for one that carries a mark
    gets another value than the ledger has. -/
def RereadsMoved (network : Network ρ) (pool : PoolConfig) (e : PoolEvent ρ) : Prop :=
  e.op.op = some .refresh ∧ ∃ state, e.before.ledger pool = some state ∧
    (∀ slot ∈ state.slots, ∃ account, Told network pool e slot.address account) ∧
    ∃ slot ∈ state.slots, slot.releasedAt ≠ none ∧
      ∃ account, Told network pool e slot.address account ∧ account.value ≠ slot.value

def InLedger (ledger : Option PoolState) (slot : PoolSlot) : Prop :=
  ∃ state, ledger = some state ∧ slot ∈ state.slots

/-- Where a slot's mark came from, when an operation started from this ledger: a
    slot of that ledger had it, with the same value, or the operation reconciled
    and released the slot. -/
inductive Marked (op : PoolOp) (start : Option PoolState) (slot' : PoolSlot) (at' : Int) : Prop
  | kept {slot : PoolSlot} (mem : InLedger start slot) (index : slot.index = slot'.index)
      (address : slot.address = slot'.address) (mark : slot.releasedAt = some at')
      (value : slot.value = slot'.value)
      (record : slot = slot' ∨ ∀ record, slot'.spentAgainst = some record →
        slot'.value = some record.value)
  | released {slot : PoolSlot} {record : SpentRecord} (reconcile : op = .reconcile at')
      (mem : InLedger start slot) (index : slot.index = slot'.index)
      (spent : slot.state = .spent) (against : slot.spentAgainst = some record)
      (unspent : slot'.state = .unspent) (value : slot'.value = some record.value)

/-- What an operation remembers of the ledger it started from: where each mark
    came from, the addresses while it refreshes, and the spent slots while it
    reconciles. -/
structure Recall (op : PoolOp) (start ledger : Option PoolState) : Prop where
  marked : ∀ slot, InLedger ledger slot → ∀ at', slot.releasedAt = some at' →
    Marked op start slot at'
  addresses : op = .refresh → ∀ state, ledger = some state → ∃ state₀, start = some state₀ ∧
    state.slots.map PoolSlot.address = state₀.slots.map PoolSlot.address
  spent : ∀ now, op = .reconcile now → ∀ slot, InLedger ledger slot → slot.state = .spent →
    InLedger start slot

theorem Recall.refl (op : PoolOp) (start : Option PoolState) : Recall op start start where
  marked := fun _ hslot _ hat => .kept hslot rfl rfl hat rfl (.inl rfl)
  addresses := fun _ state hstate => ⟨state, hstate, rfl⟩
  spent := fun _ _ _ hslot _ => hslot

/-- A ledger without marks or spent slots, written by an operation that does not
    refresh, has nothing to remember. -/
theorem Recall.of_unmarked {op : PoolOp} {start : Option PoolState} {state : PoolState}
    (hmark : ∀ slot ∈ state.slots, slot.releasedAt = none) (hop : op ≠ .refresh)
    (hop' : ∀ now, op ≠ .reconcile now) : Recall op start (some state) where
  marked := fun slot hslot at' hat => by
    rcases hslot with ⟨_, hstate, hslot⟩
    cases hstate
    cases (hmark slot hslot).symm.trans hat
  addresses := fun h => absurd h hop
  spent := fun now h => absurd h (hop' now)

/-- Only the slots are remembered. -/
theorem Recall.of_slots {op : PoolOp} {start : Option PoolState} {state state' : PoolState}
    (h : Recall op start (some state)) (hslots : state'.slots = state.slots) :
    Recall op start (some state') := by
  have hledger : ∀ slot, InLedger (some state') slot → InLedger (some state) slot := by
    rintro slot ⟨_, hstate, hslot⟩
    cases hstate
    exact ⟨state, rfl, hslots ▸ hslot⟩
  refine ⟨fun slot hslot => h.marked slot (hledger slot hslot), fun hop state'' hstate => ?_,
    fun now hop slot hslot => h.spent now hop slot (hledger slot hslot)⟩
  cases hstate
  rw [hslots]
  exact h.addresses hop state rfl

/-- A slot put in without a mark keeps what is said of the others. -/
theorem Recall.withSlot {op : PoolOp} {start : Option PoolState} {state : PoolState}
    {slot : PoolSlot} (h : Recall op start (some state))
    (hmarked : ∀ at', slot.releasedAt = some at' → Marked op start slot at')
    (hop : op ≠ .refresh) (hop' : ∀ now, op ≠ .reconcile now) :
    Recall op start (some (withSlot state slot)) where
  marked := fun slot' hslot at' hat => by
    rcases hslot with ⟨_, hstate, hslot⟩
    cases hstate
    rcases mem_withSlot hslot with rfl | ⟨hslot, _⟩
    · exact hmarked at' hat
    · exact h.marked slot' ⟨state, rfl, hslot⟩ at' hat
  addresses := fun h => absurd h hop
  spent := fun now h => absurd h (hop' now)

/-- Slots read again are at the same addresses. -/
theorem address_of_reread {past : Past} {slots slots' : List PoolSlot}
    (h : List.Forall₂ (Reread past) slots slots') :
    slots'.map PoolSlot.address = slots.map PoolSlot.address := by
  induction h with
  | nil => rfl
  | cons hhead _ ih =>
      rcases hhead with ⟨slot, account, _⟩
      rw [List.map_cons, List.map_cons, ih]

/-- Every move remembers, if a refresh gets the values that marked slots have and
    what a `create` refreshes has no marks. -/
theorem Recall.move {past : Past} {op : PoolOp} {start : Option PoolState}
    {state state' : PoolState} (h : Recall op start (some state))
    (hmove : Move pool past op state state')
    (hcreate : (∃ size payerKey, op = .create size payerKey) →
      ∀ slot ∈ state.slots, slot.releasedAt = none)
    (hrefresh : op = .refresh →
      (∀ slot ∈ state.slots, ∃ account, Heard past (.getNonceAccount slot.address) account) →
      ∀ slot ∈ state.slots, slot.releasedAt ≠ none →
        ∀ account, Heard past (.getNonceAccount slot.address) account →
          account.value = slot.value) : Recall op start (some state') := by
  cases hmove with
  | @reserve _ slot value merchant now amount positive within chosen known =>
      -- A slot that is reserved keeps its mark, and is spent against the value it had with it.
      let spent : PoolSlot :=
        { slot with state := .spent, spentAgainst := some ⟨value, merchant, now⟩ }
      have hput : ∀ at', spent.releasedAt = some at' →
          Marked (.reserveSlot merchant now amount) start spent at' :=
        fun at' hat => by
          rcases h.marked slot ⟨state, rfl, (mem_of_chooseSlot chosen).1⟩ at' hat with
            ⟨mem, index, address, mark, hvalue, _⟩ | ⟨reconcile⟩
          · refine .kept mem index address mark hvalue (.inr fun record hrecord => ?_)
            cases hrecord
            exact known
          · cases reconcile
      exact (h.withSlot hput PoolOp.noConfusion fun _ => PoolOp.noConfusion).of_slots rfl
  | returned found spent against verified =>
      -- A return clears the mark.
      exact h.withSlot nofun PoolOp.noConfusion fun _ => PoolOp.noConfusion
  | @reread _ _ slots online values =>
      have hheard : ∀ slot ∈ state.slots, ∃ account,
          Heard past (.getNonceAccount slot.address) account := fun slot hslot => by
        rcases exists_reread values hslot with ⟨_, _, hreread⟩
        rcases hreread with ⟨account, heard⟩
        exact ⟨account, heard⟩
      rcases online with rfl | ⟨size, payerKey, rfl⟩
      · -- A marked slot is read again with the value it has, so it is the same slot.
        refine ⟨fun slot' hslot' at' hat => ?_, fun _ state' hstate' => ?_,
          fun _ => PoolOp.noConfusion⟩
        · rcases hslot' with ⟨_, hstate', hslot'⟩
          cases hstate'
          rcases mem_of_reread values hslot' with ⟨slot, hslot, hreread⟩
          rcases hreread with ⟨account, heard⟩
          have hmark : slot.releasedAt ≠ none := Option.ne_none_iff_exists'.mpr ⟨at', hat⟩
          have hsame : ({ slot with value := account.value } : PoolSlot) = slot := by
            rw [hrefresh rfl hheard slot hslot hmark account heard]
          rw [hsame]
          exact h.marked slot ⟨state, rfl, hslot⟩ at' hat
        · cases hstate'
          rcases h.addresses rfl state rfl with ⟨state₀, hstart, haddresses⟩
          exact ⟨state₀, hstart, (address_of_reread values).trans haddresses⟩
      -- What `create` reads again is the ledger it has just made.
      · refine .of_unmarked (fun slot' hslot' => ?_) PoolOp.noConfusion fun _ => PoolOp.noConfusion
        rcases mem_of_reread values hslot' with ⟨slot, hslot, hreread⟩
        rcases hreread with ⟨_, account, _⟩
        exact hcreate ⟨size, payerKey, rfl⟩ slot hslot
  | @reconciled now _ _ r slots =>
      refine ⟨fun slot' hslot' at' hat => ?_, PoolOp.noConfusion,
        fun now' hop slot' hslot' hspent => ?_⟩
      · rcases hslot' with ⟨_, hstate', hslot'⟩
        cases hstate'
        rcases slots.slot_mem hslot' with hold | ⟨slot, hslot, record, hspent, hagainst, hr⟩
        · exact h.marked slot' ⟨state, rfl, hold⟩ at' hat
        · cases hr with
          | gone heard value => cases hat
          | settled heard value moved => cases hat
          | released heard value elapsed =>
              cases hat
              have hmem := h.spent now rfl slot ⟨state, rfl, hslot⟩ hspent
              exact .released rfl hmem rfl hspent hagainst rfl rfl
      · rcases hslot' with ⟨_, hstate', hslot'⟩
        cases hstate'
        rcases slots.slot_mem hslot' with hold | ⟨slot, _, record, _, _, hr⟩
        · exact h.spent now' hop slot' ⟨state, rfl, hold⟩ hspent
        · cases hr <;> cases hspent
  | closed =>
      refine .of_unmarked (fun slot' hslot' => ?_) PoolOp.noConfusion fun _ => PoolOp.noConfusion
      rcases List.mem_map.mp hslot' with ⟨slot, _, rfl⟩
      rfl

section Create

/-- A ledger that is there and has no marks. -/
def WithoutMarks (ledger : Option PoolState) : Prop :=
  ∃ state, ledger = some state ∧ ∀ slot ∈ state.slots, slot.releasedAt = none

/-- What is written first has no marks. -/
def FirstUnmarked (past : Past) (_ s' : Option PoolState) : Prop :=
  (∀ seen new, Act.wrote seen new ∉ past) → WithoutMarks s'

/-- A process that writes nothing. -/
def Writeless {α : Type} (p : PoolM α) : Prop :=
  ∀ past s, p.Obeys (fun _ _ _ => False) (fun _ _ _ => True) (fun _ _ _ => True) past s

/-- What follows a process that writes nothing may assume nothing. -/
theorem writeless_bind {α β : Type} {G : Past → Option PoolState → Option PoolState → Prop}
    {p : PoolM α} {f : α → PoolM β} (hp : Writeless p)
    (hf : ∀ a past s, (f a).Obeys G (fun _ _ _ => True) (fun _ _ _ => True) past s)
    (past : Past) (s : Option PoolState) :
    (p >>= f).Obeys G (fun _ _ _ => True) (fun _ _ _ => True) past s := by
  refine obeys_bind (obeys_mono (fun _ _ _ h => h.elim) (fun _ _ _ _ => trivial)
    (fun past' s' x _ => ?_) (hp past s))
  cases x with
  | ok a => exact hf a past' s'
  | error e => trivial

theorem writeless_pure {α : Type} (a : α) : Writeless (pure a) := fun _ _ => trivial

theorem writeless_throw {α : Type} (e : Thrown) : Writeless (throw e : PoolM α) :=
  fun _ _ => trivial

theorem writeless_request (r : Req) : Writeless (request (I := client) r) :=
  fun _ _ => obeys_request (I := client) trivial fun _ => trivial

theorem writeless_assertPayerKey (payerKey : CryptoKeyPair) :
    Writeless (Pool.assertPayerKey pool payerKey) := by
  unfold Pool.assertPayerKey
  split
  · exact writeless_throw _
  · exact writeless_pure _

theorem writeless_currentOrStored : Writeless (Pool.currentOrStored pool) := fun past s => by
  refine obeys_bind fun seen => ?_
  cases seen with
  | some state => trivial
  | none => exact writeless_request _ past none

/-- The first ledger `create` writes has no marks. -/
theorem create_firstUnmarked (size : Int) (payerKey : CryptoKeyPair) (past : Past)
    (s : Option PoolState) : (Pool.create pool size payerKey).Obeys FirstUnmarked
      (fun _ _ _ => True) (fun _ _ _ => True) past s := by
  unfold Pool.create
  split
  · trivial
  refine writeless_bind (writeless_assertPayerKey payerKey) (fun _ past s => ?_) past s
  refine writeless_bind (writeless_bind (writeless_request _) fun rent =>
    writeless_bind (writeless_request _) fun minimum => writeless_pure _) (fun cost past s => ?_)
    past s
  refine writeless_bind (writeless_request _) (fun balance past s => ?_) past s
  dsimp only
  split
  · trivial
  generalize hsetup : Pool.setupSlots pool _ _ = x
  cases x with
  | error e => trivial
  | ok x =>
  refine writeless_bind (writeless_request _) (fun signature past s => ?_) past s
  refine writeless_bind (writeless_request _) (fun epoch past s => ?_) past s
  refine writeless_bind (writeless_bind (writeless_bind writeless_currentOrStored fun _ =>
    writeless_pure _) fun _ => writeless_bind (writeless_request _) fun _ => writeless_pure _)
    (fun spendLog past s => ?_) past s
  refine ⟨fun _ => ⟨_, rfl, fun slot hslot => (setupSlots_ok hsetup hslot).2.2.2.1⟩, ?_⟩
  · -- It has written by now.
    refine obeys_of_subset (fun past' _ _ hsub hnone => ?_) (fun _ _ _ _ => trivial)
      fun _ _ _ _ => trivial
    exact absurd (hsub (List.mem_append_right _ (List.mem_singleton_self _))) (hnone _ _)

end Create

section Steps

/-- What holds while a command runs an operation: the ledger in memory and what is
    read of the store recall the ledger it started from, and so does the store's
    once it is another; a `create` that has written has written no marks; and what
    was answered is among the command's requests. -/
structure Marking (network : Network ρ) (pool : PoolConfig) (command : PoolCommand) (op : PoolOp)
    (sys : PoolSys ρ) (past : Past) (s : Option PoolState) (w : World ρ) : Prop where
  memory : Recall op (sys.ledger pool) s
  store : w.store.lookup (.pool pool.payer) = sys.stored pool ∨
    Recall op (sys.ledger pool) (w.store.lookup (.pool pool.payer))
  read : ∀ stored, ReadStore pool past stored → sys.current = none →
    Recall op (sys.ledger pool) stored
  held : s = none → sys.current = none
  created : (∃ size payerKey, op = .create size payerKey) →
    (∃ seen new, Act.wrote seen new ∈ past) → WithoutMarks s
  told : ∀ address account, Answered past (.getNonceAccount address) account →
    Told network pool (Async.eventAt (poolStep network pool) command sys) address account

theorem recall_none (op : PoolOp) (start : Option PoolState) : Recall op start none where
  marked := fun _ ⟨_, hstate, _⟩ => by cases hstate
  addresses := fun _ _ hstate => by cases hstate
  spent := fun _ _ _ ⟨_, hstate, _⟩ => by cases hstate

theorem Marking.start {command : PoolCommand} {op : PoolOp} {sys : PoolSys ρ} :
    Marking network pool command op sys [] sys.current sys.world where
  memory := by
    cases hcurrent : sys.current with
    | none => exact recall_none _ _
    | some state =>
        rw [← hcurrent, ← (ledger_eq sys pool).1 state hcurrent]
        exact .refl _ _
  store := .inl rfl
  read := fun _ h => absurd h List.not_mem_nil
  held := id
  created := fun _ ⟨_, _, h⟩ => absurd h List.not_mem_nil
  told := fun _ _ h => absurd h List.not_mem_nil

/-- A `create` refreshes no marks. -/
theorem Marking.unmarked {command : PoolCommand} {op : PoolOp} {sys : PoolSys ρ} {past : Past}
    {state state' : PoolState} {w : World ρ}
    (h : Marking network pool command op sys past (some state) w)
    (hmove : Move pool past op state state') (hcreate : ∃ size payerKey, op = .create size payerKey)
    (hfirst : FirstUnmarked past (some state) (some state')) :
    (∀ slot ∈ state.slots, slot.releasedAt = none) ∧
      ∀ slot' ∈ state'.slots, slot'.releasedAt = none := by
  have hcreated := h.created hcreate
  rcases hcreate with ⟨size, payerKey, rfl⟩
  cases hmove with
  | reread online values =>
      -- `create` reads the slots it wrote itself, or, before that write, writes its own.
      by_cases hwrote : ∃ seen new, Act.wrote seen new ∈ past
      · rcases hcreated hwrote with ⟨_, hstate, hnone⟩
        cases hstate
        refine ⟨hnone, fun slot' hslot' => ?_⟩
        rcases mem_of_reread values hslot' with ⟨slot, hslot, hreread⟩
        rcases hreread with ⟨account, _⟩
        exact hnone slot hslot
      · simp only [not_exists] at hwrote
        rcases hfirst hwrote with ⟨_, hstate, hnone⟩
        cases hstate
        refine ⟨fun slot hslot => ?_, hnone⟩
        rcases exists_reread values hslot with ⟨slot', hslot', hreread⟩
        rcases hreread with ⟨account, _⟩
        have hmark := hnone _ hslot'
        exact hmark

/-- A slot that was there before a marked slot was read again is read with the
    value it has, unless the refresh gets another. -/
theorem Marking.refreshed {command : PoolCommand} {op : PoolOp} {sys : PoolSys ρ} {past : Past}
    {state : PoolState} {w : World ρ} (hop : command.op = some op)
    (h : Marking network pool command op sys past (some state) w)
    (hsame : ¬ RereadsMoved network pool (Async.eventAt (poolStep network pool) command sys))
    (hrefresh : op = .refresh)
    (hall : ∀ slot ∈ state.slots, ∃ account, Heard past (.getNonceAccount slot.address) account)
    {slot : PoolSlot} (hslot : slot ∈ state.slots) (hmark : slot.releasedAt ≠ none)
    {account : NonceAccountState} (hheard : Heard past (.getNonceAccount slot.address) account) :
    account.value = slot.value := by
  by_contra hne
  rcases h.memory.addresses hrefresh state rfl with ⟨state₀, hstart, haddresses⟩
  rcases Option.ne_none_iff_exists'.mp hmark with ⟨at', hat⟩
  refine hsame ⟨hrefresh ▸ hop, state₀, hstart, fun slot₀ hslot₀ => ?_, ?_⟩
  · have hmem : slot₀.address ∈ state.slots.map PoolSlot.address :=
      haddresses ▸ List.mem_map_of_mem hslot₀
    rcases List.mem_map.mp hmem with ⟨other, hother, haddress⟩
    rcases hall other hother with ⟨answer, hanswer⟩
    exact ⟨answer, haddress ▸ h.told _ _ hanswer.answered⟩
  · -- The mark is older than the operation, so the slot it started with had it too.
    rcases h.memory.marked slot ⟨state, rfl, hslot⟩ at' hat with
      @⟨slot₀, mem, _, address, mark, value, _⟩ | ⟨reconcile⟩
    · rcases mem with ⟨_, hledger, hslot₀⟩
      cases hstart.symm.trans hledger
      refine ⟨slot₀, hslot₀, Option.ne_none_iff_exists'.mpr ⟨at', mark⟩, account, ?_, ?_⟩
      · rw [address]
        exact h.told _ _ hheard.answered
      · rw [value]
        exact hne
    · cases hrefresh.symm.trans reconcile

theorem Marking.put {command : PoolCommand} {op : PoolOp} {sys : PoolSys ρ} {past : Past}
    {s s' : Option PoolState} {w : World ρ} (hop : command.op = some op)
    (h : Marking network pool command op sys past s w)
    (hsame : ¬ RereadsMoved network pool (Async.eventAt (poolStep network pool) command sys))
    (hwrite : Write pool op past s s')
    (hfirst : (∃ size payerKey, op = .create size payerKey) → FirstUnmarked past s s') :
    Marking network pool command op sys (past ++ [.wrote s s']) s' w where
  memory := by
    cases hwrite with
    -- A first load brings in what the store held.
    | load hread => exact h.read _ hread (h.held rfl)
    | move hmove =>
        exact h.memory.move hmove (fun hcreate => (h.unmarked hmove hcreate (hfirst hcreate)).1)
          fun hrefresh hall slot hslot hmark account hheard =>
            h.refreshed hop hsame hrefresh hall hslot hmark hheard
    | new hnew =>
        cases hnew with
        -- The slots of a new pool have no mark, and neither do recovered ones.
        | created bounds setup sent prior =>
            exact .of_unmarked (fun slot hslot => (setupSlots_ok setup hslot).2.2.2.1)
              PoolOp.noConfusion fun _ => PoolOp.noConfusion
        | recovered probed prior increasing =>
            refine .of_unmarked (fun slot hslot => ?_) PoolOp.noConfusion
              fun _ => PoolOp.noConfusion
            rcases probed slot hslot with ⟨_, _⟩
            rfl
  store := h.store
  read := fun stored hread => h.read stored (Act.asked_of_wrote hread)
  held := fun hs => by
    cases hwrite with
    | load _ => exact h.held rfl
    | move _ => cases hs
    | new _ => cases hs
  created := fun hcreate _ => by
    cases hwrite with
    | load _ =>
        by_cases hwrote : ∃ seen new, Act.wrote seen new ∈ past
        · rcases h.created hcreate hwrote with ⟨_, hstate, _⟩
          cases hstate
        · simp only [not_exists] at hwrote
          exact hfirst hcreate hwrote
    | move hmove => exact ⟨_, rfl, (h.unmarked hmove hcreate (hfirst hcreate)).2⟩
    | new hnew =>
        cases hnew with
        | created bounds setup sent prior =>
            exact ⟨_, rfl, fun slot hslot => (setupSlots_ok setup hslot).2.2.2.1⟩
        | recovered probed prior increasing =>
            rcases hcreate with ⟨_, _, hcreate⟩
            cases hcreate
  told := fun address account hanswered =>
    h.told address account (Act.asked_of_wrote hanswered)

theorem Marking.ask {command : PoolCommand} {op : PoolOp} {sys : PoolSys ρ} {past : Past}
    {s : Option PoolState} {w : World ρ} {r : Req}
    (h : Marking network pool command op sys past s w) (hr : Stores pool past s r)
    (hmem : (r, w) ∈ requestsOf network pool command sys) :
    Marking network pool command op sys (past ++ [.asked (I := client) r (reply network r w).1]) s
      (reply network r w).2 where
  memory := h.memory
  store := by
    rcases stored_reply network hr w with heq | ⟨state, rfl, heq⟩
    · rw [heq]
      exact h.store
    · rw [heq]
      exact .inr h.memory
  read := fun stored hread hcurrent => by
    rcases read_snoc hread with hread | rfl
    · exact h.read stored hread hcurrent
    · rcases h.store with hstore | hstore
      · -- What is stored is what the operation began with, or what it has written since.
        rw [hstore, ← (ledger_eq sys pool).2 hcurrent]
        exact .refl _ _
      · exact hstore
  held := h.held
  created := fun hcreate ⟨seen, new, hwrote⟩ =>
    h.created hcreate ⟨seen, new, Act.wrote_of_asked hwrote⟩
  told := fun address account hanswered => by
    rcases answered_snoc hanswered with hanswered | ⟨rfl, ha⟩
    · exact h.told address account hanswered
    · exact ⟨w, hmem, ha⟩

theorem Marking.ledger {command : PoolCommand} {op : PoolOp} {sys : PoolSys ρ} {past : Past}
    {s : Option PoolState} {w : World ρ} (h : Marking network pool command op sys past s w) :
    Recall op (sys.ledger pool) ((PoolSys.mk s w).ledger pool) := by
  cases s with
  | some state => exact h.memory
  | none =>
      rcases h.store with hstore | hstore
      · have hstart := (ledger_eq sys pool).2 (h.held rfl)
        rw [hstart, ← hstore]
        exact .refl _ _
      · exact hstore

/-- Every command that runs an operation remembers, unless it is a refresh that
    gets another value for a marked slot. -/
theorem marks_step {command : PoolCommand} {op : PoolOp} {sys : PoolSys ρ}
    (hop : command.op = some op)
    (hsame : ¬ RereadsMoved network pool (Async.eventAt (poolStep network pool) command sys)) :
    let after := (poolStep network pool command sys).2
    Recall op (sys.ledger pool) after.current ∧
      (after.stored pool = sys.stored pool ∨
        Recall op (sys.ledger pool) (after.stored pool)) ∧
      (command = .call op → Recall op (sys.ledger pool) (after.ledger pool)) := by
  intro after
  have hobeys : ∀ op', command.op = some op' → (op'.process pool).Obeys
      (fun past s s' => Write pool op' past s s' ∧
        ((∃ size payerKey, op' = .create size payerKey) → FirstUnmarked past s s'))
      (Stores pool) (fun _ _ _ => True) [] sys.current := by
    intro op' _
    -- Of a create it matters too that what it writes first has no marks.
    by_cases hcreate : ∃ size payerKey, op' = .create size payerKey
    · rcases hcreate with ⟨size, payerKey, rfl⟩
      have hfirst : ((PoolOp.create size payerKey).process pool).Obeys FirstUnmarked
          (fun _ _ _ => True) (fun _ _ _ => True) [] sys.current :=
        obeys_bind (f := pure ∘ PoolResult.status) (obeys_mono (fun _ _ _ h => h)
          (fun _ _ _ h => h) (fun _ _ x _ => by cases x <;> trivial)
          (create_firstUnmarked size payerKey [] sys.current))
      exact obeys_mono (fun _ _ _ h => ⟨h.1, fun _ => h.2⟩) (fun _ _ _ h => h.1)
        (fun _ _ _ _ => trivial) (obeys_and (op_obeys pool _ [] sys.current) hfirst)
    · exact obeys_mono (fun _ _ _ h => ⟨h, fun h' => absurd h' hcreate⟩) (fun _ _ _ h => h)
        (fun _ _ _ _ => trivial) (op_obeys pool op' [] sys.current)
  -- What holds during the operation holds of where it ends.
  rcases @command_obeys ρ network pool command sys _ (fun _ => Stores pool)
    (fun _ _ _ _ => True) (fun r w => (r, w) ∈ requestsOf network pool command sys)
    (Marking network pool command op sys) hobeys
    (fun op' past s s' w hop' h hwrite => by
      cases hop.symm.trans hop'
      exact h.put hop hsame hwrite.1 hwrite.2)
    (fun _ _ _ _ _ _ hT h hr => h.ask hr hT) (fun _ h => h) .start with
    ⟨past, s, hend, hcurrent, hcall⟩
  refine ⟨?_, hend.store, fun hc => ?_⟩
  · rcases hcurrent with hnone | hs
    · rw [hnone]
      exact recall_none _ _
    · rw [hs]
      exact hend.memory
  · have hs : after.current = s := (hcall op hc).1
    have hledger : after.ledger pool = (PoolSys.mk s after.world).ledger pool := by
      rw [PoolSys.ledger, hs]
      rfl
    rw [hledger]
    exact hend.ledger

end Steps

section Runs

/-- The mark of a slot belongs to the value it has: a reconciliation among the
    events released the slot with it, and a payment it is spent on uses it. -/
def Original (pool : PoolConfig) (events : List (PoolEvent ρ)) (slot : PoolSlot) : Prop :=
  ∀ at', slot.releasedAt = some at' → ∃ value, slot.value = some value ∧
    (∃ e ∈ events, Releases pool e ⟨slot.index, value⟩ at') ∧
    ∀ record, slot.state = .spent → slot.spentAgainst = some record → record.value = value

/-- All marks in the two ledgers of a pool are. -/
def Originals (pool : PoolConfig) (events : List (PoolEvent ρ)) (sys : PoolSys ρ) : Prop :=
  ∀ slot, InLedger sys.current slot ∨ InLedger (sys.stored pool) slot →
    Original pool events slot

theorem Original.later {events : List (PoolEvent ρ)} {e : PoolEvent ρ} {slot : PoolSlot}
    (h : Original pool events slot) : Original pool (events ++ [e]) slot := fun at' hat => by
  rcases h at' hat with ⟨value, hvalue, ⟨e', he', hreleases⟩, hrecord⟩
  exact ⟨value, hvalue, ⟨e', List.mem_append_left _ he', hreleases⟩, hrecord⟩

theorem InLedger.current_or_stored {sys : PoolSys ρ} {slot : PoolSlot}
    (h : InLedger (sys.ledger pool) slot) :
    InLedger sys.current slot ∨ InLedger (sys.stored pool) slot := by
  rcases h with ⟨state, hstate, hslot⟩
  rcases Option.or_eq_some_iff.mp hstate with hcurrent | ⟨_, hstored⟩
  · exact .inl ⟨state, hcurrent, hslot⟩
  · exact .inr ⟨state, hstored, hslot⟩

/-- A mark an operation remembers belongs to its value when the operation ends. -/
theorem Original.of_marked {events : List (PoolEvent ρ)} {e : PoolEvent ρ} {op : PoolOp}
    (hop : e.op.op = some op) (h : Originals pool events e.before) {slot : PoolSlot}
    (hmarked : ∀ at', slot.releasedAt = some at' → Marked op (e.before.ledger pool) slot at')
    (hslot : InLedger e.after.current slot ∨ InLedger (e.after.stored pool) slot) :
    Original pool (events ++ [e]) slot := fun at' hat => by
  rcases hmarked at' hat with
    @⟨slot₀, hmem, hindex, _, hmark, hvalue, hrecord⟩ |
    @⟨slot₀, record, hreconcile, hmem, hindex, hspent, hagainst, hunspent, hvalue⟩
  · rcases h slot₀ hmem.current_or_stored at' hmark with ⟨value, hv, ⟨e', he', hreleases⟩, hagainst⟩
    refine ⟨value, hvalue ▸ hv, ⟨e', List.mem_append_left _ he', hindex ▸ hreleases⟩,
      fun record hspent hr => ?_⟩
    rcases hrecord with rfl | hrecord
    · exact hagainst record hspent hr
    · exact Option.some.inj ((hrecord record hr).symm.trans (hvalue.symm.trans hv))
  · refine ⟨record.value, hvalue, ⟨e, List.mem_append_right _ (List.mem_singleton_self e),
      hreconcile ▸ hop, ?_, ?_⟩, fun _ hspent' => by cases hunspent.symm.trans hspent'⟩
    · rcases hmem with ⟨state, hstate, hslot₀⟩
      exact ⟨state, hstate, slot₀, hslot₀, record, hindex, hspent, hagainst, rfl⟩
    · refine hslot.imp (fun h => ?_) fun h => ?_ <;> rcases h with ⟨state, hstate, hslot⟩ <;>
        exact ⟨state, hstate, slot, hslot, rfl, hunspent, hvalue, hat⟩

theorem originals_step {events : List (PoolEvent ρ)} {command : PoolCommand} {sys : PoolSys ρ}
    (h : Originals pool events sys)
    (hsame : ¬ RereadsMoved network pool (Async.eventAt (poolStep network pool) command sys)) :
    Originals pool (events ++ [Async.eventAt (poolStep network pool) command sys])
      (poolStep network pool command sys).2 := by
  have hstored : ∀ slot, InLedger (sys.stored pool) slot →
      Original pool (events ++ [Async.eventAt (poolStep network pool) command sys]) slot :=
    fun slot hslot => (h slot (.inr hslot)).later
  cases hop : command.op with
  | none =>
      cases command with
      | call op => cases hop
      | crash op n => cases hop
      | reopen =>
          rintro slot (⟨_, hstate, _⟩ | hslot)
          · cases hstate
          · exact hstored slot hslot
  -- Memory after it recalls the marks, and so does the store if it was written.
  | some op =>
      rcases marks_step hop hsame with ⟨hcurrent, hstore, _⟩
      rintro slot (hslot | hslot)
      · exact .of_marked hop h (hcurrent.marked slot hslot) (.inl hslot)
      · rcases hstore with hsame' | hstore
        · exact hstored slot (hsame' ▸ hslot)
        · exact .of_marked hop h (hstore.marked slot hslot) (.inr hslot)

/-- In a run, every mark follows the value of its slot. A slot that is unspent and
    marked has the value it was released with, by a reconciliation at the time of
    the mark; and an event that leaves another value for a marked slot leaves no
    mark, unless the ledger it leaves is only what the store had when memory was
    lost. -/
structure MarksFollow (network : Network ρ) (pool : PoolConfig) (sys : PoolSys ρ)
    (commands : List PoolCommand) : Prop where
  origin : let after := final (poolStep network pool) sys commands
    ∀ slot, InLedger after.current slot ∨ InLedger (after.stored pool) slot →
      slot.state = .unspent → ∀ at', slot.releasedAt = some at' → ∃ value,
      slot.value = some value ∧ ∃ e ∈ poolHistory network pool sys commands,
        Releases pool e ⟨slot.index, value⟩ at'
  gone : ∀ e ∈ poolHistory network pool sys commands,
    (∀ op, e.op ≠ .call op) ∧ e.after.ledger pool = e.before.stored pool ∨
    ∀ slot slot', InLedger (e.before.ledger pool) slot → InLedger (e.after.ledger pool) slot' →
      slot'.index = slot.index → slot.releasedAt ≠ none → slot'.value ≠ slot.value →
      slot'.releasedAt = none

/-- An operation that leaves another value for a marked slot leaves no mark. -/
theorem gone_of_recall {events : List (PoolEvent ρ)} {op : PoolOp} {sys : PoolSys ρ}
    {ledger : Option PoolState} (h : Originals pool events sys)
    (hok : ∀ state, sys.ledger pool = some state → WellFormed pool state)
    (hrecall : Recall op (sys.ledger pool) ledger) {slot slot' : PoolSlot}
    (hslot : InLedger (sys.ledger pool) slot) (hslot' : InLedger ledger slot')
    (hindex : slot'.index = slot.index) (hmark : slot.releasedAt ≠ none)
    (hvalue : slot'.value ≠ slot.value) : slot'.releasedAt = none := by
  by_contra hmark'
  rcases Option.ne_none_iff_exists'.mp hmark' with ⟨at', hat⟩
  -- Indices are distinct, so it is this slot that the mark comes from.
  have hsole : ∀ other, InLedger (sys.ledger pool) other → other.index = slot'.index →
      other = slot := fun other hother hsame => by
    rcases hslot with ⟨state, hstate, hslot⟩
    rcases hother with ⟨_, hother, hmem⟩
    cases hstate.symm.trans hother
    exact eq_of_index_eq (hok state hstate).increasing hmem hslot (hsame.trans hindex)
  rcases hrecall.marked slot' hslot' at' hat with
    @⟨other, hmem, hsame, _, _, hkept, _⟩ |
    @⟨other, record, _, hmem, hsame, hspent, hagainst, _, hreleased⟩
  · cases hsole other hmem hsame
    exact hvalue hkept.symm
  · cases hsole other hmem hsame
    rcases Option.ne_none_iff_exists'.mp hmark with ⟨at₀, hat₀⟩
    rcases h _ hslot.current_or_stored at₀ hat₀ with ⟨value, hv, _, hrecord⟩
    rw [hrecord record hspent hagainst] at hreleased
    exact hvalue (hreleased.trans hv.symm)

/-- Every mark follows its value, in a run where no refresh gets another one for a
    marked slot. -/
theorem marks_follow (network : Network ρ) (pool : PoolConfig) (sys : PoolSys ρ)
    (hfresh : sys.Fresh pool) (commands : List PoolCommand)
    (hsame : ∀ e ∈ poolHistory network pool sys commands, ¬ RereadsMoved network pool e) :
    MarksFollow network pool sys commands := by
  have hstart : Originals pool [] sys := by
    rintro slot (⟨_, hstate, _⟩ | ⟨_, hstate, _⟩)
    · cases hfresh.1.symm.trans hstate
    · cases hfresh.2.symm.trans hstate
  have hall := @Async.history_rule _ _ _ (poolStep network pool)
    (fun events sys => Originals pool events sys ∧
      Ledgers pool (LedgerOk pool) (LedgerOk pool) sys)
    (fun _ e => ¬ RereadsMoved network pool e)
    (fun _ _ _ h hsame => ⟨originals_step h.1 hsame,
      command_kept (fun op _ => kept_wellFormed network pool op _) h.2⟩)
    [] sys commands ⟨hstart, ledgers_fresh hfresh⟩
    fun pre e post heq => hsame e (by
      rw [poolHistory, heq]
      exact List.mem_append_right _ List.mem_cons_self)
  refine ⟨fun slot hslot _ at' hat => ?_, fun e he => ?_⟩
  · rcases hall.1.1 slot hslot at' hat with ⟨value, hvalue, hreleased, _⟩
    exact ⟨value, hvalue, hreleased⟩
  rcases List.append_of_mem he with ⟨pre, post, hsplit⟩
  -- Before each event the marks are accounted for, and its step is one of two kinds.
  rcases hall.2 pre e post hsplit with ⟨horiginals, hok⟩
  have hwell : ∀ state, e.before.ledger pool = some state → WellFormed pool state := by
    intro state hstate
    rcases Option.or_eq_some_iff.mp hstate with hcurrent | ⟨_, hstored⟩
    · exact hok.memory state hcurrent state hcurrent
    · exact hok.store state hstored
  have hevent := Async.eventAt_of_mem _ he
  have hmoved := hsame e he
  cases hcommand : e.op with
  | reopen =>
      left
      rw [hcommand] at hevent
      refine ⟨fun _ => nofun, ?_⟩
      rw [hevent]
      rfl
  | crash op n =>
      rw [hevent, hcommand] at hmoved
      rcases @marks_step ρ network pool (.crash op n) op _ rfl hmoved with ⟨_, hstore, _⟩
      have hafter : e.after.ledger pool
          = (poolStep network pool (.crash op n) e.before).2.stored pool := by
        rw [hevent, hcommand]
        rfl
      rw [hafter]
      rcases hstore with hstore | hrecall
      · exact .inl ⟨fun _ => nofun, hstore⟩
      · refine .inr fun slot slot' hslot hslot' => ?_
        exact gone_of_recall horiginals hwell hrecall hslot hslot'
  | call op =>
      rw [hevent, hcommand] at hmoved
      have hrecall := (@marks_step ρ network pool (.call op) op _ rfl hmoved).2.2 rfl
      have hafter : e.after = (poolStep network pool (.call op) e.before).2 := by
        rw [hevent, hcommand]
        rfl
      rw [hafter]
      refine .inr fun slot slot' hslot hslot' => ?_
      exact gone_of_recall horiginals hwell hrecall hslot hslot'

/-- A chain that counts the reads of its accounts, and gives these values. -/
def countingNetwork (values : Nat → Nonce) : Network Nat where
  rpc := fun c reads => match c with
    | .getNonceRentExemption => (.ok 1056640, reads)
    | .getRentExemption _ => (.ok 890880, reads)
    | .getMintAccount _ => (.error testKit.unexpectedSigner, reads)
    | .getNonceAccount _ => (.ok (.initialized testPool.payer (values reads) 1056640), reads + 1)
    | .getBalance _ => (.ok 1000000000, reads)
    | .getSignatureOutcome _ => (.ok .absent, reads)
    | .sendSetup _ _ => (.ok [], reads)
    | .sendPayment _ _ => (.ok [], reads)
  storage := fun reads => (none, reads)
  sign := fun key message reads => (testSignature key.publicKey message, reads)
  clock := fun _ => 0
  randomUUID := fun reads => ("epoch", reads)
  tick := id

/-- The one slot is reserved, and released when its payment was not submitted in
    time. Then the pool is refreshed. -/
def lateRun : List PoolCommand :=
  [.call (.create 1 (testKey 1)), .call (.reserveSlot (testAddress 2) 5 10),
    .call (.reconcile (5 + sendWindowMs)), .call .refresh]

def lateStart : PoolSys Nat := ⟨none, ⟨∅, 0⟩⟩

/-- Its slot once it is released, with this value. -/
def lateSlot (n : UInt8) : PoolSlot where
  index := 0
  address := (testAccount 0 (testNonce 7)).1
  value := some (testNonce n)
  state := .unspent
  spentAgainst := none
  releasedAt := some (5 + sendWindowMs)

theorem marks_follow_lateRun :
    MarksFollow (countingNetwork fun _ => testNonce 7) testPool lateStart lateRun := by
  refine marks_follow _ testPool lateStart ⟨rfl, rfl⟩ lateRun fun e he hmoved => ?_
  rcases hmoved with ⟨hop, state, hstate, _, slot, hslot, _, account, ⟨w, _, haccount⟩, hne⟩
  have hledger : ∀ e ∈ poolHistory (countingNetwork fun _ => testNonce 7) testPool lateStart
      lateRun, e.op.op = some .refresh →
      (e.before.ledger testPool).map PoolState.slots = some [lateSlot 7] := by decide +kernel
  have hslots := hledger e he hop
  rw [hstate] at hslots
  rw [Option.some.inj hslots, List.mem_singleton] at hslot
  cases haccount
  rw [hslot] at hne
  exact hne rfl

/-- The merchant submits late, and the value moves. The refresh writes the new one
    and leaves the mark of the old. -/
theorem mark_left_behind :
    ¬ MarksFollow (countingNetwork fun reads => testNonce (if reads < 2 then 7 else 8)) testPool
      lateStart lateRun := by
  intro h
  have hreleased : ∀ e ∈ poolHistory
      (countingNetwork fun reads => testNonce (if reads < 2 then 7 else 8)) testPool lateStart
      lateRun, e.op.op = some (.reconcile (5 + sendWindowMs)) →
      e.after.current.map PoolState.slots = some [lateSlot 7] ∧
      (e.after.stored testPool).map PoolState.slots = some [lateSlot 7] := by decide +kernel
  have hend : ((final (poolStep
      (countingNetwork fun reads => testNonce (if reads < 2 then 7 else 8)) testPool) lateStart
      lateRun).current).map PoolState.slots = some [lateSlot 8] := by
    decide +kernel
  rcases Option.map_eq_some_iff.mp hend with ⟨state, hstate, hslots⟩
  -- The mark would have to come from a reconciliation that released this value.
  rcases h.origin (lateSlot 8) (.inl ⟨state, hstate, hslots ▸ List.mem_singleton_self _⟩) rfl
    (5 + sendWindowMs) rfl with ⟨value, hvalue, e, he, hreleases⟩
  cases hvalue
  rcases hreleased e he hreleases.reconcile with ⟨hcurrent, hstored⟩
  rcases hreleases.after with hin | hin
  · rcases hin with ⟨state', hstate', slot, hslot, _, _, hvalue, _⟩
    rw [hstate'] at hcurrent
    rw [Option.some.inj hcurrent, List.mem_singleton] at hslot
    rw [hslot] at hvalue
    exact absurd hvalue (by decide)
  · rcases hin with ⟨state', hstate', slot, hslot, _, _, hvalue, _⟩
    rw [hstate'] at hstored
    rw [Option.some.inj hstored, List.mem_singleton] at hslot
    rw [hslot] at hvalue
    exact absurd hvalue (by decide)

end Runs

end Vadum
