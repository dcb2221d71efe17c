import Vadum.Theory.Funding
import Vadum.Theory.Reopening

/-!
# Operations that Are Rejected

An operation works out its new ledger aside, and writes it once there is nothing
left to ask of the network. So whichever request fails, nothing has been written,
and the ledger is as it was. An operation that found none in memory has still
read the one in the store by then, and leaves it there. `create` writes twice:
if it cannot read its new accounts, it leaves the new ledger without their values.

## Main definitions

* `Passes`: A run whose store writes succeed.
* `Steady`: A process that leaves memory and store as they are.
* `Leaves`, `Atomic`: What a process leaves if it is rejected.
* `Undone`, `Unread`: What a rejected operation leaves.

## Theorems

* `Steady.leaves_bind`: Nothing is written before the last step.
* `undone_loaded`: The ledger is read first.
* `rejected_create`: What `create` leaves.
* `rejected_undone`: What any operation leaves.
-/

namespace Vadum

open Async.Process

variable {ρ : Type} {network : Network ρ} {pool : PoolConfig} {α β : Type}

section Atomic

/-- No store write of a run fails. -/
def Passes (network : Network ρ) (p : PoolM α) (s : Option PoolState) (w : World ρ) : Prop :=
  ∀ k v w', (Req.storeSet k v, w') ∈ requests (reply network) p s w →
    (network.storage w'.net).1 = none

/-- A process that leaves the ledger in memory and the store as they are. -/
def Steady (network : Network ρ) (p : PoolM α) : Prop :=
  ∀ s w, ∃ x w', w'.store = w.store ∧ run (reply network) p s w = ⟨x, s, w'⟩

/-- The state of a pool after a process. -/
def endOf (network : Network ρ) (p : PoolM α) (s : Option PoolState) (w : World ρ) : PoolSys ρ :=
  ⟨(run (reply network) p s w).vars, (run (reply network) p s w).world⟩

/-- A process that does so if it is rejected, or else leaves what `P` says, if its
    writes succeed. -/
def Leaves (network : Network ρ) (P : Option PoolState → Store → Thrown → PoolSys ρ → Prop)
    (p : PoolM α) : Prop :=
  ∀ s w, Passes network p s w → ∀ e, (run (reply network) p s w).result = .error e →
    ((endOf network p s w).current = s ∧ (endOf network p s w).world.store = w.store) ∨
      P s w.store e (endOf network p s w)

/-- A process that, if it is rejected, leaves everything as it is. -/
def Atomic (network : Network ρ) (p : PoolM α) : Prop := Leaves network (fun _ _ _ _ => False) p

variable {P : Option PoolState → Store → Thrown → PoolSys ρ → Prop}

theorem Passes.bind {p : PoolM α} {f : α → PoolM β} {s s' : Option PoolState} {w w' : World ρ}
    {a : α} (h : Passes network (p >>= f) s w)
    (hrun : run (reply network) p s w = ⟨.ok a, s', w'⟩) : Passes network (f a) s' w' := by
  intro k v w'' hmem
  refine h k v w'' ?_
  rw [requests_bind, hrun]
  exact List.mem_append_right _ hmem

theorem Passes.first {p : PoolM α} {f : α → PoolM β} {s : Option PoolState} {w : World ρ}
    (h : Passes network (p >>= f) s w) : Passes network p s w := by
  intro k v w' hmem
  refine h k v w' ?_
  rw [requests_bind]
  exact List.mem_append_left _ hmem

/-- What touches no variables and writes nothing to the store is steady. -/
theorem steady_of_stateless {p : PoolM α} (hp : Stateless Req.Unstoring p) :
    Steady network p := by
  intro s w
  have hkept : ∀ r w', Req.Unstoring r → w'.store = w.store →
      (reply network r w').2.store = w.store := by
    intro r w' hr hw'
    rcases reply_store network r w' with ⟨hsame, _⟩ | ⟨k, v, rfl, _⟩
    · exact hsame.trans hw'
    · exact absurd rfl (hr k v)
  rcases run_stateless (J := fun w' : World ρ => w'.store = w.store) (reply network) hkept hp rfl
    with ⟨x, w', hw', hrun⟩
  exact ⟨x, w', hw', hrun s⟩

theorem Steady.leaves {p : PoolM α} (hp : Steady network p) : Leaves network P p := by
  intro s w _ e _
  rcases hp s w with ⟨x, w', hstore, hrun⟩
  rw [endOf, hrun]
  exact .inl ⟨rfl, hstore⟩

/-- Nothing is written by what comes first. -/
theorem Steady.leaves_bind {p : PoolM α} {f : α → PoolM β} (hp : Steady network p)
    (hf : ∀ a, Leaves network P (f a)) : Leaves network P (p >>= f) := by
  intro s w hpasses e he
  rcases hp s w with ⟨e' | a, w', hstore, hrun⟩
  · rw [endOf, run_bind_error _ hrun]
    exact .inl ⟨rfl, hstore⟩
  · have hrest := hf a s w' (hpasses.bind hrun)
    rw [endOf, run_bind_ok _ hrun, ← hstore]
    rw [run_bind_ok _ hrun] at he
    exact hrest e he

theorem leaves_stateless {p : PoolM α} (hp : Stateless Req.Unstoring p) : Leaves network P p :=
  (steady_of_stateless hp).leaves

theorem leaves_throw (e : Thrown) : Leaves network P (throw e : PoolM α) :=
  leaves_stateless (stateless_throw e)

theorem steady_request {r : Req} (h : r.Unstoring) :
    Steady network (request (I := client) r : PoolM r.Ans) :=
  steady_of_stateless (stateless_request (I := client) h)

theorem leaves_bind_rpc (c : Call) {f : c.Answer → PoolM β} (hf : ∀ a, Leaves network P (f a)) :
    Leaves network P (rpc c >>= f) :=
  (steady_request (r := .rpc c) fun _ _ => Req.noConfusion).leaves_bind hf

/-- A write that succeeds resolves. -/
theorem run_persist_passes {state : PoolState} {s : Option PoolState} {w : World ρ}
    (h : Passes network (Pool.persist pool state) s w) :
    ∃ net, run (reply network) (Pool.persist pool state) s w
      = ⟨.ok (statusOf state), some state, ⟨w.store.insert (.pool pool.payer) state, net⟩⟩ := by
  have hmem : (Req.storeSet (.pool pool.payer) state, w)
      ∈ requests (reply network) (Pool.persist pool state) s w := List.mem_cons_self
  have hworks := h _ _ _ hmem
  rw [run_persist]
  rcases hstorage : network.storage w.net with ⟨_ | e, net⟩
  · exact ⟨net, rfl⟩
  · rw [hstorage] at hworks
    cases hworks

/-- A write at the end does not reject. -/
theorem leaves_persist (state : PoolState) : Leaves network P (Pool.persist pool state) := by
  intro s w hpasses e he
  rcases run_persist_passes hpasses with ⟨net, hrun⟩
  rw [hrun] at he
  cases he

theorem leaves_persist_pure (state : PoolState) (b : β) :
    Leaves network P (Pool.persist pool state >>= fun _ => pure b) := by
  intro s w hpasses e he
  rcases run_persist_passes hpasses.first with ⟨net, hrun⟩
  rw [run_bind_ok _ hrun] at he
  cases he

end Atomic

section Operations

/-- The store is as it was, and so is the ledger in memory, unless there was none
    and it has been read. -/
def Undone (pool : PoolConfig) (sys sys' : PoolSys ρ) : Prop :=
  sys'.world.store = sys.world.store ∧
    (sys'.current = sys.current ∨ sys.current = none ∧ sys'.current = sys.stored pool)

theorem Atomic.undone {p : PoolM α} (hp : Atomic network p) {s : Option PoolState} {w : World ρ}
    (hpasses : Passes network p s w) {e : Thrown}
    (he : (run (reply network) p s w).result = .error e) :
    Undone pool ⟨s, w⟩ (endOf network p s w) := by
  rcases hp s w hpasses e he with ⟨hcurrent, hstore⟩ | hno
  · exact ⟨hstore, .inl hcurrent⟩
  · exact hno.elim

/-- The ledger is read first, and what follows leaves it as it is. -/
theorem undone_loaded {f : PoolState → PoolM β} (hf : ∀ state, Atomic network (f state))
    {s : Option PoolState} {w : World ρ}
    (hpasses : Passes network (awaited (Pool.loaded pool) >>= f) s w) {e : Thrown}
    (he : (run (reply network) (awaited (Pool.loaded pool) >>= f) s w).result = .error e) :
    Undone pool ⟨s, w⟩ (endOf network (awaited (Pool.loaded pool) >>= f) s w) := by
  rcases loaded_cases network pool s w with ⟨state, net, hfinds⟩ | ⟨rfl, e', net, hrun⟩
  · have hload := run_awaited_loaded hfinds
    rw [run_bind_ok _ hload] at he
    rcases hf state _ _ (hpasses.bind hload) e he with ⟨hcurrent, hstore⟩ | hno
    · rw [endOf, run_bind_ok _ hload]
      refine ⟨hstore, ?_⟩
      rcases hfinds with ⟨rfl, _⟩ | ⟨rfl, hstored, _⟩
      · exact .inl hcurrent
      · exact .inr ⟨rfl, hcurrent.trans hstored.symm⟩
    · exact hno.elim
  · rw [endOf, run_bind_error _ hrun]
    exact ⟨rfl, .inl rfl⟩

/-- So does reading the spend log. -/
theorem priorSpendLog_cases (s : Option PoolState) (w : World ρ) :
    ∃ x w', w'.store = w.store ∧
      run (reply network) (awaited (Pool.priorSpendLog pool)) s w = ⟨x, s, w'⟩ ∧
      ∀ log, x = .ok log →
        log = ((s.or (w.store.lookup (.pool pool.payer))).bind PoolState.spendLog).getD [] := by
  rcases @currentOrStored_cases _ network pool s w with ⟨e | state, w', hstore, hrun, hstate⟩
  · refine ⟨.error e, w', hstore, ?_, fun log hlog => (by cases hlog)⟩
    exact run_bind_error _ (run_bind_error _ hrun)
  · cases hstate state rfl
    refine ⟨.ok _, ⟨w'.store, network.tick w'.net⟩, hstore, ?_,
      fun log hlog => (by cases hlog; rfl)⟩
    exact run_bind_ok _ ((run_bind_ok _ hrun).trans (run_pure _ _ _ _))

theorem steady_currentOrStored : Steady network (Pool.currentOrStored pool) := by
  intro s w
  rcases currentOrStored_cases s w with ⟨x, w', hstore, hrun, _⟩
  exact ⟨x, w', hstore, hrun⟩

theorem steady_priorSpendLog : Steady network (awaited (Pool.priorSpendLog pool)) := by
  intro s w
  rcases priorSpendLog_cases s w with ⟨x, w', hstore, hrun, _⟩
  exact ⟨x, w', hstore, hrun⟩

/-- Where the ledger is written to only at the end. -/
theorem atomic_recover (maxProbe : Nat) : Atomic network (Pool.recover pool maxProbe) := by
  refine (steady_of_stateless (stateless_probe unstoring_account _)).leaves_bind fun slots => ?_
  split
  · exact leaves_throw _
  refine (@steady_request _ network .randomUUID fun _ _ => Req.noConfusion).leaves_bind fun _ => ?_
  exact steady_priorSpendLog.leaves_bind fun _ => leaves_persist _

theorem atomic_reread (state : PoolState) : Atomic network (do
    let slots ← Pool.refreshSlots state.slots
    Pool.persist pool { state with slots }) :=
  (steady_of_stateless (stateless_refreshSlots unstoring_account _)).leaves_bind
    fun _ => leaves_persist _

theorem undone_refresh {s : Option PoolState} {w : World ρ}
    (hpasses : Passes network (Pool.refresh pool) s w) {e : Thrown}
    (he : (run (reply network) (Pool.refresh pool) s w).result = .error e) :
    Undone pool ⟨s, w⟩ (endOf network (Pool.refresh pool) s w) :=
  undone_loaded atomic_reread hpasses he

theorem undone_applyNonceReturn (payload : NonceReturnPayload) {s : Option PoolState}
    {w : World ρ} (hpasses : Passes network (Pool.applyNonceReturn pool payload) s w) {e : Thrown}
    (he : (run (reply network) (Pool.applyNonceReturn pool payload) s w).result = .error e) :
    Undone pool ⟨s, w⟩ (endOf network (Pool.applyNonceReturn pool payload) s w) := by
  refine undone_loaded (fun state => ?_) hpasses he
  dsimp only
  split
  · refine (steady_of_stateless (stateless_ofResult _)).leaves_bind fun _ => ?_
    exact (@steady_request _ network .tick fun _ _ => Req.noConfusion).leaves_bind fun _ =>
      leaves_persist _
  · exact leaves_throw _

theorem undone_close (key : CryptoKeyPair) {s : Option PoolState} {w : World ρ}
    (hpasses : Passes network (Pool.close pool key) s w) {e : Thrown}
    (he : (run (reply network) (Pool.close pool key) s w).result = .error e) :
    Undone pool ⟨s, w⟩ (endOf network (Pool.close pool key) s w) := by
  refine undone_loaded (fun state => ?_) hpasses he
  refine (steady_of_stateless (stateless_assertPayerKey key)).leaves_bind fun _ => ?_
  refine leaves_bind_rpc (.getBalance pool.payer) fun balance =>
    leaves_bind_rpc (.getRentExemption 0) fun minimum => ?_
  split
  · exact leaves_throw _
  refine (steady_of_stateless (stateless_withdrawals unstoring_account _)).leaves_bind fun x => ?_
  dsimp only
  split
  · exact leaves_bind_rpc (.sendSetup x.1 key) fun _ => leaves_persist_pure _ _
  · exact leaves_persist_pure _ _

theorem undone_reconcile (now : Int) {s : Option PoolState} {w : World ρ}
    (hpasses : Passes network (Pool.reconcile pool now) s w) {e : Thrown}
    (he : (run (reply network) (Pool.reconcile pool now) s w).result = .error e) :
    Undone pool ⟨s, w⟩ (endOf network (Pool.reconcile pool now) s w) := by
  refine undone_loaded (fun state => ?_) hpasses he
  have hslots := @stateless_reconcileSlots _ pool unstoring_account now state ⟨[], [], []⟩
    state.slots
  refine (steady_of_stateless hslots).leaves_bind fun x => ?_
  exact leaves_persist_pure _ _

end Operations

section Creating

/-- A ledger `create` has made, before its values are read. -/
structure NewPool (pool : PoolConfig) (size : Int) (prior : Option PoolState)
    (state : PoolState) : Prop where
  payer : state.payer = pool.payer
  sized : state.size = size
  indices : state.slots.map PoolSlot.index = List.range size.toNat
  slots : ∀ slot ∈ state.slots, slot.state = .unspent ∧ slot.value = none ∧
    slot.spentAgainst = none ∧ slot.releasedAt = none ∧
    deriveNonceAddress pool.kit pool.payer slot.index = .ok slot.address
  spendLog : state.spendLog = some ((prior.bind PoolState.spendLog).getD [])

/-- The network refused to read an account. -/
def Unreadable (network : Network ρ) (e : Thrown) : Prop :=
  ∃ address n, (network.rpc (.getNonceAccount address) n).1 = .error e

/-- Reading slots again fails only where an account cannot be read. -/
theorem unreadable_of_refreshSlots {slots : List PoolSlot} {s : Option PoolState} {w : World ρ}
    {e : Thrown} (he : (run (reply network) (Pool.refreshSlots slots) s w).result = .error e) :
    Unreadable network e := by
  induction slots generalizing s w with
  | nil => cases he
  | cons slot slots ih =>
      rw [Pool.refreshSlots, run_bind] at he
      cases hread : (run (reply network) (Pool.readValue slot) s w).result with
      -- The read of this slot failed, so its account could not be read.
      | error e' =>
          rw [hread] at he
          cases he
          rw [Pool.readValue, getNonceAccount, rpc, run_bind, run_request (I := client)] at hread
          cases haccount : (reply network (.rpc (.getNonceAccount slot.address)) w).1 with
          | error e' =>
              rw [haccount] at hread
              cases hread
              exact ⟨slot.address, w.net, haccount⟩
          | ok account =>
              rw [haccount] at hread
              cases account <;> cases hread
      | ok read =>
          rw [hread] at he
          dsimp only at he
          rw [run_bind] at he
          cases hrest : (run (reply network) (Pool.refreshSlots slots)
              (run (reply network) (Pool.readValue slot) s w).vars
              (run (reply network) (Pool.readValue slot) s w).world).result with
          | error e' =>
              rw [hrest] at he
              cases he
              exact ih hrest
          | ok rest =>
              rw [hrest] at he
              cases he

/-- A ledger in memory whose accounts cannot be read stays as it is. -/
theorem rejected_refresh {state : PoolState} {w : World ρ}
    (hpasses : Passes network (Pool.refresh pool) (some state) w) {e : Thrown}
    (he : (run (reply network) (Pool.refresh pool) (some state) w).result = .error e) :
    Unreadable network e ∧
      (run (reply network) (Pool.refresh pool) (some state) w).vars = some state ∧
      (run (reply network) (Pool.refresh pool) (some state) w).world.store = w.store := by
  have hload := @run_awaited_loaded _ network pool (some state) w state w.net (.inl ⟨rfl, rfl⟩)
  have hsteady : Steady network (Pool.refreshSlots state.slots) :=
    steady_of_stateless (stateless_refreshSlots unstoring_account state.slots)
  rw [Pool.refresh, run_bind_ok _ hload] at he ⊢
  rcases hsteady (some state) ⟨w.store, network.tick w.net⟩ with ⟨e' | slots, w', hstore, hread⟩
  · rw [run_bind_error _ hread] at he ⊢
    cases he
    exact ⟨unreadable_of_refreshSlots (congrArg Async.Outcome.result hread), rfl, hstore⟩
  · rcases run_persist_passes ((hpasses.bind hload).bind hread) with ⟨net, hwrite⟩
    rw [run_bind_ok _ hread, hwrite] at he
    cases he

/-- The slots of a new pool are unspent, and their values are not known. -/
theorem newPool_setupSlots {perSlot : Int} {size : Int} (hsize : 1 ≤ size)
    {instructions : List SetupInstruction} {slots : List PoolSlot}
    (h : Pool.setupSlots pool perSlot (List.range size.toNat) = .ok (instructions, slots))
    (prior : Option PoolState) (epoch : String) :
    NewPool pool size prior ⟨pool.payer, size.toNat, epoch, slots,
      some ((prior.bind PoolState.spendLog).getD [])⟩ where
  payer := rfl
  sized := Int.toNat_of_nonneg (by omega)
  indices := (setupSlots_index h).1
  slots slot hslot := by
    rcases setupSlots_ok h hslot with ⟨hderived, hvalue, hstate, hreleased, _⟩
    exact ⟨hstate, hvalue, (setupSlots_index h).2 slot hslot, hreleased, hderived⟩
  spendLog := rfl

/-- What `create` leaves if it cannot read its new accounts. -/
def Unread (network : Network ρ) (pool : PoolConfig) (size : Int) (s : Option PoolState)
    (store : Store) (e : Thrown) (sys' : PoolSys ρ) : Prop :=
  Unreadable network e ∧ ∃ state,
    NewPool pool size (s.or (store.lookup (.pool pool.payer))) state ∧
      sys'.current = some state ∧ sys'.world.store = store.insert (.pool pool.payer) state

/-- Once the balance is enough, a rejection leaves everything as it was, or else
    the new ledger unread. -/
theorem leaves_sendAndRecord {size : Int} (hsize : 1 ≤ size) (perSlot : Int)
    (key : CryptoKeyPair) :
    Leaves network (Unread network pool size) (sendAndRecord pool size perSlot key) := by
  unfold sendAndRecord
  rcases hsetup : Pool.setupSlots pool perSlot (List.range size.toNat) with
    e | ⟨instructions, slots⟩
  · exact leaves_throw e
  refine leaves_bind_rpc (.sendSetup instructions key) fun _ => ?_
  refine (steady_request (r := .randomUUID) fun _ _ => Req.noConfusion).leaves_bind fun epoch => ?_
  intro s w hpasses e he
  -- The setup was sent. What follows can only fail in reading again.
  rcases @priorSpendLog_cases _ network pool s w with ⟨e' | log, w', hstore, hrun, hlog⟩
  · rw [endOf, run_bind_error _ hrun]
    exact .inl ⟨rfl, hstore⟩
  rcases hlog log rfl with rfl
  have hpasses := hpasses.bind hrun
  rw [run_bind_ok _ hrun] at he
  rw [endOf, run_bind_ok _ hrun]
  -- The new pool is written before its accounts are read.
  rcases run_persist_passes hpasses.first with ⟨net, hwrite⟩
  have hrest := hpasses.bind hwrite
  rw [run_bind_ok _ hwrite] at he ⊢
  rcases rejected_refresh hrest he with ⟨hunreadable, hcurrent, hstored⟩
  refine .inr ⟨hunreadable, _, newPool_setupSlots hsize hsetup _ epoch, hcurrent, ?_⟩
  exact hstored.trans (congrArg (AList.insert (.pool pool.payer) _) hstore)

/-- A rejected `create` has written nothing, or it has sent its setup and cannot
    read the new accounts. -/
theorem rejected_create {size : Int} {key : CryptoKeyPair} {s : Option PoolState} {w : World ρ}
    (hpasses : Passes network (Pool.create pool size key) s w) {e : Thrown}
    (he : (run (reply network) (Pool.create pool size key) s w).result = .error e) :
    ((endOf network (Pool.create pool size key) s w).current = s ∧
      (endOf network (Pool.create pool size key) s w).world.store = w.store) ∨
    Unread network pool size s w.store e (endOf network (Pool.create pool size key) s w) ∧
      ∃ instructions, sentSetups (requests (reply network) (Pool.create pool size key) s w)
        = [instructions] := by
  by_cases hsize : 1 ≤ size ∧ size ≤ 256
  · by_cases hkey : key.publicKey = pool.payer
    · have hbalance : Steady network (getBalance pool.payer : PoolM Int) :=
        steady_request (r := .rpc (.getBalance pool.payer)) fun _ _ => Req.noConfusion
      rw [create_eq hsize hkey] at hpasses he ⊢
      have hestimate := @stateless_estimateSetupCost _ (unstoring_rpc _) (unstoring_rpc _) size
      -- Until the balance is known nothing has been sent or written.
      rcases steady_of_stateless hestimate s w with ⟨e' | cost, w₁, hstore₁, hcost⟩
      · rw [endOf, run_bind_error _ hcost]
        exact .inl ⟨rfl, hstore₁⟩
      have hpasses := hpasses.bind hcost
      rw [run_bind_ok _ hcost] at he
      rw [endOf, run_bind_ok _ hcost, sentSetups_bind_ok (sendless_estimateSetupCost size) hcost,
        ← hstore₁]
      rcases hbalance s w₁ with ⟨e' | balance, w₂, hstore₂, hread⟩
      · rw [run_bind_error _ hread]
        exact .inl ⟨rfl, hstore₂⟩
      have hpasses := hpasses.bind hread
      rw [run_bind_ok _ hread] at he
      rw [run_bind_ok _ hread, sentSetups_bind_ok (sendless_getBalance _) hread, ← hstore₂]
      by_cases hlittle : tooLittle balance cost
      · rw [if_pos hlittle]
        exact .inl ⟨rfl, rfl⟩
      · rw [if_neg hlittle] at hpasses he ⊢
        rcases @sentSetups_sendAndRecord _ network pool _ hsize (cost.nonceRent.tdiv size) key s w₂
          with ⟨instructions, _, hsent⟩
        exact (leaves_sendAndRecord hsize.1 _ key s w₂ hpasses e he).imp_right fun hunread =>
          ⟨hunread, instructions, hsent⟩
    · have hrefused : Leaves network (fun _ _ _ _ => False) (Pool.create pool size key) := by
        rw [Pool.create, if_neg (by omega), Pool.assertPayerKey, if_pos hkey]
        exact leaves_throw _
      exact .inl ((hrefused s w hpasses e he).resolve_right id)
  · have hrefused : Leaves network (fun _ _ _ _ => False) (Pool.create pool size key) := by
      rw [Pool.create, if_pos (by omega)]
      exact leaves_throw _
    exact .inl ((hrefused s w hpasses e he).resolve_right id)

theorem undone_reserveSlot (merchant : Address) (now amount : Int) {s : Option PoolState}
    {w : World ρ} (hpasses : Passes network (Pool.reserveSlot pool merchant now amount) s w)
    {e : Thrown}
    (he : (run (reply network) (Pool.reserveSlot pool merchant now amount) s w).result
      = .error e) :
    Undone pool ⟨s, w⟩ (endOf network (Pool.reserveSlot pool merchant now amount) s w) := by
  refine undone_loaded (fun state => ?_) hpasses he
  dsimp only
  split
  · exact leaves_throw _
  split
  · exact leaves_throw _
  split
  · exact leaves_persist_pure _ _
  · exact leaves_throw _

end Creating

section Run

/-- What becomes of a result changes nothing else. -/
theorem rejected_map {p : PoolM α} (f : α → β) {s : Option PoolState} {w : World ρ}
    (hpasses : Passes network (f <$> p) s w) {e : Thrown}
    (he : (run (reply network) (f <$> p) s w).result = .error e) :
    Passes network p s w ∧ (run (reply network) p s w).result = .error e ∧
      endOf network (f <$> p) s w = endOf network p s w := by
  have hend : endOf network (f <$> p) s w = endOf network p s w := by
    rw [endOf, run_map]
    rfl
  refine ⟨fun k v w' hmem => hpasses k v w' (by rwa [requests_map]), ?_, hend⟩
  rw [run_map] at he
  cases hresult : (run (reply network) p s w).result with
  | error e' =>
      rw [hresult] at he
      exact congrArg Except.error (Except.error.inj he)
  | ok a =>
      rw [hresult] at he
      cases he

/-- So does being undone. -/
theorem undone_map {p : PoolM α} (f : α → β) {s : Option PoolState} {w : World ρ}
    (hundone : Passes network p s w → ∀ {e : Thrown}, (run (reply network) p s w).result
      = .error e → Undone pool ⟨s, w⟩ (endOf network p s w))
    (hpasses : Passes network (f <$> p) s w) {e : Thrown}
    (he : (run (reply network) (f <$> p) s w).result = .error e) :
    Undone pool ⟨s, w⟩ (endOf network (f <$> p) s w) := by
  rcases rejected_map f hpasses he with ⟨hpasses, he, hend⟩
  rw [hend]
  exact hundone hpasses he

/-- What a rejected operation leaves. The store is as it was, and so is the ledger
    in memory unless there was none; or it is a `create` that has sent its setup
    and cannot read the new accounts. -/
theorem rejected_undone (network : Network ρ) (pool : PoolConfig) (sys : PoolSys ρ) (op : PoolOp)
    (hwrites : WritesSucceed network pool (Async.eventAt (poolStep network pool) (.call op) sys))
    (e : Thrown)
    (he : (Async.eventAt (poolStep network pool) (.call op) sys).result = some (.error e)) :
    Undone pool sys (Async.eventAt (poolStep network pool) (.call op) sys).after ∨
    ∃ size key, op = .create size key ∧
      (∃ instructions, sentSetups (requestsOf network pool (.call op) sys) = [instructions]) ∧
      Unread network pool size sys.current sys.world.store e
        (Async.eventAt (poolStep network pool) (.call op) sys).after := by
  -- The event is the run of the operation's code.
  have hpasses : Passes network (op.process pool) sys.current sys.world := hwrites
  have he : (run (reply network) (op.process pool) sys.current sys.world).result = .error e :=
    Option.some.inj he
  have hafter : (Async.eventAt (poolStep network pool) (.call op) sys).after
      = endOf network (op.process pool) sys.current sys.world := rfl
  rw [hafter]
  cases op with
  | create size key =>
      rcases rejected_map _ hpasses he with ⟨hpasses, he, hend⟩
      rw [PoolOp.process, hend]
      rcases rejected_create hpasses he with ⟨hcurrent, hstore⟩ | ⟨hunread, instructions, hsent⟩
      · exact .inl ⟨hstore, .inl hcurrent⟩
      · refine .inr ⟨size, key, rfl, ⟨instructions, ?_⟩, hunread⟩
        rw [requestsOf, PoolOp.process, requests_map, hsent]
  | reserveSlot merchant now amount =>
      exact .inl (undone_map _ (undone_reserveSlot merchant now amount) hpasses he)
  | allowance now =>
      have hread : Atomic network (Pool.allowance pool now) :=
        steady_currentOrStored.leaves_bind fun _ => leaves_stateless (stateless_pure _)
      exact .inl (undone_map _ hread.undone hpasses he)
  | applyNonceReturn payload =>
      exact .inl (undone_map _ (undone_applyNonceReturn payload) hpasses he)
  | refresh => exact .inl (undone_map _ undone_refresh hpasses he)
  | recover maxProbe => exact .inl (undone_map _ (atomic_recover maxProbe).undone hpasses he)
  | close key => exact .inl (undone_map _ (undone_close key) hpasses he)
  | reconcile now => exact .inl (undone_map _ (undone_reconcile now) hpasses he)
  | load =>
      exact .inl (undone_map _ (undone_loaded fun _ => leaves_stateless (stateless_pure _))
        hpasses he)

/-- A network that cannot be asked for an account. -/
def unreadableError : Thrown := .error "SolanaError" "the account cannot be read" none

def unreadableNetwork : Network FakeRpc :=
  { fakeNetwork with
    rpc := fun c rpc => match c with
      | .getNonceAccount _ => (.error unreadableError, rpc)
      | c => FakeRpc.answer c rpc }

theorem unreadableNetwork_storageWorks : StorageWorks unreadableNetwork := fun _ => rfl

def unreadableStart : PoolSys FakeRpc := ⟨none, ⟨∅, { balance := 1000000000 }⟩⟩

/-- `create` leaves its new ledger unread. -/
theorem rejected_undone_create :
    Unread unreadableNetwork testPool 1 none ∅ unreadableError
      (Async.eventAt (poolStep unreadableNetwork testPool) (.call (.create 1 (testKey 1)))
        unreadableStart).after := by
  rcases rejected_undone unreadableNetwork testPool unreadableStart (.create 1 (testKey 1))
    (writesSucceed_of_works unreadableNetwork_storageWorks testPool _) unreadableError
    (by decide +kernel) with hundone | ⟨size, key, hop, _, hunread⟩
  · have hcurrent := hundone.2
    exact absurd hcurrent (by decide +kernel)
  · cases hop
    exact hunread

/-- The pool after it, opened again. -/
def unreadSys : PoolSys FakeRpc :=
  Async.final (poolStep unreadableNetwork testPool) unreadableStart
    [.call (.create 1 (testKey 1)), .reopen]

/-- A rejected `refresh` that found no ledger in memory leaves one there. -/
theorem rejected_leaves_ledger :
    unreadableStart.Fresh testPool ∧
      WritesSucceed unreadableNetwork testPool
        (Async.eventAt (poolStep unreadableNetwork testPool) (.call .refresh) unreadSys) ∧
      (Async.eventAt (poolStep unreadableNetwork testPool) (.call .refresh) unreadSys).result
        = some (.error unreadableError) ∧
      unreadSys.current = none ∧
      (Async.eventAt (poolStep unreadableNetwork testPool) (.call .refresh) unreadSys).after.current
        ≠ none :=
  ⟨⟨rfl, rfl⟩, writesSucceed_of_works unreadableNetwork_storageWorks testPool _,
    by decide +kernel, rfl, by decide +kernel⟩

end Run

end Vadum
