import Vadum.Theory.Funding

/-!
# Recovering the Deposit

A device that lost its ledger finds its accounts again, and gets back what they
hold. `recover` probes the derived addresses and lists those that are
initialised with the payer as their authority; `close` reads the listed accounts
and withdraws from each that holds lamports. While nobody submits a transaction
the two loops see the same chain, so what is listed is what is emptied.

## Main definitions

* `Unchanged`: A chain that stays as it is while nothing is submitted.
* `Controlled`: An account of the payer's at some index.
* `Lists`: The slots of exactly the accounts of the payer's.
* `withdrawalsOf`, `depositOf`: What is withdrawn from some slots.

## Theorems

* `run_probe`: Probing lists the accounts of the payer's.
* `run_withdrawals`: Withdrawing reads every listed account.
* `recovery_returns_deposit`: What is recovered is what is returned.
-/

namespace Vadum

open Async.Process

variable {ρ : Type} {network : Network ρ} {pool : PoolConfig}
  {chain : Address → NonceAccountState} {still : ρ → Prop}

section Listing

/-- The lamports an account holds, as far as its owner can withdraw them. -/
def NonceAccountState.lamports : NonceAccountState → Int
  | .initialized _ _ lamports => lamports
  | _ => 0

/-- While nothing is submitted the accounts stay as they are. -/
structure Unchanged (network : Network ρ) (chain : Address → NonceAccountState)
    (still : ρ → Prop) : Prop where
  account : ∀ n address, still n →
    (network.rpc (.getNonceAccount address) n).1 = .ok (chain address)
  kept : ∀ r w, Req.SendsNothing r → still w.net → still (reply network r w).2.net

/-- The account of an index is initialised with the payer as its authority. -/
def Controlled (pool : PoolConfig) (chain : Address → NonceAccountState) (index : Nat)
    (address : Address) (value : Nonce) : Prop :=
  deriveNonceAddress pool.kit pool.payer index = .ok address ∧
    ∃ lamports, chain address = .initialized pool.payer value lamports

/-- The slot of a recovered account. Nobody knows whether its value was signed
    against. -/
def unknownSlot (index : Nat) (address : Address) (value : Nonce) : PoolSlot where
  index
  address
  value := some value
  state := .unknown
  spentAgainst := none
  releasedAt := none

/-- The slots of exactly the payer's accounts below an index, in order. -/
structure Lists (pool : PoolConfig) (chain : Address → NonceAccountState) (maxProbe : Nat)
    (slots : List PoolSlot) : Prop where
  increasing : slots.Pairwise fun a b => a.index < b.index
  mem_iff : ∀ slot, slot ∈ slots ↔ slot.index < maxProbe ∧
    ∃ address value, Controlled pool chain slot.index address value ∧
      slot = unknownSlot slot.index address value

/-- The slot of an index, if its account is the payer's. -/
def recoveredSlot (pool : PoolConfig) (chain : Address → NonceAccountState) (index : Nat) :
    Option PoolSlot :=
  match deriveNonceAddress pool.kit pool.payer index with
  | .error _ => none
  | .ok address =>
    match chain address with
    | .initialized authority value _ =>
      if authority = pool.payer then some (unknownSlot index address value) else none
    | _ => none

theorem recoveredSlot_eq_some {index : Nat} {slot : PoolSlot} :
    recoveredSlot pool chain index = some slot ↔
      ∃ address value, Controlled pool chain index address value ∧
        slot = unknownSlot index address value := by
  constructor
  · intro h
    unfold recoveredSlot at h
    split at h
    · cases h
    · next address haddress =>
      split at h
      · next authority value lamports hchain =>
        split at h
        · next hauthority =>
          refine ⟨address, value, ⟨haddress, lamports, ?_⟩, (Option.some.inj h).symm⟩
          rw [hchain, hauthority]
        · cases h
      · cases h
  · rintro ⟨address, value, ⟨haddress, lamports, hchain⟩, rfl⟩
    simp only [recoveredSlot, haddress, hchain, if_true]

theorem recoveredSlot_index {index : Nat} {slot : PoolSlot}
    (h : recoveredSlot pool chain index = some slot) : slot.index = index := by
  rcases recoveredSlot_eq_some.mp h with ⟨address, value, _, rfl⟩
  rfl

/-- The slots of the indices in turn are the ones to list. -/
theorem lists_recovered (maxProbe : Nat) :
    Lists pool chain maxProbe ((List.range maxProbe).filterMap (recoveredSlot pool chain)) where
  increasing := by
    refine List.Pairwise.filterMap _ (fun i j hij a ha b hb => ?_) List.pairwise_lt_range
    rw [recoveredSlot_index ha, recoveredSlot_index hb]
    exact hij
  mem_iff slot := by
    rw [List.mem_filterMap]
    constructor
    · rintro ⟨index, hindex, hslot⟩
      cases recoveredSlot_index hslot
      exact ⟨List.mem_range.mp hindex, recoveredSlot_eq_some.mp hslot⟩
    · rintro ⟨hindex, hslot⟩
      exact ⟨slot.index, List.mem_range.mpr hindex, recoveredSlot_eq_some.mpr hslot⟩

end Listing

section Reading

/-- Reading an account reads the chain. -/
theorem Unchanged.run_getNonceAccount (h : Unchanged network chain still) (address : Address)
    (s : Option PoolState) {w : World ρ} (hstill : still w.net) :
    ∃ net, still net ∧ run (reply network) (getNonceAccount address : PoolM NonceAccountState) s w
      = ⟨.ok (chain address), s, ⟨w.store, net⟩⟩ := by
  refine ⟨_, h.kept (.rpc (.getNonceAccount address)) w trivial hstill, ?_⟩
  rw [getNonceAccount, rpc, run_request (I := client), ← h.account w.net address hstill]
  rfl

theorem Unchanged.run_readValue (h : Unchanged network chain still) (slot : PoolSlot)
    (s : Option PoolState) {w : World ρ} (hstill : still w.net) :
    ∃ net, still net ∧ run (reply network) (Pool.readValue slot) s w
      = ⟨.ok ((chain slot.address).value, (chain slot.address).lamports), s, ⟨w.store, net⟩⟩ := by
  rcases h.run_getNonceAccount slot.address s hstill with ⟨net, hnet, hrun⟩
  refine ⟨net, hnet, ?_⟩
  rw [Pool.readValue, run_bind_ok _ hrun]
  cases chain slot.address with
  | absent => rfl
  | uninitialized => rfl
  | initialized authority value lamports => rfl

/-- Probing lists the slots of the payer's accounts, in order. -/
theorem run_probe (h : Unchanged network chain still) {indices : List Nat}
    (hindices : ∀ index ∈ indices, index ≤ 255) (s : Option PoolState) {w : World ρ}
    (hstill : still w.net) :
    ∃ net, still net ∧ run (reply network) (Pool.probe pool indices) s w
      = ⟨.ok (indices.filterMap (recoveredSlot pool chain)), s, ⟨w.store, net⟩⟩ := by
  induction indices generalizing w with
  | nil => exact ⟨w.net, hstill, rfl⟩
  | cons index indices ih =>
      -- An index below 256 has an address.
      have hderived : ∃ address, deriveNonceAddress pool.kit pool.payer index = .ok address :=
        ⟨_, deriveNonceAddress_of_le pool.kit pool.payer (hindices index List.mem_cons_self)⟩
      rcases hderived with ⟨address, hderive⟩
      rcases h.run_getNonceAccount address s hstill with ⟨net, hnet, hread⟩
      rcases ih (fun i hi => hindices i (List.mem_cons_of_mem _ hi)) (w := ⟨w.store, net⟩) hnet with
        ⟨net', hnet', hrest⟩
      refine ⟨net', hnet', ?_⟩
      rw [Pool.probe, hderive]
      refine (run_bind_ok _ (run_ofResult _ (.ok address) s w)).trans ((run_bind_ok _ hread).trans
        ((run_bind_ok _ hrest).trans ?_))
      rw [List.filterMap_cons, recoveredSlot, hderive]
      dsimp only
      -- Only an account initialised by the payer is listed.
      rcases chain address with _ | _ | ⟨authority, value, lamports⟩
      · rfl
      · rfl
      · dsimp only
        by_cases hauthority : authority = pool.payer
        · rw [if_pos hauthority, if_pos hauthority]
          rfl
        · rw [if_neg hauthority, if_neg hauthority]
          rfl

/-- One withdrawal for every slot whose account holds lamports. -/
def withdrawalsOf (pool : PoolConfig) (chain : Address → NonceAccountState)
    (slots : List PoolSlot) : List SetupInstruction :=
  (slots.filter fun slot => (chain slot.address).lamports ≠ 0).map fun slot =>
    .withdrawNonceAccount slot.address pool.payer pool.payer (chain slot.address).lamports

/-- What the accounts of some slots hold together. -/
def depositOf (chain : Address → NonceAccountState) (slots : List PoolSlot) : Int :=
  (slots.map fun slot => (chain slot.address).lamports).sum

theorem withdrawalsOf_cons (slot : PoolSlot) (slots : List PoolSlot) :
    withdrawalsOf pool chain (slot :: slots)
      = if (chain slot.address).lamports = 0 then withdrawalsOf pool chain slots
        else .withdrawNonceAccount slot.address pool.payer pool.payer (chain slot.address).lamports
          :: withdrawalsOf pool chain slots := by
  unfold withdrawalsOf
  rw [List.filter_cons]
  split
  · next hsome =>
    rw [if_neg (of_decide_eq_true hsome), List.map_cons]
  · next hnone =>
    rw [if_pos (not_not.mp fun h => hnone (decide_eq_true h))]

theorem depositOf_cons (slot : PoolSlot) (slots : List PoolSlot) :
    depositOf chain (slot :: slots)
      = (chain slot.address).lamports + depositOf chain slots := by
  unfold depositOf
  rw [List.map_cons, List.sum_cons]

/-- Withdrawing reads every account, and asks for all it holds. -/
theorem run_withdrawals (h : Unchanged network chain still) (slots : List PoolSlot)
    (s : Option PoolState) {w : World ρ} (hstill : still w.net) :
    ∃ net, still net ∧ run (reply network) (Pool.withdrawals pool slots) s w
      = ⟨.ok (withdrawalsOf pool chain slots, depositOf chain slots), s, ⟨w.store, net⟩⟩ := by
  induction slots generalizing w with
  | nil => exact ⟨w.net, hstill, rfl⟩
  | cons slot slots ih =>
      rcases h.run_readValue slot s hstill with ⟨net, hnet, hread⟩
      rcases ih (w := ⟨w.store, net⟩) hnet with ⟨net', hnet', hrest⟩
      refine ⟨net', hnet', (run_bind_ok _ hread).trans ((run_bind_ok _ hrest).trans ?_)⟩
      dsimp only
      rw [withdrawalsOf_cons, depositOf_cons]
      by_cases hnone : (chain slot.address).lamports = 0
      · rw [if_pos hnone, if_pos hnone, hnone, zero_add]
        rfl
      · rw [if_neg hnone, if_neg hnone]
        rfl

end Reading

section Recovering

/-- The spend log is read from the ledger in memory or the one in the store. -/
theorem run_awaited_priorSpendLog (hstorage : StorageWorks network)
    (h : Unchanged network chain still) (s : Option PoolState) {w : World ρ}
    (hstill : still w.net) :
    ∃ log net, still net ∧ run (reply network) (awaited (Pool.priorSpendLog pool)) s w
      = ⟨.ok log, s, ⟨w.store, net⟩⟩ := by
  have htick (w : World ρ) : reply network .tick w
      = (.ok (), { w with net := network.tick w.net }) := rfl
  cases s with
  | some state =>
      exact ⟨state.spendLog.getD [], _, h.kept .tick w trivial hstill, rfl⟩
  | none =>
      have hread := h.kept (.storeGet (.pool pool.payer)) w trivial hstill
      rw [reply_storeGet hstorage] at hread
      refine ⟨((w.store.lookup (.pool pool.payer)).bind PoolState.spendLog).getD [], _,
        h.kept .tick ⟨w.store, _⟩ trivial hread, ?_⟩
      simp only [awaited, Pool.priorSpendLog, Pool.currentOrStored, run_bind, run_read, storeGet,
        run_request (I := client), reply_storeGet hstorage, run_pure, tick, htick]

/-- A ledger is written to memory and to the store. -/
theorem run_persist_works (hstorage : StorageWorks network) (h : Unchanged network chain still)
    (state : PoolState) (s : Option PoolState) {w : World ρ} (hstill : still w.net) :
    ∃ net, still net ∧ run (reply network) (Pool.persist pool state) s w
      = ⟨.ok (statusOf state), some state,
        ⟨w.store.insert (.pool pool.payer) state, net⟩⟩ := by
  refine ⟨_, h.kept (.storeSet (.pool pool.payer) state) w trivial hstill, ?_⟩
  rw [run_persist, storage_eq hstorage, reply_storeSet hstorage]

/-- Recovering lists the payer's accounts, or refuses and writes nothing. -/
theorem run_recover (hstorage : StorageWorks network) (h : Unchanged network chain still)
    {maxProbe : Nat} (hprobe : maxProbe ≤ 256) (s : Option PoolState) {w : World ρ}
    (hstill : still w.net) :
    let slots := (List.range maxProbe).filterMap (recoveredSlot pool chain)
    (slots = [] → ∃ detail net, run (reply network) (Pool.recover pool maxProbe) s w
      = ⟨.error (vadumError .nonceLedgerMissing detail), s, ⟨w.store, net⟩⟩) ∧
    (slots ≠ [] → ∃ state net, state.slots = slots ∧ still net ∧
      run (reply network) (Pool.recover pool maxProbe) s w
        = ⟨.ok (statusOf state), some state,
          ⟨w.store.insert (.pool pool.payer) state, net⟩⟩) := by
  intro slots
  have hindices : ∀ index ∈ List.range maxProbe, index ≤ 255 := by
    intro index hindex
    have := List.mem_range.mp hindex
    omega
  rcases @run_probe _ network pool _ _ h _ hindices s w hstill with ⟨net, hnet, hslots⟩
  rw [Pool.recover, run_bind_ok _ hslots]
  constructor
  · intro hnone
    exact ⟨_, net, by rw [if_pos hnone]; rfl⟩
  · intro hsome
    -- A new epoch is drawn, and the spend log is taken over.
    have huuid := h.kept .randomUUID ⟨w.store, net⟩ trivial hnet
    rcases @run_awaited_priorSpendLog _ network pool _ _ hstorage h s
      ⟨w.store, (network.randomUUID net).2⟩ huuid with ⟨log, net', hnet', hlog⟩
    let state : PoolState := ⟨pool.payer, (slots.getLast?.map PoolSlot.index).getD 0 + 1,
      (network.randomUUID net).1, slots, some log⟩
    rcases @run_persist_works _ network pool _ _ hstorage h state s ⟨w.store, net'⟩ hnet' with
      ⟨net'', hnet'', hpersist⟩
    refine ⟨state, net'', rfl, hnet'', ?_⟩
    rw [if_neg hsome]
    exact (run_bind_ok _ hlog).trans hpersist

/-- The withdrawals are sent as one setup, unless there is none, and their sum is
    the result, unless the setup is refused. -/
theorem run_withdrawAll (hstorage : StorageWorks network) (h : Unchanged network chain still)
    (state : PoolState) (key : CryptoKeyPair) (s : Option PoolState) {w : World ρ}
    (hstill : still w.net) :
    sentSetups (requests (reply network) (withdrawAll pool state key) s w)
        = (if withdrawalsOf pool chain state.slots = [] then []
          else [withdrawalsOf pool chain state.slots]) ∧
      ((run (reply network) (withdrawAll pool state key) s w).result
          = .ok (depositOf chain state.slots) ∨
        ∃ e n, still n ∧
          (network.rpc (.sendSetup (withdrawalsOf pool chain state.slots) key) n).1 = .error e ∧
          (run (reply network) (withdrawAll pool state key) s w).result = .error e) := by
  rcases @run_withdrawals _ network pool _ _ h state.slots s w hstill with ⟨net, hnet, hread⟩
  -- Whatever is written at the end, the deposit is what is returned.
  have hlast (state' : PoolState) (s' : Option PoolState) (w' : World ρ) :
      (run (reply network) (Pool.persist pool state' >>= fun _ =>
        (pure (depositOf chain state.slots) : PoolM Int)) s' w').result
        = .ok (depositOf chain state.slots) := by
    rw [run_bind, run_persist, storage_eq hstorage]
    rfl
  rw [withdrawAll, sentSetups_bind_ok (sendless_withdrawals _) hread, run_bind_ok _ hread]
  dsimp only
  by_cases hnone : withdrawalsOf pool chain state.slots = []
  · rw [if_pos hnone, if_neg (not_not.mpr hnone)]
    refine ⟨sentSetups_of_asks (asks_bind (sendless_persist _) fun _ => asks_pure _) _ _, .inl ?_⟩
    exact hlast _ _ _
  · rw [if_neg hnone, if_pos hnone]
    refine ⟨sentSetups_send (fun _ => asks_bind (sendless_persist _) fun _ => asks_pure _) _ _ _ _,
      ?_⟩
    rcases hsend : network.rpc (.sendSetup (withdrawalsOf pool chain state.slots) key) net with
      ⟨e | signature, net'⟩
    · -- The setup was refused, and so is the close.
      refine .inr ⟨e, net, hnet, congrArg Prod.fst hsend, ?_⟩
      have hrefused : run (reply network) (sendSetup (withdrawalsOf pool chain state.slots) key :
          PoolM Signature) s ⟨w.store, net⟩ = ⟨.error e, s, ⟨w.store, net'⟩⟩ := by
        simp only [sendSetup, rpc, run_request (I := client), reply, hsend]
      rw [run_bind_error _ hrefused]
    · have hsent : run (reply network) (sendSetup (withdrawalsOf pool chain state.slots) key :
          PoolM Signature) s ⟨w.store, net⟩ = ⟨.ok signature, s, ⟨w.store, net'⟩⟩ :=
        run_answered hsend s
      rw [run_bind_ok _ hsent]
      exact .inl (hlast _ _ _)

/-- Closing with enough in the wallet withdraws everything the slots hold. -/
theorem run_close_funded (hstorage : StorageWorks network) (h : Unchanged network chain still)
    (state : PoolState) {key : CryptoKeyPair} (hkey : key.publicKey = pool.payer) {w : World ρ}
    (hstill : still w.net) {minimum balance : Int}
    (hasked : Asked network pool minimum balance (network.tick w.net))
    (hfunded : lamportsPerSignature + minimum ≤ balance) :
    sentSetups (requests (reply network) (Pool.close pool key) (some state) w)
        = (if withdrawalsOf pool chain state.slots = [] then []
          else [withdrawalsOf pool chain state.slots]) ∧
      ((run (reply network) (Pool.close pool key) (some state) w).result
          = .ok (depositOf chain state.slots) ∨
        ∃ e n, still n ∧
          (network.rpc (.sendSetup (withdrawalsOf pool chain state.slots) key) n).1 = .error e ∧
          (run (reply network) (Pool.close pool key) (some state) w).result = .error e) := by
  rcases hasked with ⟨n₁, n₂, hbalance, hminimum⟩
  have hfinds : Finds network pool (some state) w state w.net := .inl ⟨rfl, rfl⟩
  have hpasses : ¬ (balance ≠ 0 ∧ balance < lamportsPerSignature + minimum) := by omega
  rcases (run_close hkey hfinds hbalance hminimum).2 hpasses with ⟨hrun, hsent⟩
  have htick := h.kept .tick w trivial hstill
  have hread : still (network.rpc (.getBalance pool.payer) (network.tick w.net)).2 :=
    h.kept (.rpc (.getBalance pool.payer)) ⟨w.store, network.tick w.net⟩ trivial htick
  rw [hbalance] at hread
  have hrent : still (network.rpc (.getRentExemption 0) n₁).2 :=
    h.kept (.rpc (.getRentExemption 0)) ⟨w.store, n₁⟩ trivial hread
  rw [hminimum] at hrent
  rw [hrun, hsent]
  exact run_withdrawAll hstorage h state key _ hrent

/-- Recovering lists exactly the payer's accounts below the limit, in order, and
    if there is none it refuses and writes nothing. Closing right after it, with
    enough in the wallet, withdraws from each listed account that holds lamports
    all that it holds, in one setup, and reports the sum. -/
theorem recovery_returns_deposit (network : Network ρ) (hstorage : StorageWorks network)
    (pool : PoolConfig) (chain : Address → NonceAccountState) (still : ρ → Prop)
    (hunchanged : Unchanged network chain still) {maxProbe : Nat} (hprobe : maxProbe ≤ 256)
    (s : Option PoolState) (w : World ρ) (hstill : still w.net) :
    ∃ slots, Lists pool chain maxProbe slots ∧
      let recovered := run (reply network) (Pool.recover pool maxProbe) s w
      (slots = [] →
        (∃ detail, recovered.result = .error (vadumError .nonceLedgerMissing detail)) ∧
          recovered.vars = s ∧ recovered.world.store = w.store) ∧
      (slots ≠ [] →
        (∃ state, state.slots = slots ∧ recovered.result = .ok (statusOf state) ∧
          recovered.vars = some state ∧
          recovered.world.store = w.store.insert (.pool pool.payer) state) ∧
        ∀ key minimum balance, key.publicKey = pool.payer →
          Asked network pool minimum balance (network.tick recovered.world.net) →
          lamportsPerSignature + minimum ≤ balance →
          let closed :=
            run (reply network) (Pool.close pool key) recovered.vars recovered.world
          sentSetups (requests (reply network) (Pool.close pool key) recovered.vars
              recovered.world)
            = (if withdrawalsOf pool chain slots = [] then []
              else [withdrawalsOf pool chain slots]) ∧
          (closed.result = .ok (depositOf chain slots) ∨
            ∃ e n, still n ∧
              (network.rpc (.sendSetup (withdrawalsOf pool chain slots) key) n).1 = .error e ∧
              closed.result = .error e)) := by
  refine ⟨_, lists_recovered maxProbe, ?_⟩
  intro recovered
  have hrecover := @run_recover _ network pool _ _ hstorage hunchanged _ hprobe s w hstill
  constructor
  · intro hnone
    rcases hrecover.1 hnone with ⟨detail, net, hrun⟩
    have hrecovered : recovered = _ := hrun
    rw [hrecovered]
    exact ⟨⟨detail, rfl⟩, rfl, rfl⟩
  · intro hsome
    rcases hrecover.2 hsome with ⟨state, net, hslots, hnet, hrun⟩
    have hrecovered : recovered = _ := hrun
    rw [hrecovered]
    refine ⟨⟨state, hslots, rfl, rfl, rfl⟩, ?_⟩
    intro key minimum balance hkey hasked hfunded
    -- The close reads the accounts that were listed.
    have hclose := @run_close_funded _ network pool _ _ hstorage hunchanged state _ hkey
      ⟨w.store.insert (.pool pool.payer) state, net⟩ hnet _ _ hasked hfunded
    rwa [hslots] at hclose

/-- Two accounts of the payer's, and between them one somebody else controls. -/
def lostAccounts : List (Address × NonceAccountState) :=
  [testAccount 0 (testNonce 7),
    ((testAccount 1 (testNonce 8)).1, .initialized (testAddress 5) (testNonce 8) 1056640),
    testAccount 2 (testNonce 9)]

def lostWorld : World FakeRpc := ⟨∅, { nonceAccounts := lostAccounts, balance := 895880 }⟩

theorem unchanged_lostAccounts :
    Unchanged fakeNetwork lostWorld.net.nonceAccount
      fun rpc => rpc.nonceAccounts = lostAccounts where
  account n address hstill := by
    change Except.ok (n.nonceAccount address) = _
    unfold FakeRpc.nonceAccount
    rw [hstill]
    rfl
  kept r w hr hstill := by
    cases r with
    | rpc c =>
        cases c with
        | getMintAccount mint =>
            simp only [reply, fakeNetwork, FakeRpc.answer]
            split
            · exact hstill
            · exact hstill
        -- The chain changes only by what is submitted, and nothing is.
        | sendSetup _ _ => exact hr.elim
        | sendPayment _ _ => exact hr.elim
        | _ => exact hstill
    | _ => exact hstill

theorem recovery_returns_deposit_lostWorld :
    ∃ slots, Lists testPool lostWorld.net.nonceAccount 16 slots ∧ slots ≠ [] ∧
      let recovered := run (reply fakeNetwork) (Pool.recover testPool 16) none lostWorld
      (run (reply fakeNetwork) (Pool.close testPool (testKey 1)) recovered.vars
        recovered.world).result = .ok (depositOf lostWorld.net.nonceAccount slots) := by
  rcases recovery_returns_deposit fakeNetwork fakeNetwork_storageWorks testPool _ _
    unchanged_lostAccounts (show 16 ≤ 256 by decide) none lostWorld rfl with
    ⟨slots, hlists, hmissing, hlisted⟩
  have hresolved : (run (reply fakeNetwork) (Pool.recover testPool 16) none lostWorld).result.isOk
      = true := by decide +kernel
  -- The recovery resolves, so it has found a slot.
  have hsome : slots ≠ [] := by
    intro hnone
    rcases (hmissing hnone).1 with ⟨detail, hrefused⟩
    rw [hrefused] at hresolved
    cases hresolved
  refine ⟨slots, hlists, hsome, ?_⟩
  have hasked (n : FakeRpc) : Asked fakeNetwork testPool 890880 n.balance n := ⟨n, n, rfl, rfl⟩
  rcases ((hlisted hsome).2 (testKey 1) 890880 _ rfl (hasked _) (by decide +kernel)).2 with
    hdeposit | ⟨e, n, _, hrefused, _⟩
  · exact hdeposit
  · cases hrefused

end Recovering

end Vadum
