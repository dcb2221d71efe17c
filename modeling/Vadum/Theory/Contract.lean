import Vadum.Theory.Ledger

/-!
# The Contract of the Pool

`op_obeys` is the inversion lemma of the whole pool. Whatever the network
answers and whatever else runs meanwhile, an operation writes nothing but its
`Write`s, stores only the ledger it has just written, and a reservation it
returns is the last one it wrote and stored.

Every operation is the same shape, so the lemmas follow the code: reading the
ledger, asking the network, the loops over slots, and writing the ledger back.
What an operation has been told only grows, and each lemma hands its caller a
longer past, so evidence gathered early is still evidence at the end.

## Theorems

* `obeys_rpc`, `obeys_tick`, `obeys_storeGet`: The contracts of requests.
* `obeys_loaded`, `obeys_priorSpendLog`: The contracts of reading the ledger.
* `obeys_persist`: The contract of writing it.
* `obeys_refreshSlots`, `obeys_reconcileSlots`, `obeys_probe`,
  `obeys_withdrawals`: The contracts of the loops.
* `obeys_emptied`: What `close` and `recover` leave.
* `op_obeys`: The contract of every operation.
-/

namespace Vadum

open Async (Act)
open Async.Process

variable {pool : PoolConfig} {op : PoolOp} {α : Type} {past : Past} {s : Option PoolState}

/-- Nothing was written between two pasts. -/
def Quiet (past past' : Past) : Prop :=
  ∃ asks, past' = past ++ asks ∧ ∀ seen new, Act.wrote seen new ∉ asks

theorem Quiet.refl (past : Past) : Quiet past past :=
  ⟨[], (List.append_nil _).symm, fun _ _ => List.not_mem_nil⟩

theorem Quiet.asked (past : Past) (r : Req) (a : Except Thrown r.Ans) :
    Quiet past (past ++ [.asked (I := client) r a]) :=
  ⟨_, rfl, fun _ _ h => absurd (List.mem_singleton.mp h) (by
    simp only [reduceCtorEq, not_false_eq_true])⟩

theorem Quiet.trans {past past₁ past₂ : Past} (h₁ : Quiet past past₁) (h₂ : Quiet past₁ past₂) :
    Quiet past past₂ := by
  rcases h₁ with ⟨asks₁, rfl, hasks₁⟩
  rcases h₂ with ⟨asks₂, rfl, hasks₂⟩
  refine ⟨asks₁ ++ asks₂, List.append_assoc _ _ _, fun seen new h => ?_⟩
  rcases List.mem_append.mp h with h | h
  · exact hasks₁ seen new h
  · exact hasks₂ seen new h

theorem Quiet.subset {past past' : Past} (h : Quiet past past') : past ⊆ past' := by
  rcases h with ⟨asks, rfl, _⟩
  exact List.subset_append_left _ _

/-- What was heard stays heard until the next write. -/
theorem Heard.of_quiet {past past' : Past} {c : Call} {a : c.Answer} (h : Heard past c a)
    (hq : Quiet past past') : Heard past' c a := by
  rcases h with ⟨earlier, later, rfl, hlater⟩
  rcases hq with ⟨asks, rfl, hasks⟩
  refine ⟨earlier, later ++ asks, by rw [List.append_assoc, List.cons_append],
    fun seen new h => ?_⟩
  rcases List.mem_append.mp h with h | h
  · exact hlater seen new h
  · exact hasks seen new h

theorem Heard.answered {past : Past} {c : Call} {a : c.Answer} (h : Heard past c a) :
    Answered past c a := by
  rcases h with ⟨earlier, later, rfl, _⟩
  exact List.mem_append_right _ List.mem_cons_self

/-- Only a store write is held to anything. -/
theorem stores_of_ne (r : Req) (h : ∀ k v, r ≠ .storeSet k v) : Stores pool past s r :=
  fun k v hr => absurd hr (h k v)

theorem obeys_rpc {c : Call} {Q : Past → Option PoolState → Except Thrown c.Answer → Prop}
    (h : ∀ a, Q (past ++ [.asked (.rpc c) a]) s a) :
    (rpc c : PoolM c.Answer).Obeys (Write pool op) (Stores pool) Q past s :=
  obeys_request (I := client) (r := .rpc c) (stores_of_ne _ fun _ _ hr => Req.noConfusion hr) h

theorem obeys_tick {Q : Past → Option PoolState → Except Thrown Unit → Prop}
    (h : ∀ a, Q (past ++ [.asked .tick a]) s a) :
    (tick : PoolM Unit).Obeys (Write pool op) (Stores pool) Q past s :=
  obeys_request (I := client) (r := .tick) (stores_of_ne _ fun _ _ hr => Req.noConfusion hr) h

theorem obeys_randomUUID {Q : Past → Option PoolState → Except Thrown String → Prop}
    (h : ∀ a, Q (past ++ [.asked .randomUUID a]) s a) :
    (randomUUID : PoolM String).Obeys (Write pool op) (Stores pool) Q past s :=
  obeys_request (I := client) (r := .randomUUID) (stores_of_ne _ fun _ _ hr => Req.noConfusion hr) h

theorem obeys_storeGet {k : StoreKey}
    {Q : Past → Option PoolState → Except Thrown (Option k.Value) → Prop}
    (h : ∀ a, Q (past ++ [.asked (.storeGet k) a]) s a) :
    (storeGet k : PoolM (Option k.Value)).Obeys (Write pool op) (Stores pool) Q past s :=
  obeys_request (I := client) (r := .storeGet k) (stores_of_ne _ fun _ _ hr => Req.noConfusion hr) h

/-- A pure check either passes its value on or ends the operation. -/
theorem obeys_ofResult {x : Except Thrown α} {Q : Past → Option PoolState → Except Thrown α → Prop}
    (h : Q past s x) : (ofResult x : PoolM α).Obeys (Write pool op) (Stores pool) Q past s := by
  cases x with
  | ok a => exact h
  | error e => exact h

/-- Waiting for an async function adds a wait at its end. -/
theorem obeys_awaited {p : PoolM α} {Q : Past → Option PoolState → Except Thrown α → Prop}
    (h : p.Obeys (Write pool op) (Stores pool) (fun past' s' x => match x with
      | .ok a => Q (past' ++ [.asked .tick (.ok ())]) s' (.ok a) ∧
          ∀ e, Q (past' ++ [.asked .tick (.error e)]) s' (.error e)
      | .error e => Q past' s' (.error e)) past s) :
    (awaited p).Obeys (Write pool op) (Stores pool) Q past s := by
  refine obeys_bind (obeys_mono (fun _ _ _ hw => hw) (fun _ _ _ hr => hr) ?_ h)
  intro past' s' x hx
  cases x with
  | error e => exact hx
  | ok a =>
      refine obeys_bind (obeys_tick fun t => ?_)
      cases t with
      | ok _ => exact hx.1
      | error e => exact hx.2 e

/-- Reading the ledger ends in the ledger in memory, or in an error. -/
theorem obeys_loaded {Q : Past → Option PoolState → Except Thrown PoolState → Prop}
    (hok : ∀ past' state, past ⊆ past' → Q past' (some state) (.ok state))
    (herr : ∀ past' s' e, past ⊆ past' → Q past' s' (.error e)) :
    (awaited (Pool.loaded pool)).Obeys (Write pool op) (Stores pool) Q past s := by
  refine obeys_awaited (obeys_bind fun seen => ?_)
  cases seen with
  -- The ledger is in memory already: nothing is asked.
  | some state =>
      exact ⟨hok _ _ (List.subset_append_left _ _),
        fun e => herr _ _ _ (List.subset_append_left _ _)⟩
  | none =>
      refine obeys_bind (obeys_storeGet fun a => ?_)
      cases a with
      | error e => exact herr _ _ _ (List.subset_append_left _ _)
      | ok stored =>
          refine ⟨.load (List.mem_append_right _ (List.mem_singleton_self _)), ?_⟩
          have hsub : past ⊆ past ++ [.asked (Req.storeGet (.pool pool.payer)) (.ok stored)]
              ++ [.wrote none stored] :=
            List.Subset.trans (List.subset_append_left _ _) (List.subset_append_left _ _)
          cases stored with
          | none => exact herr _ _ _ hsub
          | some state =>
              exact ⟨hok _ _ (List.Subset.trans hsub (List.subset_append_left _ _)),
                fun e => herr _ _ _ (List.Subset.trans hsub (List.subset_append_left _ _))⟩

/-- The prior spend log is that of the ledger last seen, or of the store's when
    none was. -/
theorem obeys_priorSpendLog {Q : Past → Option PoolState → Except Thrown (List SpendEntry) → Prop}
    (hok : ∀ past' s' source, Quiet past past' →
      (source = s' ∧ s' ≠ none ∨ s' = none ∧ ReadStore pool past' source) →
      Q past' s' (.ok ((source.bind PoolState.spendLog).getD [])))
    (herr : ∀ past' s' e, Quiet past past' → Q past' s' (.error e)) :
    (awaited (Pool.priorSpendLog pool)).Obeys (Write pool op) (Stores pool) Q past s := by
  refine obeys_awaited (obeys_bind (obeys_bind fun seen => ?_))
  cases seen with
  | some state =>
      exact ⟨hok _ _ (some state) (.asked _ _ _) (.inl ⟨rfl, by
        simp only [ne_eq, reduceCtorEq, not_false_eq_true]⟩),
        fun e => herr _ _ _ (.asked _ _ _)⟩
  | none =>
      refine obeys_storeGet fun a => ?_
      cases a with
      | error e => exact herr _ _ _ (.asked _ _ _)
      | ok stored =>
          have hread : Quiet past
              (past ++ [.asked (Req.storeGet (.pool pool.payer)) (.ok stored)]) := .asked _ _ _
          refine ⟨hok _ _ stored (hread.trans (.asked _ _ _)) (.inr ⟨rfl, ?_⟩),
            fun e => herr _ _ _ (hread.trans (.asked _ _ _))⟩
          exact List.mem_append_left _ (List.mem_append_right _ (List.mem_singleton_self _))

/-- Writing the ledger writes memory and then stores what it wrote. -/
theorem obeys_persist {state : PoolState}
    {Q : Past → Option PoolState → Except Thrown PoolStatus → Prop}
    (hw : Write pool op past s (some state))
    (hok : Q (past ++ [.wrote s (some state),
      .asked (Req.storeSet (.pool pool.payer) state) (.ok ())]) (some state) (.ok (statusOf state)))
    (herr : ∀ past' e, past ⊆ past' → Q past' (some state) (.error e)) :
    (Pool.persist pool state).Obeys (Write pool op) (Stores pool) Q past s := by
  refine obeys_bind ⟨hw, obeys_bind (obeys_request (I := client)
    (r := .storeSet (.pool pool.payer) state) ?_ fun a => ?_)⟩
  · intro k v hr
    exact ⟨state, past, s, rfl, rfl, rfl⟩
  · cases a with
    | ok _ =>
        rw [List.append_assoc]
        exact hok
    | error e =>
        exact herr _ _ (List.Subset.trans (List.subset_append_left _ _)
          (List.subset_append_left _ _))

/-- Reading a slot asks for its account and keeps the answer. -/
theorem obeys_readValue {slot : PoolSlot}
    {Q : Past → Option PoolState → Except Thrown (Option Nonce × Int) → Prop}
    (hok : ∀ past' account lamports, Quiet past past' →
      Heard past' (.getNonceAccount slot.address) account →
      Q past' s (.ok (account.value, lamports)))
    (herr : ∀ past' e, Quiet past past' → Q past' s (.error e)) :
    (Pool.readValue slot).Obeys (Write pool op) (Stores pool) Q past s := by
  refine obeys_bind (obeys_rpc fun a => ?_)
  cases a with
  | error e => exact herr _ _ (.asked _ _ _)
  | ok account =>
      have hheard : Heard (past ++ [.asked (.rpc (.getNonceAccount slot.address)) (.ok account)])
          (.getNonceAccount slot.address) account :=
        ⟨past, [], rfl, fun _ _ => List.not_mem_nil⟩
      cases account with
      | absent => exact hok _ .absent 0 (.asked _ _ _) hheard
      | uninitialized => exact hok _ .uninitialized 0 (.asked _ _ _) hheard
      | initialized authority value lamports =>
          exact hok _ (.initialized authority value lamports) lamports (.asked _ _ _) hheard

/-- The loop of `refresh` reads every slot again. -/
theorem obeys_refreshSlots {slots : List PoolSlot}
    {Q : Past → Option PoolState → Except Thrown (List PoolSlot) → Prop}
    (hok : ∀ past' slots', Quiet past past' → List.Forall₂ (Reread past') slots slots' →
      Q past' s (.ok slots'))
    (herr : ∀ past' e, Quiet past past' → Q past' s (.error e)) :
    (Pool.refreshSlots slots).Obeys (Write pool op) (Stores pool) Q past s := by
  induction slots generalizing past Q with
  | nil => exact hok past [] (.refl _) .nil
  | cons slot slots ih =>
      refine obeys_bind (obeys_readValue (fun past₁ account lamports h₁ hheard => ?_)
        fun past₁ e h₁ => herr _ _ h₁)
      refine obeys_bind (ih (fun past₂ slots' h₂ hrest => ?_)
        fun past₂ e h₂ => herr _ _ (h₁.trans h₂))
      exact hok past₂ _ (h₁.trans h₂) (.cons (.mk slot account (hheard.of_quiet h₂)) hrest)

/-- The loop of `reconcile` ends in what `Reconciled` says of its slots. -/
theorem obeys_reconcileSlots {now : Int} {slots : List PoolSlot} {state : PoolState}
    {r : Reconciliation}
    {Q : Past → Option PoolState → Except Thrown (PoolState × Reconciliation) → Prop}
    (hok : ∀ past' y, Quiet past past' → Reconciled pool now past' slots (state, r) y →
      Q past' s (.ok y))
    (herr : ∀ past' e, Quiet past past' → Q past' s (.error e)) :
    (Pool.reconcileSlots pool now state r slots).Obeys (Write pool op) (Stores pool) Q past s := by
  induction slots generalizing past state r Q with
  | nil => exact hok past _ (.refl _) (.nil _)
  | cons slot slots ih =>
      unfold Pool.reconcileSlots
      split
      · next index address held record releasedAt =>
        refine obeys_bind (obeys_readValue (fun past₁ account lamports h₁ hheard => ?_)
          fun past₁ e h₁ => herr _ _ h₁)
        -- The account is gone, its value moved, the send window elapsed, or the slot waits on.
        cases hv : account.value with
        | none =>
            exact ih (fun past₂ y h₂ hy => hok past₂ y (h₁.trans h₂)
              (.gone rfl rfl (hheard.of_quiet h₂) hv hy)) fun past₂ e h₂ => herr _ _ (h₁.trans h₂)
        | some v =>
            dsimp only
            by_cases hmoved : v ≠ record.value
            · rw [if_pos hmoved]
              exact ih (fun past₂ y h₂ hy => hok past₂ y (h₁.trans h₂)
                (.settled rfl rfl (hheard.of_quiet h₂) hv hmoved hy))
                fun past₂ e h₂ => herr _ _ (h₁.trans h₂)
            · rw [if_neg hmoved]
              rw [not_not.mp hmoved] at hv ⊢
              by_cases helapsed : now - record.at' ≥ pool.sendWindowMs
              · rw [if_pos helapsed]
                exact ih (fun past₂ y h₂ hy => hok past₂ y (h₁.trans h₂)
                  (.released rfl rfl (hheard.of_quiet h₂) hv helapsed hy))
                  fun past₂ e h₂ => herr _ _ (h₁.trans h₂)
              · rw [if_neg helapsed]
                exact ih (fun past₂ y h₂ hy => hok past₂ y (h₁.trans h₂)
                  (.pending rfl rfl (hheard.of_quiet h₂) hv (by omega) hy))
                  fun past₂ e h₂ => herr _ _ (h₁.trans h₂)
      · next hne =>
        refine ih (fun past₂ y h₂ hy => hok past₂ y h₂ (.skip ?_ hy)) herr
        -- Only a reserved slot with a record is looked at, and this one is not that.
        by_contra hboth
        rw [not_or, not_not] at hboth
        rcases Option.ne_none_iff_exists'.mp hboth.2 with ⟨record, hrecord⟩
        rcases slot with ⟨index, address, held, state', against, releasedAt⟩
        exact hne index address held record releasedAt (by
          simp only at hboth hrecord
          rw [hboth.1, hrecord])

/-- The loop of `recover` lists accounts of the payer, in the order of the
    indices. -/
theorem obeys_probe {indices : List Nat}
    {Q : Past → Option PoolState → Except Thrown (List PoolSlot) → Prop}
    (hok : ∀ past' slots, Quiet past past' → (∀ slot ∈ slots, Probed pool past' slot) →
      (slots.map PoolSlot.index).Sublist indices → Q past' s (.ok slots))
    (herr : ∀ past' e, Quiet past past' → Q past' s (.error e)) :
    (Pool.probe pool indices).Obeys (Write pool op) (Stores pool) Q past s := by
  induction indices generalizing past Q with
  | nil => exact hok past [] (.refl _) (fun _ h => absurd h List.not_mem_nil) .slnil
  | cons index indices ih =>
      refine obeys_bind (obeys_ofResult ?_)
      cases hd : deriveNonceAddress pool.kit pool.payer index with
      | error e => exact herr _ _ (.refl _)
      | ok address =>
          refine obeys_bind (obeys_rpc fun a => ?_)
          cases a with
          | error e => exact herr _ _ (.asked _ _ _)
          | ok account =>
              have hasked : Quiet past (past
                  ++ [.asked (.rpc (.getNonceAccount address)) (.ok account)]) :=
                .asked _ _ _
              refine obeys_bind (ih (fun past₂ slots h₂ hslots hsub => ?_)
                fun past₂ e h₂ => herr _ _ (hasked.trans h₂))
              cases account with
              | absent => exact hok _ _ (hasked.trans h₂) hslots (hsub.cons index)
              | uninitialized => exact hok _ _ (hasked.trans h₂) hslots (hsub.cons index)
              | initialized authority value lamports =>
                  dsimp only
                  -- An account under another authority is passed over.
                  by_cases hauth : authority = pool.payer
                  · rw [if_pos hauth]
                    refine hok _ _ (hasked.trans h₂) (fun slot hslot => ?_) (hsub.cons_cons index)
                    rcases List.mem_cons.mp hslot with rfl | hrest
                    · refine @Probed.mk _ _ _ _ _ lamports hd
                        (h₂.subset (List.mem_append_right _ ?_))
                      rw [hauth]
                      exact List.mem_singleton_self _
                    · exact hslots slot hrest
                  · rw [if_neg hauth]
                    exact hok _ _ (hasked.trans h₂) hslots (hsub.cons index)

/-- The loop of `close` only reads. -/
theorem obeys_withdrawals {slots : List PoolSlot}
    {Q : Past → Option PoolState → Except Thrown (List SetupInstruction × Int) → Prop}
    (hok : ∀ past' x, Quiet past past' → Q past' s (.ok x))
    (herr : ∀ past' e, Quiet past past' → Q past' s (.error e)) :
    (Pool.withdrawals pool slots).Obeys (Write pool op) (Stores pool) Q past s := by
  induction slots generalizing past Q with
  | nil => exact hok past _ (.refl _)
  | cons slot slots ih =>
      refine obeys_bind (obeys_readValue (fun past₁ account lamports h₁ _ => ?_)
        fun past₁ e h₁ => herr _ _ h₁)
      refine obeys_bind (ih (fun past₂ x h₂ => ?_) fun past₂ e h₂ => herr _ _ (h₁.trans h₂))
      dsimp only
      by_cases hl : lamports = 0
      · rw [if_pos hl]
        exact hok _ _ (h₁.trans h₂)
      · rw [if_neg hl]
        exact hok _ _ (h₁.trans h₂)

theorem obeys_map {β : Type} {f : α → β} {p : PoolM α}
    {Q : Past → Option PoolState → Except Thrown β → Prop}
    (h : p.Obeys (Write pool op) (Stores pool) (fun past' s' x => match x with
      | .ok a => Q past' s' (.ok (f a))
      | .error e => Q past' s' (.error e)) past s) :
    (f <$> p).Obeys (Write pool op) (Stores pool) Q past s := by
  refine obeys_bind (f := pure ∘ f) (obeys_mono (fun _ _ _ hw => hw) (fun _ _ _ hr => hr) ?_ h)
  intro past' s' x hx
  cases x <;> exact hx

/-- The operations whose result says nothing about what they wrote. -/
abbrev Silent {β : Type} (_ : Past) (_ : Option PoolState) (_ : Except Thrown β) : Prop := True

theorem obeys_refresh (online : op = .refresh ∨ ∃ size payerKey, op = .create size payerKey) :
    (Pool.refresh pool).Obeys (Write pool op) (Stores pool) Silent past s := by
  refine obeys_bind (obeys_loaded (fun past₁ state _ => ?_) fun _ _ _ _ => trivial)
  refine obeys_bind (obeys_refreshSlots (fun past₂ slots _ hslots => ?_) fun _ _ _ => trivial)
  exact obeys_persist (.move (.reread online hslots)) trivial fun _ _ _ => trivial

theorem obeys_create (size : Int) (payerKey : CryptoKeyPair) :
    (Pool.create pool size payerKey).Obeys (Write pool (.create size payerKey)) (Stores pool)
      Silent past s := by
  unfold Pool.create
  split
  · exact trivial
  next hsize =>
  refine obeys_bind ?_
  unfold Pool.assertPayerKey
  split
  · exact trivial
  refine obeys_bind (obeys_bind (obeys_rpc fun rent => ?_))
  cases rent with
  | error e => exact trivial
  | ok rent =>
  refine obeys_bind (obeys_rpc fun minimum => ?_)
  cases minimum with
  | error e => exact trivial
  | ok minimum =>
  refine obeys_bind (obeys_rpc fun balance => ?_)
  cases balance with
  | error e => exact trivial
  | ok balance =>
  dsimp only
  split
  · exact trivial
  refine obeys_bind (obeys_ofResult ?_)
  generalize hsetup : Pool.setupSlots pool _ _ = x
  cases x with
  | error e => exact trivial
  | ok x =>
  refine obeys_bind (obeys_rpc fun sent => ?_)
  cases sent with
  | error e => exact trivial
  | ok signature =>
  refine obeys_bind (obeys_randomUUID fun epoch => ?_)
  cases epoch with
  | error e => exact trivial
  | ok epoch =>
  refine obeys_bind (obeys_priorSpendLog (fun past₁ s₁ source h₁ hsource => ?_)
    fun _ _ _ _ => trivial)
  -- The setup was sent before anything is written.
  have hsent : Answered past₁ (.sendSetup x.1 payerKey) signature :=
    h₁.subset (List.mem_append_left _ (List.mem_append_right _ (List.mem_singleton_self _)))
  exact obeys_bind (obeys_persist (.new (.created (by omega) hsetup hsent hsource))
    (obeys_refresh (.inr ⟨size, payerKey, rfl⟩)) fun _ _ _ => trivial)

/-- An operation that resolves has last written a ledger with every slot unknown,
    and stored it. -/
def Emptied {β : Type} (pool : PoolConfig) (past : Past) (s : Option PoolState)
    (x : Except Thrown β) : Prop :=
  ∀ a, x = .ok a → ∃ state earlier prior, s = some state ∧
    (∀ slot ∈ state.slots, slot.state = .unknown) ∧
    past = earlier ++ [.wrote prior s, .asked (Req.storeSet (.pool pool.payer) state) (.ok ())]

theorem emptied_error {β : Type} (past : Past) (s : Option PoolState) (e : Thrown) :
    @Emptied β pool past s (.error e) :=
  fun _ h => by cases h

theorem obeys_recover (maxProbe : Nat) :
    (Pool.recover pool maxProbe).Obeys (Write pool (.recover maxProbe)) (Stores pool)
      (Emptied pool) past s := by
  refine obeys_bind (obeys_probe (fun past₁ slots _ hslots hsub => ?_)
    fun _ _ _ => emptied_error _ _ _)
  dsimp only
  split
  · exact emptied_error _ _ _
  refine obeys_bind (obeys_randomUUID fun epoch => ?_)
  cases epoch with
  | error e => exact emptied_error _ _ _
  | ok epoch =>
  refine obeys_bind (obeys_priorSpendLog (fun past₂ s₂ source h₂ hsource => ?_)
    fun _ _ _ _ => emptied_error _ _ _)
  -- The probe walks the indices upwards and keeps some of them.
  have hincreasing : slots.Pairwise fun a b => a.index < b.index :=
    List.pairwise_map.mp (List.pairwise_lt_range.sublist hsub)
  have hprobed : ∀ slot ∈ slots, Probed pool past₂ slot := fun slot hslot => by
    rcases hslots slot hslot with ⟨hd, hans⟩
    exact .mk hd (h₂.subset (List.mem_append_left _ hans))
  refine obeys_persist (.new (.recovered hprobed hsource hincreasing)) (fun a _ => ?_)
    fun _ _ _ => emptied_error _ _ _
  refine ⟨_, past₂, s₂, rfl, fun slot hslot => ?_, rfl⟩
  rcases hprobed slot hslot with ⟨_, _⟩
  rfl

theorem obeys_close (payerKey : CryptoKeyPair) :
    (Pool.close pool payerKey).Obeys (Write pool (.close payerKey)) (Stores pool)
      (Emptied pool) past s := by
  refine obeys_bind (obeys_loaded (fun past₁ state _ => ?_) fun _ _ _ _ => emptied_error _ _ _)
  refine obeys_bind ?_
  unfold Pool.assertPayerKey
  split
  · exact emptied_error _ _ _
  refine obeys_bind (obeys_rpc fun balance => ?_)
  cases balance with
  | error e => exact emptied_error _ _ _
  | ok balance =>
  refine obeys_bind (obeys_rpc fun minimum => ?_)
  cases minimum with
  | error e => exact emptied_error _ _ _
  | ok minimum =>
  dsimp only
  split
  · exact emptied_error _ _ _
  refine obeys_bind (obeys_withdrawals (fun past₂ x _ => ?_) fun _ _ _ => emptied_error _ _ _)
  -- Whether or not there was something to withdraw, it is the emptied ledger that is written.
  have hpersist : ∀ past', (do
      let _ ← Pool.persist pool { state with
        slots := state.slots.map fun slot => rearmed slot none .unknown none }
      pure x.2 : PoolM Int).Obeys (Write pool (.close payerKey)) (Stores pool) (Emptied pool) past'
        (some state) := by
    refine fun past' => obeys_bind (obeys_persist (.move .closed) (fun a _ => ?_)
      fun _ _ _ => emptied_error _ _ _)
    refine ⟨_, past', some state, rfl, fun slot hslot => ?_, rfl⟩
    rcases List.mem_map.mp hslot with ⟨_, _, rfl⟩
    rfl
  dsimp only
  split
  · refine obeys_bind (obeys_rpc fun sent => ?_)
    cases sent with
    | error e => exact emptied_error _ _ _
    | ok signature => exact hpersist _
  · exact hpersist _

theorem obeys_applyNonceReturn (payload : NonceReturnPayload) :
    (Pool.applyNonceReturn pool payload).Obeys (Write pool (.applyNonceReturn payload))
      (Stores pool) Silent past s := by
  refine obeys_bind (obeys_loaded (fun past₁ state _ => ?_) fun _ _ _ _ => trivial)
  dsimp only
  split
  · next index address value record releasedAt hfound =>
    refine obeys_bind (obeys_ofResult ?_)
    cases hv : verifyNonceReturn pool.kit payload ⟨pool.payer, record.merchant, record.value⟩ with
    | error e => exact trivial
    | ok statement =>
    refine obeys_bind (obeys_tick fun t => ?_)
    cases t with
    | error e => exact trivial
    | ok _ =>
    exact obeys_persist (.move (.returned hfound rfl rfl hv)) trivial fun _ _ _ => trivial
  · exact trivial

theorem obeys_reconcile (now : Int) :
    (Pool.reconcile pool now).Obeys (Write pool (.reconcile now)) (Stores pool)
      Silent past s := by
  refine obeys_bind (obeys_loaded (fun past₁ state _ => ?_) fun _ _ _ _ => trivial)
  refine obeys_bind (obeys_reconcileSlots (fun past₂ y _ hy => ?_) fun _ _ _ => trivial)
  exact obeys_bind (obeys_persist (.move (.reconciled hy)) trivial fun _ _ _ => trivial)

theorem obeys_allowance (now : Int) :
    (Pool.allowance pool now).Obeys (Write pool (.allowance now)) (Stores pool) Silent past s := by
  refine obeys_bind (obeys_bind fun seen => ?_)
  cases seen with
  | some state => exact trivial
  | none =>
      refine obeys_storeGet fun a => ?_
      cases a <;> exact trivial

theorem obeys_load : (Pool.load pool).Obeys (Write pool .load) (Stores pool) Silent past s :=
  obeys_bind (obeys_loaded (fun _ _ _ => trivial) fun _ _ _ _ => trivial)

/-- A reservation that resolves is its last write, stored. -/
theorem obeys_reserveSlot (merchant : Address) (now amount : Int) :
    (Pool.reserveSlot pool merchant now amount).Obeys
      (Write pool (.reserveSlot merchant now amount)) (Stores pool)
      (fun past' s' x => Ends pool (.reserveSlot merchant now amount) past' s'
        (x.map .reservation)) past s := by
  -- A reservation that is refused promises nothing.
  have herr : ∀ past' s' e, Ends pool (.reserveSlot merchant now amount) past' s'
      (Except.map PoolResult.reservation (.error e)) :=
    fun _ _ _ _ _ _ _ _ h => absurd h (by simp only [Except.map, reduceCtorEq,
      not_false_eq_true])
  refine obeys_bind (obeys_loaded (fun past₁ state _ => ?_) fun _ _ _ _ => herr _ _ _)
  dsimp only
  split
  · exact herr _ _ _
  next hpositive =>
  split
  · exact herr _ _ _
  next hwithin =>
  split
  · next index address held value state' against releasedAt hchosen =>
    -- The checks that were passed are what the move needs.
    have hmove := @Move.reserve pool past₁ state _ _ merchant _ _
      (Int.not_le.mp hpositive) (Int.not_lt.mp hwithin) hchosen rfl
    refine obeys_bind (obeys_persist (.move hmove) ?_ fun _ _ _ => herr _ _ _)
    intro m t a r hop hr
    simp only [PoolOp.reserveSlot.injEq] at hop
    rcases hop with ⟨rfl, rfl, rfl⟩
    simp only [Except.map, Except.ok.injEq, PoolResult.reservation.injEq] at hr
    subst hr
    exact ⟨state, _, past₁, hmove, rfl, rfl, hchosen, rfl, rfl⟩
  · exact herr _ _ _

/-- `close` and `recover` leave no slot known. -/
theorem obeys_emptied (op : PoolOp)
    (hop : (∃ payerKey, op = .close payerKey) ∨ ∃ maxProbe, op = .recover maxProbe) :
    (op.process pool).Obeys (Write pool op) (Stores pool) (Emptied pool) past s := by
  have hmap : ∀ {β : Type} {f : β → PoolResult} {p : PoolM β},
      p.Obeys (Write pool op) (Stores pool) (Emptied pool) past s →
      (f <$> p).Obeys (Write pool op) (Stores pool) (Emptied pool) past s := by
    refine fun hp => obeys_map (obeys_mono (fun _ _ _ h => h) (fun _ _ _ h => h) ?_ hp)
    intro past' s' x hx
    cases x with
    | ok a => exact fun _ _ => hx a rfl
    | error e => exact emptied_error _ _ _
  rcases hop with ⟨payerKey, rfl⟩ | ⟨maxProbe, rfl⟩
  · exact hmap (obeys_close payerKey)
  · exact hmap (obeys_recover maxProbe)

/-- The contract of every operation: it writes only its `Write`s, stores only
    what it wrote, and returns only a reservation it made. -/
theorem op_obeys (pool : PoolConfig) (op : PoolOp) (past : Past) (s : Option PoolState) :
    (op.process pool).Obeys (Write pool op) (Stores pool) (Ends pool op) past s := by
  -- Only `reserveSlot` hands out a reservation, so the other results promise nothing.
  have hsilent : ∀ {β : Type} {f : β → PoolResult} {p : PoolM β}
      {Q : Past → Option PoolState → Except Thrown β → Prop},
      (∀ m t a, op ≠ .reserveSlot m t a) → p.Obeys (Write pool op) (Stores pool) Q past s →
      (f <$> p).Obeys (Write pool op) (Stores pool) (Ends pool op) past s := by
    intro β f p Q hne hp
    refine obeys_map (obeys_mono (fun _ _ _ h => h) (fun _ _ _ h => h) ?_ hp)
    intro past' s' x _
    cases x <;> exact fun m t a r hop _ => absurd hop (hne m t a)
  cases op with
  | create size payerKey => exact hsilent (fun _ _ _ => PoolOp.noConfusion) (obeys_create _ _)
  | reserveSlot merchant now amount =>
      refine obeys_map (obeys_mono (fun _ _ _ h => h) (fun _ _ _ h => h) ?_
        (obeys_reserveSlot merchant now amount))
      intro past' s' x hx
      cases x <;> exact hx
  | allowance now => exact hsilent (fun _ _ _ => PoolOp.noConfusion) (obeys_allowance _)
  | applyNonceReturn payload =>
      exact hsilent (fun _ _ _ => PoolOp.noConfusion) (obeys_applyNonceReturn _)
  | refresh => exact hsilent (fun _ _ _ => PoolOp.noConfusion) (obeys_refresh (.inl rfl))
  | recover maxProbe => exact hsilent (fun _ _ _ => PoolOp.noConfusion) (obeys_recover _)
  | close payerKey => exact hsilent (fun _ _ _ => PoolOp.noConfusion) (obeys_close _)
  | reconcile now => exact hsilent (fun _ _ _ => PoolOp.noConfusion) (obeys_reconcile _)
  | load => exact hsilent (fun _ _ _ => PoolOp.noConfusion) obeys_load

end Vadum
