import Vadum.Async.History
import Vadum.Theory.Contract

/-!
# Runs of a Pool

A pool used one operation at a time, over a store that outlives it. Between
two operations, or in the middle of one, the app may be closed: the object is
lost and the next one starts from what the store holds.

A ledger exists twice, in memory and in the store, and storage may refuse a
write, so the two can differ. What a run keeps is therefore said of a ledger,
and of each of the two: `Kept` lists what it has to survive, and
`command_kept` concludes that every command keeps it. The property may look at
the network, and at what the network has said in the operation under way. An
absent ledger has a meaning in the store, where it says that none was ever
written, and none in memory.

## Main definitions

* `PoolSys`, `PoolCommand`, `poolStep`: The runs of a pool.
* `made`: The reservation an event returned.
* `Kept`: What a property of ledgers has to survive during an operation.
* `Made`: What a reservation leaves behind.

## Theorems

* `Move.of_reserveSlot`: A reservation's move is a reservation.
* `op_kept`: An operation keeps what is kept, and a reservation it returns was
  made from a ledger that had it.
* `command_kept`: Every command keeps it.
* `command_later`: Every command moves the network on.
-/

namespace Vadum

open Async (Act Event history final)
open Async.Process

/-- A pool object and the world it runs in. -/
structure PoolSys (ρ : Type) where
  current : Option PoolState
  world : World ρ

/-- The ledger in the store. -/
def PoolSys.stored {ρ : Type} (pool : PoolConfig) (sys : PoolSys ρ) : Option PoolState :=
  sys.world.store.lookup (.pool pool.payer)

inductive PoolCommand where
  | call (op : PoolOp)
  /-- The object is created again over the same store. -/
  | reopen
  /-- The app dies once the operation has made its first requests, and the
      object is created again. -/
  | crash (op : PoolOp) (requests : Nat)
deriving DecidableEq

variable {ρ : Type}

def poolStep (network : Network ρ) (pool : PoolConfig) :
    PoolCommand → PoolSys ρ → Option (Except Thrown PoolResult) × PoolSys ρ
  | .call op, sys =>
    let outcome := run (reply network) (op.process pool) sys.current sys.world
    (some outcome.result, ⟨outcome.vars, outcome.world⟩)
  | .reopen, sys => (none, { sys with current := none })
  | .crash op n, sys =>
    (none, ⟨none, interrupt (reply network) (op.process pool) n sys.current sys.world⟩)

abbrev PoolEvent (ρ : Type) : Type :=
  Event PoolCommand (Option (Except Thrown PoolResult)) (PoolSys ρ)

/-- What happens in a run of a pool. -/
abbrev poolHistory (network : Network ρ) (pool : PoolConfig) (sys : PoolSys ρ)
    (commands : List PoolCommand) : List (PoolEvent ρ) :=
  history (poolStep network pool) sys commands

/-- A pool that has never been used over the given world. -/
def PoolSys.Fresh (pool : PoolConfig) (sys : PoolSys ρ) : Prop :=
  sys.current = none ∧ sys.stored pool = none

/-- A `reserveSlot` that resolved: what it was asked and what it returned. -/
structure MadeReservation where
  merchant : Address
  now : Int
  amount : Int
  reservation : Reservation
deriving DecidableEq

/-- The reservation an event returned, if it is one. -/
def made (e : PoolEvent ρ) : Option MadeReservation :=
  match e.op, e.result with
  | .call (.reserveSlot merchant now amount), some (.ok (.reservation r)) =>
    some ⟨merchant, now, amount, r⟩
  | _, _ => none

/-- A reservation is made by the `reserveSlot` that returns it. -/
theorem made_eq {e : PoolEvent ρ} {m : MadeReservation} (h : made e = some m) :
    e.op = .call (.reserveSlot m.merchant m.now m.amount) ∧
      e.result = some (.ok (.reservation m.reservation)) := by
  rcases e with ⟨command, before, result, after⟩
  simp only [made] at h
  split at h
  · rw [← Option.some.inj h]
    exact ⟨rfl, rfl⟩
  · exact absurd h (by simp only [reduceCtorEq, not_false_eq_true])

/-- The operation a command runs. -/
def PoolCommand.op : PoolCommand → Option PoolOp
  | .call op => some op
  | .reopen => none
  | .crash op _ => some op

/-- What two properties of ledgers, `M` of the one in memory and `K` of the one
    in the store, have to survive while an operation runs from `sys`: the
    network moving on, storing, loading when nothing is in memory, and each of
    the operation's writes. A move is justified by what the network has said
    since the moment `m` the ledger was last written; a new ledger by all it has
    said. -/
structure Kept (network : Network ρ) (pool : PoolConfig) (op : PoolOp) (sys : PoolSys ρ)
    (M K : ρ → Option PoolState → Prop) : Prop where
  memory : ∀ n n' ledger, Steps network n n' → M n ledger → M n' ledger
  store : ∀ n n' ledger, Steps network n n' → K n ledger → K n' ledger
  persist : ∀ n ledger, M n ledger → K n ledger
  load : ∀ n ledger, sys.current = none → K n ledger → M n ledger
  move : ∀ m n past state state', Later network sys.world.net m → Later network m n →
    (∀ c a, Heard past c a → Since network m n c a) → M m (some state) →
    Move pool past op state state' → M n (some state')
  new : ∀ n past seen state, Later network sys.world.net n →
    (∀ c a, Answered past c a → Since network sys.world.net n c a) →
    (∀ stored, ReadStore pool past stored → K n stored) →
    (∀ state, seen = some state → M n seen) →
    NewLedger pool past op seen state → M n (some state)

/-- What a reservation leaves behind: it was made from a ledger `K` held of,
    whose chosen slot it spends, and the ledger it made is in memory and in the
    store. -/
structure Made (pool : PoolConfig) (K : Option PoolState → Prop) (m : MadeReservation)
    (sys : PoolSys ρ) (state : PoolState) (slot : PoolSlot) : Prop where
  kept : K (some state)
  positive : 0 < m.amount
  within : m.amount ≤ (Pool.allowanceOf pool (some state) m.now).remaining
  chosen : Pool.chooseSlot state = some slot
  known : slot.value = some m.reservation.value
  index : slot.index = m.reservation.index
  current : sys.current
    = some (reserved pool state slot m.reservation.value m.merchant m.now m.amount)
  stored : sys.stored pool
    = some (reserved pool state slot m.reservation.value m.merchant m.now m.amount)

/-- `reserveSlot` moves the ledger by reserving from it. -/
theorem Move.of_reserveSlot {pool : PoolConfig} {past : Past} {merchant : Address}
    {now amount : Int} {state state' : PoolState}
    (h : Move pool past (.reserveSlot merchant now amount) state state') :
    ∃ slot value, 0 < amount ∧ amount ≤ (Pool.allowanceOf pool (some state) now).remaining ∧
      Pool.chooseSlot state = some slot ∧ slot.value = some value ∧
      state' = reserved pool state slot value merchant now amount := by
  cases h with
  | reserve positive within chosen known => exact ⟨_, _, positive, within, chosen, known, rfl⟩
  | reread online => exact absurd online (by simp only [reduceCtorEq, exists_false, or_self,
      not_false_eq_true])

/-- Only a store write changes the store, and it writes what it was given. -/
theorem reply_store (network : Network ρ) (r : Req) (w : World ρ) :
    (reply network r w).2.store = w.store ∧ (∀ k v, r ≠ .storeSet k v) ∨
      ∃ k v, r = .storeSet k v ∧
        ((reply network r w).2.store = w.store ∧ (∀ a, (reply network r w).1 ≠ .ok a) ∨
          (reply network r w).2.store = w.store.insert k v) := by
  cases r with
  | storeSet k v =>
      refine .inr ⟨k, v, rfl, ?_⟩
      simp only [reply]
      rcases network.storage w.net with ⟨_ | e, net⟩
      · exact .inr rfl
      · exact .inl ⟨rfl, fun _ h => absurd h (by simp only [reduceCtorEq, not_false_eq_true])⟩
  | storeGet k =>
      refine .inl ⟨?_, fun _ _ h => Req.noConfusion h⟩
      simp only [reply]
      rcases network.storage w.net with ⟨_ | e, net⟩ <;> rfl
  | storeKeys p =>
      refine .inl ⟨?_, fun _ _ h => Req.noConfusion h⟩
      simp only [reply]
      rcases network.storage w.net with ⟨_ | e, net⟩ <;> rfl
  | tick => exact .inl ⟨rfl, fun _ _ h => Req.noConfusion h⟩
  | rpc c => exact .inl ⟨rfl, fun _ _ h => Req.noConfusion h⟩
  | sign key message => exact .inl ⟨rfl, fun _ _ h => Req.noConfusion h⟩
  | now => exact .inl ⟨rfl, fun _ _ h => Req.noConfusion h⟩
  | randomUUID => exact .inl ⟨rfl, fun _ _ h => Req.noConfusion h⟩

/-- A ledger read from the store is the one in it. -/
theorem reply_read {network : Network ρ} {w : World ρ} {k : StoreKey} {a : Option k.Value}
    (h : (reply network (.storeGet k) w).1 = .ok a) : a = w.store.lookup k := by
  simp only [reply] at h
  rcases hs : network.storage w.net with ⟨_ | e, net⟩ <;> rw [hs] at h
  · exact (Except.ok.inj h).symm
  · exact absurd h (by simp only [reduceCtorEq, not_false_eq_true])

/-- What was heard after one more act is that act or was heard before it. -/
theorem heard_snoc {past : Past} {act : Act client (Option PoolState) Thrown} {c : Call}
    {a : c.Answer} (h : Heard (past ++ [act]) c a) :
    act = .asked (I := client) (Req.rpc c) (.ok a) ∨
      Heard past c a ∧ ∀ seen new, act ≠ .wrote seen new := by
  rcases h with ⟨earlier, later, heq, hlater⟩
  rcases Async.snoc_split heq with ⟨_, hact, _⟩ | ⟨rest, rfl, rfl⟩
  · exact .inl hact
  · refine .inr ⟨⟨earlier, rest, rfl, fun seen new h => ?_⟩, fun seen new h => ?_⟩
    · exact hlater seen new (List.mem_append_left _ h)
    · exact hlater seen new (List.mem_append_right _ (List.mem_singleton.mpr h.symm))

/-- What has been read from the store was read before the last request, or is there. -/
theorem read_snoc {network : Network ρ} {past : Past} {r : Req} {w : World ρ}
    {stored : Option PoolState}
    (h : ReadStore pool (past ++ [.asked (I := client) r (reply network r w).1]) stored) :
    ReadStore pool past stored ∨ stored = w.store.lookup (.pool pool.payer) := by
  rcases List.mem_append.mp h with h | h
  · exact .inl h
  · rcases Act.asked.inj (List.mem_singleton.mp h) with ⟨rfl, ha⟩
    exact .inr (reply_read (eq_of_heq ha).symm)

/-- What the network has answered it answered before the last request, or then. -/
theorem answered_snoc {network : Network ρ} {past : Past} {r : Req} {w : World ρ} {c : Call}
    {a : c.Answer}
    (h : Answered (past ++ [.asked (I := client) r (reply network r w).1]) c a) :
    Answered past c a ∨ r = .rpc c ∧ (network.rpc c w.net).1 = .ok a := by
  rcases List.mem_append.mp h with h | h
  · exact .inl h
  · rcases Act.asked.inj (List.mem_singleton.mp h) with ⟨rfl, ha⟩
    exact .inr ⟨rfl, (eq_of_heq ha).symm⟩

/-- A request of an operation leaves the stored ledger, or stores the one in memory. -/
theorem stored_reply (network : Network ρ) {past : Past} {s : Option PoolState} {r : Req}
    (hr : Stores pool past s r) (w : World ρ) :
    (reply network r w).2.store.lookup (.pool pool.payer) = w.store.lookup (.pool pool.payer) ∨
      ∃ state, s = some state ∧
        (reply network r w).2.store.lookup (.pool pool.payer) = some state := by
  rcases reply_store network r w with ⟨heq, _⟩ | ⟨k, v, rfl, ⟨heq, _⟩ | heq⟩
  · exact .inl (by rw [heq])
  · exact .inl (by rw [heq])
  · rcases hr k v rfl with ⟨state, _, _, rfl, hreq, _⟩
    rcases Req.storeSet.inj hreq with ⟨rfl, hv⟩
    exact .inr ⟨state, rfl, by rw [heq, eq_of_heq hv, AList.lookup_insert]⟩

/-- What holds while an operation runs from `sys`: `M` of the ledgers in memory
    and written over, `K` of those in the store and read from it; what the
    network has said, it has said since the start, and what was heard, since the
    moment `m` of the last write; memory is not lost; and a ledger just stored
    is in the store. -/
structure During (network : Network ρ) (pool : PoolConfig) (sys : PoolSys ρ)
    (M K : ρ → Option PoolState → Prop) (past : Past) (s : Option PoolState) (w : World ρ) :
    Prop where
  started : Later network sys.world.net w.net
  memory : ∃ m, Later network sys.world.net m ∧ Later network m w.net ∧
    (∀ state, s = some state → M m s) ∧ ∀ c a, Heard past c a → Since network m w.net c a
  held : s = none → sys.current = none
  store : K w.net (w.store.lookup (.pool pool.payer))
  told : ∀ c a, Answered past c a → Since network sys.world.net w.net c a
  read : ∀ stored, ReadStore pool past stored → K w.net stored
  wrote : ∀ state new, Act.wrote (some state) new ∈ past → M w.net (some state)
  stored : ∀ state, past.getLast? = some (.asked (I := client)
    (Req.storeSet (.pool pool.payer) state) (.ok ())) →
    w.store.lookup (.pool pool.payer) = some state

/-- `M` and `K` hold of the ledgers a pool has. -/
structure Ledgers (pool : PoolConfig) (M K : ρ → Option PoolState → Prop) (sys : PoolSys ρ) :
    Prop where
  memory : ∀ state, sys.current = some state → M sys.world.net sys.current
  store : K sys.world.net (sys.stored pool)

/-- What holds of the ledger a reservation made holds of both. -/
theorem Made.ledgers {pool : PoolConfig} {K : Option PoolState → Prop}
    {M : ρ → Option PoolState → Prop} {m : MadeReservation} {sys : PoolSys ρ} {state : PoolState}
    {slot : PoolSlot} (hm : Made pool K m sys state slot)
    (h : M sys.world.net
      (some (reserved pool state slot m.reservation.value m.merchant m.now m.amount))) :
    Ledgers pool M M sys :=
  ⟨fun _ _ => hm.current ▸ h, hm.stored ▸ h⟩

section Op

variable {network : Network ρ} {pool : PoolConfig} {op : PoolOp} {sys : PoolSys ρ}
  {M K : ρ → Option PoolState → Prop}

theorem Kept.memory_later (h : Kept network pool op sys M K) {n n' : ρ}
    {ledger : Option PoolState} (hl : Later network n n') (hk : M n ledger) : M n' ledger := by
  induction hl with
  | refl => exact hk
  | tail _ hstep ih => exact h.memory _ _ _ hstep ih

theorem Kept.store_reply (h : Kept network pool op sys M K) (r : Req) (w : World ρ)
    {ledger : Option PoolState} (hk : K w.net ledger) : K (reply network r w).2.net ledger :=
  h.store _ _ _ ⟨r, w, rfl, rfl⟩ hk

theorem During.init (hs : Ledgers pool M K sys) :
    During network pool sys M K [] sys.current sys.world where
  started := .refl
  memory := ⟨sys.world.net, .refl, .refl, hs.memory, fun _ _ ⟨_, _, h, _⟩ => absurd h (by
    simp only [List.nil_eq, List.append_eq_nil_iff, reduceCtorEq, and_false, not_false_eq_true])⟩
  held := id
  store := hs.store
  told := fun _ _ h => absurd h List.not_mem_nil
  read := fun _ h => absurd h List.not_mem_nil
  wrote := fun _ _ h => absurd h List.not_mem_nil
  stored := fun _ h => absurd h (by simp only [List.getLast?_nil, reduceCtorEq, not_false_eq_true])

theorem During.put (h : Kept network pool op sys M K) {past : Past} {s s' : Option PoolState}
    {w : World ρ} (hd : During network pool sys M K past s w) (hw : Write pool op past s s') :
    During network pool sys M K (past ++ [.wrote s s']) s' w where
  started := hd.started
  memory := by
    refine ⟨w.net, hd.started, .refl, fun state _ => ?_, fun c a ha => ?_⟩
    · rcases hd.memory with ⟨m, hstart, hm, hk, hheard⟩
      cases hw with
      | load hr => exact h.load _ _ (hd.held rfl) (hd.read _ hr)
      -- A move is of what memory holds, so it was true then and is kept.
      | move hmove => exact h.move _ _ _ _ _ hstart hm hheard (hk _ rfl) hmove
      | new hn =>
          exact h.new _ _ _ _ hd.started hd.told hd.read
            (fun prior hprior => h.memory_later hm (hk prior hprior)) hn
    · rcases heard_snoc ha with ha | ⟨_, hne⟩
      · exact absurd ha (by simp only [reduceCtorEq, not_false_eq_true])
      · exact absurd rfl (hne s s')
  held := fun hs => by
    cases hw with
    | load _ => exact hd.held rfl
    | move _ => cases hs
    | new _ => cases hs
  store := hd.store
  told := fun c a ha => by
    rcases List.mem_append.mp ha with ha | ha
    · exact hd.told c a ha
    · exact absurd (List.mem_singleton.mp ha) (by simp only [reduceCtorEq, not_false_eq_true])
  read := fun stored hr => by
    rcases List.mem_append.mp hr with hr | hr
    · exact hd.read stored hr
    · exact absurd (List.mem_singleton.mp hr) (by simp only [reduceCtorEq, not_false_eq_true])
  wrote := fun state new hmem => by
    rcases List.mem_append.mp hmem with hmem | hmem
    · exact hd.wrote state new hmem
    · have hseen := (Act.wrote.inj (List.mem_singleton.mp hmem)).1
      rcases hd.memory with ⟨m, _, hm, hk, _⟩
      rw [hseen]
      exact h.memory_later hm (hk state hseen.symm)
  stored := fun _ hl => absurd hl (by
    simp only [List.getLast?_append, List.getLast?_singleton, Option.some_or, Option.some.injEq,
      reduceCtorEq, not_false_eq_true])

/-- An answer is given between the moments before it and after it. -/
theorem since_reply {r : Req} {w : World ρ} {c : Call} {a : c.Answer}
    (h : Act.asked (I := client) (σ := Option PoolState) r (reply network r w).1
      = .asked (I := client) (Req.rpc c) (.ok a)) :
    Since network w.net (reply network r w).2.net c a := by
  rcases Act.asked.inj h with ⟨rfl, ha⟩
  exact ⟨w.net, _, .refl, Prod.ext (eq_of_heq ha) rfl, .refl⟩

theorem During.ask (h : Kept network pool op sys M K) {past : Past} {s : Option PoolState}
    {w : World ρ} {r : Req} (hd : During network pool sys M K past s w)
    (hr : Stores pool past s r) :
    During network pool sys M K (past ++ [.asked (I := client) r (reply network r w).1]) s
      (reply network r w).2 where
  started := hd.started.trans (later_reply network r w)
  memory := by
    rcases hd.memory with ⟨m, hstart, hm, hk, hheard⟩
    refine ⟨m, hstart, hm.trans (later_reply network r w), hk, fun c a ha => ?_⟩
    rcases heard_snoc ha with ha | ⟨ha, _⟩
    · exact (since_reply ha).earlier hm
    · exact (hheard c a ha).later (later_reply network r w)
  held := hd.held
  store := by
    -- The one request that changes the store writes what memory holds.
    rcases stored_reply network hr w with heq | ⟨state, rfl, heq⟩
    · rw [heq]
      exact h.store_reply r w hd.store
    · rcases hd.memory with ⟨m, _, hm, hk, _⟩
      rw [heq]
      exact h.store_reply _ w (h.persist _ _ (h.memory_later hm (hk state rfl)))
  told := fun c a ha => by
    rcases List.mem_append.mp ha with ha | ha
    · exact (hd.told c a ha).later (later_reply network r w)
    · exact (since_reply (List.mem_singleton.mp ha).symm).earlier hd.started
  read := fun stored hread => by
    rcases read_snoc hread with hread | rfl
    · exact h.store_reply r w (hd.read stored hread)
    · exact h.store_reply _ w hd.store
  wrote := fun state new hmem => by
    rcases List.mem_append.mp hmem with hmem | hmem
    · exact h.memory _ _ _ ⟨r, w, rfl, rfl⟩ (hd.wrote state new hmem)
    · exact absurd (List.mem_singleton.mp hmem) (by simp only [reduceCtorEq, not_false_eq_true])
  stored := fun state hl => by
    simp only [List.getLast?_append, List.getLast?_singleton, Option.some_or,
      Option.some.injEq] at hl
    rcases Act.asked.inj hl with ⟨rfl, ha⟩
    rcases reply_store network (.storeSet (.pool pool.payer) state) w with
      ⟨_, hne⟩ | ⟨k, v, hreq, ⟨_, hfail⟩ | heq⟩
    · exact absurd rfl (hne _ _)
    · exact absurd (eq_of_heq ha) (hfail ())
    · rcases Req.storeSet.inj hreq with ⟨rfl, hv⟩
      rw [heq, ← eq_of_heq hv, AList.lookup_insert]

/-- An operation keeps what is kept, and a reservation it returns was made
    from a ledger that had it. -/
theorem op_kept (h : Kept network pool op sys M K) (hs : Ledgers pool M K sys) :
    Ledgers pool M K (poolStep network pool (.call op) sys).2 ∧
      ∀ m, made (Async.eventAt (poolStep network pool) (.call op) sys) = some m →
        ∃ state slot, Made pool (M (poolStep network pool (.call op) sys).2.world.net) m
          (poolStep network pool (.call op) sys).2 state slot := by
  rcases obeys_run (reply network) (During network pool sys M K)
    (fun _ _ _ _ hd hput => hd.put h hput) (fun _ _ _ _ hd hask => hd.ask h hask)
    (op_obeys pool op [] sys.current) (.init hs) with ⟨past, hd, hend⟩
  refine ⟨⟨fun state hs => ?_, hd.store⟩, fun m hm => ?_⟩
  · rcases hd.memory with ⟨_, _, hm, hk, _⟩
    exact h.memory_later hm (hk state hs)
  rcases made_eq hm with ⟨hop, hres⟩
  have hop : op = .reserveSlot m.merchant m.now m.amount := PoolCommand.call.inj hop
  rcases hend _ _ _ m.reservation hop (Option.some.inj hres) with
    ⟨state, slot, earlier, hmove, hindex, hknown, hchosen, hseen, hpast⟩
  -- The reservation that was handed out is a move the checks allowed.
  rw [hop] at hmove
  rcases hmove.of_reserveSlot with ⟨_, _, hpositive, hwithin, _⟩
  refine ⟨state, slot, ?_, hpositive, hwithin, hchosen, hknown, hindex, hseen, hd.stored _ ?_⟩
  · refine hd.wrote _ (run (reply network) (op.process pool) sys.current sys.world).vars ?_
    rw [hpast]
    exact List.mem_append_right _ List.mem_cons_self
  · rw [hpast]
    simp only [List.getLast?_append, List.getLast?_cons_cons, List.getLast?_singleton,
      Option.some_or]

/-- Every command keeps what its operation keeps. -/
theorem command_kept {command : PoolCommand}
    (h : ∀ op, command.op = some op → Kept network pool op sys M K)
    (hs : Ledgers pool M K sys) : Ledgers pool M K (poolStep network pool command sys).2 := by
  cases command with
  | call op => exact (op_kept (h op rfl) hs).1
  | reopen => exact ⟨fun _ hstate => absurd hstate (by
      simp only [poolStep, reduceCtorEq, not_false_eq_true]), hs.store⟩
  | crash op n =>
      rcases obeys_interrupt (reply network) (During network pool sys M K)
        (fun _ _ _ _ hd hput => hd.put (h op rfl) hput)
        (fun _ _ _ _ hd hask => hd.ask (h op rfl) hask)
        (op_obeys pool op [] sys.current) (n := n) (.init hs) with ⟨past, s', hd⟩
      exact ⟨fun _ hstate => absurd hstate (by
        simp only [poolStep, reduceCtorEq, not_false_eq_true]), hd.store⟩

/-- A command moves the network on. -/
theorem command_later (network : Network ρ) (pool : PoolConfig) (command : PoolCommand)
    (sys : PoolSys ρ) :
    Later network sys.world.net (poolStep network pool command sys).2.world.net := by
  cases command with
  | call op => exact run_later network (op.process pool) sys.current sys.world
  | reopen => exact .refl
  | crash op n =>
      exact (interrupt_reaches (reply network) (op.process pool) n sys.current sys.world).lift
        World.net fun w _ ⟨r, h⟩ => ⟨r, w, rfl, h ▸ rfl⟩

end Op

end Vadum
