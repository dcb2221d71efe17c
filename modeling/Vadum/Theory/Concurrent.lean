import Vadum.Async.Interleave
import Vadum.Theory.HandOut
import Vadum.Theory.Shows

/-!
# Calls at the Same Time

What holds of a pool on which several calls are started before the first has
finished. Every operation reads the ledger, waits, and writes a whole ledger
back. Nothing keeps another call from writing in between, so two calls of
`reserveSlot` can spend the same slot, and a `refresh` can undo a reservation:
`double_reservation` is a schedule with two calls made at once.

`concurrent_reservations` says when this does not happen. A write has to find
in memory the ledger its call has last seen there, and the store has to take
ledgers in the order they were written. Then the ledger in memory shows every
reservation, each ledger on its way to the store shows those made up to its own
write, and the one in the store those up to the last write it took.

## Main definitions

* `poolCalls`: Calls that are started on one pool.
* `Sees`, `InOrder`: The conditions on a schedule.
* `Upcoming`: What the ledgers on their way to the store show.
* `Shown`: The invariant.
* `Reserves`, `resolved`: What the calls that resolved have reserved.

## Theorems

* `shown_survives`: The invariant survives writes, requests and answers.
* `concurrent_reservations`: No reservation is lost or made twice.
* `double_reservation`: A schedule that makes one twice.
-/

namespace Vadum

open Async (Act Choice Orderly System pastOf)

variable {ρ : Type}

/-- The calls that are started on one pool, none of them begun. -/
def poolCalls (pool : PoolConfig) (sys : PoolSys ρ) (ops : List PoolOp) :
    System client (Option PoolState) Thrown (World ρ) PoolResult :=
  System.start sys.current sys.world (ops.map fun op => op.process pool)

/-- A write finds in memory the ledger its call has last seen there, or it is a
    first load and changes nothing. -/
def Sees (seen current new : Option PoolState) : Prop :=
  seen = current ∨ seen = none ∧ new = current

instance : ∀ seen current new, Decidable (Sees seen current new) :=
  fun _ _ _ => inferInstanceAs (Decidable (_ ∨ _))

def Req.isStoreSet : Req → Bool
  | .storeSet _ _ => true
  | _ => false

/-- A ledger is stored only when all written before it have been. -/
def InOrder (earlier : List (Nat × Req)) (r : Req) : Prop :=
  r.isStoreSet → ∀ entry ∈ earlier, entry.2.isStoreSet = false

instance : ∀ earlier r, Decidable (InOrder earlier r) :=
  fun _ _ => inferInstanceAs (Decidable (_ → _))

section Invariant

variable {ops : List PoolOp} {pool : PoolConfig} {log : PoolLog}

/-- The ledgers on their way to the store, from what the store has on: each
    shows the log up to its own write, and those writes come in order. -/
inductive Upcoming (ops : List PoolOp) (pool : PoolConfig) (log : PoolLog) :
    PoolLog → List (Nat × Req) → Prop
  | nil {upTo : PoolLog} (h : upTo <+: log) : Upcoming ops pool log upTo []
  | other {upTo : PoolLog} {t : Nat} {r : Req} {queue : List (Nat × Req)}
      (h : r.isStoreSet = false) (rest : Upcoming ops pool log upTo queue) :
      Upcoming ops pool log upTo ((t, r) :: queue)
  | store {upTo upTo' : PoolLog} {t : Nat} {state : PoolState} {queue : List (Nat × Req)}
      (later : upTo <+: upTo') (shows : Shows ops pool upTo' (some state))
      (own : ∀ earlier x y, earlier ++ [(t, .wrote x y)] <+: log →
        earlier ++ [(t, .wrote x y)] <+: upTo')
      (rest : Upcoming ops pool log upTo' queue) :
      Upcoming ops pool log upTo ((t, .storeSet (.pool pool.payer) state) :: queue)

theorem Upcoming.initial {upTo upTo' : PoolLog} {queue : List (Nat × Req)}
    (h : Upcoming ops pool log upTo queue) (hle : upTo' <+: upTo) :
    Upcoming ops pool log upTo' queue := by
  induction h with
  | nil h => exact .nil (hle.trans h)
  | other h _ ih => exact .other h (ih hle)
  | store later shows own rest _ => exact .store (hle.trans later) shows own rest

theorem Upcoming.isPrefix {upTo : PoolLog} {queue : List (Nat × Req)}
    (h : Upcoming ops pool log upTo queue) : upTo <+: log := by
  induction h with
  | nil h => exact h
  | other _ _ ih => exact ih
  | store later _ _ _ ih => exact later.trans ih

/-- The log grows by something those who wait have not written. -/
theorem Upcoming.grow {upTo : PoolLog} {queue : List (Nat × Req)} {t : Nat}
    {act : Act client (Option PoolState) Thrown} (h : Upcoming ops pool log upTo queue)
    (hown : (∃ r a, act = .asked r a) ∨ ∀ r, (t, r) ∉ queue) :
    Upcoming ops pool (log ++ [(t, act)]) upTo queue := by
  have hlog : log <+: log ++ [(t, act)] := List.prefix_append _ _
  induction h with
  | nil h => exact .nil (h.trans hlog)
  | other h _ ih =>
      exact .other h (ih (hown.imp_right fun hnot r hr => hnot r (List.mem_cons_of_mem _ hr)))
  | @store upTo upTo' t' state queue later shows own _ ih =>
      refine .store later shows (fun earlier x y hpre => own earlier x y ?_)
        (ih (hown.imp_right fun hnot r hr => hnot r (List.mem_cons_of_mem _ hr)))
      rcases List.prefix_concat_iff.mp hpre with heq | hpre
      · have hlast := List.head_eq_of_cons_eq (List.append_inj' heq rfl).2
        rcases hown with ⟨r, a, rfl⟩ | hnot
        · cases (Prod.mk.inj hlast).2
        · rw [(Prod.mk.inj hlast).1] at hnot
          exact absurd List.mem_cons_self (hnot _)
      · exact hpre

/-- One more ledger is on its way. -/
theorem Upcoming.concat {upTo : PoolLog} {queue : List (Nat × Req)} {t : Nat} {r : Req}
    (h : Upcoming ops pool log upTo queue)
    (hr : r.isStoreSet = false ∨ ∃ state, r = .storeSet (.pool pool.payer) state ∧
      Shows ops pool log (some state)) :
    Upcoming ops pool log upTo (queue ++ [(t, r)]) := by
  induction h with
  | nil h =>
      rcases hr with hr | ⟨state, rfl, hshows⟩
      · exact .other hr (.nil h)
      · exact .store h hshows (fun _ _ _ hpre => hpre) (.nil (List.prefix_refl _))
  | other h _ ih => exact .other h ih
  | store later shows own _ ih => exact .store later shows own ih

/-- A request that stores nothing is served. -/
theorem Upcoming.remove {upTo : PoolLog} {earlier later : List (Nat × Req)} {t : Nat} {r : Req}
    (h : Upcoming ops pool log upTo (earlier ++ (t, r) :: later)) (hr : r.isStoreSet = false) :
    Upcoming ops pool log upTo (earlier ++ later) := by
  induction earlier generalizing upTo with
  | nil =>
      cases h with
      | other _ rest => exact rest
      | store => cases hr
  | cons entry earlier ih =>
      cases h with
      | other h rest => exact .other h (ih rest)
      | store hle shows own rest => exact .store hle shows own (ih rest)

/-- The next ledger to be stored is served. -/
theorem Upcoming.serve {upTo : PoolLog} {earlier later : List (Nat × Req)} {t : Nat}
    {k : StoreKey} {v : k.Value}
    (h : Upcoming ops pool log upTo (earlier ++ (t, .storeSet k v) :: later))
    (hfirst : ∀ entry ∈ earlier, entry.2.isStoreSet = false) :
    ∃ upTo' state, Req.storeSet k v = .storeSet (.pool pool.payer) state ∧ upTo <+: upTo' ∧
      Shows ops pool upTo' (some state) ∧
      (∀ before x y, before ++ [(t, .wrote x y)] <+: log →
        before ++ [(t, .wrote x y)] <+: upTo') ∧
      Upcoming ops pool log upTo' (earlier ++ later) := by
  induction earlier with
  | nil =>
      cases h with
      | other h _ => cases h
      | store hle shows own rest => exact ⟨_, _, rfl, hle, shows, own, rest⟩
  | cons entry earlier ih =>
      have hentry := hfirst entry List.mem_cons_self
      cases h with
      | other h rest =>
          rcases ih rest (fun e he => hfirst e (List.mem_cons_of_mem _ he)) with
            ⟨upTo', state, heq, hle, hshows, hown, hrest⟩
          exact ⟨upTo', state, heq, hle, hshows, hown, .other h hrest⟩
      | store => cases hentry

/-- The store shows the log up to some write, and has taken every ledger up to
    there whose writing was acknowledged. -/
structure StoreShows (ops : List PoolOp) (pool : PoolConfig) (log upTo : PoolLog)
    (stored : Option PoolState) (queue : List (Nat × Req)) : Prop where
  shows : Shows ops pool upTo stored
  upcoming : Upcoming ops pool log upTo queue
  taken : ∀ earlier t k v before x y,
    earlier ++ [(t, .asked (I := client) (Req.storeSet k v) (.ok ()))] <+: log →
    before ++ [(t, .wrote x y)] <+: earlier → before ++ [(t, .wrote x y)] <+: upTo

/-- The invariant of calls made at the same time: the ledger in memory shows
    everything, the one in the store what it has taken, and every write showed
    what came before it. -/
structure Shown (ops : List PoolOp) (pool : PoolConfig) (log : PoolLog)
    (ledger : Option PoolState) (world : World ρ) (queue : List (Nat × Req)) : Prop where
  memory : Shows ops pool log ledger
  unread : ledger = none → ∀ t x y, (t, .wrote x y) ∈ log → x = none
  before : ∀ earlier t x y later, log = earlier ++ (t, .wrote (some x) y) :: later →
    Shows ops pool earlier (some x)
  store : ∃ upTo, StoreShows ops pool log upTo (world.store.lookup (.pool pool.payer)) queue

/-- A write by a call that waits for nothing leaves what the store shows. -/
theorem StoreShows.write {upTo : PoolLog} {stored : Option PoolState} {queue : List (Nat × Req)}
    (h : StoreShows ops pool log upTo stored queue) {t : Nat} (hqueue : ∀ r, (t, r) ∉ queue)
    (x y : Option PoolState) :
    StoreShows ops pool (log ++ [(t, .wrote x y)]) upTo stored queue where
  shows := h.shows
  upcoming := h.upcoming.grow (.inr hqueue)
  taken := fun earlier t' k v before x' y' hpre => by
    rcases List.prefix_concat_iff.mp hpre with heq | hpre
    · cases (Prod.mk.inj (List.head_eq_of_cons_eq (List.append_inj' heq rfl).2)).2
    · exact h.taken earlier t' k v before x' y' hpre

variable {network : Network ρ} {ledger : Option PoolState} {world : World ρ}
  {queue : List (Nat × Req)}

/-- A write that has seen what is in memory keeps the invariant. -/
theorem Shown.write (h : Shown ops pool log ledger world queue) {t : Nat} {op : PoolOp}
    {past : Past} {seen new : Option PoolState} (hqueue : ∀ r, (t, r) ∉ queue)
    (hop : ops[t]? = some op) (honce : AtOnce op) (hwindow : SameWindow pool ops)
    (hwrite : Write pool op past seen new) (hsees : Sees seen ledger new) :
    Shown ops pool (log ++ [(t, .wrote seen new)]) new world queue := by
  have hstore : ∃ upTo, StoreShows ops pool (log ++ [(t, .wrote seen new)]) upTo
      (world.store.lookup (.pool pool.payer)) queue :=
    h.store.imp fun _ hs => hs.write hqueue _ _
  cases hwrite with
  | load hread =>
      have hbefore : ∀ earlier t' x y later, log ++ [(t, .wrote none new)]
          = earlier ++ (t', .wrote (some x) y) :: later → Shows ops pool earlier (some x) := by
        intro earlier t' x y later heq
        rcases Async.snoc_split heq with ⟨_, hact, _⟩ | ⟨rest, _, hlog⟩
        · cases (Act.wrote.inj (Prod.mk.inj hact).2).1
        · exact h.before _ _ _ _ _ hlog
      -- Either nothing has been read yet, or what is there already is read again.
      by_cases hledger : ledger = none
      · have hloads : ∀ t' x y, (t', Act.wrote x y) ∈ log ++ [(t, .wrote none new)] → x = none := by
          intro t' x y hmem
          rcases List.mem_append.mp hmem with hmem | hmem
          · exact h.unread hledger t' x y hmem
          · exact (Act.wrote.inj (Prod.mk.inj (List.mem_singleton.mp hmem)).2).1
        exact ⟨shows_of_loads hloads new, fun _ => hloads, hbefore, hstore⟩
      · have hnew : new = ledger := by
          rcases hsees with hnone | ⟨_, heq⟩
          · exact absurd hnone.symm hledger
          · exact heq
        rw [hnew] at hbefore hstore ⊢
        exact ⟨h.memory.load t ledger, fun hnone => absurd hnone hledger, hbefore, hstore⟩
  | @move state state' hmove =>
      have hledger : ledger = some state := by
        rcases hsees with heq | ⟨hnone, _⟩
        · exact heq.symm
        · cases hnone
      have hmemory := h.memory
      rw [hledger] at hmemory
      refine ⟨shows_write hop honce hwindow hmove hmemory, fun hnone => (by cases hnone),
        fun earlier t' x y later heq => ?_, hstore⟩
      rcases Async.snoc_split heq with ⟨rfl, hact, _⟩ | ⟨rest, _, hlog⟩
      · rw [← (Act.wrote.inj (Prod.mk.inj hact).2).1]
        exact hmemory
      · exact h.before _ _ _ _ _ hlog
  | new hnew =>
      cases hnew with
      | created => exact honce.elim
      | recovered => exact honce.elim

/-- A request puts the ledger in memory on its way to the store, or no ledger. -/
theorem Shown.request (h : Shown ops pool log ledger world queue) {t : Nat} {past : Past}
    {seen : Option PoolState} {r : Req} (hstores : Stores pool past seen r)
    (hlast : ∀ earlier x new, past = earlier ++ [.wrote x new] → ledger = new) :
    Shown ops pool log ledger world (queue ++ [(t, r)]) := by
  refine ⟨h.memory, h.unread, h.before, ?_⟩
  rcases h.store with ⟨upTo, hs⟩
  refine ⟨upTo, hs.shows, hs.upcoming.concat ?_, hs.taken⟩
  cases r with
  | storeSet k v =>
      rcases hstores k v rfl with ⟨state, earlier, prior, hseen, heq, hpast⟩
      refine .inr ⟨state, heq, ?_⟩
      rw [← hseen, ← hlast _ _ _ hpast]
      exact h.memory
  | _ => exact .inl rfl

/-- An answer keeps the invariant: if it takes a ledger, it is the next one. -/
theorem Shown.serve {earlier later : List (Nat × Req)} {t : Nat} {r : Req}
    (h : Shown ops pool log ledger world (earlier ++ (t, r) :: later))
    (hfirst : InOrder earlier r) :
    Shown ops pool (log ++ [(t, .asked r (reply network r world).1)]) ledger
      (reply network r world).2 (earlier ++ later) := by
  refine ⟨h.memory.asked t r _, fun hnone t' x y hmem => ?_,
    fun l₁ t' x y l₂ heq => ?_, ?_⟩
  · rcases List.mem_append.mp hmem with hmem | hmem
    · exact h.unread hnone t' x y hmem
    · cases (Prod.mk.inj (List.mem_singleton.mp hmem)).2
  · rcases Async.snoc_split heq with ⟨_, hact, _⟩ | ⟨rest, _, hlog⟩
    · cases (Prod.mk.inj hact).2
    · exact h.before _ _ _ _ _ hlog
  rcases h.store with ⟨upTo, hs⟩
  -- Unless it is a ledger that is stored, the store goes on showing what it did.
  have hquiet : (reply network r world).2.store = world.store →
      (∀ k v, Act.asked (I := client) r (reply network r world).1
        ≠ Act.asked (I := client) (σ := Option PoolState) (Req.storeSet k v) (.ok ())) →
      Upcoming ops pool log upTo (earlier ++ later) →
      ∃ upTo, StoreShows ops pool (log ++ [(t, .asked r (reply network r world).1)]) upTo
        ((reply network r world).2.store.lookup (.pool pool.payer)) (earlier ++ later) := by
    intro hstore hne hup
    rw [hstore]
    refine ⟨upTo, hs.shows, hup.grow (.inl ⟨_, _, rfl⟩), fun before' t' k v before x y hpre => ?_⟩
    rcases List.prefix_concat_iff.mp hpre with heq | hpre
    · have hlast := List.head_eq_of_cons_eq (List.append_inj' heq rfl).2
      exact absurd (Prod.mk.inj hlast).2.symm (hne k v)
    · exact hs.taken _ _ _ _ _ _ _ hpre
  rcases reply_store network r world with ⟨hstore, hne⟩ | ⟨k, v, rfl, ⟨hstore, herr⟩ | hstore⟩
  · refine hquiet hstore (fun k v heq => hne k v (Act.asked.inj heq).1) (hs.upcoming.remove ?_)
    cases r with
    | storeSet k v => exact absurd rfl (hne k v)
    | _ => rfl
  · rcases hs.upcoming.serve (hfirst rfl) with ⟨upTo', state, _, hle, _, _, hrest⟩
    refine hquiet hstore (fun k' v' heq => ?_) (hrest.initial hle)
    rcases Act.asked.inj heq with ⟨heq, hans⟩
    cases heq
    exact herr _ (eq_of_heq hans)
  · rcases hs.upcoming.serve (hfirst rfl) with ⟨upTo', state, heq, hle, hshows, hown, hrest⟩
    cases heq
    rw [hstore, AList.lookup_insert]
    refine ⟨upTo', hshows, hrest.grow (.inl ⟨_, _, rfl⟩),
      fun before' t' k v before x y hpre hbefore => ?_⟩
    rcases List.prefix_concat_iff.mp hpre with heq | hpre
    · rcases List.append_inj' heq rfl with ⟨rfl, hlast⟩
      have ht := (Prod.mk.inj (List.head_eq_of_cons_eq hlast)).1
      subst ht
      exact hown _ _ _ hbefore
    · exact (hs.taken _ _ _ _ _ _ _ hpre hbefore).trans hle

/-- The invariant survives clean segments and requests served in order. -/
theorem shown_survives (network : Network ρ) (honce : ∀ op ∈ ops, AtOnce op)
    (hwindow : SameWindow pool ops) :
    Async.Survives (fun t past seen new => ∃ op, ops[t]? = some op ∧ Write pool op past seen new)
      (fun _ => Stores pool) (reply network) Sees InOrder (Shown ops pool) where
  write := fun _ _ _ _ _ _ _ h hqueue ⟨op, hop, hwrite⟩ hsees =>
    h.write hqueue hop (honce op (List.mem_of_getElem? hop)) hwindow hwrite hsees
  request := fun _ _ _ _ _ _ _ h _ hstores hlast => h.request hstores hlast
  serve := fun _ _ _ _ _ _ _ h hfirst => h.serve hfirst

/-- Before any call has begun there is nothing to show. -/
theorem shown_start (sys : PoolSys ρ) : Shown ops pool [] sys.current sys.world [] where
  memory := shows_of_loads (fun _ _ _ hmem => absurd hmem List.not_mem_nil) _
  unread := fun _ _ _ _ hmem => absurd hmem List.not_mem_nil
  before := fun earlier t x y later heq => by
    cases List.append_eq_nil_iff.mp heq.symm |>.2
  store := ⟨[], shows_of_loads (fun _ _ _ hmem => absurd hmem List.not_mem_nil) _,
    .nil (List.prefix_refl _), fun earlier t k v before x y hpre => by
      cases List.append_eq_nil_iff.mp (List.prefix_nil.mp hpre) |>.2⟩

end Invariant

section Results

variable {pool : PoolConfig} {sys : PoolSys ρ} {ops : List PoolOp}

/-- The reservations that have resolved, and the calls that made them. -/
def resolved (ops : List PoolOp)
    (calls : System client (Option PoolState) Thrown (World ρ) PoolResult) :
    List (Nat × MadeReservation) :=
  (List.range ops.length).filterMap fun (t : Nat) => match ops[t]?, calls.result t with
    | some (.reserveSlot merchant now amount), some (.ok (.reservation r)) =>
      some (t, ⟨merchant, now, amount, r⟩)
    | _, _ => none

/-- The entry by which a call makes a reservation: it spends the slot that is
    chosen, for the value it holds. -/
def Reserves (pool : PoolConfig) (ops : List PoolOp) (t : Nat) (m : MadeReservation)
    (entry : Nat × Act client (Option PoolState) Thrown) : Prop :=
  ∃ before slot, entry = reserving pool t before slot m ∧
    ops[t]? = some (.reserveSlot m.merchant m.now m.amount) ∧
    Pool.chooseSlot before = some slot ∧ slot.index = m.reservation.index ∧
    slot.value = some m.reservation.value

/-- A reservation has resolved if its call returned it. -/
theorem mem_resolved {calls : System client (Option PoolState) Thrown (World ρ) PoolResult}
    {t : Nat} {m : MadeReservation} (h : (t, m) ∈ resolved ops calls) :
    ops[t]? = some (.reserveSlot m.merchant m.now m.amount) ∧
      calls.result t = some (.ok (.reservation m.reservation)) := by
  rcases List.mem_filterMap.mp h with ⟨t', _, heq⟩
  split at heq
  · next hop hresult =>
    cases Option.some.inj heq
    exact ⟨hop, hresult⟩
  · cases heq

/-- Every call makes one reservation at most. -/
theorem nodup_resolved (ops : List PoolOp)
    (calls : System client (Option PoolState) Thrown (World ρ) PoolResult) :
    ((resolved ops calls).map fun e => (e.1, (⟨e.2.now, e.2.amount⟩ : SpendEntry))).Nodup := by
  have hnodup : (resolved ops calls).Nodup := by
    refine List.nodup_range.filterMap fun t t' e he he' => ?_
    -- Each entry carries the number of its thread.
    have hname : ∀ {t : Nat}, e ∈ (match ops[t]?, calls.result t with
        | some (.reserveSlot merchant now amount), some (.ok (.reservation r)) =>
          some (t, (⟨merchant, now, amount, r⟩ : MadeReservation))
        | _, _ => none) → e.1 = t := by
      intro t he
      split at he
      · rw [← Option.some.inj he]
      · cases he
    exact (hname he).symm.trans (hname he')
  -- The thread's operation fixes the arguments, its result the reservation.
  refine hnodup.map_on fun x hx y hy heq => ?_
  rcases x with ⟨t, merchant, now, amount, r⟩
  rcases y with ⟨t', merchant', now', amount', r'⟩
  cases (Prod.mk.inj heq).1
  rcases mem_resolved hx with ⟨hop, hresult⟩
  rcases mem_resolved hy with ⟨hop', hresult'⟩
  obtain ⟨rfl, rfl, rfl⟩ : merchant = merchant' ∧ now = now' ∧ amount = amount' :=
    PoolOp.reserveSlot.inj (Option.some.inj (hop.symm.trans hop'))
  obtain rfl : r = r' :=
    PoolResult.reservation.inj (Except.ok.inj (Option.some.inj (hresult.symm.trans hresult')))
  rfl

/-- A call that reserves is in the log of what was spent. -/
theorem mem_spends_of_reserving {log : PoolLog} {t : Nat} {before : PoolState} {slot : PoolSlot}
    {m : MadeReservation} (h : reserving pool t before slot m ∈ log)
    (hop : ops[t]? = some (.reserveSlot m.merchant m.now m.amount)) :
    (t, ⟨m.now, m.amount⟩) ∈ spends ops log := by
  refine List.mem_filterMap.mpr ⟨_, h, ?_⟩
  simp only [reserving, hop]

/-- Of two reservations of one slot, the second is made from a ledger that
    does not show the first: the slot was re-armed between them. -/
theorem rearmed_between {log earlier between later : PoolLog} {t t' : Nat}
    {m m' : MadeReservation} {a b : Nat × Act client (Option PoolState) Thrown}
    (hbefore : ∀ earlier t x y later, log = earlier ++ (t, .wrote (some x) y) :: later →
      Shows ops pool earlier (some x))
    (hlog : log = earlier ++ a :: (between ++ b :: later)) (ha : Reserves pool ops t m a)
    (hb : Reserves pool ops t' m' b) (hsame : m.reservation.index = m'.reservation.index) :
    ∃ entry ∈ between, Rearms ops m.reservation.index entry := by
  rcases ha with ⟨before, slot, rfl, hop, hchosen, hindex, _⟩
  rcases hb with ⟨before', slot', rfl, _, hchosen', hindex', _⟩
  by_contra hnone
  have hshows := hbefore (earlier ++ reserving pool t before slot m :: between) t' before' _ later
    (by rw [hlog, List.append_assoc, List.cons_append]; rfl)
  rcases hshows.spent earlier t before slot m between rfl hop (mem_of_chooseSlot hchosen).1
    (fun entry he hrearms => hnone ⟨entry, he, hindex ▸ hrearms⟩) with ⟨_, heq, hstands⟩
  rw [← Option.some.inj heq] at hstands
  rcases mem_of_chooseSlot hchosen' with ⟨hmem, hunspent, _⟩
  have hspent := (hstands.2 slot' hmem (by rw [hindex', ← hsame, hindex])).1
  rw [hunspent] at hspent
  cases hspent

/-- The store has taken a ledger whose storing was acknowledged, and what was
    written after it up to what it shows was written after it. -/
theorem stored_up_to {log upTo earlier between later : PoolLog} {stored : Option PoolState}
    {queue : List (Nat × Req)} {t : Nat} {x y : Option PoolState} {k : StoreKey} {v : k.Value}
    (hstore : StoreShows ops pool log upTo stored queue)
    (hlog : log = earlier ++ (t, .wrote x y) ::
      (between ++ (t, .asked (I := client) (Req.storeSet k v) (.ok ())) :: later)) :
    ∃ rest, upTo = earlier ++ (t, .wrote x y) :: rest ∧
      rest ⊆ between ++ (t, .asked (I := client) (Req.storeSet k v) (.ok ())) :: later := by
  have hcut : log = (earlier ++ [(t, .wrote x y)] ++ between)
      ++ [(t, .asked (I := client) (Req.storeSet k v) (.ok ()))] ++ later := by
    simp only [hlog, List.append_assoc, List.cons_append, List.nil_append]
  rcases hstore.taken (earlier ++ [(t, .wrote x y)] ++ between) t k v earlier x y
    ⟨later, hcut.symm⟩ (List.prefix_append _ _) with ⟨rest, hrest⟩
  rw [List.append_assoc, List.cons_append, List.nil_append] at hrest
  refine ⟨rest, hrest.symm, ?_⟩
  rcases hstore.upcoming.isPrefix with ⟨more, hmore⟩
  rw [← hrest, hlog, List.append_assoc, List.cons_append] at hmore
  rw [← List.tail_eq_of_cons_eq (List.append_cancel_left hmore)]
  exact List.subset_append_left _ _

/-- What an orderly schedule of calls made at the same time leads to. -/
theorem shown_steps (network : Network ρ) (honce : ∀ op ∈ ops, AtOnce op)
    (hwindow : SameWindow pool ops) {schedule : List Choice}
    (horderly : Orderly (reply network) Sees InOrder schedule (poolCalls pool sys ops)) :
    let calls := (poolCalls pool sys ops).steps (reply network) schedule
    Shown ops pool calls.log calls.vars calls.world calls.queue ∧
      ∀ t m, (t, m) ∈ resolved ops calls → ∃ earlier entry between k v later,
        calls.log = earlier ++ entry ::
          (between ++ (t, .asked (I := client) (Req.storeSet k v) (.ok ())) :: later) ∧
        Reserves pool ops t m entry := by
  have hsound : Async.Sound
      (fun t past seen new => ∃ op, ops[t]? = some op ∧ Write pool op past seen new)
      (fun _ => Stores pool)
      (fun t past seen x => ∃ op, ops[t]? = some op ∧ Ends pool op past seen x)
      (poolCalls pool sys ops) := by
    refine Async.sound_start fun t p hp => ?_
    rw [List.getElem?_map] at hp
    rcases Option.map_eq_some_iff.mp hp with ⟨op, hop, rfl⟩
    exact Async.Process.obeys_mono (fun _ _ _ hw => ⟨op, hop, hw⟩) (fun _ _ _ hr => hr)
      (fun _ _ _ hq => ⟨op, hop, hq⟩) (op_obeys pool op [] sys.current)
  rcases Async.orderly_rule (shown_survives network honce hwindow) hsound (shown_start sys)
    horderly with ⟨hsound', hshown⟩
  refine ⟨hshown, fun t m hm => ?_⟩
  rcases mem_resolved hm with ⟨hop, hresult⟩
  rcases hsound'.result hresult with ⟨seen, op, hop', hends⟩
  cases Option.some.inj (hop.symm.trans hop')
  rcases hends _ _ _ _ rfl rfl with ⟨before, slot, earlier, _, hindex, hvalue, hchosen, rfl, hpast⟩
  -- The end of the call's own past, found again in the log.
  rcases Async.pastOf_split hpast with ⟨log₁, rest, hlog, _, hrest⟩
  rcases @Async.pastOf_split _ _ _ _ _ [] _ _ hrest with ⟨between, later, rfl, _, _⟩
  exact ⟨log₁, _, between, _, _, later, hlog, before, slot, rfl, hop, hchosen, hindex, hvalue⟩

/-- No reservation is lost or made twice by calls made at the same time, if
    each write finds in memory the ledger its call has last seen there, ledgers
    are stored in the order they were written, and the calls' clock readings lie
    within one spend window. Two calls that resolve return the same slot only if
    it was re-armed between them; a resolved reservation that was not re-armed
    stands in memory and in the store, and all amounts are in their spend logs. -/
theorem concurrent_reservations (network : Network ρ) (pool : PoolConfig) (sys : PoolSys ρ)
    (ops : List PoolOp) (schedule : List Choice) (honce : ∀ op ∈ ops, AtOnce op)
    (hwindow : SameWindow pool ops)
    (horderly : Orderly (reply network) Sees InOrder schedule (poolCalls pool sys ops)) :
    let calls := (poolCalls pool sys ops).steps (reply network) schedule
    let ledgers := [calls.vars, calls.world.store.lookup (.pool pool.payer)]
    (∀ t m t' m', (t, m) ∈ resolved ops calls → (t', m') ∈ resolved ops calls → t ≠ t' →
      m.reservation = m'.reservation → ∃ earlier a between b later,
        calls.log = earlier ++ a :: (between ++ b :: later) ∧
        (Reserves pool ops t m a ∧ Reserves pool ops t' m' b ∨
          Reserves pool ops t' m' a ∧ Reserves pool ops t m b) ∧
        ∃ entry ∈ between, Rearms ops m.reservation.index entry) ∧
    (∀ t m, (t, m) ∈ resolved ops calls → ∃ earlier a later,
      calls.log = earlier ++ a :: later ∧ Reserves pool ops t m a ∧
      ((∀ entry ∈ later, ¬ Rearms ops m.reservation.index entry) →
        ∀ ledger ∈ ledgers, ∃ state, ledger = some state ∧
          Stands state m.reservation.index ⟨m.reservation.value, m.merchant, m.now⟩)) ∧
    ∀ ledger ∈ ledgers,
      ((resolved ops calls).map fun e => (⟨e.2.now, e.2.amount⟩ : SpendEntry)).Subperm
        (spendLogOf ledger) := by
  intro calls ledgers
  rcases shown_steps network honce hwindow horderly with ⟨hshown, hresolved⟩
  rcases hshown.store with ⟨upTo, hstore⟩
  refine ⟨fun t m t' m' hm hm' hne hsame => ?_, fun t m hm => ?_, fun ledger hledger => ?_⟩
  · rcases hresolved t m hm with ⟨earlier, a, between, k, v, later, hlog, ha⟩
    rcases hresolved t' m' hm' with ⟨earlier', b, between', k', v', later', hlog', hb⟩
    -- Two threads have two entries in the log, so one of them comes first.
    have hab : a ≠ b := by
      rcases ha with ⟨_, _, rfl, _⟩
      rcases hb with ⟨_, _, rfl, _⟩
      exact fun heq => hne (Prod.mk.inj heq).1
    have hindex : m.reservation.index = m'.reservation.index := by rw [hsame]
    rcases Async.cut_twice hab (hlog.symm.trans hlog') with ⟨between, heq⟩ | ⟨between, heq⟩
    · rw [heq] at hlog
      exact ⟨_, a, between, b, _, hlog, .inl ⟨ha, hb⟩,
        rearmed_between hshown.before hlog ha hb hindex⟩
    · rw [heq] at hlog'
      refine ⟨_, b, between, a, _, hlog', .inr ⟨hb, ha⟩, ?_⟩
      rw [hindex]
      exact rearmed_between hshown.before hlog' hb ha hindex.symm
  · rcases hresolved t m hm with ⟨earlier, a, between, k, v, later, hlog, ha⟩
    refine ⟨earlier, a, _, hlog, ha, fun hrearms ledger hledger => ?_⟩
    rcases ha with ⟨before, slot, rfl, hop, hchosen, hindex, _⟩
    rw [← hindex] at hrearms ⊢
    have hmem := (mem_of_chooseSlot hchosen).1
    -- Memory shows the whole log, the store what was written up to its last write.
    simp only [ledgers, List.mem_cons, List.not_mem_nil, or_false] at hledger
    rcases hledger with rfl | rfl
    · exact hshown.memory.spent _ t before slot m _ hlog hop hmem hrearms
    · rcases stored_up_to hstore hlog with ⟨upTo', rfl, hsub⟩
      exact hstore.shows.spent _ t before slot m _ rfl hop hmem
        fun entry he => hrearms entry (hsub he)
  · -- Each reservation that resolved appended its amount, and amounts are never taken away.
    have hpairs : ∀ {upTo : PoolLog}, (∀ t m, (t, m) ∈ resolved ops calls → ∃ entry ∈ upTo,
        Reserves pool ops t m entry) → Shows ops pool upTo ledger →
        ((resolved ops calls).map fun e => (⟨e.2.now, e.2.amount⟩ : SpendEntry)).Subperm
          (spendLogOf ledger) := by
      intro upTo hin hshows
      have hsub : ((resolved ops calls).map fun e =>
          (e.1, (⟨e.2.now, e.2.amount⟩ : SpendEntry))) ⊆ spends ops upTo := by
        intro pair hpair
        rcases List.mem_map.mp hpair with ⟨⟨t, m⟩, hm, rfl⟩
        rcases hin t m hm with ⟨_, hmem, before, slot, rfl, hop, _⟩
        exact mem_spends_of_reserving hmem hop
      rcases List.subperm_of_subset (nodup_resolved ops calls) hsub with ⟨_, hperm, hsublist⟩
      have hall := hperm.map Prod.snd
      rw [List.map_map] at hall
      exact ⟨_, hall, (hsublist.map Prod.snd).trans hshows.amounts⟩
    simp only [ledgers, List.mem_cons, List.not_mem_nil, or_false] at hledger
    rcases hledger with rfl | rfl
    · refine hpairs (fun t m hm => ?_) hshown.memory
      rcases hresolved t m hm with ⟨earlier, a, between, k, v, later, hlog, ha⟩
      exact ⟨a, hlog ▸ List.mem_append_right _ List.mem_cons_self, ha⟩
    · refine hpairs (fun t m hm => ?_) hstore.shows
      rcases hresolved t m hm with ⟨earlier, a, between, k, v, later, hlog, ha⟩
      rcases ha with ⟨before, slot, rfl, hrest⟩
      rcases stored_up_to hstore hlog with ⟨upTo', rfl, _⟩
      exact ⟨_, List.mem_append_right _ List.mem_cons_self, before, slot, rfl, hrest⟩

/-- The pool of a payer who has set up two slots. -/
def twoSlots : PoolSys Bool :=
  Async.final (poolStep setupOnce testPool) releasingStart [.call (.create 2 (testKey 1))]

/-- A refresh and two reservations. -/
def threeCalls : List PoolOp :=
  [.refresh, .reserveSlot (testAddress 2) 5 10, .reserveSlot (testAddress 3) 6 10]

/-- A call has its turn until some of its requests have been served. -/
def turns (t : Nat) : Nat → List Choice
  | 0 => [.resume t]
  | n + 1 => .resume t :: .serve t :: turns t n

/-- The refresh starts while the first reservation is on its way to the store,
    but each call has its turn from reading the ledger to writing it. -/
def inTurns : List Choice :=
  turns 1 1 ++ turns 0 0 ++ .serve 1 :: turns 1 0 ++ .serve 0 :: turns 0 3 ++ turns 2 2

theorem concurrent_reservations_inTurns :
    let calls := (poolCalls testPool twoSlots threeCalls).steps (reply setupOnce) inTurns
    [(⟨5, 10⟩ : SpendEntry), ⟨6, 10⟩].Subperm (spendLogOf calls.vars) ∧
      [(⟨5, 10⟩ : SpendEntry), ⟨6, 10⟩].Subperm
        (spendLogOf (calls.world.store.lookup (.pool testPool.payer))) := by
  have h := (concurrent_reservations setupOnce testPool twoSlots threeCalls inTurns
    (fun op hop => by
      simp only [threeCalls, List.mem_cons, List.not_mem_nil, or_false] at hop
      rcases hop with rfl | rfl | rfl <;> trivial)
    (fun merchant now amount merchant' now' amount' hop hop' => by
      simp only [threeCalls, List.mem_cons, List.not_mem_nil, or_false, reduceCtorEq, false_or,
        PoolOp.reserveSlot.injEq] at hop hop'
      have hlength : testPool.spendLimitWindowMs = 24 * 60 * 60 * 1000 := rfl
      omega)
    (by decide +kernel)).2.2
  have hresolved : (resolved threeCalls ((poolCalls testPool twoSlots threeCalls).steps
      (reply setupOnce) inTurns)).map (fun e => (⟨e.2.now, e.2.amount⟩ : SpendEntry))
        = [⟨5, 10⟩, ⟨6, 10⟩] := by decide +kernel
  rw [hresolved] at h
  exact ⟨h _ List.mem_cons_self, h _ (List.mem_cons_of_mem _ List.mem_cons_self)⟩

/-- The refresh reads the ledger before the first reservation is made, and
    writes it back before the second. -/
def racing : List Choice := turns 0 0 ++ turns 1 2 ++ .serve 0 :: turns 0 3 ++ turns 2 2

/-- Both reservations get the same slot and value, nothing having re-armed the
    slot, and the first is neither in memory nor in the store. -/
theorem double_reservation :
    let calls := (poolCalls testPool twoSlots threeCalls).steps (reply setupOnce) racing
    resolved threeCalls calls = [(1, ⟨testAddress 2, 5, 10, ⟨0, testNonce 7⟩⟩),
        (2, ⟨testAddress 3, 6, 10, ⟨0, testNonce 7⟩⟩)] ∧
      (∀ index, ∀ entry ∈ calls.log, ¬ Rearms threeCalls index entry) ∧
      spendLogOf calls.vars = [⟨6, 10⟩] ∧
      spendLogOf (calls.world.store.lookup (.pool testPool.payer)) = [⟨6, 10⟩] := by
  refine ⟨by decide +kernel, fun index entry _ hrearms => ?_, by decide +kernel,
    by decide +kernel⟩
  rcases hrearms with ⟨_, _, _, ⟨payload, hop⟩ | ⟨now, hop⟩, _⟩
  · have hmem := List.mem_of_getElem? hop
    simp only [threeCalls, List.mem_cons, List.not_mem_nil, or_false, reduceCtorEq] at hmem
  · have hmem := List.mem_of_getElem? hop
    simp only [threeCalls, List.mem_cons, List.not_mem_nil, or_false, reduceCtorEq] at hmem

end Results

end Vadum
