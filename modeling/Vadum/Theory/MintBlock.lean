import Vadum.Apps.Payer
import Vadum.Theory.AirGap
import Vadum.Theory.PoolRequests
import Vadum.Theory.PoolRuns
import Vadum.Theory.SignStep

/-!
# The Mint Block

A payer checks a mint while online, and pays in it offline. The verdict is in
the record, and the payer's screen reports it, but nothing between a scan and a
signature asks for it: a request is decoded against any record of its mint.

So a payment in a mint is as good as the checks of that mint were. `Checked`
says of a device that every record of the mint, in memory and in the store, is
compatible. Every command keeps it unless it is a check that finds the mint
blocked, and then a scan finds the record and signs.

## Main definitions

* `PayerSys`, `PayerCommand`, `payerStep`: The runs of a payer's device.
* `Unblocked`: A command that does not find the mint blocked.
* `Checked`: A device that knows the mint as compatible only.

## Theorems

* `checked_step`: A command keeps what is known of the mint.
* `signed_compatible`: What is signed has a compatible record.
* `signed_in_blocked_mint`: Or the mint was found blocked, and is paid in.
-/

namespace Vadum

open Async (Event history final eventAt history_invariant eventAt_of_mem)
open Async.Process
open Checks (bind_eq_ok)
open PayerApp (Installation scannedRequest routeScan mintMap confirm pay)

/-- A payer's device: the mint records and the ledger in memory, and the world. -/
structure PayerSys (ρ : Type) where
  records : MintRecords
  ledger : Option PoolState
  world : World ρ

inductive PayerCommand where
  /-- A mint is checked online. -/
  | refresh (mint : Address)
  /-- The records in the store are brought into memory. -/
  | load
  /-- The app is closed and opened again. -/
  | reopen
  | pool (op : PoolOp)
  /-- A code is scanned and paid, if nothing refuses it. -/
  | scan (bytes : List UInt8) (typed askedAt now : Int)

variable {ρ : Type}

/-- The payload a command ends in, if it is a scan that shows one. -/
def payerStep (network : Network ρ) (device : Installation) (pool : PoolConfig)
    (key : CryptoKeyPair) :
    PayerCommand → PayerSys ρ → Option (List UInt8) × PayerSys ρ
  | .refresh mint, sys =>
    let outcome := run (reply network) (MintCache.refresh mint) sys.records sys.world
    (none, ⟨outcome.vars, sys.ledger, outcome.world⟩)
  | .load, sys =>
    let outcome := run (reply network) MintCache.load sys.records sys.world
    (none, ⟨outcome.vars, sys.ledger, outcome.world⟩)
  | .reopen, sys => (none, ⟨[], none, sys.world⟩)
  | .pool op, sys =>
    let outcome := run (reply network) (op.process pool) sys.ledger sys.world
    (none, ⟨sys.records, outcome.vars, outcome.world⟩)
  | .scan bytes typed askedAt now, sys =>
    let outcome := run (reply network) (pay device pool key sys.records bytes typed askedAt now)
      sys.ledger sys.world
    (outcome.result.toOption.join, ⟨sys.records, outcome.vars, outcome.world⟩)

abbrev PayerEvent (ρ : Type) : Type := Event PayerCommand (Option (List UInt8)) (PayerSys ρ)

abbrev payerHistory (network : Network ρ) (device : Installation) (pool : PoolConfig)
    (key : CryptoKeyPair) (sys : PayerSys ρ) (commands : List PayerCommand) :
    List (PayerEvent ρ) :=
  history (payerStep network device pool key) sys commands

/-- A device that has never checked a mint. -/
def PayerSys.Fresh (sys : PayerSys ρ) : Prop :=
  sys.records = [] ∧ ∀ mint, sys.world.store.lookup (.mint mint) = none

/-- A command that does not find the mint blocked. -/
def Unblocked (network : Network ρ) (mint : Address) (e : PayerEvent ρ) : Prop :=
  ∀ asked fetched, e.op = .refresh asked →
    (network.rpc (.getMintAccount asked) e.before.world.net).1 = .ok fetched →
    fetched.raw.mint = mint → ∀ entry ∈ fetched.raw.extensions, ¬ Blocking entry

/-- A record that says its mint is compatible, and lists no blocker. -/
def MintRecord.Sound (record : MintRecord) : Prop :=
  record.compatible = true ∧ record.blockers = []

/-- The check that nothing makes would let such a record pass, and no other. -/
theorem assertMintCompatible_eq_ok {record : MintRecord} :
    assertMintCompatible record = .ok () ↔ record.Sound := by
  unfold assertMintCompatible MintRecord.Sound
  by_cases hrefused : ¬ record.compatible ∨ record.blockers ≠ []
  · rw [if_pos hrefused]
    exact iff_of_false (fun h => by cases h) fun h => hrefused.elim (· h.1) (· h.2)
  · rw [if_neg hrefused]
    rcases not_or.mp hrefused with ⟨hcompatible, hblockers⟩
    exact iff_of_true rfl ⟨not_not.mp hcompatible, not_not.mp hblockers⟩

/-- The records in memory know a mint as compatible only. -/
def Trusted (mint : Address) (records : MintRecords) : Prop :=
  ∀ record ∈ MintCache.entries records, record.mint = mint → record.Sound

/-- The records in the store do. -/
def Stored (mint : Address) (store : Store) : Prop :=
  ∀ asked record, store.lookup (.mint asked) = some record → record.mint = mint → record.Sound

structure Checked (mint : Address) (sys : PayerSys ρ) : Prop where
  memory : Trusted mint sys.records
  store : Stored mint sys.world.store

section Cache

variable {mint : Address} {records : MintRecords} {network : Network ρ}

theorem mem_entries_setRecord {asked : Address} {record r : MintRecord} :
    r ∈ MintCache.entries (MintCache.setRecord asked record records) →
      r = record ∨ r ∈ MintCache.entries records := by
  induction records with
  | nil =>
      intro h
      exact .inl (List.mem_singleton.mp h)
  | cons entry rest ih =>
      intro h
      unfold MintCache.setRecord at h
      split at h
      · rcases List.mem_cons.mp h with rfl | h
        · exact .inl rfl
        · exact .inr (List.mem_cons_of_mem _ h)
      · rcases List.mem_cons.mp h with rfl | h
        · exact .inr List.mem_cons_self
        · exact (ih h).imp_right (List.mem_cons_of_mem _)

theorem Trusted.set (h : Trusted mint records) {asked : Address} {record : MintRecord}
    (hsound : record.mint = mint → record.Sound) :
    Trusted mint (MintCache.setRecord asked record records) := by
  intro r hr hmint
  rcases mem_entries_setRecord hr with rfl | hr
  · exact hsound hmint
  · exact h r hr hmint

theorem Stored.insert {store : Store} (h : Stored mint store) {asked : Address}
    {record : MintRecord} (hsound : record.mint = mint → record.Sound) :
    Stored mint (store.insert (.mint asked) record) := by
  intro asked' r hr hmint
  by_cases heq : asked' = asked
  · subst heq
    rw [AList.lookup_insert, Option.some.injEq] at hr
    subst hr
    exact hsound hmint
  · rw [AList.lookup_insert_ne (fun h => heq (StoreKey.mint.inj h))] at hr
    exact h asked' r hr hmint

/-- A check whose record of the mint, if it is one, is sound keeps what is known. -/
theorem refresh_trusted {asked : Address} {world : World ρ} (hmemory : Trusted mint records)
    (hstore : Stored mint world.store)
    (hsound : ∀ fetched record, (network.rpc (.getMintAccount asked) world.net).1 = .ok fetched →
      evaluateMint fetched.raw fetched.fetchedAt = .ok record → record.mint = mint →
      record.Sound) :
    Trusted mint (run (reply network) (MintCache.refresh asked) records world).vars ∧
      Stored mint (run (reply network) (MintCache.refresh asked) records world).world.store := by
  simp only [MintCache.refresh, MintCache.set, getMintAccount, rpc, storeSet, run_bind,
    run_request (I := client), reply, run_ofResult, run_read, run_write, run_pure]
  rcases hrpc : network.rpc (.getMintAccount asked) world.net with ⟨e | fetched, net⟩
  · exact ⟨hmemory, hstore⟩
  rcases hrecord : evaluateMint fetched.raw fetched.fetchedAt with e | record
  · simp only [hrecord]
    exact ⟨hmemory, hstore⟩
  have hnew : record.mint = mint → record.Sound :=
    hsound fetched record (congrArg Prod.fst hrpc) hrecord
  simp only [hrecord]
  rcases network.storage net with ⟨_ | e, net'⟩
  · exact ⟨hmemory.set hnew, hstore.insert hnew⟩
  · exact ⟨hmemory.set hnew, hstore⟩

/-- Loading brings nothing into memory that the store does not have. -/
theorem loadRecords_trusted {mints : List Address} {world : World ρ}
    (hmemory : Trusted mint records) (hstore : Stored mint world.store) :
    let outcome := run (reply network) (MintCache.loadRecords mints) records world
    Trusted mint outcome.vars ∧ Stored mint outcome.world.store := by
  induction mints generalizing records world with
  | nil => exact ⟨hmemory, hstore⟩
  | cons asked mints ih =>
      simp only [MintCache.loadRecords, MintCache.set, storeGet, run_bind,
        run_request (I := client), reply]
      rcases network.storage world.net with ⟨_ | e, net⟩
      · rcases hlookup : world.store.lookup (.mint asked) with _ | record
        · simp only [hlookup]
          exact ih hmemory hstore
        · simp only [hlookup, run_bind, run_read, run_write]
          exact ih (hmemory.set (hstore asked record hlookup)) hstore
      · exact ⟨hmemory, hstore⟩

theorem load_trusted {world : World ρ} (hmemory : Trusted mint records)
    (hstore : Stored mint world.store) :
    Trusted mint (run (reply network) MintCache.load records world).vars ∧
      Stored mint (run (reply network) MintCache.load records world).world.store := by
  rw [MintCache.load, run_bind, storeKeys, run_request (I := client)]
  simp only [reply]
  rcases network.storage world.net with ⟨_ | e, net⟩
  · have hload := @loadRecords_trusted ρ mint records network (world.store.keysWith .mint)
      ⟨world.store, net⟩ hmemory hstore
    dsimp only
    rw [run_bind]
    split
    · exact hload
    · exact hload
  · exact ⟨hmemory, hstore⟩

end Cache

section Payments

variable {mint : Address} {network : Network ρ} {device : Installation} {pool : PoolConfig}
  {key : CryptoKeyPair}

/-- A request that leaves the mint records alone. -/
def KeepsMints (r : Req) : Prop := ∀ asked record, r ≠ .storeSet (.mint asked) record

theorem reply_stored {r : Req} (hr : KeepsMints r) {w : World ρ} (h : Stored mint w.store) :
    Stored mint (reply network r w).2.store := by
  rcases reply_store network r w with ⟨hsame, _⟩ | ⟨k, v, rfl, ⟨hsame, _⟩ | hset⟩
  · rwa [hsame]
  · rwa [hsame]
  · intro asked record hlookup
    have hne : StoreKey.mint asked ≠ k := fun hk => by
      subst hk
      exact hr asked v rfl
    rw [hset, AList.lookup_insert_ne hne] at hlookup
    exact h asked record hlookup

theorem run_stored {α : Type} {p : PoolM α} (hp : Asks KeepsMints p) {s : Option PoolState}
    {w : World ρ} (h : Stored mint w.store) :
    Stored mint (run (reply network) p s w).world.store :=
  @asks_run _ _ _ _ _ _ (reply network) (fun w => Stored mint w.store)
    (fun _ _ hr hw => reply_stored hr hw) p hp s w h

theorem poolAllows_keepsMints (pool : PoolConfig) : PoolAllows pool KeepsMints where
  tick := fun _ _ => Req.noConfusion
  randomUUID := fun _ _ => Req.noConfusion
  rpc := fun _ _ _ => Req.noConfusion
  storeGet := fun _ _ => Req.noConfusion
  storeSet := fun _ _ _ h => by cases h

theorem asks_signAsPayer {kit : Kit} (input : CanonicalInput) :
    Asks KeepsMints (signAsPayer kit input key : PoolM Auth) := by
  rw [signAsPayer_eq]
  refine asks_bind (asks_ofResult _) fun bytes => asks_bind ?_ fun signature => asks_pure _
  exact asks_request (I := client) fun _ _ h => Req.noConfusion h

theorem asks_sign (intent : Intent) (amount now : Int) :
    Asks KeepsMints (PayerApp.sign device pool key intent amount now) := by
  refine asks_bind (asks_bind (asks_request (I := client) (poolAllows_keepsMints pool).storeGet)
    fun _ => asks_pure _) fun stored => ?_
  split
  · exact asks_pure _
  refine asks_map _ (asks_bind (asks_bind ?_ fun slot => asks_signAsPayer _) fun auth =>
    asks_ofResult _)
  exact asks_reserveSlot (poolAllows_keepsMints pool).toLedgerAllows _ _ _

theorem asks_confirm (intent : Intent) (amount askedAt now : Int) :
    Asks KeepsMints (confirm device pool key intent amount askedAt now) := by
  unfold confirm
  split
  · exact asks_pure _
  · refine asks_bind (asks_allowance (poolAllows_keepsMints pool).toLedgerAllows _)
      fun allowance => ?_
    split
    · exact asks_pure _
    · exact asks_sign intent amount now

theorem asks_pay (records : MintRecords) (bytes : List UInt8) (typed askedAt now : Int) :
    Asks KeepsMints (pay device pool key records bytes typed askedAt now) := by
  refine asks_bind (asks_ofResult _) fun scanned => ?_
  rcases scanned with intent | payload
  · exact asks_confirm _ _ _ _
  · exact asks_bind (asks_returned (poolAllows_keepsMints pool).toLedgerAllows _)
      fun _ => asks_pure _

/-- A command keeps what is known of a mint, unless it finds the mint blocked. -/
theorem checked_step (command : PayerCommand) (sys : PayerSys ρ) (h : Checked mint sys)
    (hunblocked : Unblocked network mint
      (eventAt (payerStep network device pool key) command sys)) :
    Checked mint (payerStep network device pool key command sys).2 := by
  cases command with
  | refresh asked =>
      -- What is fetched for this mint is never found blocked, so the record of it is compatible.
      have hsound : ∀ fetched record,
          (network.rpc (.getMintAccount asked) sys.world.net).1 = .ok fetched →
          evaluateMint fetched.raw fetched.fetchedAt = .ok record → record.mint = mint →
          record.Sound := fun fetched record hfetched hrecord hmint => by
        rcases evaluateMint_ok hrecord with ⟨hraw, _, hcompatible⟩
        have hfree := hcompatible.mpr
          (hunblocked asked fetched rfl hfetched (hraw.symm.trans hmint))
        exact ⟨hfree, evaluateMint_blockers hrecord hfree⟩
      have hrun := refresh_trusted h.memory h.store hsound
      exact ⟨hrun.1, hrun.2⟩
  | load =>
      have hrun := @load_trusted _ _ _ network _ h.memory h.store
      exact ⟨hrun.1, hrun.2⟩
  | reopen => exact ⟨fun record hr => absurd hr List.not_mem_nil, h.store⟩
  | pool op =>
      exact ⟨h.memory, run_stored (asks_op (poolAllows_keepsMints pool) op) h.store⟩
  | scan bytes typed askedAt now =>
      exact ⟨h.memory, run_stored
        (asks_pay _ _ _ _ _) h.store⟩

/-- What a decoder returns was checked against the cache. -/
theorem cached_of_scannedRequest {bytes : List UInt8} {ctx : DecodeContext} {intent : Intent}
    (h : scannedRequest bytes ctx = .ok intent) : Cached ctx intent := by
  unfold scannedRequest at h
  rcases bind_eq_ok.mp h with ⟨type, _, hdecode⟩
  cases type with
  | intent =>
      rcases decodeIntent_eq_ok.mp hdecode with ⟨_, _, hcached, _⟩
      exact hcached
  | staticIntent => exact (decodeStaticIntent_eq_ok.mp hdecode).2.1
  | auth => cases hdecode
  | nonceReturn => cases hdecode

theorem scannedRequest_of_routeScan {bytes : List UInt8} {ctx : DecodeContext} {intent : Intent}
    (h : routeScan bytes ctx .payment = .ok (.request intent)) :
    scannedRequest bytes ctx = .ok intent := by
  unfold routeScan at h
  rcases bind_eq_ok.mp h with ⟨type, _, hroute⟩
  split at hroute
  · split at hroute
    · cases hroute
    · rcases bind_eq_ok.mp hroute with ⟨_, _, hrecovery⟩
      cases hrecovery
  · rcases bind_eq_ok.mp hroute with ⟨request, hrequest, heq⟩
    cases heq
    exact hrequest

/-- A request that signs nothing. -/
def SignsNothing (r : Req) : Prop := ∀ key message, r ≠ .sign key message

theorem poolAllows_signsNothing (pool : PoolConfig) : PoolAllows pool SignsNothing where
  tick := fun _ _ => Req.noConfusion
  randomUUID := fun _ _ => Req.noConfusion
  rpc := fun _ _ _ => Req.noConfusion
  storeGet := fun _ _ => Req.noConfusion
  storeSet := fun _ _ _ => Req.noConfusion

/-- A scan that signs was of a request, and the request's mint has a record. -/
theorem request_of_signed {records : MintRecords} {bytes : List UInt8}
    {typed askedAt now : Int} {s : Option PoolState} {w w' : World ρ} {key' : CryptoKeyPair}
    {message : List UInt8} (h : (Req.sign key' message, w') ∈ requests (reply network)
      (pay device pool key records bytes typed askedAt now) s w) :
    ∃ intent record, scannedRequest bytes ⟨mintMap records, none⟩ = .ok intent ∧
      mintMap records intent.mint = some record := by
  rw [pay, requests_bind, requests_ofResult, List.nil_append, run_ofResult] at h
  rcases hscan : routeScan bytes ⟨mintMap records, none⟩ .payment with e | scanned
  · rw [hscan] at h
    exact absurd h List.not_mem_nil
  rw [hscan] at h
  rcases scanned with intent | payload
  · have hrequest := scannedRequest_of_routeScan hscan
    rcases cached_of_scannedRequest hrequest with ⟨_, _, record, hrecord, _⟩
    exact ⟨intent, record, hrequest, hrecord⟩
  · have hasks : Asks SignsNothing (do
        let _ ← Pool.applyNonceReturn pool payload
        pure none : PoolM (Option (List UInt8))) :=
      asks_bind (asks_returned (poolAllows_signsNothing pool).toLedgerAllows payload)
        fun _ => asks_pure none
    exact absurd rfl (asks_requests (reply network) hasks h key' message)

theorem Checked.of_fresh {sys : PayerSys ρ} (h : sys.Fresh) : Checked mint sys where
  memory := fun record hr => by
    rw [h.1] at hr
    exact absurd hr List.not_mem_nil
  store := fun asked record hlookup => by
    rw [h.2 asked] at hlookup
    cases hlookup

theorem mintMap_mem {records : MintRecords} {record : MintRecord}
    (h : mintMap records mint = some record) :
    record ∈ MintCache.entries records ∧ record.mint = mint := by
  have hmint := List.find?_some h
  exact ⟨List.mem_reverse.mp (List.mem_of_find?_eq_some h), of_decide_eq_true hmint⟩

/-- While no check finds a mint blocked, everything signed in it was decoded
    against a record without a blocker. -/
theorem signed_compatible (sys : PayerSys ρ) (hfresh : sys.Fresh) (commands : List PayerCommand)
    (hunblocked : ∀ e ∈ payerHistory network device pool key sys commands,
      Unblocked network mint e) :
    ∀ e ∈ payerHistory network device pool key sys commands,
      ∀ bytes typed askedAt now key' message w,
      e.op = .scan bytes typed askedAt now →
      (Req.sign key' message, w) ∈ requests (reply network)
        (pay device pool key e.before.records bytes typed askedAt now) e.before.ledger
        e.before.world →
      ∃ intent record, scannedRequest bytes ⟨mintMap e.before.records, none⟩ = .ok intent ∧
        mintMap e.before.records intent.mint = some record ∧
        (intent.mint = mint → record.compatible = true ∧ record.blockers = [] ∧
          assertMintCompatible record = .ok ()) := by
  intro e he bytes typed askedAt now key' message w _ hsigned
  have hchecked := (history_invariant (payerStep network device pool key)
    (fun command sys h => checked_step command sys h) (Checked.of_fresh hfresh) hunblocked).2 e he
  rcases request_of_signed hsigned with ⟨intent, record, hrequest, hrecord⟩
  refine ⟨intent, record, hrequest, hrecord, fun hmint => ?_⟩
  rcases mintMap_mem hrecord with ⟨hmem, hrecordMint⟩
  have hsound := hchecked.memory record hmem (hrecordMint.trans hmint)
  exact ⟨hsound.1, hsound.2, assertMintCompatible_eq_ok.mpr hsound⟩

end Payments

/-- A mint anybody can pay in. -/
def plainMint : RawMintData where
  mint := testAddress 4
  tokenProgram := .splToken
  decimals := 6
  freezeAuthority := none
  extensions := []

/-- The same mint with a program that runs on every transfer. -/
def hookedMint : RawMintData :=
  { plainMint with
    extensions := [⟨"transferHook", [("authority", .null), ("programId", .string "hook")]⟩] }

/-- An app on the home screen that has made a pool. -/
def testInstallation : Installation := ⟨true, some "epoch"⟩

/-- A device with one slot that has checked no mint, where a mint can be checked. -/
def deviceAt (raw : RawMintData) : PayerSys FakeRpc where
  records := []
  ledger := none
  world :=
    { store := AList.insert (.pool (testAddress 1)) oneSlot ∅
      net := { mints := [(testAddress 4, ⟨raw, 0⟩)] } }

/-- The mint is checked, and a request in it is paid. -/
def checkAndPay : List PayerCommand :=
  [.refresh (testAddress 4), .scan (intentBytes testIntent 10) 0 5 5]

theorem deviceAt_fresh (raw : RawMintData) : (deviceAt raw).Fresh :=
  ⟨rfl, fun mint => AList.lookup_insert_ne (show StoreKey.mint mint ≠ .pool (testAddress 1) from
    StoreKey.noConfusion)⟩

/-- The device after the check. -/
def checkedDevice (raw : RawMintData) : PayerSys FakeRpc :=
  (payerStep fakeNetwork testInstallation strictPool (testKey 1) (.refresh (testAddress 4))
    (deviceAt raw)).2

/-- The payment, from the device after the check. -/
theorem mem_checkAndPay (raw : RawMintData) :
    eventAt (payerStep fakeNetwork testInstallation strictPool (testKey 1))
        (.scan (intentBytes testIntent 10) 0 5 5) (checkedDevice raw)
      ∈ payerHistory fakeNetwork testInstallation strictPool (testKey 1) (deviceAt raw)
        checkAndPay :=
  List.mem_cons_of_mem _ List.mem_cons_self

/-- The payload it ends in. -/
def paidPayload (raw : RawMintData) : Option (List UInt8) :=
  (eventAt (payerStep fakeNetwork testInstallation strictPool (testKey 1))
    (.scan (intentBytes testIntent 10) 0 5 5) (checkedDevice raw)).result

/-- The requests of the payment. -/
def paidRequests (raw : RawMintData) : List (Req × World FakeRpc) :=
  requests (reply fakeNetwork)
    (pay testInstallation strictPool (testKey 1) (checkedDevice raw).records
      (intentBytes testIntent 10) 0 5 5)
    (checkedDevice raw).ledger (checkedDevice raw).world

def Req.isSign : Req → Bool
  | .sign _ _ => true
  | _ => false

theorem exists_sign {entries : List (Req × World ρ)}
    (h : entries.any (fun entry => entry.1.isSign) = true) :
    ∃ key message w, (Req.sign key message, w) ∈ entries := by
  rcases List.any_eq_true.mp h with ⟨⟨r, w⟩, hmem, hsign⟩
  cases r with
  | sign key message => exact ⟨key, message, w, hmem⟩
  | _ => cases hsign

theorem signed_compatible_plainMint :
    ∃ key message w, (Req.sign key message, w) ∈ paidRequests plainMint ∧
      ∃ intent record, scannedRequest (intentBytes testIntent 10)
          ⟨mintMap (checkedDevice plainMint).records, none⟩ = .ok intent ∧
        mintMap (checkedDevice plainMint).records intent.mint = some record ∧
        (intent.mint = testAddress 4 → record.compatible = true ∧ record.blockers = [] ∧
          assertMintCompatible record = .ok ()) := by
  have hunblocked : ∀ e ∈ payerHistory fakeNetwork testInstallation strictPool (testKey 1)
      (deviceAt plainMint) checkAndPay, Unblocked fakeNetwork (testAddress 4) e := by
    intro e he asked fetched hop hfetched hmint entry hentry
    rcases List.mem_cons.mp he with rfl | he
    · cases hop
      cases hfetched
      exact absurd hentry List.not_mem_nil
    · cases List.mem_singleton.mp he
      cases hop
  rcases exists_sign (show (paidRequests plainMint).any _ = true by decide +kernel)
    with ⟨key, message, w, hsigned⟩
  refine ⟨key, message, w, hsigned, ?_⟩
  exact signed_compatible (deviceAt plainMint) (deviceAt_fresh plainMint) checkAndPay hunblocked _
    (mem_checkAndPay plainMint) _ 0 5 5 key message w rfl hsigned

/-- A mint is checked, found blocked and paid in: its record lists the blocker,
    the request is decoded against it, and the payer signs. -/
theorem signed_in_blocked_mint :
    (deviceAt hookedMint).Fresh ∧
      ∃ e ∈ payerHistory fakeNetwork testInstallation strictPool (testKey 1) (deviceAt hookedMint)
        checkAndPay,
      ∃ bytes typed askedAt now key message w, e.op = .scan bytes typed askedAt now ∧
        (Req.sign key message, w) ∈ requests (reply fakeNetwork)
          (pay testInstallation strictPool (testKey 1) e.before.records bytes typed askedAt now)
          e.before.ledger e.before.world ∧
        e.result ≠ none ∧
        ∃ intent record, scannedRequest bytes ⟨mintMap e.before.records, none⟩ = .ok intent ∧
          mintMap e.before.records intent.mint = some record ∧
          record.compatible = false ∧ record.blockers = [.transferHookActive] ∧
          assertMintCompatible record ≠ .ok () := by
  refine ⟨deviceAt_fresh hookedMint, _, mem_checkAndPay hookedMint, ?_⟩
  rcases exists_sign (show (paidRequests hookedMint).any _ = true by decide +kernel)
    with ⟨key, message, w, hsigned⟩
  rcases request_of_signed hsigned with ⟨intent, record, hrequest, hrecord⟩
  refine ⟨_, 0, 5, 5, key, message, w, rfl, hsigned, ?_, intent, record, hrequest, hrecord, ?_⟩
  · have hshown : (paidPayload hookedMint).isSome = true := by decide +kernel
    rw [paidPayload, Option.isSome_iff_ne_none] at hshown
    exact hshown
  · have hblocked : ∀ r ∈ MintCache.entries (checkedDevice hookedMint).records,
        r.compatible = false ∧ r.blockers = [.transferHookActive] := by
      decide +kernel
    rcases hblocked record (mintMap_mem hrecord).1 with ⟨hcompatible, hblockers⟩
    refine ⟨hcompatible, hblockers, fun hpasses => ?_⟩
    rw [(assertMintCompatible_eq_ok.mp hpasses).1] at hcompatible
    cases hcompatible

end Vadum
