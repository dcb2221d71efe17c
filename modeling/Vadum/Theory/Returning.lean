import Vadum.Theory.Reserving
import Vadum.Client.FakeRpc

/-!
# What a Recovery Statement Binds

A merchant signs two kinds of bytes with one key, messages of transactions and
recovery statements. The first byte tells them apart, and the fixed layout of a
statement tells it from every other, so a signature over a statement is good for
one payer, slot, prior value and new value. The payer rebuilds the statement
from its own ledger: a return frees the slot it was issued for, once, and any
other is refused and changes nothing.

## Main definitions

* `VersionZero`: The first byte of a compiled message.
* `MerchantSigns`: A merchant that signs messages and statements, and nothing
  else.
* `Names`: A payload for a spent slot, with another value than the recorded one.
* `Returned`, `RefusedReturn`: The two outcomes of a return.

## Theorems

* `signingBytes_inj`: One layout, one statement.
* `run_applyNonceReturn`: A return is applied or refused.
* `refused_again`: A return that was applied is refused.
* `returns_bound`: What a return is good for.
-/

namespace Vadum

variable {ρ : Type}

section Layout

/-- The signed bytes of a statement, in order. -/
theorem signingBytes_eq_ok {statement : NonceReturnStatement} {bytes : List UInt8} :
    nonceReturnSigningBytes statement = .ok bytes ↔
      statement.nonceIndex ≤ 255 ∧ statement.spentAgainstValue.bytes.length = 32 ∧
        statement.newNonceValue.bytes.length = 32 ∧
        nonceReturnDomain ++ statement.payer.bytes ++ [UInt8.ofNat statement.nonceIndex]
          ++ statement.spentAgainstValue.bytes ++ statement.newNonceValue.bytes = bytes := by
  unfold nonceReturnSigningBytes nonceSeed
  by_cases hindex : statement.nonceIndex > 255
  · rw [if_pos hindex]
    exact ⟨(nomatch ·), fun h => absurd h.1 (not_le.mpr hindex)⟩
  · rw [if_neg hindex]
    by_cases hlength : statement.spentAgainstValue.bytes.length ≠ 32 ∨
        statement.newNonceValue.bytes.length ≠ 32
    · simp only [bind, Except.bind, if_pos hlength]
      refine ⟨(nomatch ·), fun h => ?_⟩
      rcases hlength with hspent | hnew
      · exact absurd h.2.1 hspent
      · exact absurd h.2.2.1 hnew
    · simp only [bind, Except.bind, if_neg hlength]
      rw [not_or, not_not, not_not] at hlength
      refine ⟨fun h => ⟨not_lt.mp hindex, hlength.1, hlength.2, Except.ok.inj h⟩, fun h => ?_⟩
      exact congrArg Except.ok h.2.2.2

theorem nonceReturnDomain_length : nonceReturnDomain.length = 21 := by decide

theorem signingBytes_length {statement : NonceReturnStatement} {bytes : List UInt8}
    (h : nonceReturnSigningBytes statement = .ok bytes) : bytes.length = 118 := by
  rcases signingBytes_eq_ok.mp h with ⟨_, hspent, hnew, rfl⟩
  simp only [List.length_append, nonceReturnDomain_length, statement.payer.length_eq,
    List.length_cons, List.length_nil, hspent, hnew]

/-- The first byte is the domain's, the letter `v`. -/
theorem signingBytes_head {statement : NonceReturnStatement} {bytes : List UInt8}
    (h : nonceReturnSigningBytes statement = .ok bytes) : bytes.head? = some 0x76 := by
  rcases signingBytes_eq_ok.mp h with ⟨_, _, _, rfl⟩
  rfl

/-- An index of one byte is told by that byte. -/
theorem index_of_byte {i j : Nat} (hi : i ≤ 255) (hj : j ≤ 255)
    (h : UInt8.ofNat i = UInt8.ofNat j) : i = j := by
  have hbyte := congrArg UInt8.toNat h
  rwa [UInt8.toNat_ofNat', UInt8.toNat_ofNat', Nat.mod_eq_of_lt (by omega),
    Nat.mod_eq_of_lt (by omega)] at hbyte

/-- Different statements have different bytes. -/
theorem signingBytes_inj {statement statement' : NonceReturnStatement} {bytes : List UInt8}
    (h : nonceReturnSigningBytes statement = .ok bytes)
    (h' : nonceReturnSigningBytes statement' = .ok bytes) : statement = statement' := by
  rcases signingBytes_eq_ok.mp h with ⟨hindex, hspent, hnew, hbytes⟩
  rcases signingBytes_eq_ok.mp h' with ⟨hindex', hspent', hnew', hbytes'⟩
  have heq := hbytes.trans hbytes'.symm
  -- The fields are taken off from the right, where each has a fixed width.
  rcases List.append_inj' heq (hnew.trans hnew'.symm) with ⟨heq, hvalue⟩
  rcases List.append_inj' heq (hspent.trans hspent'.symm) with ⟨heq, hprior⟩
  rcases List.append_inj' heq rfl with ⟨heq, hbyte⟩
  have hpayer := List.append_cancel_left heq
  rcases statement with ⟨⟨payer, hlength⟩, index, ⟨prior⟩, ⟨value⟩⟩
  rcases statement' with ⟨⟨payer', hlength'⟩, index', ⟨prior'⟩, ⟨value'⟩⟩
  cases hpayer
  cases hprior
  cases hvalue
  cases index_of_byte hindex hindex' (List.cons.inj hbyte).1
  rfl

end Layout

open Async.Process

section Signing

/-- A message of version 0 starts with its version byte. -/
def VersionZero (kit : Kit) : Prop :=
  ∀ message bytes, kit.compileTransaction message = .ok bytes → bytes.head? = some 0x80

/-- A merchant that signs statements, through `signNonceReturn`, and canonical
    messages, and nothing else: of the signatures anyone holds, those that verify
    under its key do so over one of these. -/
structure MerchantSigns (kit : Kit) (network : Network ρ) (merchant : Address)
    (statements : Set NonceReturnStatement) (held : Set Signature) : Prop where
  ran : ∀ statement ∈ statements, ∃ signature w,
    (run (reply network) (signNonceReturn statement ⟨merchant⟩) () w).result = .ok signature
  unforgeable : ∀ signature ∈ held, ∀ bytes,
    kit.verifySignature merchant signature bytes = .ok true →
    (∃ statement ∈ statements, nonceReturnSigningBytes statement = .ok bytes) ∨
      ∃ input, buildMessage kit input = .ok bytes

/-- No message is the bytes of a statement. -/
theorem signingBytes_ne_message {kit : Kit} (hversion : VersionZero kit)
    {statement : NonceReturnStatement} {input : CanonicalInput} {bytes : List UInt8}
    (h : nonceReturnSigningBytes statement = .ok bytes) : buildMessage kit input ≠ .ok bytes := by
  intro hbuild
  rcases buildMessage_ok kit hbuild with ⟨lifetime, _, hcompile⟩
  have hhead := (signingBytes_head h).symm.trans (hversion _ _ hcompile)
  exact absurd (Option.some.inj hhead) (by decide)

/-- A statement that verifies was signed. -/
theorem MerchantSigns.signed {kit : Kit} {network : Network ρ} {merchant : Address}
    {statements : Set NonceReturnStatement} {held : Set Signature}
    (h : MerchantSigns kit network merchant statements held) (hversion : VersionZero kit)
    {statement : NonceReturnStatement} {signature : Signature} {bytes : List UInt8}
    (hbytes : nonceReturnSigningBytes statement = .ok bytes) (hheld : signature ∈ held)
    (hverify : kit.verifySignature merchant signature bytes = .ok true) :
    statement ∈ statements := by
  rcases h.unforgeable signature hheld bytes hverify with
    ⟨statement', hsigned, hbytes'⟩ | ⟨input, hbuild⟩
  · exact signingBytes_inj hbytes hbytes' ▸ hsigned
  · exact absurd hbuild (signingBytes_ne_message hversion hbytes)

end Signing

section Applying

variable {network : Network ρ} {pool : PoolConfig} {s : Option PoolState} {w : World ρ}
  {state : PoolState} {net : ρ}

/-- The ledger with a slot freed by a return. -/
def returnedTo (state : PoolState) (slot : PoolSlot) (payload : NonceReturnPayload) : PoolState :=
  { state with
    slots := state.slots.map fun other =>
      if other.index = payload.nonceIndex then
        rearmed slot (some payload.newNonceValue) .unspent none
      else other }

/-- A payload for a spent slot, with another value than the recorded one. -/
structure Names (state : PoolState) (payload : NonceReturnPayload) (slot : PoolSlot)
    (record : SpentRecord) : Prop where
  found : state.slots.find? (fun candidate => candidate.index = payload.nonceIndex) = some slot
  spent : slot.state = .spent
  against : slot.spentAgainst = some record
  moved : payload.newNonceValue ≠ record.value

/-- The return is applied: the ledger in memory is the one with the slot freed,
    and so is the one in the store if the storage takes it. -/
def Returned (network : Network ρ) (pool : PoolConfig) (state' : PoolState) (w : World ρ)
    (x : Async.Outcome (Option PoolState) Thrown (World ρ) PoolStatus) : Prop :=
  x.vars = some state' ∧
    (x.result = .ok (statusOf state') ∧
        x.world.store = w.store.insert (.pool pool.payer) state' ∨
      (∃ e net, x.result = .error e ∧ (network.storage net).1 = some e) ∧
        x.world.store = w.store)

/-- The return is refused as untrusted, and the ledger is as it was. -/
def RefusedReturn (state : PoolState) (w : World ρ)
    (x : Async.Outcome (Option PoolState) Thrown (World ρ) PoolStatus) : Prop :=
  (∃ detail, x.result = .error (vadumError .nonceReturnUntrusted detail)) ∧
    x.vars = some state ∧ x.world.store = w.store

/-- A ledger is written, and the storage takes it or refuses it. -/
theorem returned_persist (state' : PoolState) :
    Returned network pool state' w (run (reply network) (Pool.persist pool state') s w) := by
  rw [run_persist]
  rcases hstorage : network.storage w.net with ⟨_ | e, net'⟩
  · exact ⟨rfl, .inl ⟨rfl, rfl⟩⟩
  · exact ⟨rfl, .inr ⟨⟨e, w.net, rfl, congrArg Prod.fst hstorage⟩, rfl⟩⟩

/-- A return is applied if the ledger names a spent record that its signature
    verifies against, and otherwise refused. -/
theorem run_applyNonceReturn (hfinds : Finds network pool s w state net)
    (payload : NonceReturnPayload) :
    (∃ slot record bytes, Names state payload slot record ∧
      nonceReturnSigningBytes
          ⟨pool.payer, payload.nonceIndex, record.value, payload.newNonceValue⟩ = .ok bytes ∧
      pool.kit.verifySignature record.merchant payload.signature bytes = .ok true ∧
      Returned network pool (returnedTo state slot payload) w
        (run (reply network) (Pool.applyNonceReturn pool payload) s w)) ∨
    RefusedReturn state w (run (reply network) (Pool.applyNonceReturn pool payload) s w) := by
  rw [Pool.applyNonceReturn, run_bind_ok _ (run_awaited_loaded hfinds)]
  dsimp only
  split
  · next index address value record releasedAt hfound =>
    have hindex : index = payload.nonceIndex := by
      simpa only [decide_eq_true_eq] using List.find?_some hfound
    -- The slot is spent and of the payload's index, so the signature decides.
    cases hv : verifyNonceReturn pool.kit payload ⟨pool.payer, record.merchant, record.value⟩ with
    | error e =>
        rcases verifyNonceReturn_error hv with ⟨reason, rfl⟩
        exact .inr ⟨⟨_, rfl⟩, rfl, rfl⟩
    | ok statement =>
        rcases verifyNonceReturn_ok hv with ⟨hmoved, _, rfl, bytes, hbytes, hverify⟩
        refine .inl ⟨_, record, bytes, ⟨hfound, rfl, rfl, hmoved⟩, hbytes, hverify, ?_⟩
        -- The slot the code writes back is the one found, re-armed.
        have hstate : withSlot state (rearmed ⟨index, address, value, .spent, some record,
            releasedAt⟩ (some payload.newNonceValue) .unspent none)
            = returnedTo state ⟨index, address, value, .spent, some record, releasedAt⟩
              payload := by
          rw [withSlot, returnedTo, ← hindex]
          rfl
        rw [← hstate]
        exact @returned_persist _ network pool (some state)
          ⟨w.store, network.tick (network.tick net)⟩ _
  · exact .inr ⟨⟨_, rfl⟩, rfl, rfl⟩

/-- A slot that was freed is not spent. -/
theorem not_names_returnedTo {slot slot' : PoolSlot} {payload : NonceReturnPayload}
    {record : SpentRecord} : ¬ Names (returnedTo state slot payload) payload slot' record := by
  intro hnames
  have hindex : slot'.index = payload.nonceIndex := by
    simpa only [decide_eq_true_eq] using List.find?_some hnames.found
  rcases List.mem_map.mp (List.mem_of_find?_eq_some hnames.found) with ⟨other, _, hother⟩
  have hspent := hnames.spent
  split at hother
  · rw [← hother] at hspent
    cases hspent
  · next hne => exact hne (hother ▸ hindex)

/-- A return that was applied is refused the second time. -/
theorem refused_again {slot : PoolSlot} {payload : NonceReturnPayload} :
    RefusedReturn (returnedTo state slot payload) w
      (run (reply network) (Pool.applyNonceReturn pool payload)
        (some (returnedTo state slot payload)) w) := by
  have hfinds : Finds network pool (some (returnedTo state slot payload)) w
      (returnedTo state slot payload) w.net := .inl ⟨rfl, rfl⟩
  rcases run_applyNonceReturn hfinds payload with ⟨_, _, _, hnames, _⟩ | hrefused
  · exact absurd hnames not_names_returnedTo
  · exact hrefused

/-- What a return is good for. The signed bytes of a statement are 118, unlike
    those of any other statement and of any message. Where merchants sign nothing
    else, a return is applied only if the merchant recorded for the slot signed
    for this payer, this slot, the recorded value and the new one, which differs;
    it frees that slot, is refused the second time, and any other is refused and
    leaves the ledger as it was. -/
theorem returns_bound (network : Network ρ) (pool : PoolConfig) :
    (∀ statement : NonceReturnStatement, statement.nonceIndex ≤ 255 →
      statement.spentAgainstValue.bytes.length = 32 →
      statement.newNonceValue.bytes.length = 32 →
      ∃ bytes, nonceReturnSigningBytes statement = .ok bytes ∧ bytes.length = 118 ∧
        bytes.head? ≠ some 0x80 ∧
        ∀ statement', nonceReturnSigningBytes statement' = .ok bytes → statement' = statement) ∧
    (VersionZero pool.kit → ∀ (signed : Address → Set NonceReturnStatement) (held : Set Signature),
      (∀ merchant, MerchantSigns pool.kit network merchant (signed merchant) held) →
      ∀ s w state net, Finds network pool s w state net →
      ∀ payload : NonceReturnPayload, payload.signature ∈ held →
      let first := run (reply network) (Pool.applyNonceReturn pool payload) s w
      (∃ slot record, Names state payload slot record ∧
        ⟨pool.payer, payload.nonceIndex, record.value, payload.newNonceValue⟩
          ∈ signed record.merchant ∧
        Returned network pool (returnedTo state slot payload) w first ∧
        RefusedReturn (returnedTo state slot payload) first.world
          (run (reply network) (Pool.applyNonceReturn pool payload) first.vars first.world)) ∨
      RefusedReturn state w first) := by
  constructor
  · intro statement hindex hspent hnew
    have hbytes := signingBytes_eq_ok.mpr ⟨hindex, hspent, hnew, rfl⟩
    refine ⟨_, hbytes, signingBytes_length hbytes, ?_, fun _ h => signingBytes_inj h hbytes⟩
    rw [signingBytes_head hbytes]
    decide
  · intro hversion signed held hsigns s w state net hfinds payload hheld
    -- Applied or refused. What was applied was signed, and does not apply again.
    rcases run_applyNonceReturn hfinds payload with
      ⟨slot, record, bytes, hnames, hbytes, hverify, hreturned⟩ | hrefused
    · refine .inl ⟨slot, record, hnames, ?_, hreturned, ?_⟩
      · exact (hsigns record.merchant).signed hversion hbytes hheld hverify
      · rw [hreturned.1]
        exact refused_again
    · exact .inr hrefused

/-- The statement of a settled payment, and the bytes its merchant signs. -/
def settledStatement : NonceReturnStatement := ⟨testAddress 1, 0, testNonce 7, testNonce 9⟩

def settledBytes : List UInt8 :=
  nonceReturnDomain ++ (testAddress 1).bytes ++ [0] ++ (testNonce 7).bytes ++ (testNonce 9).bytes

/-- A library whose messages start with their version, and a platform that has
    signed one statement, for one merchant. -/
def settledKit : Kit :=
  { testKit with
    compileTransaction := fun message => (0x80 :: ·) <$> testKit.compileTransaction message
    verifySignature := fun key signature bytes =>
      .ok (key = testAddress 2 ∧ signature = testSignature (testAddress 2) settledBytes ∧
        bytes = settledBytes) }

def settledReturn : NonceReturnPayload :=
  ⟨0, testNonce 9, testSignature (testAddress 2) settledBytes⟩

/-- A pool whose one slot is spent, on a payment to that merchant. -/
def settledPool : PoolConfig := { testPool with kit := settledKit }

def settledSlot : PoolSlot :=
  ⟨0, testAddress 3, some (testNonce 7), .spent, some ⟨testNonce 7, testAddress 2, 5⟩, none⟩

def settledState : PoolState := ⟨testAddress 1, 1, "epoch", [settledSlot], some [⟨5, 10⟩]⟩

theorem settledBytes_ok : nonceReturnSigningBytes settledStatement = .ok settledBytes :=
  signingBytes_eq_ok.mpr ⟨by decide, rfl, rfl, rfl⟩

theorem merchantSigns_settledKit (merchant : Address) :
    MerchantSigns settledKit fakeNetwork merchant
      {statement | merchant = testAddress 2 ∧ statement = settledStatement} Set.univ where
  ran := by
    rintro statement ⟨_, rfl⟩
    refine ⟨testSignature merchant settledBytes, ⟨∅, {}⟩, ?_⟩
    rw [signNonceReturn, settledBytes_ok]
    rfl
  unforgeable := by
    intro signature _ bytes h
    have hone := of_decide_eq_true (Except.ok.inj h)
    exact .inl ⟨settledStatement, ⟨hone.1, rfl⟩, hone.2.2 ▸ settledBytes_ok⟩

theorem returns_bound_settledReturn :
    Returned fakeNetwork settledPool (returnedTo settledState settledSlot settledReturn) ⟨∅, {}⟩
      (run (reply fakeNetwork) (Pool.applyNonceReturn settledPool settledReturn)
        (some settledState) ⟨∅, {}⟩) := by
  rcases (returns_bound fakeNetwork settledPool).2 (fun message bytes h => by cases h; rfl) _ _
    merchantSigns_settledKit (some settledState) ⟨∅, {}⟩ settledState {} (.inl ⟨rfl, rfl⟩)
    settledReturn (Set.mem_univ _) with ⟨slot, record, hnames, _, hreturned, _⟩ | ⟨_, hvars, _⟩
  · cases hnames.found
    exact hreturned
  · exact absurd hvars (by decide +kernel)

end Applying

end Vadum
