import Vadum.Theory.AirGap
import Vadum.Theory.Reserving

/-!
# The Sign Step

The payer's app spends a slot before it signs, so that a crash costs a slot and
never a second payment against it. A refusal between the two costs a slot as
well, and the amount counts against the spend limit for a day. The step is in
vain whenever the payment it reserved for has no canonical message.

Which payments those are is known before the slot is spent. A fresh request has
no use for a slot, yet the step always passes one; and a request of the payer's
own, or of a merchant whose address is a program, has no message either.

## Main definitions

* `SignsOrSpares`: A step that ends in a good answer or leaves the ledger alone.

## Theorems

* `payerMessage_isOk`: The payments that can be signed with a slot.
* `signsOrSpares_iff`: When the step signs or spares.
* `fresh_request_in_vain`: A fresh request spends a slot and is refused.
-/

namespace Vadum

open Checks Async.Process PayerApp

variable {ρ : Type}

section Step

variable {network : Network ρ} {pool : PoolConfig} {intent : Intent} {key : CryptoKeyPair}
  {amount now : Int} {s : Option PoolState} {w : World ρ} {state : PoolState} {net : ρ}

/-- The intents the payer's app can have: one of the decoders returned it. -/
def Decoded (intent : Intent) : Prop :=
  ∃ bytes ctx, decodeIntent bytes ctx = .ok intent ∨ decodeStaticIntent bytes ctx = .ok intent

theorem Decoded.requestable (h : Decoded intent) :
    Requestable intent ∧ 0 ≤ intent.decimals ∧ intent.decimals ≤ 255 := by
  rcases h with ⟨bytes, ctx, h | h⟩
  · rcases decodeIntent_eq_ok.mp h with ⟨own, henc, hcached, _⟩
    refine ⟨⟨henc.feePayer_eq, ?_, henc.blockhash_length⟩, hcached.1, hcached.2.1⟩
    rw [henc.dynamic, henc.amount_eq]
    rfl
  · rcases decodeStaticIntent_eq_ok.mp h with ⟨henc, hcached, _⟩
    refine ⟨⟨henc.feePayer_eq, ?_, fun _ _ hkind => ?_⟩, hcached.1, hcached.2.1⟩
    · rw [henc.printed, henc.amount_eq]
      rfl
    · cases henc.lifetime_eq.symm.trans hkind

/-- The payments that can be signed with a slot: on the nonce path, to another
    merchant than the payer itself and than a program, of an amount and a slot
    that fit. -/
theorem payerMessage_isOk {kit : Kit} (library : Library kit) (hdecoded : Decoded intent)
    (hpositive : 0 < amount) (hown : ∀ own, intent.amount = some own → own = amount)
    (ref : NonceRef) :
    (∃ bytes, payerMessage kit ⟨intent, key.publicKey, some ref, amount⟩ key = .ok bytes) ↔
      intent.lifetime = .nonce ∧ intent.merchant ≠ key.publicKey ∧
      intent.merchant ∉ invokedPrograms kit intent ∧ amount ≤ u64Max ∧
      ref.index ≤ 255 ∧ ref.value.bytes.length = 32 := by
  rcases hdecoded.requestable with ⟨hrequest, hlow, hhigh⟩
  have hbuildable : (∃ bytes, buildMessage kit ⟨intent, key.publicKey, some ref, amount⟩
      = .ok bytes) ↔ _ := buildMessage_isOk kit library
  simp only [payerMessage_eq_ok, exists_and_left, hbuildable, buildable_iff, hrequest.static_eq,
    hrequest.feePayer_eq, hlow, hhigh, hpositive.le, true_and]
  refine ⟨fun ⟨hpayer, hamount, _, hfits, hprogram⟩ => ?_,
    fun ⟨hkind, hpayer, hprogram, hamount, hfits⟩ => ⟨hpayer, hamount, hown, ?_, hprogram⟩⟩
  · rcases hkind : intent.lifetime with _ | ⟨hash, height⟩
    · rw [hkind] at hfits
      exact ⟨rfl, hpayer, hprogram, hamount, hfits⟩
    · rw [hkind] at hfits
      exact hfits.elim
  · rw [hkind]
    exact hfits

/-- A step that signs or spares: it ends in an answer the merchant accepts for
    every amount it may expect, or it is refused with the ledger, in memory and
    in the store, as it was. -/
def SignsOrSpares (kit : Kit) (intent : Intent) (amount : Int) (state : PoolState) (store : Store)
    (o : Async.Outcome (Option PoolState) Thrown (World ρ) Auth) : Prop :=
  (∃ auth, o.result = .ok auth ∧ ∀ expectedAmount,
    (expectedAmount = some amount ∨ intent.isStatic = false ∧ expectedAmount = none) →
    ∃ payment, verifyAuth kit intent auth expectedAmount = .ok payment) ∨
  (∃ e, o.result = .error e) ∧ o.vars.getD state = state ∧ o.world.store = store

/-- A step that has a slot to reserve leaves the ledger with the slot spent,
    however it ends. -/
theorem run_authorise (hfinds : Finds network pool s w state net) {slot : PoolSlot}
    {value : Nonce} (hslot : Pool.chooseSlot state = some slot) (hvalue : slot.value = some value)
    (hpositive : 0 < amount)
    (hallowance : amount ≤ (Pool.allowanceOf pool (some state) now).remaining) :
    let input : CanonicalInput := ⟨intent, pool.payer, some ⟨slot.index, value⟩, amount⟩
    let ledger := reserved pool state slot value intent.merchant now amount
    run (reply network) (authorise pool key intent amount now) s w
      = match network.storage (network.tick net), payerMessage pool.kit input key with
        | (some e, net'), _ => ⟨.error e, some ledger, ⟨w.store, net'⟩⟩
        | (none, net'), .error e =>
          ⟨.error e, some ledger, ⟨w.store.insert (.pool pool.payer) ledger, net'⟩⟩
        | (none, net'), .ok bytes =>
          ⟨.ok (authOf input (network.sign key bytes net').1), some ledger,
            ⟨w.store.insert (.pool pool.payer) ledger, (network.sign key bytes net').2⟩⟩ := by
  rw [PayerApp.authorise, run_bind, run_reserveSlot hfinds hslot hvalue hpositive hallowance]
  rcases network.storage (network.tick net) with ⟨_ | e, net'⟩
  · simp only [run_signAsPayer]
    rcases payerMessage pool.kit ⟨intent, pool.payer, some ⟨slot.index, value⟩, amount⟩ key
    · rfl
    · rfl
  · rfl

/-- The step signs or spares exactly if the store accepts the slot's mark and the
    payment has a canonical message with the slot that is next. -/
theorem signsOrSpares_iff (library : Library pool.kit) (ed25519 : Ed25519 pool.kit network)
    (hkey : key.publicKey = pool.payer) (hdecoded : Decoded intent) (hpositive : 0 < amount)
    (hown : ∀ own, intent.amount = some own → own = amount)
    (hfinds : Finds network pool s w state net) (husable : Pool.usable state ≠ [])
    (hallowance : amount ≤ (Pool.allowanceOf pool (some state) now).remaining) :
    SignsOrSpares pool.kit intent amount state w.store
        (run (reply network) (authorise pool key intent amount now) s w) ↔
      (network.storage (network.tick net)).1 = none ∧ intent.lifetime = .nonce ∧
      intent.merchant ≠ pool.payer ∧ intent.merchant ∉ invokedPrograms pool.kit intent ∧
      amount ≤ u64Max ∧ ∀ slot value, Pool.chooseSlot state = some slot →
        slot.value = some value → slot.index ≤ 255 ∧ value.bytes.length = 32 := by
  rcases exists_chooseSlot husable with ⟨slot, value, hslot, hvalue⟩
  -- The slot that is chosen is one, so what is asked of every choice is asked of it.
  have hnext : (∀ slot' value', Pool.chooseSlot state = some slot' → slot'.value = some value' →
      slot'.index ≤ 255 ∧ value'.bytes.length = 32) ↔
      slot.index ≤ 255 ∧ value.bytes.length = 32 := by
    refine ⟨fun h => h slot value hslot hvalue, fun h slot' value' hslot' hvalue' => ?_⟩
    cases hslot.symm.trans hslot'
    cases hvalue.symm.trans hvalue'
    exact h
  have hmessage : (∃ bytes, payerMessage pool.kit
      ⟨intent, key.publicKey, some ⟨slot.index, value⟩, amount⟩ key = .ok bytes) ↔ _ :=
    payerMessage_isOk library hdecoded hpositive hown ⟨slot.index, value⟩
  rw [hkey] at hmessage
  rw [hnext, ← hmessage, run_authorise hfinds hslot hvalue hpositive hallowance]
  -- The write of the reservation passes or not; then the message can be signed or not.
  rcases network.storage (network.tick net) with ⟨_ | e, net'⟩
  · rcases hbytes : payerMessage pool.kit
        ⟨intent, pool.payer, some ⟨slot.index, value⟩, amount⟩ key with e | bytes
    · refine iff_of_false ?_ fun ⟨_, bytes, h⟩ => by cases h
      rintro (⟨auth, hauth, _⟩ | ⟨_, hsame, _⟩)
      · cases hauth
      · exact reserved_ne hslot hsame
    · refine iff_of_true (.inl ⟨_, rfl, fun expectedAmount hexpected => ?_⟩) ⟨rfl, bytes, rfl⟩
      rcases (payerMessage_eq_ok pool.kit).mp hbytes with ⟨hpayer, hstatic, _, hbuild⟩
      refine ⟨⟨⟨intent, pool.payer, some ⟨slot.index, value⟩, amount⟩, bytes, _⟩,
        (verifyAuth_eq_ok pool.kit).mpr ⟨ed25519.length_sign _ _ _, hpayer,
          resolveAmount_authOf hstatic rfl hown hexpected, hbuild, ?_, rfl, rfl⟩⟩
      exact hkey ▸ ed25519.verify_sign key bytes net'
  · refine iff_of_false ?_ fun h => by cases h.1
    rintro (⟨auth, hauth, _⟩ | ⟨_, hsame, _⟩)
    · cases hauth
    · exact reserved_ne hslot hsame

def strictPool : PoolConfig where
  kit := strictKit
  payer := testAddress 1

/-- The ledger of a pool with one slot. -/
def oneSlot : PoolState where
  payer := testAddress 1
  size := 1
  epoch := "epoch"
  slots := [{ index := 0, address := (testAccount 0 (testNonce 7)).1, value := some (testNonce 7),
              state := .unspent, spentAgainst := none, releasedAt := none }]
  spendLog := none

theorem decoded_testIntent : Decoded testIntent :=
  ⟨_, testContext, .inl (decodeIntent_eq_ok.mpr ⟨10, encodable_testIntent,
    ⟨by decide, by decide, testRecord, rfl, rfl, rfl⟩, rfl, rfl⟩)⟩

theorem usable_oneSlot : Pool.usable oneSlot ≠ [] := by decide

theorem signsOrSpares_iff_testIntent :
    SignsOrSpares strictKit testIntent 10 oneSlot ∅ (run (reply fakeNetwork)
      (authorise strictPool (testKey 1) testIntent 10 5) (some oneSlot) ⟨∅, {}⟩) := by
  have hslot {slot : PoolSlot} (h : Pool.chooseSlot oneSlot = some slot) :
      oneSlot.slots.head? = some slot := (show Pool.chooseSlot oneSlot = _ from rfl).symm.trans h
  have hfits : ∀ slot value, Pool.chooseSlot oneSlot = some slot → slot.value = some value →
      slot.index ≤ 255 ∧ value.bytes.length = 32 := by
    intro slot value h hvalue
    cases hslot h
    cases hvalue
    exact ⟨by decide, rfl⟩
  have hprogram : testIntent.merchant ∉ invokedPrograms strictKit testIntent := by decide
  have hallowance : 10 ≤ (Pool.allowanceOf strictPool (some oneSlot) 5).remaining := by decide
  have hkey : (testKey 1).publicKey = strictPool.payer := rfl
  have hfinds : Finds fakeNetwork strictPool (some oneSlot) ⟨∅, {}⟩ oneSlot {} := .inl ⟨rfl, rfl⟩
  exact (signsOrSpares_iff library_strictKit ed25519_strictKit hkey decoded_testIntent
    (by decide) (fun _ h => (Option.some.inj h).symm) hfinds usable_oneSlot hallowance).mpr
    ⟨rfl, rfl, by decide, hprogram, by decide, hfits⟩

/-- The request of `testIntent`, with a blockhash for the payer to use. -/
def freshIntent : Intent :=
  { testIntent with lifetime := .fresh ⟨List.replicate 32 9⟩ 0 }

theorem encodable_freshIntent : Encodable freshIntent 10 where
  dynamic := rfl
  amount_eq := rfl
  amount_nonneg := by decide
  amount_le := by decide
  feePayer_eq := rfl
  blockhash_length := fun _ _ h => by
    cases h
    rfl

/-- A fresh request spends a slot and is refused: the request decodes, the slot
    is there, the allowance is enough, and the step neither signs nor spares. -/
theorem fresh_request_in_vain :
    Decoded freshIntent ∧ Pool.usable oneSlot ≠ [] ∧
      10 ≤ (Pool.allowanceOf strictPool (some oneSlot) 5).remaining ∧
      ¬ SignsOrSpares strictKit freshIntent 10 oneSlot ∅ (run (reply fakeNetwork)
        (authorise strictPool (testKey 1) freshIntent 10 5) (some oneSlot) ⟨∅, {}⟩) := by
  refine ⟨⟨_, testContext, .inl (decodeIntent_eq_ok.mpr ⟨10, encodable_freshIntent,
    ⟨by decide, by decide, testRecord, rfl, rfl, rfl⟩, rfl, rfl⟩)⟩, usable_oneSlot, by decide, ?_⟩
  rcases exists_chooseSlot usable_oneSlot with ⟨slot, value, hslot, hvalue⟩
  have hmessage : payerMessage strictKit
      ⟨freshIntent, testAddress 1, some ⟨slot.index, value⟩, 10⟩ (testKey 1)
      = .error (vadumError .internalNotApplicable
        [("provider", .text "fresh-blockhash"), ("lifetime", .text "fresh")]) := rfl
  have hfinds : Finds fakeNetwork strictPool (some oneSlot) ⟨∅, {}⟩ oneSlot {} := .inl ⟨rfl, rfl⟩
  have hallowance : 10 ≤ (Pool.allowanceOf strictPool (some oneSlot) 5).remaining := by decide
  rw [run_authorise hfinds hslot hvalue (by decide) hallowance]
  rintro (⟨auth, hauth, _⟩ | ⟨_, hsame, _⟩)
  · cases hauth
  · exact reserved_ne hslot hsame

end Step

end Vadum
