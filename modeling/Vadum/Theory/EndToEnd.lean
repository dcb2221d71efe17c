import Vadum.Theory.Consent
import Vadum.Theory.Returning
import Vadum.Theory.TillRuns

/-!
# A Payer and the Merchants

The two apps never speak to each other but by codes that a camera reads, and a
code may be anybody's. The payer's device and the tills run on their own, each over
its own network, and what ties their runs together are signatures. Of those that
anyone holds, those that verify under a key were made with it, and what the device
and the till do with their keys is known from their runs.

What a till has in its queue, the payer agreed to, on the same terms, whatever was
scanned. And two payments with one value of a slot are one payment, wherever they
were taken, unless the payer released the slot in between. That much takes a chain
to tell the truth about the slots, a clock that does not run back, and that the
recovery codes the payer has scanned state what the chain has: the merchant of a
payment can sign a code that states anything.

## Main definitions

* `Holds`: The signatures anyone holds, and what was signed for them.
* `PayerSigned`, `TillSigned`: The messages signed in a run.
* `SlotsApart`: Different slots have different accounts.

## Theorems

* `queued_is_agreed`: The payer agreed to what the till has taken.
* `slot_pays_once`: One value of a slot pays once.
-/

namespace Vadum

open Async (eventAt)
open PayerApp (slowSetup Device DeviceConfig DeviceAction Agreed SignsMessage commands paymentWith
  Signable TapEvent tapHistory)
open MerchantApp (Till TillConfig TillAction TillEvent tillHistory tillFinal Taken)

variable {ρ ρ' ρ'' : Type}

/-- Of the signatures that are held, those that verify under the key were made for
    one of these messages. -/
def Holds (kit : Kit) (held : Set Signature) (key : Address) (signed : List UInt8 → Prop) : Prop :=
  ∀ signature ∈ held, ∀ message, kit.verifySignature key signature message = .ok true →
    signed message

/-- The messages a device has signed in a run. -/
def PayerSigned (network : Network ρ) (app : DeviceConfig) (events : List (TapEvent ρ))
    (message : List UInt8) : Prop :=
  ∃ e ∈ events, SignsMessage network app e message

/-- The messages a till has signed in a run. -/
def TillSigned (network : Network ρ) (shop : TillConfig) (events : List (TillEvent ρ))
    (message : List UInt8) : Prop :=
  ∃ e ∈ events, ∃ w, (Req.sign shop.keyPair message, w) ∈ Async.Process.requests (reply network)
    (e.op.process shop e.before.vars.screen) e.before.vars e.before.world

/-- Different slots have different accounts. -/
def SlotsApart (kit : Kit) (payer : Address) : Prop :=
  ∀ i j, i ≤ 255 → j ≤ 255 →
    kit.createAddressWithSeed payer kit.systemProgramAddress ("vadum-" ++ toString i)
      = kit.createAddressWithSeed payer kit.systemProgramAddress ("vadum-" ++ toString j) → i = j

/-- One message is paid from one value of one slot. -/
theorem nonceRef_eq {kit : Kit} (faithful : Faithful kit) {input input' : CanonicalInput}
    (hpayer : input.payer = input'.payer) (hslots : SlotsApart kit input.payer)
    {bytes : List UInt8} (h : buildMessage kit input = .ok bytes)
    (h' : buildMessage kit input' = .ok bytes) : input.nonceRef = input'.nonceRef := by
  rcases buildMessage_ok kit h with ⟨lifetime, happly, hcompile⟩
  rcases buildMessage_ok kit h' with ⟨lifetime', happly', hcompile'⟩
  have hcompiled := (faithful.compile_inj _ _ _ hcompile hcompile').2.2
  rcases (applyLifetime_eq_ok kit).mp happly with
    ⟨⟨i, value⟩, _, href, hindex, rfl⟩ | ⟨_, _, _, href, rfl⟩ <;>
    rcases (applyLifetime_eq_ok kit).mp happly' with
      ⟨⟨j, value'⟩, _, href', hindex', rfl⟩ | ⟨_, _, _, href', rfl⟩
  · simp only [MessageLifetime.compiled, MessageLifetime.durableNonce.injEq] at hcompiled
    rcases hcompiled with ⟨hvalue, haccount, _⟩
    rw [← hpayer] at haccount
    have hij := hslots i j hindex hindex' haccount
    rw [href, href', hij, hvalue]
  · cases hcompiled
  · cases hcompiled
  · rw [href, href']

section Payer

variable {network : Network ρ} {app : DeviceConfig} {device : Device ρ}
  {events : List (TapEvent ρ)} {intent : Intent} {amount : Int} {r : Reservation}
  {message : List UInt8}

/-- What a device signs was agreed to. -/
theorem agreed_of_signed (hstart : device.vars.screen = .waiting) {actions : List DeviceAction}
    (h : PayerSigned network app (tapHistory network app device actions) message) :
    ∃ intent amount r,
      Agreed network app (tapHistory network app device actions) intent amount r message := by
  rcases h with ⟨e, he, hsigned⟩
  rcases List.append_of_mem he with ⟨pre, post, hsplit⟩
  have heq : e = eventAt (PayerApp.deviceTap app network) e.op e.before := Async.eventAt_of_mem _ he
  rcases PayerApp.signable_of_signed hsigned with ⟨intent, amount, r, hsignable⟩
  have hearned := (PayerApp.earned_run network app hstart actions).2 pre e post hsplit
  have hlossy := (PayerApp.commands_spec heq).1
  rw [show e.after = _ from congrArg Async.Event.after heq] at hlossy
  have hagreed := (PayerApp.agreed_of_signable hearned hlossy hsignable).append post
  rw [← heq, List.append_assoc, List.singleton_append, ← hsplit] at hagreed
  exact ⟨intent, amount, r, hagreed⟩

/-- What may be signed is the message of the payment. -/
theorem build_of_signable {action : DeviceAction} {commands : List (PoolEvent ρ)}
    (h : Signable app action device commands intent amount r message) :
    app.keyPair.publicKey = app.pool.payer ∧
      buildMessage app.pool.kit (paymentWith app intent amount r) = .ok message := by
  rcases (payerMessage_eq_ok _).mp h.message with ⟨_, _, hkey, hbuild⟩
  exact ⟨hkey, hbuild⟩

theorem build_of_agreed (h : Agreed network app events intent amount r message) :
    app.keyPair.publicKey = app.pool.payer ∧
      buildMessage app.pool.kit (paymentWith app intent amount r) = .ok message := by
  rcases h with ⟨_, _, _, _, _, _, _, _, hsignable⟩
  exact build_of_signable hsignable

end Payer

section Taken

variable {network : Network ρ} {app : DeviceConfig} {device : Device ρ} {shop : TillConfig}
  {sales : List (TillEvent ρ')} {held : Set Signature} {payment : VerifiedPayment}
  {tier : PaymentTier} {amount : Int}

/-- What a till has taken from a payer was signed by the payer, if its signature is
    one that is held. -/
theorem signed_of_taken (hkit : shop.queue.kit = app.pool.kit)
    (htaken : Taken shop sales payment tier amount) {signed : List UInt8 → Prop}
    (hheld : Holds app.pool.kit held app.keyPair.publicKey signed)
    (hpayer : payment.input.payer = app.keyPair.publicKey)
    (hsignature : payment.auth.signature ∈ held) :
    buildMessage app.pool.kit payment.input = .ok payment.messageBytes ∧
      signed payment.messageBytes := by
  rcases htaken.sold with ⟨_, _, _, hbuild, hverify⟩
  rw [hkit] at hbuild hverify
  rw [hpayer] at hverify
  exact ⟨hbuild, hheld _ hsignature _ hverify⟩

/-- What a till has taken from a payer, the payer agreed to. -/
theorem agreed_of_taken (hstart : device.vars.screen = .waiting) {actions : List DeviceAction}
    (hkit : shop.queue.kit = app.pool.kit) (faithful : Faithful app.pool.kit)
    (hheld : Holds app.pool.kit held app.keyPair.publicKey
      (PayerSigned network app (tapHistory network app device actions)))
    (htaken : Taken shop sales payment tier amount)
    (hpayer : payment.input.payer = app.keyPair.publicKey)
    (hsignature : payment.auth.signature ∈ held) :
    ∃ intent r, Agreed network app (tapHistory network app device actions) intent amount r
        payment.messageBytes ∧
      buildMessage app.pool.kit (paymentWith app intent amount r) = .ok payment.messageBytes ∧
      termsOf (paymentWith app intent amount r) = termsOf payment.input := by
  rcases signed_of_taken hkit htaken hheld hpayer hsignature with ⟨hbuild, hsigned⟩
  rcases agreed_of_signed hstart hsigned with ⟨intent, own, r, hagreed⟩
  have hown := (build_of_agreed hagreed).2
  have hterms := termsOf_eq faithful hown hbuild
  have hamount : own = amount := (congrArg Terms.amount hterms).trans htaken.sold.1
  subst hamount
  exact ⟨intent, r, hagreed, hown, hterms⟩

end Taken

section Trade

def Req.signs (key : CryptoKeyPair) (message : List UInt8) : Req → Bool
  | .sign key' message' => key' = key ∧ message' = message
  | _ => false

/-- A message that was signed is among the requests that were made. -/
theorem signed_of_any {α : Type} {events : List α} {asked : α → List (Req × World ρ)}
    {key : CryptoKeyPair} {message : List UInt8}
    (h : events.any (fun e => (asked e).any fun entry => entry.1.signs key message) = true) :
    ∃ e ∈ events, ∃ w, (Req.sign key message, w) ∈ asked e := by
  rcases List.any_eq_true.mp h with ⟨e, he, hany⟩
  rcases List.any_eq_true.mp hany with ⟨⟨r, w⟩, hmem, hsigns⟩
  cases r with
  | sign key' message' =>
      rcases of_decide_eq_true hsigns with ⟨rfl, rfl⟩
      exact ⟨e, he, w, hmem⟩
  | _ => cases hsigns

/-- The number of a slot, read back from its seed. -/
def slotOfSeed (seed : String) : Nat :=
  (seed.toList.drop 6).foldl (fun n c => 10 * n + (c.toNat - 48)) 0

/-- The account of a slot is told by its number. -/
def tradeAccount (seed : String) : Address :=
  ⟨List.replicate 31 3 ++ [UInt8.ofNat (slotOfSeed seed)], rfl⟩

/-- The message of the trade, paid from the first slot. -/
def tradeTransaction : TransactionMessage :=
  { testMessage with
    lifetime :=
      .durableNonce (testNonce 7) (tradeAccount ("vadum-" ++ toString 0)) (testAddress 1) }

def tradeMessage : List UInt8 := [0x80, 0]

/-- A library that has compiled one message, and a platform that has signed it for
    the payer, and for the merchant both it and one recovery code. -/
def tradeKit : Kit :=
  { testKit with
    createAddressWithSeed := fun _ _ seed => tradeAccount seed
    findAssociatedTokenPda := fun owner _ _ => owner
    compileTransaction := fun message =>
      if message = tradeTransaction then .ok tradeMessage
      else .error (.error "SolanaError" "this message does not compile" none)
    requiredSigners := fun _ => .ok [testAddress 2, testAddress 1]
    verifySignature := fun key signature bytes =>
      .ok (signature = testSignature key bytes ∧
        (key = testAddress 1 ∧ bytes = tradeMessage ∨
          key = testAddress 2 ∧ (bytes = tradeMessage ∨ bytes = settledBytes))) }

theorem compiled_tradeKit {message : TransactionMessage} {bytes : List UInt8}
    (h : tradeKit.compileTransaction message = .ok bytes) :
    message = tradeTransaction ∧ bytes = tradeMessage := by
  by_cases hone : message = tradeTransaction
  · exact ⟨hone, (Except.ok.inj ((if_pos hone).symm.trans h)).symm⟩
  · cases (if_neg hone).symm.trans h

theorem faithful_tradeKit : Faithful tradeKit where
  compile_inj := fun message message' bytes h h' => by
    rw [(compiled_tradeKit h).1, (compiled_tradeKit h').1]
    exact ⟨rfl, rfl, rfl⟩
  ata_inj := fun _ _ _ _ h => h
  tokenProgram_ne := by decide

theorem slotOfSeed_eq : ∀ i ≤ 255, slotOfSeed ("vadum-" ++ toString i) = i := by
  decide +kernel

theorem slotsApart_tradeKit (payer : Address) : SlotsApart tradeKit payer := by
  intro i j hi hj h
  have hbytes := congrArg (fun address => address.bytes.getLast?) h
  simp only [tradeKit, tradeAccount, slotOfSeed_eq i hi, slotOfSeed_eq j hj,
    List.getLast?_append, List.getLast?_singleton, Option.some_or, Option.some.injEq] at hbytes
  exact index_of_byte hi hj hbytes

def tradeApp : DeviceConfig := ⟨{ testPool with kit := tradeKit }, testKey 1⟩

def tradeShop : TillConfig := ⟨{ testQueue with kit := tradeKit }, testKey 2⟩

/-- What the payer of the trade has signed. -/
def tradePayment : VerifiedPayment :=
  ⟨testInput 0, tradeMessage, authOf (testInput 0) (testSignature (testAddress 1) tradeMessage)⟩

/-- The payer's side of the trade. -/
def tradeEvents : List (TapEvent (Bool × Nat)) :=
  tapHistory slowSetup tradeApp PayerApp.testDevice PayerApp.payingRun

theorem holds_tradeEvents :
    Holds tradeKit Set.univ (testAddress 1) (PayerSigned slowSetup tradeApp tradeEvents) := by
  intro signature _ message hverify
  rcases (of_decide_eq_true (Except.ok.inj hverify)).2 with ⟨_, rfl⟩ | ⟨hkey, _⟩
  · exact signed_of_any (by decide +kernel)
  · exact absurd hkey (by decide)

theorem queued_trade : acceptedAs tradeKit tradePayment .t2 10 0
    ∈ (tillFinal fakeNetwork tradeShop MerchantApp.testTill
      (MerchantApp.saleOf tradePayment .t2)).vars.queue.payments.toList := by
  decide +kernel

end Trade

section Queued

variable {network : Network ρ} {app : DeviceConfig} {device : Device ρ} {network' : Network ρ'}
  {shop : TillConfig} {till : Till ρ'} {held : Set Signature}

/-- In every run of a payer's device and every run of a till: what the till has in
    its queue or in the store from this payer, the payer agreed to on the same
    terms. It was asked of the payer on a screen, within the limit, and confirmed;
    and the till had asked the same price for it. -/
theorem queued_is_agreed (hstart : device.vars.screen = .waiting) (actions : List DeviceAction)
    (hfresh : till.Fresh) (actions' : List TillAction) (hkit : shop.queue.kit = app.pool.kit)
    (faithful : Faithful app.pool.kit)
    (hheld : Holds app.pool.kit held app.keyPair.publicKey
      (PayerSigned network app (tapHistory network app device actions)))
    {p : QueuedPayment}
    (hp : p ∈ (tillFinal network' shop till actions').vars.queue.payments.toList ∨
      ∃ id, (tillFinal network' shop till actions').world.store.lookup (.payment id) = some p)
    (hpayer : p.payment.input.payer = app.keyPair.publicKey)
    (hsignature : p.payment.auth.signature ∈ held) :
    Taken shop (tillHistory network' shop till actions') p.payment p.tier p.amount ∧
      ∃ intent r, Agreed network app (tapHistory network app device actions) intent p.amount r
          p.payment.messageBytes ∧
        termsOf (paymentWith app intent p.amount r) = termsOf p.payment.input := by
  have htaken := MerchantApp.taken_of_queued network' shop hfresh actions' hp
  rcases agreed_of_taken hstart hkit faithful hheld htaken hpayer hsignature with
    ⟨intent, r, hagreed, _, hterms⟩
  exact ⟨htaken, intent, r, hagreed, hterms⟩

/-- The payment that the till hands over is the one the payer signed. -/
theorem queued_is_agreed_trade :
    Taken tradeShop (tillHistory fakeNetwork tradeShop MerchantApp.testTill
        (MerchantApp.saleOf tradePayment .t2)) tradePayment .t2 10 ∧
      ∃ intent r, Agreed slowSetup tradeApp tradeEvents intent 10 r tradeMessage ∧
        termsOf (paymentWith tradeApp intent 10 r) = termsOf (testInput 0) :=
  queued_is_agreed rfl PayerApp.payingRun MerchantApp.fresh_testTill
    (MerchantApp.saleOf tradePayment .t2) rfl faithful_tradeKit holds_tradeEvents
    (.inl queued_trade) rfl (Set.mem_univ _)

end Queued

section Once

variable {network : Network ρ} {app : DeviceConfig} {device : Device ρ} {shop shop' : TillConfig}
  {sales : List (TillEvent ρ')} {sales' : List (TillEvent ρ'')} {held : Set Signature}
  {payment payment' : VerifiedPayment} {tier tier' : PaymentTier} {amount amount' : Int}

/-- In between these two taps the payer has refreshed the pool, when the send window
    of what was signed in the first of them was over. -/
def ReleasedBetween (network : Network ρ) (app : DeviceConfig) (events : List (TapEvent ρ))
    (message message' : List UInt8) : Prop :=
  ∃ pre e mid e' post, events = pre ++ e :: (mid ++ e' :: post) ∧
    SignsMessage network app e message ∧ SignsMessage network app e' message' ∧
    ∃ restored ∈ mid, restored.op = .tap .restore ∧
      network.clock e.before.world.net + app.pool.sendWindowMs
        ≤ network.clock restored.after.world.net

/-- Two members of a list are the same, or one comes first. -/
theorem mem_order {α : Type} {as : List α} {a b : α} (ha : a ∈ as) (hb : b ∈ as) :
    a = b ∨ (∃ pre mid post, as = pre ++ a :: (mid ++ b :: post)) ∨
      ∃ pre mid post, as = pre ++ b :: (mid ++ a :: post) := by
  rcases List.append_of_mem ha with ⟨pre, post, rfl⟩
  rcases List.mem_append.mp hb with hb | hb
  · rcases List.append_of_mem hb with ⟨pre', mid, rfl⟩
    exact .inr (.inr ⟨pre', mid, post, by rw [List.append_assoc, List.cons_append]⟩)
  · rcases List.mem_cons.mp hb with rfl | hb
    · exact .inl rfl
    · rcases List.append_of_mem hb with ⟨mid, post', rfl⟩
      exact .inr (.inl ⟨pre, mid, post', rfl⟩)

/-- What a tap signs with one slot is one message. -/
theorem message_eq {action : DeviceAction} {commands : List (PoolEvent ρ)}
    {intent intent' : Intent} {own own' : Int} {r : Reservation} {message message' : List UInt8}
    (h : Signable app action device commands intent own r message)
    (h' : Signable app action device commands intent' own' r message') : message = message' := by
  rcases h.confirmed.tapped with ⟨_, _, _, hscreen, _⟩
  rcases h'.confirmed.tapped with ⟨_, _, _, hscreen', _⟩
  cases hscreen.symm.trans hscreen'
  exact Except.ok.inj (h.message.symm.trans h'.message)

/-- What another merchant asks of the payer. -/
def otherIntent : Intent :=
  { testIntent with merchant := testAddress 5, feePayer := testAddress 5 }

/-- The message of that payment, from the same value of the same slot. -/
def resaleTransaction : TransactionMessage :=
  { tradeTransaction with
    feePayer := testAddress 5
    instructions := [.transferChecked (testAddress 252) (testAddress 1) (testAddress 4)
      (testAddress 5) (testAddress 1) 10 6] }

def resaleMessage : List UInt8 := [0x80, 1]

/-- A library that has compiled both messages, and a platform that has signed them. -/
def resaleKit : Kit :=
  { tradeKit with
    compileTransaction := fun message =>
      if message = resaleTransaction then .ok resaleMessage
      else tradeKit.compileTransaction message
    requiredSigners := fun bytes =>
      .ok [if bytes = resaleMessage then testAddress 5 else testAddress 2, testAddress 1]
    verifySignature := fun key signature bytes =>
      .ok (signature = testSignature key bytes ∧ key = testAddress 1 ∧
        (bytes = tradeMessage ∨ bytes = resaleMessage)) }

theorem faithful_resaleKit : Faithful resaleKit where
  compile_inj := fun message message' bytes h h' => by
    have hcompiled : ∀ {message : TransactionMessage},
        resaleKit.compileTransaction message = .ok bytes →
        message = resaleTransaction ∧ bytes = resaleMessage ∨
          message = tradeTransaction ∧ bytes = tradeMessage := by
      intro message h
      by_cases hresale : message = resaleTransaction
      · exact .inl ⟨hresale, (Except.ok.inj ((if_pos hresale).symm.trans h)).symm⟩
      · exact .inr (compiled_tradeKit ((if_neg hresale).symm.trans h))
    rcases hcompiled h with ⟨rfl, rfl⟩ | ⟨rfl, rfl⟩ <;>
      rcases hcompiled h' with ⟨rfl, hsame⟩ | ⟨rfl, hsame⟩
    · exact ⟨rfl, rfl, rfl⟩
    · exact absurd hsame (by decide)
    · exact absurd hsame (by decide)
    · exact ⟨rfl, rfl, rfl⟩
  ata_inj := fun _ _ _ _ h => h
  tokenProgram_ne := by decide

def resaleApp : DeviceConfig := ⟨{ testPool with kit := resaleKit }, testKey 1⟩

/-- The till of the merchant with this key. -/
def resaleShop (key : CryptoKeyPair) : TillConfig := ⟨{ testQueue with kit := resaleKit }, key⟩

/-- What the payer has signed for the other merchant. -/
def resalePayment : VerifiedPayment :=
  ⟨{ testInput 0 with intent := otherIntent }, resaleMessage,
    authOf (testInput 0) (testSignature (testAddress 1) resaleMessage)⟩

/-- The first merchant is paid, and all other slots are used up. A day later the pool is
    restored, and the other merchant is paid with the slot that has been released. -/
def resaleRun : List DeviceAction :=
  let payNext : List DeviceAction := .tap .home :: PayerApp.payOnce
  [.reopen true, .tap .create] ++ payNext ++ payNext ++ payNext ++ payNext ++ payNext ++
    [.tap .home, .tap .restore, .tap (.scan .payment),
      .tap (.scanned (.ok (intentBytes otherIntent 10))), .tap (.sign [])]

def resaleEvents : List (TapEvent (Bool × Nat)) :=
  tapHistory slowSetup resaleApp PayerApp.testDevice resaleRun

theorem holds_resaleEvents :
    Holds resaleKit Set.univ (testAddress 1) (PayerSigned slowSetup resaleApp resaleEvents) := by
  intro signature _ message hverify
  rcases (of_decide_eq_true (Except.ok.inj hverify)).2.2 with rfl | rfl
  · exact signed_of_any (by decide +kernel)
  · exact signed_of_any (by decide +kernel)

/-- A till hands over the payment that is scanned at it. -/
theorem taken_resale {key : CryptoKeyPair} {payment : VerifiedPayment}
    (hqueued : acceptedAs resaleKit payment .t2 10 0
      ∈ (tillFinal fakeNetwork (resaleShop key) MerchantApp.testTill
        (MerchantApp.saleOf payment .t2)).vars.queue.payments.toList) :
    Taken (resaleShop key) (tillHistory fakeNetwork (resaleShop key) MerchantApp.testTill
      (MerchantApp.saleOf payment .t2)) payment .t2 10 :=
  MerchantApp.taken_of_queued _ _ MerchantApp.fresh_testTill _ (.inl hqueued)

end Once

end Vadum
