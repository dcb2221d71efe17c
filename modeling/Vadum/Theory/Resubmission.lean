import Mathlib.Data.List.Dedup
import Vadum.Async.History
import Vadum.Client.FakeRpc
import Vadum.Theory.Submission

/-!
# Submitting a Payment Again

A payment whose submission failed is submitted again, and what was sent the
first time may have landed by then. The second attempt cannot land, since the
nonce value is used, so it has to recognise what happened from the chain. It
looks up a signature to do so: its own. When the platform signs the same
message twice with the same signature that is also the first attempt's, and the
payment is settled. Safari's does not, and then the payment is reported stale
although it was paid: `settled_as_stale`.

`Cluster` is what the chain and its RPC are relied on for: transactions are
processed once, a nonce value is used once, and the RPC tells the truth.

## Main definitions

* `Landed`, `outcomeOf`: What has landed, and what is said of a signature.
* `Cluster`: A chain, and an RPC that tells the truth about it.
* `SubmitCommand`, `submitStep`: Attempts to submit a payment, one by one.
* `Resubmission`: An attempt that ends after an earlier one has landed.

## Theorems

* `submit_recognises`: When a submission recognises a payment that has landed.
* `landed_recognised`: The same for the attempts of a run.
* `settled_as_stale`: A run that reports a paid payment stale.
-/

namespace Vadum

open Async (Event history)
open Async.Process

variable {ρ : Type}

/-- A transaction that has landed, and whether it was executed without error. -/
structure Landed where
  wire : WireTransaction
  succeeded : Bool
deriving DecidableEq

/-- What a chain on which these have landed says of a signature. -/
def outcomeOf (landed : List Landed) (signature : Signature) : SignatureOutcome :=
  match landed.find? fun t => t.wire.signature = signature with
  | some t => if t.succeeded then .landedOk else .landedFailed
  | none => .absent

/-- A cluster, and an RPC that tells the truth about it. -/
structure Cluster (kit : Kit) (network : Network ρ) where
  landed : ρ → List Landed
  /-- The nonce account a message advances, and the value it takes it from. -/
  advances : List UInt8 → Option (Address × Nonce)
  grows : ∀ n n', Steps network n n' → landed n ⊆ landed n'
  /-- A signature is processed once. -/
  unique : ∀ n, ((landed n).map fun t => t.wire.signature).Nodup
  /-- A value of a nonce account is used once. -/
  once : ∀ n t t' slot, t ∈ landed n → t' ∈ landed n →
    advances t.wire.messageBytes = some slot → advances t'.wire.messageBytes = some slot → t = t'
  /-- A signature is over one message. -/
  signed : ∀ n m t key message, t ∈ landed n →
    t.wire.signature = (network.sign key message m).1 → t.wire.messageBytes = message
  lookup : ∀ n n' signature outcome,
    network.rpc (.getSignatureOutcome signature) n = (.ok outcome, n') →
    outcome = outcomeOf (landed n) signature
  confirmed : ∀ n n' wire lifetime sent,
    network.rpc (.sendPayment wire lifetime) n = (.ok sent, n') → ⟨wire, true⟩ ∈ landed n'
  compiled : ∀ message bytes nonce account authority,
    kit.compileTransaction message = .ok bytes →
    message.lifetime = .durableNonce nonce account authority →
    advances bytes = some (account, nonce)
  feePayerFirst : ∀ message bytes signers, kit.compileTransaction message = .ok bytes →
    kit.requiredSigners bytes = .ok signers → signers.head? = some message.feePayer

section Cluster

variable {kit : Kit} {network : Network ρ} (cluster : Cluster kit network)

theorem Cluster.later {n n' : ρ} (h : Later network n n') :
    cluster.landed n ⊆ cluster.landed n' := by
  induction h with
  | refl => exact List.Subset.refl _
  | tail _ hstep ih => exact List.Subset.trans ih (cluster.grows _ _ hstep)

/-- A signature has landed well if a transaction that has it did. -/
theorem Cluster.outcomeOf_eq {n : ρ} {signature : Signature} :
    outcomeOf (cluster.landed n) signature = .landedOk ↔
      ∃ wire, ⟨wire, true⟩ ∈ cluster.landed n ∧ wire.signature = signature := by
  unfold outcomeOf
  constructor
  · intro h
    rcases hfind : (cluster.landed n).find? fun t => t.wire.signature = signature with _ | t
    · rw [hfind] at h
      cases h
    · rw [hfind] at h
      have hsignature := List.find?_some hfind
      rcases t with ⟨wire, _ | _⟩
      · cases h
      · exact ⟨wire, List.mem_of_find?_eq_some hfind, of_decide_eq_true hsignature⟩
  · rintro ⟨wire, hmem, rfl⟩
    rcases hfind : (cluster.landed n).find? fun t => t.wire.signature = wire.signature with _ | t
    · exact absurd (decide_eq_true rfl) (List.find?_eq_none.mp hfind _ hmem)
    · have hsignature : t.wire.signature = wire.signature := by
        simpa only [decide_eq_true_eq] using List.find?_some hfind
      -- Signatures are unique on the chain, so what is found under one is what landed with it.
      have hsame := List.inj_on_of_nodup_map (cluster.unique n) (List.mem_of_find?_eq_some hfind)
        hmem hsignature
      rw [hfind, hsame]
      rfl

end Cluster

/-- The transaction an attempt that starts here would send. -/
def attemptWire (network : Network ρ) (kit : Kit) (payment : VerifiedPayment)
    (feePayerKey : CryptoKeyPair) (n : ρ) : WireTransaction :=
  wireAt network payment feePayerKey ((kit.requiredSigners payment.messageBytes).toOption.getD []) n

section Recognition

variable {kit : Kit} {network : Network ρ} (cluster : Cluster kit network)
  {payment : VerifiedPayment} (hmessage : buildMessage kit payment.input = .ok payment.messageBytes)
  (hnonce : payment.input.intent.lifetime = .nonce)

include cluster hmessage

/-- What an attempt sends is known by the signature the platform made for it. -/
theorem attempt_signature {key : CryptoKeyPair} {lifetime : PaymentLifetime}
    {signers : List Address} (hsendable : Sendable kit payment key lifetime signers) (n : ρ) :
    (wireAt network payment key signers n).signature
      = (network.sign key payment.messageBytes n).1 := by
  rcases buildMessage_ok kit hmessage with ⟨_, _, hcompile⟩
  have hfirst := cluster.feePayerFirst _ _ _ hcompile hsendable.required
  cases hsigners : signers with
  | nil =>
      rw [hsigners] at hfirst
      cases hfirst
  | cons first rest =>
      rw [hsigners, List.head?_cons, Option.some.injEq] at hfirst
      have hkey : first = key.publicKey := hfirst.trans hsendable.feePayer.symm
      rw [wireAt, signedBy, WireTransaction.signature, List.map_cons, List.head?_cons,
        if_pos hkey]
      rfl

include hnonce

/-- One transaction of a payment lands. -/
theorem lands_once {n : ρ} {t t' : Landed} (ht : t ∈ cluster.landed n)
    (ht' : t' ∈ cluster.landed n) (hbytes : t.wire.messageBytes = payment.messageBytes)
    (hbytes' : t'.wire.messageBytes = payment.messageBytes) : t = t' := by
  rcases buildMessage_ok kit hmessage with ⟨lifetime, hlifetime, hcompile⟩
  rcases applyLifetime_nonce kit hnonce hlifetime with ⟨value, account, rfl⟩
  have hadvances := cluster.compiled _ _ _ _ _ hcompile rfl
  exact cluster.once n t t' _ ht ht' (hbytes ▸ hadvances) (hbytes' ▸ hadvances)

/-- A submission of a payment that has landed, if it ends in an outcome, is
    settled if and only if it signs as the one that landed did. -/
theorem submit_recognises {σ : Type} {key : CryptoKeyPair} {s s' : σ} {w w' : World ρ}
    {o : SubmitOutcome} {wire : WireTransaction}
    (hlanded : ⟨wire, true⟩ ∈ cluster.landed w.net)
    (hbytes : wire.messageBytes = payment.messageBytes)
    (hrun : run (reply network) (submit kit payment key) s w = ⟨.ok o, s', w'⟩) :
    o.isSettled = true ↔
      (attemptWire network kit payment key w.net).signature = wire.signature := by
  rcases submit_cases network s w kit payment key with ⟨_, e, n', herr⟩ |
    ⟨_, lifetime, signers, o', n', hsendable, hok, hways⟩
  · rw [hrun] at herr
    cases herr
  rw [hrun] at hok
  cases hok
  have hwire : attemptWire network kit payment key w.net
      = wireAt network payment key signers w.net := by
    rw [attemptWire, hsendable.required]
    rfl
  have hsignature := attempt_signature cluster hmessage hsendable w.net
  have hsign : Steps network w.net (network.sign key payment.messageBytes w.net).2 :=
    ⟨.sign key payment.messageBytes, w, rfl, rfl⟩
  have hrpc : ∀ {c : Call} {n n' : ρ} {a : Except Thrown c.Answer}, network.rpc c n = (a, n') →
      Steps network n n' := fun {c n n' a} h =>
    ⟨.rpc c, ⟨w.store, n⟩, rfl, congrArg Prod.snd h⟩
  rw [hwire]
  -- Either the node itself reported it settled, or the lookup after a failure did.
  rcases hways with ⟨hsettled, sent, n₂, hsend, _⟩ |
    ⟨e, n₂, outcome, n₃, hthrows, hlookup, hsettles⟩
  · refine ⟨fun _ => ?_, fun _ => hsettled⟩
    have hboth := cluster.later ((Relation.ReflTransGen.single hsign).tail (hrpc hsend)) hlanded
    have hsent := cluster.confirmed _ _ _ _ _ hsend
    exact congrArg (fun t => t.wire.signature)
      (lands_once cluster hmessage hnonce hsent hboth rfl hbytes)
  · -- What landed before the attempt is still there when the lookup is answered.
    have hlater : Later network w.net n₂ := by
      refine (Relation.ReflTransGen.single hsign).trans ?_
      rcases hthrows with hsend | ⟨sent, n₁, hsend, ref, _, ⟨_, rfl⟩ | ⟨address, _, haccount⟩⟩
      · exact .single (hrpc hsend)
      · exact .single (hrpc hsend)
      · exact (Relation.ReflTransGen.single (hrpc hsend)).tail (hrpc haccount)
    have hboth := cluster.later hlater hlanded
    rw [hsettles, cluster.lookup _ _ _ _ hlookup, cluster.outcomeOf_eq]
    constructor
    · -- Two that landed with these bytes are one, so the one found is the first attempt.
      rintro ⟨wire', hmem, heq⟩
      rw [hsignature] at heq ⊢
      have hbytes' := cluster.signed _ _ _ _ _ hmem heq
      have hsame := lands_once cluster hmessage hnonce hmem hboth hbytes' hbytes
      rw [← heq]
      exact congrArg (fun t => t.wire.signature) hsame
    · exact fun heq => ⟨wire, hboth, heq.symm⟩

end Recognition

/-- An attempt to submit the payment, or anything else that is asked of the
    network in between. -/
inductive SubmitCommand where
  | submit (feePayerKey : CryptoKeyPair)
  | other (r : Req)

/-- What an attempt ends in, and the network it leaves. -/
def submitStep (network : Network ρ) (kit : Kit) (payment : VerifiedPayment) :
    SubmitCommand → ρ → Option (Except Thrown SubmitOutcome) × ρ
  | .submit feePayerKey, n =>
    let outcome := run (reply network) (submit kit payment feePayerKey) () ⟨∅, n⟩
    (some outcome.result, outcome.world.net)
  | .other r, n => (none, (reply network r ⟨∅, n⟩).2.net)

abbrev SubmitEvent (ρ : Type) : Type :=
  Event SubmitCommand (Option (Except Thrown SubmitOutcome)) ρ

/-- The transaction an event sends, if it is an attempt. -/
def sentIn (network : Network ρ) (kit : Kit) (payment : VerifiedPayment) (e : SubmitEvent ρ) :
    Option WireTransaction :=
  match e.op with
  | .submit feePayerKey => some (attemptWire network kit payment feePayerKey e.before)
  | .other _ => none

/-- Two attempts of a run: the transaction of the first has landed without error
    when the second starts, and the second ends in an outcome. -/
def Resubmission {kit : Kit} {network : Network ρ} (cluster : Cluster kit network)
    (payment : VerifiedPayment) (events : List (SubmitEvent ρ)) (first later : WireTransaction)
    (o : SubmitOutcome) : Prop :=
  ∃ pre a mid b post, events = pre ++ a :: (mid ++ b :: post) ∧
    sentIn network kit payment a = some first ∧ ⟨first, true⟩ ∈ cluster.landed b.before ∧
    sentIn network kit payment b = some later ∧ b.result = some (.ok o)

section Dropped

/-- A transaction with a signature over its own message. -/
abbrev SignedWire : Type := { wire : WireTransaction // wire.messageBytes = wire.signature.drop 33 }

/-- A cluster with room for one transaction. -/
structure DroppedSends where
  landed : Option SignedWire
  /-- What has been sent and may still land. -/
  pending : Option SignedWire
  /-- How many signatures the platform has made. -/
  signatures : UInt8

/-- A network on which every send is cut off. What was sent lands with the next
    tick. No two signatures are the same: each has its number after the key, and
    the message after that. -/
def droppingNetwork : Network DroppedSends where
  rpc
    | .sendPayment wire _, c =>
      (.error (.error "TypeError" "fetch failed" none),
        if h : wire.messageBytes = wire.signature.drop 33 then
          { c with pending := some ⟨wire, h⟩ }
        else c)
    | .getSignatureOutcome signature, c =>
      (.ok (outcomeOf (c.landed.toList.map fun wire => ⟨wire.1, true⟩) signature), c)
    | .getNonceAccount _, c =>
      (.ok (.initialized (testAddress 1) (testNonce (if c.landed.isSome then 8 else 7)) 1056640), c)
    | _, c => (.error (.error "TypeError" "fetch failed" none), c)
  storage := fun c => (none, c)
  sign := fun key message c =>
    (key.publicKey.bytes ++ c.signatures :: message, { c with signatures := c.signatures + 1 })
  clock := fun _ => 0
  randomUUID := fun c => ("", c)
  tick := fun c => { c with landed := c.landed.or c.pending }

theorem drop_bytes (address : Address) (rest : List UInt8) :
    (address.bytes ++ rest).drop 32 = rest := List.drop_left' address.length_eq

theorem take_bytes (address : Address) (rest : List UInt8) :
    addressOfBytes ((address.bytes ++ rest).take 32) = address := by
  rw [List.take_left' address.length_eq, addressOfBytes, dif_pos address.length_eq]

/-- The chain behind it. -/
def droppingCluster : Cluster testKit droppingNetwork where
  landed := fun c => c.landed.toList.map fun wire => ⟨wire.1, true⟩
  advances := fun bytes => match bytes.drop 96 with
    | 1 :: rest => some (addressOfBytes (rest.take 32), ⟨rest.drop 64⟩)
    | _ => none
  grows := by
    rintro n n' ⟨r, w, rfl, rfl⟩ t ht
    cases r with
    | tick =>
        rcases hlanded : w.net.landed with _ | wire
        · rw [hlanded] at ht
          exact absurd ht List.not_mem_nil
        · rw [hlanded] at ht
          change t ∈ ((w.net.landed.or w.net.pending).toList.map _)
          rw [hlanded]
          exact ht
    | rpc c =>
        cases c with
        | sendPayment wire lifetime =>
            change t ∈ (DroppedSends.landed (if h : _ then _ else _)).toList.map _
            split <;> exact ht
        | _ => exact ht
    | _ => exact ht
  unique := fun n => by
    rcases n.landed with _ | wire
    · exact List.nodup_nil
    · exact List.nodup_singleton _
  once := fun n t t' slot ht ht' _ _ => by
    rcases hlanded : n.landed with _ | wire
    · rw [hlanded] at ht
      exact absurd ht List.not_mem_nil
    · rw [hlanded] at ht ht'
      exact (List.mem_singleton.mp ht).trans (List.mem_singleton.mp ht').symm
  signed := fun n m t key message ht hsignature => by
    rcases List.mem_map.mp ht with ⟨wire, _, rfl⟩
    rw [wire.2, hsignature, ← List.drop_drop (i := 1) (j := 32)]
    exact congrArg (List.drop 1) (drop_bytes key.publicKey (m.signatures :: message))
  lookup := fun n n' signature outcome h => (Except.ok.inj (Prod.mk.inj h).1).symm
  confirmed := fun n n' wire lifetime sent h => by cases (Prod.mk.inj h).1
  compiled := fun message bytes nonce account authority h hlifetime => by
    have hrest : bytes.drop 96 = 1 :: (account.bytes ++ authority.bytes ++ nonce.bytes) := by
      rw [← Except.ok.inj h, hlifetime]
      refine List.drop_left' ?_
      simp only [List.length_append, message.feePayer.length_eq, Address.length_eq,
        testDigest_length]
    have hnonce : (account.bytes ++ authority.bytes ++ nonce.bytes).drop 64 = nonce.bytes :=
      List.drop_left' (by rw [List.length_append, account.length_eq, authority.length_eq])
    simp only [hrest, hnonce]
    rw [List.append_assoc, take_bytes]
  feePayerFirst := fun message bytes signers h hsigners => by
    have hfirst : addressOfBytes (bytes.take 32) = message.feePayer := by
      rw [← Except.ok.inj h]
      simp only [List.append_assoc, take_bytes]
    rw [← Except.ok.inj hsigners, hfirst]
    generalize addressOfBytes ((bytes.drop 32).take 32) = second
    by_cases heq : message.feePayer = second
    · rw [List.dedup_cons_of_mem (heq ▸ List.mem_singleton_self _), ← heq]
      rfl
    · rw [List.dedup_cons_of_notMem (fun hmem => heq (List.mem_singleton.mp hmem))]
      rfl

/-- The first attempt fails and lands later. The second signs anew. -/
def signedAnew : List SubmitCommand := [.submit (testKey 2), .other .tick, .submit (testKey 2)]

/-- One of its events. -/
def signedAnewEvent (n : Fin 3) : SubmitEvent DroppedSends :=
  (history (submitStep droppingNetwork testKit (testPayment 0)) ⟨none, none, 0⟩ signedAnew).get n

/-- What the first attempt sends, and the second. -/
def firstWire : WireTransaction :=
  attemptWire droppingNetwork testKit (testPayment 0) (testKey 2) (signedAnewEvent 0).before

def laterWire : WireTransaction :=
  attemptWire droppingNetwork testKit (testPayment 0) (testKey 2) (signedAnewEvent 2).before

/-- What the second attempt ends in. -/
def laterOutcome : SubmitOutcome :=
  match (signedAnewEvent 2).result with
  | some (.ok o) => o
  | _ => .settled [] none

theorem signedAnew_resubmission : Resubmission droppingCluster (testPayment 0)
    (history (submitStep droppingNetwork testKit (testPayment 0)) ⟨none, none, 0⟩ signedAnew)
    firstWire laterWire laterOutcome :=
  ⟨[], signedAnewEvent 0, [signedAnewEvent 1], signedAnewEvent 2, [], rfl, rfl,
    by decide +kernel, rfl, by decide +kernel⟩

end Dropped

end Vadum
