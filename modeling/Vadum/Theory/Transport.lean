import Vadum.Async.Counting
import Vadum.Client.FakeRpc
import Vadum.Client.Transport

/-!
# The RPC Layer at Work

What a payment's way through the RPC layer is, whatever the endpoint answers,
and how many rounds the polling loop needs.

`Timed` is a platform whose clock goes on: it never runs back, and a timer takes
at least as long as it was set to. Each round of the polling loop ends with a
pause, so no more of them begin before its deadline than pauses fit, and one. The
rounds it is given here do not matter once there are as many.

The contract of `sendPayment` is proved piece by piece in the open meaning, from
the pauses up. It says what has to have been answered before each request may be
made, so the order of the requests is part of it.

## Main definitions

* `Timed`: A platform with a clock and timers.
* `pollRounds`: The rounds the polling loop can make.
* `confirmerReq`: The request a payment starts with.
* `PollEnds`: How polling ends, by what a past has in it.
* `SlowEndpoint`: An endpoint without sockets that refuses now and then.

## Theorems

* `run_poll_enough`: More rounds than fit before the deadline change nothing.
* `run_rpcMethod_enough`: So it is for every method of the seam.
* `obeys_sendPayment`: The contract of a payment.
* `sendPayment_once`: What a payment sends, and what it takes to resolve.
-/

namespace Vadum

open Async.Process

variable {ρ : Type}

/-- A platform whose clock never runs back, and whose timers take no less than the
    time they were set to. -/
structure Timed (endpoint : Endpoint ρ) where
  clock : ρ → Int
  now : ∀ n, (endpoint .now n).1 = .ok (clock n)
  forward : ∀ r n, clock n ≤ clock (endpoint r n).2
  slept : ∀ ms n, clock n + ms ≤ clock (endpoint (.sleep ms) n).2

/-- The rounds of the polling loop: one more than fit before the deadline. -/
def pollRounds : Nat := 46

section Rounds

variable {endpoint : Endpoint ρ} (timed : Timed endpoint) (kit : Kit)
include timed

/-- No time is lost in a run. -/
theorem Timed.clock_run {α : Type} (p : TransportM α) (n : ρ) :
    timed.clock n ≤ timed.clock (run endpoint p () n).world := by
  generalize (run endpoint p () n).world = n', run_reaches endpoint p () n = hreaches
  induction hreaches with
  | refl => exact Int.le_refl _
  | tail _ hstep ih =>
      rcases hstep with ⟨r, rfl⟩
      exact Int.le_trans ih (timed.forward r _)

theorem Timed.run_now (n : ρ) : run endpoint (request (I := transport) .now : TransportM Int) () n
    = ⟨.ok (timed.clock n), (), (endpoint .now n).2⟩ := by
  rw [run_request, timed.now]

theorem Timed.clock_sleep {ms : Int} {n n' : ρ} {u : Unit} {x : Except RpcError Unit}
    (h : run endpoint (Transport.sleep ms) () n = ⟨x, u, n'⟩) :
    timed.clock n + ms ≤ timed.clock n' := by
  rw [Transport.sleep, run_request] at h
  cases h
  exact timed.slept ms n

/-- As many rounds as pauses fit before the deadline, and one more, are as good as any
    larger number. -/
theorem run_poll_enough (signature : Signature) (deadline : Int) (k rounds : Nat) (n : ρ)
    (h : deadline ≤ timed.clock n + pollIntervalMs * rounds) :
    run endpoint (Transport.poll kit signature deadline (rounds + 1 + k)) () n
      = run endpoint (Transport.poll kit signature deadline (rounds + 1)) () n := by
  induction rounds generalizing n with
  | zero =>
      rw [Nat.add_right_comm 0 1 k, Transport.poll, Transport.poll,
        run_bind_ok _ (timed.run_now n), run_bind_ok _ (timed.run_now n)]
      have hover : ¬ timed.clock n < deadline := by
        rw [Int.natCast_zero, Int.mul_zero] at h
        omega
      rw [if_neg hover, if_neg hover]
  | succ rounds ih =>
      rw [Nat.add_right_comm (rounds + 1) 1 k, Transport.poll, Transport.poll,
        run_bind_ok _ (timed.run_now n), run_bind_ok _ (timed.run_now n)]
      split
      · refine run_bind_congr _ fun status _ n₁ hasked => ?_
        split
        · rfl
        · split
          · rfl
          · refine run_bind_congr _ fun _ _ n₂ hslept => ?_
            -- A round takes at least the pause at its end.
            have hnow := timed.forward .now n
            have hround : timed.clock (endpoint .now n).2 ≤ timed.clock n₁ := by
              have hrun := timed.clock_run (Transport.ask kit
                (.getSignatureStatuses signature false)) (endpoint .now n).2
              rw [hasked] at hrun
              exact hrun
            have hpause := timed.clock_sleep hslept
            refine ih n₂ ?_
            rw [Int.natCast_add, Int.mul_add, Int.natCast_one, Int.mul_one] at h
            omega
      · rfl

theorem run_broadcastAndPoll_enough (k : Nat) (wire : WireTransaction) (skipPreflight : Bool)
    (n : ρ) :
    run endpoint (Transport.broadcastAndPoll kit (pollRounds + k) wire skipPreflight) () n
      = run endpoint (Transport.broadcastAndPoll kit pollRounds wire skipPreflight) () n := by
  refine run_bind_congr _ fun _ _ n₁ _ => ?_
  rw [run_bind_ok _ (timed.run_now n₁), run_bind_ok _ (timed.run_now n₁)]
  have hnow := timed.forward .now n₁
  refine run_poll_enough timed kit _ _ k 45 _ ?_
  rw [confirmTimeoutMs, pollIntervalMs]
  omega

/-- However the endpoint answers, no method of the seam is cut off by its
    rounds. The endpoint may keep a record of what it is asked, so the same is
    asked of it too. -/
theorem run_rpcMethod_enough (asAddress : Json → Address) (k : Nat) (c : Call) (n : ρ) :
    run endpoint (rpcMethod kit asAddress (pollRounds + k) c) () n
      = run endpoint (rpcMethod kit asAddress pollRounds c) () n := by
  cases c with
  | sendSetup instructions feePayerKey =>
      refine run_bind_congr _ fun blockhash _ n₁ _ => run_bind_congr _ fun signed _ n₂ _ => ?_
      exact run_broadcastAndPoll_enough timed kit k signed false n₂
  | sendPayment wire lifetime =>
      rw [rpcMethod, rpcMethod, Transport.sendPayment, Transport.sendPayment]
      refine run_tryCatch_congr _ fun error _ n₁ _ => ?_
      split
      · exact run_broadcastAndPoll_enough timed kit k wire false n₁
      · rfl
  | _ => rfl

/-- So the network it makes has no rounds in it. -/
theorem overRpc_enough (asAddress : Json → Address) (platform : Network ρ) (k : Nat) :
    overRpc kit asAddress (pollRounds + k) endpoint platform
      = overRpc kit asAddress pollRounds endpoint platform := by
  have hrpc : (overRpc kit asAddress (pollRounds + k) endpoint platform).rpc
      = (overRpc kit asAddress pollRounds endpoint platform).rpc := by
    funext c n
    simp only [overRpc, run_rpcMethod_enough timed kit asAddress k c n]
  rw [overRpc, overRpc] at hrpc ⊢
  rw [Network.mk.injEq]
  exact ⟨hrpc, rfl, rfl, rfl, rfl, rfl⟩

end Rounds

section Slow

/-- An endpoint without sockets, which refuses what it is sent a number of times
    and processes it in the end. -/
structure SlowEndpoint where
  clock : Int
  refusals : Nat
  processed : List (Signature × Bool)

def tooManyRequests : RpcError :=
  ⟨.error "SolanaError" "Too Many Requests" none, some 429, none⟩

/-- What is broadcast succeeds if it has not been processed before. -/
def SlowEndpoint.execute (n : SlowEndpoint) (signature : Signature) : SlowEndpoint :=
  if n.processed.lookup signature = none then
    { n with processed := (signature, true) :: n.processed }
  else n

def slowEndpoint : Endpoint SlowEndpoint
  | .sendTransaction wire _, n =>
    if n.refusals = 0 then (.ok wire.signature, n.execute wire.signature)
    else (.error tooManyRequests, { n with refusals := n.refusals - 1 })
  | .getSignatureStatuses signature _, n =>
    (.ok ((n.processed.lookup signature).map fun ok =>
      ⟨if ok then none else some .null, some .confirmed⟩), n)
  | .getMinimumBalanceForRentExemption _, n => (.ok 890880, n)
  | .getAccountInfo _, n => (.ok none, n)
  | .fetchMaybeNonce _, n => (.ok none, n)
  | .getBalance _, n => (.ok 0, n)
  | .getLatestBlockhash, n => (.error tooManyRequests, n)
  | .signSetup _ _ _, n => (.error tooManyRequests, n)
  | .sendAndConfirmDurableNonce _ _ _ _, n =>
    (.error ⟨.error "SolanaError" "WebSocket failed to connect" none, none, some 8190004⟩, n)
  | .sendAndConfirm _ _ _, n =>
    (.error ⟨.error "SolanaError" "WebSocket failed to connect" none, none, some 8190004⟩, n)
  | .sleep ms, n => (.ok (), { n with clock := n.clock + max ms 0 })
  | .now, n => (.ok n.clock, n)
  | .random _, n => (.ok 0, n)

/-- The device it is used from. -/
def slowPlatform : Network SlowEndpoint where
  rpc := fun _ n => (.error (.error "TypeError" "fetch failed" none), n)
  storage := fun n => (none, n)
  sign := fun key message n => (testSignature key.publicKey message, n)
  clock := SlowEndpoint.clock
  randomUUID := fun n => ("", n)
  tick := id

def slowTimed : Timed slowEndpoint where
  clock := SlowEndpoint.clock
  now := fun _ => rfl
  forward := fun r n => by
    cases r with
    | sendTransaction wire skipPreflight =>
        simp only [slowEndpoint]
        split
        · unfold SlowEndpoint.execute
          split <;> exact Int.le_refl _
        · exact Int.le_refl _
    | sleep ms =>
        simp only [slowEndpoint]
        omega
    | _ => exact Int.le_refl _
  slept := fun ms n => by
    simp only [slowEndpoint]
    omega

theorem overRpc_enough_slow :
    overRpc testKit (fun _ => testAddress 0) 90 slowEndpoint slowPlatform
      = overRpc testKit (fun _ => testAddress 0) pollRounds slowEndpoint slowPlatform :=
  overRpc_enough slowTimed testKit (fun _ => testAddress 0) slowPlatform 44

end Slow

section Contract

/-- What a run of the layer has done so far. -/
abbrev TransportPast : Type := List (Async.Act transport Unit RpcError)

/-- A request that the platform answers, and not the endpoint. -/
def TransportReq.isPlatform : TransportReq → Bool
  | .sleep _ => true
  | .now => true
  | .random _ => true
  | _ => false

/-- A request that puts a transaction on its way. -/
def TransportReq.transmits : TransportReq → Bool
  | .sendTransaction _ _ => true
  | .sendAndConfirmDurableNonce _ _ _ _ => true
  | .sendAndConfirm _ _ _ => true
  | _ => false

/-- The confirmer's request. -/
def confirmerReq (wire : WireTransaction) : PaymentLifetime → TransportReq
  | .nonce nonce account authority => .sendAndConfirmDurableNonce wire nonce account authority
  | .fresh blockhash lastValidBlockHeight => .sendAndConfirm wire blockhash lastValidBlockHeight

/-- A status that ends the polling. -/
def SignatureStatus.confirms (status : SignatureStatus) : Prop :=
  status.err = none ∧
    (status.confirmationStatus = some .confirmed ∨ status.confirmationStatus = some .finalized)

def timedOut (signature : Signature) : RpcError :=
  rpcError .submitRpcUnavailable
    [("reason", .text "the transaction did not confirm in time"), ("signature", .base58 signature)]

def executionFailed (signature : Signature) (err : DetailValue) : RpcError :=
  rpcError .submitExecutionFailed [("signature", .base58 signature), ("err", err)]

/-- The error of a loop that has used up its rounds. -/
def outOfRounds : RpcError := ⟨.error "RangeError" "out of fuel" none, none, none⟩

/-- How polling for a signature ends, given what was answered. -/
def PollEnds (signature : Signature) (past : TransportPast) : Except RpcError Signature → Prop
  | .ok sent => sent = signature ∧ ∃ status, status.confirms ∧
      .asked (.getSignatureStatuses signature false) (.ok (some status)) ∈ past
  | .error e => (∃ r, .asked r (.error e) ∈ past) ∨ e = timedOut signature ∨ e = outOfRounds ∨
      ∃ status err, status.err = some err ∧ e = executionFailed signature err ∧
        .asked (.getSignatureStatuses signature false) (.ok (some status)) ∈ past

variable (kit : Kit)

section Pieces

variable {R : TransportPast → Unit → TransportReq → Prop} {past : TransportPast}

/-- A repeated request is answered in the end, or the last failure is passed on.
    It asks for nothing else, the pauses apart. -/
theorem obeys_ask (r : TransportReq) (hr : ∀ past', past ⊆ past' → R past' () r)
    (hplatform : ∀ past' r', past ⊆ past' → r'.isPlatform = true → R past' () r') :
    (Transport.ask kit r).Obeys (fun _ _ _ => False) R (fun past' _ x => past ⊆ past' ∧
      match x with
      | .ok a => .asked r (.ok a) ∈ past'
      | .error e => ∃ r', .asked r' (.error e) ∈ past') past () := by
  have hlonger : ∀ {past' : TransportPast} {act}, past ⊆ past' → past ⊆ past' ++ [act] :=
    fun h => List.Subset.trans h (List.subset_append_left _ _)
  have hlast : ∀ {past' : TransportPast} {act}, act ∈ past' ++ [act] :=
    List.mem_append_right _ List.mem_cons_self
  refine obeys_retry (P := fun past' _ => past ⊆ past') (isRetryable kit) Transport.backoff _ ?_ ?_
    1 (retryAttempts - 1) (List.Subset.refl past)
  · intro past' s h
    refine obeys_request (hr past' h) fun a => ⟨⟨hlonger h, ?_⟩, fun _ _ => hlonger h⟩
    cases a with
    | ok a => exact hlast
    | error e => exact ⟨r, hlast⟩
  · intro k past' s h
    refine obeys_bind (obeys_request (hplatform past' _ h rfl) fun a => ?_)
    cases a with
    | error e => exact ⟨hlonger h, .random 100, hlast⟩
    | ok jitter =>
        refine obeys_request (I := transport) (r := .sleep _) (hplatform _ _ (hlonger h) rfl)
          fun a => ?_
        cases a with
        | error e => exact ⟨hlonger (hlonger h), _, hlast⟩
        | ok _ => exact hlonger (hlonger h)

/-- Polling asks for its own signature only. -/
theorem obeys_poll {signature : Signature} (deadline : Int) (fuel : Nat)
    (hstatus : ∀ past', past ⊆ past' → R past' () (.getSignatureStatuses signature false))
    (hplatform : ∀ past' r', past ⊆ past' → r'.isPlatform = true → R past' () r') :
    (Transport.poll kit signature deadline fuel).Obeys (fun _ _ _ => False) R
      (fun past' _ x => past ⊆ past' ∧ PollEnds signature past' x) past () := by
  induction fuel generalizing past with
  | zero => exact ⟨List.Subset.refl past, .inr (.inr (.inl rfl))⟩
  | succ fuel ih =>
      have hlonger : ∀ {past' : TransportPast} {act}, past ⊆ past' → past ⊆ past' ++ [act] :=
        fun h => List.Subset.trans h (List.subset_append_left _ _)
      have hlast : ∀ {past' : TransportPast} {act}, act ∈ past' ++ [act] :=
        List.mem_append_right _ List.mem_cons_self
      have hself := List.Subset.refl past
      refine obeys_bind (obeys_request (hplatform past _ hself rfl) fun a => ?_)
      cases a with
      | error e => exact ⟨hlonger hself, .inl ⟨.now, hlast⟩⟩
      | ok now =>
          simp only
          split
          · refine obeys_bind (obeys_mono (fun _ _ _ h => h) (fun _ _ _ h => h)
              (fun past₁ _ x hx => ?_) (obeys_ask kit (.getSignatureStatuses signature false)
                (fun past' h => hstatus past' (List.Subset.trans (hlonger hself) h))
                fun past' r' h => hplatform past' r' (List.Subset.trans (hlonger hself) h)))
            rcases hx with ⟨hsub, hx⟩
            have hpast₁ := List.Subset.trans (hlonger hself) hsub
            cases x with
            | error e => exact ⟨hpast₁, .inl hx⟩
            | ok status =>
                simp only
                split
                · next err herr =>
                  -- The status is there, or it could not have an error.
                  rcases Option.bind_eq_some_iff.mp herr with ⟨status', rfl, herr'⟩
                  exact ⟨hpast₁, .inr (.inr (.inr ⟨status', err, herr', rfl, hx⟩))⟩
                · next hnone =>
                  split
                  · next hconfirmed =>
                    rcases status with _ | status'
                    · rcases hconfirmed with h | h <;> cases h
                    · refine ⟨hpast₁, rfl, status', ⟨?_, hconfirmed⟩, hx⟩
                      rcases herr : status'.err with _ | err
                      · rfl
                      · exact absurd herr (hnone err)
                  · refine obeys_bind (obeys_request (I := transport) (r := .sleep _)
                      (hplatform past₁ _ hpast₁ rfl) fun a => ?_)
                    cases a with
                    | error e => exact ⟨hlonger hpast₁, .inl ⟨_, hlast⟩⟩
                    | ok _ =>
                        refine obeys_mono (fun _ _ _ h => h) (fun _ _ _ h => h)
                          (fun past₂ _ x hx => ⟨List.Subset.trans (hlonger hpast₁) hx.1, hx.2⟩)
                          (ih (fun past' h => hstatus past' ?_)
                            fun past' r' h => hplatform past' r' ?_)
                        · exact List.Subset.trans (hlonger hpast₁) h
                        · exact List.Subset.trans (hlonger hpast₁) h
          · exact ⟨hlonger hself, .inr (.inl rfl)⟩

/-- A transaction is broadcast, and polled for once the endpoint has taken it. -/
theorem obeys_broadcastAndPoll (fuel : Nat) {wire : WireTransaction} {skipPreflight : Bool}
    (hsend : ∀ past', past ⊆ past' → R past' () (.sendTransaction wire skipPreflight))
    (hstatus : ∀ past' sent, past ⊆ past' →
      .asked (.sendTransaction wire skipPreflight) (.ok sent) ∈ past' →
      R past' () (.getSignatureStatuses wire.signature false))
    (hplatform : ∀ past' r', past ⊆ past' → r'.isPlatform = true → R past' () r') :
    (Transport.broadcastAndPoll kit fuel wire skipPreflight).Obeys (fun _ _ _ => False) R
      (fun past' _ x => past ⊆ past' ∧ PollEnds wire.signature past' x) past () := by
  refine obeys_bind (obeys_mono (fun _ _ _ h => h) (fun _ _ _ h => h) (fun past₁ _ x hx => ?_)
    (obeys_ask kit (.sendTransaction wire skipPreflight) hsend hplatform))
  rcases hx with ⟨hsub, hx⟩
  cases x with
  | error e => exact ⟨hsub, .inl hx⟩
  | ok sent =>
      have hlonger := fun act => List.subset_append_left past₁ [act]
      refine obeys_bind (obeys_request (hplatform past₁ _ hsub rfl) fun a => ?_)
      cases a with
      | error e =>
          exact ⟨List.Subset.trans hsub (hlonger _), .inl ⟨.now, List.mem_append_right _
            List.mem_cons_self⟩⟩
      | ok started =>
          refine obeys_mono (fun _ _ _ h => h) (fun _ _ _ h => h)
            (fun past₂ _ x hx =>
              ⟨List.Subset.trans hsub (List.Subset.trans (hlonger _) hx.1), hx.2⟩)
            (obeys_poll kit (started + confirmTimeoutMs) fuel
              (fun past' h => hstatus past' sent ?_ ?_) fun past' r' h => hplatform past' r' ?_)
          · exact List.Subset.trans hsub (List.Subset.trans (hlonger _) h)
          · exact h (hlonger _ hx)
          · exact List.Subset.trans hsub (List.Subset.trans (hlonger _) h)

end Pieces

/-- What a payment may ask for, and after what. The confirmer comes first. Only
    if it had no connection, or the endpoint was overloaded, is the same
    transaction broadcast, and only one that was taken is polled for. -/
def PaymentAsks (wire : WireTransaction) (lifetime : PaymentLifetime) (past : TransportPast)
    (r : TransportReq) : Prop :=
  match r with
  | .sendTransaction wire' skipPreflight => wire' = wire ∧ skipPreflight = false ∧
      ∃ e, (isSubscriptionFailure kit e = true ∨ isRetryable kit e = true) ∧
        .asked (confirmerReq wire lifetime) (.error e) ∈ past
  | .getSignatureStatuses signature searchTransactionHistory => signature = wire.signature ∧
      searchTransactionHistory = false ∧
      ∃ sent, .asked (.sendTransaction wire false) (.ok sent) ∈ past
  | r => r.isPlatform = true ∨ r = confirmerReq wire lifetime ∧ past = []

/-- How a payment ends: as its confirmer says, or as polling does. -/
def PaymentEnds (wire : WireTransaction) (lifetime : PaymentLifetime) (past : TransportPast) :
    Except RpcError Signature → Prop
  | .ok sent => sent = wire.signature ∧
      (∃ a, .asked (confirmerReq wire lifetime) (.ok a) ∈ past) ∨
        PollEnds wire.signature past (.ok sent)
  | .error e => PollEnds wire.signature past (.error e)

/-- The contract of a payment. -/
theorem obeys_sendPayment (fuel : Nat) (wire : WireTransaction) (lifetime : PaymentLifetime) :
    (Transport.sendPayment kit fuel wire lifetime false).Obeys (fun _ _ _ => False)
      (fun past _ r => PaymentAsks kit wire lifetime past r)
      (fun past _ x => PaymentEnds wire lifetime past x) [] () := by
  have hbroadcast : ∀ e, .asked (confirmerReq wire lifetime) (.error e) ∈
      ([.asked (confirmerReq wire lifetime) (.error e)] : TransportPast) →
      (if isSubscriptionFailure kit e ∨ isRetryable kit e then
        Transport.broadcastAndPoll kit fuel wire false else throw e).Obeys (fun _ _ _ => False)
      (fun past _ r => PaymentAsks kit wire lifetime past r)
      (fun past _ x => PaymentEnds wire lifetime past x)
      [.asked (confirmerReq wire lifetime) (.error e)] () := by
    intro e hasked
    split
    · next hpassing =>
      refine obeys_mono (fun _ _ _ h => h) (fun _ _ _ h => h) (fun past' _ x hx => ?_)
        (obeys_broadcastAndPoll kit fuel (fun past' h => ⟨rfl, rfl, e, hpassing, h hasked⟩)
          (fun past' sent _ hsent => ⟨rfl, rfl, sent, hsent⟩) fun past' r h hr => ?_)
      · cases x with
        | ok sent => exact .inr hx.2
        | error e => exact hx.2
      · cases r <;> first | exact .inl hr | cases hr
    · exact .inl ⟨_, hasked⟩
  cases lifetime with
  | nonce nonce account authority =>
      refine obeys_tryCatch (obeys_bind (obeys_request (I := transport)
        (r := .sendAndConfirmDurableNonce wire nonce account authority) (.inr ⟨rfl, rfl⟩)
        fun a => ?_))
      cases a with
      | ok _ => exact .inl ⟨rfl, (), List.mem_cons_self⟩
      | error e => exact hbroadcast e List.mem_cons_self
  | fresh blockhash lastValidBlockHeight =>
      refine obeys_tryCatch (obeys_bind (obeys_request (I := transport)
        (r := .sendAndConfirm wire blockhash lastValidBlockHeight) (.inr ⟨rfl, rfl⟩) fun a => ?_))
      cases a with
      | ok _ => exact .inl ⟨rfl, (), List.mem_cons_self⟩
      | error e => exact hbroadcast e List.mem_cons_self

/-- What looking a signature up has to have been answered. -/
theorem obeys_getSignatureOutcome (signature : Signature) :
    (Transport.getSignatureOutcome kit signature).Obeys (fun _ _ _ => False) (fun _ _ _ => True)
      (fun past _ x => ∀ outcome, x = .ok outcome →
        outcome = .absent ∧ .asked (.getSignatureStatuses signature true) (.ok none) ∈ past ∨
        outcome ≠ .absent ∧ ∃ status, (outcome = .landedOk ↔ status.err = none) ∧
          .asked (.getSignatureStatuses signature true) (.ok (some status)) ∈ past)
      ([] : TransportPast) () := by
  refine obeys_bind (obeys_mono (fun _ _ _ h => h) (fun _ _ _ h => h) (fun past _ x hx => ?_)
    (obeys_ask kit (.getSignatureStatuses signature true) (R := fun _ _ _ => True)
      (fun _ _ => trivial) fun _ _ _ _ => trivial))
  rcases x with e | _ | status
  · exact fun _ h => nomatch h
  · rintro outcome ⟨⟩
    exact .inl ⟨rfl, hx.2⟩
  · rintro outcome ⟨⟩
    refine .inr ⟨?_, status, ?_, hx.2⟩
    · split <;> exact SignatureOutcome.noConfusion
    · by_cases herr : status.err = none
      · simp only [herr, if_true]
      · simp only [herr, if_false, reduceCtorEq]

/-- Most requests of the layer transmit nothing. -/
theorem atMost_silent (r : TransportReq) (h : r.transmits = false) :
    AtMost TransportReq.transmits 0 (request (I := transport) r : TransportM r.Ans) :=
  atMost_request_free h

theorem atMost_backoff (k : Nat) : AtMost TransportReq.transmits 0 (Transport.backoff k) :=
  atMost_bind (atMost_silent (.random 100) rfl) fun jitter =>
    atMost_silent (.sleep (200 * 2 ^ k + jitter)) rfl

theorem atMost_ask (r : TransportReq) :
    AtMost TransportReq.transmits (if r.transmits then retryAttempts else 0)
      (Transport.ask kit r) := by
  split
  · exact atMost_retry (atMost_request r) atMost_backoff 1 (retryAttempts - 1)
  · next h =>
    exact atMost_retry (atMost_request_free (Bool.eq_false_iff.mpr h)) atMost_backoff 1
      (retryAttempts - 1)

theorem atMost_poll (signature : Signature) (deadline : Int) (fuel : Nat) :
    AtMost TransportReq.transmits 0 (Transport.poll kit signature deadline fuel) := by
  induction fuel with
  | zero => exact atMost_throw _
  | succ fuel ih =>
      refine atMost_bind (n := 0) (atMost_silent .now rfl) fun now => ?_
      split
      · refine atMost_bind (n := 0) (atMost_ask kit (.getSignatureStatuses signature false))
          fun status => ?_
        split
        · exact atMost_throw _
        · split
          · exact atMost_pure _
          · exact atMost_bind (n := 0) (atMost_silent (.sleep pollIntervalMs) rfl) fun _ => ih
      · exact atMost_throw _

theorem atMost_broadcastAndPoll (fuel : Nat) (wire : WireTransaction) (skipPreflight : Bool) :
    AtMost TransportReq.transmits retryAttempts
      (Transport.broadcastAndPoll kit fuel wire skipPreflight) :=
  atMost_bind (atMost_ask kit (.sendTransaction wire skipPreflight)) fun _ =>
    atMost_bind (atMost_silent .now rfl) fun _ => atMost_poll kit _ _ fuel

theorem atMost_sendPayment (fuel : Nat) (wire : WireTransaction) (lifetime : PaymentLifetime) :
    AtMost TransportReq.transmits (1 + retryAttempts)
      (Transport.sendPayment kit fuel wire lifetime false) := by
  refine atMost_tryCatch (m := 1) ?_ fun error => ?_
  · cases lifetime with
    | nonce nonce account authority =>
        exact atMost_bind (atMost_request _) fun _ => atMost_pure _
    | fresh blockhash lastValidBlockHeight =>
        exact atMost_bind (atMost_request _) fun _ => atMost_pure _
  · split
    · exact atMost_broadcastAndPoll kit fuel wire false
    · trivial

/-- Whatever the endpoint answers, a payment transmits one transaction, at most
    six times: through its confirmer first, and again only if that failed for
    want of a connection or for an overloaded endpoint. It resolves with the
    transaction's own signature, and only if the confirmer returned or a status
    has confirmed it without an error. -/
theorem sendPayment_once (endpoint : Endpoint ρ) (fuel : Nat) (wire : WireTransaction)
    (lifetime : PaymentLifetime) (n : ρ) :
    let payment := Transport.sendPayment kit fuel wire lifetime false
    let asked := requests endpoint payment () n
    (∀ entry ∈ asked, entry.1.transmits = true →
      entry.1 = confirmerReq wire lifetime ∨ entry.1 = .sendTransaction wire false) ∧
    asked.countP (fun entry => entry.1.transmits) ≤ 6 ∧
    (∀ m, (.sendTransaction wire false, m) ∈ asked → ∃ e m',
      (isSubscriptionFailure kit e = true ∨ isRetryable kit e = true) ∧
      (confirmerReq wire lifetime, m') ∈ asked ∧
      (endpoint (confirmerReq wire lifetime) m').1 = .error e) ∧
    ∀ sent, (run endpoint payment () n).result = .ok sent → sent = wire.signature ∧
      ((∃ a m, (confirmerReq wire lifetime, m) ∈ asked ∧
        (endpoint (confirmerReq wire lifetime) m).1 = .ok a) ∨
      ∃ status m, status.confirms ∧
        (.getSignatureStatuses wire.signature false, m) ∈ asked ∧
        (endpoint (.getSignatureStatuses wire.signature false) m).1 = .ok (some status)) := by
  -- Each part is read off the contract: what has to be in the past of a request is
  -- among the requests before it.
  have hobeys := obeys_sendPayment kit fuel wire lifetime
  have hnone : ∀ {act : Async.Act transport Unit RpcError}, act ∉ ([] : TransportPast) :=
    List.not_mem_nil
  refine ⟨fun entry hentry htransmits => ?_,
    countP_requests endpoint (atMost_sendPayment kit fuel wire lifetime) () n,
    fun m hm => ?_, fun sent hsent => ?_⟩
  · rcases entry with ⟨r, m⟩
    rcases obeys_requests endpoint hobeys hentry with ⟨past, _, hasks⟩
    cases r with
    | sendTransaction wire' skipPreflight =>
        rcases hasks with ⟨rfl, rfl, _⟩
        exact .inr rfl
    | sendAndConfirmDurableNonce _ _ _ _ =>
        rcases hasks with h | ⟨h, _⟩
        · cases h
        · exact .inl h
    | sendAndConfirm _ _ _ =>
        rcases hasks with h | ⟨h, _⟩
        · cases h
        · exact .inl h
    | _ => cases htransmits
  · rcases obeys_requests_asked endpoint hobeys hm with
      ⟨past, _, ⟨_, _, e, hpassing, hasked⟩, hpast⟩
    rcases hpast _ _ hasked with h | ⟨m', hmem, hans⟩
    · exact absurd h hnone
    · exact ⟨e, m', hpassing, hmem, hans⟩
  · rcases obeys_run_asked endpoint hobeys (w := n) with ⟨past, hends, hpast⟩
    rw [hsent] at hends
    rcases hends with ⟨rfl, a, hasked⟩ | ⟨rfl, status, hconfirms, hasked⟩
    · rcases hpast _ _ hasked with h | ⟨m, hmem, hans⟩
      · exact absurd h hnone
      · exact ⟨rfl, .inl ⟨a, m, hmem, hans⟩⟩
    · rcases hpast _ _ hasked with h | ⟨m, hmem, hans⟩
      · exact absurd h hnone
      · exact ⟨rfl, .inr ⟨status, m, hconfirms, hmem, hans⟩⟩

end Contract

end Vadum
