import Vadum.Apps.Payer
import Vadum.Theory.Allowance
import Vadum.Theory.MintBlock
import Vadum.Theory.Verdict

/-!
# Confirming a Stale Mint

What the confirmation screen holds a payment to. Every payment is held to the
payer's cap and to the allowance. A mint whose rules can change and were not
checked for a day is warned of, and the warning says that such payments are
capped. Nothing caps them: the staleness picks the warning and is not looked at
again.

## Main definitions

* `limitsPassed`: The limits `confirm` holds a payment to.
* `Proceeds`: The screen goes on to reserve and to sign.
* `StaleCapped`: Only small payments proceed on a stale record.

## Theorems

* `confirm_eq`: After the limits the payment is signed.
* `proceeds_iff`: Which payments proceed.
* `proceeds_of_request`: What is reserved or signed has proceeded.
* `staleCapped_iff`: When the warning tells the truth.
-/

namespace Vadum.PayerApp

open Async.Process

variable {ρ : Type}

/-- The limits the payer confirms within: the cap on one payment, and what is
    left of the allowance. -/
def limitsPassed (pool : PoolConfig) (amount askedAt : Int) : PoolM Bool := do
  if ¬ withinPayerCap amount payerPerPaymentCap then
    pure false
  else
    let allowance ← Pool.allowance pool askedAt
    pure (decide (amount ≤ allowance.remaining))

variable {network : Network ρ} {device : Installation} {pool : PoolConfig} {key : CryptoKeyPair}

/-- A payment within the limits goes on to the gate, `reserveSlot` and `signAsPayer`,
    and no other does. -/
theorem confirm_eq (intent : Intent) (amount askedAt now : Int) :
    confirm device pool key intent amount askedAt now
      = (do
          if ← limitsPassed pool amount askedAt then
            sign device pool key intent amount now
          else pure none) := by
  unfold confirm limitsPassed
  by_cases hcap : withinPayerCap amount payerPerPaymentCap = true
  · rw [if_neg (not_not.mpr hcap), if_neg (not_not.mpr hcap), bind_assoc]
    refine congrArg _ (funext fun allowance => ?_)
    by_cases hallowance : amount ≤ allowance.remaining
    · rw [if_neg (not_lt.mpr hallowance), decide_eq_true hallowance]
      rfl
    · rw [if_pos (not_le.mp hallowance), decide_eq_false hallowance]
      rfl
  · rw [if_pos hcap, if_pos hcap]
    rfl

/-- The screen goes on to reserve a slot and to sign. -/
def Proceeds (network : Network ρ) (pool : PoolConfig) (amount askedAt : Int)
    (sys : PoolSys ρ) : Prop :=
  (run (reply network) (limitsPassed pool amount askedAt) sys.current sys.world).result
    = .ok true

/-- A report can be made: the ledger is in memory, or the store can be read. -/
def Readable (network : Network ρ) (sys : PoolSys ρ) : Prop :=
  sys.current ≠ none ∨ (network.storage sys.world.net).1 = none

theorem allowance_ok_iff (now : Int) (sys : PoolSys ρ) :
    (∃ a, (run (reply network) (Pool.allowance pool now) sys.current sys.world).result = .ok a) ↔
      Readable network sys := by
  rcases sys with ⟨_ | state, w⟩
  · have hread := run_storeGet_eq network (.pool pool.payer) (none : Option PoolState) w
    rcases hstorage : network.storage w.net with ⟨_ | e, net⟩ <;> rw [hstorage] at hread
    · refine iff_of_true ?_ (.inr (congrArg Prod.fst hstorage))
      simp only [Pool.allowance, Pool.currentOrStored, run_bind, run_read, hread, run_pure]
      exact ⟨_, rfl⟩
    · refine iff_of_false ?_ ?_
      · simp only [Pool.allowance, Pool.currentOrStored, run_bind, run_read, hread]
        rintro ⟨a, ha⟩
        cases ha
      · simp only [Readable, hstorage, ne_eq, not_true_eq_false, reduceCtorEq, or_self,
          not_false_eq_true]
  · exact iff_of_true ⟨_, rfl⟩ (.inl (Option.some_ne_none _))

/-- A payment proceeds if the cap, the allowance and the store let it. -/
theorem proceeds_iff (amount askedAt : Int) (sys : PoolSys ρ) :
    Proceeds network pool amount askedAt sys ↔
      withinPayerCap amount payerPerPaymentCap = true ∧ Readable network sys ∧
        amount ≤ (Pool.allowanceOf pool (sys.ledger pool) askedAt).remaining := by
  unfold Proceeds limitsPassed
  by_cases hcap : withinPayerCap amount payerPerPaymentCap = true
  · rw [if_neg (not_not.mpr hcap), run_bind, ← @allowance_ok_iff ρ network pool askedAt sys]
    have htold := (@run_allowance ρ pool network sys.current sys.world askedAt).2.2
    rcases hresult : (run (reply network) (Pool.allowance pool askedAt) sys.current
        sys.world).result with e | a
    · refine iff_of_false (fun h => by cases h) fun h => ?_
      rcases h.2.1 with ⟨a, ha⟩
      cases ha
    · rw [← htold a hresult]
      simp only [run_pure, Except.ok.injEq, decide_eq_true_eq, hcap, true_and, exists_eq']
  · rw [if_pos hcap]
    exact iff_of_false (fun h => by cases h) fun h => hcap h.1

theorem asks_limitsPassed (amount askedAt : Int) :
    Asks (fun r : Req => ∃ k, r = .storeGet k) (limitsPassed pool amount askedAt) := by
  unfold limitsPassed
  split
  · exact asks_pure _
  · refine asks_bind (asks_bind (asks_bind asks_read fun state => ?_) fun state => asks_pure _)
      fun allowance => asks_pure _
    rcases state with _ | state
    · exact asks_request (I := client) ⟨_, rfl⟩
    · exact asks_pure _

/-- Whatever is written to the store or signed, the payment had proceeded. -/
theorem proceeds_of_request {intent : Intent} {amount askedAt now : Int} {sys : PoolSys ρ}
    {r : Req} {w' : World ρ}
    (h : (r, w') ∈ requests (reply network) (confirm device pool key intent amount askedAt now)
      sys.current sys.world) (hr : ∀ k, r ≠ .storeGet k) :
    Proceeds network pool amount askedAt sys := by
  rw [confirm_eq, requests_bind] at h
  rcases List.mem_append.mp h with h | h
  · rcases asks_requests (reply network) (asks_limitsPassed amount askedAt) h with ⟨k, hk⟩
    exact absurd hk (hr k)
  · rcases hresult : (run (reply network) (limitsPassed pool amount askedAt) sys.current
        sys.world).result with e | _ | _
    · rw [hresult] at h
      exact absurd h List.not_mem_nil
    · rw [hresult] at h
      exact absurd h List.not_mem_nil
    · exact hresult

/-- On a record that is old and can change, only payments within the cap of an
    offline merchant proceed, and on any other, those within the payer's. -/
def StaleCapped (network : Network ρ) (pool : PoolConfig) (records : MintRecords)
    (intent : Intent) (amount openedAt askedAt : Int) (sys : PoolSys ρ) : Prop :=
  Proceeds network pool amount askedAt sys →
    if MintCache.staleness records intent.mint openedAt = .staleMutable then
      amount ≤ defaultQueueLimits.receiptCapByTier .t2
    else withinPayerCap amount payerPerPaymentCap = true

/-- A stale record is capped as announced exactly if the amount is within that cap
    anyway, or another limit stops the payment. What has proceeded is what the screen
    reserves a slot for and signs, whatever else there is to stop it. -/
theorem staleCapped_iff (network : Network ρ) (device : Installation) (pool : PoolConfig)
    (key : CryptoKeyPair) (records : MintRecords) (intent : Intent)
    (amount openedAt askedAt now : Int) (sys : PoolSys ρ) :
    (StaleCapped network pool records intent amount openedAt askedAt sys ↔
      MintCache.staleness records intent.mint openedAt ≠ .staleMutable ∨
      amount ≤ defaultQueueLimits.receiptCapByTier .t2 ∨ payerPerPaymentCap < amount ∨
      (Pool.allowanceOf pool (sys.ledger pool) askedAt).remaining < amount ∨
      ¬ Readable network sys) ∧
    ∀ r w', (r, w') ∈ requests (reply network)
        (confirm device pool key intent amount askedAt now) sys.current sys.world →
      (∀ k, r ≠ .storeGet k) → Proceeds network pool amount askedAt sys := by
  refine ⟨?_, fun r w' h hr => proceeds_of_request h hr⟩
  have hcap : withinPayerCap amount payerPerPaymentCap = true ↔
      0 < amount ∧ amount ≤ payerPerPaymentCap := decide_eq_true_iff
  have hsmall : amount ≤ 0 → amount ≤ defaultQueueLimits.receiptCapByTier .t2 :=
    fun h => h.trans (by decide)
  rw [StaleCapped, proceeds_iff]
  by_cases hstale : MintCache.staleness records intent.mint openedAt = .staleMutable
  · rw [if_pos hstale, hcap]
    constructor
    · intro h
      -- Otherwise nothing stops a large amount, and it goes ahead uncapped.
      by_contra hnot
      simp only [not_or, not_le, not_lt, not_not] at hnot
      rcases hnot with ⟨_, hlarge, hpayer, hallowance, hreadable⟩
      have hpos : 0 < amount := by
        by_contra hpos
        exact absurd (hsmall (not_lt.mp hpos)) (not_le.mpr hlarge)
      exact absurd (h ⟨⟨hpos, hpayer⟩, hreadable, hallowance⟩) (not_le.mpr hlarge)
    · rintro (h | h | h | h | h) ⟨⟨_, hpayer⟩, hreadable, hallowance⟩
      · exact absurd hstale h
      · exact h
      · exact absurd hpayer (not_le.mpr h)
      · exact absurd hallowance (not_le.mpr h)
      · exact absurd hreadable h
  · rw [if_neg hstale]
    exact iff_of_true And.left (.inl hstale)

/-- A mint that can change, checked a day ago. -/
def staleRecords : MintRecords :=
  [(testAddress 4, { testRecord with mutableMint := true, checkedAt := 0 })]

/-- A pool of two slots on a funded device. -/
def readyToPay : PoolSys FakeRpc :=
  Async.final (poolStep fakeNetwork testPool) spendingStart (spendingRun.take 1)

def largeIntent : Intent := { testIntent with amount := some 20000000 }

/-- The warning is shown, and four times the announced cap is signed. -/
theorem staleCapped_fails :
    MintCache.staleness staleRecords largeIntent.mint mintCacheTtlMs = .staleMutable ∧
    defaultQueueLimits.receiptCapByTier .t2 < 20000000 ∧
    (run (reply fakeNetwork) (confirmScreen testInstallation testPool (testKey 1) staleRecords
        largeIntent 20000000 mintCacheTtlMs mintCacheTtlMs mintCacheTtlMs) readyToPay.current
        readyToPay.world).result.toOption.join.map Prod.fst = some .mintRecordStale ∧
    ¬ StaleCapped fakeNetwork testPool staleRecords largeIntent 20000000 mintCacheTtlMs
      mintCacheTtlMs readyToPay := by
  refine ⟨by decide, by decide, by decide +kernel, fun h => ?_⟩
  have hproceeds : Proceeds fakeNetwork testPool 20000000 mintCacheTtlMs readyToPay := by
    unfold Proceeds
    decide +kernel
  have hcapped := h hproceeds
  rw [if_pos (by decide)] at hcapped
  exact absurd hcapped (by decide)

end Vadum.PayerApp
