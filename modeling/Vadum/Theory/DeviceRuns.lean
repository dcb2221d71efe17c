import Vadum.Apps.Device
import Vadum.Theory.Losses
import Vadum.Theory.MintBlock
import Vadum.Theory.PoolRequests
import Vadum.Theory.Signing

/-!
# A Device in Use

Everything a payer can do to the device: tap what a screen offers, close the app
and open it again, and lose what is stored.

What a tap does is said three times. Of the pool it is a lossy run, whose
commands are those the tap has `Caused`. Of the screens it is the one that is
`Shown` next: the confirmation is shown for a scanned request and an amount
within the limit, and a code for a payment that was confirmed. Of the key it is
what it signs: the message of a confirmed payment, with a slot that was reserved
for it in the same tap, and nothing else.

`tap_spec` says all three of every action, and what follows of a whole run,
follows from that.

## Main definitions

* `Caused`: The commands of the pool that an action runs.
* `Opened`, `Confirmed`, `Signable`, `Shown`: What it takes to open the
  confirmation, to confirm, to sign and to show a screen.
* `Did`, `Does`: What code does to the pool, which screens it may end with, and
  what it signs.

## Theorems

* `does_bind`, `does_tryCatch`, `does_zoom`: What the parts do, the whole does.
* `tap_spec`: What an action does.
-/

namespace Vadum

open Async (eventAt)
open Async.Process

variable {ρ : Type}

namespace PayerApp

/-- The pool of a device. -/
def Device.sys (device : Device ρ) : PoolSys ρ := ⟨device.vars.pool, device.world⟩

/-- The action loses the stored ledger. -/
def DeviceAction.Loses (pool : PoolConfig) : DeviceAction → Prop
  | .lose keys _ => .pool pool.payer ∈ keys
  | _ => False

/-- The commands an action runs. Each reads the clock when it begins. -/
def Caused (network : Network ρ) (action : DeviceAction) (device : Device ρ) (e : PoolEvent ρ) :
    Prop :=
  ∃ op, e.op = .call op ∧ match op with
    | .reserveSlot _ now amount =>
      (∃ retyped intent warning, action = .tap (.sign retyped) ∧
        device.vars.screen = .confirm intent amount warning) ∧
      now = network.clock e.before.world.net
    | .reconcile now => action = .tap .restore ∧ now = network.clock e.before.world.net
    | .create _ _ => action = .tap .create
    | .applyNonceReturn payload => e.before = device.sys ∧
        ∃ bytes, action = .tap (.scanned (.ok bytes)) ∧ decodeNonceReturn bytes = .ok payload
    | _ => True

/-- The action opens the confirmation of a payment: a dynamic request was scanned,
    or the amount of a printed one typed. -/
inductive Opened (action : DeviceAction) (device : Device ρ) (intent : Intent) (amount : Int) :
    Prop
  | scanned {bytes : List UInt8} (tapped : action = .tap (.scanned (.ok bytes)))
      (screen : device.vars.screen = .scanning .payment)
      (type : peekPayloadType bytes = .ok .intent)
      (decoded : decodeIntent bytes ⟨mintMap device.vars.mints, none⟩ = .ok intent)
      (own : amount = intent.amount.getD 0)
  | typed {text : JsString} (tapped : action = .tap (.continue' text))
      (screen : device.vars.screen = .enterAmount intent)
      (parsed : parseAmount text intent.decimals.toNat = some amount)

/-- The action confirms a payment: it is a tap on the button of the confirmation,
    with the amount typed again above the threshold, and the gate is open. -/
structure Confirmed (app : DeviceConfig) (action : DeviceAction) (device : Device ρ)
    (intent : Intent) (amount : Int) : Prop where
  tapped : ∃ retyped warning, action = .tap (.sign retyped) ∧
    device.vars.screen = .confirm intent amount warning ∧
    (needsRetype amount payerRetypeThreshold = true →
      parseAmount retyped intent.decimals.toNat = some amount)
  installed : device.vars.standalone = true
  marked : device.vars.epochMarker.isSome = true
  stored : (device.sys.stored app.pool).isSome = true

/-- The payment of an intent with a slot. -/
def paymentWith (app : DeviceConfig) (intent : Intent) (amount : Int) (r : Reservation) :
    CanonicalInput :=
  ⟨intent, app.pool.payer, some ⟨r.index, r.value⟩, amount⟩

/-- The message is that of a payment that the action confirms, with a slot that
    one of the commands reserved for it. -/
structure Signable (app : DeviceConfig) (action : DeviceAction) (device : Device ρ)
    (events : List (PoolEvent ρ)) (intent : Intent) (amount : Int) (r : Reservation)
    (message : List UInt8) : Prop where
  confirmed : Confirmed app action device intent amount
  reserved : ∃ e ∈ events, ∃ now, made e = some ⟨intent.merchant, now, amount, r⟩
  message : payerMessage app.pool.kit (paymentWith app intent amount r) app.keyPair = .ok message

/-- The action shows a code, which holds the signature of such a message. -/
def Coded (network : Network ρ) (app : DeviceConfig) (action : DeviceAction) (device : Device ρ)
    (events : List (PoolEvent ρ)) (payload : List UInt8) (intent : Intent) (amount : Int) : Prop :=
  ∃ r message n, Signable app action device events intent amount r message ∧
    encodeAuth (authOf (paymentWith app intent amount r) (network.sign app.keyPair message n).1)
      (flagsFromByte (answerFlags intent)) = .ok payload

/-- What it takes for an action to show a screen. -/
def Shown (network : Network ρ) (app : DeviceConfig) (action : DeviceAction) (device : Device ρ)
    (events : List (PoolEvent ρ)) : Screen → Prop
  | .enterAmount intent => device.vars.screen = .scanning .payment ∧
      ∃ bytes, action = .tap (.scanned (.ok bytes)) ∧
        peekPayloadType bytes = .ok .staticIntent ∧
        decodeStaticIntent bytes ⟨mintMap device.vars.mints, none⟩ = .ok intent
  | .confirm intent amount _ => Opened action device intent amount ∧
      withinPayerCap amount payerPerPaymentCap = true
  | .code payload intent amount => Coded network app action device events payload intent amount
  | _ => True

theorem Signable.mono {app : DeviceConfig} {action : DeviceAction} {device : Device ρ}
    {events events' : List (PoolEvent ρ)} {intent : Intent} {amount : Int} {r : Reservation}
    {message : List UInt8} (h : Signable app action device events intent amount r message)
    (hsub : events ⊆ events') : Signable app action device events' intent amount r message := by
  rcases h.reserved with ⟨e, he, hmade⟩
  exact { h with reserved := ⟨e, hsub he, hmade⟩ }

theorem Shown.mono {network : Network ρ} {app : DeviceConfig} {action : DeviceAction}
    {device : Device ρ} {events events' : List (PoolEvent ρ)} {screen : Screen}
    (h : Shown network app action device events screen) (hsub : events ⊆ events') :
    Shown network app action device events' screen := by
  cases screen with
  | code payload intent amount =>
      rcases h with ⟨r, message, n, hsignable, hencode⟩
      exact ⟨r, message, n, hsignable.mono hsub, hencode⟩
  | _ => exact h

section Code

/-- Where no signature is asked for, none is counted. -/
theorem countP_isSign {entries : List (Req × World ρ)}
    (h : ∀ key message w, (Req.sign key message, w) ∉ entries) :
    entries.countP (fun entry => entry.1.isSign) = 0 := by
  refine List.countP_eq_zero.mpr ?_
  rintro ⟨r, w⟩ hmem hsign
  cases r with
  | sign key message => exact h key message w hmem
  | _ => cases hsign

variable (network : Network ρ) (app : DeviceConfig) (action : DeviceAction) (device : Device ρ)

/-- What code does that starts so: of the pool, it makes a lossy run of commands
    that the action causes; it ends with a screen that the action may show, or
    leaves the one that was there; and it signs what it may sign, no more often than
    it reserves. -/
structure Did {α : Type} (p : DeviceM α) (events : List (PoolEvent ρ)) (s : DeviceVars)
    (w : World ρ) : Prop where
  lossy : LossyRun network app.pool False ⟨s.pool, w⟩ events
    ⟨(run (reply network) p s w).vars.pool, (run (reply network) p s w).world⟩
  caused : ∀ e ∈ events, Caused network action device e
  shown : Shown network app action device events (run (reply network) p s w).vars.screen ∨
    (run (reply network) p s w).vars.screen = s.screen
  signed : ∀ key message w', (Req.sign key message, w') ∈ requests (reply network) p s w →
    key = app.keyPair ∧ ∃ intent amount r,
      Signable app action device events intent amount r message
  paired : (requests (reply network) p s w).countP (fun entry => entry.1.isSign)
    ≤ events.countP fun e => (made e).isSome

def DoesAt {α : Type} (p : DeviceM α) (s : DeviceVars) (w : World ρ) : Prop :=
  ∃ events, Did network app action device p events s w

/-- Wherever it starts. -/
def Does {α : Type} (p : DeviceM α) : Prop := ∀ s w, DoesAt network app action device p s w

variable {network app action device} {α β : Type} {s : DeviceVars} {w : World ρ}

/-- Code that does nothing but to choose a screen. -/
theorem did_nothing {p : DeviceM α} (hrequests : requests (reply network) p s w = [])
    (hpool : (run (reply network) p s w).vars.pool = s.pool)
    (hworld : (run (reply network) p s w).world = w)
    (hshown : Shown network app action device [] (run (reply network) p s w).vars.screen ∨
      (run (reply network) p s w).vars.screen = s.screen) :
    Did network app action device p [] s w where
  lossy := by
    rw [hpool, hworld]
    exact .start
  caused := fun _ h => absurd h List.not_mem_nil
  shown := hshown
  signed := fun _ _ _ h => absurd (hrequests ▸ h) List.not_mem_nil
  paired := by
    rw [hrequests]
    exact Nat.zero_le _

theorem does_pure (a : α) : Does network app action device (pure a) :=
  fun _ _ => ⟨[], did_nothing rfl rfl rfl (.inr rfl)⟩

theorem does_throw (e : Thrown) : Does network app action device (throw e : DeviceM α) :=
  fun _ _ => ⟨[], did_nothing rfl rfl rfl (.inr rfl)⟩

theorem does_read : Does network app action device (read : DeviceM DeviceVars) :=
  fun _ _ => ⟨[], did_nothing rfl rfl rfl (.inr rfl)⟩

/-- What is done in two parts, one after the other. -/
theorem Did.trans {p : DeviceM α} {q : DeviceM β} {pq : DeviceM γ} {s' : DeviceVars}
    {w' : World ρ} {events events' : List (PoolEvent ρ)} {x : Except Thrown α}
    (hp : Did network app action device p events s w)
    (hq : Did network app action device q events' s' w')
    (hrun : run (reply network) p s w = ⟨x, s', w'⟩)
    (hvars : (run (reply network) pq s w).vars = (run (reply network) q s' w').vars)
    (hworld : (run (reply network) pq s w).world = (run (reply network) q s' w').world)
    (hrequests : requests (reply network) pq s w
      = requests (reply network) p s w ++ requests (reply network) q s' w') :
    Did network app action device pq (events ++ events') s w where
  lossy := by
    have hfirst := hp.lossy
    rw [hrun] at hfirst
    rw [hvars, hworld]
    exact hfirst.append hq.lossy
  caused := fun e he => (List.mem_append.mp he).elim (hp.caused e) (hq.caused e)
  shown := by
    have hfirst := hp.shown
    rw [hrun] at hfirst
    rw [hvars]
    rcases hq.shown with hshown | hsame
    · exact .inl (hshown.mono (List.subset_append_right _ _))
    · rw [hsame]
      exact hfirst.imp_left fun h => h.mono (List.subset_append_left _ _)
  signed := fun key message w'' h => by
    rw [hrequests] at h
    rcases List.mem_append.mp h with h | h
    · rcases hp.signed key message w'' h with ⟨hkey, intent, amount, r, hsignable⟩
      exact ⟨hkey, intent, amount, r, hsignable.mono (List.subset_append_left _ _)⟩
    · rcases hq.signed key message w'' h with ⟨hkey, intent, amount, r, hsignable⟩
      exact ⟨hkey, intent, amount, r, hsignable.mono (List.subset_append_right _ _)⟩
  paired := by
    rw [hrequests, List.countP_append, List.countP_append]
    exact Nat.add_le_add hp.paired hq.paired

/-- What is done the same, is done. -/
theorem Did.congr {p : DeviceM α} {q : DeviceM β} {events : List (PoolEvent ρ)}
    (hp : Did network app action device p events s w)
    (hvars : (run (reply network) q s w).vars = (run (reply network) p s w).vars)
    (hworld : (run (reply network) q s w).world = (run (reply network) p s w).world)
    (hrequests : requests (reply network) q s w = requests (reply network) p s w) :
    Did network app action device q events s w where
  lossy := by
    rw [hvars, hworld]
    exact hp.lossy
  caused := hp.caused
  shown := hvars ▸ hp.shown
  signed := hrequests ▸ hp.signed
  paired := hrequests ▸ hp.paired

theorem doesAt_bind {p : DeviceM α} {f : α → DeviceM β}
    (hp : DoesAt network app action device p s w)
    (hf : ∀ a s' w', run (reply network) p s w = ⟨.ok a, s', w'⟩ →
      DoesAt network app action device (f a) s' w') :
    DoesAt network app action device (p >>= f) s w := by
  rcases hp with ⟨events, hp⟩
  rcases hresult : run (reply network) p s w with ⟨e | a, s', w'⟩
  · have hrequests := requests_bind (reply network) p f s w
    rw [hresult, List.append_nil] at hrequests
    refine ⟨events, hp.congr ?_ ?_ hrequests⟩
    · rw [run_bind_error _ hresult, hresult]
    · rw [run_bind_error _ hresult, hresult]
  · rcases hf a s' w' hresult with ⟨events', hf⟩
    have hrequests := requests_bind (reply network) p f s w
    rw [hresult] at hrequests
    have hrun : run (reply network) (p >>= f) s w = _ := run_bind_ok _ hresult
    exact ⟨_, hp.trans hf hresult (by rw [hrun]) (by rw [hrun]) hrequests⟩

theorem does_bind {p : DeviceM α} {f : α → DeviceM β} (hp : Does network app action device p)
    (hf : ∀ a, Does network app action device (f a)) :
    Does network app action device (p >>= f) :=
  fun s w => doesAt_bind (hp s w) fun a s' w' _ => hf a s' w'

/-- What code does that first computes something. -/
theorem doesAt_ofResult_bind {x : Except Thrown α} {f : α → DeviceM β}
    (h : ∀ a, x = .ok a → DoesAt network app action device (f a) s w) :
    DoesAt network app action device (ofResult x >>= f) s w := by
  cases x with
  | ok a => exact h a rfl
  | error e => exact does_throw e s w

/-- And code that first looks at the variables. -/
theorem doesAt_read_bind {f : DeviceVars → DeviceM β}
    (h : DoesAt network app action device (f s) s w) :
    DoesAt network app action device (read >>= f) s w :=
  doesAt_bind (does_read s w) fun _ _ _ hrun => by
    cases hrun
    exact h

theorem doesAt_tryCatch {p : DeviceM α} {c : Thrown → DeviceM α}
    (hp : DoesAt network app action device p s w)
    (hc : ∀ e, Does network app action device (c e)) :
    DoesAt network app action device (Async.Process.tryCatch p c) s w := by
  rcases hp with ⟨events, hp⟩
  have hrun := run_tryCatch (reply network) p c s w
  have hrequests := requests_tryCatch (reply network) p c s w
  rcases hresult : run (reply network) p s w with ⟨e | a, s', w'⟩
  · rw [hresult] at hrun hrequests
    rcases hc e s' w' with ⟨events', hc⟩
    exact ⟨_, hp.trans hc hresult (by rw [hrun]) (by rw [hrun]) hrequests⟩
  · rw [hresult] at hrun hrequests
    rw [List.append_nil] at hrequests
    rw [← hresult] at hrun
    exact ⟨events, hp.congr (by rw [hrun, hresult]) (by rw [hrun, hresult]) hrequests⟩

theorem does_tryCatch {p : DeviceM α} {c : Thrown → DeviceM α}
    (hp : Does network app action device p) (hc : ∀ e, Does network app action device (c e)) :
    Does network app action device (Async.Process.tryCatch p c) :=
  fun s w => doesAt_tryCatch (hp s w) hc

theorem run_render (screen : Screen) (s : DeviceVars) (w : World ρ) :
    run (reply network) (render screen) s w = ⟨.ok (), { s with screen }, w⟩ := rfl

theorem requests_render (screen : Screen) (s : DeviceVars) (w : World ρ) :
    requests (reply network) (render screen) s w = [] := rfl

/-- Showing a screen. -/
theorem does_render {screen : Screen}
    (h : ∀ events, Shown network app action device events screen) :
    Does network app action device (render screen) :=
  fun _ _ => ⟨[], did_nothing rfl rfl rfl (.inl (h []))⟩

theorem does_writeEpochMarker (epoch : String) :
    Does network app action device (writeEpochMarker epoch) :=
  fun _ _ => ⟨[], did_nothing rfl rfl rfl (.inr rfl)⟩

/-- Code over a part of the variables, which makes a run of the pool and leaves the
    screen, and which asks for no signature. -/
theorem doesAt_part {σ : Type} {part : Async.Lens DeviceVars σ} {p : Client σ α}
    (events : List (PoolEvent ρ)) (hscreen : ∀ t s, (part.set t s).screen = s.screen)
    (hsigns : ∀ key message w',
      (Req.sign key message, w') ∉ requests (reply network) p (part.get s) w)
    (hcaused : ∀ e ∈ events, Caused network action device e)
    (hlossy : LossyRun network app.pool False ⟨s.pool, w⟩ events
      ⟨(part.set (run (reply network) p (part.get s) w).vars s).pool,
        (run (reply network) p (part.get s) w).world⟩) :
    DoesAt network app action device (zoom part p) s w := by
  refine ⟨events, ?_, hcaused, .inr ?_, fun key message w' h => ?_, ?_⟩
  · rw [run_zoom]
    exact hlossy
  · rw [run_zoom]
    exact hscreen _ _
  · rw [requests_zoom] at h
    exact absurd h (hsigns key message w')
  · rw [requests_zoom, countP_isSign hsigns]
    exact Nat.zero_le _

/-- A request that leaves the ledger in the store. -/
theorem does_request {r : Req} (hsigns : SignsNothing r)
    (h : ∀ w, (reply network r w).2.store.lookup (.pool app.pool.payer)
      = w.store.lookup (.pool app.pool.payer)) :
    Does network app action device (request (I := client) r : DeviceM r.Ans) := fun s w => by
  have hsilent : ∀ key message w', (Req.sign key message, w') ∉ requests (reply network)
      (request (I := client) r : DeviceM r.Ans) s w := fun key message w' h => by
    rw [requests_request] at h
    exact hsigns key message (Prod.mk.inj (List.mem_singleton.mp h)).1.symm
  refine ⟨[], ?_, fun _ h => absurd h List.not_mem_nil, .inr ?_,
    fun key message w' h => absurd h (hsilent key message w'), ?_⟩
  · rw [run_request]
    exact .elsewhere .start ⟨later_reply network r w, .inl rfl, .inl (h w)⟩
  · rw [run_request]
  · rw [countP_isSign hsilent]
    exact Nat.zero_le _

theorem does_dateNow : Does network app action device dateNow :=
  does_request (fun _ _ => Req.noConfusion) fun _ => rfl

theorem does_hasPoolState (payer : Address) :
    Does network app action device (hasPoolState payer) := by
  refine does_bind (does_request (r := .storeGet (.pool payer)) (fun _ _ => Req.noConfusion)
    fun w => ?_) fun _ => does_pure _
  rcases reply_store network (.storeGet (.pool payer)) w with ⟨hsame, _⟩ | ⟨k, v, hr, _⟩
  · rw [hsame]
  · cases hr

/-- An operation of the pool, run over its part of the variables. -/
theorem doesAt_zoom (op : PoolOp) {p : PoolM α} {f : α → PoolResult}
    (hp : op.process app.pool = f <$> p)
    (hcaused : Caused network action device
      (eventAt (poolStep network app.pool) (.call op) ⟨s.pool, w⟩)) :
    DoesAt network app action device (zoom poolPart p) s w := by
  have hrun : LossyRun network app.pool False ⟨s.pool, w⟩ _ _ := .single (.call op) _
  simp only [poolStep, hp, run_map] at hrun
  refine doesAt_part _ (fun _ _ => rfl) (fun key message w' h => ?_)
    (fun e he => List.mem_singleton.mp he ▸ hcaused) hrun
  have hasks := asks_op (poolAllows_signsNothing app.pool) op
  rw [← requests_map (reply network) p f, ← hp] at h
  exact asks_requests (reply network) hasks h key message rfl

theorem does_zoom (op : PoolOp) {p : PoolM α} {f : α → PoolResult}
    (hp : op.process app.pool = f <$> p)
    (hcaused : ∀ sys, Caused network action device
      (eventAt (poolStep network app.pool) (.call op) sys)) :
    Does network app action device (zoom poolPart p) :=
  fun _ _ => doesAt_zoom op hp (hcaused _)

/-- Code of the pool that neither reads nor writes its variables, nor the store. -/
theorem does_zoom_online {p : PoolM α} (hp : Stateless (fun r => ∃ c, r = Req.rpc c) p) :
    Does network app action device (zoom poolPart p) := fun s w => by
  have hkept : ∀ (r : Req) (w' : World ρ), (∃ c, r = .rpc c) →
      w'.store = w.store ∧ Later network w.net w'.net →
      (reply network r w').2.store = w.store ∧ Later network w.net (reply network r w').2.net := by
    rintro r w' ⟨c, rfl⟩ hw'
    exact ⟨hw'.1, hw'.2.trans (later_reply network (.rpc c) w')⟩
  rcases run_stateless (reply network) hkept hp ⟨rfl, .refl⟩ with ⟨x, w', ⟨hstore, hlater⟩, hrun⟩
  refine doesAt_part [] (fun _ _ => rfl) (fun key message w'' h => ?_)
    (fun _ h => absurd h List.not_mem_nil) ?_
  · rcases asks_requests (reply network) (asks_stateless hp) h with ⟨c, hc⟩
    cases hc
  · refine .elsewhere .start ?_
    rw [show poolPart.get s = s.pool from rfl, hrun]
    exact ⟨hlater, .inl rfl, .inl (by simp only [PoolSys.stored, hstore])⟩

/-- A request that stores no ledger and signs nothing. -/
def Aside (r : Req) : Prop := (∀ payer state, r ≠ .storeSet (.pool payer) state) ∧ SignsNothing r

/-- Code of the mint cache, run over its part. -/
theorem does_zoom_mints {p : MintCacheM α} (hp : Asks Aside p) :
    Does network app action device (zoom mintsPart p) := fun s w => by
  have hkept : ∀ (r : Req) (w' : World ρ), Aside r → (Later network w.net w'.net ∧
      w'.store.lookup (.pool app.pool.payer) = w.store.lookup (.pool app.pool.payer)) →
      Later network w.net (reply network r w').2.net ∧
      (reply network r w').2.store.lookup (.pool app.pool.payer)
        = w.store.lookup (.pool app.pool.payer) := by
    intro r w' hr h
    refine ⟨h.1.trans (later_reply network r w'), ?_⟩
    rcases reply_store network r w' with ⟨hsame, _⟩ | ⟨k, v, rfl, ⟨hsame, _⟩ | hsame⟩
    · rw [hsame]
      exact h.2
    · rw [hsame]
      exact h.2
    · rw [hsame, AList.lookup_insert_ne]
      · exact h.2
      · rintro rfl
        exact hr.1 _ _ rfl
  have hend := asks_run (reply network) hkept hp s.mints (w := w) ⟨.refl, rfl⟩
  exact doesAt_part [] (fun _ _ => rfl)
    (fun key message w' h => (asks_requests (reply network) hp h).2 key message rfl)
    (fun _ h => absurd h List.not_mem_nil) (.elsewhere .start ⟨hend.1, .inl rfl, .inl hend.2⟩)

theorem asks_refresh (mint : Address) : Asks Aside (MintCache.refresh mint) :=
  asks_bind (asks_request (I := client) (r := .rpc (.getMintAccount mint)) ⟨nofun, nofun⟩)
    fun _ => asks_bind (asks_ofResult _) fun record =>
      asks_bind (asks_bind asks_read fun _ => asks_write _) fun _ =>
        asks_bind (asks_request (I := client) (r := .storeSet (.mint mint) record)
          ⟨nofun, nofun⟩) fun _ => asks_pure _

theorem asks_load : Asks Aside MintCache.load := by
  refine asks_bind (asks_request (I := client) (r := .storeKeys .mint) ⟨nofun, nofun⟩)
    fun mints => asks_bind ?_ fun _ => asks_bind asks_read fun _ => asks_pure _
  induction mints with
  | nil => exact asks_pure _
  | cons mint mints ih =>
      refine asks_bind (asks_request (I := client) (r := .storeGet (.mint mint)) ⟨nofun, nofun⟩)
        fun record => ?_
      cases record with
      | none => exact ih
      | some record => exact asks_bind (asks_bind asks_read fun _ => asks_write _) fun _ => ih

end Code

section Handlers

variable {network : Network ρ} {app : DeviceConfig} {action : DeviceAction} {device : Device ρ}

theorem does_failed (error : Thrown) : Does network app action device (failed error) :=
  does_render fun _ => trivial

theorem does_home : Does network app action device (home app) :=
  does_bind (does_zoom .load rfl fun _ => ⟨.load, rfl, trivial⟩) fun _ =>
    does_bind does_read fun _ => does_render fun _ => trivial

theorem does_tokens : Does network app action device tokens :=
  does_bind does_read fun _ => does_render fun _ => trivial

theorem does_recoverFromChain : Does network app action device (recoverFromChain app) :=
  does_bind (does_render fun _ => trivial) fun _ =>
    does_tryCatch (does_bind (does_zoom (.recover defaultRecoverProbe) rfl
      fun _ => ⟨_, rfl, trivial⟩) fun _ => does_bind (does_writeEpochMarker _) fun _ =>
        does_render fun _ => trivial) does_failed

theorem does_onboarding : Does network app action device onboarding :=
  does_bind (does_render fun _ => trivial) fun _ =>
    does_tryCatch (does_bind (does_zoom_online ⟨⟨_, rfl⟩, fun a => by
      cases a with
      | error e => trivial
      | ok nonceRent => exact ⟨⟨_, rfl⟩, fun a => by cases a <;> trivial⟩⟩) fun _ =>
        does_render fun _ => trivial) does_failed

theorem does_checkToken (mint : Address) : Does network app action device (checkToken mint) :=
  does_tryCatch (does_bind (does_zoom_mints (asks_refresh mint)) fun record => by
    split
    · exact does_render fun _ => trivial
    · exact does_tokens) does_failed

theorem does_closePool : Does network app action device (closePool app) :=
  does_bind (does_render fun _ => trivial) fun _ =>
    does_tryCatch (does_bind (does_zoom (.close app.keyPair) rfl fun _ => ⟨_, rfl, trivial⟩)
      fun _ => does_render fun _ => trivial) does_failed

theorem does_createPoolNow (h : action = .tap .create) :
    Does network app action device (createPoolNow app) :=
  does_bind (does_render fun _ => trivial) fun _ =>
    does_tryCatch (does_bind (does_zoom (.create poolSize app.keyPair) rfl fun _ => ⟨_, rfl, h⟩)
      fun _ => does_bind (does_writeEpochMarker _) fun _ => does_tokens) does_failed

/-- Refreshing reconciles at the moment the clock is read. -/
theorem does_restore (h : action = .tap .restore) :
    Does network app action device (restore app) := by
  refine does_bind (does_render fun _ => trivial) fun _ => does_tryCatch ?_ fun error => ?_
  · refine does_bind (does_zoom .refresh rfl fun _ => ⟨_, rfl, trivial⟩) fun status => ?_
    intro s w
    refine doesAt_bind (does_dateNow s w) fun now s' w' hnow => ?_
    rw [dateNow, run_request] at hnow
    cases hnow
    exact doesAt_bind (doesAt_zoom (.reconcile (network.clock w.net)) rfl ⟨_, rfl, h, rfl⟩)
      fun _ s' w' _ => does_bind (does_writeEpochMarker _) (fun _ => does_home) s' w'
  · split
    · exact does_recoverFromChain
    · exact does_failed _

theorem does_openConfirm {intent : Intent} {amount : Int}
    (h : Opened action device intent amount) :
    Does network app action device (openConfirm app intent amount) := by
  refine does_bind does_read fun vars => does_bind does_dateNow fun openedAt => ?_
  simp only
  split
  · exact does_render fun _ => trivial
  · next hwithin =>
    refine does_bind does_dateNow fun now => does_bind (does_zoom (.allowance now) rfl
      fun _ => ⟨_, rfl, trivial⟩) fun allowance => ?_
    split
    · exact does_render fun _ => trivial
    · exact does_render fun _ => ⟨h, not_not.mp hwithin⟩

theorem does_boot (standalone : Bool) : Does network app action device (boot app standalone) := by
  intro s w
  -- What was in memory is gone before anything else happens.
  have hstart : DoesAt network app action device
      (write { s with standalone, pool := none, mints := [], screen := .waiting }) s w :=
    ⟨[], .elsewhere .start ⟨.refl, .inr rfl, .inl rfl⟩, fun _ h => absurd h List.not_mem_nil,
      .inl trivial, fun _ _ _ h => absurd h List.not_mem_nil, le_rfl⟩
  refine doesAt_read_bind (doesAt_bind hstart fun _ s' w' _ => ?_)
  have hfailed : Does network app action device (render .notStarted) := does_render fun _ => trivial
  refine does_tryCatch ?_ (fun _ => hfailed) s' w'
  refine does_bind (does_zoom_mints asks_load) fun _ => does_bind (does_hasPoolState _)
    fun stored => ?_
  simp only
  split
  · exact does_render fun _ => trivial
  · split
    · exact does_onboarding
    · exact does_render fun _ => trivial
    · exact does_home

/-- Without a message nothing is asked for. -/
theorem requests_signAsPayer_error (network : Network ρ) {kit : Kit} {input : CanonicalInput}
    {key : CryptoKeyPair} {e : Thrown} (h : payerMessage kit input key = .error e)
    (s : Option PoolState) (w : World ρ) :
    requests (reply network) (signAsPayer kit input key : PoolM Auth) s w = [] := by
  rw [signAsPayer_eq, h]
  rfl

section SignStep

variable {intent : Intent} {amount now : Int} {s' : Option PoolState} {w' : World ρ}

/-- The sign step once its gate is open. -/
def shownCode (app : DeviceConfig) (intent : Intent) (amount now : Int) : DeviceM Unit := do
  let payload ← zoom poolPart (PayerApp.signedCode app.pool app.keyPair intent amount now)
  render (.code payload intent amount)

/-- What is done to make a code is all that is done, and then it is shown. -/
theorem did_shownCode {x : Except Thrown (List UInt8)} {asked : List (Req × World ρ)}
    {events : List (PoolEvent ρ)}
    (hrun : run (reply network) (PayerApp.signedCode app.pool app.keyPair intent amount now)
      s.pool w = ⟨x, s', w'⟩)
    (hasked : requests (reply network) (PayerApp.signedCode app.pool app.keyPair intent amount now)
      s.pool w = asked)
    (hlossy : LossyRun network app.pool False ⟨s.pool, w⟩ events ⟨s', w'⟩)
    (hcaused : ∀ e ∈ events, Caused network action device e)
    (hshown : ∀ payload, x = .ok payload →
      Shown network app action device events (.code payload intent amount))
    (hsigned : ∀ key message w'', (Req.sign key message, w'') ∈ asked → key = app.keyPair ∧
      ∃ intent amount r, Signable app action device events intent amount r message)
    (hpaired : asked.countP (fun entry => entry.1.isSign)
      ≤ events.countP fun e => (made e).isSome) :
    Did network app action device (shownCode app intent amount now) events s w := by
  have hrequests : requests (reply network) (shownCode app intent amount now) s w = asked := by
    rcases x with e | payload
    · simp only [shownCode, requests_bind, requests_zoom, run_zoom, poolPart, hrun, hasked,
        List.append_nil]
    · simp only [shownCode, requests_bind, requests_zoom, run_zoom, poolPart, hrun, hasked,
        requests_render, List.append_nil]
  rcases x with e | payload
  · have hend : run (reply network) (shownCode app intent amount now) s w
        = ⟨.error e, { s with pool := s' }, w'⟩ := by
      simp only [shownCode, run_bind, run_zoom, poolPart, hrun]
    exact ⟨hend ▸ hlossy, hcaused, .inr (hend ▸ rfl), hrequests ▸ hsigned, hrequests ▸ hpaired⟩
  · have hend : run (reply network) (shownCode app intent amount now) s w
        = ⟨.ok (), { s with pool := s', screen := .code payload intent amount }, w'⟩ := by
      simp only [shownCode, run_bind, run_zoom, poolPart, hrun, run_render]
    exact ⟨hend ▸ hlossy, hcaused, .inl (hend ▸ hshown payload rfl), hrequests ▸ hsigned,
      hrequests ▸ hpaired⟩

/-- The sign step, and the code of what it has signed. -/
theorem doesAt_sign (hconfirmed : Confirmed app action device intent amount) :
    DoesAt network app action device
      (shownCode app intent amount (network.clock w.net)) s w := by
  let op : PoolOp := .reserveSlot intent.merchant (network.clock w.net) amount
  let event : PoolEvent ρ := eventAt (poolStep network app.pool) (.call op) ⟨s.pool, w⟩
  have hlossy : LossyRun network app.pool False ⟨s.pool, w⟩ [event] event.after := .single _ _
  have hcaused : ∀ e ∈ [event], Caused network action device e := fun e he =>
    List.mem_singleton.mp he ▸ ⟨op, rfl, hconfirmed.tapped.imp fun _ h =>
      ⟨intent, h.imp fun _ h => ⟨h.1, h.2.1⟩⟩, rfl⟩
  -- Reserving signs nothing.
  have hsilent : ∀ key message w', (Req.sign key message, w') ∉ requests (reply network)
      (Pool.reserveSlot app.pool intent.merchant (network.clock w.net) amount) s.pool w :=
    fun key message w' h => asks_requests (reply network)
      (asks_reserveSlot (poolAllows_signsNothing app.pool).toLedgerAllows _ _ _) h key message rfl
  have hreserves : (requests (reply network) (Pool.reserveSlot app.pool intent.merchant
      (network.clock w.net) amount) s.pool w).countP (fun entry => entry.1.isSign)
        ≤ [event].countP fun e => (made e).isSome :=
    (countP_isSign hsilent).le.trans (Nat.zero_le _)
  rcases hreserve : run (reply network)
    (Pool.reserveSlot app.pool intent.merchant (network.clock w.net) amount) s.pool w with
    ⟨e | r, s', w'⟩
  all_goals
    have hafter : event.after = ⟨s', w'⟩ := by
      simp only [event, op, eventAt, poolStep, PoolOp.process, run_map, hreserve]
    rw [hafter] at hlossy
  · -- No slot, no signature.
    have hrun : run (reply network) (PayerApp.signedCode app.pool app.keyPair intent amount
        (network.clock w.net)) s.pool w = ⟨.error e, s', w'⟩ := by
      simp only [PayerApp.signedCode, authorise, run_bind, hreserve]
    refine ⟨_, did_shownCode hrun ?_ hlossy hcaused (fun _ h => by cases h)
      (fun key message w'' h => absurd h (hsilent key message w'')) hreserves⟩
    simp only [PayerApp.signedCode, authorise, run_bind, requests_bind, hreserve, List.append_nil]
  · have hmade : made event = some ⟨intent.merchant, network.clock w.net, amount, r⟩ := by
      simp only [made, event, op, eventAt, poolStep, PoolOp.process, run_map, hreserve, Except.map]
    rcases hmessage : payerMessage app.pool.kit
        ⟨intent, app.pool.payer, some ⟨r.index, r.value⟩, amount⟩ app.keyPair with e | bytes
    · -- The slot is spent and no message is made of it.
      have hnothing := requests_signAsPayer_error network hmessage s' w'
      have hrun : run (reply network) (PayerApp.signedCode app.pool app.keyPair intent amount
          (network.clock w.net)) s.pool w = ⟨.error e, s', w'⟩ := by
        simp only [PayerApp.signedCode, authorise, run_bind, hreserve, run_signAsPayer, hmessage]
      refine ⟨_, did_shownCode hrun ?_ hlossy hcaused (fun _ h => by cases h)
        (fun key message w'' h => absurd h (hsilent key message w'')) hreserves⟩
      simp only [PayerApp.signedCode, authorise, run_bind, requests_bind, hreserve,
        run_signAsPayer, hmessage, hnothing, List.append_nil]
    · have hsign := requests_signAsPayer app.pool.kit network hmessage s' w'
      have hsignable : Signable app action device [event] intent amount r bytes :=
        ⟨hconfirmed, ⟨event, List.mem_singleton_self _, _, hmade⟩, hmessage⟩
      have hsigned : LossyRun network app.pool False ⟨s.pool, w⟩ [event]
          ⟨s', { w' with net := (network.sign app.keyPair bytes w'.net).2 }⟩ :=
        .elsewhere hlossy ⟨later_reply network (.sign app.keyPair bytes) w', .inl rfl, .inl rfl⟩
      have hrun : run (reply network) (PayerApp.signedCode app.pool app.keyPair intent amount
          (network.clock w.net)) s.pool w
            = ⟨encodeAuth (authOf ⟨intent, app.pool.payer, some ⟨r.index, r.value⟩, amount⟩
                (network.sign app.keyPair bytes w'.net).1) (flagsFromByte (answerFlags intent)),
              s', { w' with net := (network.sign app.keyPair bytes w'.net).2 }⟩ := by
        simp only [PayerApp.signedCode, authorise, run_bind, hreserve, run_signAsPayer, hmessage,
          run_ofResult]
      have hasked : requests (reply network) (PayerApp.signedCode app.pool app.keyPair intent
          amount (network.clock w.net)) s.pool w
            = requests (reply network) (Pool.reserveSlot app.pool intent.merchant
                (network.clock w.net) amount) s.pool w ++ [(.sign app.keyPair bytes, w')] := by
        simp only [PayerApp.signedCode, authorise, run_bind, requests_bind, hreserve,
          run_signAsPayer, hmessage, hsign, requests_ofResult, List.append_nil]
      refine ⟨_, did_shownCode hrun hasked hsigned hcaused
        (fun payload h => ⟨r, bytes, w'.net, hsignable, h⟩) ?_ ?_⟩
      · intro key message w'' h
        rcases List.mem_append.mp h with h | h
        · exact absurd h (hsilent key message w'')
        · cases List.mem_singleton.mp h
          exact ⟨rfl, intent, amount, r, hsignable⟩
      · rw [List.countP_append, countP_isSign hsilent, Nat.zero_add, List.countP_singleton,
          List.countP_singleton, hmade]
        exact le_rfl

end SignStep

theorem doesAt_signNow {intent : Intent} {amount : Int}
    (htapped : ∃ retyped warning, action = .tap (.sign retyped) ∧
      device.vars.screen = .confirm intent amount warning ∧
      (needsRetype amount payerRetypeThreshold = true →
        parseAmount retyped intent.decimals.toNat = some amount)) :
    DoesAt network app action device (signNow app intent amount) device.vars device.world := by
  have hwaiting : Does network app action device (render .waiting) := does_render fun _ => trivial
  refine doesAt_bind (hwaiting _ _) fun _ s w hrun => ?_
  cases hrun
  refine doesAt_tryCatch ?_ does_failed
  refine doesAt_read_bind (doesAt_bind (does_hasPoolState _ _ _) fun stored s w hrun => ?_)
  rw [hasPoolState, run_bind, run_storeGet_eq] at hrun
  rcases hstorage : (network.storage device.world.net).1 with _ | e
  · simp only [hstorage] at hrun
    cases hrun
    split
    · next reason _ =>
      have hblocked : Does network app action device (render (.blocked reason)) :=
        does_render fun _ => trivial
      exact hblocked _ _
    · next hopen =>
      rcases signingBlock_eq_none.mp hopen with ⟨hinstalled, hmarked, hstored⟩
      refine doesAt_bind (does_dateNow _ _) fun now s w hrun => ?_
      rw [dateNow, run_request] at hrun
      cases hrun
      exact doesAt_sign ⟨htapped, hinstalled, hmarked, hstored⟩
  · simp only [hstorage] at hrun
    cases hrun

theorem doesAt_confirmed {intent : Intent} {amount : Int} {retyped : JsString}
    {warning : ConfirmWarning} (htap : action = .tap (.sign retyped))
    (hscreen : device.vars.screen = .confirm intent amount warning) :
    DoesAt network app action device (confirmed app intent amount retyped) device.vars
      device.world := by
  unfold confirmed
  split
  · exact does_pure _ _ _
  · next hretyped =>
    refine doesAt_signNow ⟨retyped, warning, htap, hscreen, fun hneeded => ?_⟩
    exact not_not.mp fun hother => hretyped ⟨hneeded, hother⟩

theorem doesAt_enterAmount {intent : Intent} {typed : JsString}
    (htap : action = .tap (.continue' typed))
    (hscreen : device.vars.screen = .enterAmount intent) :
    Does network app action device (enterAmount app intent typed) := by
  unfold enterAmount
  split
  · exact does_pure _
  · next amount hparsed =>
    split
    · exact does_pure _
    · exact does_openConfirm (.typed htap hscreen hparsed)

theorem doesAt_routeScanned {bytes : List UInt8} {purpose : ScanPurpose}
    (htap : action = .tap (.scanned (.ok bytes)))
    (hscreen : device.vars.screen = .scanning purpose) :
    DoesAt network app action device (routeScanned app bytes purpose) device.vars
      device.world := by
  refine doesAt_ofResult_bind fun type htype => doesAt_read_bind ?_
  simp only
  split
  · split
    · exact does_throw _ _ _
    · refine doesAt_ofResult_bind fun payload hpayload => doesAt_bind
        (doesAt_zoom (.applyNonceReturn payload) rfl ⟨_, rfl, rfl, bytes, htap, hpayload⟩)
        fun _ s w _ => ?_
      have hrestored status : Does network app action device (render (.restored status)) :=
        does_render fun _ => trivial
      exact hrestored _ _ _
  · next hpayment =>
    have hscanning : device.vars.screen = .scanning .payment := by
      cases purpose with
      | payment => exact hscreen
      | recovery => exact absurd (.inl rfl) hpayment
    cases type with
    | intent =>
        refine doesAt_ofResult_bind fun intent hintent => ?_
        exact does_openConfirm (.scanned htap hscanning htype hintent rfl) _ _
    | staticIntent =>
        refine doesAt_ofResult_bind fun intent hintent => ?_
        have hentry : Does network app action device (render (.enterAmount intent)) :=
          does_render fun _ => ⟨hscanning, bytes, htap, htype, hintent⟩
        exact hentry _ _
    | _ => exact does_throw _ _ _

/-- The code behind a button, when it is tapped. -/
theorem doesAt_handler {t : Tap} (htap : action = .tap t) :
    DoesAt network app action device (t.handler app device.vars.screen) device.vars
      device.world := by
  cases t with
  | restore => exact does_restore htap _ _
  | create => exact does_createPoolNow htap _ _
  | onboarding => exact does_onboarding _ _
  | home => exact does_home _ _
  | tokens => exact does_tokens _ _
  | checkToken mint => exact does_checkToken mint _ _
  | close => exact does_closePool _ _
  | scan purpose =>
      have hscanning : Does network app action device (render (.scanning purpose)) :=
        does_render fun _ => trivial
      exact hscanning _ _
  | scanned result =>
      cases hscreen : device.vars.screen with
      | scanning purpose =>
          refine doesAt_tryCatch (doesAt_ofResult_bind fun bytes hbytes => ?_) does_failed
          subst hbytes
          exact doesAt_routeScanned htap hscreen
      | _ => exact does_pure _ _ _
  | continue' typed =>
      cases hscreen : device.vars.screen with
      | enterAmount intent => exact doesAt_enterAmount htap hscreen _ _
      | _ => exact does_pure _ _ _
  | sign retyped =>
      cases hscreen : device.vars.screen with
      | confirm intent amount warning => exact doesAt_confirmed htap hscreen
      | _ => exact does_pure _ _ _

theorem doesAt_process :
    DoesAt network app action device (action.process app device.vars.screen) device.vars
      device.world := by
  cases action with
  | tap t =>
      rw [DeviceAction.process]
      split
      · exact doesAt_handler rfl
      · exact does_pure _ _ _
  | reopen standalone => exact does_boot standalone _ _
  | lose keys marker =>
      refine doesAt_read_bind ?_
      split
      · exact ⟨[], did_nothing rfl rfl rfl (.inr rfl)⟩
      · exact does_pure _ _ _
  | wait => exact does_request (r := .tick) (fun _ _ => Req.noConfusion) (fun _ => rfl) _ _

end Handlers

/-- Keys that are lost leave the record of any other. -/
theorem lookup_lost (k : StoreKey) (keys : List StoreKey) (store : Store) :
    (keys.foldl (fun store k => store.erase k) store).lookup k = store.lookup k ∨
      k ∈ keys ∧ (keys.foldl (fun store k => store.erase k) store).lookup k = none := by
  induction keys generalizing store with
  | nil => exact .inl rfl
  | cons lost keys ih =>
      rcases ih (store.erase lost) with h | ⟨hmem, h⟩
      · rw [List.foldl_cons, h]
        by_cases hk : k = lost
        · exact .inr ⟨hk ▸ List.mem_cons_self, hk ▸ AList.lookup_erase _ _⟩
        · exact .inl (AList.lookup_erase_ne hk)
      · exact .inr ⟨List.mem_cons_of_mem _ hmem, h⟩

/-- What an action does: to the pool, a lossy run of the commands it causes; to the
    screens, that one is shown that it may show, or the same stays; and with the
    key, that it signs the messages that it may sign, no more than it reserves. -/
theorem tap_spec (network : Network ρ) (app : DeviceConfig) (action : DeviceAction)
    (device : Device ρ) : ∃ events,
    LossyRun network app.pool (action.Loses app.pool) device.sys events
      (deviceTap app network action device).2.sys ∧
    (∀ e ∈ events, Caused network action device e) ∧
    (Shown network app action device events (deviceTap app network action device).2.vars.screen ∨
      (deviceTap app network action device).2.vars.screen = device.vars.screen) ∧
    (∀ key message w, (Req.sign key message, w) ∈ requests (reply network)
        (action.process app device.vars.screen) device.vars device.world →
      key = app.keyPair ∧ ∃ intent amount r,
        Signable app action device events intent amount r message) ∧
    (requests (reply network) (action.process app device.vars.screen) device.vars
        device.world).countP (fun entry => entry.1.isSign)
      ≤ events.countP fun e => (made e).isSome := by
  have hprocess : DoesAt network app action device _ _ _ := doesAt_process
  rcases hprocess with ⟨events, hlossy, hcaused, hshown, hsigned, hpaired⟩
  refine ⟨events, ?_, hcaused, hshown, hsigned, hpaired⟩
  have hlossy := @LossyRun.mono _ _ _ _ (action.Loses app.pool) False.elim _ _ _ hlossy
  cases action with
  | lose keys marker => exact .elsewhere hlossy ⟨.refl, .inl rfl, lookup_lost _ keys _⟩
  | _ => exact hlossy

end PayerApp

end Vadum
