import CastApp.Cast.SessionTurn

/-!
# The reconnect policy

After a live session is lost the task tries to reach the same device again,
once behind each delay of the configured backoff, and gives up when the
delays are used up.  The attempts counted by the loop, the iterator it
carries along, the desired device and the scheduled attempt stay in step:
`Reconnecting` says how, in terms of how many attempts have failed.

* `delays` — the delays a backoff yields.
* `lost_reconnecting`, `attempt_reconnecting` — one loss, one failed attempt.
* `select_settles` — a `Select` leaves no attempt behind.
* **`reconnect_policy`** — the policy, for every run.
-/

namespace CastApp.Cast.ReconnectPolicy

open CastApp.State
open CastApp.Cast.Journal
open CastApp.Cast.RunEffect
open CastApp.Cast.RunInvariant
open CastApp.Cast.RunLoop
open CastApp.Cast.Session
open CastApp.Cast.SessionEffect
open CastApp.Cast.SessionTurn
open CastApp.Util.Json
open CastApp.Util.Retry
open CastApp.Verified.Coroutine
open CastApp.Verified.EventLoop
open CastApp.Verified.Transition

/-! ## The delays of a backoff -/

/-- The first `n` delays. -/
def delaysFrom : Nat → Backoff → List Duration
  | 0, _ => []
  | n + 1, b =>
      match b.next with
      | none => []
      | some (delay, b) => delay :: delaysFrom n b

/-- Every delay the iterator yields, in order. -/
def delays (b : Backoff) : List Duration := delaysFrom b.remaining b

theorem delays_of_none {b : Backoff} (h : b.next = none) : delays b = [] := by
  unfold delays
  rw [Backoff.next_eq_none.mp h]
  rfl

theorem delays_of_some {b b' : Backoff} {delay : Duration} (h : b.next = some (delay, b')) :
    delays b = delay :: delays b' := by
  have hRemaining := Backoff.next_remaining h
  unfold delays
  rw [← hRemaining]
  simp only [delaysFrom, h]

/-! ## What the operations show of it -/

/-- The devices `establish` was attempted to, in order. -/
def connectsOf (ops : Ops) : List CastDevice :=
  ops.filterMap fun entry =>
    match entry.1 with
    | .connect device => some device
    | _ => none

def errorIn : ConnectionEvent → Option ConnectionError
  | .error error => some error
  | _ => none

/-- The errors emitted, in order. -/
def errorsOf (ops : Ops) : List ConnectionError := (eventsOf ops).filterMap errorIn

/-- The last reading of the clock. -/
def lastInstant (ops : Ops) : Option Instant :=
  (ops.filterMap fun entry : Entry castSig =>
    match entry with
    | ⟨.now, instant⟩ => some instant
    | _ => none).getLast?

@[simp] theorem connectsOf_append (xs ys : Ops) :
    connectsOf (xs ++ ys) = connectsOf xs ++ connectsOf ys := List.filterMap_append

@[simp] theorem errorsOf_append (xs ys : Ops) :
    errorsOf (xs ++ ys) = errorsOf xs ++ errorsOf ys := by
  simp [errorsOf]

theorem lastInstant_concat (ops : Ops) (now : Instant) :
    lastInstant (ops ++ [⟨.now, now⟩]) = some now := by
  simp [lastInstant]

/-- A session on its own connects nowhere. -/
theorem SessionOnly.connectsOf_eq {ops : Ops} (h : SessionOnly ops) : connectsOf ops = [] := by
  refine List.filterMap_eq_nil_iff.mpr fun ⟨op, result⟩ hEntry => ?_
  have hOp := List.all_eq_true.mp h _ hEntry
  cases op with
  | connect => cases hOp
  | subscribe | write | close | channel | spawnReader | now | emit => rfl

theorem errorsOf_of_eventsOf {ops : Ops} (h : eventsOf ops = []) : errorsOf ops = [] := by
  unfold errorsOf
  rw [h]
  rfl

theorem Teardown.errorsOf_eq {state state' : RunState} {ops : Ops}
    (h : Teardown state ops (.value state')) : errorsOf ops = [] := by
  cases h with
  | idle => rfl
  | ended hSession hGoodbye =>
      rw [errorsOf_append, errorsOf_of_eventsOf (Goodbye.eventsOf_eq hGoodbye)]
      rfl

theorem mismatchOps_silent (device : CastDevice) (pin : PinCheck) :
    connectsOf (mismatchOps device pin) = [] ∧ errorsOf (mismatchOps device pin) = [] := by
  cases pin <;> exact ⟨rfl, rfl⟩

/-- Every attempt is one connect, and emits no error itself. -/
theorem Establishes.attempt {config : ConnectionConfig} {state : RunState} {device : CastDevice}
    {ops : Ops} {o : Outcome castSig (Except ConnectionError Unit × RunState)}
    (h : Establishes config state device ops o) :
    connectsOf ops = [device] ∧ errorsOf ops = [] := by
  have hSilent := mismatchOps_silent device
  have hCons : ∀ (answer : Except TlsError (Transport × PinCheck)) (rest : Ops),
      connectsOf (⟨.connect device, answer⟩ :: rest) = device :: connectsOf rest ∧
        errorsOf (⟨.connect device, answer⟩ :: rest) = errorsOf rest :=
    fun answer rest => ⟨rfl, rfl⟩
  cases h with
  | unreachable => exact ⟨rfl, rfl⟩
  | refused transport pin error =>
      rw [(hCons _ _).1, (hCons _ _).2, connectsOf_append, errorsOf_append, (hSilent pin).1,
        (hSilent pin).2]
      exact ⟨rfl, rfl⟩
  | unread transport pin channel source =>
      rw [(hCons _ _).1, (hCons _ _).2, connectsOf_append, errorsOf_append, (hSilent pin).1,
        (hSilent pin).2]
      exact ⟨rfl, rfl⟩
  | opened transport pin channel heartbeat watchdog =>
      rw [(hCons _ _).1, (hCons _ _).2, connectsOf_append, errorsOf_append, (hSilent pin).1,
        (hSilent pin).2]
      exact ⟨rfl, rfl⟩

/-- A status reports no errors. -/
theorem applyReceiverStatus_errors (session : Session) (status : Namespaces.ReceiverStatus) :
    (session.applyReceiverStatus status).1.filterMap errorIn = [] := by
  have hVolume : (Session.volumeEvents status.volume).filterMap errorIn = [] := by
    unfold Session.volumeEvents
    split <;> rfl
  show (((session.adoptIds status).becomeReady).1 ++
    Session.volumeEvents status.volume).filterMap errorIn = []
  rw [List.filterMap_append, hVolume, List.append_nil]
  unfold Session.becomeReady
  split
  · split <;> rfl
  · rfl

theorem RouteEffect.errorsOf_eq {fromStr : String → Option Json} {session session' : Session}
    {payload : List Byte} {action : InboundAction} {ops : Ops}
    (h : RouteEffect fromStr session payload (action, session')) (hHears : Hears action ops) :
    errorsOf ops = [] := by
  cases h with
  | status p hStatus =>
      cases hHears
      unfold errorsOf
      rw [eventsOf_emitted]
      exact applyReceiverStatus_errors _ _
  | media p =>
      cases hHears
      unfold errorsOf
      rw [eventsOf_emitted]
      rfl
  | pong => cases hHears <;> rfl
  | ignored => cases hHears; rfl

theorem Acts.errorsOf_eq {fromStr : String → Option Json} {session : Session}
    {b : Branch} {ops : Ops} {o : Outcome castSig Handled}
    (h : Acts fromStr session b ops o) : errorsOf ops = [] := by
  cases h with
  | command _ _ h => exact errorsOf_of_eventsOf (CommandEffect.eventsOf_eq h)
  | routed hRoute hHears => exact RouteEffect.errorsOf_eq hRoute hHears
  | dispatched hRoute hHears _ _ h =>
      rw [errorsOf_append, RouteEffect.errorsOf_eq hRoute hHears,
        errorsOf_of_eventsOf (Loads.eventsOf_eq h)]
      rfl
  | pinged => rfl

/-- A successful attempt announces itself. -/
theorem Establishes.announced {config : ConnectionConfig} {state state' : RunState}
    {device : CastDevice} {ops : Ops}
    (h : Establishes config state device ops (.value (.ok (), state'))) :
    .connected device ∈ eventsOf ops := by
  have hLifecycle := Establishes.lifecycleOf_eq h
  have hMem : .connected device ∈ lifecycleOf ops := by
    rw [hLifecycle]
    exact List.mem_singleton.mpr rfl
  exact (List.mem_filter.mp hMem).1

/-- Reaping leaves a loop without a session alone. -/
theorem Reaped.eq_of_idle {state state' : RunState} {ops : Ops} (h : Reaped state ops state')
    (hSession : state.session = none) : ops = [] ∧ state' = state := by
  cases h with
  | idle => exact ⟨rfl, rfl⟩
  | live hLive =>
      rw [hSession] at hLive
      cases hLive

/-! ## Reconnecting -/

variable (config : ConnectionConfig)

/-- How far a reconnection to `device` has come after `failed` failed
attempts, `ops` being everything done since the loss: the next attempt waits
for the next delay to pass, or the last one has failed and the policy is
exhausted. -/
inductive Reconnecting (device : CastDevice) (ops : Ops) (failed : Nat) (state : RunState) : Prop
  | waiting {now : Instant} {delay : Duration} {backoff : Backoff}
      (hSession : state.session = none) (hDesired : state.desired = some device)
      (hDelay : (delays config.backoff)[failed]? = some delay)
      (hLater : delays backoff = (delays config.backoff).drop (failed + 1))
      (hNow : lastInstant ops = some now)
      (hAttempt : state.reconnect = some ⟨⟨now + delay⟩, device, backoff, failed⟩)
      (hErrors : errorsOf ops = [])
  | exhausted (hSession : state.session = none) (hDesired : state.desired = none)
      (hAll : failed = (delays config.backoff).length) (hAttempt : state.reconnect = none)
      (hErrors : errorsOf ops = [.reconnectExhausted device.name device.addr failed])

variable {config}

theorem Reconnecting.session {device : CastDevice} {ops : Ops} {failed : Nat} {state : RunState}
    (h : Reconnecting config device ops failed state) : state.session = none := by
  cases h with
  | waiting hSession => exact hSession
  | exhausted hSession => exact hSession

/-- No more attempts fail than there are delays. -/
theorem Reconnecting.failed_le {device : CastDevice} {ops : Ops} {failed : Nat} {state : RunState}
    (h : Reconnecting config device ops failed state) :
    failed ≤ (delays config.backoff).length := by
  cases h with
  | waiting _ _ hDelay =>
      obtain ⟨hLt, -⟩ := List.getElem?_eq_some_iff.mp hDelay
      omega
  | exhausted _ _ hAll => omega

/-- The first step: a lost session. -/
theorem lost_reconnecting {state state' : RunState} {session : Session} {before ops : Ops}
    (h : Lost config state ops (.value state')) (hSession : state.session = some session)
    (hDesired : state.desired = some session.device) (hReconnect : state.reconnect = none)
    (hBefore : errorsOf before = []) :
    Reconnecting config session.device (before ++ ops) 0 state' := by
  have hTorn : ∀ {ops state'}, Teardown state ops (.value state') →
      state'.session = none ∧ state'.desired = some session.device ∧ state'.reconnect = none := by
    intro ops state' h
    have hFrom := Teardown.tornFrom h fun hNone => by
      rw [hSession] at hNone
      cases hNone
    exact ⟨hFrom.detached.session, hFrom.desired.trans hDesired, hFrom.reconnect.trans hReconnect⟩
  cases h with
  | undesired h hNone =>
      rw [(hTorn h).2.1] at hNone
      cases hNone
  | @retry state₁ ops device delay backoff h hSome hBackoff now =>
      obtain ⟨hGone, hStill, -⟩ := hTorn h
      rw [hStill] at hSome
      cases hSome
      have hDelays := delays_of_some hBackoff
      refine @Reconnecting.waiting _ _ _ _ _ now delay backoff hGone hStill
        (by rw [hDelays]; rfl) (by rw [hDelays]; rfl) ?_ rfl ?_
      · rw [← List.append_assoc]
        exact lastInstant_concat _ now
      · rw [errorsOf_append, errorsOf_append, hBefore, Teardown.errorsOf_eq h]
        rfl
  | @exhausted state₁ ops device h hSome hBackoff =>
      obtain ⟨hGone, hStill, hNoAttempt⟩ := hTorn h
      rw [hStill] at hSome
      cases hSome
      refine .exhausted hGone rfl (by rw [delays_of_none hBackoff]; rfl) hNoAttempt ?_
      rw [errorsOf_append, errorsOf_append, hBefore, Teardown.errorsOf_eq h]
      rfl

variable {fromStr : String → Option Json}

/-- Only the session, the device wanted and the next attempt count. -/
theorem Reconnecting.congr {device : CastDevice} {ops : Ops} {failed : Nat}
    {state state' : RunState} (h : Reconnecting config device ops failed state)
    (hSession : state'.session = state.session) (hDesired : state'.desired = state.desired)
    (hReconnect : state'.reconnect = state.reconnect) :
    Reconnecting config device ops failed state' := by
  cases h with
  | waiting hNone hWanted hDelay hLater hNow hAttempt hErrors =>
      exact .waiting (hSession.trans hNone) (hDesired.trans hWanted) hDelay hLater hNow
        (hReconnect.trans hAttempt) hErrors
  | exhausted hNone hWanted hAll hAttempt hErrors =>
      exact .exhausted (hSession.trans hNone) (hDesired.trans hWanted) hAll
        (hReconnect.trans hAttempt) hErrors

/-- An attempt is due only while the policy waits: what it was armed with. -/
theorem Reconnecting.armed {device : CastDevice} {ops : Ops} {failed : Nat} {state : RunState}
    {attempt : Reconnect} (h : Reconnecting config device ops failed state)
    (hReconnect : state.reconnect = some attempt) :
    attempt.device = device ∧ attempt.attempts = failed ∧ state.desired = some device ∧
      failed < (delays config.backoff).length ∧
      delays attempt.backoff = (delays config.backoff).drop (failed + 1) ∧ errorsOf ops = [] := by
  cases h with
  | waiting _ hDesired hDelay hLater _ hAttempt hErrors =>
      rw [hAttempt] at hReconnect
      cases hReconnect
      exact ⟨rfl, rfl, hDesired, (List.getElem?_eq_some_iff.mp hDelay).1, hLater, hErrors⟩
  | exhausted _ _ _ hNone =>
      rw [hNone] at hReconnect
      cases hReconnect

/-- An attempt fails and there is another delay. -/
theorem Reconnecting.retried {device : CastDevice} {before ops : Ops} {failed : Nat}
    {state : RunState} {attempt : Reconnect} {delay : Duration} {backoff : Backoff}
    (h : Reconnecting config device before failed state)
    (hReconnect : state.reconnect = some attempt)
    (hBackoff : attempt.backoff.next = some (delay, backoff)) (hQuiet : errorsOf ops = [])
    (now : Instant) :
    Reconnecting config device (before ++ (ops ++ [⟨.now, now⟩])) (failed + 1)
      { state with
        reconnect := some ⟨⟨now + delay⟩, attempt.device, backoff, attempt.attempts + 1⟩ } := by
  obtain ⟨rfl, rfl, hDesired, -, hLater, hErrors⟩ := h.armed hReconnect
  rw [delays_of_some hBackoff] at hLater
  refine @Reconnecting.waiting _ _ _ _ _ now _ _ h.session hDesired ?_ ?_ ?_ rfl ?_
  · rw [← List.head?_drop, ← hLater]
    rfl
  · rw [← List.tail_drop, ← hLater]
    rfl
  · rw [← List.append_assoc]
    exact lastInstant_concat _ now
  · simp only [errorsOf_append, hErrors, hQuiet]
    rfl

/-- A turn between loss and `Select` in which no attempt succeeds: it is one
more failed attempt, or nothing happens. -/
theorem attempt_reconnecting {device : CastDevice} {before ops : Ops} {failed : Nat}
    {state state' : RunState} {b : Branch} (hGuard : branchGuard state b)
    (h : TurnEffect config fromStr state b ops (.parked state'))
    (hSelect : ∀ device, b ≠ .command (some (.select device)))
    (hFails : ∀ device, .connected device ∉ eventsOf ops)
    (hBefore : Reconnecting config device before failed state) :
    (b = .reconnect ∧ connectsOf ops = [device] ∧
        Reconnecting config device (before ++ ops) (failed + 1) state') ∨
      (b ≠ .reconnect ∧ connectsOf ops = [] ∧
        Reconnecting config device (before ++ ops) failed state') := by
  have hSession := hBefore.session
  cases h with
  | @parked ops₁ ops₂ state₁ _ h hReaped =>
  cases h with
  | idle _ hIdles =>
      have hSame : state₁.session = state.session ∧ state₁.desired = state.desired ∧
          state₁.reconnect = state.reconnect := by
        cases hIdles <;> exact ⟨rfl, rfl, rfl⟩
      have hOther : b ≠ .reconnect := by
        rintro rfl
        cases hIdles with
        | reader hReader => rcases hReader with hReader | hReader <;> cases hReader
        | reconnect hNone =>
            unfold branchGuard at hGuard
            rw [hNone] at hGuard
            cases hGuard
      obtain ⟨rfl, rfl⟩ := Reaped.eq_of_idle hReaped (hSame.1.trans hSession)
      refine .inr ⟨hOther, rfl, ?_⟩
      rw [List.append_nil, List.append_nil]
      exact hBefore.congr hSame.1 hSame.2.1 hSame.2.2
  | acted hLive | failed hLive | gone hLive =>
      rw [hSession] at hLive
      cases hLive
  | @selected other | @selectFailed other => exact absurd rfl (hSelect other)
  | @reconnected attempt _ _ hReconnect hEstablishes =>
      have hMem := Establishes.announced hEstablishes
      have hAnnounced : .connected attempt.device ∈ eventsOf (ops₁ ++ ops₂) := by
        rw [eventsOf_append]
        exact List.mem_append_left _ hMem
      exact absurd hAnnounced (hFails _)
  | @retried attempt ops _ error delay backoff hReconnect hEstablishes hBackoff now =>
      obtain rfl := Establishes.error_eq hEstablishes
      obtain ⟨rfl, rfl⟩ := Reaped.eq_of_idle hReaped hSession
      obtain ⟨hConnects, hQuiet⟩ := Establishes.attempt hEstablishes
      obtain ⟨rfl, -⟩ := hBefore.armed hReconnect
      refine .inl ⟨rfl, ?_, ?_⟩
      · rw [connectsOf_append, connectsOf_append, hConnects]
        rfl
      · rw [List.append_nil]
        exact hBefore.retried hReconnect hBackoff hQuiet now
  | @abandoned attempt ops _ error hReconnect hEstablishes hBackoff =>
      obtain rfl := Establishes.error_eq hEstablishes
      obtain ⟨rfl, rfl⟩ := Reaped.eq_of_idle hReaped hSession
      obtain ⟨hConnects, hQuiet⟩ := Establishes.attempt hEstablishes
      obtain ⟨rfl, rfl, -, hLt, hLater, hErrors⟩ := hBefore.armed hReconnect
      rw [delays_of_none hBackoff] at hLater
      have hUsedUp : attempt.attempts + 1 = (delays config.backoff).length := by
        have hLength := congrArg List.length hLater
        rw [List.length_drop, List.length_nil] at hLength
        omega
      refine .inl ⟨rfl, ?_, .exhausted hSession rfl hUsedUp rfl ?_⟩
      · rw [connectsOf_append, connectsOf_append, hConnects]
        rfl
      · simp only [errorsOf_append, hErrors, hQuiet]
        rfl

/-! ## What a turn wants -/

/-- Losing a connection keeps the desired device or gives it up. -/
theorem Lost.desired {state state' : RunState} {ops : Ops}
    (h : Lost config state ops (.value state')) :
    state'.desired = state.desired ∨ state'.desired = none := by
  have hTorn : ∀ {ops state'}, Teardown state ops (.value state') →
      state'.desired = state.desired := by
    intro ops state' h
    cases h <;> rfl
  cases h with
  | undesired h => exact .inl (hTorn h)
  | retry h =>
      have hKept := hTorn h
      exact .inl hKept
  | exhausted h => exact .inr rfl

/-- Without a `Select`, a turn attempts at most the desired device, and
desires no other afterwards. -/
theorem turn_desires {state state' : RunState} {b : Branch} {ops : Ops} (hInv : RunInv state)
    (h : TurnEffect config fromStr state b ops (.parked state'))
    (hSelect : ∀ device, b ≠ .command (some (.select device))) :
    (state'.desired = state.desired ∨ state'.desired = none) ∧
      ∀ device ∈ connectsOf ops, state.desired = some device := by
  cases h with
  | @parked ops₁ ops₂ state₁ _ h hReaped =>
  have hReap : state'.desired = state₁.desired ∧ connectsOf ops₂ = [] := by
    cases hReaped <;> exact ⟨rfl, rfl⟩
  rw [hReap.1, connectsOf_append, hReap.2, List.append_nil]
  have hOwn : ∀ {ops}, SessionOnly ops → ∀ device ∈ connectsOf ops, state.desired = some device := by
    intro ops hOnly device hMem
    rw [SessionOnly.connectsOf_eq hOnly] at hMem
    cases hMem
  have hTried : ∀ {attempt : Reconnect} {device : CastDevice}, state.reconnect = some attempt →
      device ∈ [attempt.device] → state.desired = some device := by
    intro attempt device hReconnect hMem
    obtain rfl := List.mem_singleton.mp hMem
    exact hInv.reconnectDesired attempt hReconnect
  cases h with
  | idle _ hIdles =>
      refine ⟨.inl ?_, by simp [connectsOf]⟩
      cases hIdles <;> rfl
  | acted hSession h hRearmed hQuiet =>
      exact ⟨.inl hRearmed.desired,
        hOwn (SessionOnly.append (Acts.sessionOnly h) (Quiet.sessionOnly hQuiet))⟩
  | failed hSession h hRearmed hLost =>
      refine ⟨?_, hOwn (SessionOnly.append (Acts.sessionOnly h) (Lost.sessionOnly hLost))⟩
      rw [← hRearmed.desired]
      exact Lost.desired hLost
  | gone hSession hGone hLost => exact ⟨Lost.desired hLost, hOwn (Lost.sessionOnly hLost)⟩
  | @selected other | @selectFailed other => exact absurd rfl (hSelect other)
  | reconnected hReconnect hEstablishes =>
      rw [(Establishes.attempt hEstablishes).1]
      refine ⟨.inl ?_, fun device hMem => hTried hReconnect hMem⟩
      cases hEstablishes
      rfl
  | retried hReconnect hEstablishes hBackoff now =>
      obtain rfl := Establishes.error_eq hEstablishes
      rw [connectsOf_append, (Establishes.attempt hEstablishes).1]
      exact ⟨.inl rfl, fun device hMem => hTried hReconnect hMem⟩
  | abandoned hReconnect hEstablishes hBackoff =>
      rw [connectsOf_append, (Establishes.attempt hEstablishes).1]
      exact ⟨.inr rfl, fun device hMem => hTried hReconnect hMem⟩

/-- A `Select` leaves no attempt behind, and reports exactly one error if it
fails. -/
theorem select_settles {state state' : RunState} {device : CastDevice} {ops : Ops}
    (h : TurnEffect config fromStr state (.command (some (.select device))) ops (.parked state')) :
    state'.reconnect = none ∧ (state'.desired = some device ∨ state'.desired = none) ∧
      ((∀ device, .connected device ∉ eventsOf ops) →
        state'.desired = none ∧ ∃ error, errorsOf ops = [error]) := by
  cases h with
  | @parked ops₁ ops₂ state₁ _ h hReaped =>
  have hReap : state'.desired = state₁.desired ∧ state'.reconnect = state₁.reconnect ∧
      errorsOf ops₂ = [] := by
    cases hReaped <;> exact ⟨rfl, rfl, rfl⟩
  rw [hReap.1, hReap.2.1, errorsOf_append, hReap.2.2, List.append_nil]
  cases h with
  | idle _ hIdles =>
      cases hIdles with
      | command hSelect => exact absurd rfl (hSelect device)
      | reader hReader => rcases hReader with hReader | hReader <;> cases hReader
  | acted _ h | failed _ h =>
      cases h with
      | command _ hSelect => exact absurd rfl (hSelect device)
  | gone hSession hGone => cases hGone
  | selected h hEstablishes =>
      have hMem := Establishes.announced hEstablishes
      refine ⟨?_, .inl ?_, fun hFails => absurd ?_ (hFails device)⟩
      · cases hEstablishes
        rfl
      · cases hEstablishes
        rfl
      · rw [eventsOf_append, eventsOf_append]
        exact List.mem_append_left _ (List.mem_append_right _ hMem)
  | @selectFailed device ops ops' state₂ state₃ error h hEstablishes =>
      obtain rfl := Establishes.error_eq hEstablishes
      refine ⟨rfl, .inr rfl, fun _ => ⟨rfl, error, ?_⟩⟩
      rw [errorsOf_append, errorsOf_append, Teardown.errorsOf_eq h,
        (Establishes.attempt hEstablishes).2]
      rfl

/-- A turn that announces a connection leaves it live, with nothing
scheduled. -/
theorem connected_settles {state state' : RunState} {device : CastDevice} {b : Branch} {ops : Ops}
    (h : TurnEffect config fromStr state b ops (.parked state'))
    (hConnected : .connected device ∈ eventsOf ops) :
    state'.reconnect = none ∧ state'.session.map (·.device) = some device := by
  have hLifecycle : .connected device ∈ lifecycleOf ops := List.mem_filter.mpr ⟨hConnected, rfl⟩
  cases h with
  | @parked ops₁ ops₂ state₁ _ h hReaped =>
  have hReap : state'.reconnect = state₁.reconnect ∧ lifecycleOf ops₂ = [] ∧
      state'.session.map (·.device) = state₁.session.map (·.device) := by
    cases hReaped with
    | idle => exact ⟨rfl, rfl, rfl⟩
    | live hSession => exact ⟨rfl, rfl, by rw [hSession]; rfl⟩
  rw [lifecycleOf_append, hReap.2.1, List.append_nil] at hLifecycle
  rw [hReap.1, hReap.2.2]
  have hOpened : ∀ {state₀ other ops}, state₀.reconnect = none →
      Establishes config state₀ other ops (.value (.ok (), state₁)) →
        .connected device ∈ lifecycleOf ops →
        state₁.reconnect = none ∧ state₁.session.map (·.device) = some device := by
    intro state₀ other ops hNone hEstablishes hMem
    rw [Establishes.lifecycleOf_eq hEstablishes] at hMem
    obtain rfl : device = other := by simpa [announcement] using hMem
    cases hEstablishes
    exact ⟨hNone, rfl⟩
  have hFarewell : .connected device ∉ farewell state.session := by
    unfold farewell
    split <;> simp
  cases h with
  | idle => simp at hLifecycle
  | acted hSession h hRearmed hQuiet =>
      rw [lifecycleOf_append, Acts.lifecycleOf_eq h, lifecycleOf, quiet_eventsOf hQuiet] at hLifecycle
      simp at hLifecycle
  | @failed session session' state₂ _ _ _ _ _ hSession h hRearmed hLost =>
      rw [lifecycleOf_append, Acts.lifecycleOf_eq h, Lost.lifecycleOf_eq hLost, hRearmed.session]
        at hLifecycle
      simp [farewell] at hLifecycle
  | gone hSession hGone hLost =>
      rw [Lost.lifecycleOf_eq hLost] at hLifecycle
      exact absurd hLifecycle hFarewell
  | selected h hEstablishes =>
      rw [lifecycleOf_append, Teardown.lifecycleOf_eq h] at hLifecycle
      exact hOpened rfl hEstablishes ((List.mem_append.mp hLifecycle).resolve_left hFarewell)
  | selectFailed h hEstablishes =>
      rw [lifecycleOf_append, lifecycleOf_append, Teardown.lifecycleOf_eq h,
        Establishes.lifecycleOf_eq hEstablishes] at hLifecycle
      have hNot := (List.mem_append.mp hLifecycle).resolve_left hFarewell
      simp [announcement, eventOf, isLifecycle] at hNot
  | reconnected hReconnect hEstablishes => exact hOpened rfl hEstablishes hLifecycle
  | retried hReconnect hEstablishes =>
      rw [lifecycleOf_append, Establishes.lifecycleOf_eq hEstablishes] at hLifecycle
      simp [announcement, eventOf] at hLifecycle
  | abandoned hReconnect hEstablishes =>
      rw [lifecycleOf_append, Establishes.lifecycleOf_eq hEstablishes] at hLifecycle
      simp [announcement, eventOf, isLifecycle] at hLifecycle

/-! ## The policy over runs -/

/-- The turn finds the live session to `device` lost. -/
def Loses (device : CastDevice) (turn : TurnOf) : Prop :=
  ∃ state state' session, turn.pre = .parked state ∧ state.session = some session ∧
    session.device = device ∧ turn.post = .parked state' ∧ state'.session = none

def IsSelect (turn : TurnOf) : Prop := ∃ device, turn.label.branch = .command (some (.select device))

/-- No `Select` arrives. -/
def NoSelect (turns : List TurnOf) : Prop := ∀ turn ∈ turns, ¬ IsSelect turn

/-- Every attempt to connect fails. -/
def NoneConnects (turns : List TurnOf) : Prop :=
  ∀ device, .connected device ∉ eventsOf (opsOf turns)

def isReconnect : Branch → Bool
  | .reconnect => true
  | _ => false

/-- How many times the delay of an attempt has passed. -/
def firings (turns : List TurnOf) : Nat :=
  turns.countP fun turn => isReconnect turn.label.branch

/-- What follows a loss: an attempt at each firing, all to the lost device
and all failed, and the state that `Reconnecting` says. -/
def AfterLoss (config : ConnectionConfig) (device : CastDevice) (loss : TurnOf)
    (after : List TurnOf) (state : RunState) : Prop :=
  connectsOf (opsOf after) = List.replicate (firings after) device ∧
    firings after ≤ (delays config.backoff).length ∧
    Reconnecting config device (loss.label.ops ++ opsOf after) (firings after) state

/-- What follows a `Select`: attempts to its device only, nothing scheduled
at first, and nothing at all if it failed, with one error. -/
structure AfterSelect (device : CastDevice) (select : TurnOf) (after : List TurnOf)
    (state : RunState) : Prop where
  attempts : ∀ other ∈ connectsOf (opsOf after), other = device
  cancelled : after = [] → state.reconnect = none
  failed : NoneConnects [select] → (∃ error, errorsOf select.label.ops = [error]) ∧
    connectsOf (opsOf after) = [] ∧ state.reconnect = none ∧ state.desired = none

/-- The turn that loses a session schedules the first attempt. -/
theorem turn_loses {state state' : RunState} {session : Session} {b : Branch} {ops : Ops}
    (hInv : RunInv state) (h : TurnEffect config fromStr state b ops (.parked state'))
    (hSelect : ∀ device, b ≠ .command (some (.select device)))
    (hSession : state.session = some session) (hGone : state'.session = none) :
    Reconnecting config session.device ops 0 state' := by
  have hReconnect : state.reconnect = none := hInv.single.resolve_left (by simp [hSession])
  have hDesired := hInv.sessionDesired session hSession
  cases h with
  | @parked ops₁ ops₂ state₁ _ h hReaped =>
  have hIdle : state₁.session = none := by
    cases hReaped with
    | idle hNone => exact hNone
    | live => cases hGone
  obtain ⟨rfl, rfl⟩ := Reaped.eq_of_idle hReaped hIdle
  rw [List.append_nil]
  cases h with
  | idle hNone =>
      rw [hSession] at hNone
      cases hNone
  | acted _ _ hRearmed =>
      rw [hRearmed.session] at hGone
      cases hGone
  | failed hLive h hRearmed hLost =>
      rw [hSession] at hLive
      cases hLive
      have hDevice := (Acts.device h).1
      have hLater := lost_reconnecting hLost hRearmed.session
        (by rw [hRearmed.desired, hDesired, hDevice]) (hRearmed.reconnect.trans hReconnect)
        (Acts.errorsOf_eq h)
      rw [hDevice] at hLater
      exact hLater
  | gone _ _ hLost =>
      exact @lost_reconnecting _ _ _ _ [] _ hLost hSession hDesired hReconnect rfl
  | @selected other | @selectFailed other => exact absurd rfl (hSelect other)
  | reconnected hSome | retried hSome | abandoned hSome =>
      rw [hReconnect] at hSome
      cases hSome

/-- The last turn of a run that is cut at one of its turns. -/
theorem cut_cases {turns before after : List TurnOf} {last turn : TurnOf}
    (h : turns ++ [last] = before ++ turn :: after) :
    (after = [] ∧ turns = before ∧ last = turn) ∨
      ∃ rest, after = rest ++ [last] ∧ turns = before ++ turn :: rest := by
  rcases List.eq_nil_or_concat after with rfl | ⟨rest, final, rfl⟩
  · obtain ⟨rfl, hLast⟩ := List.append_inj' h rfl
    exact .inl ⟨rfl, rfl, List.singleton_inj.mp hLast⟩
  · rw [List.concat_eq_append] at h ⊢
    rw [← List.cons_append, ← List.append_assoc] at h
    obtain ⟨rfl, hLast⟩ := List.append_inj' h rfl
    obtain rfl := List.singleton_inj.mp hLast
    exact .inr ⟨rest, rfl, rfl⟩

theorem NoSelect.concat {turns : List TurnOf} {last : TurnOf} (h : NoSelect (turns ++ [last])) :
    NoSelect turns ∧ ∀ device, last.label.branch ≠ .command (some (.select device)) := by
  refine ⟨fun turn hMem => h turn (List.mem_append_left _ hMem), fun device hBranch => ?_⟩
  exact h last (List.mem_append_right _ (List.mem_singleton.mpr rfl)) ⟨device, hBranch⟩

section Runs

variable {turns : List TurnOf} {state : RunState}

/-- The run lemma of a loss. -/
theorem run_afterLoss (hRun : Run (run config fromStr).turns turns (.parked state)) :
    ∀ before loss after device, turns = before ++ loss :: after → Loses device loss →
      NoSelect (loss :: after) → NoneConnects after →
        AfterLoss config device loss after state := by
  refine hRun.traceInvariant
    (I := fun turns c => ∀ state, c = .parked state → ∀ before loss after device,
      turns = before ++ loss :: after → Loses device loss → NoSelect (loss :: after) →
        NoneConnects after → AfterLoss config device loss after state) ?_ ?_ state rfl
  · intro c hInit state hState before loss after device hTurns
    simp at hTurns
  · rintro turns c turn c' hBefore hPrevious ⟨state₀, rfl, hTurn⟩ state rfl before loss after
      device hTurns hLoses hNoSelect hNoneConnects
    have hInv := (run_invariant hBefore).1
    have hEffect := run_turnEffect config fromStr hTurn
    rcases cut_cases hTurns with ⟨rfl, -, rfl⟩ | ⟨rest, rfl, rfl⟩
    · obtain ⟨before, after, session, hPre, hSession, rfl, hPost, hGone⟩ := hLoses
      cases hPre
      cases hPost
      obtain ⟨-, hSelect⟩ := @NoSelect.concat [] _ hNoSelect
      refine ⟨rfl, Nat.zero_le _, ?_⟩
      rw [opsOf_nil, List.append_nil]
      exact turn_loses hInv hEffect hSelect hSession hGone
    · rw [← List.cons_append] at hNoSelect
      obtain ⟨hRest, hSelect⟩ := hNoSelect.concat
      have hFailsBefore : NoneConnects rest := by
        intro other hMem
        apply hNoneConnects other
        rw [opsOf_append, eventsOf_append]
        exact List.mem_append_left _ hMem
      have hFailsHere : ∀ device, .connected device ∉ eventsOf turn.ops := by
        intro other hMem
        apply hNoneConnects other
        rw [opsOf_append, opsOf_singleton, eventsOf_append]
        exact List.mem_append_right _ hMem
      obtain ⟨hConnects, -, hReconnecting⟩ :=
        hPrevious state₀ rfl before loss rest device rfl hLoses hRest hFailsBefore
      have hStep := attempt_reconnecting hTurn.1 hEffect hSelect hFailsHere hReconnecting
      rw [List.append_assoc] at hStep
      rcases hStep with ⟨hBranch, hOne, hNext⟩ | ⟨hBranch, hNone, hNext⟩
      · have hFirings : firings (rest ++ [⟨.parked state₀, turn, .parked state⟩]) =
            firings rest + 1 := by
          simp [firings, hBranch, isReconnect]
        unfold AfterLoss
        rw [hFirings, opsOf_append, opsOf_singleton, connectsOf_append, hConnects, hOne]
        exact ⟨List.replicate_succ'.symm, hNext.failed_le, hNext⟩
      · have hFirings : firings (rest ++ [⟨.parked state₀, turn, .parked state⟩]) =
            firings rest := by
          have hOther : isReconnect turn.branch = false := by
            cases hKind : turn.branch with
            | reconnect => exact absurd hKind hBranch
            | command | inbound | heartbeat | watchdog | shutdown => rfl
          simp [firings, hOther]
        unfold AfterLoss
        rw [hFirings, opsOf_append, opsOf_singleton, connectsOf_append, hConnects, hNone]
        exact ⟨List.append_nil _, hNext.failed_le, hNext⟩

/-- The run lemma of a `Select`. -/
theorem run_afterSelect (hRun : Run (run config fromStr).turns turns (.parked state)) :
    ∀ before select after device, turns = before ++ select :: after →
      select.label.branch = .command (some (.select device)) → NoSelect after →
        (state.desired = some device ∨ state.desired = none) ∧
          AfterSelect device select after state := by
  refine hRun.traceInvariant
    (I := fun turns c => ∀ state, c = .parked state → ∀ before select after device,
      turns = before ++ select :: after →
        select.label.branch = .command (some (.select device)) → NoSelect after →
          (state.desired = some device ∨ state.desired = none) ∧
            AfterSelect device select after state) ?_ ?_ state rfl
  · intro c hInit state hState before select after device hTurns
    simp at hTurns
  · rintro turns c turn c' hBefore hPrevious ⟨state₀, rfl, hTurn⟩ state rfl before select after
      device hTurns hSelects hNoSelect
    have hInv := (run_invariant hBefore).1
    have hInv' := (run_invariant (hBefore.step ⟨state₀, rfl, hTurn⟩)).1
    have hEffect := run_turnEffect config fromStr hTurn
    rcases cut_cases hTurns with ⟨rfl, -, rfl⟩ | ⟨rest, rfl, rfl⟩
    · simp only at hSelects
      rw [hSelects] at hEffect
      obtain ⟨hNone, hDesired, hFailed⟩ := select_settles hEffect
      refine ⟨hDesired, ⟨by simp [connectsOf], fun _ => hNone, fun hFails => ?_⟩⟩
      obtain ⟨hGivenUp, hError⟩ := hFailed fun other hMem => hFails other (by simpa using hMem)
      exact ⟨hError, rfl, hNone, hGivenUp⟩
    · obtain ⟨hRest, hSelect⟩ := hNoSelect.concat
      obtain ⟨hDesired, hAfter⟩ :=
        hPrevious state₀ rfl before select rest device rfl hSelects hRest
      obtain ⟨hNext, hAttempts⟩ := turn_desires hInv hEffect hSelect
      have hConnects : connectsOf (opsOf (rest ++ [⟨.parked state₀, turn, .parked state⟩])) =
          connectsOf (opsOf rest) ++ connectsOf turn.ops := by
        rw [opsOf_append, opsOf_singleton, connectsOf_append]
      refine ⟨?_, ⟨?_, by simp, fun hFails => ?_⟩⟩
      · rcases hNext with hNext | hNext
        · rw [hNext]
          exact hDesired
        · exact .inr hNext
      · intro other hMem
        rw [hConnects] at hMem
        rcases List.mem_append.mp hMem with hMem | hMem
        · exact hAfter.attempts other hMem
        · have hWanted := hAttempts other hMem
          rcases hDesired with hSome | hNone
          · rw [hSome] at hWanted
            exact (Option.some.inj hWanted).symm
          · rw [hNone] at hWanted
            cases hWanted
      · obtain ⟨hError, hNoConnects, -, hNone⟩ := hAfter.failed hFails
        have hNoneHere : connectsOf turn.ops = [] := by
          refine List.eq_nil_iff_forall_not_mem.mpr fun other hMem => ?_
          have hWanted := hAttempts other hMem
          rw [hNone] at hWanted
          cases hWanted
        have hDesired' : state.desired = none := by
          rcases hNext with hNext | hNext
          · exact hNext.trans hNone
          · exact hNext
        have hNoneThere : connectsOf (opsOf (rest ++ [⟨.parked state₀, turn, .parked state⟩])) = [] := by
          rw [hConnects, hNoConnects, hNoneHere]
          rfl
        exact ⟨hError, hNoneThere, (hInv'.undesired hDesired').2, hDesired'⟩

/-- **The reconnect policy.**  In every run: after a lost session each
passing of a delay is one attempt to the same device, at most as many as the
backoff has delays, the `k`-th of them waiting for the `k`-th delay; once all
have failed the exhaustion is reported once with their number, nothing is
desired and nothing is attempted any more.  A connection announced leaves
nothing scheduled.  After a `Select` only its device is attempted, and if it
failed, nothing is, with exactly one error. -/
theorem reconnect_policy (hRun : Run (run config fromStr).turns turns (.parked state)) :
    (∀ before loss after device, turns = before ++ loss :: after → Loses device loss →
      NoSelect (loss :: after) → NoneConnects after →
        AfterLoss config device loss after state) ∧
    (∀ before last device, turns = before ++ [last] → .connected device ∈ eventsOf last.label.ops →
      state.reconnect = none ∧ state.session.map (·.device) = some device) ∧
    (∀ before select after device, turns = before ++ select :: after →
      select.label.branch = .command (some (.select device)) → NoSelect after →
        AfterSelect device select after state) := by
  refine ⟨run_afterLoss hRun, ?_, fun before select after device hTurns hSelects hNoSelect =>
    (run_afterSelect hRun before select after device hTurns hSelects hNoSelect).2⟩
  rintro before last device rfl hConnected
  generalize hStage : Stage.parked state = c at hRun
  generalize hTrace : before ++ [last] = trace at hRun
  cases hRun with
  | start => simp at hTrace
  | step hBefore hStep =>
      obtain ⟨rfl, hLast⟩ := List.append_inj' hTrace rfl
      obtain rfl := List.singleton_inj.mp hLast
      subst hStage
      obtain ⟨state₀, rfl, hTurn⟩ := hStep
      exact connected_settles (run_turnEffect config fromStr hTurn) hConnected

end Runs

/-! ## A budget of one attempt -/

/-- One attempt, a second after the loss. -/
def oneAttempt : ConnectionConfig :=
  { ConnectionConfig.default with backoff := .withParams 1000 8000 1 }

/-- The receiver cannot be reached at the instant `now`. -/
def unreachable (now : Instant) : Oracle castSig := fun op =>
  match op with
  | .connect _ => .error .workerPanicked
  | op => obliging now op

/-- Select a receiver that then falls silent and is not found again. -/
def vanishedScript : List (Scene castSig Branch) :=
  [ (.command (some (.select livingRoom)), obliging 0)
  , (.watchdog, obliging 10000)
  , (.reconnect, unreachable 11000) ]

/-- The only attempt fails, and the reconnection is given up. -/
theorem vanished_given_up :
    ∃ state select loss retry,
      (run oneAttempt fun _ => none).play (.parked .new) vanishedScript =
        ([select, loss, retry], .parked state) ∧
      AfterLoss oneAttempt livingRoom loss [retry] state ∧
      connectsOf retry.label.ops = [livingRoom] ∧ state.desired = none := by
  obtain ⟨state, select, loss, retry, hPlay, hLoses, hBranches, hEvents, hRetry, hDesired⟩ :
      ∃ state select loss retry,
        (run oneAttempt fun _ => none).play (.parked .new) vanishedScript =
          ([select, loss, retry], .parked state) ∧
        Loses livingRoom loss ∧
        (loss.label.branch = .watchdog ∧ retry.label.branch = .reconnect) ∧
        eventsOf retry.label.ops =
          [.error (.reconnectExhausted livingRoom.name livingRoom.addr 1)] ∧
        connectsOf retry.label.ops = [livingRoom] ∧ state.desired = none :=
    ⟨_, _, _, _, rfl, ⟨_, _, _, rfl, rfl, rfl, rfl, rfl⟩, ⟨rfl, rfl⟩, rfl, rfl, rfl⟩
  have hRun := play_run (.start (run_start _ _))
    (show (run oneAttempt fun _ => none).Admits (.parked .new) vanishedScript from
      ⟨trivial, rfl, rfl, trivial⟩)
  rw [hPlay, List.nil_append] at hRun
  have hNoSelect : NoSelect [loss, retry] := by
    intro turn hMem ⟨device, hSelect⟩
    rcases List.mem_pair.mp hMem with rfl | rfl
    · rw [hBranches.1] at hSelect
      cases hSelect
    · rw [hBranches.2] at hSelect
      cases hSelect
  have hNoneConnects : NoneConnects [retry] := by
    intro device hMem
    rw [opsOf_singleton, hEvents] at hMem
    simp at hMem
  have hAfter :=
    (reconnect_policy hRun).1 [select] loss [retry] livingRoom rfl hLoses hNoSelect hNoneConnects
  exact ⟨state, select, loss, retry, hPlay, hAfter, hRetry, hDesired⟩

end CastApp.Cast.ReconnectPolicy
