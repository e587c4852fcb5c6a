import CastApp.Cast.Journal

/-!
# The loop state between two turns

Six optional fields describe the connection, and only some combinations of
them make sense.  `RunInv` says which; `Alternating` says which sequences of
`Connected` and `Disconnected` events make sense.  Both hold at every
`select!` of every run:

* **`run_invariant`** — the invariant, and the events so far alternate and
  end in the state the session field shows.
-/

namespace CastApp.Cast.RunInvariant

open CastApp.State
open CastApp.Cast.Journal
open CastApp.Cast.RunEffect
open CastApp.Cast.RunLoop
open CastApp.Cast.Session
open CastApp.Cast.SessionEffect
open CastApp.Util.Json
open CastApp.Verified.Coroutine
open CastApp.Verified.EventLoop
open CastApp.Verified.Transition

/-- Which loop states make sense at the `select!`. -/
structure RunInv (state : RunState) : Prop where
  inbound : state.inbound.isSome = state.session.isSome
  heartbeat : state.heartbeat.isSome = state.session.isSome
  watchdog : state.watchdog.isSome = state.session.isSome
  /-- A session and a scheduled reconnect exclude each other. -/
  single : state.session = none ∨ state.reconnect = none
  sessionDesired : ∀ session, state.session = some session →
    state.desired = some session.device
  reconnectDesired : ∀ attempt, state.reconnect = some attempt →
    state.desired = some attempt.device

theorem runInv_new : RunInv .new :=
  ⟨rfl, rfl, rfl, .inl rfl, nofun, nofun⟩

/-- Without a desired device there is neither a session nor a reconnect. -/
theorem RunInv.undesired {state : RunState} (h : RunInv state)
    (hDesired : state.desired = none) :
    state.session = none ∧ state.reconnect = none := by
  constructor
  · cases hSession : state.session with
    | none => rfl
    | some session => exact absurd (h.sessionDesired session hSession) (by simp [hDesired])
  · cases hReconnect : state.reconnect with
    | none => rfl
    | some attempt => exact absurd (h.reconnectDesired attempt hReconnect) (by simp [hDesired])

/-- A state with no session and nothing that belongs to one. -/
structure Detached (state : RunState) : Prop where
  session : state.session = none
  inbound : state.inbound = none
  heartbeat : state.heartbeat = none
  watchdog : state.watchdog = none

/-- A detached state needs only a desired device behind its reconnect. -/
theorem Detached.runInv {state : RunState} (h : Detached state)
    (hReconnect : ∀ attempt, state.reconnect = some attempt →
      state.desired = some attempt.device) : RunInv state where
  inbound := by rw [h.inbound, h.session]; rfl
  heartbeat := by rw [h.heartbeat, h.session]; rfl
  watchdog := by rw [h.watchdog, h.session]; rfl
  single := .inl h.session
  sessionDesired := by
    intro session hSession
    rw [h.session] at hSession
    cases hSession
  reconnectDesired := hReconnect

theorem RunInv.detached {state : RunState} (h : RunInv state)
    (hSession : state.session = none) : Detached state where
  session := hSession
  inbound := by simpa [hSession] using h.inbound
  heartbeat := by simpa [hSession] using h.heartbeat
  watchdog := by simpa [hSession] using h.watchdog

/-! ## Steps of the invariant -/

/-- What a teardown leaves behind. -/
structure TornFrom (state state' : RunState) : Prop where
  detached : Detached state'
  desired : state'.desired = state.desired
  reconnect : state'.reconnect = state.reconnect

theorem Teardown.tornFrom {state state' : RunState} {ops : Ops}
    (h : Teardown state ops (.value state'))
    (hIdle : state.session = none → Detached state) : TornFrom state state' := by
  cases h with
  | idle hSession => exact ⟨hIdle hSession, rfl, rfl⟩
  | ended => exact ⟨⟨rfl, rfl, rfl, rfl⟩, rfl, rfl⟩

/-- The same with other plans for the next attempt. -/
theorem Detached.left {state state' : RunState} (h : Detached state)
    (hSession : state'.session = state.session) (hInbound : state'.inbound = state.inbound)
    (hHeartbeat : state'.heartbeat = state.heartbeat)
    (hWatchdog : state'.watchdog = state.watchdog)
    (hReconnect : ∀ attempt, state'.reconnect = some attempt →
      state'.desired = some attempt.device) : RunInv state' ∧ Detached state' := by
  have hDetached : Detached state' :=
    ⟨hSession.trans h.session, hInbound.trans h.inbound, hHeartbeat.trans h.heartbeat,
      hWatchdog.trans h.watchdog⟩
  exact ⟨hDetached.runInv hReconnect, hDetached⟩

/-- Losing a live session leaves a detached state, with the next attempt
going to the desired device. -/
theorem Lost.runInv {config : ConnectionConfig} {state state' : RunState} {ops : Ops}
    (h : Lost config state ops (.value state')) (hSession : state.session ≠ none)
    (hReconnect : state.reconnect = none) : RunInv state' ∧ Detached state' := by
  cases h with
  | undesired h hDesired =>
      have hTorn := Teardown.tornFrom h fun hNone => absurd hNone hSession
      refine ⟨hTorn.detached.runInv ?_, hTorn.detached⟩
      intro attempt hAttempt
      rw [hTorn.reconnect, hReconnect] at hAttempt
      cases hAttempt
  | retry h hDesired =>
      have hTorn := Teardown.tornFrom h fun hNone => absurd hNone hSession
      refine hTorn.detached.left rfl rfl rfl rfl ?_
      intro attempt hAttempt
      cases hAttempt
      exact hDesired
  | exhausted h =>
      have hTorn := Teardown.tornFrom h fun hNone => absurd hNone hSession
      refine hTorn.detached.left rfl rfl rfl rfl ?_
      intro attempt hAttempt
      rw [hTorn.reconnect, hReconnect] at hAttempt
      cases hAttempt

/-- A failed attempt to connect changes nothing. -/
theorem Establishes.error_eq {config : ConnectionConfig} {state state' : RunState}
    {device : CastDevice} {ops : Ops} {error : ConnectionError}
    (h : Establishes config state device ops (.value (.error error, state'))) :
    state' = state := by
  cases h <;> rfl

/-- A successful one fills a detached state that desires the device. -/
theorem Establishes.runInv {config : ConnectionConfig} {state state' : RunState}
    {device : CastDevice} {ops : Ops}
    (h : Establishes config state device ops (.value (.ok (), state')))
    (hDesired : state.desired = some device) (hReconnect : state.reconnect = none) :
    RunInv state' ∧ state'.session.map (·.device) = some device := by
  cases h with
  | opened transport pin channel heartbeat watchdog =>
      refine ⟨⟨rfl, rfl, rfl, .inr hReconnect, ?_, ?_⟩, rfl⟩
      · intro session hSession
        cases hSession
        exact hDesired
      · intro attempt hAttempt
        have : (none : Option Reconnect) = some attempt := hReconnect.symm.trans hAttempt
        cases this

theorem Requests.device {session session' : Session} {outgoing : UInt32 → Outgoing}
    {phase : Phase} {ops : Ops} {result : Except IoError Unit}
    (h : Requests session outgoing phase ops (.value (result, session'))) :
    session'.device = session.device ∧ session'.transport = session.transport := by
  cases h
  exact ⟨rfl, rfl⟩

theorem Loads.device {session session' : Session} {request : LoadRequest} {ops : Ops}
    {result : Except IoError Unit}
    (h : Loads session request ops (.value (result, session'))) :
    session'.device = session.device ∧ session'.transport = session.transport := by
  cases h <;> exact ⟨rfl, rfl⟩

theorem becomeReady_device (session : Session) :
    session.becomeReady.2.device = session.device ∧
      session.becomeReady.2.transport = session.transport := by
  unfold Session.becomeReady
  split
  · split <;> exact ⟨rfl, rfl⟩
  · exact ⟨rfl, rfl⟩

theorem RouteEffect.device {fromStr : String → Option Json} {session session' : Session}
    {payload : List Byte} {action : InboundAction}
    (h : RouteEffect fromStr session payload (action, session')) :
    session'.device = session.device ∧ session'.transport = session.transport := by
  cases h with
  | status p => exact becomeReady_device _
  | media | pong | ignored => exact ⟨rfl, rfl⟩

/-- A session keeps its device and its transport for life. -/
theorem Acts.device {fromStr : String → Option Json} {session session' : Session}
    {b : Branch} {ops : Ops} {result : Except IoError Unit}
    (h : Acts fromStr session b ops (.value (result, session'))) :
    session'.device = session.device ∧ session'.transport = session.transport := by
  cases h with
  | command _ _ h =>
      cases h with
      | ignored _ _ hOutcome => cases hOutcome; exact ⟨rfl, rfl⟩
      | asked _ hEffect =>
          have hSame := Requests.device hEffect
          exact hSame
      | played _ _ hEffect => exact Requests.device hEffect
      | loaded _ _ hEffect => exact Loads.device hEffect
      | unreachable _ _ hOutcome => cases hOutcome
  | routed hRoute => exact RouteEffect.device hRoute
  | dispatched hRoute _ _ _ h =>
      have hLoad := Loads.device h
      have hInbound := RouteEffect.device hRoute
      exact ⟨hLoad.1.trans hInbound.1, hLoad.2.trans hInbound.2⟩
  | pinged => exact ⟨rfl, rfl⟩

/-- A handled turn keeps the invariant. -/
theorem Rearmed.runInv {state state' : RunState} {session session' : Session}
    (h : Rearmed state session' state') (hInv : RunInv state)
    (hSession : state.session = some session) (hDevice : session'.device = session.device) :
    RunInv state' where
  inbound := by rw [h.inbound, hInv.inbound, hSession, h.session]; rfl
  heartbeat := by rw [h.heartbeat, hInv.heartbeat, hSession, h.session]; rfl
  watchdog := by rw [h.watchdog, hInv.watchdog, hSession, h.session]; rfl
  single := by
    rw [h.reconnect]
    exact .inr (hInv.single.resolve_left (by simp [hSession]))
  sessionDesired := by
    intro session'' hSession''
    rw [h.session] at hSession''
    cases hSession''
    rw [h.desired, hDevice]
    exact hInv.sessionDesired session hSession
  reconnectDesired := by
    intro attempt hAttempt
    rw [h.desired]
    exact hInv.reconnectDesired attempt (h.reconnect ▸ hAttempt)

theorem Reaped.runInv {state state' : RunState} {ops : Ops} (h : Reaped state ops state')
    (hInv : RunInv state) : RunInv state' := by
  cases h with
  | idle => exact hInv
  | @live session hSession now p =>
      refine ⟨?_, ?_, ?_, .inr (hInv.single.resolve_left (by simp [hSession])), ?_,
        hInv.reconnectDesired⟩
      · simpa [hSession] using hInv.inbound
      · simpa [hSession] using hInv.heartbeat
      · simpa [hSession] using hInv.watchdog
      · intro session' hSome
        cases hSome
        exact hInv.sessionDesired session hSession

/-! ## Events -/

/-- `Connected` and `Disconnected` events that alternate, starting with
`Connected`, each `Disconnected` naming the device of the `Connected` before
it; the index is the device left connected. -/
inductive Alternating : List ConnectionEvent → Option CastDevice → Prop
  | start : Alternating [] none
  | connected {events : List ConnectionEvent} {device : CastDevice}
      (h : Alternating events none) :
      Alternating (events ++ [.connected device]) (some device)
  | disconnected {events : List ConnectionEvent} {device : CastDevice}
      (h : Alternating events (some device)) :
      Alternating (events ++ [.disconnected device]) none

/-- The device of the live session. -/
def linked (state : RunState) : Option CastDevice := state.session.map (·.device)

theorem Alternating.farewell {events : List ConnectionEvent} {state : RunState}
    (h : Alternating events (linked state)) :
    Alternating (events ++ farewell state.session) none := by
  unfold linked at h
  cases hSession : state.session with
  | none =>
      rw [hSession] at h
      simpa [Journal.farewell] using h
  | some session =>
      rw [hSession] at h
      exact .disconnected h

/-- A connection opened from a state without one is announced. -/
theorem Establishes.alternating {config : ConnectionConfig} {state state' : RunState}
    {device : CastDevice} {ops : Ops} {events : List ConnectionEvent}
    (h : Establishes config state device ops (.value (.ok (), state')))
    (hEvents : Alternating events none) :
    Alternating (events ++ lifecycleOf ops) (linked state') := by
  rw [Establishes.lifecycleOf_eq h]
  cases h
  exact .connected hEvents

theorem Rearmed.linked_eq {state state' : RunState} {session session' : Session}
    (h : Rearmed state session' state') (hSession : state.session = some session)
    (hDevice : session'.device = session.device) : linked state' = linked state := by
  unfold linked
  rw [h.session, hSession]
  exact congrArg some hDevice

/-- What survives a turn that parks again: the invariant, and events that
still alternate. -/
structure Kept (events : List ConnectionEvent) (ops : Ops) (state : RunState) : Prop where
  invariant : RunInv state
  alternating : Alternating (events ++ lifecycleOf ops) (linked state)

variable {config : ConnectionConfig} {fromStr : String → Option Json}

theorem Lost.kept {state state' : RunState} {ops : Ops} {events : List ConnectionEvent}
    (h : Lost config state ops (.value state')) (hInv : RunInv state)
    (hSession : state.session ≠ none) (hEvents : Alternating events (linked state)) :
    Kept events ops state' := by
  obtain ⟨hInv', hDetached⟩ := Lost.runInv h hSession (hInv.single.resolve_left hSession)
  refine ⟨hInv', ?_⟩
  rw [Lost.lifecycleOf_eq h, linked, hDetached.session]
  exact hEvents.farewell

/-- The step lemma: one branch. -/
theorem BranchEffect.kept {state state' : RunState} {b : Branch} {ops : Ops}
    {events : List ConnectionEvent}
    (h : BranchEffect config fromStr state b ops (.value (.park state')))
    (hInv : RunInv state) (hEvents : Alternating events (linked state)) :
    Kept events ops state' := by
  cases h with
  | idle hSession h =>
      have hDetached := hInv.detached hSession
      have hLinked : linked state = none := by rw [linked, hSession]; rfl
      rw [hLinked] at hEvents
      have hStill : Alternating (events ++ lifecycleOf []) none := by simpa using hEvents
      have hNone : Detached state' ∧ state'.reconnect = state.reconnect ∧
          state'.desired = state.desired := by
        cases h with
        | command | inbound | reconnect => exact ⟨hDetached, rfl, rfl⟩
        | reader =>
            exact ⟨⟨hSession, rfl, hDetached.heartbeat, hDetached.watchdog⟩, rfl, rfl⟩
        | heartbeat =>
            exact ⟨⟨hSession, hDetached.inbound, rfl, hDetached.watchdog⟩, rfl, rfl⟩
        | watchdog =>
            exact ⟨⟨hSession, hDetached.inbound, hDetached.heartbeat, rfl⟩, rfl, rfl⟩
      obtain ⟨hDetached', hReconnect, hDesired⟩ := hNone
      refine ⟨hDetached'.runInv ?_, ?_⟩
      · rw [hReconnect, hDesired]
        exact hInv.reconnectDesired
      · rw [linked, hDetached'.session]
        exact hStill
  | acted hSession h hRearmed hQuiet =>
      have hDevice := (Acts.device h).1
      refine ⟨Rearmed.runInv hRearmed hInv hSession hDevice, ?_⟩
      rw [lifecycleOf_append, Acts.lifecycleOf_eq h, Rearmed.linked_eq hRearmed hSession hDevice,
        lifecycleOf, quiet_eventsOf hQuiet]
      simpa using hEvents
  | failed hSession h hRearmed hLost =>
      have hDevice := (Acts.device h).1
      have hInv' := Rearmed.runInv hRearmed hInv hSession hDevice
      rw [← Rearmed.linked_eq hRearmed hSession hDevice] at hEvents
      have hKept := Lost.kept hLost hInv' (by simp [hRearmed.session]) hEvents
      refine ⟨hKept.invariant, ?_⟩
      rw [lifecycleOf_append, Acts.lifecycleOf_eq h]
      exact hKept.alternating
  | gone hSession hGone hLost => exact Lost.kept hLost hInv (by simp [hSession]) hEvents
  | selected h hEstablishes =>
      refine ⟨(Establishes.runInv hEstablishes rfl rfl).1, ?_⟩
      rw [lifecycleOf_append, Teardown.lifecycleOf_eq h, ← List.append_assoc]
      exact Establishes.alternating hEstablishes hEvents.farewell
  | selectFailed h hEstablishes =>
      obtain rfl := Establishes.error_eq hEstablishes
      have hDetached := (Teardown.tornFrom h hInv.detached).detached
      refine ⟨Detached.runInv ⟨hDetached.session, hDetached.inbound, hDetached.heartbeat,
        hDetached.watchdog⟩ ?_, ?_⟩
      · intro attempt hAttempt
        cases hAttempt
      · rw [lifecycleOf_append, lifecycleOf_append, Teardown.lifecycleOf_eq h,
          Establishes.lifecycleOf_eq hEstablishes, linked, hDetached.session]
        simpa [eventOf, isLifecycle, announcement] using hEvents.farewell
  | reconnected hReconnect h =>
      have hSession := hInv.single.resolve_right (by simp [hReconnect])
      have hLinked : linked state = none := by rw [linked, hSession]; rfl
      rw [hLinked] at hEvents
      exact ⟨(Establishes.runInv h (hInv.reconnectDesired _ hReconnect) rfl).1,
        Establishes.alternating h hEvents⟩
  | retried hReconnect h hBackoff now =>
      obtain rfl := Establishes.error_eq h
      have hSession := hInv.single.resolve_right (by simp [hReconnect])
      have hDetached := hInv.detached hSession
      have hDesired := hInv.reconnectDesired _ hReconnect
      refine ⟨Detached.runInv ⟨hDetached.session, hDetached.inbound, hDetached.heartbeat,
        hDetached.watchdog⟩ ?_, ?_⟩
      · intro attempt hAttempt
        cases hAttempt
        exact hDesired
      · have hLinked : linked state = none := by rw [linked, hSession]; rfl
        rw [lifecycleOf_append, Establishes.lifecycleOf_eq h, linked, hSession]
        simpa [eventOf, announcement, hLinked] using hEvents
  | abandoned hReconnect h hBackoff =>
      obtain rfl := Establishes.error_eq h
      have hSession := hInv.single.resolve_right (by simp [hReconnect])
      have hDetached := hInv.detached hSession
      refine ⟨Detached.runInv ⟨hDetached.session, hDetached.inbound, hDetached.heartbeat,
        hDetached.watchdog⟩ ?_, ?_⟩
      · intro attempt hAttempt
        cases hAttempt
      · have hLinked : linked state = none := by rw [linked, hSession]; rfl
        rw [lifecycleOf_append, Establishes.lifecycleOf_eq h, linked, hSession]
        simpa [eventOf, isLifecycle, announcement, hLinked] using hEvents

theorem Reaped.kept {state state' : RunState} {events : List ConnectionEvent} {ops ops' : Ops}
    (h : Reaped state ops' state') (hKept : Kept events ops state) :
    Kept events (ops ++ ops') state' := by
  refine ⟨Reaped.runInv h hKept.invariant, ?_⟩
  have hEvents := hKept.alternating
  cases h with
  | idle => simpa using hEvents
  | live hSession now p =>
      rw [linked, hSession] at hEvents
      simpa [eventOf, linked] using hEvents

theorem TurnEffect.kept {state state' : RunState} {b : Branch} {ops : Ops}
    {events : List ConnectionEvent}
    (h : TurnEffect config fromStr state b ops (.parked state')) (hInv : RunInv state)
    (hEvents : Alternating events (linked state)) : Kept events ops state' := by
  cases h with
  | parked h hReaped => exact Reaped.kept hReaped (BranchEffect.kept h hInv hEvents)

/-- **At every `select!`**, whatever was commanded, received, timed out or
failed before it, the loop state satisfies `RunInv`, and the connection
events emitted so far alternate and leave connected exactly the device of the
live session. -/
theorem run_invariant {turns : List (Move (Stage castSig RunState) (Turn castSig Branch))}
    {state : RunState} (hRun : Run (run config fromStr).turns turns (.parked state)) :
    RunInv state ∧ (state.desired = none → state.session = none ∧ state.reconnect = none) ∧
      Alternating (lifecycleOf (opsOf turns)) (state.session.map (·.device)) := by
  have hKept : RunInv state ∧ Alternating (lifecycleOf (opsOf turns)) (linked state) := by
    refine hRun.traceInvariant
      (I := fun turns c => ∀ state, c = .parked state →
        RunInv state ∧ Alternating (lifecycleOf (opsOf turns)) (linked state)) ?_ ?_ state rfl
    · rintro c hInit state rfl
      cases run_init config fromStr hInit
      exact ⟨runInv_new, .start⟩
    · rintro turns c turn c' - hPrevious ⟨state₀, rfl, hTurn⟩ state rfl
      obtain ⟨hInv, hEvents⟩ := hPrevious state₀ rfl
      have hKept := TurnEffect.kept (run_turnEffect config fromStr hTurn) hInv hEvents
      refine ⟨hKept.invariant, ?_⟩
      rw [opsOf_append, opsOf_singleton, lifecycleOf_append]
      exact hKept.alternating
  exact ⟨hKept.1, hKept.1.undesired, hKept.2⟩

/-- Select a receiver that then falls silent. -/
def silentScript : List (Scene castSig Branch) :=
  [ (.command (some (.select livingRoom)), obliging 0)
  , (.watchdog, obliging 10000) ]

/-- The connection is lost and a reconnect scheduled. -/
theorem silentScript_alternating :
    ∃ state, ((run .default fun _ => none).play (.parked .new) silentScript).2 =
        .parked state ∧ state.reconnect.isSome ∧ RunInv state ∧
      Alternating (lifecycleOf (opsOf
        ((run .default fun _ => none).play (.parked .new) silentScript).1)) none := by
  obtain ⟨state, hState, hReconnect, hSession⟩ :
      ∃ state, ((run .default fun _ => none).play (.parked .new) silentScript).2 =
          .parked state ∧ state.reconnect.isSome ∧ state.session = none :=
    ⟨_, rfl, rfl, rfl⟩
  have hRun := play_run (.start (run_start _ _))
    (show (run .default fun _ => none).Admits (.parked .new) silentScript from
      ⟨trivial, rfl, trivial⟩)
  rw [hState] at hRun
  obtain ⟨hInv, -, hEvents⟩ := run_invariant hRun
  rw [hSession] at hEvents
  exact ⟨state, hState, hReconnect, hInv, hEvents⟩

end CastApp.Cast.RunInvariant
