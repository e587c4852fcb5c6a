import CastApp.Cast.SessionTurn

/-!
# The phase of a session

A session is `Connected`, `Launching`, `Ready` or `Streaming`; from `Ready` on
it knows both application ids; and between turns a command is queued only
while it is `Launching`.  Whatever the receiver sends, these survive every
command and every payload, so

* **`run_sessionInv`** — they hold at every `select!`, and
* **`run_faults`** — the only panic the task can end in is that of the
  request counter: neither `Ready/Streaming requires app session` nor
  `Select/Shutdown are handled by the run loop` is reachable.
-/

namespace CastApp.Cast.SessionPhase

open CastApp.State
open CastApp.Cast.RequestId
open CastApp.Cast.RunEffect
open CastApp.Cast.RunInvariant
open CastApp.Cast.RunLoop
open CastApp.Cast.Session
open CastApp.Cast.SessionEffect
open CastApp.Cast.SessionTurn
open CastApp.Util.Json
open CastApp.Verified.Coroutine
open CastApp.Verified.EventLoop
open CastApp.Verified.Transition

/-- The application has been launched. -/
def Launched (phase : Phase) : Prop := phase = .ready ∨ phase = .streaming

theorem not_launched_of_launching {phase : Phase} (h : phase = .launching) : ¬ Launched phase := by
  rw [h]
  rintro (h | h) <;> cases h

/-- The part of the invariant that holds at every moment. -/
structure PhaseInv (session : Session) : Prop where
  phase : session.phase = .connected ∨ session.phase = .launching ∨
    Launched session.phase
  ids : Launched session.phase →
    session.transportId.isSome ∧ session.sessionId.isSome

/-- What holds of a live session between two turns. -/
structure SessionInv (session : Session) : Prop extends PhaseInv session where
  queued : session.pendingCommand.isSome → session.phase = .launching

theorem sessionInv_new (device : CastDevice) (transport : Transport)
    (requestTimeout : Duration) : SessionInv (.new device transport requestTimeout) where
  phase := .inl rfl
  ids := by
    rintro (h | h)
    · cases h
    · cases h
  queued := nofun

theorem SessionInv.renumber {session : Session} (h : SessionInv session) (r : RequestId)
    (p : PendingMap) : SessionInv (renumber session r p) :=
  ⟨⟨h.phase, h.ids⟩, h.queued⟩

/-- A launched session has nothing queued. -/
theorem SessionInv.unqueued {session : Session} (h : SessionInv session)
    (hLaunched : Launched session.phase) : session.pendingCommand = none := by
  cases hQueue : session.pendingCommand with
  | none => rfl
  | some pending =>
      have hPhase := h.queued (by simp [hQueue])
      rw [hPhase] at hLaunched
      rcases hLaunched with h | h <;> cases h

/-! ## Inbound payloads -/

theorem PhaseInv.adoptIds {session : Session} (h : PhaseInv session)
    (status : Namespaces.ReceiverStatus) : PhaseInv (session.adoptIds status) := by
  refine ⟨h.phase, fun hLaunched => ?_⟩
  obtain ⟨hTransport, hSession⟩ := h.ids hLaunched
  constructor
  · show (status.transportId.or session.transportId).isSome
    simp [hTransport]
  · show (status.sessionId.or session.sessionId).isSome
    simp [hSession]

theorem PhaseInv.becomeReady {session : Session} (h : PhaseInv session) :
    PhaseInv session.becomeReady.2 := by
  unfold Session.becomeReady
  split
  · split
    · next transportId sessionId hTransport hSession =>
        refine ⟨.inr (.inr (.inl rfl)), fun _ => ?_⟩
        exact ⟨by simp [hTransport], by simp [hSession]⟩
    · exact h
  · exact h

/-- Becoming ready leaves the queue alone; it moves only a launching
session. -/
theorem becomeReady_queue (session : Session) :
    session.becomeReady.2.pendingCommand = session.pendingCommand ∧
      (session.becomeReady.2.phase = session.phase ∨
        session.phase = .launching ∧ session.becomeReady.2.phase = .ready) := by
  unfold Session.becomeReady
  split
  · next hPhase =>
      split
      · exact ⟨rfl, .inr ⟨hPhase, rfl⟩⟩
      · exact ⟨rfl, .inl rfl⟩
  · exact ⟨rfl, .inl rfl⟩

/-- Routing a payload keeps the phase invariant and the queue; the phase can
only move from `Launching` to `Ready`. -/
theorem RouteEffect.phaseInv {fromStr : String → Option Json} {session session' : Session}
    {payload : List Byte} {action : InboundAction}
    (h : RouteEffect fromStr session payload (action, session')) (hInv : PhaseInv session) :
    PhaseInv session' ∧ session'.pendingCommand = session.pendingCommand ∧
      (session'.phase = session.phase ∨
        session.phase = .launching ∧ session'.phase = .ready) := by
  cases h with
  | @status status p hStatus =>
      have hNumbered : PhaseInv (renumber session session.requestId p) := ⟨hInv.phase, hInv.ids⟩
      have hQueue := becomeReady_queue
        ((renumber session session.requestId p).adoptIds status)
      exact ⟨(hNumbered.adoptIds status).becomeReady, hQueue.1, hQueue.2⟩
  | media p => exact ⟨⟨hInv.phase, hInv.ids⟩, rfl, .inl rfl⟩
  | pong => exact ⟨hInv, rfl, .inl rfl⟩
  | ignored p => exact ⟨⟨hInv.phase, hInv.ids⟩, rfl, .inl rfl⟩

/-! ## Commands -/

theorem Requests.sessionInv {session session' : Session} {outgoing : UInt32 → Outgoing}
    {phase : Phase} {ops : Ops} {result : Except IoError Unit}
    (h : Requests session outgoing phase ops (.value (result, session')))
    (hInv : SessionInv { session with phase := phase }) : SessionInv session' := by
  cases h
  exact ⟨⟨hInv.phase, hInv.ids⟩, hInv.queued⟩

theorem Asks.sessionInv {session : Session} {c : Command} {message : UInt32 → Json}
    {phase : Phase} {queued : Option PendingCommand} (h : Asks session c message phase queued)
    (hInv : SessionInv session) :
    SessionInv { session with pendingCommand := queued, phase := phase } := by
  have hLaunching : ∀ queued, SessionInv
      { session with pendingCommand := queued, phase := .launching } := by
    intro queued
    refine ⟨⟨.inr (.inl rfl), ?_⟩, fun _ => rfl⟩
    rintro (h | h) <;> cases h
  cases h with
  | launch => exact hLaunching _
  | load => exact hLaunching _
  | setVolume | getStatus => exact hInv

theorem Plays.launched {phase phase' : Phase} {c : Command} {message : UInt32 → Json}
    (h : Plays phase c message phase') (hPhase : Launched phase) : Launched phase' := by
  cases h with
  | play | pause => exact hPhase
  | stop => exact .inl rfl

theorem Loads.sessionInv {session session' : Session} {request : LoadRequest} {ops : Ops}
    {result : Except IoError Unit}
    (h : Loads session request ops (.value (result, session'))) (hInv : PhaseInv session)
    (hPhase : Launched session.phase) (hQueue : session.pendingCommand = none) :
    SessionInv session' := by
  cases h with
  | refused => exact ⟨hInv, by simp [hQueue]⟩
  | written =>
      refine ⟨⟨.inr (.inr (.inr rfl)), fun _ => hInv.ids hPhase⟩, ?_⟩
      simp [hQueue]

theorem Loads.fault {session : Session} {request : LoadRequest} {ops : Ops} {e : Fault}
    (h : Loads session request ops (.fault e)) (hInv : PhaseInv session)
    (hPhase : Launched session.phase) : e = .requestIdsExhausted := by
  cases h with
  | exhausted => rfl
  | unlaunched now hSession =>
      have hSome := (hInv.ids hPhase).2
      rw [hSession] at hSome
      cases hSome

/-- The step lemma: a session that satisfies the invariant keeps it through
everything it does. -/
theorem Acts.sessionInv {fromStr : String → Option Json} {session session' : Session}
    {b : Branch} {ops : Ops} {result : Except IoError Unit}
    (h : Acts fromStr session b ops (.value (result, session'))) (hInv : SessionInv session) :
    SessionInv session' := by
  cases h with
  | command _ _ h =>
      cases h with
      | ignored _ _ hOutcome => cases hOutcome; exact hInv
      | asked h hEffect =>
          have hAsked := Asks.sessionInv h hInv
          exact Requests.sessionInv hEffect hAsked
      | played hPhase h hEffect =>
          refine Requests.sessionInv hEffect ⟨⟨?_, fun _ => hInv.ids hPhase⟩, ?_⟩
          · exact .inr (.inr (Plays.launched h hPhase))
          · simp [hInv.unqueued hPhase]
      | loaded _ hPhase hEffect =>
          exact Loads.sessionInv hEffect hInv.toPhaseInv hPhase (hInv.unqueued hPhase)
      | unreachable _ _ hOutcome => cases hOutcome
  | routed hRoute hHears hQueue =>
      obtain ⟨hPhase', hPending, hMoved⟩ := RouteEffect.phaseInv hRoute hInv.toPhaseInv
      refine ⟨hPhase', fun hSome => ?_⟩
      rcases hMoved with hSame | ⟨-, hReady⟩
      · rw [hSame]
        exact hInv.queued (hPending ▸ hSome)
      · rw [hQueue hReady] at hSome
        cases hSome
  | dispatched hRoute hHears hPhase hQueue h =>
      obtain ⟨hInv', -, -⟩ := RouteEffect.phaseInv hRoute hInv.toPhaseInv
      exact Loads.sessionInv h ⟨hInv'.phase, hInv'.ids⟩ (.inl hPhase) rfl
  | pinged => exact hInv

/-- A panic of a session is one of its request counter. -/
theorem Acts.fault {fromStr : String → Option Json} {session : Session} {b : Branch}
    {ops : Ops} {e : Fault} (h : Acts fromStr session b ops (.fault e))
    (hInv : SessionInv session) : e = .requestIdsExhausted := by
  cases h with
  | command hShutdown hSelect h =>
      cases h with
      | ignored _ _ hOutcome => cases hOutcome
      | asked _ hEffect => cases hEffect; rfl
      | played _ _ hEffect => cases hEffect; rfl
      | loaded _ hPhase hEffect => exact Loads.fault hEffect hInv.toPhaseInv hPhase
      | unreachable h =>
          rcases h with h | ⟨device, h⟩
          · exact absurd h hShutdown
          · exact absurd h (hSelect device)
  | dispatched hRoute hHears hPhase hQueue h =>
      obtain ⟨hInv', -, -⟩ := RouteEffect.phaseInv hRoute hInv.toPhaseInv
      exact Loads.fault h ⟨hInv'.phase, hInv'.ids⟩ (.inl hPhase)

theorem Teardown.fault {state : RunState} {ops : Ops} {e : Fault}
    (h : Teardown state ops (.fault e)) : e = .requestIdsExhausted := by
  cases h with
  | faulted hSession hGoodbye => cases hGoodbye <;> rfl

theorem Lost.fault {config : ConnectionConfig} {state : RunState} {ops : Ops} {e : Fault}
    (h : Lost config state ops (.fault e)) : e = .requestIdsExhausted := by
  cases h with
  | faulted h => exact Teardown.fault h

/-! ## Runs -/

variable {config : ConnectionConfig} {fromStr : String → Option Json}
variable {turns : List (Move (Stage castSig RunState) (Turn castSig Branch))}

theorem run_sessionInv {state : RunState}
    (hRun : Run (run config fromStr).turns turns (.parked state)) :
    ∀ session, state.session = some session → SessionInv session :=
  session_invariant (fun device transport => sessionInv_new device transport _)
    (fun _ r p h => h.renumber r p) (fun _ _ _ _ h hActs => Acts.sessionInv hActs h) hRun

/-- A turn from a sound session panics for lack of request ids only. -/
theorem TurnEffect.fault {state : RunState} {b : Branch} {ops : Ops} {e : Fault}
    (h : TurnEffect config fromStr state b ops (.faulted e))
    (hInv : ∀ session, state.session = some session → SessionInv session) :
    e = .requestIdsExhausted := by
  cases h with
  | faulted h =>
      cases h with
      | faulted h =>
          cases h with
          | leaving _ h => exact Teardown.fault h
          | selecting h => exact Teardown.fault h
          | handling hSession h => exact Acts.fault h (hInv _ hSession)
          | failing _ _ _ hLost => exact Lost.fault hLost
          | losing _ _ h => exact Lost.fault h

theorem run_faults {e : Fault} (hRun : Run (run config fromStr).turns turns (.faulted e)) :
    e = .requestIdsExhausted := by
  refine hRun.traceInvariant
    (I := fun _ c => ∀ e, c = .faulted e → e = .requestIdsExhausted) ?_ ?_ e rfl
  · rintro c hInit e rfl
    cases run_init config fromStr hInit
  · rintro turns c turn c' hBefore - ⟨state, rfl, hTurn⟩ e rfl
    exact TurnEffect.fault (run_turnEffect config fromStr hTurn) (run_sessionInv hBefore)

/-- **Whatever is commanded and received**, a live session at the `select!`
is in one of four phases, knows both application ids once launched and has a
queued command only while launching; and no run of the task ends in a panic
of the session's own assumptions. -/
theorem run_session_sound {c : Stage castSig RunState}
    (hRun : Run (run config fromStr).turns turns c) :
    (∀ state session, c = .parked state → state.session = some session →
      (session.phase = .connected ∨ session.phase = .launching ∨
        session.phase = .ready ∨ session.phase = .streaming) ∧
      (session.phase = .ready ∨ session.phase = .streaming →
        session.transportId.isSome ∧ session.sessionId.isSome) ∧
      (session.pendingCommand.isSome → session.phase = .launching)) ∧
      c ≠ .faulted .appSessionExpected ∧ c ≠ .faulted .commandUnreachable := by
  refine ⟨?_, ?_, ?_⟩
  · rintro state session rfl hSession
    have hInv := run_sessionInv hRun session hSession
    exact ⟨hInv.phase, hInv.ids, hInv.queued⟩
  · rintro rfl
    cases run_faults hRun
  · rintro rfl
    cases run_faults hRun

/-- Select a receiver and launch its application. -/
def launchScript : List (Scene castSig Branch) :=
  [ (.command (some (.select livingRoom)), obliging 0)
  , (.command (some .launchDefaultReceiver), obliging 1) ]

/-- Select a receiver and ask it to play: the launch is sent, the `LOAD`
queued. -/
def queuedScript : List (Scene castSig Branch) :=
  [ (.command (some (.select livingRoom)), obliging 0)
  , (.command (some (.load movie)), obliging 1) ]

/-- A `LOAD` is queued, so the session is launching. -/
theorem queuedScript_launching :
    ∃ state session, ((run .default fun _ => none).play (.parked .new) queuedScript).2 =
        .parked state ∧ state.session = some session ∧ session.pendingCommand.isSome ∧
      session.phase = .launching := by
  obtain ⟨state, hState, session, hSession, hQueue⟩ :
      ∃ state, ((run .default fun _ => none).play (.parked .new) queuedScript).2 =
          .parked state ∧
        ∃ session, state.session = some session ∧ session.pendingCommand.isSome :=
    ⟨_, rfl, _, rfl, rfl⟩
  have hRun := play_run (.start (run_start _ _))
    (show (run .default fun _ => none).Admits (.parked .new) queuedScript from
      ⟨trivial, trivial, trivial⟩)
  have hSound := (run_session_sound hRun).1 state session hState hSession
  exact ⟨state, session, hState, hSession, hQueue, hSound.2.2 hQueue⟩

end CastApp.Cast.SessionPhase
