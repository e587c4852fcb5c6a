import CastApp.Cast.SessionPhase

/-!
# What becomes of a `LOAD`

A `Load` processed on a live session is written at once, queued behind a
launch, or dropped.  `LoadAccounted` says that the latest one is not dropped;
`KeepsLoad` says which turns do not drop one.

* **`run_loads_accounted_iff`** — every `Load` is accounted for at every
  `select!` of a run exactly when no `Load` is processed while the session is
  launching, unless it repeats the one already queued.
* `load_while_launching_lost` — one that is processed then is gone.
-/

namespace CastApp.Cast.PendingLoad

open CastApp.State
open CastApp.Cast.Journal
open CastApp.Cast.RequestId
open CastApp.Cast.RunEffect
open CastApp.Cast.RunInvariant
open CastApp.Cast.RunLoop
open CastApp.Cast.Session
open CastApp.Cast.SessionEffect
open CastApp.Cast.SessionPhase
open CastApp.Cast.SessionTurn
open CastApp.Util.Json
open CastApp.Verified.Coroutine
open CastApp.Verified.EventLoop
open CastApp.Verified.Transition

/-- `sent` is the `LOAD` of `request`, accepted by the transport. -/
def IsLoadOf (request : LoadRequest) (sent : Sent) : Prop :=
  sent.result = .ok () ∧
    ∃ destination id sessionId,
      sent.message = .toMedia destination (loadMessage id sessionId request)

/-- The `LOAD` of `request` was written in one of `turns`. -/
def Written (request : LoadRequest) (turns : List TurnOf) : Prop :=
  ∃ sent ∈ writesOf (opsOf turns), IsLoadOf request sent

/-- The `LOAD` of `request` is queued behind a launch. -/
def Queued (request : LoadRequest) (session : Session) : Prop :=
  session.phase = .launching ∧ session.pendingCommand = some (.load request)

/-- The turn processes `Command::Load`. -/
def processes (request : LoadRequest) (turn : TurnOf) : Prop :=
  turn.label.branch = .command (some (.load request))

/-- The latest `Load` of the live session is written or queued; earlier ones
are superseded.  Once the session is past launching, it is written. -/
def LoadAccounted (turns : List TurnOf) (state : RunState) : Prop :=
  ∀ session, state.session = some session →
    ∀ before turn after request, sessionTurns turns = before ++ turn :: after →
      processes request turn → (∀ later ∈ after, ∀ request', ¬ processes request' later) →
      (Written request (turn :: after) ∨ Queued request session) ∧
        (session.phase = .ready → Written request (turn :: after))

/-- The turn does not process a `Load` on a launching session, unless the
same one is queued already. -/
def KeepsLoad (turn : TurnOf) : Prop :=
  ∀ state session request, turn.pre = .parked state → state.session = some session →
    processes request turn → session.phase = .launching →
    session.pendingCommand = some (.load request)

/-! ## One turn -/

theorem Written.snoc {request : LoadRequest} {turns : List TurnOf} (turn : TurnOf)
    (h : Written request turns) : Written request (turns ++ [turn]) := by
  obtain ⟨sent, hSent, hLoad⟩ := h
  refine ⟨sent, ?_, hLoad⟩
  rw [opsOf_append, writesOf_append]
  exact List.mem_append_left _ hSent

theorem written_last {request : LoadRequest} (turns : List TurnOf) {turn : TurnOf}
    (h : ∃ sent ∈ writesOf turn.label.ops, IsLoadOf request sent) :
    Written request (turns ++ [turn]) := by
  obtain ⟨sent, hSent, hLoad⟩ := h
  refine ⟨sent, ?_, hLoad⟩
  rw [opsOf_append, opsOf_singleton, writesOf_append]
  exact List.mem_append_right _ hSent

theorem Loads.written {session session' : Session} {request : LoadRequest} {ops : Ops}
    (h : Loads session request ops (.value (.ok (), session'))) :
    ∃ sent ∈ writesOf ops, IsLoadOf request sent := by
  cases h with
  | written id now r p sessionId hSession =>
      exact ⟨_, List.mem_of_mem_getLast? rfl, rfl, _, _, _, rfl⟩

variable {config : ConnectionConfig} {fromStr : String → Option Json}

/-- A `Load` handled by a session that is not launching is written or
queued. -/
theorem Acts.accounts {session session' : Session} {request : LoadRequest} {ops : Ops}
    (h : Acts fromStr session (.command (some (.load request))) ops
      (.value (.ok (), session'))) (hInv : SessionInv session)
    (hKeeps : session.phase = .launching → session.pendingCommand = some (.load request)) :
    (∃ sent ∈ writesOf ops, IsLoadOf request sent) ∨ Queued request session' := by
  cases h with
  | command _ _ h =>
      cases h with
      | ignored h _ hOutcome =>
          cases hOutcome
          cases h with
          | load hConnected hReady hStreaming =>
              have hPhase : session.phase = .launching := by
                rcases hInv.phase with h | h | h | h
                · exact absurd h hConnected
                · exact h
                · exact absurd h hReady
                · exact absurd h hStreaming
              exact .inr ⟨hPhase, hKeeps hPhase⟩
      | asked h hEffect =>
          cases h
          cases hEffect
          exact .inr ⟨rfl, rfl⟩
      | played _ h => cases h
      | loaded h _ hEffect =>
          cases h
          exact .inl (Loads.written hEffect)
      | unreachable _ _ hOutcome => cases hOutcome

/-- A queued `LOAD` stays queued through everything else the session does,
until it is written. -/
theorem Acts.keeps_queued {session session' : Session} {b : Branch} {request : LoadRequest}
    {ops : Ops} (h : Acts fromStr session b ops (.value (.ok (), session')))
    (hInv : SessionInv session) (hQueued : Queued request session)
    (hOther : ∀ request', b ≠ .command (some (.load request'))) :
    (∃ sent ∈ writesOf ops, IsLoadOf request sent) ∨ Queued request session' := by
  obtain ⟨hPhase, hPending⟩ := hQueued
  have hNotLaunched : ¬ Launched session.phase := not_launched_of_launching hPhase
  cases h with
  | command _ _ h =>
      cases h with
      | ignored _ _ hOutcome => cases hOutcome; exact .inr ⟨hPhase, hPending⟩
      | asked h hEffect =>
          cases h with
          | launch hConnected => rw [hPhase] at hConnected; cases hConnected
          | load => exact absurd rfl (hOther _)
          | setVolume => cases hEffect; exact .inr ⟨hPhase, hPending⟩
          | getStatus => cases hEffect; exact .inr ⟨hPhase, hPending⟩
      | played h => exact absurd h hNotLaunched
      | loaded _ h => exact absurd h hNotLaunched
      | unreachable _ _ hOutcome => cases hOutcome
  | routed hRoute _ hQueue =>
      obtain ⟨-, hSame, hMoved⟩ := RouteEffect.phaseInv hRoute hInv.toPhaseInv
      rw [hPending] at hSame
      rcases hMoved with hStill | ⟨-, hReady⟩
      · exact .inr ⟨hStill.trans hPhase, hSame⟩
      · rw [hQueue hReady] at hSame
        cases hSame
  | dispatched hRoute _ _ hQueue h =>
      obtain ⟨-, hSame, -⟩ := RouteEffect.phaseInv hRoute hInv.toPhaseInv
      rw [hQueue, hPending] at hSame
      cases hSame
      obtain ⟨sent, hSent, hLoad⟩ := Loads.written h
      refine .inl ⟨sent, ?_, hLoad⟩
      rw [writesOf_append]
      exact List.mem_append_right _ hSent
  | pinged => exact .inr ⟨hPhase, hPending⟩

/-- Queued or written: past launching it can only be written. -/
theorem accounted_of_or {request : LoadRequest} {turns : List TurnOf} {session : Session}
    (h : Written request turns ∨ Queued request session) :
    (Written request turns ∨ Queued request session) ∧
      (session.phase = .ready → Written request turns) := by
  refine ⟨h, fun hReady => h.resolve_right fun hQueued => ?_⟩
  rw [hQueued.1] at hReady
  cases hReady

/-- The step lemma: a turn that keeps its `Load` keeps all of them accounted
for. -/
theorem LoadAccounted.step {turns : List TurnOf} {turn : TurnOf} {state state' : RunState}
    (hRun : Run (run config fromStr).turns turns (.parked state))
    (hPre : turn.pre = .parked state)
    (hTurn : TurnEffect config fromStr state turn.label.branch turn.label.ops
      (.parked state'))
    (hAccounted : LoadAccounted turns state) (hKeeps : KeepsLoad turn) :
    LoadAccounted (turns ++ [turn]) state' := by
  intro session' hSession' before load after request hSplit hLoad hLatest
  refine accounted_of_or ?_
  cases turnEffect_session (run_invariant hRun).1 hTurn hSession' with
  | opened h _ hOps _ _ _ =>
      have hConnects : connects turn = true := by
        unfold connects
        rw [hOps, List.any_append, List.any_append, Establishes.connects h]
        simp
      rw [sessionTurns_concat_of_connects _ hConnects] at hSplit
      cases before <;> cases hSplit
  | @continued session session₁ ops₁ quiet p hSession h hOps hQuiet hAfter =>
      have hInv := run_sessionInv hRun session hSession
      have hNoConnect : connects turn = false := by
        unfold connects
        rw [hOps, List.any_append, Acts.no_connect h, Quiet.no_connect hQuiet]
        rfl
      have hWrites : writesOf turn.label.ops = writesOf ops₁ := by
        rw [hOps, writesOf_append, quiet_writesOf hQuiet, List.append_nil]
      rw [sessionTurns_concat _ hNoConnect] at hSplit
      rw [hAfter]
      rcases List.eq_nil_or_concat after with rfl | ⟨after, last, rfl⟩
      · -- The turn at hand is the latest `Load`.
        obtain ⟨-, hSame⟩ := List.append_inj' hSplit rfl
        cases hSame
        have hBranch : turn.label.branch = .command (some (.load request)) := hLoad
        rw [hBranch] at h
        rcases Acts.accounts h hInv (hKeeps state session request hPre hSession hLoad) with
          hWritten | hQueued
        · exact .inl (written_last [] (by rwa [hWrites]))
        · exact .inr hQueued
      · -- The latest `Load` is older than this turn.
        rw [List.concat_eq_append] at hSplit hLatest ⊢
        rw [show before ++ load :: (after ++ [last]) = (before ++ load :: after) ++ [last] by
          simp] at hSplit
        obtain ⟨hEarlier, hSame⟩ := List.append_inj' hSplit rfl
        cases hSame
        have hNotLoad : ∀ request', turn.label.branch ≠ .command (some (.load request')) :=
          fun request' => hLatest turn (by simp) request'
        have hBefore := (hAccounted session hSession before load after request hEarlier hLoad
          fun later hLater => hLatest later (by simp [hLater])).1
        rcases hBefore with hWritten | hQueued
        · exact .inl (hWritten.snoc turn)
        · rcases Acts.keeps_queued h hInv hQueued hNotLoad with hWritten | hStill
          · exact .inl (written_last (load :: after) (by rwa [hWrites]))
          · exact .inr hStill

/-! ## Runs -/

/-- A run whose turns all keep their `Load` accounts for every one. -/
theorem run_loads_accounted {turns : List TurnOf} {state : RunState}
    (hRun : Run (run config fromStr).turns turns (.parked state))
    (hKeeps : ∀ turn ∈ turns, KeepsLoad turn) : LoadAccounted turns state := by
  refine hRun.traceInvariant
    (I := fun turns c => ∀ state, c = .parked state →
      (∀ turn ∈ turns, KeepsLoad turn) → LoadAccounted turns state) ?_ ?_ state rfl hKeeps
  · rintro c hInit state rfl - session hSession
    cases run_init config fromStr hInit
    cases hSession
  · rintro turns c turn c' hBefore hPrevious ⟨state₀, rfl, hTurn⟩ state rfl hKeeps
    have hEarlier := hPrevious state₀ rfl fun turn hTurn => hKeeps turn (by simp [hTurn])
    exact LoadAccounted.step hBefore rfl (run_turnEffect config fromStr hTurn) hEarlier
      (hKeeps _ (by simp))

/-- While launching, a `Load` is ignored. -/
theorem Acts.ignores_load {session : Session} {request : LoadRequest} {ops : Ops}
    {o : Outcome castSig Handled}
    (h : Acts fromStr session (.command (some (.load request))) ops o)
    (hPhase : session.phase = .launching) : ops = [] ∧ o = .value (.ok (), session) := by
  have hNotLaunched : ¬ Launched session.phase := not_launched_of_launching hPhase
  cases h with
  | command _ _ h =>
      cases h with
      | ignored _ hOps hOutcome => exact ⟨hOps, hOutcome⟩
      | asked h =>
          cases h with
          | load hConnected => rw [hPhase] at hConnected; cases hConnected
      | played _ h => cases h
      | loaded _ h => exact absurd h hNotLaunched
      | unreachable h =>
          rcases h with h | ⟨device, h⟩ <;> cases h

/-- The turn of a `Load` on a launching session parks with that session and
has written nothing. -/
theorem TurnEffect.ignores_load {state : RunState} {session : Session}
    {request : LoadRequest} {ops : Ops} {c : Stage castSig RunState}
    (h : TurnEffect config fromStr state (.command (some (.load request))) ops c)
    (hSession : state.session = some session) (hPhase : session.phase = .launching) :
    Quiet ops ∧ ∃ state' p, c = .parked state' ∧
      state'.session = some (renumber session session.requestId p) := by
  cases h with
  | parked h hReaped =>
      cases h with
      | idle hNone => rw [hSession] at hNone; cases hNone
      | acted hSome h hRearmed hQuiet =>
          rw [hSession] at hSome
          cases hSome
          obtain ⟨rfl, hOutcome⟩ := Acts.ignores_load h hPhase
          cases hOutcome
          cases hReaped with
          | idle hNone => rw [hRearmed.session] at hNone; cases hNone
          | live hSome now p =>
              rw [hRearmed.session] at hSome
              cases hSome
              exact ⟨Quiet.append hQuiet (quiet_now now), _, p, rfl, rfl⟩
      | failed hSome h =>
          rw [hSession] at hSome
          cases hSome
          cases (Acts.ignores_load h hPhase).2
      | gone _ hGone => cases hGone
  | exited h =>
      cases h with
      | left hLeaves => cases hLeaves
  | faulted h =>
      cases h with
      | faulted h =>
          cases h with
          | leaving hLeaves => cases hLeaves
          | handling hSome h =>
              rw [hSession] at hSome
              cases hSome
              cases (Acts.ignores_load h hPhase).2
          | failing hSome h =>
              rw [hSession] at hSome
              cases hSome
              cases (Acts.ignores_load h hPhase).2
          | losing _ hGone => cases hGone

/-- A `Load` processed while launching, and not already queued, is
unaccounted for at the very next `select!`. -/
theorem load_while_launching_lost {turns : List TurnOf} {turn : TurnOf}
    {state state' : RunState} {session : Session} {request : LoadRequest}
    (hPost : turn.post = .parked state')
    (hTurn : (run config fromStr).TakesTurn state turn.label turn.post)
    (hSession : state.session = some session) (hPhase : session.phase = .launching)
    (hLoad : processes request turn)
    (hQueue : session.pendingCommand ≠ some (.load request)) :
    ¬ LoadAccounted (turns ++ [turn]) state' := by
  have hEffect := run_turnEffect config fromStr hTurn
  rw [show turn.label.branch = .command (some (.load request)) from hLoad] at hEffect
  obtain ⟨hQuiet, _, p, hParked, hSame⟩ := TurnEffect.ignores_load hEffect hSession hPhase
  rw [hPost] at hParked
  cases hParked
  intro hAccounted
  have hConnects : connects turn = false := Quiet.no_connect hQuiet
  have hTurns := sessionTurns_concat turns hConnects
  have hLatest : ∀ later ∈ ([] : List TurnOf), ∀ request', ¬ processes request' later :=
    fun later hLater => absurd hLater List.not_mem_nil
  have hNow := (hAccounted _ hSame (sessionTurns turns) turn [] request hTurns hLoad
    hLatest).1
  rcases hNow with ⟨sent, hSent, -⟩ | ⟨-, hQueued⟩
  · rw [opsOf_singleton, quiet_writesOf hQuiet] at hSent
    cases hSent
  · exact hQueue hQueued

/-- **No `Load` is lost at any `select!` of a run exactly when** none is
processed while its session is launching, unless the same one is already
queued. -/
theorem run_loads_accounted_iff {turns : List TurnOf} {c : Stage castSig RunState}
    (hRun : Run (run config fromStr).turns turns c) :
    (∀ first rest state, turns = first ++ rest →
      Run (run config fromStr).turns first (.parked state) → LoadAccounted first state) ↔
      ∀ turn ∈ turns, KeepsLoad turn := by
  constructor
  · intro hAccounted turn hMem state session request hPre hSession hLoad hPhase
    refine Decidable.of_not_not fun hQueue => ?_
    obtain ⟨first, rest, rfl⟩ := List.append_of_mem hMem
    obtain ⟨hFirst, state₀, hPre₀, hTurn⟩ := hRun.step_run
    rw [hPre] at hPre₀
    cases hPre₀
    have hEffect := run_turnEffect config fromStr hTurn
    rw [show turn.label.branch = .command (some (.load request)) from hLoad] at hEffect
    obtain ⟨-, state', p, hPost, -⟩ := TurnEffect.ignores_load hEffect hSession hPhase
    have hUpTo : Run (run config fromStr).turns (first ++ [turn]) (.parked state') := by
      rw [← hPost]
      exact hFirst.step hRun.step_run.2
    have hParked := hAccounted (first ++ [turn]) rest state' (by simp) hUpTo
    exact load_while_launching_lost hPost hTurn hSession hPhase hLoad hQueue hParked
  · rintro hKeeps first rest state rfl hFirst
    exact run_loads_accounted hFirst fun turn hTurn => hKeeps turn (by simp [hTurn])

/-- A `Load` that starts the launch itself is accounted for. -/
theorem queued_load_accounted :
    ∃ state, ((run .default fun _ => none).play (.parked .new) queuedScript).2 =
        .parked state ∧
      LoadAccounted ((run .default fun _ => none).play (.parked .new) queuedScript).1 state := by
  obtain ⟨state, hState⟩ :
      ∃ state, ((run .default fun _ => none).play (.parked .new) queuedScript).2 =
        .parked state := ⟨_, rfl⟩
  have hRun := play_run (.start (run_start _ _))
    (show (run .default fun _ => none).Admits (.parked .new) queuedScript from
      ⟨trivial, trivial, trivial⟩)
  have hParked := hState ▸ hRun
  refine ⟨state, hState, (run_loads_accounted_iff hRun).mpr ?_ _ [] state
    (List.append_nil _).symm hParked⟩
  intro turn hTurn state session request hPre hSession hLoad hPhase
  change turn ∈ [_, _] at hTurn
  rcases List.mem_cons.mp hTurn with rfl | hTurn
  · cases hLoad
  · obtain rfl := List.mem_singleton.mp hTurn
    cases hPre
    cases hSession
    cases hPhase

/-! ## A lost `Load` -/

/-- A `Load` sent before the launch is answered is neither written nor queued
at the next `select!`. -/
theorem impatient_load_lost :
    ¬ ∀ turns state, Run (run .default fun _ => none).turns turns (.parked state) →
      LoadAccounted turns state := by
  intro hAll
  have hRun := play_run (.start (run_start _ _))
    (show (run .default fun _ => none).Admits (.parked .new) launchScript from
      ⟨trivial, trivial, trivial⟩)
  obtain ⟨state, hState, session, hSession, hPhase, hQueue⟩ :
      ∃ state, ((run .default fun _ => none).play (.parked .new) launchScript).2 =
          .parked state ∧
        ∃ session, state.session = some session ∧ session.phase = .launching ∧
          session.pendingCommand = none :=
    ⟨_, rfl, _, rfl, rfl, rfl⟩
  rw [hState] at hRun
  have hTurn := takesTurn_answerWith (run .default fun _ => none) state
    (.command (some (.load movie))) (obliging 2) trivial
  obtain ⟨-, state', p, hParked, -⟩ :=
    TurnEffect.ignores_load (run_turnEffect _ _ hTurn) hSession hPhase
  have hNext := hRun.step ⟨state, rfl, hTurn⟩
  rw [hParked] at hNext hTurn
  refine absurd (hAll _ _ hNext)
    (load_while_launching_lost rfl hTurn hSession hPhase rfl ?_)
  rw [hQueue]
  exact nofun

end CastApp.Cast.PendingLoad
