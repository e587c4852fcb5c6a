import CastApp.Cast.RunInvariant

/-!
# Ways out of the connection task

The task returns on `Command::Shutdown`, on the shutdown token, and when all
command senders are gone.  The first two tear a live session down; the third
leaves the loop at once.

* `TornDown` — the operations by which a session is ended.
* `leaving_turn` — a turn that leaves the loop tears down the live session,
  or was the end of the command channel.
* **`exit_torn_down_iff`** — in every run that returns, the session live at
  the exit is torn down and every `Connected` has its `Disconnected`, exactly
  when it was not the end of the command channel that a live session met.
* `senders_gone_leave_session` — a run where it was.
-/

namespace CastApp.Cast.TaskExit

open CastApp.State
open CastApp.Cast.Journal
open CastApp.Cast.Namespaces
open CastApp.Cast.RunEffect
open CastApp.Cast.RunInvariant
open CastApp.Cast.RunLoop
open CastApp.Cast.Session
open CastApp.Cast.SessionEffect
open CastApp.Util.Json
open CastApp.Verified.Coroutine
open CastApp.Verified.EventLoop
open CastApp.Verified.Transition

/-! ## A session brought to its end -/

/-- What is written before a session's transport is closed: nothing without
an application session, else `STOP_APP`, after a media `STOP` while
streaming. -/
inductive FarewellMessages (session : Session) : List Outgoing → Prop
  | silent (hSession : session.sessionId = none) : FarewellMessages session []
  | application {sessionId : String} (hSession : session.sessionId = some sessionId)
      (hPhase : session.phase ≠ .streaming) (id : UInt32) :
      FarewellMessages session [.toReceiver (stopApp id sessionId)]
  | streaming {sessionId : String} (hSession : session.sessionId = some sessionId)
      (hPhase : session.phase = .streaming) (id id' : UInt32) :
      FarewellMessages session
        [.toMedia session.mediaDestination (stop id), .toReceiver (stopApp id' sessionId)]

/-- The farewell is attempted on the session's transport, the transport is
closed, and the end is announced. -/
def TornDown (session : Session) (ops : Ops) : Prop :=
  ∃ goodbye messages, FarewellMessages session messages ∧
    (writesOf goodbye).map (fun sent => (sent.transport, sent.message)) =
      messages.map (fun message => (session.transport, message)) ∧
    ops = goodbye ++
      [⟨.close session.transport, ()⟩, ⟨.emit (.disconnected session.device), ()⟩]

theorem Goodbye.messages {session session' : Session} {ops : Ops}
    (h : Goodbye session ops (.value session')) :
    ∃ messages, FarewellMessages session messages ∧
      (writesOf ops).map (fun sent => (sent.transport, sent.message)) =
        messages.map (fun message => (session.transport, message)) := by
  cases h with
  | silent hSession => exact ⟨_, .silent hSession, rfl⟩
  | application hSession hPhase id now r p result =>
      exact ⟨_, .application hSession hPhase id, rfl⟩
  | both hSession hPhase id id' now now' r p result result' =>
      exact ⟨_, .streaming hSession hPhase id id', rfl⟩

theorem Teardown.tornDown {state state' : RunState} {ops : Ops} {session : Session}
    (h : Teardown state ops (.value state')) (hSession : state.session = some session) :
    TornDown session ops := by
  cases h with
  | idle hNone =>
      rw [hSession] at hNone
      cases hNone
  | @ended session₁ session' ops hLive hGoodbye =>
      rw [hSession] at hLive
      cases hLive
      obtain ⟨messages, hMessages, hWrites⟩ := Goodbye.messages hGoodbye
      exact ⟨ops, messages, hMessages, hWrites, rfl⟩

/-! ## The last turn -/

/-- A session is live at the `select!`. -/
def LiveAt (c : Stage castSig RunState) (session : Session) : Prop :=
  ∃ state, c = .parked state ∧ state.session = some session

variable {config : ConnectionConfig} {fromStr : String → Option Json}

/-- A turn that leaves the loop either tears down what is live, or finds the
command channel closed and does nothing. -/
theorem leaving_turn {state state' : RunState} {b : Branch} {ops : Ops}
    (h : TurnEffect config fromStr state b ops (.exited state')) :
    (b = .command none ∧ ops = []) ∨
      (b ≠ .command none ∧ Teardown state ops (.value state')) := by
  cases h with
  | exited h =>
      cases h with
      | closed => exact .inl ⟨rfl, rfl⟩
      | left hLeaves h =>
          refine .inr ⟨?_, h⟩
          cases hLeaves with
          | command => simp
          | token => simp

/-- Nothing is torn down by a turn that does nothing. -/
theorem not_tornDown_nil (session : Session) : ¬ TornDown session [] := by
  rintro ⟨goodbye, messages, -, -, hOps⟩
  simp at hOps

/-- **Every way out of the connection task.**  A run that returns ends with
one turn; the session live before it is torn down in it, and all connection
events are matched, exactly unless the command channel ended under a live
session. -/
theorem exit_torn_down_iff {turns : List (Move (Stage castSig RunState) (Turn castSig Branch))}
    {state' : RunState} (hRun : Run (run config fromStr).turns turns (.exited state')) :
    ∃ before last, turns = before ++ [last] ∧
      (((∀ session, LiveAt last.pre session → TornDown session last.label.ops) ∧
          Alternating (lifecycleOf (opsOf turns)) none) ↔
        ¬ (last.label.branch = .command none ∧ ∃ session, LiveAt last.pre session)) := by
  generalize hExit : Stage.exited state' = c at hRun
  cases hRun with
  | start hInit =>
      rw [run_init config fromStr hInit] at hExit
      cases hExit
  | @step before c₀ _ turn hBefore hStep =>
      subst hExit
      obtain ⟨state, rfl, hTurn⟩ := hStep
      obtain ⟨-, -, hEvents⟩ := run_invariant hBefore
      have hLeaving := leaving_turn (run_turnEffect config fromStr hTurn)
      refine ⟨before, _, rfl, ?_⟩
      rw [opsOf_append, opsOf_singleton, lifecycleOf_append]
      constructor
      · rintro ⟨hTorn, -⟩ ⟨hClosed, session, hLive⟩
        rcases hLeaving with ⟨-, hOps⟩ | ⟨hOther, -⟩
        · have hTornHere := hTorn session hLive
          simp only [hOps] at hTornHere
          exact not_tornDown_nil session hTornHere
        · exact hOther hClosed
      · intro hNot
        rcases hLeaving with ⟨hClosed, hOps⟩ | ⟨-, hTeardown⟩
        · have hNone : state.session = none := by
            cases hSession : state.session with
            | none => rfl
            | some session => exact absurd ⟨hClosed, session, state, rfl, hSession⟩ hNot
          refine ⟨?_, ?_⟩
          · rintro session ⟨_, hState, hSession⟩
            cases hState
            rw [hNone] at hSession
            cases hSession
          · simpa [hOps, hNone] using hEvents
        · refine ⟨?_, ?_⟩
          · rintro session ⟨_, hState, hSession⟩
            cases hState
            exact Teardown.tornDown hTeardown hSession
          · simp only [Teardown.lifecycleOf_eq hTeardown]
            exact Alternating.farewell hEvents

/-! ## Two runs -/

/-- Select a receiver and leave by command. -/
def shutdownScript : List (Scene castSig Branch) :=
  [ (.command (some (.select livingRoom)), obliging 0)
  , (.command (some .shutdown), obliging 1) ]

/-- Select a receiver and drop every command sender. -/
def droppedScript : List (Scene castSig Branch) :=
  [ (.command (some (.select livingRoom)), obliging 0)
  , (.command none, obliging 1) ]

/-- A session ended by command. -/
theorem shutdown_torn_down :
    ∃ state before last, ((run .default fun _ => none).play (.parked .new) shutdownScript).2 =
        .exited state ∧
      ((run .default fun _ => none).play (.parked .new) shutdownScript).1 = before ++ [last] ∧
      (((∀ session, LiveAt last.pre session → TornDown session last.label.ops) ∧
          Alternating (lifecycleOf (opsOf (before ++ [last]))) none) ↔
        ¬ (last.label.branch = .command none ∧ ∃ session, LiveAt last.pre session)) := by
  obtain ⟨state, hState⟩ :
      ∃ state, ((run .default fun _ => none).play (.parked .new) shutdownScript).2 =
        .exited state := ⟨_, rfl⟩
  have hRun := play_run (.start (run_start _ _))
    (show (run .default fun _ => none).Admits (.parked .new) shutdownScript from
      ⟨trivial, trivial, trivial⟩)
  rw [hState] at hRun
  obtain ⟨before, last, hTurns, hIff⟩ := exit_torn_down_iff hRun
  rw [hTurns] at hIff
  exact ⟨state, before, last, hState, hTurns, hIff⟩

/-- When the command senders are gone, the live session stays connected. -/
theorem senders_gone_leave_session :
    ¬ ∀ turns state, Run (run .default fun _ => none).turns turns (.exited state) →
      Alternating (lifecycleOf (opsOf turns)) none := by
  intro hAll
  have hRun := play_run (.start (run_start _ _))
    (show (run .default fun _ => none).Admits (.parked .new) droppedScript from
      ⟨trivial, trivial, trivial⟩)
  obtain ⟨state, hState, hEvents⟩ :
      ∃ state, ((run .default fun _ => none).play (.parked .new) droppedScript).2 =
          .exited state ∧
        lifecycleOf (opsOf
          ((run .default fun _ => none).play (.parked .new) droppedScript).1) =
          [.connected livingRoom] := ⟨_, rfl, rfl⟩
  rw [hState] at hRun
  have hAlternating := hAll _ _ hRun
  rw [List.nil_append, hEvents] at hAlternating
  generalize hList : [ConnectionEvent.connected livingRoom] = events at hAlternating
  cases hAlternating with
  | start => cases hList
  | @disconnected earlier device h =>
      have hLast := congrArg List.getLast? hList
      simp at hLast

end CastApp.Cast.TaskExit
