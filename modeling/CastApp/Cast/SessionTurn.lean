import CastApp.Cast.RunInvariant
import CastApp.Verified.Monitor

/-!
# One session across a turn

A session that is live at the `select!` either was live at the one before,
and the turn was one of its own (`Acts`), or it was opened in the turn.
`LiveAfter` says so; an invariant of sessions is then proved once for a
fresh session and once for `Acts`, and `session_invariant` carries it to
every run.
-/

namespace CastApp.Cast.SessionTurn

open CastApp.State
open CastApp.Cast.Journal
open CastApp.Cast.RequestId
open CastApp.Cast.RunEffect
open CastApp.Cast.RunInvariant
open CastApp.Cast.RunLoop
open CastApp.Cast.Session
open CastApp.Cast.SessionEffect
open CastApp.Util.Json
open CastApp.Verified.Coroutine
open CastApp.Verified.EventLoop
open CastApp.Verified.Monitor
open CastApp.Verified.Transition

variable {config : ConnectionConfig} {fromStr : String → Option Json}

/-- Operations that only read the clock. -/
def Quiet (ops : Ops) : Prop := ∀ entry ∈ ops, ∃ now : Instant, entry = ⟨.now, now⟩

theorem quiet_nil : Quiet [] := nofun

theorem quiet_now (now : Instant) : Quiet [⟨.now, now⟩] := by
  intro entry hEntry
  exact ⟨now, List.mem_singleton.mp hEntry⟩

theorem Quiet.append {xs ys : Ops} (hxs : Quiet xs) (hys : Quiet ys) : Quiet (xs ++ ys) := by
  intro entry hEntry
  rcases List.mem_append.mp hEntry with h | h
  · exact hxs entry h
  · exact hys entry h

/-- How the session live after a turn, and the channel it is read from, came
about. -/
inductive LiveAfter (config : ConnectionConfig) (fromStr : String → Option Json)
    (state : RunState) (b : Branch) (ops : Ops) (after : Session)
    (inbound : Option Channel) : Prop
  | continued {session session' : Session} {ops₁ quiet : Ops} {p : PendingMap}
      (hSession : state.session = some session)
      (h : Acts fromStr session b ops₁ (.value (.ok (), session')))
      (hOps : ops = ops₁ ++ quiet) (hQuiet : Quiet quiet)
      (hAfter : after = renumber session' session'.requestId p)
      (hInbound : inbound = state.inbound)
  | opened {state₀ state₁ : RunState} {device : CastDevice} {before ops₁ quiet : Ops}
      {transport : Transport} {p : PendingMap}
      (h : Establishes config state₀ device ops₁ (.value (.ok (), state₁)))
      (hSession : state₁.session = some (.new device transport config.requestTimeout))
      (hOps : ops = before ++ ops₁ ++ quiet) (hQuiet : Quiet quiet)
      (hBefore : Teardown state before (.value (torn state)) ∨
        before = [] ∧ state.session = none)
      (hAfter : after = renumber (.new device transport config.requestTimeout) .new p)
      (hInbound : inbound = state₁.inbound)

/-- A successful attempt leaves a new session. -/
theorem Establishes.session {state state' : RunState} {device : CastDevice} {ops : Ops}
    (h : Establishes config state device ops (.value (.ok (), state'))) :
    ∃ transport, state'.session = some (.new device transport config.requestTimeout) := by
  cases h
  exact ⟨_, rfl⟩

theorem turnEffect_session {state state' : RunState} {b : Branch} {ops : Ops}
    {after : Session} (hInv : RunInv state)
    (h : TurnEffect config fromStr state b ops (.parked state'))
    (hAfter : state'.session = some after) :
    LiveAfter config fromStr state b ops after state'.inbound := by
  cases h with
  | @parked ops₁ ops₂ state₁ _ hBranch hReaped =>
  -- Reaping only touches the pending requests of the session it finds.
  obtain ⟨session', now, p, hSession', rfl, rfl, hInbound⟩ : ∃ session' now p,
      state₁.session = some session' ∧ ops₂ = [⟨.now, now⟩] ∧
        after = renumber session' session'.requestId p ∧ state'.inbound = state₁.inbound := by
    cases hReaped with
    | idle hNone => rw [hNone] at hAfter; cases hAfter
    | live hSome now p => cases hAfter; exact ⟨_, now, p, hSome, rfl, rfl, rfl⟩
  have hNow := quiet_now now
  cases hBranch with
  | idle hSession h =>
      have hNone : state₁.session = none := by cases h <;> exact hSession
      rw [hNone] at hSession'
      cases hSession'
  | acted hSession h hRearmed hQuiet =>
      rw [hRearmed.session] at hSession'
      cases hSession'
      exact .continued hSession h (List.append_assoc ..) (Quiet.append hQuiet hNow) rfl
        (hInbound.trans hRearmed.inbound)
  | failed hSession h hRearmed hLost =>
      have hReconnect : _ = none := hRearmed.reconnect.trans
        (hInv.single.resolve_left (by simp [hSession]))
      have hDetached := (Lost.runInv hLost (by simp [hRearmed.session]) hReconnect).2
      rw [hDetached.session] at hSession'
      cases hSession'
  | gone hSession hGone hLost =>
      have hReconnect := hInv.single.resolve_left (by simp [hSession])
      have hDetached := (Lost.runInv hLost (by simp [hSession]) hReconnect).2
      rw [hDetached.session] at hSession'
      cases hSession'
  | selected h hEstablishes =>
      obtain ⟨transport, hNew⟩ := Establishes.session hEstablishes
      rw [hNew] at hSession'
      cases hSession'
      refine .opened hEstablishes hNew rfl hNow ?_ rfl hInbound
      cases h with
      | idle hNone => exact .inr ⟨rfl, hNone⟩
      | ended hSome hGoodbye => exact .inl (.ended hSome hGoodbye)
  | selectFailed h hEstablishes =>
      obtain rfl := Establishes.error_eq hEstablishes
      have hDetached := (Teardown.tornFrom h hInv.detached).detached
      have : (none : Option Session) = some session' := hDetached.session.symm.trans hSession'
      cases this
  | reconnected hReconnect h =>
      obtain ⟨transport, hNew⟩ := Establishes.session h
      rw [hNew] at hSession'
      cases hSession'
      have hNone := hInv.single.resolve_right (by simp [hReconnect])
      have hOps : ops₁ ++ [⟨.now, now⟩] = [] ++ ops₁ ++ [⟨.now, now⟩] := rfl
      exact .opened h hNew hOps hNow (.inr ⟨rfl, hNone⟩) rfl hInbound
  | retried hReconnect h =>
      obtain rfl := Establishes.error_eq h
      have hNone := hInv.single.resolve_right (by simp [hReconnect])
      have : (none : Option Session) = some session' := hNone.symm.trans hSession'
      cases this
  | abandoned hReconnect h =>
      obtain rfl := Establishes.error_eq h
      have hNone := hInv.single.resolve_right (by simp [hReconnect])
      have : (none : Option Session) = some session' := hNone.symm.trans hSession'
      cases this

/-- The invariant rule for sessions: what a fresh session satisfies, the
request bookkeeping does not affect and every action keeps, holds of every
live session at every `select!`. -/
theorem session_invariant {I : Session → Prop}
    (hNew : ∀ device transport, I (.new device transport config.requestTimeout))
    (hRenumber : ∀ session r p, I session → I (renumber session r p))
    (hActs : ∀ session session' b ops, I session →
      Acts fromStr session b ops (.value (.ok (), session')) → I session')
    {turns : List (Move (Stage castSig RunState) (Turn castSig Branch))} {state : RunState}
    (hRun : Run (run config fromStr).turns turns (.parked state)) :
    ∀ session, state.session = some session → I session := by
  refine hRun.traceInvariant
    (I := fun _ c => ∀ state, c = .parked state →
      ∀ session, state.session = some session → I session) ?_ ?_ state rfl
  · rintro c hInit state rfl session hSession
    cases run_init config fromStr hInit
    cases hSession
  · rintro turns c turn c' hBefore hPrevious ⟨state₀, rfl, hTurn⟩ state rfl after hAfter
    have hInv := (run_invariant hBefore).1
    cases turnEffect_session hInv (run_turnEffect config fromStr hTurn) hAfter with
    | continued hSession h hOps hQuiet hEq =>
        rw [hEq]
        exact hRenumber _ _ _ (hActs _ _ _ _ (hPrevious state₀ rfl _ hSession) h)
    | opened h hSession hOps hQuiet hBefore hEq =>
        rw [hEq]
        exact hRenumber _ _ _ (hNew _ _)

/-! ## The turns of the current session -/

/-- One turn of a run of the connection task. -/
abbrev TurnOf : Type := Move (Stage castSig RunState) (Turn castSig Branch)

def isConnect : Entry castSig → Bool
  | ⟨.connect _, _⟩ => true
  | _ => false

/-- The turn tried to connect: a session live after it is a new one. -/
def connects (turn : TurnOf) : Bool := turn.label.ops.any isConnect

/-- The turns since the last attempt to connect, in order. -/
def sessionTurns (turns : List TurnOf) : List TurnOf := since connects turns

theorem sessionTurns_concat_of_connects {turn : TurnOf} (turns : List TurnOf)
    (h : connects turn = true) : sessionTurns (turns ++ [turn]) = [] :=
  since_concat_of_mark turns h

theorem sessionTurns_concat {turn : TurnOf} (turns : List TurnOf)
    (h : connects turn = false) :
    sessionTurns (turns ++ [turn]) = sessionTurns turns ++ [turn] :=
  since_concat turns h

theorem sessionTurns_subset {turns : List TurnOf} {turn : TurnOf}
    (h : turn ∈ sessionTurns turns) : turn ∈ turns :=
  since_subset h

/-! ## Operations of a live session -/

/-- What a session does to its own transport and to the backend. -/
def isSessionOp : Entry castSig → Bool
  | ⟨.write _ _, _⟩ | ⟨.close _, _⟩ | ⟨.now, _⟩ | ⟨.emit _, _⟩ => true
  | ⟨.subscribe, _⟩ | ⟨.connect _, _⟩ | ⟨.channel, _⟩ | ⟨.spawnReader _ _, _⟩ => false

/-- Nothing is connected, allocated or spawned. -/
def SessionOnly (ops : Ops) : Prop := ops.all isSessionOp = true

theorem SessionOnly.append {xs ys : Ops} (hxs : SessionOnly xs) (hys : SessionOnly ys) :
    SessionOnly (xs ++ ys) := by
  unfold SessionOnly
  rw [List.all_append, hxs, hys]
  rfl

theorem SessionOnly.no_connect {ops : Ops} (h : SessionOnly ops) :
    ops.any isConnect = false := by
  refine List.any_eq_false.mpr fun ⟨op, result⟩ hEntry hConnect => ?_
  have hOp := List.all_eq_true.mp h _ hEntry
  cases op with
  | connect => cases hOp
  | subscribe | write | close | channel | spawnReader | now | emit => cases hConnect

theorem Quiet.sessionOnly {ops : Ops} (h : Quiet ops) : SessionOnly ops := by
  refine List.all_eq_true.mpr fun entry hEntry => ?_
  obtain ⟨now, rfl⟩ := h entry hEntry
  rfl

theorem Requests.sessionOnly {session : Session} {outgoing : UInt32 → Outgoing}
    {phase : Phase} {ops : Ops} {o : Outcome castSig Handled}
    (h : Requests session outgoing phase ops o) : SessionOnly ops := by
  cases h <;> rfl

theorem Loads.sessionOnly {session : Session} {request : LoadRequest} {ops : Ops}
    {o : Outcome castSig Handled} (h : Loads session request ops o) :
    SessionOnly ops := by
  cases h <;> rfl

theorem Hears.sessionOnly {action : InboundAction} {ops : Ops} (h : Hears action ops) :
    SessionOnly ops := by
  cases h with
  | events events => induction events with
    | nil => rfl
    | cons event events ih => exact ih
  | reset | unarmed | ignored => rfl

/-- Acting on a live session stays with that session. -/
theorem Acts.sessionOnly {session : Session} {b : Branch} {ops : Ops}
    {o : Outcome castSig Handled} (h : Acts fromStr session b ops o) : SessionOnly ops := by
  cases h with
  | command _ _ h =>
      cases h with
      | ignored _ hOps => rw [hOps]; rfl
      | asked _ hEffect => exact Requests.sessionOnly hEffect
      | played _ _ hEffect => exact Requests.sessionOnly hEffect
      | loaded _ _ hEffect => exact Loads.sessionOnly hEffect
      | unreachable _ hOps => rw [hOps]; rfl
  | routed _ hHears => exact Hears.sessionOnly hHears
  | dispatched _ hHears _ _ h =>
      exact SessionOnly.append (Hears.sessionOnly hHears) (Loads.sessionOnly h)
  | pinged => rfl

theorem Quiet.no_connect {ops : Ops} (h : Quiet ops) : ops.any isConnect = false :=
  (Quiet.sessionOnly h).no_connect

/-- A live session does not connect. -/
theorem Acts.no_connect {session : Session} {b : Branch} {ops : Ops}
    {o : Outcome castSig Handled} (h : Acts fromStr session b ops o) :
    ops.any isConnect = false :=
  (Acts.sessionOnly h).no_connect

theorem Teardown.sessionOnly {state : RunState} {ops : Ops} {o : Outcome castSig RunState}
    (h : Teardown state ops o) : SessionOnly ops := by
  have hGoodbye : ∀ {session : Session} {ops : Ops} {o : Outcome castSig Session},
      Goodbye session ops o → SessionOnly ops := by
    intro session ops o h
    cases h <;> rfl
  cases h with
  | idle => rfl
  | faulted _ h => exact hGoodbye h
  | ended _ h => exact (hGoodbye h).append rfl

theorem Lost.sessionOnly {state : RunState} {ops : Ops} {o : Outcome castSig RunState}
    (h : Lost config state ops o) : SessionOnly ops := by
  cases h with
  | faulted h | undesired h => exact Teardown.sessionOnly h
  | retry h | exhausted h => exact (Teardown.sessionOnly h).append rfl

theorem Establishes.connects {state : RunState} {device : CastDevice} {ops : Ops}
    {o : Outcome castSig (Except ConnectionError Unit × RunState)}
    (h : Establishes config state device ops o) : ops.any isConnect = true := by
  cases h <;> rfl

end CastApp.Cast.SessionTurn
