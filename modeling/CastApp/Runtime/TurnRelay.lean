import CastApp.Runtime.CommandEffect

/-!
# What a turn of the supervisor passes on

* **`turn_relays`** — a turn passes on what it was given, in order, and makes
  up no news and no selection of its own.
* `prelude_news` — before its first turn there is at most bad news.
-/

namespace CastApp.Runtime.TurnRelay

open CastApp.Cast.Session (Command ConnectionEvent)
open CastApp.Runtime.CommandEffect
open CastApp.Runtime.EventRelay
open CastApp.Runtime.Supervisor
open CastApp.State
open CastApp.Verified.Coroutine
open CastApp.Verified.EventLoop
open CastApp.Verified.RelyGuarantee

variable {urlPath : UrlPath} {state : SupervisorState} {ops : Ops}

/-! ## Turns -/

/-- The supervisor has no faults of its own, so that a sequence is executed to
the end of its first part. -/
theorem exec_then {α β : Type} {p : Supervise β} {f : β → Supervise α}
    {o : Outcome supervisorSig α} (hExec : Exec (p >>= f) ops o) :
    ∃ b first last, ops = first ++ last ∧ Exec p first (.value b) ∧ Exec (f b) last o := by
  rcases exec_bind.mp hExec with h | ⟨reason, -⟩
  · exact h
  · exact reason.elim

/-- A selection is passed on as one. -/
theorem selectReceiver_relays {device : CastDevice} {o : Outcome supervisorSig SupervisorState}
    (hExec : Exec (selectReceiver state device) ops o) :
    newsOf (emitsOf ops) = [] ∧ (castsOf ops).filterMap selected = [device] ∧
      drainedOf ops = [] := by
  obtain ⟨ip, rest, rfl, hSelect⟩ := exec_perform_bind.mp hExec
  obtain ⟨r, rest', rfl, hRebind⟩ := exec_perform_bind.mp hSelect
  have hQuiet := (rebindToLanIp_discreet (remembers_any { state with lanIp := .v4 ip })).quiet
  obtain ⟨hNews, hSelections, hDrained⟩ := quiet_exec hQuiet hRebind
  refine ⟨hNews, ?_, hDrained⟩
  show device :: (castsOf rest').filterMap selected = [device]
  rw [hSelections]

theorem handleCommand_relays {command : AppCommand} {o : Outcome supervisorSig SupervisorState}
    (hExec : Exec (handleCommand urlPath state command) ops o) :
    newsOf (emitsOf ops) = [] ∧
      (castsOf ops).filterMap selected = (selection command).toList ∧ drainedOf ops = [] := by
  cases hSelection : selection command with
  | none =>
      have hQuiet : Quiet (handleCommand urlPath state command) :=
        (handleCommand_discreet (remembers_any state) (fun _ => trivial) hSelection).quiet
      exact quiet_exec hQuiet hExec
  | some device =>
      cases command with
      | selectReceiver | manualConnect =>
          cases hSelection
          exact selectReceiver_relays hExec
      | _ => cases hSelection

/-- An event is passed on, and nothing else. -/
theorem forwardConnectionEvent_ops {event : ConnectionEvent}
    {o : Outcome supervisorSig SupervisorState}
    (hExec : Exec (forwardConnectionEvent state event) ops o) :
    emitsOf ops = forwarded event ∧ castsOf ops = [] ∧ drainedOf ops = [] := by
  cases event with
  | ready =>
      obtain ⟨rfl, -⟩ := exec_pure.mp hExec
      exact ⟨rfl, rfl, rfl⟩
  | connected | disconnected | error | certificateMismatch | mediaStatus | volume =>
      obtain ⟨r, rest, rfl, hRest⟩ := exec_perform_bind.mp hExec
      obtain ⟨rfl, -⟩ := exec_pure.mp hRest
      exact ⟨rfl, rfl, rfl⟩

theorem forwardAll_ops {events : List ConnectionEvent} {o : Outcome supervisorSig SupervisorState}
    (hExec : Exec (forwardAll state events) ops o) :
    emitsOf ops = events.flatMap forwarded ∧ castsOf ops = [] ∧ drainedOf ops = [] := by
  induction events generalizing state ops with
  | nil =>
      obtain ⟨rfl, -⟩ := exec_pure.mp hExec
      exact ⟨rfl, rfl, rfl⟩
  | cons event events ih =>
      obtain ⟨state', first, rest, rfl, hFirst, hRest⟩ := exec_then hExec
      obtain ⟨hEmits, hCasts, hDrained⟩ := forwardConnectionEvent_ops hFirst
      obtain ⟨hEmits', hCasts', hDrained'⟩ := ih hRest
      rw [emitsOf_append, castsOf_append, drainedOf_append, hEmits, hCasts, hDrained, hEmits',
        hCasts', hDrained']
      exact ⟨rfl, rfl, rfl⟩

/-- The shutdown passes on what it drains. -/
theorem coordinatedShutdown_relays {o : Outcome supervisorSig SupervisorState}
    (hExec : Exec (coordinatedShutdown state) ops o) : Relays [] (drainedOf ops) ops := by
  obtain ⟨_, _, rfl, hServer⟩ := exec_perform_bind.mp hExec
  obtain ⟨_, _, rfl, hAwait⟩ := exec_perform_bind.mp hServer
  obtain ⟨_, _, rfl, hCast⟩ := exec_perform_bind.mp hAwait
  obtain ⟨events, rest, rfl, hDrain⟩ := exec_perform_bind.mp hCast
  obtain ⟨state', first, last, rfl, hFirst, hLast⟩ := exec_then hDrain
  obtain ⟨hEmits, hCasts, hDrained⟩ := forwardAll_ops hFirst
  obtain ⟨hNews, hSelections, hNone⟩ := quiet_exec (finishing_discreet state').quiet hLast
  constructor
  · show newsOf (emitsOf (first ++ last)) =
      newsOf ((events ++ drainedOf (first ++ last)).flatMap forwarded)
    rw [emitsOf_append, newsOf_append, hEmits, hNews, drainedOf_append, hDrained, hNone]
    simp
  · show (castsOf (first ++ last)).filterMap selected = []
    rw [castsOf_append, hCasts]
    exact hSelections

/-- A part of a turn, and where it leaves the loop. -/
theorem exec_flow {p : Supervise SupervisorState} {f : SupervisorState → Flow SupervisorState}
    {o : Outcome supervisorSig (Flow SupervisorState)}
    (hExec : Exec (p >>= fun state => pure (f state)) ops o) : ∃ o, Exec p ops o := by
  obtain ⟨state, first, last, rfl, hFirst, hLast⟩ := exec_then hExec
  obtain ⟨rfl, -⟩ := exec_pure.mp hLast
  rw [List.append_nil]
  exact ⟨_, hFirst⟩

/-- **A turn passes on what it takes.** -/
theorem turn_relays {discovery : Except IoError Unit} {initialPort : UInt16}
    {turn : Turn supervisorSig Branch} {c : Stage supervisorSig SupervisorState}
    (hTurn : (supervise urlPath discovery initialPort).TakesTurn state turn c) :
    Relays (obeyed turn.branch) (received turn.branch ++ drainedOf turn.ops) turn.ops := by
  obtain ⟨-, o, hExec, -⟩ := hTurn
  obtain ⟨b, ops⟩ := turn
  have hLeave (hExec : Exec (coordinatedShutdown state >>= fun state => pure (.exit state)) ops o) :
      Relays [] (drainedOf ops) ops := by
    obtain ⟨_, hShutdown⟩ := exec_flow hExec
    exact coordinatedShutdown_relays hShutdown
  match b with
  | .command (some command) =>
      obtain ⟨_, hCommand⟩ := exec_flow hExec
      obtain ⟨hNews, hSelections, hDrained⟩ := handleCommand_relays hCommand
      refine ⟨?_, ?_⟩
      · show newsOf (emitsOf ops) = newsOf (([] ++ drainedOf ops).flatMap forwarded)
        rw [hNews, hDrained]
        rfl
      · rw [hSelections]
        cases hSelection : selection command <;> simp [obeyed, hSelection]
  | .event (some event) =>
      obtain ⟨_, hEvent⟩ := exec_flow hExec
      obtain ⟨hEmits, hCasts, hDrained⟩ := forwardConnectionEvent_ops hEvent
      refine ⟨?_, ?_⟩
      · show newsOf (emitsOf ops) = newsOf (([event] ++ drainedOf ops).flatMap forwarded)
        rw [hEmits, hDrained]
        simp
      · rw [hCasts]
        rfl
  | .port true =>
      obtain ⟨rfl, -⟩ := exec_pure.mp hExec
      exact ⟨rfl, rfl⟩
  | .command none | .event none | .port false | .shutdown => exact hLeave hExec

/-! ## Before the first turn -/

theorem prelude_failing (discovery : Except IoError Unit) (initialPort : UInt16) :
    Failing (supervise urlPath discovery initialPort).prelude := by
  have hDiscovery : Failing (startDiscovery discovery) := by
    cases discovery with
    | ok => exact .perform trivial fun _ _ => trivial
    | error error => exact .perform (fun _ => rfl) fun _ _ => trivial
  have hStart : Failing (startUp discovery initialPort) := by
    refine refreshDisplays_discreet.quiet.failing.bind fun _ _ => ?_
    refine hDiscovery.bind fun mdnsTask _ => ?_
    refine .perform trivial fun _ _ => .perform trivial fun _ _ => .perform trivial fun ip _ => ?_
    refine (requestWildcardFallback_discreet (remembers_any _) _).quiet.failing.bind fun _ _ => ?_
    exact .perform trivial fun _ _ => .perform trivial fun _ _ => trivial
  exact hStart.bind fun _ _ => trivial

/-- **What is passed on before the first turn**: nothing but failures. -/
theorem prelude_news {discovery : Except IoError Unit} {initialPort : UInt16}
    {o : Outcome supervisorSig (Flow SupervisorState)}
    (hExec : Exec (supervise urlPath discovery initialPort).prelude ops o) :
    (∀ event ∈ newsOf (emitsOf ops), isFailure event = true) ∧
      (castsOf ops).filterMap selected = [] := by
  have hOps := ((prelude_failing discovery initialPort).exec hExec fun _ _ => trivial).1
  constructor
  · intro event hEvent
    obtain ⟨hEmitted, hNews⟩ := List.mem_filter.mp hEvent
    obtain ⟨⟨op, r⟩, hEntry, hEmit⟩ := List.mem_filterMap.mp hEmitted
    cases op <;> cases hEmit
    exact hOps _ hEntry hNews
  · rw [List.filterMap_eq_nil_iff]
    intro command hCommand
    obtain ⟨⟨op, r⟩, hEntry, hCast⟩ := List.mem_filterMap.mp hCommand
    cases op <;> cases hCast
    exact hOps _ hEntry

end CastApp.Runtime.TurnRelay
