import CastApp.Cast.RunInvariant
import CastApp.Verified.Anytime

/-!
# The timers of the connection task

The connection task with a clock that only moves forward and timers that are
picked when they are due.  `Timed` records when the branch that armed a timer
was picked, and when the task was back at its `select!`.

* `Since` — a computation takes time and nothing else.
* `Timely` — at every `select!` the heartbeat and the watchdog are due when
  they should be.
* **`watchdog_timely`** — what holds of every run.
-/

namespace CastApp.Cast.Timers

open CastApp.State
open CastApp.Cast.RunEffect
open CastApp.Cast.RunInvariant
open CastApp.Cast.RunLoop
open CastApp.Cast.Session
open CastApp.Util.Json
open CastApp.Util.Retry
open CastApp.Verified.Anytime
open CastApp.Verified.Coroutine
open CastApp.Verified.Ends (Answers)
open CastApp.Verified.EventLoop
open CastApp.Verified.Transition

/-! ## The clock -/

/-- When a timer was armed last: the branch that did was picked, and the task
was back at its `select!`, unless it still is there. -/
structure Arming where
  picked : Instant
  parked : Option Instant

structure Timed where
  clock : Instant
  /-- Of the watchdog. -/
  heard : Arming
  /-- Of the heartbeat. -/
  beat : Arming

/-- A branch is picked at `now`, the task having waited since `parked`. -/
def Arming.pick (arming : Arming) (arms : Bool) (parked now : Instant) : Arming :=
  if arms then ⟨now, none⟩ else { arming with parked := some (arming.parked.getD parked) }

/-- The branches that make a connection. -/
def connects : Branch → Bool
  | .command (some (.select _)) | .reconnect => true
  | _ => false

variable (config : ConnectionConfig) (fromStr : String → Option Json)

/-- The branch received a `PONG`. -/
def hears (state : RunState) : Branch → Bool
  | .inbound (some (some payload)) =>
      match state.session with
      | some session => ((session.routeInbound fromStr payload).1 matches .pong)
      | none => false
  | _ => false

def beats : Branch → Bool
  | .heartbeat => true
  | _ => false

/-- The timer of a branch, if it waits for one. -/
def timerOf (state : RunState) : Branch → Option Sleep
  | .heartbeat => state.heartbeat
  | .watchdog => state.watchdog
  | .reconnect => state.reconnect.map (·.delay)
  | _ => none

/-- Time passes, and the clock is read right. -/
def answers : Answers castSig Timed
  | e, .now, r, e' => e.clock ≤ e'.clock ∧ e' = { e with clock := e'.clock } ∧ r = e'.clock
  | e, _, _, e' => e.clock ≤ e'.clock ∧ e' = { e with clock := e'.clock }

def picked (state : RunState) (branch : Branch) (e : Timed) (now : Instant) : Timed where
  clock := now
  heard := e.heard.pick (connects branch || hears fromStr state branch) e.clock now
  beat := e.beat.pick (connects branch || beats branch) e.clock now

/-- A timer is picked when it is due. -/
def fires (e : Timed) (state : RunState) (branch : Branch) (e' : Timed) : Prop :=
  e.clock ≤ e'.clock ∧ (∀ timer, timerOf state branch = some timer → timer.deadline ≤ e'.clock) ∧
    e' = picked fromStr state branch e e'.clock

/-- The connection task with its clock. -/
def timed : System (Control castSig RunState × Timed) (Label castSig Branch Empty) :=
  around (· = ⟨0, ⟨0, none⟩, ⟨0, none⟩⟩) answers (fires fromStr) (run config fromStr)

/-! ## What takes time -/

/-- Time has passed, and nothing else. -/
structure Since (e e' : Timed) : Prop where
  clock : e.clock ≤ e'.clock
  same : e' = { e with clock := e'.clock }

variable {e e' e'' : Timed}

theorem Since.refl (e : Timed) : Since e e := ⟨Nat.le_refl _, rfl⟩

theorem Since.trans (h : Since e e') (h' : Since e' e'') : Since e e'' := by
  refine ⟨Nat.le_trans h.clock h'.clock, ?_⟩
  rw [h'.same, h.same]

theorem Since.heard (h : Since e e') : e'.heard = e.heard := by rw [h.same]

theorem Since.beat (h : Since e e') : e'.beat = e.beat := by rw [h.same]

theorem answers_since {op : castSig.Op} {r : castSig.Ans op} (h : answers e op r e') :
    Since e e' := by
  cases op with
  | now => exact ⟨h.1, h.2.1⟩
  | subscribe | connect device | write transport message | close transport | channel
  | spawnReader transport channel | emit event => exact ⟨h.1, h.2⟩

/-- A computation that leaves `post`; where it is dropped nothing is asked. -/
abbrev Takes {α : Type} (e : Timed) (p : Cast α) (post : Timed → α → Prop) : Prop :=
  Stays answers (fun _ => True) e p post

/-- Whatever a computation does, it takes time only; its value is one it can
come to. -/
theorem takes_of_ensures {α : Type} {p : Cast α}
    {Q : List (Entry castSig) → Outcome castSig α → Prop} (hp : Ensures p Q) :
    Takes e p fun e' a => Since e e' ∧ ∃ ops, Q ops (.value a) := by
  suffices hTakes : ∀ (e₀ : Timed) (before : List (Entry castSig)), Since e₀ e →
      (∀ ops o, Exec p ops o → Q (before ++ ops) o) →
      Takes e p fun e' a => Since e₀ e' ∧ ∃ ops, Q ops (.value a) from
    hTakes e [] (.refl e) hp
  clear hp
  induction p generalizing e with
  | done a =>
      intro e₀ before hSince hp
      exact ⟨trivial, hSince, _, hp [] _ ⟨rfl, rfl⟩⟩
  | fault reason => exact fun _ _ _ _ => trivial
  | await op resume ih =>
      intro e₀ before hSince hp
      refine ⟨trivial, fun r e' hAnswer => ?_⟩
      refine ih r e₀ (before ++ [⟨op, r⟩]) (hSince.trans (answers_since hAnswer)) ?_
      intro ops o hExec
      rw [List.append_assoc]
      exact hp _ _ ⟨r, ops, rfl, hExec⟩

theorem takes_any {α : Type} (p : Cast α) : Takes e p fun e' _ => Since e e' :=
  (takes_of_ensures (Q := fun _ _ => True) fun _ _ _ => trivial).mono fun _ _ h => h.1

theorem sleep_takes (duration : Duration) :
    Takes e (sleep duration) fun e' timer => Since e e' ∧
      e.clock + duration ≤ timer.deadline ∧ timer.deadline ≤ e'.clock + duration := by
  refine Stays.perform trivial fun now e' hAnswer => ?_
  have hSince : Since e e' := ⟨hAnswer.1, hAnswer.2.1⟩
  obtain rfl : now = e'.clock := hAnswer.2.2
  exact ⟨trivial, hSince, Nat.add_le_add_right hSince.clock duration, Nat.le_refl _⟩

/-! ## Timers -/

/-- The timer is due `duration` after the branch that armed it was picked, and
no later than `duration` after the task was back at its `select!`. -/
structure Due (arming : Arming) (duration : Duration) (clock : Instant) (timer : Sleep) :
    Prop where
  soonest : arming.picked + duration ≤ timer.deadline
  latest : timer.deadline ≤ arming.parked.getD clock + duration

/-- The branch that arms the timer was just picked. -/
structure Fresh (arming : Arming) (clock : Instant) : Prop where
  parked : arming.parked = none
  picked : arming.picked ≤ clock

def OnTime (arming : Arming) (duration : Duration) (clock : Instant) (timer : Option Sleep) :
    Prop :=
  ∀ t, timer = some t → Due arming duration clock t

structure Timely (e : Timed) (state : RunState) : Prop where
  watchdog : OnTime e.heard config.watchdogTimeout e.clock state.watchdog
  heartbeat : OnTime e.beat config.heartbeatInterval e.clock state.heartbeat

variable {config fromStr} {state : RunState} {arming : Arming} {duration : Duration}
variable {clock now : Instant} {timer : Sleep} {timers : Option Sleep}

theorem Due.later (h : Due arming duration clock timer) (hLater : clock ≤ now) :
    Due arming duration now timer := by
  refine ⟨h.soonest, Nat.le_trans h.latest (Nat.add_le_add_right ?_ duration)⟩
  cases arming.parked with
  | none => exact hLater
  | some parked => exact Nat.le_refl parked

/-- Another branch is picked. -/
theorem Due.pick (h : Due arming duration clock timer) :
    Due (arming.pick false clock now) duration now timer := ⟨h.soonest, h.latest⟩

theorem fresh_pick {arms : Bool} (hArms : arms = true) :
    Fresh (arming.pick arms clock now) now := by
  subst hArms
  exact ⟨rfl, Nat.le_refl now⟩

/-- It is armed. -/
theorem Fresh.due (h : Fresh arming clock) (hSoonest : clock + duration ≤ timer.deadline)
    (hLatest : timer.deadline ≤ now + duration) : Due arming duration now timer := by
  refine ⟨Nat.le_trans (Nat.add_le_add_right h.picked duration) hSoonest, ?_⟩
  rw [h.parked]
  exact hLatest

theorem OnTime.later (h : OnTime arming duration clock timers) (hLater : clock ≤ now) :
    OnTime arming duration now timers := fun t hTimer => (h t hTimer).later hLater

theorem OnTime.pick (h : OnTime arming duration clock timers) {arms : Bool} (hArms : arms = false) :
    OnTime (arming.pick arms clock now) duration now timers := by
  subst hArms
  exact fun t hTimer => (h t hTimer).pick

theorem onTime_none : OnTime arming duration clock none := nofun

theorem Timely.since (h : Timely config e state) (hSince : Since e e') :
    Timely config e' state := by
  refine ⟨?_, ?_⟩
  · rw [hSince.heard]
    exact h.watchdog.later hSince.clock
  · rw [hSince.beat]
    exact h.heartbeat.later hSince.clock

/-- No timer of a session is armed. -/
structure Unarmed (state : RunState) : Prop where
  watchdog : state.watchdog = none
  heartbeat : state.heartbeat = none

theorem Unarmed.timely (h : Unarmed state) : Timely config e state := by
  refine ⟨?_, ?_⟩
  · rw [h.watchdog]
    exact onTime_none
  · rw [h.heartbeat]
    exact onTime_none

/-! ## Parts of a branch -/

theorem teardown_unarmed {ops : SessionEffect.Ops} {state' : RunState}
    (h : Teardown state ops (.value state')) (hInv : RunInv state) : Unarmed state' := by
  have hDetached := (Teardown.tornFrom h hInv.detached).detached
  exact ⟨hDetached.watchdog, hDetached.heartbeat⟩

/-- With a session there is something to tear down. -/
theorem connectionLost_takes (hSession : state.session.isSome) :
    Takes e (connectionLost config state) fun e' state' => Timely config e' state' := by
  refine (takes_of_ensures (connectionLost_ensures config state)).mono fun e' state' h => ?_
  obtain ⟨-, ops, hLost⟩ := h
  have hTorn : ∀ {ops : SessionEffect.Ops} {torn : RunState},
      Teardown state ops (.value torn) → Unarmed torn := by
    intro _ torn h
    have hDetached := (Teardown.tornFrom h fun hNone => by simp [hNone] at hSession).detached
    exact ⟨hDetached.watchdog, hDetached.heartbeat⟩
  cases hLost with
  | undesired h => exact (hTorn h).timely
  | retry h =>
      have hUnarmed := hTorn h
      exact Unarmed.timely ⟨hUnarmed.watchdog, hUnarmed.heartbeat⟩
  | exhausted h =>
      have hUnarmed := hTorn h
      exact Unarmed.timely ⟨hUnarmed.watchdog, hUnarmed.heartbeat⟩

/-- A connection that is made arms both timers. -/
theorem establish_takes (device : CastDevice) (hHeard : Fresh e.heard e.clock)
    (hBeat : Fresh e.beat e.clock) (hUnarmed : Unarmed state) :
    Takes e (establish config state device) fun e' made =>
      Timely config e' made.2 ∧ (made.1.isOk = false → made.2 = state) := by
  have hFailed : ∀ (e' : Timed) (error : ConnectionError), True ∧
      (Timely config e' state ∧ ((.error error : Except ConnectionError Unit).isOk = false →
        state = state)) := fun _ _ => ⟨trivial, hUnarmed.timely, fun _ => rfl⟩
  refine Stays.perform trivial fun connected e₁ hAnswer => ?_
  have h₁ : Since e e₁ := answers_since hAnswer
  match connected with
  | .error source => exact hFailed e₁ _
  | .ok (transport, pin) =>
      refine (takes_any (reportMismatch device pin)).bind fun e₂ _ h₂ => ?_
      refine (takes_any (sendPayload transport _)).bind fun e₃ sent h₃ => ?_
      match sent with
      | .error error => exact hFailed e₃ _
      | .ok () =>
          refine (takes_any (ask .channel)).bind fun e₄ channel h₄ => ?_
          refine (takes_any (ask (.spawnReader transport channel))).bind fun e₅ spawned h₅ => ?_
          match spawned with
          | .error source => exact hFailed e₅ _
          | .ok () =>
              refine (sleep_takes config.heartbeatInterval).bind fun e₆ heartbeat hBeats => ?_
              refine (sleep_takes config.watchdogTimeout).bind fun e₇ watchdog hWatches => ?_
              refine (takes_any (ask (.emit (.connected device)))).bind fun e₈ _ h₈ => ?_
              obtain ⟨h₆, hBeatSoonest, hBeatLatest⟩ := hBeats
              obtain ⟨h₇, hWatchSoonest, hWatchLatest⟩ := hWatches
              have hUp : Since e e₅ := (((h₁.trans h₂).trans h₃).trans h₄).trans h₅
              have hDown : Since e₆ e₈ := h₇.trans h₈
              have hAll : Since e e₈ := (hUp.trans h₆).trans hDown
              refine ⟨trivial, ⟨?_, ?_⟩, nofun⟩
              · rintro t ⟨⟩
                rw [hAll.heard]
                refine hHeard.due ?_ ?_
                · exact Nat.le_trans (Nat.add_le_add_right (hUp.trans h₆).clock _) hWatchSoonest
                · exact Nat.le_trans hWatchLatest (Nat.add_le_add_right h₈.clock _)
              · rintro t ⟨⟩
                rw [hAll.beat]
                refine hBeat.due ?_ ?_
                · exact Nat.le_trans (Nat.add_le_add_right hUp.clock _) hBeatSoonest
                · exact Nat.le_trans hBeatLatest (Nat.add_le_add_right hDown.clock _)

theorem settle_takes {handled : Handled} (h : Timely config e state) :
    Takes e (settle config state handled) fun e' state' => Timely config e' state' := by
  obtain ⟨result, session⟩ := handled
  cases result with
  | ok _ => exact ⟨trivial, h.watchdog, h.heartbeat⟩
  | error error => exact connectionLost_takes rfl

theorem sessionCommand_takes (command : Command) (h : Timely config e state) :
    Takes e (sessionCommand config state command) fun e' state' => Timely config e' state' := by
  unfold sessionCommand
  cases state.session with
  | none => exact ⟨trivial, h⟩
  | some session =>
      exact (takes_any _).bind fun e' handled hSince => settle_takes (h.since hSince)

theorem dispatchQueued_takes (session : Session) (h : Timely config e state) :
    Takes e (dispatchQueued config state session) fun e' state' => Timely config e' state' := by
  unfold dispatchQueued
  by_cases hPhase : session.phase = .ready
  · rw [if_pos hPhase]
    cases session.pendingCommand with
    | none => exact ⟨trivial, h.watchdog, h.heartbeat⟩
    | some pending =>
        exact (takes_any _).bind fun e' handled hSince => settle_takes (h.since hSince)
  · rw [if_neg hPhase]
    exact ⟨trivial, h.watchdog, h.heartbeat⟩

/-- A `PONG` arms the watchdog, and nothing else does. -/
theorem obey_takes (action : InboundAction)
    (hPong : action = .pong → Fresh e.heard e.clock)
    (hOther : action ≠ .pong → OnTime e.heard config.watchdogTimeout e.clock state.watchdog)
    (hBeat : OnTime e.beat config.heartbeatInterval e.clock state.heartbeat) :
    Takes e (obey config state action) fun e' state' => Timely config e' state' := by
  cases action with
  | pong =>
      have hFresh := hPong rfl
      unfold obey
      cases hWatchdog : state.watchdog with
      | none =>
          refine ⟨trivial, ?_, hBeat⟩
          rw [hWatchdog]
          exact onTime_none
      | some old =>
          refine (sleep_takes config.watchdogTimeout).bind fun e' watchdog hWatches => ?_
          obtain ⟨hSince, hSoonest, hLatest⟩ := hWatches
          refine ⟨trivial, ?_, ?_⟩
          · rintro t ⟨⟩
            rw [hSince.heard]
            exact hFresh.due hSoonest hLatest
          · rw [hSince.beat]
            exact hBeat.later hSince.clock
  | events events =>
      refine (takes_any (emitAll events)).bind fun e' _ hSince => ?_
      exact ⟨trivial, Timely.since ⟨hOther nofun, hBeat⟩ hSince⟩
  | ignore => exact ⟨trivial, hOther nofun, hBeat⟩

/-! ## Branches -/

theorem inboundPayload_takes (payload : List Byte)
    (hHeard : hears fromStr state (.inbound (some (some payload))) = true → Fresh e.heard e.clock)
    (hOther : hears fromStr state (.inbound (some (some payload))) = false →
      OnTime e.heard config.watchdogTimeout e.clock state.watchdog)
    (hBeat : OnTime e.beat config.heartbeatInterval e.clock state.heartbeat) :
    Takes e (inboundPayload config fromStr state payload) fun e' state' =>
      Timely config e' state' := by
  unfold hears at hHeard hOther
  unfold inboundPayload
  cases hSession : state.session with
  | none =>
      simp only [hSession] at hOther
      exact ⟨trivial, hOther trivial, hBeat⟩
  | some session =>
      simp only [hSession] at hHeard hOther
      dsimp only
      generalize session.routeInbound fromStr payload = routed at hHeard hOther ⊢
      obtain ⟨action, session'⟩ := routed
      refine Stays.bind (obey_takes action ?_ ?_ hBeat) fun e' state' hTimely =>
        dispatchQueued_takes session' hTimely
      · rintro rfl
        exact hHeard rfl
      · intro hNot
        refine hOther ?_
        cases action with
        | pong => exact absurd rfl hNot
        | events events => rfl
        | ignore => rfl

theorem readerExited_takes (h : Timely config e state) :
    Takes e (readerExited config state) fun e' state' => Timely config e' state' := by
  unfold readerExited
  by_cases hSession : state.session.isSome
  · rw [if_pos hSession]
    exact connectionLost_takes hSession
  · rw [if_neg hSession]
    exact ⟨trivial, h.watchdog, h.heartbeat⟩

theorem watchdogFired_takes (h : Timely config e state) :
    Takes e (watchdogFired config state) fun e' state' => Timely config e' state' := by
  unfold watchdogFired
  by_cases hSession : state.session.isSome
  · rw [if_pos hSession]
    exact connectionLost_takes hSession
  · rw [if_neg hSession]
    exact ⟨trivial, onTime_none, h.heartbeat⟩

theorem heartbeatFired_takes
    (hHeard : OnTime e.heard config.watchdogTimeout e.clock state.watchdog)
    (hBeat : Fresh e.beat e.clock) :
    Takes e (heartbeatFired config state) fun e' state' => Timely config e' state' := by
  unfold heartbeatFired
  cases hSession : state.session with
  | none => exact ⟨trivial, hHeard, onTime_none⟩
  | some session =>
      refine (takes_any (sendPayload session.transport .heartbeat)).bind fun e₁ sent h₁ => ?_
      cases sent with
      | error error => exact connectionLost_takes (by rw [hSession]; rfl)
      | ok _ =>
          refine (sleep_takes config.heartbeatInterval).bind fun e₂ heartbeat hBeats => ?_
          obtain ⟨h₂, hSoonest, hLatest⟩ := hBeats
          have hAll := h₁.trans h₂
          refine ⟨trivial, ?_, ?_⟩
          · rw [hAll.heard]
            exact hHeard.later hAll.clock
          · rintro t ⟨⟩
            rw [hAll.beat]
            refine hBeat.due ?_ hLatest
            exact Nat.le_trans (Nat.add_le_add_right h₁.clock _) hSoonest

theorem selectDevice_takes (device : CastDevice) (hInv : RunInv state)
    (hHeard : Fresh e.heard e.clock) (hBeat : Fresh e.beat e.clock) :
    Takes e (selectDevice config state device) fun e' state' => Timely config e' state' := by
  refine (takes_of_ensures (teardownSession_ensures state)).bind fun e₁ torn h₁ => ?_
  obtain ⟨hSince, ops, hTorn⟩ := h₁
  have hUnarmed := teardown_unarmed hTorn hInv
  have hHeard' : Fresh e₁.heard e₁.clock := by
    rw [hSince.heard]
    exact ⟨hHeard.parked, Nat.le_trans hHeard.picked hSince.clock⟩
  have hBeat' : Fresh e₁.beat e₁.clock := by
    rw [hSince.beat]
    exact ⟨hBeat.parked, Nat.le_trans hBeat.picked hSince.clock⟩
  refine Stays.bind (establish_takes device hHeard' hBeat'
    ⟨hUnarmed.watchdog, hUnarmed.heartbeat⟩) fun e₂ made h₂ => ?_
  obtain ⟨result, state'⟩ := made
  obtain ⟨hTimely, -⟩ := h₂
  cases result with
  | ok _ => exact ⟨trivial, hTimely⟩
  | error error =>
      refine (takes_any (ask (.emit (.error error)))).bind fun e₃ _ h₃ => ?_
      have hLater := hTimely.since h₃
      exact ⟨trivial, hLater.watchdog, hLater.heartbeat⟩

theorem reconnectFired_takes (hInv : RunInv state) (hReconnect : state.reconnect.isSome)
    (hHeard : Fresh e.heard e.clock) (hBeat : Fresh e.beat e.clock) :
    Takes e (reconnectFired config state) fun e' state' => Timely config e' state' := by
  obtain ⟨attempt, hAttempt⟩ := Option.isSome_iff_exists.mp hReconnect
  have hDetached := hInv.detached (hInv.single.resolve_right (by simp [hAttempt]))
  unfold reconnectFired
  rw [hAttempt]
  refine Stays.bind (establish_takes attempt.device hHeard hBeat
    ⟨hDetached.watchdog, hDetached.heartbeat⟩) fun e₁ made h₁ => ?_
  obtain ⟨result, state'⟩ := made
  obtain ⟨hTimely, hSame⟩ := h₁
  cases result with
  | ok _ => exact ⟨trivial, hTimely⟩
  | error error =>
      have hUnarmed : Unarmed state' := by
        rw [show state' = _ from hSame rfl]
        exact ⟨hDetached.watchdog, hDetached.heartbeat⟩
      dsimp only
      cases attempt.backoff.next with
      | some next =>
          refine (sleep_takes next.1).bind fun e₂ delay h₂ => ?_
          exact ⟨trivial, Unarmed.timely ⟨hUnarmed.watchdog, hUnarmed.heartbeat⟩⟩
      | none =>
          refine (takes_any (ask _)).bind fun e₂ _ h₂ => ?_
          exact ⟨trivial, Unarmed.timely ⟨hUnarmed.watchdog, hUnarmed.heartbeat⟩⟩

theorem reap_takes (h : Timely config e state) :
    Takes e (reap state) fun e' state' => Timely config e' state' := by
  unfold reap
  cases state.session with
  | none => exact ⟨trivial, h⟩
  | some session =>
      refine (takes_any (ask .now)).bind fun e' now hSince => ?_
      have hLater := h.since hSince
      exact ⟨trivial, hLater.watchdog, hLater.heartbeat⟩

/-- What a branch finds when it is picked. -/
structure PickedWell (config : ConnectionConfig) (fromStr : String → Option Json) (e : Timed)
    (state : RunState) (b : Branch) : Prop where
  heardFresh : (connects b || hears fromStr state b) = true → Fresh e.heard e.clock
  heardKept : (connects b || hears fromStr state b) = false →
    OnTime e.heard config.watchdogTimeout e.clock state.watchdog
  beatFresh : (connects b || beats b) = true → Fresh e.beat e.clock
  beatKept : (connects b || beats b) = false →
    OnTime e.beat config.heartbeatInterval e.clock state.heartbeat

theorem Timely.picked {b : Branch} (h : Timely config e state)
    (hSame : e' = picked fromStr state b e e'.clock) : PickedWell config fromStr e' state b := by
  have hHeard : e'.heard = e.heard.pick (connects b || hears fromStr state b) e.clock e'.clock := by
    rw [hSame]
    rfl
  have hBeat : e'.beat = e.beat.pick (connects b || beats b) e.clock e'.clock := by
    rw [hSame]
    rfl
  refine ⟨?_, ?_, ?_, ?_⟩
  · rw [hHeard]
    exact fresh_pick
  · rw [hHeard]
    exact h.watchdog.pick
  · rw [hBeat]
    exact fresh_pick
  · rw [hBeat]
    exact h.heartbeat.pick

/-- Back at the `select!` the timers are on time. -/
def Returns (config : ConnectionConfig) (e : Timed) : Flow RunState → Prop
  | .park state => Timely config e state
  | .exit _ => True

theorem returns_park {p : Cast RunState}
    (h : Takes e p fun e' state' => Timely config e' state') :
    Takes e (do return .park (← p)) (Returns config) :=
  h.bind fun _ _ hTimely => ⟨trivial, hTimely⟩

theorem branchBody_takes {b : Branch} (hGuard : branchGuard state b) (hInv : RunInv state)
    (h : PickedWell config fromStr e state b) :
    Takes e (branchBody config fromStr state b) (Returns config) := by
  have hExit : Takes e (do return Flow.exit (← teardownSession state)) (Returns config) :=
    (takes_any (teardownSession state)).bind fun _ _ _ => ⟨trivial, trivial⟩
  match b with
  | .command none => exact ⟨trivial, trivial⟩
  | .command (some .shutdown) => exact hExit
  | .command (some (.select device)) =>
      exact returns_park (selectDevice_takes device hInv (h.heardFresh rfl) (h.beatFresh rfl))
  | .command (some .launchDefaultReceiver)
  | .command (some (.load _))
  | .command (some .play)
  | .command (some .pause)
  | .command (some .stop)
  | .command (some (.setVolume _ _))
  | .command (some .getStatus) =>
      exact returns_park (sessionCommand_takes _ ⟨h.heardKept rfl, h.beatKept rfl⟩)
  | .inbound (some (some payload)) =>
      exact returns_park (inboundPayload_takes payload h.heardFresh h.heardKept (h.beatKept rfl))
  | .inbound (some none) | .inbound none =>
      exact returns_park (readerExited_takes ⟨h.heardKept rfl, h.beatKept rfl⟩)
  | .heartbeat => exact returns_park (heartbeatFired_takes (h.heardKept rfl) (h.beatFresh rfl))
  | .watchdog => exact returns_park (watchdogFired_takes ⟨h.heardKept rfl, h.beatKept rfl⟩)
  | .reconnect =>
      exact returns_park
        (reconnectFired_takes hInv hGuard (h.heardFresh rfl) (h.beatFresh rfl))
  | .shutdown => exact hExit

theorem runBody_takes {b : Branch} (hGuard : branchGuard state b) (hInv : RunInv state)
    (h : PickedWell config fromStr e state b) :
    Takes e (runBody config fromStr state b) (Returns config) := by
  refine (branchBody_takes hGuard hInv h).bind fun e' flow hFlow => ?_
  cases flow with
  | exit state' => exact ⟨trivial, trivial⟩
  | park state' => exact returns_park (reap_takes hFlow)

theorem exists_alternating (device : Option CastDevice) : ∃ events, Alternating events device := by
  cases device with
  | none => exact ⟨[], .start⟩
  | some device => exact ⟨_, .connected .start⟩

/-- A turn keeps `RunInv`. -/
theorem runBody_runInv {b : Branch} (hGuard : branchGuard state b) (hInv : RunInv state) :
    Takes e (runBody config fromStr state b) fun _ flow =>
      ∀ state', flow = .park state' → RunInv state' := by
  have hTurn : Ensures (runBody config fromStr state b) fun ops o =>
      TurnEffect config fromStr state b ops (stageOf o) := by
    intro ops o hExec
    have hTakes : (run config fromStr).TakesTurn state ⟨b, ops⟩ (stageOf o) :=
      ⟨hGuard, o, hExec, rfl⟩
    exact run_turnEffect config fromStr hTakes
  refine (takes_of_ensures hTurn).mono ?_
  rintro e' flow ⟨-, ops, hEffect⟩ state' rfl
  obtain ⟨events, hEvents⟩ := exists_alternating (linked state)
  exact (TurnEffect.kept hEffect hInv hEvents).invariant

/-! ## Runs -/

variable {trace : List (Move (Control castSig RunState × Timed) (Label castSig Branch Empty))}

/-- The run lemma. -/
theorem run_timely (hRun : Run (timed config fromStr) trace (.parked state, e)) :
    Timely config e state ∧ RunInv state := by
  have hAnytime : AtAnytime answers (fun _ => True)
      (fun e state => Timely config e state ∧ RunInv state) (fun _ => True) e (.parked state) := by
    refine loopStays hRun ?_ ?_
    · rintro e rfl
      refine Stays.perform trivial fun _ e' _ => ⟨trivial, ?_, runInv_new⟩
      exact ⟨onTime_none, onTime_none⟩
    · rintro e state b e' ⟨hTimely, hInv⟩ hGuard ⟨-, -, hSame⟩
      refine ((runBody_takes hGuard hInv (hTimely.picked hSame)).and
        (runBody_runInv hGuard hInv)).mono fun e'' flow h => ?_
      cases flow with
      | park state' => exact ⟨h.1, h.2 state' rfl⟩
      | exit state' => trivial
  exact hAnytime.2

/-- **The heartbeat and the watchdog are on time.**  In every run, whatever is
commanded, received or fails, and however long it takes: with a session, the
watchdog is picked only when for its time nothing was connected and no `PONG`
was received, and it can be picked as soon as the task has been waiting that
long; a heartbeat is sent only when its interval has passed since the
connection or the heartbeat before, and can be as soon as the task has been
waiting that long. -/
theorem watchdog_timely (hRun : Run (timed config fromStr) trace (.parked state, e))
    (hSession : state.session.isSome) :
    (∀ e', fires fromStr e state .watchdog e' →
      e.heard.picked + config.watchdogTimeout ≤ e'.clock) ∧
    (∀ e', fires fromStr e state .heartbeat e' →
      e.beat.picked + config.heartbeatInterval ≤ e'.clock) ∧
    (∀ now, e.clock ≤ now → e.heard.parked.getD e.clock + config.watchdogTimeout ≤ now →
      branchGuard state .watchdog ∧
        fires fromStr e state .watchdog (picked fromStr state .watchdog e now)) ∧
    (∀ now, e.clock ≤ now → e.beat.parked.getD e.clock + config.heartbeatInterval ≤ now →
      branchGuard state .heartbeat ∧
        fires fromStr e state .heartbeat (picked fromStr state .heartbeat e now)) := by
  obtain ⟨hTimely, hInv⟩ := run_timely hRun
  have hWatchdog : state.watchdog.isSome := hInv.watchdog.trans hSession
  have hHeartbeat : state.heartbeat.isSome := hInv.heartbeat.trans hSession
  refine ⟨?_, ?_, ?_, ?_⟩
  · rintro e' ⟨-, hDue, -⟩
    obtain ⟨timer, hTimer⟩ := Option.isSome_iff_exists.mp hWatchdog
    exact Nat.le_trans (hTimely.watchdog timer hTimer).soonest (hDue timer hTimer)
  · rintro e' ⟨-, hDue, -⟩
    obtain ⟨timer, hTimer⟩ := Option.isSome_iff_exists.mp hHeartbeat
    exact Nat.le_trans (hTimely.heartbeat timer hTimer).soonest (hDue timer hTimer)
  · intro now hNow hLong
    refine ⟨hWatchdog, hNow, fun timer hTimer => ?_, rfl⟩
    exact Nat.le_trans (hTimely.watchdog timer hTimer).latest hLong
  · intro now hNow hLong
    refine ⟨hHeartbeat, hNow, fun timer hTimer => ?_, rfl⟩
    exact Nat.le_trans (hTimely.heartbeat timer hTimer).latest hLong

/-- A receiver that was selected at once is not given up in the first ten
seconds. -/
theorem livingRoom_timely : ∃ trace state e,
    Run (timed .default fun _ => none) trace (.parked state, e) ∧ state.session.isSome ∧
      ∀ e', fires (fun _ => none) e state .watchdog e' → 10000 ≤ e'.clock := by
  let L := run .default fun _ => none
  let select : Branch := .command (some (.select livingRoom))
  let e : Timed := ⟨0, ⟨0, none⟩, ⟨0, none⟩⟩
  have hOracle : ∀ op, answers e op (obliging 0 op) e := by
    intro op
    cases op with
    | now => exact ⟨Nat.le_refl 0, rfl, rfl⟩
    | subscribe | connect device | write transport message | close transport | channel
    | spawnReader transport channel | emit event => exact ⟨Nat.le_refl 0, rfl⟩
  have hStart : Run (timed .default fun _ => none) [] (.running L.prelude, e) := .start ⟨rfl, rfl⟩
  obtain ⟨_, hOpened⟩ := run_oracle hOracle hStart
  have hParked : Run (timed .default fun _ => none) _ (.parked .new, e) := hOpened.step (.park rfl)
  have hPicked : fires (fun _ => none) e .new select e := ⟨Nat.le_refl 0, nofun, rfl⟩
  have hGuard : L.guard .new select := trivial
  have hFired := hParked.step (.fire hGuard hPicked)
  obtain ⟨_, hSelected⟩ := run_oracle hOracle hFired
  have hRun := hSelected.step (.park rfl)
  refine ⟨_, _, _, hRun, rfl, fun e' hFires => ?_⟩
  have hSoonest : 0 + ConnectionConfig.default.watchdogTimeout ≤ e'.clock :=
    (watchdog_timely hRun rfl).1 e' hFires
  exact Nat.le_trans (by decide) hSoonest

end CastApp.Cast.Timers
