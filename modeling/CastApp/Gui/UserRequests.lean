import CastApp.Gui.Controls
import CastApp.Runtime.Notices
import CastApp.Verified.Transition

/-!
# The window and the supervisor

The window between two inputs, the supervisor between two turns, and the two
channels between them.  The user clicks what is there to be clicked; the
connection task, discovery and the screen may tell anything at any time.
`History` records what no party keeps: the sources that were chosen, the one
that is served, and the warnings.

* `Consistent`, `Faithful` — what every step keeps, and `run_consistent`, the
  run lemma.
* **`consent_asked_once`** — a question for the wildcard bind, or its answer,
  is in exactly one place.
* **`played_as_chosen`** — what is loaded is what was chosen.
* **`warning_shown`** — a certificate warning stays until it is dismissed.
-/

namespace CastApp.Gui.UserRequests

open CastApp.Cast.Session (ConnectionEvent Fingerprint LoadRequest)
open CastApp.Gui.Controls
open CastApp.Gui.Dashboard
open CastApp.Media.MediaServer (ActiveSource)
open CastApp.Media.SmbSource (UrlParser)
open CastApp.Runtime.EventRelay
open CastApp.Runtime.Notices
open CastApp.Runtime.Supervisor
open CastApp.State
open CastApp.Verified.Coroutine
open CastApp.Verified.EventLoop
open CastApp.Verified.Transition

/-! ## What is on its way -/

def isRequest : BackendEvent → Bool
  | .bindFallbackRequested _ => true
  | _ => false

def isAnswer : AppCommand → Bool
  | .bindFallback _ => true
  | _ => false

def isPlay : AppCommand → Bool
  | .play => true
  | _ => false

/-- The source behind some commands. -/
def sourceAfter (source : Option ActiveSource) : List AppCommand → Option ActiveSource
  | [] => source
  | command :: commands => sourceAfter ((sourceOf command).or source) commands

/-- For each `Play` among some commands, the source that is selected then. -/
def playsOf (source : Option ActiveSource) : List AppCommand → List (Option ActiveSource)
  | [] => []
  | command :: commands =>
      (if isPlay command then [source] else []) ++
        playsOf ((sourceOf command).or source) commands

theorem sourceAfter_append (source : Option ActiveSource) (xs ys : List AppCommand) :
    sourceAfter source (xs ++ ys) = sourceAfter (sourceAfter source xs) ys := by
  induction xs generalizing source with
  | nil => rfl
  | cons command xs ih => exact ih _

theorem playsOf_append (source : Option ActiveSource) (xs ys : List AppCommand) :
    playsOf source (xs ++ ys) = playsOf source xs ++ playsOf (sourceAfter source xs) ys := by
  induction xs generalizing source with
  | nil => rfl
  | cons command xs ih =>
      show _ ++ playsOf _ (xs ++ ys) = (_ ++ playsOf _ xs) ++ _
      rw [ih, List.append_assoc]
      rfl

/-- The source that was set last. -/
def servedAfter (served : Option ActiveSource) : List Shown → Option ActiveSource
  | [] => served
  | .served source :: shown => servedAfter (some source) shown
  | _ :: shown => servedAfter served shown

/-! ## The application -/

structure History where
  /-- The source the user chose last. -/
  chosen : Option ActiveSource
  /-- What was chosen when each `Play` was pressed that is still on its way. -/
  plays : List (Option ActiveSource)
  /-- The source the media server was given last. -/
  served : Option ActiveSource
  /-- The warnings of the events the supervisor has taken. -/
  told : List String
  /-- The warnings the window has drained. -/
  seen : List String
  /-- How many it had when the user dismissed the notice last. -/
  dismissed : Nat

structure Application where
  supervisor : Stage supervisorSig SupervisorState
  window : Window
  commands : List AppCommand
  events : List BackendEvent
  history : History

namespace Application

/-- A turn of the supervisor has left these commands. -/
def turn (s : Application) (turn : Turn supervisorSig Branch)
    (supervisor' : Stage supervisorSig SupervisorState) (commands' : List AppCommand) :
    Application :=
  { s with
    supervisor := supervisor'
    commands := commands'
    events := s.events ++ emitsOf turn.ops
    history := { s.history with
      plays := s.history.plays.drop ((obeyed turn.branch).countP isPlay)
      served := servedAfter s.history.served (shows turn.ops)
      told := s.history.told ++ warningsOf (received turn.branch ++ drainedOf turn.ops) } }

def tell (s : Application) (event : BackendEvent) : Application :=
  { s with events := s.events ++ [event] }

/-- `handle_events`, with the events that are there. -/
def drain (s : Application) (batch rest : List BackendEvent) : Application :=
  { s with
    window := { s.window with dashboard := (s.window.dashboard.handleEvents batch).1 }
    events := rest
    history := { s.history with seen := s.history.seen ++ batch.filterMap warningOf } }

def click (s : Application) (click : Click) : Application :=
  { s with
    window := (click.handle s.window).1
    commands := s.commands ++ (click.handle s.window).2
    history := { s.history with
      chosen := sourceAfter s.history.chosen (click.handle s.window).2
      plays := s.history.plays ++ playsOf s.history.chosen (click.handle s.window).2
      dismissed :=
        match click with
        | .dismissWarning => s.history.seen.length
        | _ => s.history.dismissed } }

end Application

inductive Label : Type
  | supervisor (turn : Turn supervisorSig Branch)
  | elsewhere (event : BackendEvent)
  | drain (batch : List BackendEvent)
  | click (click : Click)

/-- What discovery and the screen tell the window. -/
def Elsewhere : BackendEvent → Prop
  | .receiversUpdated _ | .streamError _ => True
  | _ => False

section System

variable (parseUrl : UrlParser) (urlPath : UrlPath)
variable (discovery : Except IoError Unit) (initialPort : UInt16)

inductive Step (s : Application) : Label → Application → Prop
  | supervisor {state : SupervisorState} {turn : Turn supervisorSig Branch}
      {supervisor' : Stage supervisorSig SupervisorState} {commands' : List AppCommand}
      (hSupervisor : s.supervisor = .parked state)
      (hTurn : (supervise urlPath discovery initialPort).TakesTurn state turn supervisor')
      (hCommands : s.commands = obeyed turn.branch ++ commands') :
      Step s (.supervisor turn) (s.turn turn supervisor' commands')
  | elsewhere (event : BackendEvent) (hElsewhere : Elsewhere event) :
      Step s (.elsewhere event) (s.tell event)
  | drain {batch rest : List BackendEvent} (hEvents : s.events = batch ++ rest) :
      Step s (.drain batch) (s.drain batch rest)
  | click (click : Click) (hEnabled : click.Enabled parseUrl s.window) :
      Step s (.click click) (s.click click)

/-- The backend has started and the window is open. -/
structure Started (s : Application) : Prop where
  supervisor : ∃ ops o,
    Exec (supervise urlPath discovery initialPort).prelude ops o ∧ s.supervisor = stageOf o ∧
      s.events = emitsOf ops
  window : ∃ ffmpegAvailable, s.window = .new ffmpegAvailable
  commands : s.commands = []
  history : s.history = ⟨none, [], none, [], [], 0⟩

def application : System Application Label where
  init := Started urlPath discovery initialPort
  step := Step parseUrl urlPath discovery initialPort

end System

/-! ## What every step keeps -/

/-- The questions that are on their way, open, or answered and on their way
back. -/
def questions (s : Application) : Nat :=
  s.events.countP isRequest + s.window.dashboard.bindFallback.isSome.toNat +
    s.commands.countP isAnswer

/-- With a supervisor that waits in `state`. -/
structure Consistent (s : Application) (state : SupervisorState) : Prop where
  asked : questions s = state.fallbackPending.toNat
  chosen : sourceAfter state.currentSource s.commands = s.history.chosen
  plays : playsOf state.currentSource s.commands = s.history.plays
  served : s.history.served = state.currentSource

structure Faithful (s : Application) : Prop where
  active : s.window.hasActiveSource = s.history.chosen.isSome
  pressed : ∀ play ∈ s.history.plays, play.isSome
  told : s.history.told = s.history.seen ++ s.events.filterMap warningOf
  warning : s.window.dashboard.securityWarning =
    (s.history.seen.drop s.history.dismissed).getLast?
  dismissed : s.history.dismissed ≤ s.history.seen.length

/-! ### A turn of the supervisor -/

def isAsked : Shown → Bool
  | .asked => true
  | _ => false

def warnedOf : Shown → Option String
  | .warned message => some message
  | _ => none

def drainedIn : Shown → List ConnectionEvent
  | .drained events => events
  | _ => []

/-- What is shown is what is emitted and drained. -/
theorem shown_emits (ops : Ops) :
    (emitsOf ops).countP isRequest = (shows ops).countP isAsked ∧
      (emitsOf ops).filterMap warningOf = (shows ops).filterMap warnedOf ∧
      drainedOf ops = (shows ops).flatMap drainedIn := by
  induction ops with
  | nil => exact ⟨rfl, rfl, rfl⟩
  | cons e ops ih =>
      obtain ⟨hAsked, hWarned, hDrained⟩ := ih
      have hEntry : (emitOf e).toList.countP isRequest = (shownOf e).countP isAsked ∧
          (emitOf e).toList.filterMap warningOf = (shownOf e).filterMap warnedOf ∧
          drainOf e = (shownOf e).flatMap drainedIn := by
        obtain ⟨op, r⟩ := e
        cases op with
        | emit event => cases event <;> exact ⟨rfl, rfl, rfl⟩
        | server command => cases command <;> exact ⟨rfl, rfl, rfl⟩
        | cast command => cases command <;> exact ⟨rfl, rfl, rfl⟩
        | drainCast => exact ⟨rfl, rfl, (List.append_nil _).symm⟩
        | _ => exact ⟨rfl, rfl, rfl⟩
      have hShows : shows (e :: ops) = shownOf e ++ shows ops := rfl
      rw [emitsOf_cons, drainedOf_cons, hShows, List.countP_append, List.countP_append,
        List.filterMap_append, List.filterMap_append, List.flatMap_append, hAsked, hWarned,
        hDrained, hEntry.1, hEntry.2.1, hEntry.2.2]
      exact ⟨rfl, rfl, rfl⟩

variable {urlPath : UrlPath} {s : Application} {state state' : SupervisorState}
variable {shown : List Shown} {commands' : List AppCommand} {b : Branch}

/-- A turn that goes back to the `select!`. -/
structure Parks (state : SupervisorState) (b : Branch) (shown : List Shown)
    (state' : SupervisorState) : Prop where
  pending : (obeyed b).countP isAnswer ≤ state.fallbackPending.toNat →
    shown.countP isAsked + state.fallbackPending.toNat =
      state'.fallbackPending.toNat + (obeyed b).countP isAnswer
  source : sourceAfter state.currentSource (obeyed b) = state'.currentSource
  served : servedAfter state.currentSource shown = state'.currentSource
  warned : shown.filterMap warnedOf = warningsOf (received b)
  drained : shown.flatMap drainedIn = []

theorem parks_silent (hShown : shown = [])
    (hLeft : Left state.currentSource state.fallbackPending state')
    (hAnswer : (obeyed b).countP isAnswer = 0)
    (hSource : sourceAfter state.currentSource (obeyed b) = state.currentSource)
    (hWarned : warningsOf (received b) = []) : Parks state b shown state' := by
  subst hShown
  refine ⟨fun _ => ?_, hSource.trans hLeft.source.symm, hLeft.source.symm, hWarned.symm, rfl⟩
  rw [hAnswer, hLeft.pending]
  exact Nat.zero_add _

theorem parks_asks (hAsks : Asks state shown state')
    (hAnswer : (obeyed b).countP isAnswer = 0)
    (hSource : sourceAfter state.currentSource (obeyed b) = state.currentSource)
    (hWarned : warningsOf (received b) = []) : Parks state b shown state' := by
  rcases hAsks with ⟨hShown, hLeft⟩ | ⟨rfl, hPending, hLeft⟩
  · exact parks_silent hShown hLeft hAnswer hSource hWarned
  · refine ⟨fun _ => ?_, hSource.trans hLeft.source.symm, hLeft.source.symm, hWarned.symm, rfl⟩
    rw [hAnswer, hPending, hLeft.pending]
    rfl

theorem parks_serves {source : ActiveSource} (hServes : Serves state source shown state')
    (hAnswer : (obeyed b).countP isAnswer = 0)
    (hSource : sourceAfter state.currentSource (obeyed b) = some source)
    (hWarned : warningsOf (received b) = []) : Parks state b shown state' := by
  obtain ⟨rfl, hLeft⟩ := hServes
  refine ⟨fun _ => ?_, hSource.trans hLeft.source.symm, hLeft.source.symm, hWarned.symm, rfl⟩
  rw [hAnswer, hLeft.pending]
  exact Nat.zero_add _

/-- Warnings are nothing else. -/
theorem shown_warnings (served : Option ActiveSource) (messages : List String) :
    (messages.map Shown.warned).countP isAsked = 0 ∧
      servedAfter served (messages.map .warned) = served ∧
      (messages.map Shown.warned).filterMap warnedOf = messages ∧
      (messages.map Shown.warned).flatMap drainedIn = [] := by
  induction messages with
  | nil => exact ⟨rfl, rfl, rfl, rfl⟩
  | cons message messages ih =>
      obtain ⟨hAsked, hServed, hWarned, hDrained⟩ := ih
      exact ⟨hAsked, hServed, congrArg (message :: ·) hWarned, hDrained⟩

theorem turned_parks (h : Turned urlPath state b shown (.park state')) :
    Parks state b shown state' := by
  match b with
  | .command (some command) =>
      cases command with
      | selectReceiver device => exact parks_asks h rfl rfl rfl
      | manualConnect addr => exact parks_asks h rfl rfl rfl
      | bindFallback consent =>
          obtain ⟨rfl, hLeft⟩ := h
          refine ⟨fun hAnswer => ?_, hLeft.source.symm, hLeft.source.symm, rfl, rfl⟩
          have hOne : 1 ≤ state.fallbackPending.toNat := hAnswer
          have hLe := Bool.toNat_le state.fallbackPending
          rw [hLeft.pending]
          show 0 + state.fallbackPending.toNat = 0 + 1
          omega
      | selectSource tab => exact parks_silent h.1 h.2 rfl rfl rfl
      | selectDisplay monitor => exact parks_serves h rfl rfl rfl
      | selectFile path => exact parks_serves h rfl rfl rfl
      | selectUrl url => exact parks_serves h rfl rfl rfl
      | play =>
          obtain ⟨rfl | ⟨source, port, -, rfl⟩, hLeft⟩ := h
          · exact parks_silent rfl hLeft rfl rfl rfl
          · refine ⟨fun _ => ?_, hLeft.source.symm, hLeft.source.symm, rfl, rfl⟩
            rw [hLeft.pending]
            exact Nat.zero_add _
      | pause => exact parks_silent h.1 h.2 rfl rfl rfl
      | stop => exact parks_silent h.1 h.2 rfl rfl rfl
      | setVolume level => exact parks_silent h.1 h.2 rfl rfl rfl
      | mute muted => exact parks_silent h.1 h.2 rfl rfl rfl
      | setProxyPort port => exact parks_silent h.1 h.2 rfl rfl rfl
      | rescan => exact parks_silent h.1 h.2 rfl rfl rfl
  | .event (some event) =>
      obtain ⟨rfl, hLeft⟩ := h
      obtain ⟨hAsked, hServed, hWarned, hDrained⟩ :=
        shown_warnings state.currentSource (warningsOf [event])
      refine ⟨fun _ => ?_, hLeft.source.symm, hServed.trans hLeft.source.symm, hWarned, hDrained⟩
      rw [hAsked, hLeft.pending]
      exact Nat.zero_add _
  | .port alive => exact parks_silent h.1 h.2 rfl rfl rfl
  | .command none => exact parks_silent h.1 h.2 rfl rfl rfl
  | .event none => exact parks_silent h.1 h.2 rfl rfl rfl
  | .shutdown => exact parks_silent h.1 h.2 rfl rfl rfl

/-- What is told to the window of the events that were taken. -/
theorem turned_warns {flow : Flow SupervisorState} (h : Turned urlPath state b shown flow) :
    shown.filterMap warnedOf = warningsOf (received b ++ shown.flatMap drainedIn) := by
  cases flow with
  | park state' =>
      have hParks := turned_parks h
      rw [hParks.drained, List.append_nil]
      exact hParks.warned
  | exit state' =>
      obtain ⟨-, hReceived, events, rfl⟩ := h
      obtain ⟨-, -, hWarned, hDrained⟩ := shown_warnings none (warningsOf events)
      rw [hReceived, List.nil_append, List.flatMap_cons, hDrained, List.append_nil,
        List.filterMap_cons_none rfl]
      exact hWarned

variable {discovery : Except IoError Unit} {initialPort : UInt16}
variable {turn : Turn supervisorSig Branch} {supervisor' : Stage supervisorSig SupervisorState}

theorem turn_turned
    (hTurn : (supervise urlPath discovery initialPort).TakesTurn state turn supervisor') :
    ∃ flow, supervisor' = stageOf (.value flow) ∧
      Turned urlPath state turn.branch (shows turn.ops) flow := by
  obtain ⟨-, o, hExec, rfl⟩ := hTurn
  obtain ⟨flow, rfl, hTurned⟩ := branchBody_tells turn.branch turn.ops o hExec
  exact ⟨flow, rfl, hTurned⟩

theorem length_playsOf (source : Option ActiveSource) (commands : List AppCommand) :
    (playsOf source commands).length = commands.countP isPlay := by
  induction commands generalizing source with
  | nil => rfl
  | cons command commands ih =>
      rw [List.countP_cons, ← ih ((sourceOf command).or source), Nat.add_comm]
      show (_ ++ playsOf _ commands).length = _
      rw [List.length_append]
      cases isPlay command <;> rfl

/-- A turn of the supervisor. -/
theorem Consistent.turned (h : Consistent s state)
    (hParks : Parks state turn.branch (shows turn.ops) state')
    (hCommands : s.commands = obeyed turn.branch ++ commands') :
    Consistent (s.turn turn supervisor' commands') state' := by
  have hAsked := h.asked
  have hChosen := h.chosen
  have hPlays := h.plays
  rw [questions, hCommands, List.countP_append] at hAsked
  rw [hCommands, sourceAfter_append, hParks.source] at hChosen
  rw [hCommands, playsOf_append, hParks.source] at hPlays
  have hPending := hParks.pending (by omega)
  refine ⟨?_, hChosen, ?_, ?_⟩
  · show (s.events ++ emitsOf turn.ops).countP isRequest +
      s.window.dashboard.bindFallback.isSome.toNat + commands'.countP isAnswer = _
    rw [List.countP_append, (shown_emits turn.ops).1]
    omega
  · show playsOf state'.currentSource commands' =
      s.history.plays.drop ((obeyed turn.branch).countP isPlay)
    rw [← hPlays, ← length_playsOf state.currentSource, List.drop_left]
  · show servedAfter s.history.served (shows turn.ops) = _
    rw [h.served, hParks.served]

theorem Faithful.turned {flow : Flow SupervisorState} (h : Faithful s)
    (hTurned : Turned urlPath state turn.branch (shows turn.ops) flow) :
    Faithful (s.turn turn supervisor' commands') := by
  refine ⟨h.active, fun play hPlay => h.pressed play (List.mem_of_mem_drop hPlay), ?_,
    h.warning, h.dismissed⟩
  show s.history.told ++ warningsOf (received turn.branch ++ drainedOf turn.ops) =
    s.history.seen ++ (s.events ++ emitsOf turn.ops).filterMap warningOf
  obtain ⟨-, hWarned, hDrained⟩ := shown_emits turn.ops
  rw [List.filterMap_append, hWarned, hDrained, turned_warns hTurned, h.told, List.append_assoc]

/-! ### A drain -/

theorem applyEvent_prompt (dashboard : CastDashboard) (event : BackendEvent) :
    (dashboard.applyEvent event).bindFallback.isSome =
      (isRequest event || dashboard.bindFallback.isSome) := by
  cases event <;> rfl

theorem applyEvent_warning (dashboard : CastDashboard) (event : BackendEvent) :
    (dashboard.applyEvent event).securityWarning =
      (warningOf event).or dashboard.securityWarning := by
  cases event <;> rfl

/-- A question that arrives is opened; there is none open before. -/
theorem drain_asked {dashboard : CastDashboard} {batch rest : List BackendEvent} {n : Nat}
    {pending : Bool}
    (h : (batch ++ rest).countP isRequest + dashboard.bindFallback.isSome.toNat + n =
      pending.toNat) :
    rest.countP isRequest + (dashboard.handleEvents batch).1.bindFallback.isSome.toNat + n =
      pending.toNat := by
  induction batch generalizing dashboard with
  | nil => exact h
  | cons event batch ih =>
      refine ih ?_
      have hLe := Bool.toNat_le pending
      rw [applyEvent_prompt]
      rw [List.cons_append, List.countP_cons] at h
      cases hEvent : isRequest event with
      | true =>
          rw [hEvent] at h
          simp only [if_true, Bool.true_or, Bool.toNat_true] at h ⊢
          omega
      | false =>
          rw [hEvent] at h
          simpa using h

theorem drain_warning (dashboard : CastDashboard) (batch : List BackendEvent) :
    (dashboard.handleEvents batch).1.securityWarning =
      (batch.filterMap warningOf).getLast?.or dashboard.securityWarning := by
  induction batch generalizing dashboard with
  | nil => rfl
  | cons event batch ih =>
      show (CastDashboard.handleEvents (dashboard.applyEvent event) batch).1.securityWarning = _
      rw [ih, applyEvent_warning, List.filterMap_cons]
      cases warningOf event with
      | none => rfl
      | some message =>
          cases hRest : batch.filterMap warningOf with
          | nil => rfl
          | cons next messages => simp [List.getLast?_cons]

/-! ### A click -/

variable {parseUrl : UrlParser} {w : Window} {click : Click}

/-- What a click does to what is followed here. -/
structure Handles (w : Window) (click : Click) (w' : Window) (commands : List AppCommand) :
    Prop where
  answers : commands.countP isAnswer + w'.dashboard.bindFallback.isSome.toNat =
    w.dashboard.bindFallback.isSome.toNat
  warning : w'.dashboard.securityWarning =
    match click with
    | .dismissWarning => none
    | _ => w.dashboard.securityWarning
  active : ∀ source : Option ActiveSource, w.hasActiveSource = source.isSome →
    w'.hasActiveSource = (sourceAfter source commands).isSome
  pressed : ∀ source : Option ActiveSource, w.hasActiveSource = source.isSome →
    ∀ play ∈ playsOf source commands, play.isSome

/-- Nothing of it. -/
theorem handles_rest {w' : Window} {commands : List AppCommand}
    (hAnswers : commands.countP isAnswer = 0)
    (hPrompt : w'.dashboard.bindFallback = w.dashboard.bindFallback)
    (hWarning : w'.dashboard.securityWarning =
      match click with
      | .dismissWarning => none
      | _ => w.dashboard.securityWarning)
    (hActive : w'.hasActiveSource = w.hasActiveSource)
    (hSource : ∀ source : Option ActiveSource, sourceAfter source commands = source)
    (hPlays : ∀ source : Option ActiveSource, playsOf source commands = []) :
    Handles w click w' commands := by
  refine ⟨?_, hWarning, ?_, ?_⟩
  · rw [hAnswers, hPrompt, Nat.zero_add]
  · intro source hHas
    rw [hSource, hActive, hHas]
  · intro source _ play hPlay
    rw [hPlays] at hPlay
    cases hPlay

theorem handle_handles (hEnabled : click.Enabled parseUrl w) :
    Handles w click (click.handle w).1 (click.handle w).2 := by
  have hNone : ∀ source : Option ActiveSource, sourceAfter source [] = source := fun _ => rfl
  cases click with
  | settings | manualConnection | typeIp _ | typePort _ | browse | typeUrl _ | drag _
  | dragStopped | track _ | dismissWarning | dismissError | draftPort _ | cancel =>
      exact handles_rest rfl rfl rfl rfl hNone fun _ => rfl
  | retry | tab _ | pause | stop | mute | save | receiver _ =>
      exact handles_rest rfl rfl rfl rfl (fun _ => rfl) fun _ => rfl
  | connect parsed =>
      cases parsed with
      | ok addr => exact handles_rest rfl rfl rfl rfl (fun _ => rfl) fun _ => rfl
      | error message => exact handles_rest rfl rfl rfl rfl hNone fun _ => rfl
  | display name => exact ⟨Nat.zero_add _, rfl, fun _ _ => rfl, fun _ _ => nofun⟩
  | apply => exact ⟨Nat.zero_add _, rfl, fun _ _ => rfl, fun _ _ => nofun⟩
  | picked path =>
      cases path with
      | some path => exact ⟨Nat.zero_add _, rfl, fun _ _ => rfl, fun _ _ => nofun⟩
      | none => exact handles_rest rfl rfl rfl rfl hNone fun _ => rfl
  | play =>
      refine ⟨Nat.zero_add _, rfl, fun _ hHas => hHas, ?_⟩
      intro source hHas play hPlay
      have hCan : w.canPlay = true := hEnabled
      rw [Window.canPlay, Bool.and_eq_true, hHas] at hCan
      obtain rfl := List.mem_singleton.mp hPlay
      exact hCan.2
  | answer consent =>
      have hOpen : w.dashboard.bindFallback.isSome = true := hEnabled
      refine ⟨?_, rfl, fun _ hHas => hHas, fun _ _ => nofun⟩
      rw [hOpen]
      rfl
  | frame now =>
      show Handles w _ (w.pollAndDispatchVolume now).1 (w.pollAndDispatchVolume now).2
      unfold Window.pollAndDispatchVolume
      match w.volumeThrottle.poll now with
      | (none, throttle) => exact handles_rest rfl rfl rfl rfl hNone fun _ => rfl
      | (some level, throttle) => exact handles_rest rfl rfl rfl rfl (fun _ => rfl) fun _ => rfl

/-! ### The run lemma -/

variable {s' : Application} {label : Label}

theorem step_faithful (hStep : Step parseUrl urlPath discovery initialPort s label s')
    (h : Faithful s) : Faithful s' := by
  cases hStep with
  | supervisor hSupervisor hTurn hCommands =>
      obtain ⟨flow, -, hTurned⟩ := turn_turned hTurn
      exact h.turned hTurned
  | elsewhere event hElsewhere =>
      refine ⟨h.active, h.pressed, ?_, h.warning, h.dismissed⟩
      show s.history.told = s.history.seen ++ (s.events ++ [event]).filterMap warningOf
      have hNone : [event].filterMap warningOf = [] := by
        cases event <;> first | rfl | exact hElsewhere.elim
      rw [List.filterMap_append, hNone, List.append_nil]
      exact h.told
  | @drain batch rest hEvents =>
      refine ⟨h.active, h.pressed, ?_, ?_, ?_⟩
      · show s.history.told =
          (s.history.seen ++ batch.filterMap warningOf) ++ rest.filterMap warningOf
        rw [h.told, hEvents, List.filterMap_append, List.append_assoc]
      · show (s.window.dashboard.handleEvents batch).1.securityWarning =
          ((s.history.seen ++ batch.filterMap warningOf).drop s.history.dismissed).getLast?
        rw [drain_warning, h.warning, List.drop_append_of_le_length h.dismissed,
          List.getLast?_append]
      · show s.history.dismissed ≤ (s.history.seen ++ batch.filterMap warningOf).length
        rw [List.length_append]
        exact Nat.le_add_right_of_le h.dismissed
  | click click hEnabled =>
      have hHandles := handle_handles hEnabled
      refine ⟨hHandles.active _ h.active, ?_, h.told, ?_, ?_⟩
      · intro play hPlay
        rcases List.mem_append.mp hPlay with hBefore | hNow
        · exact h.pressed play hBefore
        · exact hHandles.pressed _ h.active play hNow
      · show (click.handle s.window).1.dashboard.securityWarning = _
        rw [hHandles.warning]
        cases click with
        | dismissWarning =>
            show none = (s.history.seen.drop s.history.seen.length).getLast?
            rw [List.drop_length]
            rfl
        | _ => exact h.warning
      · cases click with
        | dismissWarning => exact Nat.le_refl _
        | _ => exact h.dismissed

theorem step_consistent (hStep : Step parseUrl urlPath discovery initialPort s label s')
    (h : ∀ state, s.supervisor = .parked state → Consistent s state)
    (hParked : s'.supervisor = .parked state') : Consistent s' state' := by
  cases hStep with
  | supervisor hSupervisor hTurn hCommands =>
      obtain ⟨flow, hFlow, hTurned⟩ := turn_turned hTurn
      cases flow with
      | exit state'' => cases hFlow.symm.trans hParked
      | park state'' =>
          cases hFlow.symm.trans hParked
          exact (h _ hSupervisor).turned (turned_parks hTurned) hCommands
  | elsewhere event hElsewhere =>
      have hBefore := h _ hParked
      refine ⟨?_, hBefore.chosen, hBefore.plays, hBefore.served⟩
      have hNone : [event].countP isRequest = 0 := by
        cases event <;> first | rfl | exact hElsewhere.elim
      show (s.events ++ [event]).countP isRequest + _ + _ = _
      rw [List.countP_append, hNone]
      exact hBefore.asked
  | drain hEvents =>
      have hBefore := h _ hParked
      refine ⟨?_, hBefore.chosen, hBefore.plays, hBefore.served⟩
      have hAsked := hBefore.asked
      rw [questions, hEvents] at hAsked
      exact drain_asked hAsked
  | click click hEnabled =>
      have hBefore := h _ hParked
      have hHandles := handle_handles hEnabled
      refine ⟨?_, ?_, ?_, hBefore.served⟩
      · have hAsked := hBefore.asked
        have hAnswers := hHandles.answers
        rw [questions] at hAsked
        show s.events.countP isRequest +
          (click.handle s.window).1.dashboard.bindFallback.isSome.toNat +
            (s.commands ++ (click.handle s.window).2).countP isAnswer = _
        rw [List.countP_append]
        omega
      · show sourceAfter state'.currentSource (s.commands ++ (click.handle s.window).2) =
          sourceAfter s.history.chosen (click.handle s.window).2
        rw [sourceAfter_append, hBefore.chosen]
      · show playsOf state'.currentSource (s.commands ++ (click.handle s.window).2) =
          s.history.plays ++ playsOf s.history.chosen (click.handle s.window).2
        rw [playsOf_append, hBefore.plays, hBefore.chosen]

theorem started_keeps (h : Started urlPath discovery initialPort s) :
    Faithful s ∧ ∀ state, s.supervisor = .parked state → Consistent s state := by
  obtain ⟨ops, o, hExec, hSupervisor, hEvents⟩ := h.supervisor
  obtain ⟨ffmpegAvailable, hWindow⟩ := h.window
  have hPrelude : Says (supervise urlPath discovery initialPort).prelude fun shown flow =>
      ∃ state, flow = .park state ∧ shown = [.asked] ∧ Left none true state := by
    refine (startUp_tells discovery initialPort).bind fun shown state hShown => .done ?_
    rw [List.append_nil]
    exact ⟨state, rfl, hShown⟩
  obtain ⟨_, rfl, state, rfl, hShown, hLeft⟩ := hPrelude ops o hExec
  obtain ⟨hAsked, hWarned, -⟩ := shown_emits ops
  rw [hShown] at hAsked hWarned
  refine ⟨⟨?_, ?_, ?_, ?_, ?_⟩, fun state' hParked => ?_⟩
  · rw [hWindow, h.history]
    rfl
  · rw [h.history]
    exact nofun
  · rw [h.history, hEvents, hWarned]
    rfl
  · rw [hWindow, h.history]
    rfl
  · rw [h.history]
    exact Nat.le_refl 0
  · cases hSupervisor.symm.trans hParked
    refine ⟨?_, ?_, ?_, ?_⟩
    · rw [questions, hEvents, hAsked, hWindow, h.commands, hLeft.pending]
      rfl
    · rw [h.commands, h.history, hLeft.source]
      rfl
    · rw [h.commands, h.history]
      rfl
    · rw [h.history, hLeft.source]

variable {trace : List (Move Application Label)}

/-- What holds at every moment of every run. -/
theorem run_consistent (hRun : Run (application parseUrl urlPath discovery initialPort) trace s) :
    Faithful s ∧ ∀ state, s.supervisor = .parked state → Consistent s state :=
  hRun.invariant
    (I := fun s => Faithful s ∧ ∀ state, s.supervisor = .parked state → Consistent s state)
    (fun _ hStarted => started_keeps hStarted)
    (fun _ _ _ h hStep => ⟨step_faithful hStep h.1, fun _ => step_consistent hStep h.2⟩)

/-! ## The results -/

/-- **The user is asked once.**  In every interleaving of the window, the
supervisor and whatever else sends events, while the supervisor has no question
outstanding none is on its way, open or answered; while it has one, it is in
exactly one of these places. -/
theorem consent_asked_once
    (hRun : Run (application parseUrl urlPath discovery initialPort) trace s)
    (hParked : s.supervisor = .parked state) : questions s = state.fallbackPending.toNat :=
  ((run_consistent hRun).2 state hParked).asked

theorem loaded_of_mem {ops : Ops} {request : LoadRequest}
    (h : (⟨.cast (.load request), ()⟩ : Entry supervisorSig) ∈ ops) :
    Shown.loaded request ∈ shows ops :=
  List.mem_flatMap.mpr ⟨_, h, List.mem_singleton.mpr rfl⟩

/-- Only `Play` loads anything. -/
theorem turned_loads {flow : Flow SupervisorState} {request : LoadRequest}
    (h : Turned urlPath state b shown flow) (hLoaded : Shown.loaded request ∈ shown) :
    b = .command (some .play) ∧ ∃ source port, state.currentSource = some source ∧
      request = loadOf urlPath (streamUrl state.lanIp port) source := by
  have hNothing : ∀ {P : Prop}, shown = [] → P := by
    rintro P rfl
    cases hLoaded
  have hAsks : ∀ {P : Prop} {state' : SupervisorState}, Asks state shown state' → P := by
    intro P state' hAsks
    rcases hAsks with ⟨hShown, -⟩ | ⟨rfl, -⟩
    · exact hNothing hShown
    · cases List.mem_singleton.mp hLoaded
  have hServes : ∀ {P : Prop} {state' : SupervisorState} {source : ActiveSource},
      Serves state source shown state' → P := by
    rintro P state' source ⟨rfl, -⟩
    cases List.mem_singleton.mp hLoaded
  have hWarnings : ∀ {P : Prop} {messages : List String},
      Shown.loaded request ∈ messages.map .warned → P := by
    intro P messages hMem
    obtain ⟨message, -, hMessage⟩ := List.mem_map.mp hMem
    cases hMessage
  cases flow with
  | exit state' =>
      obtain ⟨-, -, events, rfl⟩ := h
      rcases List.mem_cons.mp hLoaded with hDrained | hMem
      · cases hDrained
      · exact hWarnings hMem
  | park state' =>
      match b with
      | .command (some command) =>
          cases command with
          | play =>
              obtain ⟨rfl | ⟨source, port, hSource, rfl⟩, -⟩ := h
              · exact hNothing rfl
              · cases List.mem_singleton.mp hLoaded
                exact ⟨rfl, source, port, hSource, rfl⟩
          | selectReceiver device => exact hAsks h
          | manualConnect addr => exact hAsks h
          | selectDisplay monitor => exact hServes h
          | selectFile path => exact hServes h
          | selectUrl url => exact hServes h
          | bindFallback _ | selectSource _ | pause | stop | setVolume _ | mute _
          | setProxyPort _ | rescan => exact hNothing h.1
      | .event (some event) =>
          obtain ⟨rfl, -⟩ := h
          exact hWarnings hLoaded
      | .port _ | .command none | .event none | .shutdown => exact hNothing h.1

/-- **What is loaded is what was chosen.**  In every interleaving a `LOAD` goes
out only for a `Play` of the user; no `Play` that could be pressed is without a
source when it is taken; and what is loaded then is the source that was chosen
when it was pressed, which is the one the media server was given last. -/
theorem played_as_chosen
    (hRun : Run (application parseUrl urlPath discovery initialPort) trace s)
    (hParked : s.supervisor = .parked state)
    (hStep : Step parseUrl urlPath discovery initialPort s (.supervisor turn) s') :
    (turn.branch ≠ .command (some .play) →
      ∀ request, (⟨.cast (.load request), ()⟩ : Entry supervisorSig) ∉ turn.ops) ∧
    (turn.branch = .command (some .play) →
      ∃ source plays, s.history.plays = some source :: plays ∧
        s.history.served = some source ∧
        ∀ request, (⟨.cast (.load request), ()⟩ : Entry supervisorSig) ∈ turn.ops →
          ∃ port, request = loadOf urlPath (streamUrl state.lanIp port) source) := by
  obtain ⟨hFaithful, hConsistent⟩ := run_consistent hRun
  have hBefore := hConsistent state hParked
  cases hStep with
  | supervisor hSupervisor hTurn hCommands =>
      cases hSupervisor.symm.trans hParked
      obtain ⟨flow, -, hTurned⟩ := turn_turned hTurn
      refine ⟨fun hOther request hRequest => ?_, fun hPlay => ?_⟩
      · exact hOther (turned_loads hTurned (loaded_of_mem hRequest)).1
      · have hPlays := hBefore.plays
        rw [hCommands, hPlay] at hPlays
        have hFirst : state.currentSource ∈ s.history.plays := by
          rw [← hPlays]
          exact List.mem_cons_self
        obtain ⟨source, hSource⟩ := Option.isSome_iff_exists.mp (hFaithful.pressed _ hFirst)
        rw [hSource] at hPlays
        refine ⟨source, _, hPlays.symm, hBefore.served.trans hSource, fun request hRequest => ?_⟩
        obtain ⟨-, _, port, hLoaded, hLoad⟩ := turned_loads hTurned (loaded_of_mem hRequest)
        cases hSource.symm.trans hLoaded
        exact ⟨port, hLoad⟩

/-- **A certificate warning stays.**  In every interleaving the warnings the
supervisor took are those the window has drained, then those on their way, none
lost or out of order; and the notice shows the last one that was drained since
the user dismissed it, whatever else has happened. -/
theorem warning_shown
    (hRun : Run (application parseUrl urlPath discovery initialPort) trace s) :
    s.history.told = s.history.seen ++ s.events.filterMap warningOf ∧
      s.window.dashboard.securityWarning =
        (s.history.seen.drop s.history.dismissed).getLast? :=
  ⟨(run_consistent hRun).1.told, (run_consistent hRun).1.warning⟩

/-! ### At home -/

/-- No display is found, and everything else is done. -/
def atHome : Oracle supervisorSig
  | .enumerateDisplays => .error "no display"
  | .bindSocket => .ok ()
  | .selectLanIp _ => (0xC0A80102 : BitVec 32)
  | .awaitAck => some (.ok ())
  | .boundPort => (8080 : UInt16)
  | .startScreen _ => none
  | .drainCast => []
  | .emit _ | .spawnDiscovery | .bumpRescan | .startCast | .startServer | .subscribePort
  | .subscribe | .cast _ | .server _ | .stopScreen | .detachScreen | .joinScreen
  | .awaitServer | .awaitCast | .awaitDiscovery | .finish => ()

def television : CastDevice := .fromManualAddr ⟨.v4 0xC0A80105, 8009⟩

/-- The window is open, and the first question is on its way. -/
def opened : Application where
  supervisor := stageOf ((supervise (fun _ => none) (.ok ()) 8080).prelude.answerWith atHome).2
  window := .new false
  commands := []
  events := emitsOf ((supervise (fun _ => none) (.ok ()) 8080).prelude.answerWith atHome).1
  history := ⟨none, [], none, [], [], 0⟩

theorem run_opened :
    Run (application (fun _ => .error "") (fun _ => none) (.ok ()) 8080) [] opened :=
  .start ⟨⟨_, _, exec_answerWith atHome _, rfl, rfl⟩, ⟨false, rfl⟩, rfl, rfl⟩

theorem run_click (click : Click)
    (hRun : Run (application parseUrl urlPath discovery initialPort) trace s)
    (hEnabled : click.Enabled parseUrl s.window) :
    ∃ trace, Run (application parseUrl urlPath discovery initialPort) trace (s.click click) :=
  ⟨_, hRun.step (.click click hEnabled)⟩

theorem run_branch (b : Branch)
    (hRun : Run (application parseUrl urlPath discovery initialPort) trace s)
    (hParked : s.supervisor = .parked state) (hCommands : s.commands = obeyed b ++ commands') :
    ∃ trace turn s', Run (application parseUrl urlPath discovery initialPort) trace s' ∧
      turn.branch = b ∧
      Step parseUrl urlPath discovery initialPort s (.supervisor turn) s' ∧
      s' = s.turn ⟨b, ((branchBody urlPath state b).answerWith atHome).1⟩
        (stageOf ((branchBody urlPath state b).answerWith atHome).2) commands' := by
  have hTurn :=
    takesTurn_answerWith (supervise urlPath discovery initialPort) state b atHome trivial
  exact ⟨_, _, _, hRun.step (.supervisor hParked hTurn hCommands), rfl,
    .supervisor hParked hTurn hCommands, rfl⟩

/-- The first question is put. -/
theorem opened_asked : ∃ trace s state,
    Run (application (fun _ => .error "") (fun _ => none) (.ok ()) 8080) trace s ∧
      s.supervisor = .parked state ∧ s.window.dashboard.bindFallback = some noReceiverReason ∧
      questions s = state.fallbackPending.toNat := by
  have hDrained := run_opened.step (.drain (List.append_nil _).symm)
  exact ⟨_, _, _, hDrained, rfl, rfl, consent_asked_once hDrained rfl⟩

/-- A receiver is found and a file picked, and `Play` is pressed at once. -/
theorem film_played : ∃ trace s turn s',
    Run (application (fun _ => .error "") (fun _ => none) (.ok ()) 8080) trace s ∧
      Step (fun _ => .error "") (fun _ => none) (.ok ()) 8080 s (.supervisor turn) s' ∧
      turn.branch = .command (some .play) ∧
      ∃ source plays, s.history.plays = some source :: plays ∧
        s.history.served = some source := by
  have hFound := run_opened.step (.elsewhere (.receiversUpdated [television]) trivial)
  have hDrained := hFound.step (.drain (List.append_nil _).symm)
  obtain ⟨_, hTab⟩ := run_click (.tab .localFile) hDrained trivial
  obtain ⟨_, hBrowse⟩ := run_click .browse hTab rfl
  obtain ⟨_, hPicked⟩ := run_click (.picked (some "film.mp4")) hBrowse rfl
  obtain ⟨_, hReceiver⟩ :=
    run_click (.receiver television) hPicked ⟨rfl, List.mem_singleton.mpr rfl⟩
  obtain ⟨_, hPressed⟩ := run_click .play hReceiver rfl
  obtain ⟨_, _, _, hTabbed, -, -, rfl⟩ :=
    run_branch (.command (some (.selectSource .localFile))) hPressed rfl rfl
  obtain ⟨_, _, _, hServed, -, -, rfl⟩ :=
    run_branch (.command (some (.selectFile "film.mp4"))) hTabbed rfl rfl
  obtain ⟨_, _, _, hRun, -, -, rfl⟩ :=
    run_branch (.command (some (.selectReceiver television))) hServed rfl rfl
  obtain ⟨_, _, _, -, hBranch, hPlay, -⟩ := run_branch (.command (some .play)) hRun rfl rfl
  obtain ⟨source, plays, hPlays, hSource, -⟩ := (played_as_chosen hRun rfl hPlay).2 hBranch
  exact ⟨_, _, _, _, hRun, hPlay, hBranch, source, plays, hPlays, hSource⟩

/-- The certificate of the television is another one. -/
theorem television_warned : ∃ trace s,
    Run (application (fun _ => .error "") (fun _ => none) (.ok ()) 8080) trace s ∧
      s.history.told.length = 1 ∧ s.events = [] ∧
      s.window.dashboard.securityWarning =
        (s.history.seen.drop s.history.dismissed).getLast? := by
  let zeros : Fingerprint := Vector.replicate 32 0
  obtain ⟨_, _, _, hTold, -, -, rfl⟩ :=
    run_branch (.event (some (.certificateMismatch television zeros zeros))) run_opened rfl rfl
  have hDrained := hTold.step (.drain (List.append_nil _).symm)
  exact ⟨_, _, hDrained, rfl, rfl, (warning_shown hDrained).2⟩

end CastApp.Gui.UserRequests
