import CastApp.Cast.RunInvariant
import CastApp.Gui.Dashboard
import CastApp.Runtime.TurnRelay
import CastApp.Verified.Automaton

/-!
# The dashboard mirrors the connection task

The connection task, the supervisor and the dashboard with the four channels
between them.  Each party reads its channels between two turns only, so that a
turn is one step.  The dashboard learns what became of a selection only through
two queues, and may select again meanwhile.

* `turn_tells` — what a turn of the connection task tells of its session.
* `Reflects.handleEvents` — what a drain makes of it.
* **`dashboard_mirrors`** — a dashboard that has heard everything shows the
  live session.
-/

namespace CastApp.Gui.Mirror

open CastApp.Cast.Journal
open CastApp.Cast.Namespaces (ReceiverStatus)
open CastApp.Cast.RunEffect
open CastApp.Cast.RunInvariant
open CastApp.Cast.RunLoop
open CastApp.Cast.Session
open CastApp.Cast.SessionEffect
open CastApp.Gui.Dashboard
open CastApp.Runtime.EventRelay hiding Ops
open CastApp.Runtime.Supervisor (SupervisorState UrlPath supervise supervisorSig)
open CastApp.Runtime.TurnRelay (prelude_news turn_relays)
open CastApp.State
open CastApp.Util.Json
open CastApp.Verified.Automaton
open CastApp.Verified.Coroutine
open CastApp.Verified.EventLoop
open CastApp.Verified.Transition

/-! ## What the GUI may be told -/

/-- The device the GUI believes to be connected, after an event. -/
def hears (link : Option CastDevice) : BackendEvent → Option CastDevice
  | .receiverConnected device => some device
  | .receiverDisconnected _ => none
  | .connectionError _ => none
  | _ => link

/-- A status of the playback comes from a connected device. -/
def Timely (link : Option CastDevice) : BackendEvent → Prop
  | .mediaStatus _ _ => link.isSome
  | _ => True

/-- Told these events, the GUI goes from one belief to another. -/
abbrev Tells : Option CastDevice → List BackendEvent → Option CastDevice → Prop :=
  Accepts Timely hears

/-- The event says whether there is a connection. -/
def Turns : BackendEvent → Prop
  | .receiverConnected _ | .receiverDisconnected _ | .connectionError _ => True
  | _ => False

/-- A belief only changes with such an event. -/
theorem exists_turn {link link' : Option CastDevice} {events : List BackendEvent}
    (hTells : Tells link events link') (hNe : link ≠ link') : ∃ event ∈ events, Turns event := by
  refine Classical.byContradiction fun hNone => hNe (hTells.eq_of_still fun event hEvent s => ?_)
  have hStill : ¬ Turns event := fun hTurns => hNone ⟨event, hEvent, hTurns⟩
  cases event <;> first | rfl | exact absurd trivial hStill

/-! ## What the connection task tells -/

/-- The news of some operations of the connection task. -/
def told (ops : Ops) : List BackendEvent := newsOf ((eventsOf ops).flatMap forwarded)

@[simp] theorem told_nil : told [] = [] := rfl

@[simp] theorem told_append (xs ys : Ops) : told (xs ++ ys) = told xs ++ told ys := by
  simp [told]

@[simp] theorem told_cons (e : Entry castSig) (ops : Ops) :
    told (e :: ops) = newsOf ((eventOf e).toList.flatMap forwarded) ++ told ops := by
  simp [told]

theorem told_of_eventsOf {ops : Ops} (h : eventsOf ops = []) : told ops = [] := by
  rw [told, h]
  rfl

variable {config : ConnectionConfig} {fromStr : String → Option Json}
variable {state state' : RunState} {ops : Ops}

theorem teardown_told (h : Teardown state ops (.value state')) :
    told ops = (linked state).toList.map .receiverDisconnected := by
  cases h with
  | idle hSession =>
      rw [linked, hSession]
      rfl
  | ended hSession hGoodbye =>
      rw [told_append, told_of_eventsOf (Goodbye.eventsOf_eq hGoodbye), linked, hSession]
      rfl

theorem teardown_tells (h : Teardown state ops (.value state')) :
    Tells (linked state) (told ops) none := by
  rw [teardown_told h]
  cases linked state with
  | none => exact .nil
  | some device => exact ⟨trivial, .nil⟩

theorem told_mismatchOps (device : CastDevice) (pin : PinCheck) :
    told (mismatchOps device pin) = [] := by
  cases pin <;> rfl

/-- What an attempt to connect tells. -/
theorem establishes_told {device : CastDevice} {result : Except ConnectionError Unit}
    (h : Establishes config state device ops (.value (result, state'))) :
    told ops =
      match result with
      | .ok () => [.receiverConnected device]
      | .error _ => [] := by
  cases h <;> simp [told_mismatchOps, eventOf, forwarded, newsOf, isNews]

theorem lost_tells (h : Lost config state ops (.value state')) :
    Tells (linked state) (told ops) none := by
  cases h with
  | undesired h => exact teardown_tells h
  | retry h =>
      rw [told_append]
      exact (teardown_tells h).append .nil
  | exhausted h =>
      rw [told_append]
      exact (teardown_tells h).append ⟨trivial, .nil⟩

/-- A status of the receiver is no news. -/
theorem applyReceiverStatus_told (session : Session) (status : ReceiverStatus) :
    newsOf ((session.applyReceiverStatus status).1.flatMap forwarded) = [] := by
  have hReady : newsOf ((session.adoptIds status).becomeReady.1.flatMap forwarded) = [] := by
    unfold Session.becomeReady
    split
    · split <;> rfl
    · rfl
  have hVolume : newsOf ((Session.volumeEvents status.volume).flatMap forwarded) = [] := by
    unfold Session.volumeEvents
    split <;> rfl
  show newsOf (((session.adoptIds status).becomeReady.1 ++
    Session.volumeEvents status.volume).flatMap forwarded) = []
  rw [List.flatMap_append, newsOf_append, hReady, hVolume]
  rfl

theorem route_told {session session' : Session} {payload : List Byte} {action : InboundAction}
    (h : RouteEffect fromStr session payload (action, session')) (hHears : Hears action ops) :
    told ops = [] ∨ ∃ playing buffering, told ops = [.mediaStatus playing buffering] := by
  cases h with
  | status p hStatus =>
      cases hHears
      rw [told, eventsOf_emitted]
      exact .inl (applyReceiverStatus_told _ _)
  | media p =>
      cases hHears
      rw [told, eventsOf_emitted]
      exact .inr ⟨_, _, rfl⟩
  | pong => cases hHears <;> exact .inl rfl
  | ignored => cases hHears; exact .inl rfl

/-- A live session tells nothing but how its playback is. -/
theorem acts_told {session : Session} {b : Branch} {o : Outcome castSig Handled}
    (h : Acts fromStr session b ops o) :
    told ops = [] ∨ ∃ playing buffering, told ops = [.mediaStatus playing buffering] := by
  cases h with
  | command _ _ h => exact .inl (told_of_eventsOf (CommandEffect.eventsOf_eq h))
  | routed hRoute hHears => exact route_told hRoute hHears
  | dispatched hRoute hHears _ _ h =>
      rw [told_append, told_of_eventsOf (Loads.eventsOf_eq h), List.append_nil]
      exact route_told hRoute hHears
  | pinged => exact .inl rfl

theorem acts_tells {session : Session} {b : Branch} {o : Outcome castSig Handled}
    {device : CastDevice} (h : Acts fromStr session b ops o) :
    Tells (some device) (told ops) (some device) := by
  rcases acts_told h with hTold | ⟨playing, buffering, hTold⟩
  · rw [hTold]
    exact .nil
  · rw [hTold]
    exact ⟨rfl, .nil⟩

theorem linked_detached (h : Detached state) : linked state = none := by
  rw [linked, h.session]
  rfl

/-- **What a branch tells**, from a state that makes sense to the next. -/
theorem branch_tells {b : Branch}
    (h : BranchEffect config fromStr state b ops (.value (.park state'))) (hInv : RunInv state) :
    Tells (linked state) (told ops) (linked state') := by
  have hApart {attempt : Reconnect} (hReconnect : state.reconnect = some attempt) :
      linked state = none := by
    rw [linked, hInv.single.resolve_right (by simp [hReconnect])]
    rfl
  cases h with
  | idle hSession h =>
      have hStill : linked state' = linked state := by cases h <;> rfl
      rw [hStill]
      exact .nil
  | acted hSession h hRearmed hQuiet =>
      rw [told_append, told_of_eventsOf (quiet_eventsOf hQuiet), List.append_nil,
        Rearmed.linked_eq hRearmed hSession (Acts.device h).1, linked, hSession]
      exact acts_tells h
  | failed hSession h hRearmed hLost =>
      have hLinked := Rearmed.linked_eq hRearmed hSession (Acts.device h).1
      have hInv' := Rearmed.runInv hRearmed hInv hSession (Acts.device h).1
      have hGone := (Lost.runInv hLost (by simp [hRearmed.session])
        (hInv'.single.resolve_left (by simp [hRearmed.session]))).2
      have hLive : linked state = some _ := congrArg (Option.map Session.device) hSession
      rw [told_append, linked_detached hGone, hLive]
      refine (acts_tells h).append ?_
      rw [← hLive, ← hLinked]
      exact lost_tells hLost
  | gone hSession hGone hLost =>
      have hGone := (Lost.runInv hLost (by simp [hSession])
        (hInv.single.resolve_left (by simp [hSession]))).2
      rw [linked_detached hGone]
      exact lost_tells hLost
  | selected h hEstablishes =>
      rw [told_append, establishes_told hEstablishes]
      refine (teardown_tells h).append ⟨trivial, ?_⟩
      cases hEstablishes
      exact .nil
  | selectFailed h hEstablishes =>
      rw [told_append, told_append, establishes_told hEstablishes]
      refine (teardown_tells h).append ⟨trivial, ?_⟩
      obtain rfl := Establishes.error_eq hEstablishes
      exact (linked_detached (Teardown.tornFrom h hInv.detached).detached).symm
  | reconnected hReconnect h =>
      rw [hApart hReconnect, establishes_told h]
      cases h
      exact ⟨trivial, .nil⟩
  | retried hReconnect h hBackoff now =>
      rw [told_append, establishes_told h]
      obtain rfl := Establishes.error_eq h
      exact .nil
  | abandoned hReconnect h hBackoff =>
      rw [told_append, establishes_told h]
      obtain rfl := Establishes.error_eq h
      refine ⟨trivial, ?_⟩
      show none = linked state
      rw [hApart hReconnect]

/-- A selection ends the session there is. -/
theorem select_turns {device : CastDevice}
    (h : BranchEffect config fromStr state (.command (some (.select device))) ops
      (.value (.park state'))) (hLinked : linked state ≠ none) :
    ∃ event ∈ told ops, Turns event := by
  have hTorn {first : Ops} {middle : RunState} (hTeardown : Teardown state first (.value middle)) :
      ∃ event ∈ told first, Turns event :=
    exists_turn (teardown_tells hTeardown) hLinked
  cases h with
  | idle hSession =>
      rw [linked, hSession] at hLinked
      exact absurd rfl hLinked
  | acted hSession h =>
      cases h with
      | command _ hSelect => exact absurd rfl (hSelect device)
  | failed hSession h =>
      cases h with
      | command _ hSelect => exact absurd rfl (hSelect device)
  | gone hSession hGone => cases hGone
  | selected hTeardown | selectFailed hTeardown =>
      obtain ⟨event, hEvent, hTurns⟩ := hTorn hTeardown
      rw [told_append]
      exact ⟨event, List.mem_append_left _ hEvent, hTurns⟩

theorem exists_alternating (link : Option CastDevice) : ∃ events, Alternating events link := by
  cases link with
  | none => exact ⟨[], .start⟩
  | some device => exact ⟨_, .connected .start⟩

/-- Reaping overdue requests tells nothing. -/
theorem reaped_told (h : Reaped state ops state') :
    told ops = [] ∧ linked state' = linked state := by
  cases h with
  | idle => exact ⟨rfl, rfl⟩
  | live hSession now p =>
      refine ⟨rfl, ?_⟩
      rw [linked, linked, hSession]
      rfl

/-- **What a turn tells**, and that the next state makes sense. -/
theorem turn_tells {b : Branch} (h : TurnEffect config fromStr state b ops (.parked state'))
    (hInv : RunInv state) :
    RunInv state' ∧ Tells (linked state) (told ops) (linked state') ∧
      ∀ device, b = .command (some (.select device)) → linked state ≠ none →
        ∃ event ∈ told ops, Turns event := by
  obtain ⟨events, hEvents⟩ := exists_alternating (linked state)
  refine ⟨(TurnEffect.kept h hInv hEvents).invariant, ?_⟩
  cases h with
  | parked h hReaped =>
      obtain ⟨hQuiet, hLinked⟩ := reaped_told hReaped
      rw [told_append, hQuiet, List.append_nil, hLinked]
      refine ⟨branch_tells h hInv, ?_⟩
      rintro device rfl hLive
      exact select_turns h hLive

/-! ## What the dashboard makes of it -/

/-- The device a connection state shows as connected. -/
def shown : ConnectionState → Option CastDevice
  | .connected device => some device
  | .scanning | .disconnected => none

/-- A dashboard with news still to come and selections still to be made: what
is to come leads it to `link`, and it shows what it knows. -/
structure Reflects (dashboard : CastDashboard) (coming : List BackendEvent)
    (choices : List CastDevice) (link : Option CastDevice) : Prop where
  tells : Tells (shown dashboard.connection) coming link
  /-- Only a connected device plays. -/
  playing : dashboard.playback ≠ .idle → (shown dashboard.connection).isSome
  /-- The connected device is the selected one, unless that is about to change. -/
  chosen : ∀ device, dashboard.connection = .connected device →
    dashboard.selectedReceiver = some device ∨ choices ≠ [] ∨ ∃ event ∈ coming, Turns event

section Reflects

variable {dashboard dashboard' : CastDashboard} {coming : List BackendEvent}
variable {choices : List CastDevice} {link : Option CastDevice}

/-- The fields a dashboard mirrors the connection with. -/
structure SameView (dashboard dashboard' : CastDashboard) : Prop where
  selectedReceiver : dashboard'.selectedReceiver = dashboard.selectedReceiver
  connection : dashboard'.connection = dashboard.connection
  playback : dashboard'.playback = dashboard.playback

theorem Reflects.sameView (h : Reflects dashboard coming choices link)
    (hSame : SameView dashboard dashboard') : Reflects dashboard' coming choices link := by
  constructor
  · rw [hSame.connection]
    exact h.tells
  · rw [hSame.connection, hSame.playback]
    exact h.playing
  · rw [hSame.connection, hSame.selectedReceiver]
    exact h.chosen

/-- It only matters whether there are selections to be made. -/
theorem Reflects.rechoose {choices' : List CastDevice}
    (h : Reflects dashboard coming choices link) (hChoices : choices' = [] → choices = []) :
    Reflects dashboard coming choices' link := by
  refine ⟨h.tells, h.playing, fun device hConnected => ?_⟩
  exact (h.chosen device hConnected).imp_right (Or.imp_left (mt hChoices))

/-- What is not news leaves the view alone. -/
theorem sameView_applyEvent {event : BackendEvent} (h : isNews event = false) :
    SameView dashboard (dashboard.applyEvent event) := by
  cases event <;> first | exact ⟨rfl, rfl, rfl⟩ | cases h

/-- One piece of news. -/
theorem Reflects.applyNews {event : BackendEvent}
    (h : Reflects dashboard (event :: coming) choices link) (hNews : isNews event = true) :
    Reflects (dashboard.applyEvent event) coming choices link := by
  obtain ⟨⟨hTimely, hTells⟩, hPlaying, hChosen⟩ := h
  cases event with
  | receiverConnected device =>
      refine ⟨hTells, fun _ => rfl, ?_⟩
      rintro _ ⟨⟩
      exact .inl rfl
  | receiverDisconnected | connectionError =>
      exact ⟨hTells, fun hPlays => absurd rfl hPlays, nofun⟩
  | mediaStatus playing buffering =>
      refine ⟨hTells, fun _ => hTimely, fun device hConnected => ?_⟩
      refine (hChosen device hConnected).imp_right (Or.imp_right ?_)
      rintro ⟨event, hEvent, hTurns⟩
      rcases List.mem_cons.mp hEvent with rfl | hEvent
      · exact hTurns.elim
      · exact ⟨event, hEvent, hTurns⟩
  | _ => cases hNews

/-- **A drain**, whatever it batches. -/
theorem Reflects.handleEvents {batch rest : List BackendEvent}
    (h : Reflects dashboard (newsOf (batch ++ rest)) choices link) :
    Reflects (dashboard.handleEvents batch).1 (newsOf rest) choices link := by
  show Reflects (batch.foldl CastDashboard.applyEvent dashboard) _ _ _
  induction batch generalizing dashboard with
  | nil => exact h
  | cons event batch ih =>
      apply ih
      cases hNews : isNews event with
      | false =>
          have hRest : newsOf (event :: batch ++ rest) = newsOf (batch ++ rest) :=
            List.filter_cons_of_neg (by simp [hNews])
          rw [hRest] at h
          exact h.sameView (sameView_applyEvent hNews)
      | true =>
          have hFirst : newsOf (event :: batch ++ rest) = event :: newsOf (batch ++ rest) :=
            List.filter_cons_of_pos hNews
          rw [hFirst] at h
          exact h.applyNews hNews

end Reflects

/-! ## The three parties -/

/-- The connection task and the supervisor between two turns, the dashboard
between two frames, and the channels between them. -/
structure Desktop where
  task : Stage castSig RunState
  supervisor : Stage supervisorSig SupervisorState
  dashboard : CastDashboard
  /-- From the dashboard to the supervisor. -/
  commands : List AppCommand
  /-- From the supervisor to the connection task. -/
  inbox : List Command
  /-- From the connection task to the supervisor. -/
  outbox : List ConnectionEvent
  /-- From the supervisor, and from discovery, to the dashboard. -/
  events : List BackendEvent

/-- The command a turn of the connection task takes. -/
def heeded : Cast.RunLoop.Branch → List Command
  | .command (some command) => [command]
  | _ => []

inductive Label : Type
  | task (turn : Turn castSig Cast.RunLoop.Branch)
  | supervisor (turn : Turn supervisorSig Runtime.Supervisor.Branch)
  | discovered (devices : List CastDevice)
  /-- `handle_events`, with the events that are there. -/
  | drain (batch : List BackendEvent)
  | select (device : CastDevice)
  | manual (parsed : Except String SocketAddr)
  /-- Anything else the user does. -/
  | interact (commands : List AppCommand)

section System

variable (config : ConnectionConfig) (fromStr : String → Option Json) (urlPath : UrlPath)
variable (discovery : Except IoError Unit) (initialPort : UInt16)

inductive Step (s : Desktop) : Label → Desktop → Prop
  | task {state : RunState} {turn : Turn castSig Cast.RunLoop.Branch} {task' : Stage castSig RunState}
      {inbox' : List Command} (hTask : s.task = .parked state)
      (hTurn : (run config fromStr).TakesTurn state turn task')
      (hInbox : s.inbox = heeded turn.branch ++ inbox') :
      Step s (.task turn)
        { s with
          task := task'
          inbox := inbox'
          outbox := s.outbox ++ eventsOf turn.ops }
  | supervisor {state : SupervisorState} {turn : Turn supervisorSig Runtime.Supervisor.Branch}
      {supervisor' : Stage supervisorSig SupervisorState} {commands' : List AppCommand}
      {outbox' : List ConnectionEvent} (hSupervisor : s.supervisor = .parked state)
      (hTurn : (supervise urlPath discovery initialPort).TakesTurn state turn supervisor')
      (hCommands : s.commands = obeyed turn.branch ++ commands')
      (hOutbox : s.outbox = received turn.branch ++ drainedOf turn.ops ++ outbox') :
      Step s (.supervisor turn)
        { s with
          supervisor := supervisor'
          commands := commands'
          inbox := s.inbox ++ castsOf turn.ops
          outbox := outbox'
          events := s.events ++ emitsOf turn.ops }
  | discovered (devices : List CastDevice) :
      Step s (.discovered devices) { s with events := s.events ++ [.receiversUpdated devices] }
  | drain {batch rest : List BackendEvent} (hEvents : s.events = batch ++ rest) :
      Step s (.drain batch)
        { s with dashboard := (s.dashboard.handleEvents batch).1, events := rest }
  | select (device : CastDevice) :
      Step s (.select device)
        { s with
          dashboard := (s.dashboard.selectReceiver device).1
          commands := s.commands ++ (s.dashboard.selectReceiver device).2 }
  | manual (parsed : Except String SocketAddr) :
      Step s (.manual parsed)
        { s with
          dashboard := (s.dashboard.tryManualConnect parsed).1
          commands := s.commands ++ (s.dashboard.tryManualConnect parsed).2 }
  | interact {dashboard' : CastDashboard} {commands : List AppCommand}
      (hSame : SameView s.dashboard dashboard')
      (hCommands : ∀ command ∈ commands, selection command = none) :
      Step s (.interact commands)
        { s with dashboard := dashboard', commands := s.commands ++ commands }

/-- The backend has started and the window is open. -/
structure Started (s : Desktop) : Prop where
  task : (run config fromStr).turns.init s.task
  supervisor : ∃ ops o,
    Exec (supervise urlPath discovery initialPort).prelude ops o ∧ s.supervisor = stageOf o ∧
      s.inbox = castsOf ops ∧ s.events = emitsOf ops
  dashboard : s.dashboard = .new
  commands : s.commands = []
  outbox : s.outbox = []

/-- The desktop application, as far as receivers are concerned. -/
def desktop : System Desktop Label where
  init := Started config fromStr urlPath discovery initialPort
  step := Step config fromStr urlPath discovery initialPort

end System

/-! ## Mirroring -/

/-- The news that is still to come. -/
def Desktop.coming (s : Desktop) : List BackendEvent := newsOf (s.events ++ s.outbox.flatMap forwarded)

/-- The selections that are still to be made. -/
def Desktop.choices (s : Desktop) : List CastDevice :=
  s.commands.filterMap selection ++ s.inbox.filterMap selected

/-- The dashboard mirrors a task that waits in `state`. -/
structure Mirrors (s : Desktop) (state : RunState) : Prop where
  invariant : RunInv state
  reflects : Reflects s.dashboard s.coming s.choices (linked state)

variable {urlPath : UrlPath} {discovery : Except IoError Unit} {initialPort : UInt16}
variable {s s' : Desktop} {label : Label}

theorem Started.mirrors (h : Started config fromStr urlPath discovery initialPort s)
    (hTask : s.task = .parked state) : Mirrors s state := by
  have hNew := hTask.symm.trans (run_init config fromStr h.task)
  cases hNew
  obtain ⟨ops, o, hExec, -, -, hEvents⟩ := h.supervisor
  obtain ⟨hFailures, -⟩ := prelude_news hExec
  have hComing : s.coming = newsOf (emitsOf ops) := by
    rw [Desktop.coming, h.outbox, hEvents]
    simp
  refine ⟨runInv_new, ?_, ?_, ?_⟩
  · rw [hComing, h.dashboard]
    refine accepts_of_still fun event hEvent => ?_
    have hFailure := hFailures event hEvent
    cases event <;> first | exact ⟨trivial, rfl⟩ | cases hFailure
  · rw [h.dashboard]
    exact fun hPlays => absurd rfl hPlays
  · rw [h.dashboard]
    nofun

/-- What a turn of the connection task adds to the news. -/
theorem coming_append (s : Desktop) (task : Stage castSig RunState) (inbox : List Command)
    (ops : Ops) :
    Desktop.coming { s with task := task, inbox := inbox, outbox := s.outbox ++ eventsOf ops } =
      s.coming ++ told ops := by
  simp [Desktop.coming, told]

/-- A turn takes a selection, or none. -/
theorem heeded_selected (b : Cast.RunLoop.Branch) :
    (∃ device, b = .command (some (.select device))) ∨ (heeded b).filterMap selected = [] := by
  match b with
  | .command (some (.select device)) => exact .inl ⟨device, rfl⟩
  | .command (some .launchDefaultReceiver) | .command (some (.load _)) | .command (some .play)
  | .command (some .pause) | .command (some .stop) | .command (some (.setVolume _ _))
  | .command (some .getStatus) | .command (some .shutdown) | .command none | .inbound _
  | .heartbeat | .watchdog | .reconnect | .shutdown => exact .inr rfl

theorem Mirrors.task {turn : Turn castSig Cast.RunLoop.Branch} {inbox' : List Command}
    (h : Mirrors s state) (hTurn : (run config fromStr).TakesTurn state turn (.parked state'))
    (hInbox : s.inbox = heeded turn.branch ++ inbox') :
    Mirrors
      { s with
        task := .parked state'
        inbox := inbox'
        outbox := s.outbox ++ eventsOf turn.ops } state' := by
  obtain ⟨hInv, hTells, hSelect⟩ := turn_tells (run_turnEffect config fromStr hTurn) h.invariant
  have hComing := coming_append s (.parked state') inbox' turn.ops
  refine ⟨hInv, ?_, h.reflects.playing, ?_⟩
  · rw [hComing]
    exact h.reflects.tells.append hTells
  · intro device hConnected
    rw [hComing]
    have hLater (hTurns : ∃ event ∈ s.coming, Turns event) :
        ∃ event ∈ s.coming ++ told turn.ops, Turns event := by
      obtain ⟨event, hEvent, hTurns⟩ := hTurns
      exact ⟨event, List.mem_append_left _ hEvent, hTurns⟩
    rcases h.reflects.chosen device hConnected with hChosen | hChoices | hTurns
    · exact .inl hChosen
    · rcases heeded_selected turn.branch with ⟨device', hBranch⟩ | hOther
      · -- The selection was made: it ended the session, or there was none.
        refine .inr (.inr ?_)
        by_cases hLive : linked state = none
        · refine hLater (exists_turn h.reflects.tells ?_)
          rw [hLive, hConnected]
          simp [shown]
        · obtain ⟨event, hEvent, hTurns⟩ := hSelect device' hBranch hLive
          exact ⟨event, List.mem_append_right _ hEvent, hTurns⟩
      · refine .inr (.inl ?_)
        rw [Desktop.choices, hInbox, List.filterMap_append, hOther] at hChoices
        exact hChoices
    · exact .inr (.inr (hLater hTurns))

/-- A turn of the supervisor passes on what it takes. -/
theorem Mirrors.supervisor {supervised : SupervisorState}
    {turn : Turn supervisorSig Runtime.Supervisor.Branch}
    {supervisor' : Stage supervisorSig SupervisorState} {commands' : List AppCommand}
    {outbox' : List ConnectionEvent} (h : Mirrors s state)
    (hTurn : (supervise urlPath discovery initialPort).TakesTurn supervised turn supervisor')
    (hCommands : s.commands = obeyed turn.branch ++ commands')
    (hOutbox : s.outbox = received turn.branch ++ drainedOf turn.ops ++ outbox') :
    Mirrors
      { s with
        supervisor := supervisor'
        commands := commands'
        inbox := s.inbox ++ castsOf turn.ops
        outbox := outbox'
        events := s.events ++ emitsOf turn.ops } state := by
  obtain ⟨hNews, hSelections⟩ := turn_relays hTurn
  have hComing : s.coming =
      newsOf ((s.events ++ emitsOf turn.ops) ++ outbox'.flatMap forwarded) := by
    rw [Desktop.coming, hOutbox, List.flatMap_append]
    simp only [newsOf_append, hNews, List.append_assoc]
  refine ⟨h.invariant, ?_⟩
  rw [Desktop.coming, ← hComing]
  refine h.reflects.rechoose fun hNone => ?_
  rw [Desktop.choices, List.filterMap_append, hSelections] at hNone
  rw [Desktop.choices, hCommands, List.filterMap_append]
  simp only [List.append_eq_nil_iff] at hNone ⊢
  exact ⟨⟨hNone.2.2, hNone.1⟩, hNone.2.1⟩

/-- The user selects a receiver. -/
theorem Mirrors.select {device : CastDevice} {dashboard : CastDashboard} {command : AppCommand}
    (h : Mirrors s state) (hConnection : dashboard.connection = s.dashboard.connection)
    (hPlayback : dashboard.playback = s.dashboard.playback)
    (hCommand : selection command = some device) :
    Mirrors { s with dashboard := dashboard, commands := s.commands ++ [command] } state := by
  refine ⟨h.invariant, ?_, ?_, fun _ _ => .inr (.inl ?_)⟩
  · rw [hConnection]
    exact h.reflects.tells
  · rw [hConnection, hPlayback]
    exact h.reflects.playing
  · rw [Desktop.choices, List.filterMap_append]
    simp [hCommand]

/-- The user does something else. -/
theorem Mirrors.interact {dashboard' : CastDashboard} {commands : List AppCommand}
    (h : Mirrors s state) (hSame : SameView s.dashboard dashboard')
    (hCommands : ∀ command ∈ commands, selection command = none) :
    Mirrors { s with dashboard := dashboard', commands := s.commands ++ commands } state := by
  refine ⟨h.invariant, (h.reflects.sameView hSame).rechoose fun hNone => ?_⟩
  rw [Desktop.choices, List.filterMap_append, List.filterMap_eq_nil_iff.mpr hCommands,
    List.append_nil] at hNone
  exact hNone

/-- **A step keeps the mirror.** -/
theorem Step.mirrors (hStep : Step config fromStr urlPath discovery initialPort s label s')
    (h : ∀ state, s.task = .parked state → Mirrors s state) (hTask : s'.task = .parked state') :
    Mirrors s' state' := by
  cases hStep with
  | task hBefore hTurn hInbox =>
      obtain rfl := hTask
      exact (h _ hBefore).task hTurn hInbox
  | supervisor hSupervisor hTurn hCommands hOutbox =>
      exact (h _ hTask).supervisor hTurn hCommands hOutbox
  | discovered devices =>
      obtain ⟨hInv, hReflects⟩ := h _ hTask
      refine ⟨hInv, ?_⟩
      rw [Desktop.coming, newsOf_append, newsOf_append]
      rw [Desktop.coming, newsOf_append] at hReflects
      exact (List.append_nil (newsOf s.events)).symm ▸ hReflects
  | drain hEvents =>
      obtain ⟨hInv, hReflects⟩ := h _ hTask
      rw [Desktop.coming, hEvents, List.append_assoc] at hReflects
      exact ⟨hInv, hReflects.handleEvents⟩
  | select device => exact (h _ hTask).select rfl rfl rfl
  | manual parsed =>
      cases parsed with
      | ok addr => exact (h _ hTask).select rfl rfl rfl
      | error message => exact (h _ hTask).interact ⟨rfl, rfl, rfl⟩ nofun
  | interact hSame hCommands => exact (h _ hTask).interact hSame hCommands

/-- **The dashboard mirrors the connection task**: at every `select!` of the
task, a dashboard that has heard every event shows a connection exactly to the
device of the live session, a playback only while it shows one, and, once all
selections are made, the connected device as the selected one. -/
theorem dashboard_mirrors {trace : List (Move Desktop Label)}
    (hRun : Run (desktop config fromStr urlPath discovery initialPort) trace s)
    (hTask : s.task = .parked state) (hOutbox : s.outbox = []) (hEvents : s.events = []) :
    (∀ device, s.dashboard.connection = .connected device ↔
        ∃ session, state.session = some session ∧ session.device = device) ∧
      (s.dashboard.playback ≠ .idle → ∃ device, s.dashboard.connection = .connected device) ∧
      (s.choices = [] → ∀ device, s.dashboard.connection = .connected device →
        s.dashboard.selectedReceiver = some device) := by
  have hMirrors : Mirrors s state :=
    hRun.invariant (I := fun s => ∀ state, s.task = .parked state → Mirrors s state)
      (fun _ hStarted _ hTask => hStarted.mirrors hTask)
      (fun _ _ _ h hStep _ hTask => hStep.mirrors h hTask) state hTask
  have hComing : s.coming = [] := by
    rw [Desktop.coming, hOutbox, hEvents]
    rfl
  obtain ⟨hTells, hPlaying, hChosen⟩ := hMirrors.reflects
  rw [hComing] at hTells hChosen
  have hShown : shown s.dashboard.connection = state.session.map Session.device := hTells
  have hConnected (device : CastDevice) :
      s.dashboard.connection = .connected device ↔
        shown s.dashboard.connection = some device := by
    cases s.dashboard.connection <;> simp [shown]
  refine ⟨fun device => ?_, fun hPlays => ?_, fun hChoices device hDevice => ?_⟩
  · rw [hConnected, hShown, Option.map_eq_some_iff]
  · obtain ⟨device, hDevice⟩ := Option.isSome_iff_exists.mp (hPlaying hPlays)
    exact ⟨device, (hConnected device).mpr hDevice⟩
  · rcases hChosen device hDevice with hSelected | hPending | ⟨event, hEvent, -⟩
    · exact hSelected
    · exact absurd hChoices hPending
    · cases hEvent

/-- Nothing is found, and everything that is asked for is done. -/
def willing : Oracle supervisorSig
  | .enumerateDisplays => .error "no display"
  | .bindSocket => .error (.otherError "address in use")
  | .selectLanIp _ => (0xC0A80102 : BitVec 32)
  | .awaitAck => some (.ok ())
  | .boundPort => (8010 : UInt16)
  | .startScreen _ => none
  | .drainCast => []
  | .emit _ | .spawnDiscovery | .bumpRescan | .startCast | .startServer | .subscribePort
  | .subscribe | .cast _ | .server _ | .stopScreen | .detachScreen | .joinScreen
  | .awaitServer | .awaitCast | .awaitDiscovery | .finish => ()

/-- The supervisor takes all that waits for it. -/
theorem supervisor_takes {supervisor : SupervisorState}
    {supervisor' : Stage supervisorSig SupervisorState}
    {turn : Turn supervisorSig Runtime.Supervisor.Branch}
    (hSupervisor : s.supervisor = .parked supervisor)
    (hTurn : (supervise urlPath discovery initialPort).TakesTurn supervisor turn supervisor')
    (hCommands : s.commands = obeyed turn.branch)
    (hOutbox : s.outbox = received turn.branch ++ drainedOf turn.ops) :
    Step config fromStr urlPath discovery initialPort s (.supervisor turn)
      { s with
        supervisor := supervisor'
        commands := []
        inbox := s.inbox ++ castsOf turn.ops
        outbox := []
        events := s.events ++ emitsOf turn.ops } := by
  refine .supervisor hSupervisor hTurn ?_ ?_
  · rw [hCommands, List.append_nil]
  · rw [hOutbox, List.append_nil]

/-- The connection task takes all that waits for it. -/
theorem task_takes {turn : Turn castSig Cast.RunLoop.Branch} {task' : Stage castSig RunState}
    (hTask : s.task = .parked state) (hTurn : (run config fromStr).TakesTurn state turn task')
    (hInbox : s.inbox = heeded turn.branch) :
    Step config fromStr urlPath discovery initialPort s (.task turn)
      { s with task := task', inbox := [], outbox := s.outbox ++ eventsOf turn.ops } := by
  refine .task hTask hTurn ?_
  rw [hInbox, List.append_nil]

/-- A receiver is selected after discovery has failed. -/
theorem selected_receiver_mirrored :
    ∃ (trace : List (Move Desktop Label)) (s : Desktop) (state : RunState),
      Run (desktop .default (fun _ => none) (fun _ => none)
          (.error (.otherError "address in use")) 8010) trace s ∧
        s.task = .parked state ∧ s.choices = [] ∧
          s.dashboard.connection = .connected livingRoom ∧
            s.dashboard.selectedReceiver = some livingRoom := by
  have hStarted : Run (desktop .default (fun _ => none) (fun _ => none)
      (.error (.otherError "address in use")) 8010) []
      { task := .parked .new
        supervisor := _
        dashboard := .new
        commands := []
        inbox := []
        outbox := []
        events := _ } :=
    .start ⟨run_start _ _, ⟨_, _, exec_answerWith willing _, rfl, rfl, rfl⟩, rfl, rfl, rfl⟩
  have hSelected := hStarted.step (.select livingRoom)
  have hPassed := hSelected.step (supervisor_takes rfl
    (takesTurn_answerWith _ _ (.command (some (.selectReceiver livingRoom))) willing trivial) rfl rfl)
  have hConnected := hPassed.step (task_takes rfl
    (takesTurn_answerWith _ _ (Cast.RunLoop.Branch.command (some (.select livingRoom)))
      (obliging 0) trivial) rfl)
  have hForwarded := hConnected.step (supervisor_takes rfl
    (takesTurn_answerWith _ _ (.event (some (.connected livingRoom))) willing trivial) rfl rfl)
  have hDrained := hForwarded.step (.drain (List.append_nil _).symm)
  obtain ⟨hLink, -, hChosen⟩ := dashboard_mirrors hDrained rfl rfl rfl
  have hShows := (hLink livingRoom).mpr ⟨_, rfl, rfl⟩
  exact ⟨_, _, _, hDrained, rfl, rfl, hShows, hChosen rfl livingRoom hShows⟩

end CastApp.Gui.Mirror
