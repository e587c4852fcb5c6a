import CastApp.Runtime.EventRelay

/-!
# What a turn of the supervisor shows

Of everything the supervisor does in a turn, what asks or warns the user, what
sets the source that is served, and what is loaded.  `Says p Q` is a
postcondition on these alone.

* `handleCommand_tells`, `branchBody_tells` — what a command and a turn show.
* `startUp_tells` — the user is asked once before the loop.
-/

namespace CastApp.Runtime.Notices

open CastApp.Cast.Session (ConnectionEvent LoadRequest)
open CastApp.Media.MediaServer (ActiveSource)
open CastApp.Runtime.EventRelay
open CastApp.Runtime.Supervisor
open CastApp.State
open CastApp.Verified.Coroutine
open CastApp.Verified.EventLoop

inductive Shown : Type
  /-- The user is asked for the wildcard bind. -/
  | asked
  | warned (message : String)
  | served (source : ActiveSource)
  | loaded (request : LoadRequest)
  /-- The last events of the connection task. -/
  | drained (events : List ConnectionEvent)

def shownOf : Entry supervisorSig → List Shown
  | ⟨.emit (.bindFallbackRequested _), _⟩ => [.asked]
  | ⟨.emit (.certificateWarning message), _⟩ => [.warned message]
  | ⟨.server (.setSource source), _⟩ => [.served source]
  | ⟨.cast (.load request), _⟩ => [.loaded request]
  | ⟨.drainCast, events⟩ => [.drained events]
  | _ => []

def shows (ops : Ops) : List Shown := ops.flatMap shownOf

theorem shows_append (xs ys : Ops) : shows (xs ++ ys) = shows xs ++ shows ys :=
  List.flatMap_append

/-- What `p` shows, and the value it ends with. -/
def Says {α : Type} (p : Supervise α) (Q : List Shown → α → Prop) : Prop :=
  Ensures p fun ops o => ∃ a, o = .value a ∧ Q (shows ops) a

section Rules

variable {α γ : Type} {Q R : List Shown → α → Prop}

theorem Says.done {a : α} (h : Q [] a) : Says (pure a) Q := ensures_pure.mpr ⟨a, rfl, h⟩

theorem Says.mono {p : Supervise α} (hp : Says p Q) (h : ∀ shown a, Q shown a → R shown a) :
    Says p R := by
  refine Ensures.mono hp ?_
  rintro ops o ⟨a, rfl, hQ⟩
  exact ⟨a, rfl, h _ _ hQ⟩

/-- Sequencing. -/
theorem Says.bind {p : Supervise γ} {f : γ → Supervise α} {P : List Shown → γ → Prop}
    (hp : Says p P)
    (hf : ∀ shown c, P shown c → Says (f c) fun shown' a => Q (shown ++ shown') a) :
    Says (p >>= f) Q := by
  refine Ensures.bind hp ?_ fun _ e _ => e.elim
  rintro ops c ⟨_, ⟨⟩, hP⟩
  refine Ensures.mono (hf _ c hP) ?_
  rintro ops' o ⟨a, rfl, hQ⟩
  refine ⟨a, rfl, ?_⟩
  rw [shows_append]
  exact hQ

/-- One operation. -/
theorem Says.perform {op : Op} {f : op.Ans → Supervise α}
    (hf : ∀ r, Says (f r) fun shown a => Q (shownOf ⟨op, r⟩ ++ shown) a) :
    Says (ask op >>= f) Q :=
  ensures_perform_bind.mpr hf

theorem Says.one {op : Op} {Q : List Shown → op.Ans → Prop} (h : ∀ r, Q (shownOf ⟨op, r⟩) r) :
    Says (ask op) Q := by
  rintro _ _ hExec
  obtain ⟨r, rfl, rfl⟩ := exec_perform.mp hExec
  refine ⟨r, rfl, ?_⟩
  rw [shows, List.flatMap_singleton]
  exact h r

/-- Sequencing with what shows nothing. -/
theorem Says.quietly {p : Supervise γ} {f : γ → Supervise α} {P : γ → Prop}
    (hp : Says p fun shown c => shown = [] ∧ P c) (hf : ∀ c, P c → Says (f c) Q) :
    Says (p >>= f) Q := by
  refine hp.bind ?_
  rintro _ c ⟨rfl, hP⟩
  exact hf c hP

end Rules

/-! ## The supervisor -/

variable {urlPath : UrlPath} {state : SupervisorState}

/-- What a turn leaves of the source and of the question. -/
structure Left (source : Option ActiveSource) (pending : Bool) (state : SupervisorState) :
    Prop where
  source : state.currentSource = source
  pending : state.fallbackPending = pending

/-- Nothing is shown. -/
abbrev Silent (state : SupervisorState) (p : Supervise SupervisorState) : Prop :=
  Says p fun shown state' =>
    shown = [] ∧ Left state.currentSource state.fallbackPending state'

/-- The user may be asked, unless an answer is outstanding. -/
def Asks (state : SupervisorState) (shown : List Shown) (state' : SupervisorState) : Prop :=
  (shown = [] ∧ Left state.currentSource state.fallbackPending state') ∨
    (shown = [.asked] ∧ state.fallbackPending = false ∧ Left state.currentSource true state')

theorem requestWildcardFallback_tells (reason : String) :
    Says (requestWildcardFallback state reason) (Asks state) := by
  unfold requestWildcardFallback
  cases hPending : state.fallbackPending with
  | true => exact .done (.inl ⟨rfl, rfl, hPending.symm ▸ rfl⟩)
  | false => exact .perform fun _ => .done (.inr ⟨rfl, hPending, rfl, rfl⟩)

theorem bindAddr_tells (addr : SocketAddr) :
    Says (bindAddr addr) fun shown _ => shown = [] ∧ True := by
  refine .perform fun _ => .perform fun answer => ?_
  cases answer with
  | some result => exact .done ⟨rfl, trivial⟩
  | none => exact .done ⟨rfl, trivial⟩

theorem bindWildcard_tells : Says (bindWildcard state) fun shown _ => shown = [] ∧ True :=
  (bindAddr_tells _).quietly fun _ _ => .done ⟨rfl, trivial⟩

theorem rebindToLanIp_tells : Says (rebindToLanIp state) (Asks state) := by
  refine (bindAddr_tells _).quietly fun result _ => ?_
  cases result with
  | ok _ => exact .done (.inl ⟨rfl, rfl, rfl⟩)
  | error error =>
      by_cases hConsented : state.wildcardConsented = true
      · simp only [hConsented, if_true]
        exact bindWildcard_tells.quietly fun _ _ => .done (.inl ⟨rfl, rfl, rfl⟩)
      · simp only [hConsented]
        exact requestWildcardFallback_tells _

theorem selectReceiver_tells (device : CastDevice) :
    Says (selectReceiver state device) (Asks state) :=
  .perform fun _ => .perform fun _ => rebindToLanIp_tells

theorem refreshDisplays_tells : Says refreshDisplays fun shown _ => shown = [] ∧ True := by
  refine .perform fun answer => ?_
  cases answer with
  | ok names => exact .one fun _ => ⟨rfl, trivial⟩
  | error error => exact .done ⟨rfl, trivial⟩

/-- A `LOAD` of the current source. -/
def Loads (urlPath : UrlPath) (state : SupervisorState) (shown : List Shown) : Prop :=
  shown = [] ∨ ∃ source port, state.currentSource = some source ∧
    shown = [.loaded (loadOf urlPath (streamUrl state.lanIp port) source)]

theorem play_tells : Says (play urlPath state) fun shown _ => Loads urlPath state shown := by
  unfold play
  cases hSource : state.currentSource with
  | none => exact .done (.inl rfl)
  | some source =>
      refine .perform fun port => ?_
      by_cases hPort : port = 0
      · simp only [hPort, if_true]
        exact .done (.inl rfl)
      · simp only [hPort, if_false]
        exact .one fun _ => .inr ⟨source, port, hSource, rfl⟩

theorem startDisplay_tells (monitor : String) : Silent state (startDisplay state monitor) := by
  refine .perform fun answer => ?_
  match answer with
  | some (.ok ()) => exact .done ⟨rfl, rfl, rfl⟩
  | some (.error error) => exact .perform fun _ => .done ⟨rfl, rfl, rfl⟩
  | none => exact .perform fun _ => .done ⟨rfl, rfl, rfl⟩

/-- The source is set. -/
def Serves (state : SupervisorState) (source : ActiveSource) (shown : List Shown)
    (state' : SupervisorState) : Prop :=
  shown = [.served source] ∧ Left (some source) state.fallbackPending state'

theorem selectDisplay_tells (monitor : String) :
    Says (selectDisplay state monitor) (Serves state (.screen monitor)) := by
  have hStart : Says (do
      ask (.server (.setSource (.screen monitor)))
      startDisplay { state with screen := false, currentSource := some (.screen monitor) } monitor)
      (Serves state (.screen monitor)) := by
    refine .perform fun _ => (startDisplay_tells monitor).mono ?_
    rintro _ state' ⟨rfl, hLeft⟩
    exact ⟨rfl, hLeft.source, hLeft.pending⟩
  unfold selectDisplay
  by_cases hScreen : state.screen = true
  · simp only [hScreen, if_true]
    exact .perform fun _ => .perform fun _ => hStart
  · simp only [hScreen]
    exact hStart

theorem rescan_tells : Silent state (rescan state) := by
  refine .perform fun _ => ?_
  by_cases hStarted : state.mdnsTask = true
  · simp only [hStarted, if_true]
    exact .done ⟨rfl, rfl, rfl⟩
  · simp only [hStarted]
    refine .perform fun answer => ?_
    cases answer with
    | ok _ => exact .perform fun _ => .done ⟨rfl, rfl, rfl⟩
    | error error => exact .done ⟨rfl, rfl, rfl⟩

/-! ## Turns -/

/-- What a command shows and leaves. -/
def Commanded (urlPath : UrlPath) (state : SupervisorState) (command : AppCommand)
    (shown : List Shown) (state' : SupervisorState) : Prop :=
  match command with
  | .selectReceiver _ | .manualConnect _ => Asks state shown state'
  | .bindFallback _ => shown = [] ∧ Left state.currentSource false state'
  | .selectDisplay monitor => Serves state (.screen monitor) shown state'
  | .selectFile path => Serves state (.file path) shown state'
  | .selectUrl url => Serves state (.url url) shown state'
  | .play => Loads urlPath state shown ∧ Left state.currentSource state.fallbackPending state'
  | _ => shown = [] ∧ Left state.currentSource state.fallbackPending state'

theorem handleCommand_tells (command : AppCommand) :
    Says (handleCommand urlPath state command) (Commanded urlPath state command) := by
  cases command with
  | selectReceiver device => exact selectReceiver_tells device
  | manualConnect addr => exact selectReceiver_tells _
  | bindFallback consent =>
      cases consent with
      | true => exact bindWildcard_tells.quietly fun _ _ => .done ⟨rfl, rfl, rfl⟩
      | false => exact .done ⟨rfl, rfl, rfl⟩
  | selectSource tab =>
      cases tab with
      | display => exact refreshDisplays_tells.quietly fun _ _ => .done ⟨rfl, rfl, rfl⟩
      | localFile => exact .done ⟨rfl, rfl, rfl⟩
      | webUrl => exact .done ⟨rfl, rfl, rfl⟩
  | selectDisplay monitor => exact selectDisplay_tells monitor
  | selectFile path => exact .perform fun _ => .done ⟨rfl, rfl, rfl⟩
  | selectUrl url => exact .perform fun _ => .done ⟨rfl, rfl, rfl⟩
  | play =>
      refine play_tells.bind fun shown _ hLoads => .done ⟨?_, rfl, rfl⟩
      rw [List.append_nil]
      exact hLoads
  | pause => exact .perform fun _ => .done ⟨rfl, rfl, rfl⟩
  | stop => exact .perform fun _ => .done ⟨rfl, rfl, rfl⟩
  | setVolume level => exact .perform fun _ => .done ⟨rfl, rfl, rfl⟩
  | mute muted => exact .perform fun _ => .done ⟨rfl, rfl, rfl⟩
  | setProxyPort port => exact .perform fun _ => .done ⟨rfl, rfl, rfl⟩
  | rescan => exact rescan_tells

def warningOf : BackendEvent → Option String
  | .certificateWarning message => some message
  | _ => none

/-- The warnings of some events of the connection task. -/
def warningsOf (events : List ConnectionEvent) : List String :=
  (events.flatMap forwarded).filterMap warningOf

/-- Exactly the warnings of the events are shown. -/
def Warns (state : SupervisorState) (events : List ConnectionEvent) (shown : List Shown)
    (state' : SupervisorState) : Prop :=
  shown = (warningsOf events).map .warned ∧ Left state.currentSource state.fallbackPending state'

theorem forwardConnectionEvent_tells (event : ConnectionEvent) :
    Says (forwardConnectionEvent state event) (Warns state [event]) := by
  cases event with
  | connected device => exact .perform fun _ => .done ⟨rfl, rfl, rfl⟩
  | disconnected device => exact .perform fun _ => .done ⟨rfl, rfl, rfl⟩
  | error error => exact .perform fun _ => .done ⟨rfl, rfl, rfl⟩
  | ready transportId sessionId => exact .done ⟨rfl, rfl, rfl⟩
  | certificateMismatch device previous current => exact .perform fun _ => .done ⟨rfl, rfl, rfl⟩
  | mediaStatus playing buffering => exact .perform fun _ => .done ⟨rfl, rfl, rfl⟩
  | volume level muted => exact .perform fun _ => .done ⟨rfl, rfl, rfl⟩

theorem warningsOf_cons (event : ConnectionEvent) (events : List ConnectionEvent) :
    warningsOf (event :: events) = warningsOf [event] ++ warningsOf events := by
  rw [warningsOf, warningsOf, warningsOf, List.flatMap_cons, List.flatMap_singleton,
    List.filterMap_append]

theorem forwardAll_tells (events : List ConnectionEvent) :
    Says (forwardAll state events) (Warns state events) := by
  induction events generalizing state with
  | nil => exact .done ⟨rfl, rfl, rfl⟩
  | cons event events ih =>
      refine (forwardConnectionEvent_tells event).bind fun _ state₁ hFirst => ?_
      obtain ⟨rfl, hLeft⟩ := hFirst
      refine ih.mono fun _ state₂ hRest => ?_
      obtain ⟨rfl, hLeft'⟩ := hRest
      refine ⟨?_, hLeft'.source.trans hLeft.source, hLeft'.pending.trans hLeft.pending⟩
      rw [warningsOf_cons event events, List.map_append]

/-- The last events are passed on. -/
theorem coordinatedShutdown_tells :
    Says (coordinatedShutdown state) fun shown _ => ∃ events : List ConnectionEvent,
      shown = .drained events :: (warningsOf events).map .warned := by
  have hEnd : ∀ (state : SupervisorState), Says (do
      ask .finish
      return state) fun shown _ => shown = [] ∧ True := fun _ =>
    .perform fun _ => .done ⟨rfl, trivial⟩
  have hScreen : ∀ (state : SupervisorState), Says (do
      if state.screen then do
        ask .stopScreen
        ask .joinScreen
      ask .finish
      return state) fun shown _ => shown = [] ∧ True := by
    intro state
    by_cases hScreen : state.screen = true
    · simp only [hScreen, if_true]
      exact .perform fun _ => .perform fun _ => hEnd state
    · simp only [hScreen]
      exact hEnd state
  refine .perform fun _ => .perform fun _ => .perform fun _ => .perform fun events => ?_
  refine (forwardAll_tells events).bind fun _ state' hWarns => ?_
  obtain ⟨rfl, -⟩ := hWarns
  have hRest : Says (do
      ask .awaitCast
      if state'.mdnsTask then
        ask .awaitDiscovery
      if state'.screen then do
        ask .stopScreen
        ask .joinScreen
      ask .finish
      return state') fun shown _ => shown = [] ∧ True := by
    refine .perform fun _ => ?_
    by_cases hStarted : state'.mdnsTask = true
    · simp only [hStarted, if_true]
      exact .perform fun _ => hScreen state'
    · simp only [hStarted]
      exact hScreen state'
  refine hRest.mono ?_
  rintro _ _ ⟨rfl, -⟩
  exact ⟨events, by rw [List.append_nil]; rfl⟩

/-- What a turn shows, and where it leaves the loop. -/
def Turned (urlPath : UrlPath) (state : SupervisorState) (b : Branch) (shown : List Shown) :
    Flow SupervisorState → Prop
  | .park state' =>
      match b with
      | .command (some command) => Commanded urlPath state command shown state'
      | .event (some event) => Warns state [event] shown state'
      | _ => shown = [] ∧ Left state.currentSource state.fallbackPending state'
  | .exit _ =>
      obeyed b = [] ∧ received b = [] ∧ ∃ events : List ConnectionEvent,
        shown = .drained events :: (warningsOf events).map .warned

theorem branchBody_tells (b : Branch) :
    Says (branchBody urlPath state b) (Turned urlPath state b) := by
  have hExit : ∀ {b : Branch}, obeyed b = [] → received b = [] →
      Says (do return .exit (← coordinatedShutdown state)) (Turned urlPath state b) := by
    intro b hObeyed hReceived
    refine coordinatedShutdown_tells.bind fun shown state' hShown => .done ?_
    rw [List.append_nil]
    exact ⟨hObeyed, hReceived, hShown⟩
  match b with
  | .command (some command) =>
      refine (handleCommand_tells command).bind fun shown state' h => .done ?_
      rw [List.append_nil]
      exact h
  | .event (some event) =>
      refine (forwardConnectionEvent_tells event).bind fun shown state' h => .done ?_
      rw [List.append_nil]
      exact h
  | .port true => exact .done ⟨rfl, rfl, rfl⟩
  | .command none => exact hExit rfl rfl
  | .event none => exact hExit rfl rfl
  | .port false => exact hExit rfl rfl
  | .shutdown => exact hExit rfl rfl

/-- The user is asked once before the loop. -/
theorem startUp_tells (discovery : Except IoError Unit) (initialPort : UInt16) :
    Says (startUp discovery initialPort) fun shown state =>
      shown = [.asked] ∧ Left none true state := by
  refine refreshDisplays_tells.quietly fun _ _ => ?_
  have hDiscovery : Says (startDiscovery discovery) fun shown _ => shown = [] ∧ True := by
    cases discovery with
    | ok _ => exact .perform fun _ => .done ⟨rfl, trivial⟩
    | error error => exact .perform fun _ => .done ⟨rfl, trivial⟩
  refine hDiscovery.quietly fun mdnsTask _ => ?_
  refine .perform fun _ => .perform fun _ => .perform fun ip => ?_
  refine .perform fun _ => ?_
  exact .perform fun _ => .perform fun _ => .done ⟨rfl, rfl, rfl⟩

end CastApp.Runtime.Notices
