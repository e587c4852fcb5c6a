import CastApp.Screen.Bridge
import CastApp.Screen.Portal
import CastApp.Verified.History

/-!
# The portal session of a controller

`controller_loop` with the portal dance it begins with, as an event loop: it
asks the portal for a session, the session for a stream, has a capture thread
spawned on the stream, waits for the format, spawns the encoder and feeds it.
The capture thread and the session are its own to end.

* `controller_leaves` — what a finished controller has done.
* **`session_closed_iff`** — a session that was created is closed once, behind
  the end of its capture thread, exactly when no later step of the dance and no
  first encoder was refused.
* `refused_encoder_leaks` — a run where the encoder was.
-/

namespace CastApp.Screen.PortalSession

open CastApp.State
open CastApp.Screen.Bridge (PwFormat EncoderTarget ExitStatus exitMessage)
open CastApp.Screen.Capture (Size)
open CastApp.Screen.Portal (PortalError)
open CastApp.Verified.Coroutine
open CastApp.Verified.EventLoop
open CastApp.Verified.History
open CastApp.Verified.Transition

/-! ## Operations -/

/-- A captured stream. -/
structure PortalStream where
  id : UInt32
  size : Size

/-- A file descriptor. -/
structure OwnedFd where
  raw : Nat

/-- What `recv_timeout` on the status channel comes to. -/
inductive Received : Type
  | format (format : PwFormat)
  | failed (error : String)
  | timeout
  | disconnected

/-- What the controller asks of the portal, of its threads and of its child. -/
inductive Op : Type
  /-- `ZbusScreenCast::connect_blocking`. -/
  | connect
  | createSession (token : String)
  | selectSources (session : String)
  /-- Until the user answers the dialog, or the wait is aborted. -/
  | start (session : String)
  | openPipewireRemote (session : String)
  /-- The spawner of the capture thread. -/
  | spawnCapture (fd : OwnedFd) (node : UInt32)
  | recvStatus
  /-- The stop flag of the capture thread. -/
  | stopCapture
  | joinCapture
  | close (session : String)
  /-- The stop flag of the pipeline or the shutdown token. -/
  | teardownRequested
  /-- `try_recv` on the status channel. -/
  | tryRecvStatus
  | readSlot
  | clearSlot
  | spawnEncoder (target : EncoderTarget)
  | closeStdin
  | waitGraceful
  | joinReaders
  | clearOutput
  | tryExit
  | stderrTail
  | tryPop
  | feed (frame : List Byte)
  | sleep
  /-- `report_once`. -/
  | fail (message : String)

abbrev Op.Ans : Op → Type
  | .connect | .selectSources _ | .close _ => Except PortalError Unit
  | .createSession _ => Except PortalError String
  | .start _ => Except PortalError PortalStream
  | .openPipewireRemote _ => Except PortalError OwnedFd
  | .spawnCapture _ _ | .spawnEncoder _ | .feed _ => Except IoError Unit
  | .recvStatus => Received
  | .teardownRequested => Bool
  | .tryRecvStatus => Option (Except String PwFormat)
  | .readSlot => Option Size
  | .tryExit => Except IoError (Option ExitStatus)
  | .stderrTail => String
  | .tryPop => Option (List Byte)
  | .stopCapture | .joinCapture | .clearSlot | .closeStdin | .waitGraceful | .joinReaders
  | .clearOutput | .sleep | .fail _ => Unit

abbrev controllerSig : Signature where
  Op := Op
  Ans := Op.Ans
  Fault := Empty

/-- A computation of the controller. -/
abbrev Steer (α : Type) : Type := Coro controllerSig α

abbrev ask (op : Op) : Steer op.Ans := @perform controllerSig op

/-- The operations so far. -/
abbrev Ops : Type := List (Entry controllerSig)

/-! ## The portal dance -/

def portalErrorText : PortalError → String
  | .dbus message => "dbus error: " ++ message
  | .canceled => "screen share was canceled by the user"
  | .rejected message => "the portal rejected the request: " ++ message
  | .malformed message => "the portal response was malformed: " ++ message
  | .aborted => "screen capture aborted"

/-- What the controller holds at the top of a loop. -/
inductive State : Type
  /-- In `wait_for_format`, with a session and a capture thread. -/
  | waiting (session : String)
  /-- In its own loop, with the session of `portal_state`. -/
  | running (portal : Option String) (current : EncoderTarget)
  | returned

/-- `fail` and return. -/
def refuse (message : String) : Steer (Flow State) := do
  ask (.fail message)
  return .exit .returned

/-- `prepare_portal` returns an error. -/
def refusePortal (error : String) : Steer (Flow State) :=
  refuse ("portal capture failed: " ++ error)

def sessionToken : String := "cast_app_capture"

/-- A portal is connected to, unless one is given. -/
def connectPortal (given : Bool) : Steer (Except PortalError Unit) :=
  if given then
    return .ok ()
  else
    ask .connect

/-- What `prepare_portal` does with a session, up to the wait for the format. -/
def selectSources (session : String) : Steer (Flow State) := do
  match ← ask (.selectSources session) with
  | .error error => refusePortal (portalErrorText error)
  | .ok () =>
      match ← ask (.start session) with
      | .error error => refusePortal (portalErrorText error)
      | .ok stream =>
          match ← ask (.openPipewireRemote session) with
          | .error error => refusePortal (portalErrorText error)
          | .ok fd =>
              match ← ask (.spawnCapture fd stream.id) with
              | .error error => refusePortal error.message
              | .ok () => return .park (.waiting session)

/-- `prepare_portal` up to the wait for the format. -/
def preparePortal (given : Bool) : Steer (Flow State) := do
  match ← connectPortal given with
  | .error error => refusePortal (portalErrorText error)
  | .ok () =>
      match ← ask (.createSession sessionToken) with
      | .error error => refusePortal (portalErrorText error)
      | .ok session => selectSources session

/-- The wait for the format fails. -/
def abandon (session error : String) : Steer (Flow State) := do
  ask .stopCapture
  ask .joinCapture
  let _ ← ask (.close session)
  refusePortal error

/-- Spawn the first encoder. -/
def startEncoder (portal : Option String) (target : EncoderTarget) : Steer (Flow State) := do
  match ← ask (.spawnEncoder target) with
  | .ok () => return .park (.running portal target)
  | .error error => refuse ("failed to start ffmpeg: " ++ error.message)

/-- One turn of `wait_for_format`, and what follows it. -/
def waitForFormat (session : String) : Steer (Flow State) := do
  match ← ask .recvStatus with
  | .format format => startEncoder (some session) (.portal format)
  | .failed error => abandon session ("pipewire capture failed: " ++ error)
  | .timeout =>
      if ← ask .teardownRequested then
        abandon session "capture aborted while waiting for the pipewire format"
      else
        return .park (.waiting session)
  | .disconnected =>
      abandon session "the pipewire capture thread ended before negotiating a format"

/-! ## The loop -/

/-- `teardown_portal`. -/
def teardownPortal (session : String) : Steer Unit := do
  ask .stopCapture
  ask .joinCapture
  let _ ← ask (.close session)
  return ()

/-- What follows the loop. -/
def leave (portal : Option String) : Steer (Flow State) := do
  match portal with
  | some session => teardownPortal session
  | none => pure ()
  ask .closeStdin
  ask .waitGraceful
  return .exit .returned

/-- `EncoderState::restart`. -/
def restart (target : EncoderTarget) : Steer (Except String Unit) := do
  ask .closeStdin
  ask .waitGraceful
  ask .joinReaders
  ask .clearOutput
  match ← ask (.spawnEncoder target) with
  | .ok () => return .ok ()
  | .error error =>
      return .error ("failed to restart ffmpeg at " ++ target.describe ++ ": " ++ error.message)

/-- Fail, unless a teardown was requested. -/
def complain (message : String) : Steer Unit := do
  if ← ask .teardownRequested then
    return ()
  else
    ask (.fail message)

/-- The rest of a turn with a candidate for a restart. -/
def applyTarget (portal : Option String) (current target : EncoderTarget) :
    Steer (Flow State) := do
  if target ≠ current then
    match ← restart target with
    | .ok () => do
        ask .clearSlot
        return .park (.running portal target)
    | .error error => do
        ask (.fail error)
        leave portal
  else do
    ask .clearSlot
    return .park (.running portal current)

/-- The rest of a turn without one. -/
def feedEncoder (portal : Option String) (current : EncoderTarget) : Steer (Flow State) := do
  match ← ask .tryExit with
  | .ok (some status) =>
      if ← ask .teardownRequested then
        leave portal
      else do
        let tail ← ask .stderrTail
        ask (.fail (exitMessage status tail))
        leave portal
  | .error error => do
      complain ("polling ffmpeg failed: " ++ error.message)
      leave portal
  | .ok none =>
      match ← ask .tryPop with
      | none => do
          ask .sleep
          return .park (.running portal current)
      | some frame =>
          match ← ask (.feed frame) with
          | .ok () => do
              ask .sleep
              return .park (.running portal current)
          | .error error => do
              complain ("writing to ffmpeg stdin failed: " ++ error.message)
              leave portal

/-- The status of the capture thread, if there is one. -/
def pollStatus (portal : Option String) : Steer (Option (Except String PwFormat)) :=
  match portal with
  | some _ => ask .tryRecvStatus
  | none => pure none

/-- One turn of the loop. -/
def loopTurn (portal : Option String) (current : EncoderTarget) : Steer (Flow State) := do
  if ← ask .teardownRequested then
    leave portal
  else
    match ← pollStatus portal with
    | some (.error error) => do
        complain ("pipewire capture failed: " ++ error)
        leave portal
    | some (.ok format) => do
        let requested ← ask .readSlot
        applyTarget portal current ((requested.map EncoderTarget.x11).getD (.portal format))
    | none =>
        match ← ask .readSlot with
        | some size => applyTarget portal current (.x11 size)
        | none => feedEncoder portal current

inductive PipelineInput : Type
  | frames (initialResolution : Size)
  /-- With a portal of the caller's own, or not. -/
  | portal (given : Bool)

/-- `controller_loop`. -/
def controllerLoop (input : PipelineInput) : EventLoop controllerSig State Unit where
  prelude :=
    match input with
    | .frames size => startEncoder none (.x11 size)
    | .portal given => preparePortal given
  guard _ _ := True
  body s _ :=
    match s with
    | .waiting session => waitForFormat session
    | .running portal current => loopTurn portal current
    | .returned => return .exit .returned

/-! ## The life of a session -/

/-- What happens to a session and to its capture thread. -/
inductive Event : Type
  | created (session : String)
  | captured
  /-- The capture thread is told to stop. -/
  | told
  | joined
  | closed (session : String)
  deriving DecidableEq

def eventOf : Entry controllerSig → Option Event
  | ⟨.createSession _, .ok session⟩ => some (.created session)
  | ⟨.spawnCapture _ _, .ok ()⟩ => some .captured
  | ⟨.stopCapture, _⟩ => some .told
  | ⟨.joinCapture, _⟩ => some .joined
  | ⟨.close session, _⟩ => some (.closed session)
  | _ => none

def lifecycle (ops : Ops) : List Event := ops.filterMap eventOf

/-- The session is closed once, and behind the end of the capture thread, if
one was spawned. -/
def ClosedOnce (session : String) (events : List Event) : Prop :=
  ∃ before after, events = before ++ .closed session :: after ∧
    (∀ other, .closed other ∉ before ∧ .closed other ∉ after) ∧
      (.captured ∈ events → ∃ first between last,
        before = first ++ .told :: between ++ .joined :: last)

/-- Every session that was created is closed once. -/
def CleanedUp (ops : Ops) : Prop :=
  ∀ session, .created session ∈ lifecycle ops → ClosedOnce session (lifecycle ops)

/-- A step of the dance behind `create_session` is refused. -/
def isRefusal : Entry controllerSig → Bool
  | ⟨.selectSources _, .error _⟩ => true
  | ⟨.start _, .error _⟩ => true
  | ⟨.openPipewireRemote _, .error _⟩ => true
  | ⟨.spawnCapture _ _, .error _⟩ => true
  | _ => false

/-- Whether an encoder could be spawned. -/
def encoderOutcome : Entry controllerSig → Option Bool
  | ⟨.spawnEncoder _, .ok ()⟩ => some true
  | ⟨.spawnEncoder _, .error _⟩ => some false
  | _ => none

/-- What came of the first encoder. -/
def firstEncoder (ops : Ops) : Option Bool := (ops.filterMap encoderOutcome).head?

/-- No step of the dance was refused behind `create_session`, nor the first
encoder. -/
structure Granted (ops : Ops) : Prop where
  dance : ops.any isRefusal = false
  encoder : firstEncoder ops ≠ some false

/-- Any answer may come. -/
abbrev Anything (op : Op) (_ : op.Ans) : Prop := True

variable {h : Ops} {session : String}

@[simp] theorem lifecycle_nil : lifecycle [] = [] := rfl

@[simp] theorem lifecycle_cons (e : Entry controllerSig) :
    lifecycle (e :: h) = (eventOf e).toList ++ lifecycle h := by
  cases hEvent : eventOf e <;> simp [lifecycle, hEvent]

@[simp] theorem lifecycle_append (later : Ops) :
    lifecycle (h ++ later) = lifecycle h ++ lifecycle later :=
  List.filterMap_append

@[simp] theorem firstEncoder_nil : firstEncoder [] = none := rfl

@[simp] theorem firstEncoder_cons (e : Entry controllerSig) :
    firstEncoder (e :: h) = (encoderOutcome e).or (firstEncoder h) := by
  cases hOutcome : encoderOutcome e <;> simp [firstEncoder, hOutcome]

@[simp] theorem firstEncoder_append (later : Ops) :
    firstEncoder (h ++ later) = (firstEncoder h).or (firstEncoder later) := by
  simp [firstEncoder, List.filterMap_append]

/-- A session that goes through the whole of it. -/
theorem cleanedUp_of_closed
    (hLife : lifecycle h = [.created session, .captured, .told, .joined, .closed session]) :
    CleanedUp h := by
  intro other hOther
  rw [hLife] at hOther ⊢
  have hSame : other = session := by simpa using hOther
  refine ⟨[.created session, .captured, .told, .joined], [], by rw [hSame]; rfl, by simp, ?_⟩
  exact fun _ => ⟨[.created session, .captured], [], [], rfl⟩

/-- A session that was created and not closed. -/
theorem not_cleanedUp (hCreated : .created session ∈ lifecycle h)
    (hOpen : .closed session ∉ lifecycle h) : ¬ CleanedUp h := by
  intro hCleaned
  obtain ⟨before, after, hEvents, -⟩ := hCleaned session hCreated
  rw [hEvents] at hOpen
  simp at hOpen

/-! ## What each part leaves -/

/-- In the dance: nothing was refused so far, and no encoder spawned. -/
structure Dancing (events : List Event) (h : Ops) : Prop where
  life : lifecycle h = events
  dance : h.any isRefusal = false
  encoder : firstEncoder h = none

/-- Between two turns of the loop. -/
def Holds : Option String → Ops → Prop
  | none, h => lifecycle h = []
  | some session, h =>
      lifecycle h = [.created session, .captured] ∧ h.any isRefusal = false ∧
        firstEncoder h = some true

/-- Between two turns of either loop. -/
def Rests (h : Ops) : State → Prop
  | .waiting session => Dancing [.created session, .captured] h
  | .running portal _ => Holds portal h
  | .returned => False

/-- What a finished controller has done with its session. -/
inductive Finished (h : Ops) : Prop
  | untouched (hLife : lifecycle h = [])
  | closed (session : String)
      (hLife : lifecycle h = [.created session, .captured, .told, .joined, .closed session])
      (hGranted : Granted h)
  | leaked (session : String) (hCreated : .created session ∈ lifecycle h)
      (hOpen : .closed session ∉ lifecycle h) (hRefused : ¬ Granted h)

/-- `p` keeps to this. -/
abbrev Settles (h : Ops) (p : Steer (Flow State)) : Prop :=
  LeavesLoop (S := controllerSig) Anything Rests (fun h _ => Finished h) h p

variable {portal : Option String} {current : EncoderTarget}

/-- An operation that concerns neither the session nor the dance. -/
theorem Holds.append (hHolds : Holds portal h) {e : Entry controllerSig} (hEvent : eventOf e = none)
    (hRefusal : isRefusal e = false) : Holds portal (h ++ [e]) := by
  cases portal with
  | none => simpa [Holds, hEvent] using hHolds
  | some session =>
      obtain ⟨hLife, hDance, hEncoder⟩ := hHolds
      simp [Holds, hEvent, hLife, hDance, hEncoder, hRefusal]

/-- One more operation of the dance. -/
theorem Dancing.append {events events' : List Event} (hDance : Dancing events h)
    {e : Entry controllerSig} (hEvents : events ++ (eventOf e).toList = events')
    (hRefusal : isRefusal e = false) (hEncoder : encoderOutcome e = none) :
    Dancing events' (h ++ [e]) where
  life := by simp [hDance.life, hEvents]
  dance := by simp [hDance.dance, hRefusal]
  encoder := by simp [hDance.encoder, hEncoder]

theorem leave_settles (hHolds : Holds portal h) : Settles h (leave portal) := by
  cases portal with
  | none =>
      refine .perform fun _ _ => .perform fun _ _ => ?_
      exact .untouched ((hHolds.append rfl rfl).append rfl rfl)
  | some session =>
      obtain ⟨hLife, hDance, hEncoder⟩ := hHolds
      intro _ _ _ _ result _ _ _ _ _
      apply Finished.closed session
      · simp [hLife, eventOf]
      · constructor
        · simp [hDance, isRefusal]
        · simp [hEncoder, encoderOutcome]

/-- Complaining is no concern of the session. -/
theorem complain_holds (hHolds : Holds portal h) (message : String) :
    Leaves (S := controllerSig) Anything h (complain message) fun h' _ => Holds portal h' := by
  intro stopping _
  cases stopping with
  | true => exact hHolds.append rfl rfl
  | false => exact fun _ _ => (hHolds.append rfl rfl).append rfl rfl

theorem complain_leave_settles (hHolds : Holds portal h) (message : String) :
    Settles h (complain message >>= fun _ => leave portal) :=
  (complain_holds hHolds message).bind fun _ _ hLater => leave_settles hLater

/-- A restart, whatever comes of it. -/
theorem restart_holds (hHolds : Holds portal h) (target : EncoderTarget) :
    Leaves (S := controllerSig) Anything h (restart target) fun h' _ => Holds portal h' := by
  intro _ _ _ _ _ _ _ _ result _
  have hLater := ((((hHolds.append (e := ⟨.closeStdin, ()⟩) rfl rfl).append
    (e := ⟨.waitGraceful, ()⟩) rfl rfl).append (e := ⟨.joinReaders, ()⟩) rfl rfl).append
      (e := ⟨.clearOutput, ()⟩) rfl rfl).append (e := ⟨.spawnEncoder target, result⟩)
  cases result with
  | ok => exact hLater rfl rfl
  | error => exact hLater rfl rfl

theorem applyTarget_settles (hHolds : Holds portal h) (target : EncoderTarget) :
    Settles h (applyTarget portal current target) := by
  unfold applyTarget
  by_cases hTarget : target ≠ current
  · rw [if_pos hTarget]
    refine (restart_holds hHolds target).bind fun h' result hLater => ?_
    cases result with
    | ok => exact fun _ _ => hLater.append rfl rfl
    | error error => exact .perform fun _ _ => leave_settles (hLater.append rfl rfl)
  · rw [if_neg hTarget]
    exact fun _ _ => hHolds.append rfl rfl

theorem feedEncoder_settles (hHolds : Holds portal h) :
    Settles h (feedEncoder portal current) := by
  refine .perform fun exit _ => ?_
  have hExit := hHolds.append (e := ⟨.tryExit, exit⟩) rfl rfl
  match exit with
  | .ok (some status) =>
      refine .perform fun stopping _ => ?_
      cases stopping with
      | true => exact leave_settles (hExit.append rfl rfl)
      | false =>
          exact .perform fun _ _ => .perform fun _ _ =>
            leave_settles (((hExit.append rfl rfl).append rfl rfl).append rfl rfl)
  | .error error => exact complain_leave_settles hExit _
  | .ok none =>
      refine .perform fun popped _ => ?_
      have hPopped := hExit.append (e := ⟨.tryPop, popped⟩) rfl rfl
      cases popped with
      | none => exact fun _ _ => hPopped.append rfl rfl
      | some frame =>
          refine .perform fun fed _ => ?_
          have hFed := hPopped.append (e := ⟨.feed frame, fed⟩) rfl rfl
          cases fed with
          | ok => exact fun _ _ => hFed.append rfl rfl
          | error error => exact complain_leave_settles hFed _

theorem pollStatus_holds (hHolds : Holds portal h) :
    Leaves (S := controllerSig) Anything h (pollStatus portal) fun h' _ => Holds portal h' := by
  cases portal with
  | none => exact hHolds
  | some session => exact fun _ _ => hHolds.append rfl rfl

theorem loopTurn_settles (hHolds : Holds portal h) : Settles h (loopTurn portal current) := by
  refine .perform fun stopping _ => ?_
  have hGoing := hHolds.append (e := ⟨.teardownRequested, stopping⟩) rfl rfl
  cases stopping with
  | true => exact leave_settles hGoing
  | false =>
      refine (pollStatus_holds hGoing).bind fun h' status hPolled => ?_
      match status with
      | some (.error error) => exact complain_leave_settles hPolled _
      | some (.ok format) =>
          exact .perform fun _ _ => applyTarget_settles (hPolled.append rfl rfl) _
      | none =>
          refine .perform fun requested _ => ?_
          have hRead := hPolled.append (e := ⟨.readSlot, requested⟩) rfl rfl
          cases requested with
          | some size => exact applyTarget_settles hRead _
          | none => exact feedEncoder_settles hRead

/-! ## The dance -/

/-- The dance ends before there is a session. -/
theorem refusePortal_untouched (hDance : Dancing [] h) (error : String) :
    Settles h (refusePortal error) := by
  intro _ _
  apply Finished.untouched
  simp [hDance.life, eventOf]

/-- A step of the dance is refused. -/
theorem refusePortal_leaks (hDance : Dancing [.created session] h) {e : Entry controllerSig}
    (hEvent : eventOf e = none) (hRefusal : isRefusal e = true) (error : String) :
    Settles (h ++ [e]) (refusePortal error) := by
  intro _ _
  apply Finished.leaked session
  · simp [hDance.life]
  · simp [hDance.life, hEvent, show eventOf ⟨.fail _, ()⟩ = none from rfl]
  · intro hGranted
    simpa [hRefusal] using hGranted.dance

/-- The dance behind `create_session`. -/
theorem selectSources_settles (hCreated : Dancing [.created session] h) :
    Settles h (selectSources session) := by
  refine .perform fun selected _ => ?_
  cases selected with
  | error => exact refusePortal_leaks hCreated rfl rfl _
  | ok =>
      have hSelected : Dancing [.created session] (h ++ [⟨.selectSources session, .ok ()⟩]) :=
        hCreated.append rfl rfl rfl
      refine .perform fun started _ => ?_
      cases started with
      | error => exact refusePortal_leaks hSelected rfl rfl _
      | ok stream =>
          have hStarted : Dancing [.created session] (_ ++ [⟨.start session, .ok stream⟩]) :=
            hSelected.append rfl rfl rfl
          refine .perform fun opened _ => ?_
          cases opened with
          | error => exact refusePortal_leaks hStarted rfl rfl _
          | ok fd =>
              have hOpened : Dancing [.created session]
                  (_ ++ [⟨.openPipewireRemote session, .ok fd⟩]) :=
                hStarted.append rfl rfl rfl
              refine .perform fun captured _ => ?_
              cases captured with
              | error => exact refusePortal_leaks hOpened rfl rfl _
              | ok => exact hOpened.append rfl rfl rfl

theorem preparePortal_settles (given : Bool) : Settles [] (preparePortal given) := by
  have hNone : Dancing [] ([] : Ops) := ⟨rfl, rfl, rfl⟩
  have hConnect : Leaves (S := controllerSig) Anything [] (connectPortal given) fun h' _ =>
      Dancing [] h' := by
    cases given with
    | true => exact hNone
    | false => exact fun _ _ => hNone.append rfl rfl rfl
  refine hConnect.bind fun h₁ connected hConnected => ?_
  cases connected with
  | error => exact refusePortal_untouched hConnected _
  | ok =>
      refine .perform fun created _ => ?_
      cases created with
      | error error =>
          have hFailed : Dancing [] (h₁ ++ [⟨.createSession sessionToken, .error error⟩]) :=
            hConnected.append rfl rfl rfl
          exact refusePortal_untouched hFailed _
      | ok session =>
          have hCreated : Dancing [.created session]
              (h₁ ++ [⟨.createSession sessionToken, .ok session⟩]) :=
            hConnected.append rfl rfl rfl
          exact selectSources_settles hCreated

/-- A wait that fails ends what was begun. -/
theorem abandon_settles (hDance : Dancing [.created session, .captured] h) (error : String) :
    Settles h (abandon session error) := by
  intro _ _ _ _ result _ _ _
  apply Finished.closed session
  · simp [hDance.life, eventOf]
  · constructor
    · simp [hDance.dance, isRefusal]
    · simp [hDance.encoder, encoderOutcome]

/-- The first encoder of a portal. -/
theorem startEncoder_settles (hDance : Dancing [.created session, .captured] h)
    (target : EncoderTarget) : Settles h (startEncoder (some session) target) := by
  intro result _
  cases result with
  | ok =>
      refine ⟨?_, ?_, ?_⟩
      · simp [hDance.life, eventOf]
      · simp [hDance.dance, isRefusal]
      · simp [hDance.encoder, encoderOutcome]
  | error error =>
      intro _ _
      apply Finished.leaked session
      · simp [hDance.life]
      · simp [hDance.life, eventOf]
      · intro hGranted
        simpa [hDance.encoder, encoderOutcome] using hGranted.encoder

theorem waitForFormat_settles (hDance : Dancing [.created session, .captured] h) :
    Settles h (waitForFormat session) := by
  refine .perform fun received _ => ?_
  have hReceived : Dancing [.created session, .captured] (h ++ [⟨.recvStatus, received⟩]) :=
    hDance.append rfl rfl rfl
  cases received with
  | format format => exact startEncoder_settles hReceived _
  | failed error => exact abandon_settles hReceived _
  | disconnected => exact abandon_settles hReceived _
  | timeout =>
      refine .perform fun stopping _ => ?_
      have hAsked : Dancing [.created session, .captured] _ :=
        hReceived.append (e := ⟨.teardownRequested, stopping⟩) rfl rfl rfl
      cases stopping with
      | true => exact abandon_settles hAsked _
      | false => exact hAsked

/-! ## Every run -/

/-- The steps of a controller. -/
abbrev ControllerMove : Type := Solo controllerSig State Unit

/-- **What a finished controller has done**, whatever it was answered. -/
theorem controller_leaves {input : PipelineInput} {trace : List ControllerMove} {s : State}
    {e : Unit}
    (hRun : Run (alone (S := controllerSig) Anything (controllerLoop input)) trace (.exited s, e)) :
    Finished (answered trace) := by
  have hPrelude : Settles [] (controllerLoop input).prelude := by
    cases input with
    | portal given => exact preparePortal_settles given
    | frames size =>
        intro result _
        cases result with
        | ok => exact rfl
        | error => exact fun _ _ => .untouched rfl
  refine loopLeaves hRun hPrelude fun h s _ hRests => ?_
  cases s with
  | waiting session => exact waitForFormat_settles hRests
  | running portal current => exact loopTurn_settles hRests
  | returned => exact hRests.elim

/-- **The session is closed once, behind the end of its capture thread**,
exactly when neither a later step of the dance nor the first encoder was
refused. -/
theorem session_closed_iff {input : PipelineInput} {trace : List ControllerMove} {s : State}
    {e : Unit}
    (hRun : Run (alone (S := controllerSig) Anything (controllerLoop input)) trace (.exited s, e)) :
    CleanedUp (answered trace) ↔
      ((∃ session, .created session ∈ lifecycle (answered trace)) → Granted (answered trace)) := by
  cases controller_leaves hRun with
  | untouched hLife => simp [CleanedUp, hLife]
  | closed session hLife hGranted =>
      exact ⟨fun _ _ => hGranted, fun _ => cleanedUp_of_closed hLife⟩
  | leaked session hCreated hOpen hRefused =>
      constructor
      · exact fun hCleaned => absurd hCleaned (not_cleanedUp hCreated hOpen)
      · exact fun hGranted => absurd (hGranted ⟨session, hCreated⟩) hRefused

/-! ## Two runs -/

/-- Everything succeeds, at once; no encoder can be spawned unless `encoder`. -/
def compositor (encoder : Bool) : Oracle controllerSig
  | .connect | .selectSources _ | .close _ => .ok ()
  | .createSession _ => .ok "session/1"
  | .start _ => .ok ⟨42, (1920, 1080)⟩
  | .openPipewireRemote _ => .ok ⟨7⟩
  | .spawnCapture _ _ | .feed _ => .ok ()
  | .spawnEncoder _ => if encoder then .ok () else .error ⟨.other, "No such file or directory"⟩
  | .recvStatus => .format ⟨1920, 1080, .bgr0⟩
  | .teardownRequested => true
  | .tryRecvStatus | .readSlot | .tryPop => none
  | .tryExit => .ok none
  | .stderrTail => ""
  | .stopCapture | .joinCapture | .clearSlot | .closeStdin | .waitGraceful | .joinReaders
  | .clearOutput | .sleep | .fail _ => ()

/-- The dance succeeds, a format comes, and the first encoder is spawned or
not. -/
theorem run_negotiated (encoder : Bool) :
    ∃ trace, Run (alone (S := controllerSig) Anything (controllerLoop (.portal false))) trace
        (settled ((waitForFormat "session/1").answerWith (compositor encoder)).2, ()) ∧
      answered trace = ((preparePortal false).answerWith (compositor encoder)).1 ++
        ((waitForFormat "session/1").answerWith (compositor encoder)).1 := by
  have hAny (op : Op) : Anything op (compositor encoder op) := trivial
  obtain ⟨_, hDanced, hDance⟩ := run_prelude (controllerLoop (.portal false)) hAny
  obtain ⟨trace, hRun, hAnswered⟩ :=
    run_turn (s := State.waiting "session/1") (b := ()) hAny trivial hDanced
  exact ⟨trace, hRun, hDance ▸ hAnswered⟩

/-- **An encoder that cannot be spawned leaks the session**: the capture thread
is neither told to stop nor joined, and the session is not closed. -/
theorem refused_encoder_leaks :
    ∃ trace s,
      Run (alone (S := controllerSig) Anything (controllerLoop (.portal false))) trace
        (.exited s, ()) ∧
      lifecycle (answered trace) = [.created "session/1", .captured] ∧
        ¬ CleanedUp (answered trace) := by
  obtain ⟨trace, hRun, hAnswered⟩ := run_negotiated false
  have hLife : lifecycle (answered trace) = [.created "session/1", .captured] := by
    rw [hAnswered]
    rfl
  have hCreated : Event.created "session/1" ∈ lifecycle (answered trace) := by simp [hLife]
  have hOpen : Event.closed "session/1" ∉ lifecycle (answered trace) := by simp [hLife]
  exact ⟨trace, _, hRun, hLife, not_cleanedUp hCreated hOpen⟩

/-- A pipeline that is stopped after its encoder was spawned. -/
theorem stopped_session_closed :
    ∃ trace s,
      Run (alone (S := controllerSig) Anything (controllerLoop (.portal false))) trace
        (.exited s, ()) ∧
      lifecycle (answered trace) =
          [.created "session/1", .captured, .told, .joined, .closed "session/1"] ∧
        (CleanedUp (answered trace) ↔
          ((∃ session, .created session ∈ lifecycle (answered trace)) →
            Granted (answered trace))) := by
  have hAny (op : Op) : Anything op (compositor true op) := trivial
  obtain ⟨_, hSpawned, hNegotiated⟩ := run_negotiated true
  obtain ⟨trace, hRun, hAnswered⟩ :=
    run_turn (s := State.running (some "session/1") (.portal ⟨1920, 1080, .bgr0⟩)) (b := ())
      hAny trivial hSpawned
  refine ⟨trace, _, hRun, ?_, session_closed_iff hRun⟩
  rw [hAnswered, hNegotiated]
  rfl

end CastApp.Screen.PortalSession
