import CastApp.Runtime.CommandEffect

/-!
# The remembered volume

`SET_VOLUME` carries a level and a mute state, a command of the user changes
one of them, and the supervisor adds the other from memory.  It remembers what
the user set and what the events of the connection task report, which are
`RECEIVER_STATUS` messages as parsed: where a volume object omits a field, the
parser fills in full volume or unmuted.

* `run_remembers` — the memory is the last level and mute state stated, in
  whatever order commands and messages come.
* **`mute_keeps_level`** — each command carries the last value of the other
  field, with the omissions of a message filled in.
* `omitted_mute_unmutes` — they are not left as they were.
-/

namespace CastApp.Runtime.VolumeMirror

open CastApp.Cast.Namespaces
open CastApp.Cast.Session
open CastApp.Runtime.CommandEffect
open CastApp.Runtime.Supervisor
open CastApp.State
open CastApp.Util.Json
open CastApp.Verified.Coroutine
open CastApp.Verified.RelyGuarantee
open CastApp.Verified.Transition

/-! ## What is stated -/

/-- The `volume` object of a status. -/
def volumeObject (status : List (String × Json)) : Option (List (String × Json)) :=
  (Json.getField status "volume").bind Json.asObject

/-- How the fields of a volume object are read. -/
structure Reading where
  level : List (String × Json) → Option Float32
  muted : List (String × Json) → Option Bool

/-- Only what the object says. -/
def asSent : Reading where
  level volume := ((Json.getField volume "level").bind Json.asF64).map Float.toFloat32
  muted volume := (Json.getField volume "muted").bind Json.asBool

/-- With the defaults of the parser. -/
def asParsed : Reading where
  level volume := some ((asSent.level volume).getD 1.0)
  muted volume := some ((asSent.muted volume).getD false)

/-- What the supervisor takes up: a command, the events a session makes of a
status, or any other event. -/
inductive Input : Type
  | command (command : AppCommand)
  | status (session : Session) (status : List (String × Json))
  | event (event : ConnectionEvent)

namespace Input

/-- Volume events come from a status only. -/
def Genuine : Input → Prop
  | .event (.volume _ _) => False
  | _ => True

/-- The level an input states. -/
def level (reading : Reading) : Input → Option Float32
  | .command (.setVolume level) => some level
  | .status _ object => (volumeObject object).bind reading.level
  | _ => none

/-- The mute state an input states. -/
def muted (reading : Reading) : Input → Option Bool
  | .command (.mute muted) => some muted
  | .status _ object => (volumeObject object).bind reading.muted
  | _ => none

variable (urlPath : UrlPath)

/-- What the supervisor does with an input. -/
def body (state : SupervisorState) : Input → Supervise SupervisorState
  | .command asked => handleCommand urlPath state asked
  | .status session object =>
      forwardAll state (session.applyReceiverStatus (receiverStatusOf object)).1
  | .event heard => forwardConnectionEvent state heard

end Input

/-- An input, with the operations it led to. -/
structure Turn where
  input : Input
  ops : List (Entry supervisorSig)

/-- The supervisor, once it has started, with its inputs in any order. -/
def mirror (urlPath : UrlPath) : System SupervisorState Turn where
  init s := ∃ discovery initialPort ops, Exec (startUp discovery initialPort) ops (.value s)
  step s turn s' :=
    turn.input.Genuine ∧ Exec (turn.input.body urlPath s) turn.ops (.value s')

/-- The level stated last. -/
def lastLevel (reading : Reading) (trace : List (Move SupervisorState Turn)) : Option Float32 :=
  (trace.filterMap fun m => m.label.input.level reading).getLast?

/-- The mute state stated last. -/
def lastMuted (reading : Reading) (trace : List (Move SupervisorState Turn)) : Option Bool :=
  (trace.filterMap fun m => m.label.input.muted reading).getLast?

/-- What a `Mute` sends carries the level stated last. -/
def CarriesLevel (reading : Reading) (trace : List (Move SupervisorState Turn)) : Prop :=
  ∀ before m after muted level, trace = before ++ m :: after →
    m.label.input = .command (.mute muted) → lastLevel reading before = some level →
      m.label.ops = [⟨.cast (.setVolume level muted), ()⟩]

/-- What a `SetVolume` sends carries the mute state stated last. -/
def CarriesMuted (reading : Reading) (trace : List (Move SupervisorState Turn)) : Prop :=
  ∀ before m after level muted, trace = before ++ m :: after →
    m.label.input = .command (.setVolume level) → lastMuted reading before = some muted →
      m.label.ops = [⟨.cast (.setVolume level muted), ()⟩]

variable {urlPath : UrlPath} {trace : List (Move SupervisorState Turn)}
  {s s' : SupervisorState}

@[simp] theorem lastLevel_append (reading : Reading) (m : Move SupervisorState Turn) :
    lastLevel reading (trace ++ [m]) =
      (m.label.input.level reading).or (lastLevel reading trace) := by
  cases h : m.label.input.level reading <;> simp [lastLevel, List.filterMap_append, h]

@[simp] theorem lastMuted_append (reading : Reading) (m : Move SupervisorState Turn) :
    lastMuted reading (trace ++ [m]) =
      (m.label.input.muted reading).or (lastMuted reading trace) := by
  cases h : m.label.input.muted reading <;> simp [lastMuted, List.filterMap_append, h]

/-! ## What is remembered -/

/-- The volume after an input. -/
def volumeTaken (volume : Float32 × Bool) (input : Input) : Float32 × Bool :=
  ((input.level asParsed).getD volume.1, (input.muted asParsed).getD volume.2)

theorem volumeAfter_eq (volume : Float32 × Bool) (command : AppCommand) :
    volumeAfter volume command = volumeTaken volume (.command command) := by
  cases command <;> rfl

/-- The events of a status report its volume object, as parsed. -/
theorem heard_applyReceiverStatus (volume : Float32 × Bool) (session : Session)
    (status : List (String × Json)) :
    (session.applyReceiverStatus (receiverStatusOf status)).1.foldl volumeHeard volume =
      volumeTaken volume (.status session status) := by
  have hReady (session : Session) : session.becomeReady.1.foldl volumeHeard volume = volume := by
    unfold Session.becomeReady
    split
    · split <;> rfl
    · rfl
  show ((session.adoptIds (receiverStatusOf status)).becomeReady.1 ++
    Session.volumeEvents ((volumeObject status).map parseVolume)).foldl _ _ = _
  rw [List.foldl_append, hReady]
  simp only [volumeTaken, Input.level, Input.muted]
  cases volumeObject status <;> rfl

/-- One input, on what is remembered. -/
theorem remembers_step {volume : Float32 × Bool} {turn : Turn}
    (h : Remembers (fun _ => True) True volume s) (hStep : (mirror urlPath).step s turn s') :
    Remembers (fun _ => True) True (volumeTaken volume turn.input) s' := by
  obtain ⟨hGenuine, hExec⟩ := hStep
  have hRely (e : Entry supervisorSig) (_ : e ∈ turn.ops) : Selected (fun _ => True) e.1 e.2 := by
    unfold Selected
    split <;> trivial
  cases hInput : turn.input with
  | command command =>
      rw [hInput] at hExec
      rw [← volumeAfter_eq]
      exact ((handleCommand_maintains h fun _ => trivial).exec hExec hRely).2 s' rfl
  | status session status =>
      rw [hInput] at hExec
      rw [← heard_applyReceiverStatus]
      exact ((forwardAll_maintains h _).exec hExec hRely).2 s' rfl
  | event event =>
      rw [hInput] at hExec hGenuine
      have hHeard := ((forwardConnectionEvent_maintains h event).exec hExec hRely).2 s' rfl
      cases event with
      | volume => exact hGenuine.elim
      | _ => exact hHeard

/-- **The memory is what was stated last**, else what the supervisor started
with. -/
theorem run_remembers (hRun : Run (mirror urlPath) trace s) :
    s.lastVolume = (lastLevel asParsed trace).getD 0 ∧
      s.muted = (lastMuted asParsed trace).getD false := by
  suffices h : Remembers (fun _ => True) True
      ((lastLevel asParsed trace).getD 0, (lastMuted asParsed trace).getD false) s from
    ⟨h.lastVolume, h.muted⟩
  induction hRun with
  | start hInit =>
      obtain ⟨discovery, initialPort, ops, hExec⟩ := hInit
      refine ((startUp_maintains discovery initialPort).exec hExec ?_).2 _ rfl
      intro e _
      unfold Selected
      split <;> trivial
  | step _ hStep ih =>
      have hNext := remembers_step ih hStep
      simp only [volumeTaken, ← Option.getD_or] at hNext
      rwa [lastLevel_append, lastMuted_append]

/-! ## What is sent -/

/-- What a command that sets the volume sends. -/
theorem sent_setVolume {level : Float32} {muted : Bool} {state : SupervisorState}
    {ops : List (Entry supervisorSig)} {o : Outcome supervisorSig SupervisorState}
    (hExec : Exec (ask (.cast (.setVolume level muted)) >>= fun _ => pure state) ops o) :
    ops = [⟨.cast (.setVolume level muted), ()⟩] := by
  obtain ⟨r, rest, rfl, rfl, -⟩ := hExec
  rfl

/-- **Muting keeps the level, and setting the level keeps the mute state**, in
every order of commands and messages. -/
theorem mute_keeps_level (hRun : Run (mirror urlPath) trace s) :
    CarriesLevel asParsed trace ∧ CarriesMuted asParsed trace := by
  constructor
  · intro before m after muted level hTrace hInput hLevel
    obtain ⟨hBefore, -, hExec⟩ := (hTrace ▸ hRun).step_run
    have hMemory := (run_remembers hBefore).1
    rw [hLevel] at hMemory
    rw [hInput] at hExec
    rw [← show m.pre.lastVolume = level from hMemory]
    exact sent_setVolume hExec
  · intro before m after level muted hTrace hInput hMuted
    obtain ⟨hBefore, -, hExec⟩ := (hTrace ▸ hRun).step_run
    have hMemory := (run_remembers hBefore).2
    rw [hMuted] at hMemory
    rw [hInput] at hExec
    rw [← show m.pre.muted = muted from hMemory]
    exact sent_setVolume hExec

/-! ## Two orders of inputs -/

/-- Nothing is found and nothing succeeds. -/
def quiet : Oracle supervisorSig
  | .enumerateDisplays => .error ""
  | .bindSocket => .error ⟨.other, ""⟩
  | .selectLanIp _ => 0
  | .awaitAck => none
  | .boundPort => 0
  | .startScreen _ => none
  | .drainCast => []
  | .emit _ | .spawnDiscovery | .bumpRescan | .startCast | .startServer | .subscribePort
  | .subscribe | .cast _ | .server _ | .stopScreen | .detachScreen | .joinScreen
  | .awaitServer | .awaitCast | .awaitDiscovery | .finish => ()

theorem mirror_started (urlPath : UrlPath) : ∃ s, (mirror urlPath).init s :=
  ⟨_, .error ⟨.other, ""⟩, 8010, _, exec_answerWith quiet _⟩

/-- A session that was just opened. -/
def freshSession : Session :=
  .new (CastDevice.fromManualAddr ⟨.v4 0xC0A80105, 8009⟩) ⟨0⟩ 0

/-- A status whose volume object is empty. -/
def emptyVolume : List (String × Json) := [("volume", .object [])]

theorem step_mute (s : SupervisorState) (muted : Bool) :
    (mirror urlPath).step s
      ⟨.command (.mute muted), [⟨.cast (.setVolume s.lastVolume muted), ()⟩]⟩
      { s with muted := muted } :=
  ⟨trivial, (), [], rfl, rfl, rfl⟩

theorem step_setVolume (s : SupervisorState) (level : Float32) :
    (mirror urlPath).step s
      ⟨.command (.setVolume level), [⟨.cast (.setVolume level s.muted), ()⟩]⟩
      { s with lastVolume := level } :=
  ⟨trivial, (), [], rfl, rfl, rfl⟩

theorem step_emptyVolume (s : SupervisorState) :
    (mirror urlPath).step s
      ⟨.status freshSession emptyVolume, [⟨.emit (.volume 1.0 false), ()⟩]⟩
      { s with lastVolume := 1.0, muted := false } :=
  ⟨trivial, (), [], rfl, rfl, rfl⟩

/-- **A status that omits the mute state unmutes**: the level that is set next
is sent unmuted, although the user has muted the receiver and nobody has
unmuted it. -/
theorem omitted_mute_unmutes :
    ∃ trace s, Run (mirror fun _ => none) trace s ∧ ¬ CarriesMuted asSent trace := by
  obtain ⟨s, hInit⟩ := mirror_started fun _ => none
  have hRun := (((Run.start hInit).step (step_mute s true)).step (step_emptyVolume _)).step
    (step_setVolume _ 0.5)
  refine ⟨_, _, hRun, fun hCarries => ?_⟩
  have hSent := hCarries _ _ [] 0.5 true rfl rfl rfl
  simp at hSent

/-- A level is set, a status omits it, and the mute that follows carries full
volume. -/
theorem omitted_level_muted_full :
    ∃ trace s, Run (mirror fun _ => none) trace s ∧
      CarriesLevel asParsed trace ∧ CarriesMuted asParsed trace ∧
        lastLevel asParsed trace = some 1.0 := by
  obtain ⟨s, hInit⟩ := mirror_started fun _ => none
  have hRun := (((Run.start hInit).step (step_setVolume s 0.5)).step (step_emptyVolume _)).step
    (step_mute _ true)
  exact ⟨_, _, hRun, (mute_keeps_level hRun).1, (mute_keeps_level hRun).2, rfl⟩

end CastApp.Runtime.VolumeMirror
