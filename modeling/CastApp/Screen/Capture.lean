import CastApp.State

/-!
# The capture thread

One thread captures the selected monitor.  It announces a size to the
controller when it differs from that of the frame before, then queues the
frame; it gives up after too many failures in a row, of captures or of
re-acquiring the monitor.

`CaptureThread` is the thread between two accesses to what it shares: each
function below is what it does with one answer.
-/

namespace CastApp.Screen.Capture

open CastApp.State

/-- Width and height, in pixels. -/
abbrev Size : Type := UInt32 × UInt32

/-- The bytes of a raw frame of a size, four for each pixel. -/
def Size.frameBytes (size : Size) : Nat := size.1.toNat * size.2.toNat * 4

structure Frame where
  width : UInt32
  height : UInt32
  bytes : List Byte
  hBytes : bytes.length = Size.frameBytes (width, height)

def Frame.size (frame : Frame) : Size := (frame.width, frame.height)

def maxConsecutiveFailures : UInt32 := 5

/-- Frames between two looks for the monitor. -/
def monitorReacquireInterval : UInt32 := 30

/-- Where the thread stands. -/
inductive CaptureControl : Type
  /-- About to open the monitor. -/
  | opening
  /-- The head of the loop. -/
  | head
  | capturing
  /-- About to write the size of a frame to the resolution slot. -/
  | announcing (frame : Frame)
  /-- About to queue a frame. -/
  | pushing (frame : Frame)
  /-- Behind the capture, about to count it. -/
  | counting
  | reacquiring
  /-- About to call `on_error`. -/
  | reporting (message : String)
  | finished

structure CaptureThread where
  control : CaptureControl
  expected : Option Size
  captureFailures : UInt32
  reacquireFailures : UInt32
  frameCount : UInt32

namespace CaptureThread

def new : CaptureThread := ⟨.opening, none, 0, 0, 0⟩

/-- No capture thread. -/
def absent : CaptureThread := ⟨.finished, none, 0, 0, 0⟩

def opened (t : CaptureThread) : Except String Unit → CaptureThread
  | .ok () => { t with control := .head }
  | .error error => { t with control := .reporting ("failed to open monitor: " ++ error) }

def captured (t : CaptureThread) : Except String Frame → CaptureThread
  | .ok frame =>
      { t with
        captureFailures := 0
        control := if t.expected ≠ some frame.size then .announcing frame else .pushing frame }
  | .error error =>
      let failures := t.captureFailures + 1
      { t with
        captureFailures := failures
        control :=
          if failures ≥ maxConsecutiveFailures then
            .reporting ("screen capture failed " ++ toString failures.toNat ++
              " times in a row: " ++ error)
          else
            .counting }

def announced (t : CaptureThread) (frame : Frame) : CaptureThread :=
  { t with expected := some frame.size, control := .pushing frame }

def pushed (t : CaptureThread) : CaptureThread := { t with control := .counting }

/-- The end of a turn.  The count wraps around, as it does in a release
build. -/
def counted (t : CaptureThread) : CaptureThread :=
  let count := t.frameCount + 1
  { t with
    frameCount := count
    control := if count % monitorReacquireInterval = 0 then .reacquiring else .head }

def reacquired (t : CaptureThread) : Except String Unit → CaptureThread
  | .ok () => { t with reacquireFailures := 0, control := .head }
  | .error error =>
      let failures := t.reacquireFailures + 1
      { t with
        reacquireFailures := failures
        control :=
          if failures ≥ maxConsecutiveFailures then .reporting ("monitor lost: " ++ error)
          else .head }

def ended (t : CaptureThread) : CaptureThread := { t with control := .finished }

/-! ## What a capture leads to -/

variable {t : CaptureThread}

/-- A frame is queued under the size last announced, or its own is announced
first. -/
theorem captured_frame (frame : Frame) :
    ((t.captured (.ok frame)).control = .announcing frame ∨
      (t.captured (.ok frame)).control = .pushing frame ∧ t.expected = some frame.size) ∧
      (t.captured (.ok frame)).expected = t.expected := by
  by_cases hSize : t.expected = some frame.size
  · simp [captured, hSize]
  · simp [captured, hSize]

/-- No frame is in hand, and the size expected is as before. -/
def EmptyHanded (t t' : CaptureThread) : Prop :=
  (∀ frame, t'.control ≠ .pushing frame) ∧ t'.expected = t.expected

theorem captured_error (error : String) : EmptyHanded t (t.captured (.error error)) := by
  unfold EmptyHanded captured
  dsimp only
  split <;> simp

theorem counted_emptyHanded : EmptyHanded t t.counted := by
  unfold EmptyHanded counted
  dsimp only
  split <;> simp

theorem reacquired_emptyHanded (result : Except String Unit) :
    EmptyHanded t (t.reacquired result) := by
  cases result with
  | ok => simp [EmptyHanded, reacquired]
  | error error =>
      unfold EmptyHanded reacquired
      dsimp only
      split <;> simp

theorem opened_emptyHanded (result : Except String Unit) : EmptyHanded t (t.opened result) := by
  cases result <;> simp [EmptyHanded, opened]

end CaptureThread

end CastApp.Screen.Capture
