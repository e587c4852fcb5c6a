import CastApp.Screen.Generations

/-!
# Resolution requests

A size to be encoded is asked for through one slot: the capture thread writes
it when it sees a new size, `request_resolution` writes it from outside, and
each turn of the controller reads it, restarts the encoder if need be, and
clears it.  Between the read and the clear the slot is not looked at again.

* `Serves` — a turn clears away no request but the one it served.
* **`requests_kept_iff`** — in every run, the last request is in the slot or
  served at every head of the loop, exactly when every turn `Serves`.
* `second_request_lost` — a run with a turn that does not.
-/

namespace CastApp.Screen.Bridge

open CastApp.State
open CastApp.Screen.Capture
open CastApp.Screen.Segments
open CastApp.Util.Backpressure
open CastApp.Verified.Transition

variable {p p' : Pipeline} {l : Label} {trace : List PipelineMove}

/-! ## The last request -/

def requestedIn : Label → Option Size
  | .announce size | .request size => some size
  | _ => none

/-- The size last written to the slot. -/
def lastRequest (trace : List PipelineMove) : Option Size :=
  (trace.filterMap fun m => requestedIn m.label).getLast?

theorem lastRequest_concat (trace : List PipelineMove) (p : Pipeline) (l : Label)
    (p' : Pipeline) :
    lastRequest (trace ++ [⟨p, l, p'⟩]) = (requestedIn l).or (lastRequest trace) := by
  unfold lastRequest
  rw [List.filterMap_append]
  cases h : requestedIn l with
  | none => simp [h]
  | some size => simp [h]

/-- The last request is still in the slot, or the encoder was spawned for
it. -/
def NotLost (trace : List PipelineMove) (p : Pipeline) : Prop :=
  ∀ size, lastRequest trace = some size →
    p.resolutionRequest = some size ∨ p.controller.current.map (·.size) = some size

/-- A turn that ends erases no request but for the size it served; and if it
served a format of the portal, that is the size last requested. -/
def Serves (before : List PipelineMove) (m : PipelineMove) : Prop :=
  ∀ target, m.label = .clearSlot target →
    (∀ size, m.pre.resolutionRequest = some size → size = target.size) ∧
      ∀ format, target = .portal format → m.pre.resolutionRequest = none →
        ∀ size, lastRequest before = some size → size = target.size

/-! ## Steps and the slot -/

/-- A step of another thread than the controller writes a request to the
slot, or leaves it alone. -/
theorem Step.slot (h : Step p l p') :
    ControllerStep p l p' ∨
      (p'.controller = p.controller ∧
        ((∃ size, requestedIn l = some size ∧ p'.resolutionRequest = some size) ∨
          (requestedIn l = none ∧ p'.resolutionRequest = p.resolutionRequest))) := by
  cases h with
  | controller h => exact .inl h
  | capture h =>
      refine .inr ⟨h.sameStream.controller, ?_⟩
      cases h with
      | announce => exact .inl ⟨_, rfl, rfl⟩
      | opened | enter | leave | captured | push | count | reacquire | report =>
          exact .inr ⟨rfl, rfl⟩
  | reader g h =>
      refine .inr ⟨h.controller.1, ?_⟩
      cases h <;> exact .inr ⟨rfl, rfl⟩
  | forwarder h =>
      refine .inr ⟨h.controller.1, ?_⟩
      cases h <;> exact .inr ⟨rfl, rfl⟩
  | outside h =>
      refine .inr ⟨h.sameStream.controller, ?_⟩
      cases h with
      | request => exact .inl ⟨_, rfl, rfl⟩
      | pushFrame | stop | shutdown | status | drain | close => exact .inr ⟨rfl, rfl⟩

/-- The controller clears the slot at the end of a turn, and never writes
it. -/
theorem ControllerStep.slot (h : ControllerStep p l p') :
    requestedIn l = none ∧
      ((∃ target, l = .clearSlot target ∧ p.controller.control = .clearing target ∧
          p' = { p with resolutionRequest := none }.goto .head) ∨
        ((∀ target, l ≠ .clearSlot target) ∧ p'.resolutionRequest = p.resolutionRequest)) := by
  cases h with
  | clearSlot hControl => exact ⟨rfl, .inl ⟨_, rfl, hControl, rfl⟩⟩
  | prepared | unprepared | spawned | unspawned | refuse | enter | leave | noStatus | format
  | streamFailed | readSlot | waited | join | joined | clearOutput | respawned | unrespawned
  | running | exited | unprobed | noFrame | popFrame | fed | unfed | silence | complain | fail
  | teardown => exact ⟨rfl, .inr ⟨fun _ => Label.noConfusion, rfl⟩⟩

/-- The slot is cleared at the end of a turn. -/
theorem Step.clears {target : EncoderTarget} (h : Step p (.clearSlot target) p') :
    p.controller.control = .clearing target ∧
      p' = { p with resolutionRequest := none }.goto .head := by
  cases h with
  | controller h =>
      cases h with
      | clearSlot hControl => exact ⟨hControl, rfl⟩
  | capture h | reader g h | forwarder h | outside h => cases h

/-- What is in the slot is the last request. -/
theorem run_slot {input : PipelineInput} (hRun : Run (bridge input) trace p) :
    ∀ size, p.resolutionRequest = some size → lastRequest trace = some size := by
  refine hRun.traceInvariant
    (I := fun trace p => ∀ size, p.resolutionRequest = some size → lastRequest trace = some size)
    ?_ ?_
  · rintro p ⟨shuttingDown, rfl⟩ size hSize
    cases hSize
  · intro trace p l p' hBefore h hStep size hSize
    rw [lastRequest_concat]
    rcases hStep.slot with hStep | ⟨-, ⟨other, hRequested, hSlot⟩ | ⟨hRequested, hSlot⟩⟩
    · obtain ⟨hRequested, ⟨target, -, -, rfl⟩ | ⟨-, hSlot⟩⟩ := hStep.slot
      · cases hSize
      · rw [hSlot] at hSize
        rw [hRequested]
        exact h size hSize
    · rw [hSlot] at hSize
      rw [hRequested, hSize]
      rfl
    · rw [hSlot] at hSize
      rw [hRequested]
      exact h size hSize

/-! ## The turns of the controller -/

/-- A requested size stays in the slot as long as the turn that serves it. -/
def Pending (p : Pipeline) (target : EncoderTarget) : Prop :=
  (∃ format, target = .portal format) ∨ ∃ size, p.resolutionRequest = some size

/-- What holds at each place of the controller, whatever was requested:
before the first encoder nothing was cleared, a restart has its request
pending, and at the end of a turn the encoder is the one it asked for. -/
def InTurn (trace : List PipelineMove) (p : Pipeline) : ControllerControl → Prop
  | .preparing | .spawning _ => lastRequest trace = p.resolutionRequest
  | .waiting target | .joining target _ | .emptying target | .respawning target => Pending p target
  | .clearing target => p.controller.current = some target ∧ Pending p target
  | _ => True

theorem Pending.mono {target : EncoderTarget} (h : Pending p target)
    (hSlot : (∃ size, p'.resolutionRequest = some size) ∨
      p'.resolutionRequest = p.resolutionRequest) : Pending p' target := by
  rcases h with hPortal | ⟨size, hSize⟩
  · exact .inl hPortal
  · rcases hSlot with hSlot | hSlot
    · exact .inr hSlot
    · exact .inr ⟨size, by rw [hSlot, hSize]⟩

/-- A step of another thread leaves the turn as it is. -/
theorem InTurn.other {control : ControllerControl} (h : InTurn trace p control)
    (hController : p'.controller = p.controller)
    (hSlot : (∃ size, requestedIn l = some size ∧ p'.resolutionRequest = some size) ∨
      (requestedIn l = none ∧ p'.resolutionRequest = p.resolutionRequest)) :
    InTurn (trace ++ [⟨p, l, p'⟩]) p' control := by
  have hPending : ∀ target, Pending p target → Pending p' target := by
    intro target hTarget
    refine hTarget.mono ?_
    rcases hSlot with ⟨size, -, hSize⟩ | ⟨-, hSame⟩
    · exact .inl ⟨size, hSize⟩
    · exact .inr hSame
  cases control with
  | preparing | spawning =>
      show lastRequest (trace ++ [⟨p, l, p'⟩]) = p'.resolutionRequest
      rw [lastRequest_concat]
      rcases hSlot with ⟨size, hRequested, hSize⟩ | ⟨hRequested, hSame⟩
      · rw [hRequested, hSize]
        rfl
      · rw [hRequested, hSame]
        exact h
  | waiting target | joining target | emptying target | respawning target =>
      exact hPending target h
  | clearing target =>
      refine ⟨?_, hPending target h.2⟩
      rw [hController]
      exact h.1
  | _ => trivial

/-- The candidate of a turn that reads an empty slot is the portal's. -/
theorem candidate_pending {next : Option EncoderTarget} {target : EncoderTarget}
    (hNext : ∀ target, next = some target → ∃ format, target = .portal format)
    (h : Controller.candidate next p.resolutionRequest = some target) : Pending p target := by
  unfold Controller.candidate at h
  split at h
  · rename_i size hSize
    exact .inr ⟨size, hSize⟩
  · exact .inl (hNext target h)

/-- The candidate taken from the status channel is a format. -/
theorem run_reading {input : PipelineInput} (hRun : Run (bridge input) trace p) :
    ∀ target, p.controller.control = .reading (some target) →
      ∃ format, target = .portal format := by
  refine hRun.invariant (I := fun p => ∀ target, p.controller.control = .reading (some target) →
    ∃ format, target = .portal format) ?_ ?_
  · rintro p ⟨shuttingDown, rfl⟩ target hControl
    cases input <;> cases hControl
  · intro p l p' h hStep target hControl
    rcases hStep.slot with hStep | ⟨hController, -⟩
    · cases hStep with
      | @format format =>
          cases hControl
          exact ⟨format, rfl⟩
      | @readSlot next =>
          have hNot := afterRead_reaches (Q := fun control => control ≠ .reading (some target))
            p.controller next p.resolutionRequest p.announced.length
            (fun _ _ => ⟨ControllerControl.noConfusion, ControllerControl.noConfusion⟩)
            fun _ => ControllerControl.noConfusion
          exact absurd hControl hNot
      | prepared | unprepared | spawned | unspawned | refuse | enter | leave | noStatus
      | streamFailed | waited | join | joined | clearOutput | respawned | unrespawned
      | clearSlot | running | exited | unprobed | noFrame | popFrame | fed | unfed | silence
      | complain | fail | teardown => cases hControl
    · rw [hController] at hControl
      exact h target hControl

theorem run_inTurn {input : PipelineInput} (hRun : Run (bridge input) trace p) :
    InTurn trace p p.controller.control := by
  refine hRun.traceInvariant (I := fun trace p => InTurn trace p p.controller.control) ?_ ?_
  · rintro p ⟨shuttingDown, rfl⟩
    cases input <;> rfl
  · intro trace p l p' hBefore h hStep
    rcases hStep.slot with hStep | ⟨hController, hSlot⟩
    · cases hStep with
      | prepared hControl =>
          rw [hControl] at h
          show lastRequest _ = p.resolutionRequest
          rw [lastRequest_concat]
          exact h
      | @readSlot next hControl =>
          have hNext : ∀ target, next = some target → ∃ format, target = .portal format := by
            rintro target rfl
            exact run_reading hBefore target hControl
          show InTurn _ _ (p.controller.afterRead next p.resolutionRequest _).control
          rcases afterRead_control p.controller next p.resolutionRequest p.announced.length with
            ⟨target, hTarget, -, hControl'⟩ | ⟨target, hTarget, hCurrent, hControl'⟩ |
              ⟨-, hControl'⟩
          · rw [hControl']
            exact candidate_pending hNext hTarget
          · rw [hControl']
            refine ⟨?_, candidate_pending hNext hTarget⟩
            exact (current_afterRead ..).trans hCurrent
          · rw [hControl']
            trivial
      | waited hControl | join hControl | joined hControl | clearOutput hControl =>
          rw [hControl] at h
          exact h
      | respawned hControl =>
          rw [hControl] at h
          exact ⟨rfl, h⟩
      | unprepared | spawned | unspawned | refuse | enter | leave | noStatus | format
      | streamFailed | unrespawned | clearSlot | running | exited | unprobed | noFrame | popFrame
      | fed | unfed | silence | complain | fail | teardown => trivial
    · rw [hController]
      exact h.other hController hSlot

/-! ## No request is lost -/

/-- The controller is in a turn that has not found a target, or between two
turns. -/
def Idle : ControllerControl → Prop
  | .head | .polling | .reading _ | .probing | .popping | .feeding _ => True
  | _ => False

/-- A turn that goes on there has found no target. -/
theorem idle_afterRead {c : Controller} {next : Option EncoderTarget} {requested : Option Size}
    {announcements : Nat} (hIdle : Idle (c.afterRead next requested announcements).control) :
    Controller.candidate next requested = none ∧
      (c.afterRead next requested announcements).control = .probing := by
  rcases afterRead_control c next requested announcements with
    ⟨target, -, -, hNext⟩ | ⟨target, -, -, hNext⟩ | hProbing
  · rw [hNext] at hIdle
    exact absurd hIdle id
  · rw [hNext] at hIdle
    exact absurd hIdle id
  · exact hProbing

/-- The controller gets there from there, from the first spawn, or by clearing
the slot. -/
theorem ControllerStep.idle (h : ControllerStep p l p') (hIdle : Idle p'.controller.control) :
    (Idle p.controller.control ∧ p'.controller.current = p.controller.current) ∨
      (∃ target, p.controller.control = .spawning target) ∨
      (∃ target, l = .clearSlot target ∧ p.controller.control = .clearing target ∧
        p' = { p with resolutionRequest := none }.goto .head) := by
  cases h with
  | spawned hControl => exact .inr (.inl ⟨_, hControl⟩)
  | clearSlot hControl => exact .inr (.inr ⟨_, rfl, hControl, rfl⟩)
  | readSlot hControl => exact .inl ⟨by rw [hControl]; trivial, current_afterRead ..⟩
  | enter hControl | noStatus hControl | format hControl | running hControl | noFrame hControl
  | popFrame hControl | fed hControl =>
      exact .inl ⟨by rw [hControl]; trivial, rfl⟩
  | prepared | unprepared | unspawned | refuse | leave | streamFailed | waited | join | joined
  | clearOutput | respawned | unrespawned | exited | unprobed | unfed | silence | complain | fail
  | teardown => exact absurd hIdle id

section Runs

variable {input : PipelineInput}

/-- The run lemma: while every turn serves what it clears away, nothing is
lost. -/
theorem run_notLost (hRun : Run (bridge input) trace p)
    (hServes : ∀ before m after, trace = before ++ m :: after → Serves before m) :
    Idle p.controller.control → NotLost trace p := by
  refine hRun.traceInvariant
    (I := fun trace p => (∀ before m after, trace = before ++ m :: after → Serves before m) →
      Idle p.controller.control → NotLost trace p) ?_ ?_ hServes
  · rintro p ⟨shuttingDown, rfl⟩ - hIdle
    cases input <;> cases hIdle
  · intro trace p l p' hBefore h hStep hServes hIdle size hSize
    have hServesBefore : ∀ before m after, trace = before ++ m :: after → Serves before m := by
      rintro before m after rfl
      exact hServes before m (after ++ [⟨p, l, p'⟩]) (by simp)
    rw [lastRequest_concat] at hSize
    rcases hStep.slot with hStep | ⟨hController, ⟨other, hRequested, hSlot⟩ | ⟨hRequested, hSlot⟩⟩
    · obtain ⟨hRequested, hSlot⟩ := hStep.slot
      rw [hRequested] at hSize
      have hLast : lastRequest trace = some size := hSize
      rcases hStep.idle hIdle with
        ⟨hIdleBefore, hCurrent⟩ | ⟨target, hControl⟩ | ⟨target, rfl, hControl, rfl⟩
      · rcases hSlot with ⟨target, -, hControl, -⟩ | ⟨-, hSlot⟩
        · rw [hControl] at hIdleBefore
          exact absurd hIdleBefore id
        · rw [hSlot, hCurrent]
          exact h hServesBefore hIdleBefore size hLast
      · have hInTurn := run_inTurn hBefore
        rw [hControl] at hInTurn
        rcases hSlot with ⟨other, -, hControl', -⟩ | ⟨-, hSlot⟩
        · rw [hControl] at hControl'
          cases hControl'
        · left
          rw [hSlot, ← show lastRequest trace = p.resolutionRequest from hInTurn, hLast]
      · have hInTurn := run_inTurn hBefore
        rw [hControl] at hInTurn
        obtain ⟨hErased, hAdopted⟩ := hServes trace ⟨p, .clearSlot target, _⟩ [] rfl target rfl
        have hTarget : size = target.size := by
          cases hSlot : p.resolutionRequest with
          | some other =>
              have hOther := run_slot hBefore other hSlot
              rw [hLast] at hOther
              cases hOther
              exact hErased size hSlot
          | none =>
              rcases hInTurn.2 with ⟨format, hFormat⟩ | ⟨other, hOther⟩
              · exact hAdopted format hFormat hSlot size hLast
              · rw [hSlot] at hOther
                cases hOther
        right
        show p.controller.current.map (·.size) = some size
        rw [hInTurn.1, hTarget]
        rfl
    · rw [hRequested] at hSize
      rw [hSlot]
      exact .inl hSize
    · rw [hRequested] at hSize
      rw [hController] at hIdle ⊢
      rw [hSlot]
      exact h hServesBefore hIdle size hSize

/-- **Resolution requests.**  In every run: at every head of the controller's
loop the last request is in the slot or the encoder was spawned for it,
exactly when no turn erases a request for a size it did not serve or adopts a
portal format over the request that came last. -/
theorem requests_kept_iff (hRun : Run (bridge input) trace p) :
    (∀ before m after, trace = before ++ m :: after → m.post.controller.control = .head →
        NotLost (before ++ [m]) m.post) ↔
      ∀ before m after, trace = before ++ m :: after → Serves before m := by
  constructor
  · rintro hKept before m after rfl target hLabel
    obtain ⟨hBefore, hStep⟩ := hRun.step_run
    obtain ⟨q, l, q'⟩ := m
    obtain rfl : l = .clearSlot target := hLabel
    obtain ⟨hControl, rfl⟩ := Step.clears (show Step q (.clearSlot target) q' from hStep)
    have hInTurn := run_inTurn hBefore
    rw [hControl] at hInTurn
    have hServed : ∀ size, lastRequest before = some size → size = target.size := by
      intro size hLast
      have hNotLost := hKept before _ after rfl rfl size (by rw [lastRequest_concat]; exact hLast)
      rcases hNotLost with hSlot | hCurrent
      · cases hSlot
      · have hEncoder : q.controller.current.map (·.size) = some size := hCurrent
        rw [hInTurn.1] at hEncoder
        cases hEncoder
        rfl
    exact ⟨fun size hSlot => hServed size (run_slot hBefore size hSlot),
      fun format hFormat hSlot => hServed⟩
  · rintro hServes before m after rfl hHead
    obtain ⟨hBefore, hStep⟩ := hRun.step_run
    have hHere := hBefore.step hStep
    refine run_notLost hHere ?_ (by rw [hHead]; trivial)
    rintro before' m' after' hCut
    exact hServes before' m' (after' ++ after) (by
      rw [← List.cons_append, ← List.append_assoc, ← hCut]
      simp)

end Runs

/-! ## A second change during a restart -/

/-- A black row of pixels. -/
def blackRow (width : UInt32) : Frame :=
  ⟨width, 1, List.replicate (Size.frameBytes (width, 1)) 0, List.length_replicate⟩

/-- The capture thread has seen two pixels instead of one, and the encoder
has been restarted for them. -/
theorem restarted_run :
    ∃ trace p, Run (bridge (.frames (1, 1) true)) trace p ∧
      p.controller.control = .clearing (.x11 (2, 1)) ∧ p.capture.control = .head ∧
      p.capture.expected = some (2, 1) ∧ ¬ p.TeardownRequested ∧
      lastRequest trace = some (2, 1) ∧ p.controller.current = some (.x11 (2, 1)) := by
  have hStart : Run (bridge (.frames (1, 1) true)) [] (.new (.frames (1, 1) true) false) :=
    .start ⟨false, rfl⟩
  have hSpawned := hStart.step (.controller (.spawned rfl false))
  have hOpened := hSpawned.step (.capture (.opened rfl (.ok ())))
  have hCapturing := hOpened.step (.capture (.enter rfl (by decide)))
  have hCaptured := hCapturing.step (.capture (.captured rfl (.ok (blackRow 2))))
  have hAnnounced := hCaptured.step (.capture (.announce rfl))
  have hPushed := (hAnnounced.step (.capture (.push rfl))).step (.capture (.count rfl))
  have hPolling := hPushed.step (.controller (.enter rfl (by decide)))
  have hReading := hPolling.step (.controller (.noStatus rfl (.inl rfl)))
  have hWaiting := hReading.step (.controller (.readSlot rfl))
  have hJoined := (hWaiting.step (.controller (.waited rfl))).step (.controller (.joined rfl))
  have hCleared := hJoined.step (.controller (.clearOutput rfl))
  have hRestarted := hCleared.step (.controller (.respawned rfl false))
  exact ⟨_, _, hRestarted, rfl, rfl, rfl, by decide, rfl, rfl⟩

/-- At the end of that turn, with no other request made. -/
theorem single_request_kept :
    ∃ trace p, Run (bridge (.frames (1, 1) true)) trace p ∧ p.controller.control = .head ∧
      lastRequest trace = some (2, 1) ∧
      ((∀ before m after, trace = before ++ m :: after → m.post.controller.control = .head →
          NotLost (before ++ [m]) m.post) ↔
        ∀ before m after, trace = before ++ m :: after → Serves before m) := by
  obtain ⟨trace, p, hRun, hControl, -, -, -, hLast, -⟩ := restarted_run
  have hHead := hRun.step (.controller (.clearSlot hControl))
  refine ⟨_, _, hHead, rfl, ?_, requests_kept_iff hHead⟩
  rw [lastRequest_concat]
  exact hLast

/-- A third size announced before that turn clears the slot is lost. -/
theorem second_request_lost :
    ¬ ∀ trace p, Run (bridge (.frames (1, 1) true)) trace p → p.controller.control = .head →
      NotLost trace p := by
  intro hAll
  obtain ⟨trace, p, hRun, hControl, hCapture, hExpected, hGo, -, hCurrent⟩ := restarted_run
  have hCapturing := hRun.step (.capture (.enter hCapture hGo))
  have hCaptured := hCapturing.step (.capture (.captured rfl (.ok (blackRow 3))))
  have hAnnouncing : ((({ p.capture with control := .capturing } : CaptureThread)).captured
      (.ok (blackRow 3))).control = .announcing (blackRow 3) := by
    unfold CaptureThread.captured
    simp only [hExpected]
    exact if_pos (by decide)
  have hAnnounced := hCaptured.step (.capture (.announce hAnnouncing))
  have hHead := hAnnounced.step (.controller (.clearSlot hControl))
  have hLost := hAll _ _ hHead rfl (3, 1) (by
    rw [lastRequest_concat, lastRequest_concat]
    rfl)
  rcases hLost with hSlot | hEncoder
  · cases hSlot
  · have hSize : p.controller.current.map (·.size) = some (3, 1) := hEncoder
    rw [hCurrent] at hSize
    exact absurd hSize (by decide)

end CastApp.Screen.Bridge
