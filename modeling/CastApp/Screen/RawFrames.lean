import CastApp.Screen.ResolutionRequests

/-!
# Raw frames and encoders

The frames of the monitor and the sizes they come in travel separately: the
capture thread announces a new size in the slot and queues the frame, the
controller restarts the encoder when it finds a size in the slot and feeds it
what it finds in the queue.

* `Captured` — what is queued was captured under an announcement of its size.
* `InStep` — a turn that clears the slot leaves no frame of another size
  queued, and a turn takes no frame of a size announced after it looked.
* **`frames_match`** — in every run whose steps are `InStep`, every frame fed
  has the size of the encoder.
* `stale_frame_fed` — a run with a turn that leaves an old frame queued.
-/

namespace CastApp.Screen.Bridge

open CastApp.State
open CastApp.Screen.Capture
open CastApp.Screen.Segments
open CastApp.Util.Backpressure
open CastApp.Verified.Transition

variable {p p' : Pipeline} {l : Label} {trace : List PipelineMove}

/-! ## Frames and the encoder they are for -/

def fromOutside : Label → Bool
  | .request _ | .pushFrame _ => true
  | _ => false

/-- Nothing is asked or fed from outside the pipeline. -/
def Undisturbed (trace : List PipelineMove) : Prop := ∀ m ∈ trace, fromOutside m.label = false

instance (trace : List PipelineMove) : Decidable (Undisturbed trace) :=
  inferInstanceAs (Decidable (∀ m ∈ trace, fromOutside m.label = false))

/-- The frame is of the size that the encoder was spawned for. -/
def Matches (p : Pipeline) (frame : QueuedFrame) : Prop :=
  ∃ size k, p.controller.current = some (.x11 size) ∧ frame.origin = some ⟨size, k⟩ ∧
    frame.bytes.length = size.frameBytes

/-- A turn that clears the slot erases no size but the one it served, and
leaves no frame of another queued; a turn takes a frame captured under a size
announced before it looked at the slot, or under one the encoder has. -/
def InStep (m : PipelineMove) : Prop :=
  match m.label with
  | .clearSlot target =>
      (∀ size ∈ m.pre.resolutionRequest, size = target.size) ∧
        ∀ frame ∈ m.pre.frames.items, ∀ origin ∈ frame.origin, origin.size = target.size
  | .popFrame frame =>
      ∀ origin ∈ frame.origin, origin.announcement ≤ m.pre.controller.seen ∨
        m.pre.announced[origin.announcement - 1]? = m.pre.controller.current.map (·.size)
  | _ => True

instance (m : PipelineMove) : Decidable (InStep m) := by
  unfold InStep
  split
  · -- found by search, the first half would try every size there is
    exact @instDecidableAnd _ _ (Option.decidableForallMem _) inferInstance
  · infer_instance
  · infer_instance

/-! ## The monitor's controller -/

/-- The target a controller works towards is a size. -/
def Sized : ControllerControl → Prop
  | .preparing => False
  | .spawning target | .waiting target | .joining target _ | .emptying target
  | .respawning target | .clearing target => ∃ size, target = .x11 size
  | .reading next => next = none
  | _ => True

/-- Without a portal every encoder is spawned for a size. -/
structure OnMonitor (p : Pipeline) : Prop where
  portal : p.controller.portal = false
  sized : Sized p.controller.control
  current : ∀ target, p.controller.current = some target → ∃ size, target = .x11 size

theorem OnMonitor.controller (h : OnMonitor p) (hStep : ControllerStep p l p') :
    OnMonitor p' := by
  obtain ⟨hPortal, hSized, hCurrent⟩ := h
  cases hStep with
  | prepared hControl | unprepared hControl =>
      rw [hControl] at hSized
      exact absurd hSized id
  | format _ hPortal' | streamFailed _ hPortal' =>
      rw [hPortal] at hPortal'
      cases hPortal'
  | spawned hControl =>
      rw [hControl] at hSized
      refine ⟨hPortal, trivial, fun target hTarget => ?_⟩
      cases hTarget
      exact hSized
  | respawned hControl =>
      rw [hControl] at hSized
      refine ⟨hPortal, hSized, fun target hTarget => ?_⟩
      cases hTarget
      exact hSized
  | waited hControl | join hControl | joined hControl | clearOutput hControl =>
      rw [hControl] at hSized
      exact ⟨hPortal, hSized, hCurrent⟩
  | @readSlot next hControl =>
      rw [hControl] at hSized
      obtain rfl : next = none := hSized
      have hCandidate : ∀ target, Controller.candidate none p.resolutionRequest = some target →
          ∃ size, target = .x11 size := by
        intro target hTarget
        unfold Controller.candidate at hTarget
        split at hTarget
        · rename_i size hSize
          cases hTarget
          exact ⟨size, rfl⟩
        · cases hTarget
      refine ⟨hPortal, ?_, ?_⟩
      · exact afterRead_reaches p.controller none p.resolutionRequest p.announced.length
          (fun target hTarget => ⟨hCandidate target hTarget, hCandidate target hTarget⟩)
          fun _ => trivial
      · intro target hTarget
        refine hCurrent target ?_
        rw [← hTarget]
        exact (current_afterRead p.controller none p.resolutionRequest _).symm
  | teardown hControl =>
      refine ⟨rfl, trivial, fun target hTarget => hCurrent target ?_⟩
      rw [← hTarget]
      unfold Controller.current
      cases p.controller.encoder <;> rfl
  | noStatus => exact ⟨hPortal, rfl, hCurrent⟩
  | unspawned | refuse | enter | leave | unrespawned | clearSlot | running | exited | unprobed
  | noFrame | popFrame | fed | unfed | silence | complain | fail =>
      exact ⟨hPortal, trivial, hCurrent⟩

theorem run_onMonitor {initial : Size} {captureThread : Bool}
    (hRun : Run (bridge (.frames initial captureThread)) trace p) : OnMonitor p := by
  refine hRun.invariant ?_ ?_
  · rintro p ⟨shuttingDown, rfl⟩
    exact ⟨rfl, ⟨initial, rfl⟩, fun target hTarget => by cases hTarget⟩
  · intro p l p' h hStep
    rcases hStep.slot with hStep | ⟨hController, -⟩
    · exact h.controller hStep
    · refine ⟨?_, ?_, ?_⟩
      · rw [hController]
        exact h.portal
      · rw [hController]
        exact h.sized
      · rw [hController]
        exact h.current

/-! ## What the capture thread queues -/

/-- The frame was captured under an announcement of its size. -/
def Captured (announced : List Size) (frame : QueuedFrame) : Prop :=
  ∃ size k, frame.origin = some ⟨size, k + 1⟩ ∧ announced[k]? = some size ∧
    frame.bytes.length = size.frameBytes

theorem Captured.mono {announced : List Size} {frame : QueuedFrame} (h : Captured announced frame)
    (more : List Size) : Captured (announced ++ more) frame := by
  obtain ⟨size, k, hOrigin, hAnnounced, hBytes⟩ := h
  refine ⟨size, k, hOrigin, ?_, hBytes⟩
  rw [List.getElem?_append_left (List.getElem?_eq_some_iff.mp hAnnounced).1]
  exact hAnnounced

/-- The last announcement is the size the capture thread expects, the slot
holds no other, and every frame on its way was captured under one. -/
structure Announcing (p : Pipeline) : Prop where
  last : p.announced.getLast? = p.capture.expected
  slot : ∀ size, p.resolutionRequest = some size → p.capture.expected = some size
  hand : ∀ frame, p.capture.control = .pushing frame → p.capture.expected = some frame.size
  queued : ∀ frame ∈ p.frames.items, Captured p.announced frame
  feeding : ∀ frame, p.controller.control = .feeding frame → Captured p.announced frame

/-- The frame in hand is the last announced. -/
theorem Announcing.captured_hand {frame : Frame} (h : Announcing p)
    (hControl : p.capture.control = .pushing frame) :
    Captured p.announced (p.queued frame) ∧ p.announced.getLast? = some frame.size := by
  have hLast : p.announced.getLast? = some frame.size := h.last.trans (h.hand frame hControl)
  refine ⟨⟨frame.size, p.announced.length - 1, ?_, ?_, frame.hBytes⟩, hLast⟩
  · have hPos : 0 < p.announced.length := by
      rw [List.length_pos_iff]
      rintro hNil
      rw [hNil] at hLast
      cases hLast
    show some (Origin.mk frame.size p.announced.length) = _
    rw [Nat.sub_add_cancel hPos]
  · rw [← List.getLast?_eq_getElem?]
    exact hLast

theorem Announcing.capture (h : Announcing p) (hStep : CaptureStep p l p') : Announcing p' := by
  -- what the thread does with an answer changes neither the slot nor the queue
  have hKeep : ∀ t : CaptureThread, t.expected = p.capture.expected →
      (∀ frame, t.control = .pushing frame → p.capture.expected = some frame.size) →
      Announcing { p with capture := t } := by
    intro t hExpected hHand
    refine ⟨h.last.trans hExpected.symm, fun size hSize => ?_, fun frame hControl => ?_,
      h.queued, h.feeding⟩
    · show t.expected = some size
      rw [hExpected]
      exact h.slot size hSize
    · show t.expected = some frame.size
      rw [hExpected]
      exact hHand frame hControl
  have hEmpty : ∀ t : CaptureThread, p.capture.EmptyHanded t →
      Announcing { p with capture := t } :=
    fun t ht => hKeep t ht.2 fun frame hPushing => absurd hPushing (ht.1 frame)
  cases hStep with
  | opened hControl result => exact hEmpty _ (CaptureThread.opened_emptyHanded result)
  | enter | leave => exact hEmpty _ ⟨by simp [CaptureThread.ended], rfl⟩
  | captured hControl result =>
      cases result with
      | error error => exact hEmpty _ (CaptureThread.captured_error error)
      | ok frame =>
          obtain ⟨hNext, hExpected⟩ := CaptureThread.captured_frame (t := p.capture) frame
          refine hKeep _ hExpected fun other hPushing => ?_
          rcases hNext with hNext | ⟨hNext, hSize⟩
          · rw [hNext] at hPushing
            cases hPushing
          · rw [hNext] at hPushing
            cases hPushing
            exact hSize
  | @announce frame hControl =>
      refine ⟨List.getLast?_concat, fun size hSize => hSize, ?_, ?_, ?_⟩
      · intro other hPushing
        cases hPushing
        rfl
      · intro other hMem
        exact (h.queued other hMem).mono _
      · intro other hFeeding
        exact (h.feeding other hFeeding).mono _
  | @push frame hControl =>
      refine ⟨h.last, h.slot, ?_, ?_, h.feeding⟩
      · intro other hPushing
        cases hPushing
      · intro other hMem
        rcases BoundedDropOldest.mem_push hMem with hOld | rfl
        · exact h.queued other hOld
        · exact (h.captured_hand hControl).1
  | count => exact hEmpty _ CaptureThread.counted_emptyHanded
  | reacquire hControl result => exact hEmpty _ (CaptureThread.reacquired_emptyHanded result)
  | report =>
      refine ⟨h.last, h.slot, ?_, h.queued, h.feeding⟩
      intro other hPushing
      cases hPushing

theorem Announcing.controller (h : Announcing p) (hStep : ControllerStep p l p') :
    Announcing p' := by
  have hKeep : ∀ q : Pipeline, q.announced = p.announced → q.capture = p.capture →
      q.frames = p.frames →
      (∀ size, q.resolutionRequest = some size → p.resolutionRequest = some size) →
      (∀ frame, q.controller.control ≠ .feeding frame) → Announcing q := by
    intro q hAnnounced hCapture hFrames hSlot hControl
    refine ⟨?_, ?_, ?_, ?_, fun frame hFeeding => absurd hFeeding (hControl frame)⟩
    · rw [hAnnounced, hCapture]
      exact h.last
    · rw [hCapture]
      exact fun size hSize => h.slot size (hSlot size hSize)
    · rw [hCapture]
      exact h.hand
    · rw [hAnnounced, hFrames]
      exact h.queued
  cases hStep with
  | @popFrame frame frames hControl hPop =>
      have hItems := (BoundedDropOldest.tryPop_some hPop).1
      refine ⟨h.last, h.slot, h.hand, ?_, ?_⟩
      · intro other hMem
        refine h.queued other ?_
        rw [hItems]
        exact List.mem_cons_of_mem _ hMem
      · intro other hFeeding
        cases hFeeding
        refine h.queued frame ?_
        rw [hItems]
        exact List.mem_cons_self
  | @readSlot next hControl =>
      exact hKeep _ rfl rfl rfl (fun _ => id) fun frame =>
        afterRead_reaches (Q := fun control => control ≠ .feeding frame) p.controller next
          p.resolutionRequest p.announced.length
          (fun _ _ => ⟨ControllerControl.noConfusion, ControllerControl.noConfusion⟩)
          fun _ => ControllerControl.noConfusion
  | clearSlot =>
      refine hKeep _ rfl rfl rfl ?_ ?_
      · intro size hSize
        cases hSize
      · intro frame hFeeding
        cases hFeeding
  | prepared | unprepared | spawned | unspawned | refuse | enter | leave | noStatus | format
  | streamFailed | waited | join | joined | clearOutput | respawned | unrespawned | running
  | exited | unprobed | noFrame | fed | unfed | silence | complain | fail | teardown =>
      exact hKeep _ rfl rfl rfl (fun _ => id) fun frame hFeeding => by cases hFeeding

/-- Steps of the other threads change nothing here, unless they feed or ask
from outside. -/
theorem Step.other (h : Step p l p') (hInside : fromOutside l = false) :
    CaptureStep p l p' ∨ ControllerStep p l p' ∨
      (p'.announced = p.announced ∧ p'.capture = p.capture ∧ p'.frames = p.frames ∧
        p'.resolutionRequest = p.resolutionRequest ∧ p'.controller = p.controller) := by
  cases h with
  | capture h => exact .inl h
  | controller h => exact .inr (.inl h)
  | reader g h => cases h <;> exact .inr (.inr ⟨rfl, rfl, rfl, rfl, rfl⟩)
  | forwarder h => cases h <;> exact .inr (.inr ⟨rfl, rfl, rfl, rfl, rfl⟩)
  | outside h =>
      cases h with
      | request | pushFrame => cases hInside
      | stop | shutdown | status | drain | close =>
          exact .inr (.inr ⟨rfl, rfl, rfl, rfl, rfl⟩)

/-- A frame is fed when the controller holds it. -/
theorem Step.feeds {frame : QueuedFrame} (h : Step p (.feed frame) p') :
    p.controller.control = .feeding frame := by
  cases h with
  | controller h =>
      cases h with
      | fed hControl | unfed hControl => exact hControl
  | capture h | reader g h | forwarder h | outside h => cases h

theorem Undisturbed.concat {m : PipelineMove} (h : Undisturbed (trace ++ [m])) :
    Undisturbed trace ∧ fromOutside m.label = false := by
  refine ⟨fun other hMem => h other (List.mem_append_left _ hMem), ?_⟩
  exact h m (List.mem_append_right _ (List.mem_singleton.mpr rfl))

theorem run_announcing {input : PipelineInput} (hRun : Run (bridge input) trace p)
    (hInside : Undisturbed trace) : Announcing p := by
  refine hRun.traceInvariant (I := fun trace p => Undisturbed trace → Announcing p) ?_ ?_ hInside
  · rintro p ⟨shuttingDown, rfl⟩ -
    have hCapture : (Pipeline.new input shuttingDown).capture.expected = none ∧
        ∀ frame, (Pipeline.new input shuttingDown).capture.control ≠ .pushing frame := by
      unfold Pipeline.new
      dsimp only
      split <;> simp [CaptureThread.new, CaptureThread.absent]
    refine ⟨hCapture.1.symm, fun size hSize => ?_, fun frame hPushing => ?_, ?_, ?_⟩
    · cases hSize
    · exact absurd hPushing (hCapture.2 frame)
    · intro frame hMem
      cases hMem
    · intro frame hFeeding
      cases input <;> cases hFeeding
  · intro trace p l p' hBefore h hStep hInside
    obtain ⟨hInsideBefore, hHere⟩ := hInside.concat
    have hNow := h hInsideBefore
    rcases hStep.other hHere with hStep | hStep | ⟨hA, hC, hF, hS, hK⟩
    · exact hNow.capture hStep
    · exact hNow.controller hStep
    · refine ⟨?_, ?_, ?_, ?_, ?_⟩
      · rw [hA, hC]
        exact hNow.last
      · rw [hS, hC]
        exact hNow.slot
      · rw [hC]
        exact hNow.hand
      · rw [hA, hF]
        exact hNow.queued
      · rw [hA, hK]
        exact hNow.feeding

/-! ## Keeping in step -/

/-- The turn has looked at the slot and found nothing. -/
def Looked : ControllerControl → Prop
  | .probing | .popping | .feeding _ => True
  | _ => False

/-- The first `served` announcements are dealt with: with the slot empty that
is all of them, the last one is for the encoder's size, and so is every frame
captured under one of them and still on its way. -/
structure InPace (p : Pipeline) (served : Nat) : Prop where
  bound : served ≤ p.announced.length
  caughtUp : p.resolutionRequest = none → p.announced.length = served
  size : ∀ k, served = k + 1 → p.announced[k]? = p.controller.current.map (·.size)
  queued : ∀ frame ∈ p.frames.items, ∀ size k, frame.origin = some ⟨size, k⟩ → k ≤ served →
    p.controller.current.map (·.size) = some size
  looked : Looked p.controller.control → p.controller.seen = served
  feeding : ∀ frame, p.controller.control = .feeding frame → ∀ size k,
    frame.origin = some ⟨size, k⟩ → p.controller.current.map (·.size) = some size

/-- Before the first encoder nothing is served; in between turns the
controller keeps pace. -/
def KeepsPace (p : Pipeline) : Prop :=
  (∀ target, p.controller.control = .spawning target → InPace p 0) ∧
    (Idle p.controller.control → ∃ served, InPace p served)

theorem InPace.capture {served : Nat} (h : InPace p served) (hAnnouncing : Announcing p)
    (hStep : CaptureStep p l p') : InPace p' served := by
  cases hStep with
  | @announce frame hControl =>
      refine ⟨?_, ?_, ?_, h.queued, h.looked, h.feeding⟩
      · have hBound := h.bound
        show served ≤ (p.announced ++ [frame.size]).length
        rw [List.length_append]
        omega
      · intro hSlot
        cases hSlot
      · rintro k rfl
        have hLt : k < p.announced.length := h.bound
        show (p.announced ++ [frame.size])[k]? = _
        rw [List.getElem?_append_left hLt]
        exact h.size k rfl
  | @push frame hControl =>
      refine ⟨h.bound, h.caughtUp, h.size, ?_, h.looked, h.feeding⟩
      intro other hMem size k hOrigin hServed
      rcases BoundedDropOldest.mem_push hMem with hOld | rfl
      · exact h.queued other hOld size k hOrigin hServed
      · obtain ⟨⟨_, j, hOrigin', hSize, -⟩, -⟩ := hAnnouncing.captured_hand hControl
        have hHere : k = p.announced.length := by
          cases hOrigin
          rfl
        rw [hOrigin] at hOrigin'
        obtain ⟨rfl, rfl⟩ : size = _ ∧ k = j + 1 := by simpa using hOrigin'
        have hBound := h.bound
        rw [← h.size j (by omega)]
        exact hSize
  | opened | enter | leave | captured | count | reacquire | report =>
      exact ⟨h.bound, h.caughtUp, h.size, h.queued, h.looked, h.feeding⟩

/-- The end of a turn: everything announced is served. -/
theorem inPace_clear {target : EncoderTarget} (hAnnouncing : Announcing p) (hMonitor : OnMonitor p)
    (hControl : p.controller.control = .clearing target)
    (hTurn : p.controller.current = some target ∧ Pending p target)
    (hErased : ∀ size, p.resolutionRequest = some size → size = target.size)
    (hQueue : ∀ frame ∈ p.frames.items, ∀ origin, frame.origin = some origin →
      origin.size = target.size) :
    InPace ({ p with resolutionRequest := none }.goto .head) p.announced.length := by
  have hSized := hMonitor.sized
  rw [hControl] at hSized
  obtain ⟨size, rfl⟩ := hSized
  -- the request this turn serves is still in the slot
  obtain ⟨other, hSlot⟩ : ∃ other, p.resolutionRequest = some other := by
    rcases hTurn.2 with ⟨format, hFormat⟩ | hSlot
    · cases hFormat
    · exact hSlot
  have hLast : p.announced.getLast? = some size := by
    rw [hAnnouncing.last, hAnnouncing.slot other hSlot, hErased other hSlot]
    rfl
  have hCurrent : p.controller.current.map (·.size) = some size := by
    rw [hTurn.1]
    rfl
  refine ⟨Nat.le_refl _, fun _ => rfl, ?_, ?_, fun hLooked => absurd hLooked id, ?_⟩
  · intro k hk
    have hLength : p.announced.length = k + 1 := hk
    rw [List.getLast?_eq_getElem?, hLength, Nat.add_sub_cancel] at hLast
    exact hLast.trans hCurrent.symm
  · intro frame hMem other k hOrigin _
    have hSame : other = size := hQueue frame hMem ⟨other, k⟩ hOrigin
    rw [hSame]
    exact hCurrent
  · intro frame hFeeding
    cases hFeeding

/-- Pace is kept where the announcements, the slot, the queue and the encoder
are as they were. -/
theorem InPace.kept {q : Pipeline} {served : Nat} (h : InPace p served)
    (hAnnounced : q.announced = p.announced) (hSlot : q.resolutionRequest = p.resolutionRequest)
    (hFrames : q.frames = p.frames) (hCurrent : q.controller.current = p.controller.current)
    (hLooked : Looked q.controller.control → q.controller.seen = served)
    (hFeeding : ∀ frame, q.controller.control = .feeding frame →
      p.controller.control = .feeding frame) : InPace q served := by
  refine ⟨?_, ?_, ?_, ?_, hLooked, ?_⟩
  · rw [hAnnounced]
    exact h.bound
  · rw [hAnnounced, hSlot]
    exact h.caughtUp
  · rw [hAnnounced, hCurrent]
    exact h.size
  · rw [hFrames, hCurrent]
    exact h.queued
  · rw [hCurrent]
    exact fun frame hFed => h.feeding frame (hFeeding frame hFed)

/-- With the first encoder spawned, nothing announced is served. -/
theorem InPace.spawned {target : EncoderTarget} {reader : Bool} (h : InPace p 0)
    (hAnnouncing : Announcing p) : InPace ((p.spawn target reader).goto .head) 0 := by
  refine ⟨Nat.zero_le _, h.caughtUp, fun k hk => (by cases hk), ?_,
    fun hLooked => absurd hLooked id, fun frame hFeeding => by cases hFeeding⟩
  intro frame hMem size k hOrigin hServed
  obtain ⟨_, j, hOrigin', -⟩ := hAnnouncing.queued frame hMem
  rw [hOrigin] at hOrigin'
  obtain ⟨-, rfl⟩ : size = _ ∧ k = j + 1 := by simpa using hOrigin'
  omega

/-- A frame is taken in step: it is of the encoder's size. -/
theorem InPace.popFrame {served : Nat} {frame : QueuedFrame}
    {frames : BoundedDropOldest QueuedFrame} (h : InPace p served) (hAnnouncing : Announcing p)
    (hControl : p.controller.control = .popping) (hPop : p.frames.tryPop = (some frame, frames))
    (hInStep : ∀ origin ∈ frame.origin, origin.announcement ≤ p.controller.seen ∨
      p.announced[origin.announcement - 1]? = p.controller.current.map (·.size)) :
    InPace { p.goto (.feeding frame) with frames := frames } served := by
  have hItems := (BoundedDropOldest.tryPop_some hPop).1
  have hLooked : p.controller.seen = served := h.looked (by rw [hControl]; trivial)
  have hFirst : frame ∈ p.frames.items := by
    rw [hItems]
    exact List.mem_cons_self
  refine ⟨h.bound, h.caughtUp, h.size, ?_, fun _ => hLooked, ?_⟩
  · intro other hMem
    refine h.queued other ?_
    rw [hItems]
    exact List.mem_cons_of_mem _ hMem
  · intro other hFeeding size k hOrigin
    cases hFeeding
    rcases hInStep ⟨size, k⟩ hOrigin with hSeen | hSame
    · have hServed : k ≤ served := hLooked ▸ hSeen
      exact h.queued frame hFirst size k hOrigin hServed
    · obtain ⟨_, j, hOrigin', hSize, -⟩ := hAnnouncing.queued frame hFirst
      rw [hOrigin] at hOrigin'
      obtain ⟨rfl, rfl⟩ : size = _ ∧ k = j + 1 := by simpa using hOrigin'
      exact hSame.symm.trans hSize

theorem KeepsPace.controller (h : KeepsPace p) (hAnnouncing : Announcing p)
    (hMonitor : OnMonitor p) (hTurn : InTurn trace p p.controller.control)
    (hStep : ControllerStep p l p') (hInStep : InStep ⟨p, l, p'⟩) : KeepsPace p' := by
  obtain ⟨hSpawning, hIdle⟩ := h
  cases hStep with
  | prepared hControl =>
      have hSized := hMonitor.sized
      rw [hControl] at hSized
      exact absurd hSized id
  | spawned hControl =>
      exact ⟨fun target hTarget => (by cases hTarget),
        fun _ => ⟨0, (hSpawning _ hControl).spawned hAnnouncing⟩⟩
  | clearSlot hControl =>
      rw [hControl] at hTurn
      obtain ⟨hErased, hQueue⟩ := hInStep
      exact ⟨fun target hTarget => (by cases hTarget),
        fun _ => ⟨_, inPace_clear hAnnouncing hMonitor hControl hTurn hErased hQueue⟩⟩
  | enter hControl | noStatus hControl | format hControl | noFrame hControl | fed hControl =>
      refine ⟨fun target hTarget => (by cases hTarget), fun _ => ?_⟩
      obtain ⟨served, hPace⟩ := hIdle (by rw [hControl]; trivial)
      exact ⟨served, hPace.kept rfl rfl rfl rfl (fun hLooked => absurd hLooked id)
        fun frame hFeeding => by cases hFeeding⟩
  | running hControl =>
      refine ⟨fun target hTarget => (by cases hTarget), fun _ => ?_⟩
      obtain ⟨served, hPace⟩ := hIdle (by rw [hControl]; trivial)
      refine ⟨served, hPace.kept rfl rfl rfl rfl (fun _ => ?_)
        fun frame hFeeding => by cases hFeeding⟩
      exact hPace.looked (by rw [hControl]; trivial)
  | @readSlot next hControl =>
      obtain ⟨served, hPace⟩ := hIdle (by rw [hControl]; trivial)
      refine ⟨fun target hTarget => ?_, fun hIdle' => ⟨served, ?_⟩⟩
      · have hNot := afterRead_reaches (Q := fun control => control ≠ .spawning target)
          p.controller next p.resolutionRequest p.announced.length
          (fun _ _ => ⟨ControllerControl.noConfusion, ControllerControl.noConfusion⟩)
          fun _ => ControllerControl.noConfusion
        exact absurd hTarget hNot
      · obtain ⟨hNone, hNext⟩ := idle_afterRead hIdle'
        have hSlot : p.resolutionRequest = none := by
          unfold Controller.candidate at hNone
          split at hNone
          · cases hNone
          · rename_i hSlot
            exact hSlot
        refine hPace.kept rfl rfl rfl (current_afterRead ..) ?_ ?_
        · intro _
          exact hPace.caughtUp hSlot
        · intro frame hFeeding
          exact absurd (hNext.symm.trans hFeeding) ControllerControl.noConfusion
  | popFrame hControl hPop =>
      refine ⟨fun target hTarget => (by cases hTarget), fun _ => ?_⟩
      obtain ⟨served, hPace⟩ := hIdle (by rw [hControl]; trivial)
      exact ⟨served, hPace.popFrame hAnnouncing hControl hPop hInStep⟩
  | unprepared | unspawned | refuse | leave | streamFailed | waited | join | joined | clearOutput
  | respawned | unrespawned | exited | unprobed | unfed | silence | complain | fail | teardown =>
      exact ⟨fun target hTarget => (by cases hTarget), fun hNot => absurd hNot id⟩

section Runs

variable {initial : Size} {captureThread : Bool}

theorem run_keepsPace (hRun : Run (bridge (.frames initial captureThread)) trace p)
    (hInside : Undisturbed trace) (hInStep : ∀ m ∈ trace, InStep m) : KeepsPace p := by
  refine hRun.traceInvariant
    (I := fun trace p => Undisturbed trace → (∀ m ∈ trace, InStep m) → KeepsPace p) ?_ ?_
    hInside hInStep
  · rintro p ⟨shuttingDown, rfl⟩ - -
    refine ⟨fun target _ => ?_, fun hIdle => absurd hIdle id⟩
    refine ⟨Nat.le_refl _, fun _ => rfl, fun k hk => (by cases hk), ?_,
      fun hLooked => absurd hLooked id, fun frame hFeeding => by cases hFeeding⟩
    intro frame hMem
    cases hMem
  · intro trace p l p' hBefore h hStep hInside hInStep
    obtain ⟨hInsideBefore, hHere⟩ := hInside.concat
    have hNow := h hInsideBefore fun m hMem => hInStep m (List.mem_append_left _ hMem)
    have hInStepHere := hInStep ⟨p, l, p'⟩ (List.mem_append_right _ (List.mem_singleton.mpr rfl))
    have hAnnouncing := run_announcing hBefore hInsideBefore
    rcases hStep.other hHere with hStep | hStep | ⟨hA, hC, hF, hS, hK⟩
    · have hController := hStep.sameStream.controller
      refine ⟨fun target hTarget => ?_, fun hIdle => ?_⟩
      · rw [hController] at hTarget
        exact (hNow.1 target hTarget).capture hAnnouncing hStep
      · rw [hController] at hIdle
        obtain ⟨served, hPace⟩ := hNow.2 hIdle
        exact ⟨served, hPace.capture hAnnouncing hStep⟩
    · exact hNow.controller hAnnouncing (run_onMonitor hBefore) (run_inTurn hBefore) hStep hInStepHere
    · have hSame : ∀ {served}, InPace p served → InPace p' served := by
        intro served hPace
        refine hPace.kept hA hS hF (by rw [hK]) ?_ ?_
        · rw [hK]
          exact hPace.looked
        · rw [hK]
          exact fun frame => id
      unfold KeepsPace
      rw [hK]
      exact ⟨fun target hTarget => hSame (hNow.1 target hTarget), fun hIdle =>
        (hNow.2 hIdle).imp fun served => hSame⟩

/-- **Raw frames.**  In every run on the monitor's input with nothing fed or
asked from outside, whose steps are all in step: every frame written to an
encoder is of the size the encoder was spawned for, to the byte. -/
theorem frames_match (hRun : Run (bridge (.frames initial captureThread)) trace p)
    (hInside : Undisturbed trace) (hInStep : ∀ m ∈ trace, InStep m) :
    ∀ m ∈ trace, ∀ frame, m.label = .feed frame → Matches m.pre frame := by
  intro m hMem frame hLabel
  obtain ⟨before, after, rfl⟩ := List.append_of_mem hMem
  obtain ⟨hBefore, hStep⟩ := hRun.step_run
  have hInsideBefore : Undisturbed before := fun m hMem => hInside m (List.mem_append_left _ hMem)
  have hFeeding : m.pre.controller.control = .feeding frame := by
    rw [hLabel] at hStep
    exact hStep.feeds
  have hPace := (run_keepsPace hBefore hInsideBefore fun m hMem =>
    hInStep m (List.mem_append_left _ hMem)).2 (by rw [hFeeding]; trivial)
  obtain ⟨served, hPace⟩ := hPace
  obtain ⟨size, k, hOrigin, -, hBytes⟩ := (run_announcing hBefore hInsideBefore).feeding frame hFeeding
  have hCurrent := hPace.feeding frame hFeeding size (k + 1) hOrigin
  obtain ⟨target, hTarget, hSize⟩ := Option.map_eq_some_iff.mp hCurrent
  obtain ⟨size', rfl⟩ := (run_onMonitor hBefore).current target hTarget
  obtain rfl : size' = size := hSize
  exact ⟨size', k + 1, hTarget, hOrigin, hBytes⟩

end Runs

/-! ## An old frame behind a restart -/

theorem last_mem {α : Type} (before between : List α) (last : α) :
    last ∈ before ++ (between ++ [last]) := by
  simp

theorem frameQueueCapacity_pos : 0 < frameQueueCapacity := by decide

/-- A frame of one pixel was captured and is queued, and its size served. -/
def firstServed : Pipeline :=
  { Pipeline.new (.frames (1, 1) true) false with
    frames := (BoundedDropOldest.new frameQueueCapacity frameQueueCapacity_pos).push
      ⟨(blackRow 1).bytes, some ⟨(1, 1), 1⟩⟩
    readers := [.absent]
    capture := { CaptureThread.new with control := .head, expected := some (1, 1), frameCount := 1 }
    controller := ⟨.head, false, some ⟨.x11 (1, 1), true, 0⟩, 1⟩
    announced := [(1, 1)] }

theorem firstServed_run :
    ∃ trace, Run (bridge (.frames (1, 1) true)) trace firstServed ∧ Undisturbed trace ∧
      ∀ m ∈ trace, InStep m := by
  have hStart : Run (bridge (.frames (1, 1) true)) [] (.new (.frames (1, 1) true) false) :=
    .start ⟨false, rfl⟩
  have hSpawned := hStart.step (.controller (.spawned rfl false))
  have hOpened := hSpawned.step (.capture (.opened rfl (.ok ())))
  have hCapturing := hOpened.step (.capture (.enter rfl (by decide)))
  have hCaptured := hCapturing.step (.capture (.captured rfl (.ok (blackRow 1))))
  have hAnnounced := hCaptured.step (.capture (.announce rfl))
  have hPushed := (hAnnounced.step (.capture (.push rfl))).step (.capture (.count rfl))
  have hPolling := hPushed.step (.controller (.enter rfl (by decide)))
  have hReading := hPolling.step (.controller (.noStatus rfl (.inl rfl)))
  have hClearing := hReading.step (.controller (.readSlot rfl))
  have hHead := hClearing.step (.controller (.clearSlot rfl))
  exact ⟨_, hHead, by decide, by decide⟩

/-- The next turn feeds it to the encoder of its size. -/
theorem first_frame_matches :
    ∃ trace p m frame, Run (bridge (.frames (1, 1) true)) trace p ∧ m ∈ trace ∧
      m.label = .feed frame ∧ Matches m.pre frame := by
  obtain ⟨trace, hRun, hInside, hInStep⟩ := firstServed_run
  have hNil : Path (bridge (.frames (1, 1) true)) firstServed [] firstServed := .nil
  have hPolling := hNil.step (.controller (.enter rfl (by decide)))
  have hReading := hPolling.step (.controller (.noStatus rfl (.inl rfl)))
  have hProbing := hReading.step (.controller (.readSlot rfl))
  have hPopping := hProbing.step (.controller (.running rfl))
  have hFeeding := hPopping.step (.controller (.popFrame rfl rfl))
  have hFed := hFeeding.step (.controller (.fed rfl rfl rfl))
  exact ⟨_, _, _, _, hRun.extend hFed, last_mem trace _ _, rfl,
    frames_match (hRun.extend hFed) (List.forall_mem_append.mpr ⟨hInside, by decide⟩)
      (List.forall_mem_append.mpr ⟨hInStep, by decide⟩) _ (last_mem trace _ _) _ rfl⟩

/-- When the monitor then has two pixels, the encoder is restarted for them
and fed the frame of one. -/
theorem stale_frame_fed :
    ¬ ∀ trace p, Run (bridge (.frames (1, 1) true)) trace p → Undisturbed trace →
      p.announced.head? = some (1, 1) →
      ∀ m ∈ trace, ∀ frame, m.label = .feed frame → Matches m.pre frame := by
  intro hAll
  obtain ⟨trace, hRun, hInside, -⟩ := firstServed_run
  have hNil : Path (bridge (.frames (1, 1) true)) firstServed [] firstServed := .nil
  have hCapturing := hNil.step (.capture (.enter rfl (by decide)))
  have hCaptured := hCapturing.step (.capture (.captured rfl (.ok (blackRow 2))))
  have hAnnounced := hCaptured.step (.capture (.announce rfl))
  have hPushed := (hAnnounced.step (.capture (.push rfl))).step (.capture (.count rfl))
  have hPolling := hPushed.step (.controller (.enter rfl (by decide)))
  have hReading := hPolling.step (.controller (.noStatus rfl (.inl rfl)))
  have hWaiting := hReading.step (.controller (.readSlot rfl))
  have hJoined := (hWaiting.step (.controller (.waited rfl))).step (.controller (.joined rfl))
  have hCleared := hJoined.step (.controller (.clearOutput rfl))
  have hRestarted := hCleared.step (.controller (.respawned rfl false))
  have hHead := hRestarted.step (.controller (.clearSlot rfl))
  have hAgain := hHead.step (.controller (.enter rfl (by decide)))
  have hLooking := hAgain.step (.controller (.noStatus rfl (.inl rfl)))
  have hProbing := hLooking.step (.controller (.readSlot rfl))
  have hPopping := hProbing.step (.controller (.running rfl))
  have hFeeding := hPopping.step (.controller (.popFrame rfl rfl))
  have hFed := hFeeding.step (.controller (.fed rfl rfl rfl))
  obtain ⟨size, k, hCurrent, hOrigin, -⟩ :=
    hAll _ _ (hRun.extend hFed) (List.forall_mem_append.mpr ⟨hInside, by decide⟩) rfl _
      (last_mem trace _ _) _ rfl
  -- the encoder has two pixels, the frame one
  have hTwo : size = (2, 1) := by
    cases hCurrent
    rfl
  have hOne : size = (1, 1) := by
    cases hOrigin
    rfl
  rw [hTwo] at hOne
  exact absurd hOne (by decide)

end CastApp.Screen.Bridge
