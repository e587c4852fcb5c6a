import CastApp.Screen.Capture
import CastApp.Verified.Streak

/-!
# When the capture thread gives up

The loop of `run_capture` over a script: what each turn's capture finds, and
what re-acquiring the monitor would find then.  Nobody asks the thread to
stop.  A turn is the thread going from one access to the next, back to the
head of the loop or to its end.

* `turn_spec` — everything one turn can do.
* `run_spec` — after any number of turns, either none gave up and the counters
  stand as the script says, or the first that had to did.
* **`capture_failures_reported`** — both over a whole script.
-/

namespace CastApp.Screen.CaptureFailures

open CastApp.Screen.Capture
open CastApp.Verified.Streak

/-- What the surroundings answer in one turn. -/
structure Turn where
  capture : Except String Frame
  reacquire : Except String Unit

/-- What a turn does to what the thread shares. -/
inductive CaptureEffect : Type
  | announced (size : Size)
  | pushed (frame : Frame)
  /-- A call of `on_error`. -/
  | reported (message : String)

/-! ## The loop -/

/-- The thread up to its next access. -/
def advance (x : Turn) (t : CaptureThread) : CaptureThread × List CaptureEffect :=
  match t.control with
  | .capturing => (t.captured x.capture, [])
  | .announcing frame => (t.announced frame, [.announced frame.size])
  | .pushing frame => (t.pushed, [.pushed frame])
  | .counting => (t.counted, [])
  | .reacquiring => (t.reacquired x.reacquire, [])
  | .reporting message => (t.ended, [.reported message])
  | .opening | .head | .finished => (t, [])

/-- The thread up to the head of the loop, within a number of accesses. -/
def settle (x : Turn) : Nat → CaptureThread → CaptureThread × List CaptureEffect
  | 0, t => (t, [])
  | accesses + 1, t =>
      let (t', effects) := advance x t
      let (t'', rest) := settle x accesses t'
      (t'', effects ++ rest)

/-- One turn of the loop: at most six accesses. -/
def turn (x : Turn) (t : CaptureThread) : CaptureThread × List CaptureEffect :=
  match t.control with
  | .head => settle x 6 { t with control := .capturing }
  | _ => (t, [])

def run (t : CaptureThread) : List Turn → CaptureThread × List CaptureEffect
  | [] => (t, [])
  | x :: script =>
      let (t', effects) := turn x t
      let (t'', rest) := run t' script
      (t'', effects ++ rest)

/-- The loop from its start, on a source that is open. -/
def runCapture (script : List Turn) : CaptureThread × List CaptureEffect :=
  run (CaptureThread.new.opened (.ok ())) script

/-! ## What the script says -/

/-- The captures that succeeded, in order. -/
def frames (script : List Turn) : List Frame :=
  script.filterMap fun x => x.capture.toOption

/-- Each frame is queued, behind its size where that is a new one. -/
def frameEffects : Option Size → List Frame → List CaptureEffect
  | _, [] => []
  | expected, frame :: rest =>
      (if expected ≠ some frame.size then [.announced frame.size] else []) ++
        .pushed frame :: frameEffects (some frame.size) rest

theorem frameEffects_cons (expected : Option Size) (frame : Frame) (rest : List Frame) :
    frameEffects expected (frame :: rest) =
      (if expected ≠ some frame.size then [.announced frame.size] else []) ++
        .pushed frame :: frameEffects (some frame.size) rest := rfl

def CaptureFails (script : List Turn) (i : Nat) : Prop :=
  ∃ x error, script[i]? = some x ∧ x.capture = .error error

/-- Re-acquire `k`, counted from 0, is part of turn `30 * k + 29`. -/
def ReacquireFails (script : List Turn) (k : Nat) : Prop :=
  ∃ x error, script[30 * k + 29]? = some x ∧ x.reacquire = .error error

/-- Turn `i` is the last of five whose captures fail. -/
def CaptureStop (script : List Turn) (i : Nat) : Prop :=
  4 ≤ i ∧ ∀ j, j < 5 → CaptureFails script (i - j)

/-- Turn `i` re-acquires, and that is the last of five in a row to fail. -/
def ReacquireStop (script : List Turn) (i : Nat) : Prop :=
  ∃ k, i = 30 * k + 29 ∧ 4 ≤ k ∧ ∀ j, j < 5 → ReacquireFails script (k - j)

def Stops (script : List Turn) (i : Nat) : Prop := CaptureStop script i ∨ ReacquireStop script i

/-- What is reported when turn `x` is the last. -/
inductive Reports (script : List Turn) (i : Nat) (x : Turn) : String → Prop
  | capture {error : String} (hStop : CaptureStop script i) (hError : x.capture = .error error) :
      Reports script i x ("screen capture failed 5 times in a row: " ++ error)
  | reacquire {error : String} (hStop : ReacquireStop script i)
      (hError : x.reacquire = .error error) :
      Reports script i x ("monitor lost: " ++ error)

/-! ## One turn -/

variable {t : CaptureThread} {x : Turn}

theorem settle_resting {accesses : Nat} (hControl : t.control = .head ∨ t.control = .finished) :
    settle x accesses t = (t, []) := by
  induction accesses with
  | zero => rfl
  | succ accesses ih =>
      have hStill : advance x t = (t, []) := by
        unfold advance
        rcases hControl with h | h <;> rw [h]
      unfold settle
      rw [hStill]
      dsimp only
      rw [ih]
      rfl

theorem settle_reporting {accesses : Nat} {message : String}
    (hControl : t.control = .reporting message) :
    settle x (accesses + 1) t = (t.ended, [.reported message]) := by
  have hStep : advance x t = (t.ended, [.reported message]) := by
    unfold advance
    rw [hControl]
  unfold settle
  rw [hStep]
  dsimp only
  rw [settle_resting (.inr rfl)]
  rfl

/-- The rest of a turn, from the count on. -/
def closed (x : Turn) (t : CaptureThread) : CaptureThread × List CaptureEffect :=
  let count := t.frameCount + 1
  if count % monitorReacquireInterval = 0 then
    match x.reacquire with
    | .ok () => ({ t with frameCount := count, reacquireFailures := 0, control := .head }, [])
    | .error error =>
        let failures := t.reacquireFailures + 1
        if failures ≥ maxConsecutiveFailures then
          ({ t with frameCount := count, reacquireFailures := failures, control := .finished },
            [.reported ("monitor lost: " ++ error)])
        else
          ({ t with frameCount := count, reacquireFailures := failures, control := .head }, [])
  else
    ({ t with frameCount := count, control := .head }, [])

theorem settle_reacquiring {accesses : Nat} (hControl : t.control = .reacquiring) :
    settle x (accesses + 2) t =
      match x.reacquire with
      | .ok () => ({ t with reacquireFailures := 0, control := .head }, [])
      | .error error =>
          if t.reacquireFailures + 1 ≥ maxConsecutiveFailures then
            ({ t with reacquireFailures := t.reacquireFailures + 1, control := .finished },
              [.reported ("monitor lost: " ++ error)])
          else
            ({ t with reacquireFailures := t.reacquireFailures + 1, control := .head }, []) := by
  have hStep : advance x t = (t.reacquired x.reacquire, []) := by
    unfold advance
    rw [hControl]
  unfold settle
  rw [hStep]
  cases hResult : x.reacquire with
  | ok =>
      dsimp only
      rw [settle_resting (.inl rfl)]
      rfl
  | error error =>
      dsimp only
      by_cases hMany : t.reacquireFailures + 1 ≥ maxConsecutiveFailures
      · rw [if_pos hMany]
        have hReporting : (t.reacquired (.error error)).control =
            .reporting ("monitor lost: " ++ error) := if_pos hMany
        rw [settle_reporting hReporting]
        rfl
      · rw [if_neg hMany]
        have hHead : (t.reacquired (.error error)).control = .head := if_neg hMany
        rw [settle_resting (.inl hHead)]
        simp [CaptureThread.reacquired, if_neg hMany]

theorem settle_counting {accesses : Nat} (hControl : t.control = .counting) :
    settle x (accesses + 3) t = closed x t := by
  have hStep : advance x t = (t.counted, []) := by
    unfold advance
    rw [hControl]
  unfold settle closed
  rw [hStep]
  dsimp only
  by_cases hDue : (t.frameCount + 1) % monitorReacquireInterval = 0
  · have hReacquiring : t.counted.control = .reacquiring := if_pos hDue
    rw [if_pos hDue, settle_reacquiring hReacquiring]
    cases x.reacquire <;> rfl
  · have hHead : t.counted.control = .head := if_neg hDue
    rw [if_neg hDue, settle_resting (.inl hHead)]
    simp [CaptureThread.counted, if_neg hDue]

/-- A turn that captures a frame. -/
theorem turn_frame {frame : Frame} (hControl : t.control = .head)
    (hCapture : x.capture = .ok frame) :
    turn x t =
      ((closed x { t with
          captureFailures := 0, expected := some frame.size, control := .counting }).1,
        frameEffects t.expected [frame] ++
          (closed x { t with
            captureFailures := 0, expected := some frame.size, control := .counting }).2) := by
  unfold turn
  rw [hControl]
  dsimp only
  unfold settle advance
  dsimp only
  rw [hCapture]
  unfold settle advance CaptureThread.captured
  by_cases hSize : t.expected = some frame.size
  · simp only [hSize, ne_eq, not_true_eq_false, if_false]
    rw [settle_counting (by rfl)]
    simp [frameEffects, CaptureThread.pushed, closed]
  · simp only [hSize, ne_eq, not_false_eq_true, if_true]
    unfold settle advance
    simp only [CaptureThread.announced]
    rw [settle_counting (by rfl)]
    simp [frameEffects, hSize, CaptureThread.pushed, closed]

/-- A turn whose capture fails. -/
theorem turn_error {error : String} (hControl : t.control = .head)
    (hCapture : x.capture = .error error) :
    turn x t =
      if t.captureFailures + 1 ≥ maxConsecutiveFailures then
        ({ t with captureFailures := t.captureFailures + 1, control := .finished },
          [.reported ("screen capture failed " ++ toString (t.captureFailures + 1).toNat ++
            " times in a row: " ++ error)])
      else
        closed x { t with captureFailures := t.captureFailures + 1, control := .counting } := by
  unfold turn
  rw [hControl]
  dsimp only
  unfold settle advance
  dsimp only
  rw [hCapture]
  by_cases hMany : t.captureFailures + 1 ≥ maxConsecutiveFailures
  · have hReporting : (CaptureThread.captured { t with control := .capturing }
        (.error error)).control =
          .reporting ("screen capture failed " ++ toString (t.captureFailures + 1).toNat ++
            " times in a row: " ++ error) := if_pos hMany
    rw [if_pos hMany, settle_reporting hReporting]
    rfl
  · have hCounting : (CaptureThread.captured { t with control := .capturing }
        (.error error)).control = .counting := if_neg hMany
    rw [if_neg hMany, settle_counting hCounting]
    simp [CaptureThread.captured, if_neg hMany, closed]

/-! ## The counters against the script -/

variable {script : List Turn} {n : Nat}

theorem captureFails_iff (hTurn : script[n]? = some x) :
    CaptureFails script n ↔ ∃ error, x.capture = .error error := by
  unfold CaptureFails
  rw [hTurn]
  constructor
  · rintro ⟨_, error, hSame, hError⟩
    cases hSame
    exact ⟨error, hError⟩
  · rintro ⟨error, hError⟩
    exact ⟨x, error, rfl, hError⟩

theorem reacquireFails_iff {k : Nat} (hTurn : script[30 * k + 29]? = some x) :
    ReacquireFails script k ↔ ∃ error, x.reacquire = .error error := by
  unfold ReacquireFails
  rw [hTurn]
  constructor
  · rintro ⟨_, error, hSame, hError⟩
    cases hSame
    exact ⟨error, hError⟩
  · rintro ⟨error, hError⟩
    exact ⟨x, error, rfl, hError⟩

/-- What the capture counter says behind turn `n`. -/
theorem captureStop_iff {count : Nat} (h : Streak (CaptureFails script) (n + 1) count) :
    5 ≤ count ↔ CaptureStop script n := by
  rw [h.le_iff]
  unfold CaptureStop
  constructor
  · rintro ⟨hMany, hLast⟩
    exact ⟨by omega, fun j hj => hLast j hj⟩
  · rintro ⟨hMany, hLast⟩
    exact ⟨by omega, fun j hj => hLast j hj⟩

/-- What the re-acquire counter says behind re-acquire `k`. -/
theorem reacquireStop_iff {k count : Nat} (h : Streak (ReacquireFails script) (k + 1) count) :
    5 ≤ count ↔ ReacquireStop script (30 * k + 29) := by
  rw [h.le_iff]
  unfold ReacquireStop
  constructor
  · rintro ⟨hMany, hLast⟩
    exact ⟨k, rfl, by omega, fun j hj => hLast j hj⟩
  · rintro ⟨k', hSame, hMany, hLast⟩
    obtain rfl : k = k' := by omega
    exact ⟨by omega, fun j hj => hLast j hj⟩

theorem toNat_succ {count : UInt32} (hLt : count.toNat + 1 < 2 ^ 32) :
    (count + 1).toNat = count.toNat + 1 := by
  rw [UInt32.toNat_add]
  exact Nat.mod_eq_of_lt hLt

theorem due_iff {count : UInt32} : count % monitorReacquireInterval = 0 ↔ count.toNat % 30 = 0 := by
  rw [← UInt32.toNat_inj, UInt32.toNat_mod]
  rfl

theorem many_iff {count : UInt32} : count ≥ maxConsecutiveFailures ↔ 5 ≤ count.toNat := Iff.rfl

/-- The thread at the head of the loop, with `n` turns of the script behind
it of which none made it stop. -/
structure Standing (script : List Turn) (n : Nat) (t : CaptureThread) : Prop where
  hControl : t.control = .head
  hCount : t.frameCount.toNat = n
  hCaptures : Streak (CaptureFails script) n t.captureFailures.toNat
  hFewCaptures : t.captureFailures.toNat < 5
  hReacquires : Streak (ReacquireFails script) (n / 30) t.reacquireFailures.toNat
  hFewReacquires : t.reacquireFailures.toNat < 5
  hExpected : t.expected = (frames (script.take n)).getLast?.map Frame.size

/-- The rest of turn `n`: the thread is back at the head with its re-acquires
counted, or it reports the monitor lost. -/
theorem closed_spec (hTurn : script[n]? = some x) (hLt : n + 1 < 2 ^ 32)
    (hCount : t.frameCount.toNat = n)
    (hReacquires : Streak (ReacquireFails script) (n / 30) t.reacquireFailures.toNat)
    (hFew : t.reacquireFailures.toNat < 5) :
    (¬ ReacquireStop script n ∧ ∃ failures,
      closed x t = ({ t with
        frameCount := t.frameCount + 1, reacquireFailures := failures, control := .head }, []) ∧
      Streak (ReacquireFails script) ((n + 1) / 30) failures.toNat ∧ failures.toNat < 5) ∨
    (ReacquireStop script n ∧ ∃ error, x.reacquire = .error error ∧
      (closed x t).1.control = .finished ∧
      (closed x t).2 = [.reported ("monitor lost: " ++ error)]) := by
  have hNext : (t.frameCount + 1).toNat = n + 1 := by
    rw [toNat_succ (by omega), hCount]
  unfold closed
  dsimp only
  by_cases hDue : (n + 1) % 30 = 0
  · rw [if_pos (due_iff.mpr (by rw [hNext]; exact hDue))]
    obtain ⟨k, rfl⟩ : ∃ k, n = 30 * k + 29 := ⟨n / 30, by omega⟩
    rw [show (30 * k + 29) / 30 = k by omega] at hReacquires
    rw [show (30 * k + 29 + 1) / 30 = k + 1 by omega]
    have hFails := reacquireFails_iff hTurn
    cases hResult : x.reacquire with
    | ok =>
        left
        have hBroken : Streak (ReacquireFails script) (k + 1) 0 := by
          apply Streak.broken
          rw [hFails, hResult]
          rintro ⟨error, hError⟩
          cases hError
        refine ⟨?_, 0, rfl, hBroken, by decide⟩
        rw [← reacquireStop_iff hBroken]
        decide
    | error error =>
        have hMore := hReacquires.more (hFails.mpr ⟨error, hResult⟩)
        have hFailures := @toNat_succ t.reacquireFailures (by omega)
        rw [← hFailures] at hMore
        by_cases hMany : t.reacquireFailures + 1 ≥ maxConsecutiveFailures
        · right
          dsimp only
          rw [if_pos hMany]
          exact ⟨(reacquireStop_iff hMore).mp (many_iff.mp hMany), error, rfl, rfl, rfl⟩
        · left
          dsimp only
          rw [if_neg hMany]
          rw [many_iff] at hMany
          refine ⟨?_, _, rfl, hMore, by omega⟩
          rw [← reacquireStop_iff hMore]
          exact hMany
  · rw [if_neg (fun h => hDue (by rw [← hNext]; exact due_iff.mp h))]
    left
    refine ⟨?_, t.reacquireFailures, rfl, ?_, hFew⟩
    · rintro ⟨k, rfl, -⟩
      omega
    · rw [show (n + 1) / 30 = n / 30 by omega]
      exact hReacquires

theorem take_succ (hTurn : script[n]? = some x) : script.take (n + 1) = script.take n ++ [x] := by
  obtain ⟨hLt, hAt⟩ := List.getElem?_eq_some_iff.mp hTurn
  rw [List.take_succ_eq_append_getElem hLt, hAt]

theorem frames_snoc_ok {frame : Frame} (hCapture : x.capture = .ok frame) :
    frames (script ++ [x]) = frames script ++ [frame] := by
  unfold frames
  rw [List.filterMap_append]
  simp [hCapture, Except.toOption]

theorem frames_snoc_error {error : String} (hCapture : x.capture = .error error) :
    frames (script ++ [x]) = frames script := by
  unfold frames
  rw [List.filterMap_append]
  simp [hCapture, Except.toOption]

/-- Everything turn `n` can do: it does with its frame what is to be done,
and then the thread stands at the next turn or gives up as it must. -/
theorem turn_spec (h : Standing script n t) (hTurn : script[n]? = some x) (hLt : n + 1 < 2 ^ 32) :
    (¬ Stops script n ∧ Standing script (n + 1) (turn x t).1 ∧
      (turn x t).2 = frameEffects t.expected (frames [x])) ∨
    (Stops script n ∧ (turn x t).1.control = .finished ∧ ∃ message,
      Reports script n x message ∧
      (turn x t).2 = frameEffects t.expected (frames [x]) ++ [.reported message]) := by
  obtain ⟨hControl, hCount, hCaptures, hFewCaptures, hReacquires, hFewReacquires, hExpected⟩ := h
  have hFails := captureFails_iff hTurn
  have hNext : (t.frameCount + 1).toNat = n + 1 := by
    rw [toNat_succ (by omega), hCount]
  cases hCapture : x.capture with
  | ok frame =>
      have hFrames : frames [x] = [frame] := @frames_snoc_ok x [] frame hCapture
      have hBroken : Streak (CaptureFails script) (n + 1) 0 := by
        apply Streak.broken
        rw [hFails, hCapture]
        rintro ⟨error, hError⟩
        cases hError
      have hNoStop : ¬ CaptureStop script n := by
        rw [← captureStop_iff hBroken]
        decide
      rw [turn_frame hControl hCapture, hFrames]
      rcases closed_spec (t := { t with
          captureFailures := 0, expected := some frame.size, control := .counting })
          hTurn hLt hCount hReacquires hFewReacquires with
        ⟨hGoes, failures, hClosed, hStreak, hFew⟩ | ⟨hStop, error, hError, hFinished, hEffects⟩
      · left
        rw [hClosed]
        refine ⟨by rintro (hStop | hStop) <;> contradiction, ?_, by simp⟩
        refine ⟨rfl, hNext, hBroken, Nat.zero_lt_succ 4, hStreak, hFew, ?_⟩
        rw [take_succ hTurn, frames_snoc_ok hCapture, List.getLast?_concat]
        rfl
      · right
        rw [hEffects]
        exact ⟨.inr hStop, hFinished, _, .reacquire hStop hError, rfl⟩
  | error error =>
      have hFrames : frames [x] = [] := @frames_snoc_error x [] error hCapture
      have hMore := hCaptures.more (hFails.mpr ⟨error, hCapture⟩)
      have hFailures := @toNat_succ t.captureFailures (by omega)
      rw [← hFailures] at hMore
      rw [turn_error hControl hCapture, hFrames]
      by_cases hMany : t.captureFailures + 1 ≥ maxConsecutiveFailures
      · right
        rw [if_pos hMany]
        have hStop := (captureStop_iff hMore).mp (many_iff.mp hMany)
        have hFive : (t.captureFailures + 1).toNat = 5 := by
          rw [many_iff] at hMany
          omega
        refine ⟨.inl hStop, rfl, _, .capture hStop hCapture, ?_⟩
        rw [hFive]
        rfl
      · rw [if_neg hMany]
        rw [many_iff] at hMany
        have hNoStop : ¬ CaptureStop script n := by
          rw [← captureStop_iff hMore]
          exact hMany
        rcases closed_spec (t := { t with
            captureFailures := t.captureFailures + 1, control := .counting })
            hTurn hLt hCount hReacquires hFewReacquires with
          ⟨hGoes, failures, hClosed, hStreak, hFew⟩ | ⟨hStop, error', hError, hFinished, hEffects⟩
        · left
          rw [hClosed]
          refine ⟨by rintro (hStop | hStop) <;> contradiction, ?_, rfl⟩
          refine ⟨rfl, hNext, hMore, Nat.lt_of_not_le hMany, hStreak, hFew, ?_⟩
          rw [take_succ hTurn, frames_snoc_error hCapture]
          exact hExpected
        · right
          exact ⟨.inr hStop, hFinished, _, .reacquire hStop hError, hEffects⟩

/-! ## The whole script -/

theorem run_append (t : CaptureThread) (first rest : List Turn) :
    run t (first ++ rest) =
      ((run (run t first).1 rest).1, (run t first).2 ++ (run (run t first).1 rest).2) := by
  induction first generalizing t with
  | nil => rfl
  | cons x first ih =>
      show ((run (turn x t).1 (first ++ rest)).1,
        (turn x t).2 ++ (run (turn x t).1 (first ++ rest)).2) = _
      rw [ih]
      simp [run]

theorem frameEffects_append (expected : Option Size) (first rest : List Frame) :
    frameEffects expected (first ++ rest) =
      frameEffects expected first ++
        frameEffects ((first.getLast?.map Frame.size).or expected) rest := by
  induction first generalizing expected with
  | nil => rfl
  | cons frame first ih =>
      have hLast : ((frame :: first).getLast?.map Frame.size).or expected =
          (first.getLast?.map Frame.size).or (some frame.size) := by
        rw [List.getLast?_cons]
        cases first.getLast? <;> rfl
      rw [hLast, List.cons_append, frameEffects_cons, frameEffects_cons, ih, List.append_assoc,
        List.cons_append]

theorem start_standing : Standing script 0 (CaptureThread.new.opened (.ok ())) where
  hControl := rfl
  hCount := rfl
  hCaptures := .start
  hFewCaptures := by decide
  hReacquires := .start
  hFewReacquires := by decide
  hExpected := rfl

/-- Turn `i` is the first at which the thread has to stop, and it did. -/
structure Stopped (script : List Turn) (i : Nat)
    (outcome : CaptureThread × List CaptureEffect) : Prop where
  hStops : Stops script i
  hFirst : ∀ j, j < i → ¬ Stops script j
  hControl : outcome.1.control = .finished
  hReport : ∃ x message, script[i]? = some x ∧ Reports script i x message ∧
    outcome.2 = frameEffects none (frames (script.take (i + 1))) ++ [.reported message]

/-- After `n` turns: no stop so far, or the first one. -/
theorem run_spec (hLength : script.length < 2 ^ 32) (hLe : n ≤ script.length) :
    ((∀ i, i < n → ¬ Stops script i) ∧ Standing script n (runCapture (script.take n)).1 ∧
      (runCapture (script.take n)).2 = frameEffects none (frames (script.take n))) ∨
    ∃ i, i < n ∧ Stopped script i (runCapture (script.take n)) := by
  induction n with
  | zero => exact .inl ⟨fun _ h => absurd h (Nat.not_lt_zero _), start_standing, rfl⟩
  | succ n ih =>
      have hTurn : script[n]? = some script[n] := List.getElem?_eq_getElem hLe
      have hRun : runCapture (script.take (n + 1)) =
          ((turn script[n] (runCapture (script.take n)).1).1,
            (runCapture (script.take n)).2 ++
              (turn script[n] (runCapture (script.take n)).1).2) := by
        unfold runCapture
        rw [take_succ hTurn, run_append]
        simp [run]
      have hFrames : frames (script.take (n + 1)) =
          frames (script.take n) ++ frames [script[n]] := by
        rw [take_succ hTurn]
        exact List.filterMap_append
      rw [hRun]
      rcases ih (by omega) with ⟨hNone, hStanding, hEffects⟩ | ⟨i, hi, hStopped⟩
      · have hAll : frameEffects none (frames (script.take (n + 1))) =
            frameEffects none (frames (script.take n)) ++
              frameEffects (runCapture (script.take n)).1.expected (frames [script[n]]) := by
          rw [hFrames, frameEffects_append, hStanding.hExpected, Option.or_none]
        rcases turn_spec hStanding hTurn (by omega) with
          ⟨hGoes, hNext, hTurnEffects⟩ | ⟨hStop, hFinished, message, hReports, hTurnEffects⟩
        · left
          refine ⟨?_, hNext, by rw [hEffects, hTurnEffects, hAll]⟩
          intro i hi
          by_cases hLast : i = n
          · rw [hLast]
            exact hGoes
          · exact hNone i (by omega)
        · right
          refine ⟨n, by omega, hStop, hNone, hFinished, _, message, hTurn, hReports, ?_⟩
          rw [hEffects, hTurnEffects, hAll, List.append_assoc]
      · right
        have hStill : turn script[n] (runCapture (script.take n)).1 =
            ((runCapture (script.take n)).1, []) := by
          unfold turn
          rw [hStopped.hControl]
        rw [hStill, List.append_nil]
        exact ⟨i, by omega, hStopped⟩

theorem lt_length_of_stops {i : Nat} (h : Stops script i) : i < script.length := by
  rcases h with ⟨-, hLast⟩ | ⟨k, rfl, -, hLast⟩
  · obtain ⟨x, -, hAt, -⟩ := hLast 0 (by decide)
    exact (List.getElem?_eq_some_iff.mp hAt).1
  · obtain ⟨x, -, hAt, -⟩ := hLast 0 (by decide)
    exact (List.getElem?_eq_some_iff.mp hAt).1

def isReport : CaptureEffect → Bool
  | .reported _ => true
  | _ => false

theorem reports_frameEffects (expected : Option Size) (fs : List Frame) :
    (frameEffects expected fs).filter isReport = [] := by
  induction fs generalizing expected with
  | nil => rfl
  | cons frame fs ih =>
      rw [frameEffects_cons, List.filter_append, List.filter_cons_of_neg (by simp [isReport]), ih]
      split <;> rfl

def CaptureEffect.pushedFrame : CaptureEffect → Option Frame
  | .pushed frame => some frame
  | _ => none

/-- The frames queued are those given. -/
theorem pushed_frameEffects (expected : Option Size) (fs : List Frame) :
    (frameEffects expected fs).filterMap CaptureEffect.pushedFrame = fs := by
  induction fs generalizing expected with
  | nil => rfl
  | cons frame fs ih =>
      have hPushed : (CaptureEffect.pushed frame).pushedFrame = some frame := rfl
      rw [frameEffects_cons, List.filterMap_append, List.filterMap_cons_some hPushed, ih]
      split <;> rfl

/-- Where no turn completes five failures of a kind in a row, the loop goes on
and nothing is reported; at the first that does, it reports once and ends.  In
both cases every frame captured until then is queued, in order, each behind its
size exactly where that is not the size of the frame before. -/
theorem capture_failures_reported (script : List Turn) (hLength : script.length < 2 ^ 32) :
    ((∀ i, ¬ Stops script i) → (runCapture script).1.control = .head ∧
      (runCapture script).2 = frameEffects none (frames script) ∧
      (runCapture script).2.filterMap CaptureEffect.pushedFrame = frames script) ∧
    (∀ i, Stops script i → (∀ j, j < i → ¬ Stops script j) →
      Stopped script i (runCapture script) ∧
      (runCapture script).2.filterMap CaptureEffect.pushedFrame =
        frames (script.take (i + 1))) ∧
    ((runCapture script).2.filter isReport).length ≤ 1 := by
  have hRun := run_spec hLength (Nat.le_refl script.length)
  rw [List.take_length] at hRun
  refine ⟨?_, ?_, ?_⟩
  · intro hNone
    rcases hRun with ⟨-, hStanding, hEffects⟩ | ⟨i, -, hStopped⟩
    · refine ⟨hStanding.hControl, hEffects, ?_⟩
      rw [hEffects, pushed_frameEffects]
    · exact absurd hStopped.hStops (hNone i)
  · intro i hStops hFirst
    rcases hRun with ⟨hNone, -⟩ | ⟨i', -, hStopped⟩
    · exact absurd hStops (hNone i (lt_length_of_stops hStops))
    · have hBelow : ¬ i < i' := fun h => hStopped.hFirst i h hStops
      have hAbove : ¬ i' < i := fun h => hFirst i' h hStopped.hStops
      obtain rfl : i = i' := by omega
      refine ⟨hStopped, ?_⟩
      obtain ⟨x, message, -, -, hEffects⟩ := hStopped.hReport
      rw [hEffects, List.filterMap_append, pushed_frameEffects]
      exact List.append_nil _
  · rcases hRun with ⟨-, -, hEffects⟩ | ⟨i, -, hStopped⟩
    · rw [hEffects, reports_frameEffects]
      exact Nat.zero_le 1
    · obtain ⟨x, message, -, -, hEffects⟩ := hStopped.hReport
      rw [hEffects, List.filter_append, reports_frameEffects]
      exact Nat.le_refl 1

/-- Five captures that fail. -/
theorem capture_failures_five :
    (List.replicate 5 (Turn.mk (.error "boom") (.ok ()))).length < 2 ^ 32 ∧
      Stopped (List.replicate 5 (Turn.mk (.error "boom") (.ok ()))) 4
        (runCapture (List.replicate 5 (Turn.mk (.error "boom") (.ok ())))) := by
  refine ⟨by decide,
    ((capture_failures_reported _ (by decide)).2.1 4 (.inl ⟨by decide, ?_⟩) ?_).1⟩
  · intro j hj
    refine ⟨⟨.error "boom", .ok ()⟩, "boom", ?_, rfl⟩
    rw [List.getElem?_replicate, if_pos (by omega)]
  · rintro j hj (⟨hFour, -⟩ | ⟨k, rfl, -⟩)
    · omega
    · omega

end CastApp.Screen.CaptureFailures
