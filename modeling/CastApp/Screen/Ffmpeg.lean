import CastApp.Screen.Bridge
import CastApp.Verified.Anytime
import Mathlib.Data.List.Induction

/-!
# The end of an encoder

`wait_graceful` polls a child that was told to finish, kills it when the grace
period is over, and polls it for two more seconds; behind it the encoder is
dropped, which kills and reaps whatever is left.  The child may end at any
time and in any way or not at all, every operation takes the time it takes,
and a probe may fail.

* `Waiting` — where the loops stand, with `Pace` for the deadlines.
* **`encoder_ends`** — what holds of every run.
* `stderr_tail_last` — the diagnostics that are kept.
-/

namespace CastApp.Screen.Ffmpeg

open CastApp.State
open CastApp.Screen.Bridge (ExitStatus)
open CastApp.Verified.Anytime
open CastApp.Verified.Coroutine
open CastApp.Verified.EventLoop
open CastApp.Verified.Transition

/-- `GRACE_PERIOD`. -/
def gracePeriod : Duration := .fromSecs 5

/-- `WAIT_POLL`. -/
def waitPoll : Duration := 50

/-- How long a killed child is waited for. -/
def killedWait : Duration := .fromSecs 2

/-- `STDERR_TAIL`. -/
def stderrTail : Nat := 50

/-! ## The code -/

/-- What is asked of the clock, the child and the stderr reader. -/
inductive Op : Type
  | now
  | tryWait
  | sleep (duration : Duration)
  | kill
  | wait
  | joinStderr

abbrev Op.Ans : Op → Type
  | .now => Instant
  | .tryWait => Except IoError (Option ExitStatus)
  | .kill => Except IoError Unit
  | .wait => Except IoError ExitStatus
  | .sleep _ | .joinStderr => Unit

abbrev encoderSig : Signature where
  Op := Op
  Ans := Op.Ans
  Fault := Empty

abbrev Tend (α : Type) : Type := Coro encoderSig α

abbrev ask (op : Op) : Tend op.Ans := @perform encoderSig op

/-- Where `wait_graceful` stands. -/
inductive Waiting : Type
  | graceful (deadline : Instant)
  /-- In the loop behind the kill. -/
  | killed (deadline : Instant)
  /-- It has returned, and the encoder was dropped. -/
  | returned (result : Except IoError ExitStatus)

/-- What one pass of either loop comes to. -/
inductive Polled : Type
  | exited (status : ExitStatus)
  | failed (error : IoError)
  | late
  | slept

def poll (deadline : Instant) : Tend Polled := do
  match ← ask .tryWait with
  | .error error => return .failed error
  | .ok (some status) => return .exited status
  | .ok none =>
      let now ← ask .now
      if deadline ≤ now then return .late
      ask (.sleep waitPoll)
      return .slept

/-- `Drop`. -/
def drop : Tend Unit := do
  let _ ← ask .kill
  let _ ← ask .wait
  ask .joinStderr

/-- `wait_graceful` returns, and the encoder is dropped. -/
def finish (result : Except IoError ExitStatus) : Tend (Flow Waiting) := do
  drop
  return .exit (.returned result)

def survived : IoError :=
  ⟨.timedOut, "ffmpeg survived SIGKILL (uninterruptible state); leaving it for the OS to reap"⟩

/-- One pass of the loop it is in. -/
def pass : Waiting → Tend (Flow Waiting)
  | .graceful deadline => do
      match ← poll deadline with
      | .exited status => finish (.ok status)
      | .failed error => finish (.error error)
      | .slept => return .park (.graceful deadline)
      | .late =>
          let _ ← ask .kill
          let now ← ask .now
          return .park (.killed (now + killedWait))
  | .killed deadline => do
      match ← poll deadline with
      | .exited status => finish (.ok status)
      | .failed error => finish (.error error)
      | .slept => return .park (.killed deadline)
      | .late => finish (.error survived)
  | .returned result => return .exit (.returned result)

/-- `wait_graceful` with the drop of the encoder. -/
def waitGraceful (grace : Duration) : EventLoop encoderSig Waiting Unit where
  prelude := do
    let now ← ask .now
    return .park (.graceful (now + grace))
  guard _ _ := True
  body waiting _ := pass waiting

/-! ## The host -/

structure Host where
  clock : Instant
  /-- How the child has ended, if it has. -/
  child : Option ExitStatus
  /-- When a child that was running was first killed. -/
  signalled : Option Instant
  /-- The first error of a probe or a wait. -/
  failed : Option IoError
  /-- How often the thread has slept. -/
  sleeps : Nat

/-- Time passes, in which a running child may end. -/
structure Later (h h' : Host) : Prop where
  clock : h.clock ≤ h'.clock
  child : h.child.isSome → h'.child = h.child
  same : h' = { h with clock := h'.clock, child := h'.child }

def Host.signal (h : Host) : Host :=
  { h with signalled := some (h.signalled.getD h.clock) }

def Host.fail (h : Host) (error : IoError) : Host :=
  { h with failed := some (h.failed.getD error) }

inductive Answers : Host → (op : Op) → op.Ans → Host → Prop
  | now {h h' : Host} (hLater : Later h h') : Answers h .now h'.clock h'
  | running {h h' : Host} (hLater : Later h h') (hChild : h'.child = none) :
      Answers h .tryWait (.ok none) h'
  | exited {h h' : Host} (hLater : Later h h') {status : ExitStatus}
      (hChild : h'.child = some status) : Answers h .tryWait (.ok (some status)) h'
  | unseen {h h' : Host} (hLater : Later h h') (error : IoError) :
      Answers h .tryWait (.error error) (h'.fail error)
  | slept {h h' : Host} (hLater : Later h h') {duration : Duration}
      (hLong : h.clock + duration ≤ h'.clock) :
      Answers h (.sleep duration) () { h' with sleeps := h'.sleeps + 1 }
  | signalled {h h' : Host} (hLater : Later h h') (hChild : h'.child = none)
      (result : Except IoError Unit) : Answers h .kill result h'.signal
  | gone {h h' : Host} (hLater : Later h h') (hChild : h'.child.isSome)
      (result : Except IoError Unit) : Answers h .kill result h'
  /-- Only the end of the child ends the wait. -/
  | reaped {h h' : Host} (hLater : Later h h') {status : ExitStatus}
      (hChild : h'.child = some status) : Answers h .wait (.ok status) h'
  | unreaped {h h' : Host} (hLater : Later h h') (error : IoError) :
      Answers h .wait (.error error) (h'.fail error)
  | joined {h h' : Host} (hLater : Later h h') : Answers h .joinStderr () h'

/-- The child was told to finish, and may have. -/
def starts (h : Host) : Prop := ∃ child, h = ⟨0, child, none, none, 0⟩

/-- `wait_graceful` on a host. -/
abbrev tended (grace : Duration) : System (Control encoderSig Waiting × Host)
    (Label encoderSig Unit Empty) :=
  within starts Answers (waitGraceful grace)

variable {h h' h'' : Host} {grace span : Duration} {deadline : Instant} {before : Nat}
variable {result : Except IoError ExitStatus}

theorem Later.refl (h : Host) : Later h h := ⟨Nat.le_refl _, fun _ => rfl, rfl⟩

theorem Later.trans (hFirst : Later h h') (hSecond : Later h' h'') : Later h h'' := by
  refine ⟨Nat.le_trans hFirst.clock hSecond.clock, fun hEnded => ?_, ?_⟩
  · have hSame : h'.child = h.child := hFirst.child hEnded
    rw [← hSame] at hEnded
    exact (hSecond.child hEnded).trans hSame
  · rw [hSecond.same, hFirst.same]

theorem Later.signalled (hLater : Later h h') : h'.signalled = h.signalled := by rw [hLater.same]

theorem Later.failed (hLater : Later h h') : h'.failed = h.failed := by rw [hLater.same]

theorem Later.sleeps (hLater : Later h h') : h'.sleeps = h.sleeps := by rw [hLater.same]

/-- A child that is running has been. -/
theorem Later.running (hLater : Later h h') (hChild : h'.child = none) : h.child = none := by
  cases hEnded : h.child with
  | none => rfl
  | some status =>
      have hSame := hLater.child (by rw [hEnded]; rfl)
      rw [hChild, hEnded] at hSame
      cases hSame

/-! ## Pace -/

/-- Every sleep behind the first `before` fell into the `span` before the
deadline, and took its time. -/
structure Pace (before : Nat) (span : Duration) (deadline : Instant) (h : Host) : Prop where
  long : span ≤ deadline
  counted : before ≤ h.sleeps
  slept : deadline + waitPoll * (h.sleeps - before) ≤ h.clock + span
  sleeps : waitPoll * (h.sleeps - before) < span + waitPoll

theorem Pace.start (h : Host) (hClock : deadline ≤ h.clock + span) (hSpan : span ≤ deadline) :
    Pace h.sleeps span deadline h := by
  refine ⟨hSpan, Nat.le_refl _, ?_, ?_⟩
  · simpa using hClock
  · simp [waitPoll]

theorem Pace.later (hPace : Pace before span deadline h) (hLater : Later h h') :
    Pace before span deadline h' := by
  obtain ⟨hSpan, hBefore, hSlept, hSleeps⟩ := hPace
  have hClock := hLater.clock
  rw [← hLater.sleeps] at hBefore hSlept hSleeps
  exact ⟨hSpan, hBefore, Nat.le_trans hSlept (Nat.add_le_add_right hClock span), hSleeps⟩

/-- One more sleep, before the deadline. -/
theorem Pace.sleep (hPace : Pace before span deadline h) (hEarly : h.clock < deadline)
    (hLater : Later h h') (hLong : h.clock + waitPoll ≤ h'.clock) :
    Pace before span deadline { h' with sleeps := h'.sleeps + 1 } := by
  obtain ⟨hSpan, hBefore, hSlept, hSleeps⟩ := hPace
  have hSame := hLater.sleeps
  have hMore : h'.sleeps + 1 - before = h.sleeps - before + 1 := by omega
  refine ⟨hSpan, ?_, ?_, ?_⟩
  · show before ≤ h'.sleeps + 1
    omega
  · show deadline + waitPoll * (h'.sleeps + 1 - before) ≤ h'.clock + span
    rw [hMore]
    dsimp only [Instant, Duration, waitPoll] at *
    omega
  · show waitPoll * (h'.sleeps + 1 - before) < span + waitPoll
    rw [hMore]
    dsimp only [Instant, Duration, waitPoll] at *
    omega

/-- How often one can sleep in a span. -/
def naps (span : Duration) : Nat := (span + 49) / 50

theorem Pace.naps (hPace : Pace before span deadline h) : h.sleeps ≤ before + naps span := by
  have hSleeps := hPace.sleeps
  have hBefore := hPace.counted
  unfold Ffmpeg.naps
  dsimp only [Duration, waitPoll] at *
  omega

/-! ## One pass -/

/-- What always holds. -/
structure Bounded (grace : Duration) (h : Host) : Prop where
  sleeps : h.sleeps ≤ naps grace + naps killedWait
  signalled : ∀ t, h.signalled = some t → grace ≤ t ∨ h.failed.isSome = true

theorem Bounded.later (hBounded : Bounded grace h) (hLater : Later h h') : Bounded grace h' := by
  refine ⟨?_, ?_⟩
  · rw [hLater.sleeps]
    exact hBounded.sleeps
  · rw [hLater.signalled, hLater.failed]
    exact hBounded.signalled

theorem Bounded.fail (hBounded : Bounded grace h) (error : IoError) :
    Bounded grace (h.fail error) := ⟨hBounded.sleeps, fun _ _ => .inr rfl⟩

/-- `result` is what has become of the child. -/
inductive Settled (h : Host) : Except IoError ExitStatus → Prop
  | exited {status : ExitStatus} (hChild : h.child = some status) : Settled h (.ok status)
  | unseen {error : IoError} (hFailed : h.failed = some error) : Settled h (.error error)
  | survived {t : Instant} (hSignalled : h.signalled = some t)
      (hLong : t + killedWait ≤ h.clock) : Settled h (.error survived)

theorem Settled.later (hSettled : Settled h result) (hLater : Later h h') :
    Settled h' result := by
  cases hSettled with
  | exited hChild =>
      have hSame := hLater.child (by rw [hChild]; rfl)
      exact .exited (hSame.trans hChild)
  | unseen hFailed => exact .unseen (hLater.failed.trans hFailed)
  | survived hSignalled hLong =>
      exact .survived (hLater.signalled.trans hSignalled) (Nat.le_trans hLong hLater.clock)

/-- Killing what is settled tells nothing new. -/
theorem Settled.signal (hSettled : Settled h result) : Settled h.signal result := by
  cases hSettled with
  | exited hChild => exact .exited hChild
  | unseen hFailed => exact .unseen hFailed
  | @survived t hSignalled hLong =>
      have hSame : h.signal.signalled = some t := by simp [Host.signal, hSignalled]
      exact .survived hSame hLong

theorem Settled.fail (hSettled : Settled h result) (later : IoError) :
    Settled (h.fail later) result := by
  cases hSettled with
  | exited hChild => exact .exited hChild
  | @unseen error hFailed =>
      have hSame : (h.fail later).failed = some error := by simp [Host.fail, hFailed]
      exact .unseen hSame
  | survived hSignalled hLong => exact .survived hSignalled hLong

/-- Only a child that ran on behind the grace period is killed in the drop, or
one that cannot be seen. -/
theorem Bounded.signal (hBounded : Bounded grace h) (hSettled : Settled h result)
    (hChild : h.child = none) : Bounded grace h.signal := by
  refine ⟨hBounded.sleeps, fun t hSignal => ?_⟩
  cases hSettled with
  | exited hEnded =>
      rw [hChild] at hEnded
      cases hEnded
  | unseen hFailed => exact .inr (Option.isSome_of_eq_some hFailed)
  | @survived first hSignalled hLong =>
      have hSame : some (h.signalled.getD h.clock) = some t := hSignal
      rw [hSignalled, Option.getD_some] at hSame
      rw [← Option.some.inj hSame]
      exact hBounded.signalled first hSignalled

/-- The child is gone, and the result is what has become of it. -/
def Gone (h : Host) (result : Except IoError ExitStatus) : Prop :=
  (h.child.isSome = true ∨ h.failed.isSome = true) ∧ Settled h result

theorem Gone.later (hGone : Gone h result) (hLater : Later h h') : Gone h' result := by
  refine ⟨?_, hGone.2.later hLater⟩
  rcases hGone.1 with hEnded | hFailed
  · rw [hLater.child hEnded]
    exact .inl hEnded
  · rw [hLater.failed]
    exact .inr hFailed

/-- Nothing has gone wrong so far, and the child is killed in time. -/
structure Waits (grace : Duration) (deadline : Instant) (h : Host) : Prop where
  pace : Pace 0 grace deadline h
  unsignalled : h.signalled = none
  unfailed : h.failed = none

/-- The same behind the kill. -/
structure Lingers (grace : Duration) (deadline : Instant) (h : Host) : Prop where
  pace : ∃ before, before ≤ naps grace ∧ Pace before killedWait deadline h
  signalled : h.child = none → ∃ t, h.signalled = some t ∧ t + killedWait ≤ deadline
  unfailed : h.failed = none

/-- What a turn ends in. -/
def Left (grace : Duration) (h : Host) : Flow Waiting → Prop
  | .park (.graceful deadline) => Waits grace deadline h
  | .park (.killed deadline) => Lingers grace deadline h
  | .park (.returned _) => False
  | .exit (.returned result) => Gone h result
  | .exit _ => False

/-! ### The drop -/

theorem join_stays (hBounded : Bounded grace h) (hGone : Gone h result) :
    Stays Answers (Bounded grace) h
      (ask .joinStderr >>= fun _ => return .exit (.returned result)) (Left grace) := by
  refine Stays.perform hBounded fun _ h' hAnswer => ?_
  cases hAnswer with
  | joined hLater => exact ⟨hBounded.later hLater, hGone.later hLater⟩

theorem reap_stays (hBounded : Bounded grace h) (hSettled : Settled h result) :
    Stays Answers (Bounded grace) h
      (ask .wait >>= fun _ => ask .joinStderr >>= fun _ => return .exit (.returned result))
      (Left grace) := by
  refine Stays.perform hBounded fun _ h' hAnswer => ?_
  cases hAnswer with
  | reaped hLater hChild =>
      have hEnded := Option.isSome_of_eq_some hChild
      exact join_stays (hBounded.later hLater) ⟨.inl hEnded, hSettled.later hLater⟩
  | unreaped hLater error =>
      have hSettled' := (hSettled.later hLater).fail error
      exact join_stays ((hBounded.later hLater).fail error) ⟨.inr rfl, hSettled'⟩

theorem finish_stays (hBounded : Bounded grace h) (hSettled : Settled h result) :
    Stays Answers (Bounded grace) h (finish result) (Left grace) := by
  refine Stays.perform hBounded fun _ h' hAnswer => ?_
  cases hAnswer with
  | signalled hLater hChild _ =>
      have hSettled' := hSettled.later hLater
      exact reap_stays ((hBounded.later hLater).signal hSettled' hChild) hSettled'.signal
  | gone hLater hChild _ => exact reap_stays (hBounded.later hLater) (hSettled.later hLater)

/-! ### The loops -/

/-- What a pass comes to. -/
inductive Polls (before : Nat) (span : Duration) (deadline : Instant) (h h' : Host) :
    Polled → Prop
  | exited {status : ExitStatus} (hChild : h'.child = some status) :
      Polls before span deadline h h' (.exited status)
  | failed {error : IoError} (hFailed : h'.failed = some error) :
      Polls before span deadline h h' (.failed error)
  | late (hLater : Later h h') (hRunning : h.child = none) (hLate : deadline ≤ h'.clock) :
      Polls before span deadline h h' .late
  | slept (hPace : Pace before span deadline h') (hSignalled : h'.signalled = h.signalled)
      (hFailed : h'.failed = h.failed) (hRunning : h.child = none) :
      Polls before span deadline h h' .slept

theorem poll_stays (hBounded : Bounded grace h) (hPace : Pace before span deadline h)
    (hUnfailed : h.failed = none) (hRoom : before + naps span ≤ naps grace + naps killedWait) :
    Stays Answers (Bounded grace) h (poll deadline) fun h' polled =>
      Bounded grace h' ∧ Polls before span deadline h h' polled := by
  refine Stays.perform hBounded fun probed h₁ hAnswer => ?_
  cases hAnswer with
  | exited hLater hChild =>
      have hBounded₁ := hBounded.later hLater
      exact ⟨hBounded₁, hBounded₁, .exited hChild⟩
  | @unseen h' hLater error =>
      have hBounded₁ := (hBounded.later hLater).fail error
      have hFailed : (h'.fail error).failed = some error := by
        simp [Host.fail, hLater.failed, hUnfailed]
      exact ⟨hBounded₁, hBounded₁, .failed hFailed⟩
  | running hLater hChild =>
      have hRunning := hLater.running hChild
      refine Stays.perform (hBounded.later hLater) fun now h₂ hAnswer => ?_
      cases hAnswer with
      | now hLater₂ =>
          have hSince := hLater.trans hLater₂
          have hBounded₂ := hBounded.later hSince
          by_cases hLate : deadline ≤ h₂.clock
          · rw [if_pos hLate]
            exact ⟨hBounded₂, hBounded₂, .late hSince hRunning hLate⟩
          · rw [if_neg hLate]
            refine Stays.perform hBounded₂ fun _ h₃ hAnswer => ?_
            cases hAnswer with
            | @slept h' hLater₃ _ hLong =>
                have hPace₃ := (hPace.later hSince).sleep (Nat.lt_of_not_le hLate) hLater₃ hLong
                have hAll : Later h h' := hSince.trans hLater₃
                have hBounded₃ : Bounded grace { h' with sleeps := h'.sleeps + 1 } :=
                  ⟨Nat.le_trans hPace₃.naps hRoom, (hBounded₂.later hLater₃).signalled⟩
                exact ⟨hBounded₃, hBounded₃, .slept hPace₃ hAll.signalled hAll.failed hRunning⟩

/-- The child was killed, if it was still there. -/
theorem rearm_stays (hBounded : Bounded grace h) (hSleeps : h.sleeps ≤ naps grace)
    (hKilled : h.child = none → ∃ t, h.signalled = some t ∧ t ≤ h.clock)
    (hUnfailed : h.failed = none) :
    Stays Answers (Bounded grace) h
      (ask .now >>= fun now => return .park (.killed (now + killedWait))) (Left grace) := by
  refine Stays.perform hBounded fun now h' hAnswer => ?_
  cases hAnswer with
  | now hLater =>
      have hPace : Pace h'.sleeps killedWait (h'.clock + killedWait) h' :=
        .start h' (Nat.le_refl _) (Nat.le_add_left _ _)
      have hBefore : h'.sleeps ≤ naps grace :=
        Nat.le_trans (Nat.le_of_eq hLater.sleeps) hSleeps
      refine ⟨hBounded.later hLater, ⟨_, hBefore, hPace⟩, ?_, hLater.failed.trans hUnfailed⟩
      intro hChild
      obtain ⟨t, hSignalled, hEarly⟩ := hKilled (hLater.running hChild)
      refine ⟨t, hLater.signalled.trans hSignalled, ?_⟩
      exact Nat.add_le_add_right (Nat.le_trans hEarly hLater.clock) killedWait

/-- The grace period is over. -/
theorem kill_stays (hBounded : Bounded grace h) (hWaits : Waits grace deadline h)
    (hOver : deadline ≤ h.clock) :
    Stays Answers (Bounded grace) h
      (ask .kill >>= fun _ => ask .now >>= fun now => return .park (.killed (now + killedWait)))
      (Left grace) := by
  have hSleeps : h.sleeps ≤ naps grace := by
    have hNaps := hWaits.pace.naps
    omega
  refine Stays.perform hBounded fun _ h₁ hAnswer => ?_
  cases hAnswer with
  | @signalled h' hLater hChild _ =>
      have hNone : h'.signalled = none := hLater.signalled.trans hWaits.unsignalled
      have hSignal : h'.signal.signalled = some h'.clock := by simp [Host.signal, hNone]
      have hBounded' : Bounded grace h'.signal := by
        refine ⟨(hBounded.later hLater).sleeps, fun t hSome => .inl ?_⟩
        rw [hSignal] at hSome
        rw [← Option.some.inj hSome]
        exact Nat.le_trans hWaits.pace.long (Nat.le_trans hOver hLater.clock)
      have hSleeps' : h'.signal.sleeps ≤ naps grace :=
        Nat.le_trans (Nat.le_of_eq hLater.sleeps) hSleeps
      have hUnfailed : h'.signal.failed = none := hLater.failed.trans hWaits.unfailed
      exact rearm_stays hBounded' hSleeps' (fun _ => ⟨_, hSignal, Nat.le_refl _⟩) hUnfailed
  | gone hLater hEnded _ =>
      have hSleeps' := Nat.le_trans (Nat.le_of_eq hLater.sleeps) hSleeps
      have hUnfailed := hLater.failed.trans hWaits.unfailed
      refine rearm_stays (hBounded.later hLater) hSleeps' ?_ hUnfailed
      intro hChild
      rw [hChild] at hEnded
      cases hEnded

theorem Waits.later (hWaits : Waits grace deadline h) (hLater : Later h h') :
    Waits grace deadline h' :=
  ⟨hWaits.pace.later hLater, hLater.signalled.trans hWaits.unsignalled,
    hLater.failed.trans hWaits.unfailed⟩

theorem pass_stays {waiting : Waiting} (hBounded : Bounded grace h)
    (hLeft : Left grace h (.park waiting)) :
    Stays Answers (Bounded grace) h (pass waiting) (Left grace) := by
  cases waiting with
  | returned result => exact hLeft.elim
  | graceful deadline =>
      have hWaits : Waits grace deadline h := hLeft
      have hRoom : 0 + naps grace ≤ naps grace + naps killedWait := by omega
      refine (poll_stays hBounded hWaits.pace hWaits.unfailed hRoom).bind fun h' polled h₁ => ?_
      obtain ⟨hBounded', hPolls⟩ := h₁
      cases hPolls with
      | exited hChild => exact finish_stays hBounded' (.exited hChild)
      | failed hFailed => exact finish_stays hBounded' (.unseen hFailed)
      | late hLater hRunning hLate => exact kill_stays hBounded' (hWaits.later hLater) hLate
      | slept hPace hSignalled hFailed hRunning =>
          have hUnsignalled := hSignalled.trans hWaits.unsignalled
          exact ⟨hBounded', hPace, hUnsignalled, hFailed.trans hWaits.unfailed⟩
  | killed deadline =>
      have hLingers : Lingers grace deadline h := hLeft
      obtain ⟨before, hBefore, hPace⟩ := hLingers.pace
      have hRoom : before + naps killedWait ≤ naps grace + naps killedWait := by omega
      refine (poll_stays hBounded hPace hLingers.unfailed hRoom).bind fun h' polled h₁ => ?_
      obtain ⟨hBounded', hPolls⟩ := h₁
      cases hPolls with
      | exited hChild => exact finish_stays hBounded' (.exited hChild)
      | failed hFailed => exact finish_stays hBounded' (.unseen hFailed)
      | late hLater hRunning hLate =>
          obtain ⟨t, hSignalled, hLong⟩ := hLingers.signalled hRunning
          have hSurvived : Settled h' (.error survived) :=
            .survived (hLater.signalled.trans hSignalled) (Nat.le_trans hLong hLate)
          exact finish_stays hBounded' hSurvived
      | slept hPace' hSignalled hFailed hRunning =>
          refine ⟨hBounded', ⟨before, hBefore, hPace'⟩, fun _ => ?_,
            hFailed.trans hLingers.unfailed⟩
          rw [hSignalled]
          exact hLingers.signalled hRunning

/-! ## Runs -/

variable {trace : List (Move (Control encoderSig Waiting × Host) (Label encoderSig Unit Empty))}
variable {c : Control encoderSig Waiting}

/-- The run lemma. -/
theorem run_turns (hRun : Run (tended grace) trace (c, h)) :
    AtTurns Answers (Bounded grace) (Left grace) h c := by
  refine turnsStay hRun ?_ ?_
  · rintro h ⟨child, rfl⟩
    have hBounded : Bounded grace ⟨0, child, none, none, 0⟩ := ⟨Nat.zero_le _, nofun⟩
    refine Stays.perform hBounded fun now h' hAnswer => ?_
    cases hAnswer with
    | now hLater =>
        have hPace : Pace h'.sleeps grace (h'.clock + grace) h' :=
          .start h' (Nat.le_refl _) (Nat.le_add_left _ _)
        rw [hLater.sleeps] at hPace
        exact ⟨hBounded.later hLater, hPace, hLater.signalled, hLater.failed⟩
  · rintro h waiting ⟨⟩ h' hBounded hLeft - rfl
    exact pass_stays hBounded hLeft

/-- A child that ends as soon as it is looked at. -/
def ending (status : ExitStatus) (h : Host) : (op : Op) → op.Ans × Host
  | .now => (h.clock, h)
  | .tryWait => (.ok (some (h.child.getD status)), { h with child := some (h.child.getD status) })
  | .sleep duration => ((), { h with clock := h.clock + duration, sleeps := h.sleeps + 1 })
  | .kill => (.ok (), { h with child := some (h.child.getD status) })
  | .wait => (.ok (h.child.getD status), { h with child := some (h.child.getD status) })
  | .joinStderr => ((), h)

theorem later_ended (h : Host) (status : ExitStatus) :
    Later h { h with child := some (h.child.getD status) } := by
  refine ⟨Nat.le_refl _, fun hEnded => ?_, rfl⟩
  obtain ⟨own, hOwn⟩ := Option.isSome_iff_exists.mp hEnded
  show some (h.child.getD status) = h.child
  rw [hOwn, Option.getD_some]

theorem ending_answers (status : ExitStatus) (h : Host) (op : encoderSig.Op) :
    Answers h op (ending status h op).1 (ending status h op).2 := by
  cases op with
  | now => exact .now (.refl h)
  | tryWait => exact .exited (later_ended h status) rfl
  | sleep duration =>
      have hLater : Later h { h with clock := h.clock + duration } :=
        ⟨Nat.le_add_right _ _, fun _ => rfl, rfl⟩
      exact .slept hLater (Nat.le_refl _)
  | kill => exact .gone (later_ended h status) rfl _
  | wait => exact .reaped (later_ended h status) rfl
  | joinStderr => exact .joined (.refl h)

/-- Then a pass is the last. -/
theorem pass_ending (status : ExitStatus) (waiting : Waiting) (h : Host) :
    ∃ result, (reactTo (ending status) (pass waiting) h).1 = .value (.exit (.returned result)) := by
  cases waiting with
  | graceful deadline | killed deadline => exact ⟨.ok (h.child.getD status), rfl⟩
  | returned result => exact ⟨result, rfl⟩

theorem parked_ended (status : ExitStatus) {waiting : Waiting}
    (hRun : Run (tended grace) trace (.parked waiting, h)) :
    ∃ more result h', Run (tended grace) (trace ++ more) (.exited (.returned result), h') := by
  obtain ⟨result, hResult⟩ := pass_ending status waiting h
  have hFired := hRun.step (.fire (b := ()) trivial rfl)
  obtain ⟨more, hMore⟩ := small_reactTo (ending_answers status) hFired
  rw [show (waitGraceful grace).body waiting () = pass waiting from rfl, hResult] at hMore
  have hOver := hMore.step .exit
  rw [List.append_assoc, List.append_assoc] at hOver
  exact ⟨_, result, _, hOver⟩

/-- Wherever it stands. -/
theorem exists_ended (hRun : Run (tended grace) trace (c, h)) :
    ∃ more result h', Run (tended grace) (trace ++ more) (.exited (.returned result), h') := by
  let status : ExitStatus := ⟨true, "exit status: 0"⟩
  cases c with
  | parked waiting => exact parked_ended status hRun
  | faulted reason => exact nomatch reason
  | exited waiting =>
      cases waiting with
      | returned result =>
          refine ⟨[], result, h, ?_⟩
          rw [List.append_nil]
          exact hRun
      | graceful deadline | killed deadline => exact (run_turns hRun).2.elim
  | running p =>
      obtain ⟨more, hMore⟩ := small_reactTo (ending_answers status) hRun
      cases hEnds : (reactTo (ending status) p h).1 with
      | fault reason => exact nomatch reason
      | value flow =>
          rw [hEnds] at hMore
          cases flow with
          | park waiting =>
              obtain ⟨rest, result, h', hOver⟩ := parked_ended status (hMore.step (.park rfl))
              rw [List.append_assoc, List.append_assoc] at hOver
              exact ⟨_, result, h', hOver⟩
          | exit waiting =>
              have hOver := hMore.step .exit
              cases waiting with
              | returned result =>
                  rw [List.append_assoc] at hOver
                  exact ⟨_, result, _, hOver⟩
              | graceful deadline | killed deadline => exact (run_turns hOver).2.elim

/-- **An encoder gets its time, and is never left running.**  In every run,
however the child behaves and however long anything takes: the thread sleeps
no more often than fits into the two waits; unless a probe has failed, a running
child is not killed before the grace period is over; when the encoder is gone
its child has ended, or a probe or a wait has failed; and the result is the
child's own status, or the error of the probe, or that the child was still there
two seconds behind the kill.  Wherever it stands, it can come to its end. -/
theorem encoder_ends (hRun : Run (tended grace) trace (c, h)) :
    h.sleeps ≤ (grace + 49) / 50 + 40 ∧
    (∀ t, h.signalled = some t → grace ≤ t ∨ h.failed.isSome = true) ∧
    (∀ result, c = .exited (.returned result) →
      (h.child.isSome = true ∨ h.failed.isSome = true) ∧ Settled h result) ∧
    ∃ more result h', Run (tended grace) (trace ++ more) (.exited (.returned result), h') := by
  have hTurns := run_turns hRun
  have hBounded := hTurns.holds
  refine ⟨hBounded.sleeps, hBounded.signalled, ?_, exists_ended hRun⟩
  rintro result rfl
  exact hTurns.2

/-- The encoder of a capture that is stopped. -/
theorem running_ends : ∃ trace result h,
    Run (tended gracePeriod) trace (.exited (.returned result), h) ∧
      h.sleeps ≤ 140 ∧ (h.child.isSome = true ∨ h.failed.isSome = true) ∧ Settled h result := by
  have hStart : Run (tended gracePeriod) []
      (.running (waitGraceful gracePeriod).prelude, ⟨0, none, none, none, 0⟩) :=
    .start ⟨rfl, none, rfl⟩
  obtain ⟨-, -, -, trace, result, h, hRun⟩ := encoder_ends hStart
  obtain ⟨hSleeps, -, hGone, -⟩ := encoder_ends hRun
  exact ⟨_, result, h, hRun, hSleeps, hGone result rfl⟩

/-! ## The diagnostics -/

/-- What the stderr reader keeps behind one more line. -/
def pushLine (tail : List String) (line : String) : List String :=
  (tail ++ [line]).drop ((tail ++ [line]).length - stderrTail)

/-- However much the child says, the last lines are kept. -/
theorem stderr_tail_last (lines : List String) :
    lines.foldl pushLine [] = lines.drop (lines.length - stderrTail) := by
  induction lines using List.reverseRecOn with
  | nil => rfl
  | append_singleton lines line ih =>
      rw [List.foldl_append, List.foldl_cons, List.foldl_nil, ih]
      unfold pushLine
      have hDrop : lines.length - stderrTail ≤ lines.length := Nat.sub_le _ _
      rw [← List.drop_append_of_le_length hDrop, List.drop_drop, List.length_drop]
      congr 1
      rw [List.length_append, List.length_singleton]
      omega

end CastApp.Screen.Ffmpeg
