import CastApp.State

/-!
# The volume slider's throttle

A slider moves faster than a receiver takes volume messages.  The throttle
keeps the latest position and lets one out at most every 100 ms; the first
goes out at once, the last is never lost.  Instants are in nanoseconds.

* `poll_eq` — when a poll dispatches, and what.
* `apply_kept`, `after_kept` — the account of what was noted and dispatched,
  behind every call and every history of calls.
* `slider_history` — the commands the dashboard sends are the throttle's
  dispatches.
* **`volume_throttle_history`** — what holds behind every history.
-/

namespace CastApp.Gui.Slider

open CastApp.State

structure VolumeThrottle where
  lastSend : Option Nat
  pending : Option Float32

namespace VolumeThrottle

/-- 100 ms. -/
def minInterval : Nat := 100000000

def new : VolumeThrottle := ⟨none, none⟩

def noteChange (t : VolumeThrottle) (level : Float32) : VolumeThrottle :=
  { t with pending := some level }

/-- The value that may be dispatched now, and the throttle after it. -/
def poll (t : VolumeThrottle) (now : Nat) : Option Float32 × VolumeThrottle :=
  match t.pending with
  | none => (none, t)
  | some level =>
      let due := t.lastSend.all fun last => decide (minInterval ≤ now - last)
      if due then (some level, ⟨some now, none⟩) else (none, t)

def isPending (t : VolumeThrottle) : Bool := t.pending.isSome

/-- Long enough after the last dispatch, or nothing was dispatched yet. -/
def Due (t : VolumeThrottle) (now : Nat) : Prop :=
  ∀ last, t.lastSend = some last → last + minInterval ≤ now

/-- A poll dispatches what is pending exactly when it is due. -/
theorem poll_eq (t : VolumeThrottle) (now : Nat) :
    (t.pending = none ∧ t.poll now = (none, t)) ∨
    (∃ level, t.pending = some level ∧ t.Due now ∧ t.poll now = (some level, ⟨some now, none⟩)) ∨
    (t.pending.isSome ∧ ¬ t.Due now ∧ t.poll now = (none, t)) := by
  obtain ⟨lastSend, pending⟩ := t
  cases pending with
  | none => exact .inl ⟨rfl, rfl⟩
  | some level =>
      right
      cases lastSend with
      | none => exact .inl ⟨level, rfl, fun _ h => (nomatch h), rfl⟩
      | some last =>
          have hPos : 0 < minInterval := by decide
          by_cases hLong : minInterval ≤ now - last
          · left
            refine ⟨level, rfl, ?_, by simp [poll, hLong]⟩
            intro _ hLast
            cases hLast
            omega
          · right
            refine ⟨rfl, fun hDue => ?_, by simp [poll, hLong]⟩
            have hLater := hDue last rfl
            omega

end VolumeThrottle

/-! ## The slider -/

/-- The dashboard's throttle, with the commands it has sent. -/
structure VolumeSlider where
  volumeThrottle : VolumeThrottle
  commands : List AppCommand

namespace VolumeSlider

def new : VolumeSlider := ⟨.new, []⟩

/-- A position from 0 to 100. -/
def setVolume (s : VolumeSlider) (level : UInt8) : VolumeSlider :=
  { s with volumeThrottle := s.volumeThrottle.noteChange (level.toFloat32 / 100) }

/-- Whether a command was dispatched, and the slider after it. -/
def pollAndDispatchVolume (s : VolumeSlider) (now : Nat) : Bool × VolumeSlider :=
  match s.volumeThrottle.poll now with
  | (none, throttle) => (false, { s with volumeThrottle := throttle })
  | (some level, throttle) =>
      (true, { s with
        volumeThrottle := throttle
        commands := s.commands ++ [.setVolume level] })

def volumePending (s : VolumeSlider) : Bool := s.volumeThrottle.isPending

end VolumeSlider

/-! ## The account -/

inductive Call : Type
  | noteChange (level : Float32)
  | poll (now : Nat)

/-- A dispatched value, with the number of values noted before it. -/
structure Dispatch where
  note : Nat
  level : Float32
  instant : Nat

/-- A throttle with all that was noted and dispatched. -/
structure Ledger where
  throttle : VolumeThrottle
  noted : List Float32
  dispatched : List Dispatch

namespace Ledger

open VolumeThrottle (minInterval)

def new : Ledger := ⟨.new, [], []⟩

/-- One call.  A dispatch is filed under the latest note. -/
def apply (l : Ledger) : Call → Ledger
  | .noteChange level =>
      { l with throttle := l.throttle.noteChange level, noted := l.noted ++ [level] }
  | .poll now =>
      match l.throttle.poll now with
      | (none, throttle) => { l with throttle := throttle }
      | (some level, throttle) =>
          { l with
            throttle := throttle
            dispatched := l.dispatched ++ [⟨l.noted.length - 1, level, now⟩] }

def after (l : Ledger) : List Call → Ledger
  | [] => l
  | call :: calls => after (l.apply call) calls

/-- What holds of the account at all times. -/
structure Kept (l : Ledger) : Prop where
  hLast : l.throttle.lastSend = l.dispatched.getLast?.map Dispatch.instant
  hNoted : ∀ d ∈ l.dispatched, l.noted[d.note]? = some d.level
  hOrder : l.dispatched.Pairwise fun d e =>
    d.note < e.note ∧ d.instant + minInterval ≤ e.instant
  /-- What is pending was noted last and not dispatched. -/
  hPending : ∀ level, l.throttle.pending = some level →
    l.noted.getLast? = some level ∧ ∀ d ∈ l.dispatched, d.note + 1 < l.noted.length
  /-- Where nothing is pending, what was noted last was dispatched. -/
  hSettled : l.throttle.pending = none →
    l.noted = [] ∨ ∃ d ∈ l.dispatched, d.note + 1 = l.noted.length

variable {l : Ledger}

theorem new_kept : new.Kept where
  hLast := rfl
  hNoted := fun _ h => (nomatch h)
  hOrder := .nil
  hPending := fun _ h => (nomatch h)
  hSettled := fun _ => .inl rfl

theorem noteChange_kept (hKept : l.Kept) (level : Float32) :
    (l.apply (.noteChange level)).Kept where
  hLast := hKept.hLast
  hNoted := by
    intro d hd
    have hNoted := hKept.hNoted d hd
    have hLt := (List.getElem?_eq_some_iff.mp hNoted).1
    show (l.noted ++ [level])[d.note]? = some d.level
    rw [List.getElem?_append_left hLt]
    exact hNoted
  hOrder := hKept.hOrder
  hPending := by
    intro other hOther
    have hSame : other = level := (Option.some.inj hOther).symm
    refine ⟨by rw [hSame]; exact List.getLast?_concat, fun d hd => ?_⟩
    have hLt := (List.getElem?_eq_some_iff.mp (hKept.hNoted d hd)).1
    show d.note + 1 < (l.noted ++ [level]).length
    rw [List.length_append, List.length_singleton]
    omega
  hSettled := fun h => (nomatch h)

/-- A dispatch comes an interval after all others. -/
theorem dispatch_after (hKept : l.Kept) {now : Nat} (hDue : l.throttle.Due now) {d : Dispatch}
    (hd : d ∈ l.dispatched) : d.instant + minInterval ≤ now := by
  obtain ⟨before, last, hBefore⟩ := List.eq_nil_or_concat l.dispatched |>.resolve_left
    (List.ne_nil_of_mem hd)
  rw [List.concat_eq_append] at hBefore
  have hLast := hDue last.instant (by rw [hKept.hLast, hBefore, List.getLast?_concat]; rfl)
  have hOrder := hKept.hOrder
  rw [hBefore] at hOrder hd
  rcases List.mem_append.mp hd with hd | hd
  · have hEarlier := (List.pairwise_append.mp hOrder).2.2 d hd last (by simp)
    omega
  · rw [List.mem_singleton.mp hd]
    exact hLast

theorem poll_kept (hKept : l.Kept) (now : Nat) : (l.apply (.poll now)).Kept := by
  unfold apply
  dsimp only
  rcases l.throttle.poll_eq now with ⟨-, hPoll⟩ | ⟨level, hLevel, hDue, hPoll⟩ | ⟨-, -, hPoll⟩
  · rw [hPoll]
    exact hKept
  · rw [hPoll]
    obtain ⟨hLatest, hFresh⟩ := hKept.hPending level hLevel
    have hSome : l.noted ≠ [] := by
      intro hNone
      rw [hNone] at hLatest
      cases hLatest
    have hPos : 0 < l.noted.length := List.length_pos_iff.mpr hSome
    exact
      { hLast := by simp
        hNoted := by
          intro d hd
          rcases List.mem_append.mp hd with hd | hd
          · exact hKept.hNoted d hd
          · rw [List.mem_singleton.mp hd, ← List.getLast?_eq_getElem?]
            exact hLatest
        hOrder := by
          refine List.pairwise_append.mpr ⟨hKept.hOrder, List.pairwise_singleton _ _, ?_⟩
          intro d hd e he
          have hBefore := hFresh d hd
          have hApart := dispatch_after hKept hDue hd
          rw [List.mem_singleton.mp he]
          exact ⟨by show d.note < l.noted.length - 1; omega, hApart⟩
        hPending := fun _ h => (nomatch h)
        hSettled := fun _ => by
          refine .inr ⟨⟨l.noted.length - 1, level, now⟩, by simp, ?_⟩
          show l.noted.length - 1 + 1 = l.noted.length
          omega }
  · rw [hPoll]
    exact hKept

theorem apply_kept (hKept : l.Kept) (call : Call) : (l.apply call).Kept := by
  cases call with
  | noteChange level => exact noteChange_kept hKept level
  | poll now => exact poll_kept hKept now

theorem after_kept (hKept : l.Kept) (calls : List Call) : (l.after calls).Kept := by
  induction calls generalizing l with
  | nil => exact hKept
  | cons call calls ih => exact ih (apply_kept hKept call)

end Ledger

/-! ## The dashboard's calls -/

inductive SliderCall : Type
  | setVolume (level : UInt8)
  | pollAndDispatchVolume (now : Nat)

namespace VolumeSlider

def apply (s : VolumeSlider) : SliderCall → VolumeSlider
  | .setVolume level => s.setVolume level
  | .pollAndDispatchVolume now => (s.pollAndDispatchVolume now).2

def after (s : VolumeSlider) : List SliderCall → VolumeSlider
  | [] => s
  | call :: calls => after (s.apply call) calls

end VolumeSlider

/-- What a call of the dashboard asks of its throttle. -/
def SliderCall.toCall : SliderCall → Call
  | .setVolume level => .noteChange (level.toFloat32 / 100)
  | .pollAndDispatchVolume now => .poll now

/-- A slider and the account of its throttle. -/
structure Agrees (s : VolumeSlider) (l : Ledger) : Prop where
  hThrottle : s.volumeThrottle = l.throttle
  hCommands : s.commands = l.dispatched.map fun d => .setVolume d.level

theorem apply_agrees {s : VolumeSlider} {l : Ledger} (h : Agrees s l) (call : SliderCall) :
    Agrees (s.apply call) (l.apply call.toCall) := by
  obtain ⟨hThrottle, hCommands⟩ := h
  cases call with
  | setVolume level =>
      refine ⟨?_, hCommands⟩
      show s.volumeThrottle.noteChange _ = l.throttle.noteChange _
      rw [hThrottle]
  | pollAndDispatchVolume now =>
      unfold VolumeSlider.apply VolumeSlider.pollAndDispatchVolume SliderCall.toCall Ledger.apply
      dsimp only
      rw [hThrottle]
      rcases l.throttle.poll now with ⟨answer, throttle⟩
      cases answer with
      | none => exact ⟨rfl, hCommands⟩
      | some level => exact ⟨rfl, by simp [hCommands]⟩

/-- The commands sent are the dispatches, in order. -/
theorem slider_history {s : VolumeSlider} {l : Ledger} (h : Agrees s l) (calls : List SliderCall) :
    Agrees (s.after calls) (l.after (calls.map SliderCall.toCall)) := by
  induction calls generalizing s l with
  | nil => exact h
  | cons call calls ih => exact ih (apply_agrees h call)

/-! ## All histories -/

open VolumeThrottle (minInterval)

/-- What the throttle promises of a history of calls. -/
structure Throttled (l : Ledger) : Prop where
  hApart : l.dispatched.Pairwise fun d e => d.instant + minInterval ≤ e.instant
  /-- Each dispatched value was noted, and no note is dispatched twice. -/
  hNoted : ∀ d ∈ l.dispatched, l.noted[d.note]? = some d.level
  hOnce : l.dispatched.Pairwise fun d e => d.note < e.note
  /-- What a poll dispatches now is the value noted last. -/
  hLatest : ∀ now level, (l.throttle.poll now).1 = some level → l.noted.getLast? = some level
  hFate : ∀ i, i < l.noted.length →
    (∃ d ∈ l.dispatched, d.note = i) ∨ i + 1 < l.noted.length ∨
      (l.throttle.pending = l.noted[i]? ∧ i + 1 = l.noted.length)
  hDue : ∀ now level, l.throttle.pending = some level →
    (∀ d, l.dispatched.getLast? = some d → d.instant + minInterval ≤ now) →
    (l.throttle.poll now).1 = some level

theorem throttled_of_kept {l : Ledger} (hKept : l.Kept) : Throttled l where
  hApart := hKept.hOrder.imp And.right
  hNoted := hKept.hNoted
  hOnce := hKept.hOrder.imp And.left
  hLatest := by
    intro now level hLevel
    rcases l.throttle.poll_eq now with ⟨-, hPoll⟩ | ⟨other, hOther, -, hPoll⟩ | ⟨-, -, hPoll⟩
    · rw [hPoll] at hLevel
      cases hLevel
    · rw [hPoll] at hLevel
      rw [← Option.some.inj hLevel]
      exact (hKept.hPending other hOther).1
    · rw [hPoll] at hLevel
      cases hLevel
  hFate := by
    intro i hi
    by_cases hLast : i + 1 = l.noted.length
    · cases hPending : l.throttle.pending with
      | none =>
          rcases hKept.hSettled hPending with hNone | ⟨d, hd, hNote⟩
          · rw [hNone] at hi
            cases hi
          · exact .inl ⟨d, hd, by omega⟩
      | some level =>
          right; right
          refine ⟨?_, hLast⟩
          rw [← (hKept.hPending level hPending).1, List.getLast?_eq_getElem?]
          congr 1
          omega
    · exact .inr (.inl (by omega))
  hDue := by
    intro now level hLevel hLong
    have hDue : l.throttle.Due now := by
      intro last hLast
      rw [hKept.hLast] at hLast
      obtain ⟨d, hd, rfl⟩ := Option.map_eq_some_iff.mp hLast
      exact hLong d hd
    rcases l.throttle.poll_eq now with ⟨hNone, -⟩ | ⟨other, hOther, -, hPoll⟩ | ⟨-, hEarly, -⟩
    · rw [hNone] at hLevel
      cases hLevel
    · rw [hPoll]
      exact hOther.symm.trans hLevel
    · exact absurd hDue hEarly

/-- Behind every history of calls, whatever their instants; and what the
dashboard sends is what the throttle dispatches. -/
theorem volume_throttle_history :
    (∀ calls, Throttled (Ledger.new.after calls)) ∧
      ∀ calls, Agrees (VolumeSlider.new.after calls)
        (Ledger.new.after (calls.map SliderCall.toCall)) :=
  ⟨fun calls => throttled_of_kept (Ledger.after_kept Ledger.new_kept calls),
    slider_history ⟨rfl, rfl⟩⟩

end CastApp.Gui.Slider
