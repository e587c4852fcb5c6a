import CastApp.Util.Retry

/-!
# Backoff delays to the nanosecond

The iterator over `std::time::Duration` as it is, with any initial delay, cap
and number of delays.  The connection task counts in milliseconds; its
iterator is this one seen through `toMillis`.

* `after_withParams` — the iterator behind any number of calls.
* **`capped_doubling_iff`** — when the delays are the doubled ones below the
  cap.
* `next_toMillis` — the iterator in milliseconds.
-/

namespace CastApp.Util.BackoffDelays

/-! ## Durations -/

/-- `Duration::MAX`, in nanoseconds. -/
def maxNanos : Nat := (2 ^ 64 - 1) * 10 ^ 9 + 999999999

structure Duration where
  nanos : Nat
  hMax : nanos ≤ maxNanos
  deriving DecidableEq, Repr

namespace Duration

def fromSecs (secs : UInt64) : Duration where
  nanos := secs.toNat * 10 ^ 9
  hMax := by
    have hSecs := secs.toNat_lt
    show secs.toNat * 10 ^ 9 ≤ (2 ^ 64 - 1) * 10 ^ 9 + 999999999
    omega

def saturatingMul (d : Duration) (factor : Nat) : Duration :=
  ⟨min (d.nanos * factor) maxNanos, Nat.min_le_right _ _⟩

/-- `Ord::min`. -/
def least (d other : Duration) : Duration :=
  ⟨min d.nanos other.nanos, Nat.le_trans (Nat.min_le_left _ _) d.hMax⟩

def toMillis (d : Duration) : State.Duration := d.nanos / 10 ^ 6

end Duration

def defaultInitial : Duration := .fromSecs 1

def defaultCap : Duration := .fromSecs 30

def defaultMax : Nat := 5

/-! ## The iterator -/

structure Backoff where
  nextDelay : Duration
  cap : Duration
  remaining : Nat
  deriving DecidableEq, Repr

namespace Backoff

def withParams (initial cap : Duration) (max : Nat) : Backoff := ⟨initial, cap, max⟩

def new : Backoff := withParams defaultInitial defaultCap defaultMax

/-- The answer, and the iterator after it. -/
def next (b : Backoff) : Option Duration × Backoff :=
  if b.remaining = 0 then
    (none, b)
  else
    (some b.nextDelay,
      { b with
        remaining := b.remaining - 1
        nextDelay := (b.nextDelay.saturatingMul 2).least b.cap })

/-- The iterator behind a number of calls. -/
def after : Nat → Backoff → Backoff
  | 0, b => b
  | calls + 1, b => (after calls b).next.2

/-- The answer to call `k`, counted from 0. -/
def answer (b : Backoff) (k : Nat) : Option Duration := (after k b).next.1

end Backoff

/-- `max` delays, each the initial one doubled as often as it was yielded
before and held at the cap, and then none. -/
structure CappedDoubling (initial cap : Duration) (max : Nat)
    (answers : Nat → Option Duration) : Prop where
  hDelay : ∀ k, k < max →
    (answers k).map Duration.nanos = some (min (initial.nanos * 2 ^ k) cap.nanos)
  hNone : ∀ k, max ≤ k → answers k = none
  hCap : ∀ k delay, answers k = some delay → delay.nanos ≤ cap.nanos
  hMono : ∀ j k first later, j ≤ k → answers j = some first → answers k = some later →
    first.nanos ≤ later.nanos

/-! ## Any number of calls -/

open Backoff

variable {initial cap : Duration} {max k : Nat}

/-- Only the first delay is not held at the cap. -/
def delayNanos (initial cap : Duration) (k : Nat) : Nat :=
  if k = 0 then initial.nanos else min (initial.nanos * 2 ^ k) cap.nanos

/-- Doubling saturates no lower than at the cap. -/
theorem delayNanos_succ :
    min (min (delayNanos initial cap k * 2) maxNanos) cap.nanos =
      delayNanos initial cap (k + 1) := by
  have hCap := cap.hMax
  have hPow : initial.nanos * 2 ^ (k + 1) = initial.nanos * 2 ^ k * 2 := by
    rw [Nat.pow_succ, Nat.mul_assoc]
  unfold delayNanos
  rw [if_neg (Nat.succ_ne_zero k), hPow]
  by_cases hFirst : k = 0
  · subst hFirst
    rw [if_pos rfl, Nat.pow_zero, Nat.mul_one]
    omega
  · rw [if_neg hFirst]
    generalize initial.nanos * 2 ^ k = doubled
    omega

/-- The iterator behind any number of calls up to the last. -/
theorem after_withParams (hLe : k ≤ max) :
    ((withParams initial cap max).after k).nextDelay.nanos = delayNanos initial cap k ∧
      ((withParams initial cap max).after k).cap = cap ∧
      ((withParams initial cap max).after k).remaining = max - k := by
  induction k with
  | zero => exact ⟨rfl, rfl, rfl⟩
  | succ k ih =>
      obtain ⟨hDelay, hCap, hRemaining⟩ := ih (by omega)
      generalize hState : (withParams initial cap max).after k = b at hDelay hCap hRemaining
      have hNext : (withParams initial cap max).after (k + 1) =
          { b with
            remaining := b.remaining - 1
            nextDelay := (b.nextDelay.saturatingMul 2).least b.cap } := by
        show ((withParams initial cap max).after k).next.2 = _
        rw [hState]
        unfold next
        rw [if_neg (by omega)]
      rw [hNext]
      refine ⟨?_, hCap, by show b.remaining - 1 = _; omega⟩
      show min (min (b.nextDelay.nanos * 2) maxNanos) b.cap.nanos = _
      rw [hDelay, hCap, delayNanos_succ]

/-- An exhausted iterator stays as it is. -/
theorem after_exhausted (hLe : max ≤ k) : ((withParams initial cap max).after k).remaining = 0 := by
  induction k with
  | zero => exact Nat.le_zero.mp hLe
  | succ k ih =>
      by_cases hLast : max ≤ k
      · have hZero := ih hLast
        show ((withParams initial cap max).after k).next.2.remaining = 0
        unfold next
        rw [if_pos hZero]
        exact hZero
      · obtain ⟨-, -, hRemaining⟩ := @after_withParams initial cap max (k + 1)
          (by omega)
        omega

/-- The delay of each call, for any initial delay. -/
theorem answer_withParams (hLt : k < max) :
    ((withParams initial cap max).answer k).map Duration.nanos =
      some (delayNanos initial cap k) := by
  obtain ⟨hDelay, -, hRemaining⟩ := @after_withParams initial cap max k (by omega)
  unfold answer next
  rw [if_neg (by omega)]
  exact congrArg some hDelay

theorem answer_exhausted (hLe : max ≤ k) : (withParams initial cap max).answer k = none := by
  unfold answer next
  rw [if_pos (after_exhausted hLe)]

/-! ## The closed form -/

theorem delayNanos_of_le (hLe : initial.nanos ≤ cap.nanos) (k : Nat) :
    delayNanos initial cap k = min (initial.nanos * 2 ^ k) cap.nanos := by
  unfold delayNanos
  split
  · next hFirst =>
    rw [hFirst, Nat.pow_zero]
    omega
  · rfl

/-- Below the cap the delays are the doubled ones held at it. -/
theorem cappedDoubling_of_le (hLe : max = 0 ∨ initial.nanos ≤ cap.nanos) :
    CappedDoubling initial cap max (withParams initial cap max).answer := by
  have hDelay : ∀ k, k < max → ((withParams initial cap max).answer k).map Duration.nanos =
      some (min (initial.nanos * 2 ^ k) cap.nanos) := by
    intro k hLt
    rw [answer_withParams hLt, delayNanos_of_le (by omega)]
  -- Whatever is yielded, it is yielded while delays remain.
  have hYield : ∀ k delay, (withParams initial cap max).answer k = some delay →
      delay.nanos = min (initial.nanos * 2 ^ k) cap.nanos := by
    intro k delay hAnswer
    by_cases hLt : k < max
    · have hForm := hDelay k hLt
      rw [hAnswer] at hForm
      exact Option.some.inj hForm
    · rw [answer_exhausted (by omega)] at hAnswer
      cases hAnswer
  refine ⟨hDelay, fun k => answer_exhausted, ?_, ?_⟩
  · intro k delay hAnswer
    rw [hYield k delay hAnswer]
    exact Nat.min_le_right _ _
  · intro j k first later hOrder hFirst hLater
    rw [hYield j first hFirst, hYield k later hLater]
    have hPow : initial.nanos * 2 ^ j ≤ initial.nanos * 2 ^ k :=
      Nat.mul_le_mul_left _ (Nat.pow_le_pow_right (by decide) hOrder)
    omega

/-- The delays are `max` doubled ones held at the cap, nondecreasing, with
nothing after them, exactly when there are none or the initial one is not
above the cap. -/
theorem capped_doubling_iff (initial cap : Duration) (max : Nat) :
    CappedDoubling initial cap max (withParams initial cap max).answer ↔
      max = 0 ∨ initial.nanos ≤ cap.nanos := by
  constructor
  · intro h
    by_cases hNone : max = 0
    · exact .inl hNone
    · right
      have hFirst := h.hDelay 0 (by omega)
      rw [answer_withParams (by omega), Nat.pow_zero, Nat.mul_one] at hFirst
      have hMin : initial.nanos = min initial.nanos cap.nanos := Option.some.inj hFirst
      omega
  · exact cappedDoubling_of_le

/-- Two seconds, to be held at one. -/
theorem delay_above_cap :
    ¬ CappedDoubling (.fromSecs 2) (.fromSecs 1) 1
      (withParams (.fromSecs 2) (.fromSecs 1) 1).answer := by
  intro h
  have hAbove := h.hCap 0 (.fromSecs 2) rfl
  exact absurd hAbove (by decide)

/-- The default delays are 1, 2, 4, 8 and 16 seconds. -/
theorem new_cappedDoubling : CappedDoubling defaultInitial defaultCap defaultMax new.answer :=
  cappedDoubling_of_le (.inr (by decide))

/-! ## In milliseconds -/

/-- All that the iterator counts with are whole milliseconds. -/
structure Backoff.Whole (b : Backoff) : Prop where
  hDelay : 10 ^ 6 ∣ b.nextDelay.nanos
  hCap : 10 ^ 6 ∣ b.cap.nanos

def Backoff.toMillis (b : Backoff) : Retry.Backoff :=
  ⟨b.nextDelay.toMillis, b.cap.toMillis, b.remaining⟩

/-- The iterator in milliseconds yields the same delays. -/
theorem next_toMillis {b : Backoff} (hWhole : b.Whole) :
    b.toMillis.next = b.next.1.map (fun delay => (delay.toMillis, b.next.2.toMillis)) ∧
      b.next.2.Whole := by
  obtain ⟨⟨delay, hDelay⟩, ⟨cap, hCap⟩⟩ := hWhole
  have hDelayMax := b.nextDelay.hMax
  have hCapMax := b.cap.hMax
  unfold maxNanos at hDelayMax hCapMax
  unfold next Retry.Backoff.next
  by_cases hDone : b.remaining = 0
  · have hDone' : b.toMillis.remaining = 0 := hDone
    rw [if_pos hDone, if_pos hDone']
    exact ⟨rfl, ⟨⟨delay, hDelay⟩, ⟨cap, hCap⟩⟩⟩
  · have hDone' : b.toMillis.remaining ≠ 0 := hDone
    rw [if_neg hDone, if_neg hDone']
    have hNext : min (min (b.nextDelay.nanos * 2) maxNanos) b.cap.nanos =
        10 ^ 6 * min (delay * 2) cap := by
      unfold maxNanos
      omega
    have hMillis : ∀ max : Nat, cap ≤ max →
        min (min (b.nextDelay.nanos / 10 ^ 6 * 2) max) (b.cap.nanos / 10 ^ 6) =
          min (delay * 2) cap := by
      intro max hMax
      omega
    have hMax : cap ≤ Retry.Duration.max := by
      show cap ≤ (2 ^ 64 - 1) * 1000 + 999
      omega
    refine ⟨?_, ⟨⟨min (delay * 2) cap, hNext⟩, ⟨cap, hCap⟩⟩⟩
    have hSame : (min (min (b.nextDelay.nanos / 10 ^ 6 * 2) Retry.Duration.max)
        (b.cap.nanos / 10 ^ 6) : Nat) =
          min (min (b.nextDelay.nanos * 2) maxNanos) b.cap.nanos / 10 ^ 6 := by
      rw [hMillis _ hMax, hNext]
      omega
    show some (b.nextDelay.nanos / 10 ^ 6,
      (⟨min (min (b.nextDelay.nanos / 10 ^ 6 * 2) Retry.Duration.max) (b.cap.nanos / 10 ^ 6),
        b.cap.nanos / 10 ^ 6, b.remaining - 1⟩ : Retry.Backoff)) = _
    rw [hSame]
    rfl

end CastApp.Util.BackoffDelays
