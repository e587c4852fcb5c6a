import CastApp.State

/-!
# Exponential backoff

The iterator behind reconnect delays: it yields a bounded number of delays,
each twice the last and never above the cap.
-/

namespace CastApp.Util.Retry

open CastApp.State

def defaultInitial : Duration := Duration.fromSecs 1

def defaultCap : Duration := Duration.fromSecs 30

def defaultMax : Nat := 5

/-- `Duration::MAX`, where doubling saturates. -/
def Duration.max : Duration := (2 ^ 64 - 1) * 1000 + 999

structure Backoff where
  nextDelay : Duration
  cap : Duration
  remaining : Nat
  deriving DecidableEq, Repr

namespace Backoff

def withParams (initial cap : Duration) (max : Nat) : Backoff :=
  ⟨initial, cap, max⟩

def new : Backoff := withParams defaultInitial defaultCap defaultMax

/-- The delay to wait before the next attempt, and the iterator after it. -/
def next (b : Backoff) : Option (Duration × Backoff) :=
  if b.remaining = 0 then
    none
  else
    some (b.nextDelay,
      { b with
        nextDelay := min (min (b.nextDelay * 2) Duration.max) b.cap
        remaining := b.remaining - 1 })

/-- Each delay uses up one of the remaining ones. -/
theorem next_remaining {b b' : Backoff} {d : Duration}
    (h : b.next = some (d, b')) : b'.remaining + 1 = b.remaining := by
  unfold next at h
  split at h
  · cases h
  · cases h
    show b.remaining - 1 + 1 = b.remaining
    omega

theorem next_eq_none {b : Backoff} : b.next = none ↔ b.remaining = 0 := by
  unfold next
  split <;> simp_all

end Backoff

end CastApp.Util.Retry
