import CastApp.State

/-!
# Flush cadence

A streaming handler flushes its buffered writer once enough bytes have
accumulated since the last flush, or once it was long enough ago.  The clock
is read by the methods themselves; each reading is an argument here.
-/

namespace CastApp.Media.Flush

open CastApp.State

structure FlushTracker where
  bytesSinceFlush : Nat
  lastFlush : Instant
  byteThreshold : Nat
  timeThreshold : Duration
  deriving DecidableEq, Repr

namespace FlushTracker

def new (byteThreshold : Nat) (timeThreshold : Duration) (now : Instant) : FlushTracker :=
  ⟨0, now, byteThreshold, timeThreshold⟩

/-- Restart the accounting after a flush. -/
def reset (tracker : FlushTracker) (now : Instant) : FlushTracker :=
  { tracker with bytesSinceFlush := 0, lastFlush := now }

/-- Record `written` bytes; whether the caller is to flush now.  The clock is
read for the time since the last flush, and once more to restart. -/
def shouldFlush (tracker : FlushTracker) (written : Nat) (now restarted : Instant) :
    Bool × FlushTracker :=
  let counted := { tracker with bytesSinceFlush := tracker.bytesSinceFlush + written }
  if counted.byteThreshold ≤ counted.bytesSinceFlush ∨
      counted.timeThreshold ≤ now - counted.lastFlush then
    (true, counted.reset restarted)
  else
    (false, counted)

def nextDeadline (tracker : FlushTracker) : Instant := tracker.lastFlush + tracker.timeThreshold

def hasPending (tracker : FlushTracker) : Bool := decide (0 < tracker.bytesSinceFlush)

end FlushTracker

end CastApp.Media.Flush
