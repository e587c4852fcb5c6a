/-!
# Watch channels

A watch channel holds one value and a version that every `send` increments.
A receiver remembers the version it saw last; it starts at the current one,
so **what was sent before the subscription counts as seen**, and `changed`
completes only when the versions differ.

`not_ready_subscribe` is the fact its users have to reckon with: a `send` ahead
of the subscription makes no receiver ready.
-/

namespace CastApp.Verified.WatchChannel

/-- The shared side of a watch channel. -/
structure Watch (α : Type) where
  value : α
  version : Nat
  deriving DecidableEq, Repr

/-- A receiver: the last version it has seen. -/
structure Receiver where
  seen : Nat
  deriving DecidableEq, Repr

variable {α : Type}

/-- A fresh channel. -/
def Watch.channel (value : α) : Watch α := ⟨value, 0⟩

/-- Publish a value under a new version. -/
def Watch.send (w : Watch α) (value : α) : Watch α := ⟨value, w.version + 1⟩

/-- A receiver that has seen the current version. -/
def Watch.subscribe (w : Watch α) : Receiver := ⟨w.version⟩

/-- `changed` can complete. -/
def Receiver.Ready (r : Receiver) (w : Watch α) : Prop := r.seen ≠ w.version

instance (r : Receiver) (w : Watch α) : Decidable (r.Ready w) := by
  unfold Receiver.Ready
  infer_instance

/-- No receiver is ahead of its channel. -/
def Receiver.Behind (r : Receiver) (w : Watch α) : Prop := r.seen ≤ w.version

theorem behind_subscribe (w : Watch α) : w.subscribe.Behind w := Nat.le_refl _

theorem Receiver.Behind.send {r : Receiver} {w : Watch α} (h : r.Behind w)
    (v : α) : r.Behind (w.send v) :=
  Nat.le_succ_of_le h

/-- A fresh receiver has nothing to wait for but a later `send`. -/
theorem not_ready_subscribe (w : Watch α) : ¬ w.subscribe.Ready w :=
  fun h => h rfl

end CastApp.Verified.WatchChannel
