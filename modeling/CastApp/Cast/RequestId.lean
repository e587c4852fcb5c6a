import CastApp.State

/-!
# Request ids

The per-connection counter that numbers requests, and the map of requests
still waiting for a response.  The counter wraps from `u32::MAX` to 1 and
passes over pending ids.
-/

namespace CastApp.Cast.RequestId

open CastApp.State

/-! ## Pending requests -/

structure PendingMap where
  /-- When each outstanding request was sent; keys are distinct. -/
  pending : List (UInt32 × Instant)
  timeout : Duration
  deriving DecidableEq, Repr

namespace PendingMap

def new (timeout : Duration) : PendingMap := ⟨[], timeout⟩

def isPending (m : PendingMap) (id : UInt32) : Bool := m.pending.any (·.1 == id)

/-- An id that is already pending keeps its deadline. -/
def insert (m : PendingMap) (id : UInt32) (sentAt : Instant) : PendingMap :=
  if m.isPending id then m else { m with pending := (id, sentAt) :: m.pending }

/-- Whether `id` was pending, and the map without it. -/
def resolve (m : PendingMap) (id : UInt32) : Bool × PendingMap :=
  (m.isPending id, { m with pending := m.pending.filter (·.1 != id) })

/-- The overdue ids, and the map without them. -/
def expire (m : PendingMap) (now : Instant) : List UInt32 × PendingMap :=
  let overdue := fun entry : UInt32 × Instant => entry.2 + m.timeout ≤ now
  ((m.pending.filter overdue).map (·.1),
    { m with pending := m.pending.filter fun entry => !overdue entry })

end PendingMap

/-! ## Allocation -/

structure RequestId where
  next : UInt32
  deriving DecidableEq, Repr

namespace RequestId

def new : RequestId := ⟨1⟩

/-- The successor in the cycle `1 … u32::MAX`. -/
def advance (id : UInt32) : UInt32 := if id = 0xFFFFFFFF then 1 else id + 1

/-- The loop of `allocate`; `none` is its panic, once it is back at
`start`. -/
def allocateFrom (pending : PendingMap) (start : UInt32) :
    Nat → UInt32 → Option (UInt32 × RequestId)
  | 0, _ => none
  | turns + 1, id =>
      if !pending.isPending id then some (id, ⟨advance id⟩)
      else if advance id = start then none
      else allocateFrom pending start turns (advance id)

/-- The next id that is not pending.  Among one more id than there are
pending ones, one is free, so the loop needs no further turns. -/
def allocate (r : RequestId) (pending : PendingMap) : Option (UInt32 × RequestId) :=
  allocateFrom pending r.next (pending.pending.length + 1) r.next

theorem allocateFrom_not_pending {pending : PendingMap} {start id id' : UInt32}
    {turns : Nat} {r : RequestId}
    (h : allocateFrom pending start turns id = some (id', r)) :
    pending.isPending id' = false := by
  induction turns generalizing id with
  | zero => cases h
  | succ turns ih =>
      unfold allocateFrom at h
      split at h
      · next hFree =>
          cases h
          simpa using hFree
      · split at h
        · cases h
        · exact ih h

/-- An allocated id has no outstanding request. -/
theorem allocate_not_pending {r r' : RequestId} {pending : PendingMap} {id : UInt32}
    (h : r.allocate pending = some (id, r')) : pending.isPending id = false :=
  allocateFrom_not_pending h

end RequestId

end CastApp.Cast.RequestId
