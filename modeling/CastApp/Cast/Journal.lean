import CastApp.Cast.RunEffect

/-!
# What a trace shows

The operations of the connection task seen from its two sides: the events
the backend receives and the messages written to receivers.  Each relation of
`RunEffect` is read off here once; invariants over runs speak about these
projections and no longer about single operations.
-/

namespace CastApp.Cast.Journal

open CastApp.State
open CastApp.Cast.Namespaces
open CastApp.Cast.RunEffect
open CastApp.Cast.RunLoop
open CastApp.Cast.Session
open CastApp.Cast.SessionEffect
open CastApp.Util.Json
open CastApp.Verified.Coroutine

/-! ## Events and messages -/

def eventOf : Entry castSig → Option ConnectionEvent
  | ⟨.emit event, _⟩ => some event
  | _ => none

/-- The events emitted, in order. -/
def eventsOf (ops : Ops) : List ConnectionEvent := ops.filterMap eventOf

/-- A message offered to a transport, and whether the write succeeded. -/
structure Sent where
  transport : Transport
  message : Outgoing
  result : Except IoError Unit

def sentOf : Entry castSig → Option Sent
  | ⟨.write transport message, result⟩ => some ⟨transport, message, result⟩
  | _ => none

/-- The messages written, in order. -/
def writesOf (ops : Ops) : List Sent := ops.filterMap sentOf

@[simp] theorem eventsOf_nil : eventsOf [] = [] := rfl

@[simp] theorem eventsOf_append (xs ys : Ops) :
    eventsOf (xs ++ ys) = eventsOf xs ++ eventsOf ys := List.filterMap_append

@[simp] theorem eventsOf_cons (e : Entry castSig) (ops : Ops) :
    eventsOf (e :: ops) = (eventOf e).toList ++ eventsOf ops := by
  unfold eventsOf
  rw [List.filterMap_cons]
  cases eventOf e <;> rfl

@[simp] theorem eventsOf_emitted (events : List ConnectionEvent) :
    eventsOf (emitted events) = events := by
  induction events with
  | nil => rfl
  | cons event events ih =>
      show event :: eventsOf (emitted events) = event :: events
      rw [ih]

@[simp] theorem writesOf_nil : writesOf [] = [] := rfl

@[simp] theorem writesOf_append (xs ys : Ops) :
    writesOf (xs ++ ys) = writesOf xs ++ writesOf ys := List.filterMap_append

@[simp] theorem writesOf_emitted (events : List ConnectionEvent) :
    writesOf (emitted events) = [] := by
  induction events with
  | nil => rfl
  | cons event events ih => exact ih

/-! ## The life of the connection -/

def isLifecycle : ConnectionEvent → Bool
  | .connected _ => true
  | .disconnected _ => true
  | _ => false

/-- The `Connected` and `Disconnected` events, in order. -/
def lifecycleOf (ops : Ops) : List ConnectionEvent :=
  (eventsOf ops).filter isLifecycle

@[simp] theorem lifecycleOf_nil : lifecycleOf [] = [] := rfl

@[simp] theorem lifecycleOf_append (xs ys : Ops) :
    lifecycleOf (xs ++ ys) = lifecycleOf xs ++ lifecycleOf ys := by
  simp [lifecycleOf]

@[simp] theorem lifecycleOf_cons (e : Entry castSig) (ops : Ops) :
    lifecycleOf (e :: ops) = (eventOf e).toList.filter isLifecycle ++ lifecycleOf ops := by
  simp [lifecycleOf]

/-- Saying goodbye emits nothing. -/
theorem Goodbye.eventsOf_eq {session : Session} {ops : Ops} {o : Outcome castSig Session}
    (h : Goodbye session ops o) : eventsOf ops = [] := by
  cases h <;> rfl

/-- The event a teardown of `session` owes. -/
def farewell : Option Session → List ConnectionEvent
  | some session => [.disconnected session.device]
  | none => []

theorem Teardown.lifecycleOf_eq {state state' : RunState} {ops : Ops}
    (h : Teardown state ops (.value state')) :
    lifecycleOf ops = farewell state.session := by
  cases h with
  | idle hSession => rw [hSession]; rfl
  | ended hSession hGoodbye =>
      rw [hSession, lifecycleOf_append, lifecycleOf, Goodbye.eventsOf_eq hGoodbye]
      rfl

theorem Lost.lifecycleOf_eq {config : ConnectionConfig} {state state' : RunState}
    {ops : Ops} (h : Lost config state ops (.value state')) :
    lifecycleOf ops = farewell state.session := by
  cases h with
  | undesired h => exact Teardown.lifecycleOf_eq h
  | retry h =>
      rw [lifecycleOf_append, Teardown.lifecycleOf_eq h]
      exact List.append_nil _
  | exhausted h =>
      rw [lifecycleOf_append, Teardown.lifecycleOf_eq h]
      exact List.append_nil _

theorem lifecycleOf_mismatchOps (device : CastDevice) (pin : PinCheck) :
    lifecycleOf (mismatchOps device pin) = [] := by
  cases pin <;> rfl

/-- The event a connection attempt owes. -/
def announcement (device : CastDevice) : Except ConnectionError Unit → List ConnectionEvent
  | .ok () => [.connected device]
  | .error _ => []

/-- Connecting announces itself exactly when it succeeds. -/
theorem Establishes.lifecycleOf_eq {config : ConnectionConfig} {state state' : RunState}
    {device : CastDevice} {ops : Ops} {result : Except ConnectionError Unit}
    (h : Establishes config state device ops (.value (result, state'))) :
    lifecycleOf ops = announcement device result := by
  cases h <;> simp [lifecycleOf_mismatchOps, eventOf, isLifecycle, announcement]

theorem Requests.eventsOf_eq {session : Session} {outgoing : UInt32 → Outgoing}
    {phase : Phase} {ops : Ops} {o : Outcome castSig Handled}
    (h : Requests session outgoing phase ops o) : eventsOf ops = [] := by
  cases h <;> rfl

theorem Loads.eventsOf_eq {session : Session} {request : LoadRequest} {ops : Ops}
    {o : Outcome castSig Handled} (h : Loads session request ops o) :
    eventsOf ops = [] := by
  cases h <;> rfl

theorem CommandEffect.eventsOf_eq {session : Session} {c : Command} {ops : Ops}
    {o : Outcome castSig Handled} (h : CommandEffect session c ops o) :
    eventsOf ops = [] := by
  cases h with
  | ignored _ hOps => rw [hOps]; rfl
  | asked _ hEffect => exact Requests.eventsOf_eq hEffect
  | played _ _ hEffect => exact Requests.eventsOf_eq hEffect
  | loaded _ _ hEffect => exact Loads.eventsOf_eq hEffect
  | unreachable _ hOps => rw [hOps]; rfl

/-- A status makes a session ready or reports a volume. -/
theorem applyReceiverStatus_lifecycle (session : Session) (status : ReceiverStatus) :
    (session.applyReceiverStatus status).1.filter isLifecycle = [] := by
  have hVolume : (Session.volumeEvents status.volume).filter isLifecycle = [] := by
    unfold Session.volumeEvents
    split <;> rfl
  show (((session.adoptIds status).becomeReady).1 ++
    Session.volumeEvents status.volume).filter isLifecycle = []
  rw [List.filter_append, hVolume, List.append_nil]
  unfold Session.becomeReady
  split
  · split <;> rfl
  · rfl

theorem RouteEffect.lifecycleOf_eq {fromStr : String → Option Json} {session session' : Session}
    {payload : List Byte} {action : InboundAction} {ops : Ops}
    (h : RouteEffect fromStr session payload (action, session')) (hHears : Hears action ops) :
    lifecycleOf ops = [] := by
  cases h with
  | status p hStatus =>
      cases hHears
      rw [lifecycleOf, eventsOf_emitted]
      exact applyReceiverStatus_lifecycle _ _
  | media p =>
      cases hHears
      rw [lifecycleOf, eventsOf_emitted]
      rfl
  | pong => cases hHears <;> rfl
  | ignored => cases hHears; rfl

/-- A live session never announces a connection or its end. -/
theorem Acts.lifecycleOf_eq {fromStr : String → Option Json} {session : Session}
    {b : Branch} {ops : Ops} {o : Outcome castSig Handled}
    (h : Acts fromStr session b ops o) : lifecycleOf ops = [] := by
  cases h with
  | command _ _ h => rw [lifecycleOf, CommandEffect.eventsOf_eq h]; rfl
  | routed hRoute hHears => exact RouteEffect.lifecycleOf_eq hRoute hHears
  | dispatched hRoute hHears _ _ h =>
      rw [lifecycleOf_append, RouteEffect.lifecycleOf_eq hRoute hHears, lifecycleOf,
        Loads.eventsOf_eq h]
      rfl
  | pinged => rfl

/-- Reading the clock shows nothing. -/
theorem quiet_eventsOf {quiet : Ops}
    (h : ∀ entry ∈ quiet, ∃ now : Instant, entry = ⟨.now, now⟩) : eventsOf quiet = [] := by
  refine List.filterMap_eq_nil_iff.mpr fun entry hEntry => ?_
  obtain ⟨now, rfl⟩ := h entry hEntry
  rfl

theorem quiet_writesOf {quiet : Ops}
    (h : ∀ entry ∈ quiet, ∃ now : Instant, entry = ⟨.now, now⟩) : writesOf quiet = [] := by
  refine List.filterMap_eq_nil_iff.mpr fun entry hEntry => ?_
  obtain ⟨now, rfl⟩ := h entry hEntry
  rfl

end CastApp.Cast.Journal
