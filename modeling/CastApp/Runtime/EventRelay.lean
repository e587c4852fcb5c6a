import CastApp.Runtime.Supervisor
import CastApp.Verified.RelyGuarantee

/-!
# The supervisor between the GUI and the connection task

What the supervisor passes on: the selections of the user to the connection
task, and the news of the connection to the GUI.

* `quiet_exec` — what asks for nothing that is heard passes nothing on.
-/

namespace CastApp.Runtime.EventRelay

open CastApp.Cast.Session (Command ConnectionEvent)
open CastApp.Runtime.Supervisor
open CastApp.State
open CastApp.Verified.Coroutine
open CastApp.Verified.EventLoop
open CastApp.Verified.RelyGuarantee

abbrev Ops : Type := List (Entry supervisorSig)

/-! ## What is passed on -/

/-- What the GUI is told of an event of the connection task. -/
def forwarded : ConnectionEvent → List BackendEvent
  | .connected device => [.receiverConnected device]
  | .disconnected device => [.receiverDisconnected device]
  | .error error => [.connectionError (connectionErrorText error)]
  | .ready _ _ => []
  | .certificateMismatch device previous current =>
      [.certificateWarning (certificateWarningText device previous current)]
  | .mediaStatus playing buffering => [.mediaStatus playing buffering]
  | .volume level muted => [.volume level muted]

/-- The events from which the GUI learns of a connection and its playback. -/
def isNews : BackendEvent → Bool
  | .receiverConnected _ => true
  | .receiverDisconnected _ => true
  | .connectionError _ => true
  | .mediaStatus _ _ => true
  | _ => false

/-- The news among some events. -/
def newsOf (events : List BackendEvent) : List BackendEvent := events.filter isNews

@[simp] theorem newsOf_append (xs ys : List BackendEvent) :
    newsOf (xs ++ ys) = newsOf xs ++ newsOf ys := List.filter_append ..

/-- The receiver a command of the GUI selects. -/
def selection : AppCommand → Option CastDevice
  | .selectReceiver device => some device
  | .manualConnect addr => some (.fromManualAddr addr)
  | _ => none

/-- The receiver a command of the connection task selects. -/
def selected : Command → Option CastDevice
  | .select device => some device
  | _ => none

/-! ## What a turn shows -/

def emitOf : Entry supervisorSig → Option BackendEvent
  | ⟨.emit event, _⟩ => some event
  | _ => none

/-- The events for the GUI, in order. -/
def emitsOf (ops : Ops) : List BackendEvent := ops.filterMap emitOf

def castOf : Entry supervisorSig → Option Command
  | ⟨.cast command, _⟩ => some command
  | _ => none

/-- The commands for the connection task, in order. -/
def castsOf (ops : Ops) : List Command := ops.filterMap castOf

def drainOf : Entry supervisorSig → List ConnectionEvent
  | ⟨.drainCast, events⟩ => events
  | _ => []

/-- The events drained at the end. -/
def drainedOf (ops : Ops) : List ConnectionEvent := ops.flatMap drainOf

theorem emitsOf_append (xs ys : Ops) : emitsOf (xs ++ ys) = emitsOf xs ++ emitsOf ys :=
  List.filterMap_append

theorem castsOf_append (xs ys : Ops) : castsOf (xs ++ ys) = castsOf xs ++ castsOf ys :=
  List.filterMap_append

theorem drainedOf_append (xs ys : Ops) : drainedOf (xs ++ ys) = drainedOf xs ++ drainedOf ys :=
  List.flatMap_append

theorem emitsOf_cons (e : Entry supervisorSig) (ops : Ops) :
    emitsOf (e :: ops) = (emitOf e).toList ++ emitsOf ops := by
  cases hEmit : emitOf e <;> simp [emitsOf, hEmit]

theorem castsOf_cons (e : Entry supervisorSig) (ops : Ops) :
    castsOf (e :: ops) = (castOf e).toList ++ castsOf ops := by
  cases hCast : castOf e <;> simp [castsOf, hCast]

theorem drainedOf_cons (e : Entry supervisorSig) (ops : Ops) :
    drainedOf (e :: ops) = drainOf e ++ drainedOf ops := rfl

/-- The command a branch takes from the GUI. -/
def obeyed : Branch → List AppCommand
  | .command (some command) => [command]
  | _ => []

/-- The event a branch takes from the connection task. -/
def received : Branch → List ConnectionEvent
  | .event (some event) => [event]
  | _ => []

/-- `ops` pass on these commands and these events. -/
structure Relays (commands : List AppCommand) (events : List ConnectionEvent) (ops : Ops) :
    Prop where
  news : newsOf (emitsOf ops) = newsOf (events.flatMap forwarded)
  selections : (castsOf ops).filterMap selected = commands.filterMap selection

/-! ## Operations that pass nothing on -/

/-- The operation is neither news nor a selection, nor does it take events. -/
def Unheard : Op → Prop
  | .emit event => isNews event = false
  | .cast command => selected command = none
  | .drainCast => False
  | _ => True

/-- Only such operations are asked for. -/
abbrev Quiet {α : Type} (p : Supervise α) : Prop :=
  Abides (S := supervisorSig) (fun _ _ => True) Unheard p fun _ => True

variable {ops : Ops}

theorem unheard_entry {e : Entry supervisorSig} (h : Unheard e.1) :
    newsOf (emitOf e).toList = [] ∧ (castOf e).toList.filterMap selected = [] ∧ drainOf e = [] := by
  obtain ⟨op, r⟩ := e
  cases op with
  | emit event =>
      have hSilent : isNews event = false := h
      exact ⟨by simp [newsOf, emitOf, hSilent], rfl, rfl⟩
  | cast command =>
      have hOther : selected command = none := h
      exact ⟨rfl, by simp [castOf, hOther], rfl⟩
  | drainCast => exact h.elim
  | _ => exact ⟨rfl, rfl, rfl⟩

theorem unheard_shows (h : ∀ e ∈ ops, Unheard e.1) :
    newsOf (emitsOf ops) = [] ∧ (castsOf ops).filterMap selected = [] ∧ drainedOf ops = [] := by
  induction ops with
  | nil => exact ⟨rfl, rfl, rfl⟩
  | cons e ops ih =>
      simp only [List.forall_mem_cons] at h
      obtain ⟨hNews, hSelections, hDrained⟩ := ih h.2
      obtain ⟨hNews', hSelections', hDrained'⟩ := unheard_entry h.1
      rw [emitsOf_cons, castsOf_cons, drainedOf_cons, newsOf_append, List.filterMap_append, hNews,
        hSelections, hDrained, hNews', hSelections', hDrained']
      exact ⟨rfl, rfl, rfl⟩

theorem quiet_exec {α : Type} {p : Supervise α} (hQuiet : Quiet p) {o : Outcome supervisorSig α}
    (hExec : Exec p ops o) :
    newsOf (emitsOf ops) = [] ∧ (castsOf ops).filterMap selected = [] ∧ drainedOf ops = [] :=
  unheard_shows (hQuiet.exec hExec fun _ _ => trivial).1

/-- Bad news, which is not of a connection. -/
def isFailure : BackendEvent → Bool
  | .connectionError _ => true
  | _ => false

/-- The operation is no news but bad news, and no selection. -/
def Unconnected : Op → Prop
  | .emit event => isNews event = true → isFailure event = true
  | .cast command => selected command = none
  | _ => True

theorem Unheard.unconnected {op : Op} (h : Unheard op) : Unconnected op := by
  cases op with
  | emit event =>
      intro hNews
      rw [show isNews event = false from h] at hNews
      cases hNews
  | cast => exact h
  | _ => trivial

/-- Only such operations are asked for. -/
abbrev Failing {α : Type} (p : Supervise α) : Prop :=
  Abides (S := supervisorSig) (fun _ _ => True) Unconnected p fun _ => True

theorem Quiet.failing {α : Type} {p : Supervise α} (h : Quiet p) : Failing p :=
  h.mono (fun _ _ => id) (fun _ => Unheard.unconnected) fun _ => id

end CastApp.Runtime.EventRelay
