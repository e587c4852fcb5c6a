import CastApp.State

/-!
# The commands of the media server

What the media-server task keeps, and what each command makes of it.  The
outcome of a bind is the operating system's; everything else follows.
-/

namespace CastApp.Media.MediaServer

open CastApp.State

inductive ActiveSource : Type
  | file (path : String)
  | url (url : String)
  | screen (monitor : String)
  deriving DecidableEq, Repr

/-- The receiving end of a live encoder stream, by identity. -/
structure ScreenStream where
  id : Nat
  deriving DecidableEq, Repr

inductive ServerCommand : Type
  | setSource (source : ActiveSource)
  | attachScreenStream (stream : ScreenStream)
  | setPort (port : UInt16)
  | setBindAddr (addr : SocketAddr)
  | shutdown
  deriving DecidableEq, Repr

/-- A bound listener, by the address it is reached at. -/
structure Listener where
  ip : IpAddr
  port : UInt16
  deriving DecidableEq, Repr

structure ServerState where
  /-- The address of the last successful `SetBindAddr`. -/
  bindIp : Option IpAddr
  listener : Option Listener
  current : Option ActiveSource
  liveRx : Option ScreenStream
  generation : UInt64
  /-- The published port. -/
  boundPort : UInt16
  deriving DecidableEq

/-- What a bind came to: the local port of the new listener, or an error. -/
abbrev BindResult : Type := Except IoError UInt16

/-- A bind to a port other than 0 gets that port. -/
def BindResult.Fits (port : UInt16) : BindResult → Prop
  | .ok actual => port ≠ 0 → actual = port
  | .error _ => True

namespace ServerState

/-- The state the task starts in, unbound. -/
def unbound : ServerState := ⟨none, none, none, none, 0, 0⟩

/-- The state the task starts in, after the bind it was started with. -/
def started (initialBind : Option (IpAddr × UInt16)) (result : BindResult) : ServerState :=
  match initialBind with
  | none => unbound
  | some (ip, _) =>
      match result with
      | .ok actual =>
          { unbound with bindIp := some ip, listener := some ⟨ip, actual⟩, boundPort := actual }
      | .error _ => { unbound with bindIp := some ip }

def setSource (s : ServerState) (source : ActiveSource) : ServerState :=
  { s with current := some source, liveRx := none, generation := s.generation + 1 }

def attachScreenStream (s : ServerState) (stream : ScreenStream) : ServerState :=
  { s with liveRx := some stream, generation := s.generation + 1 }

/-- Rebind on the present address; a failed bind keeps the listener. -/
def setPort (s : ServerState) (port : UInt16) (result : BindResult) : ServerState :=
  match s.bindIp with
  | none => s
  | some ip =>
      match result with
      | .ok actual => { s with listener := some ⟨ip, actual⟩, boundPort := port }
      | .error _ => s

/-- Rebind on a new address; the old listener is dropped first, and what is
acknowledged is the outcome of the bind. -/
def setBindAddr (s : ServerState) (addr : SocketAddr) (result : BindResult) :
    ServerState × Except IoError Unit :=
  match result with
  | .ok actual =>
      ({ s with
          bindIp := some addr.ip
          listener := some ⟨addr.ip, actual⟩
          boundPort := actual }, .ok ())
  | .error error => ({ s with listener := none }, .error error)

end ServerState

/-- The task processes a command that does not stop it, and acknowledges a
`SetBindAddr`. -/
inductive Processes (s : ServerState) :
    ServerCommand → Option (Except IoError Unit) → ServerState → Prop
  | setSource (source : ActiveSource) :
      Processes s (.setSource source) none (s.setSource source)
  | attachScreenStream (stream : ScreenStream) :
      Processes s (.attachScreenStream stream) none (s.attachScreenStream stream)
  | setPort (port : UInt16) (result : BindResult) (hFits : result.Fits port) :
      Processes s (.setPort port) none (s.setPort port result)
  | setBindAddr (addr : SocketAddr) (result : BindResult) (hFits : result.Fits addr.port) :
      Processes s (.setBindAddr addr) (some (s.setBindAddr addr result).2)
        (s.setBindAddr addr result).1

namespace ServerState

/-- A listener is on the address of the last successful `SetBindAddr`. -/
def Coherent (s : ServerState) : Prop := ∀ l, s.listener = some l → s.bindIp = some l.ip

theorem liveRx_started (initialBind : Option (IpAddr × UInt16)) (result : BindResult) :
    (started initialBind result).liveRx = none := by
  unfold started
  split
  · rfl
  · split <;> rfl

theorem coherent_unbound : unbound.Coherent := by
  intro l hListener
  cases hListener

theorem Coherent.processes {s s' : ServerState} {command : ServerCommand}
    {ack : Option (Except IoError Unit)} (h : s.Coherent) (hProcess : Processes s command ack s') :
    s'.Coherent := by
  cases hProcess with
  | setSource | attachScreenStream => exact h
  | setPort port result =>
      unfold setPort
      cases hIp : s.bindIp with
      | none => exact h
      | some ip =>
          cases result with
          | error => exact h
          | ok actual =>
              rintro l ⟨⟩
              rfl
  | setBindAddr addr result =>
      cases result with
      | error =>
          intro l hListener
          cases hListener
      | ok actual =>
          rintro l ⟨⟩
          rfl

end ServerState

end CastApp.Media.MediaServer
