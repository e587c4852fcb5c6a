import CastApp.State
import CastApp.Util.Shutdown
import CastApp.Verified.EventLoop

/-!
# Waiting for the portal

`call_and_wait`, the request every portal method goes through: subscribe to
the responses, call the method, then wait for the matching response or for
the abort signal.  The abort signal subscribes to the shutdown token **anew
for every message** it waits for.

Of a response only the code and the keys of its results are looked at here.
-/

namespace CastApp.Screen.Portal

open CastApp.Util
open CastApp.Verified.Coroutine
open CastApp.Verified.EventLoop
open CastApp.Verified.WatchChannel

inductive PortalError : Type
  | dbus (message : String)
  | canceled
  | rejected (message : String)
  | malformed (message : String)
  | aborted
  deriving DecidableEq, Repr

/-! ## The abort signal -/

/-- The stop flag of a pipeline and a shutdown token. -/
structure AbortSignal where
  stop : Bool
  shutdown : Shutdown

namespace AbortSignal

/-- A signal that never fires. -/
def throwaway : AbortSignal := ⟨false, .new⟩

/-- `wait` can complete: the flag is set, or the receiver it has subscribed
has something to see. -/
def WaitReady (signal : AbortSignal) (receiver : Option Receiver) : Prop :=
  signal.stop = true ∨ ∃ r, receiver = some r ∧ r.Ready signal.shutdown

end AbortSignal

/-! ## Requests -/

/-- The requests made before the stream can be opened, in order. -/
inductive Method : Type
  | createSession
  | selectSources
  | start
  deriving DecidableEq, Repr

namespace Method

def name : Method → String
  | createSession => "CreateSession"
  | selectSources => "SelectSources"
  | start => "Start"

/-- Whether the keys of a successful response are those of an answer to this
request. -/
def expect : Method → List String → Bool
  | createSession, keys => keys.contains "session_handle"
  | selectSources, _ => true
  | start, keys => keys.contains "streams"

def next : Method → Option Method
  | createSession => some selectSources
  | selectSources => some start
  | start => none

end Method

def responseSuccess : UInt32 := 0

def responseCanceled : UInt32 := 1

/-- A decoded `Response` signal. -/
structure Response where
  code : UInt32
  keys : List String
  deriving DecidableEq, Repr

def checkCode (code : UInt32) (request : String) : Except PortalError Unit :=
  if code = responseSuccess then
    .ok ()
  else if code = responseCanceled then
    .error .canceled
  else
    .error (.rejected (request ++ ": code " ++ toString code.toNat))

/-! ## The wait -/

inductive Op : Type
  /-- `response_stream`. -/
  | responseStream
  | callMethod (method : Method)

abbrev Op.Ans : Op → Type
  | .responseStream | .callMethod _ => Except String Unit

abbrev portalSig : Signature where
  Op := Op
  Ans := Op.Ans
  Fault := Empty

abbrev ask (op : Op) : Coro portalSig op.Ans := @perform portalSig op

/-- Waiting, or done with what `call_and_wait` returns. -/
inductive Wait : Type
  | waiting
  | returned (result : Except PortalError Response)

inductive Branch : Type
  /-- The next message of the stream, if it has not ended, with its body, if
  that is a response. -/
  | message (message : Option (Except String (Option Response)))
  | aborted

def connectionClosed : String :=
  "the portal closed the connection while waiting for a response"

def branchBody (method : Method) : Branch → Coro portalSig (Flow Wait)
  | .message none => return .exit (.returned (.error (.dbus connectionClosed)))
  | .message (some (.error error)) => return .exit (.returned (.error (.dbus error)))
  | .message (some (.ok none)) => return .park .waiting
  | .message (some (.ok (some response))) =>
      -- A code other than success is an answer whatever it carries.
      if response.code ≠ responseSuccess ∨ method.expect response.keys then
        return .exit (.returned (.ok response))
      else
        return .park .waiting
  | .aborted => return .exit (.returned (.error .aborted))

def startUp (method : Method) : Coro portalSig (Flow Wait) := do
  match ← ask .responseStream with
  | .error error => return .exit (.returned (.error (.dbus error)))
  | .ok () =>
      match ← ask (.callMethod method) with
      | .error error => return .exit (.returned (.error (.dbus error)))
      | .ok () => return .park .waiting

/-- `call_and_wait`. -/
def callAndWait (method : Method) : EventLoop portalSig Wait Branch where
  prelude := startUp method
  guard _ _ := True
  body _ := branchBody method

/-- The surroundings of a request.  A signal that is aborted by its flag
completes at its next poll. -/
def surroundings (signal : AbortSignal) :
    Environment portalSig Wait Branch (Option Receiver) Empty where
  init receiver := receiver = none
  answers receiver _ _ receiver' := receiver' = receiver
  parks _ _ receiver' := receiver' = some signal.shutdown.subscribe
  fires receiver _ b receiver' :=
    receiver' = receiver ∧ (b = .aborted → signal.WaitReady receiver)
  moves _ _ _ := False

/-! ## The requests of a controller thread -/

/-- A controller thread at one of its portal requests. -/
structure PortalThread where
  method : Method
  /-- The stop flag of its pipeline. -/
  stop : Bool
  control : Control portalSig Wait
  receiver : Option Receiver

namespace PortalThread

/-- A thread at the top of a request. -/
def calling (method : Method) (stop : Bool) : PortalThread :=
  ⟨method, stop, .running (callAndWait method).prelude, none⟩

/-- Only `Start` is given a signal that can fire. -/
def signal (thread : PortalThread) (token : Shutdown) : AbortSignal :=
  match thread.method with
  | .start => ⟨thread.stop, token⟩
  | .createSession | .selectSources => .throwaway

/-- A step of the thread: of the request it is at, or on to the next one when
that was granted. -/
inductive Step (token : Shutdown) (thread : PortalThread) :
    Option (Label portalSig Branch Empty) → PortalThread → Prop
  | request {label : Label portalSig Branch Empty} {control' : Control portalSig Wait}
      {receiver' : Option Receiver}
      (h : SmallStep (callAndWait thread.method) (surroundings (thread.signal token))
        (thread.control, thread.receiver) label (control', receiver')) :
      Step token thread (some label)
        { thread with control := control', receiver := receiver' }
  | next {response : Response} {method : Method}
      (hGranted : thread.control = .exited (.returned (.ok response)))
      (hCode : checkCode response.code thread.method.name = .ok ())
      (hNext : thread.method.next = some method) :
      Step token thread none (calling method thread.stop)

end PortalThread

end CastApp.Screen.Portal
