import CastApp.Cast.Session
import CastApp.Verified.EventLoop

/-!
# The connection task

The run loop around at most one session: connecting, tearing down, the
heartbeat and its watchdog, and reconnecting with a growing delay.  The loop
is an `EventLoop`: its body is one pass from the `select!` through the chosen
branch to the reaping of overdue requests.
-/

namespace CastApp.Cast.RunLoop

open CastApp.State
open CastApp.Cast.Namespaces
open CastApp.Cast.Session
open CastApp.Util.Json
open CastApp.Util.Retry
open CastApp.Verified.Coroutine
open CastApp.Verified.EventLoop

/-! ## Configuration and state -/

structure ConnectionConfig where
  heartbeatInterval : Duration
  watchdogTimeout : Duration
  requestTimeout : Duration
  backoff : Backoff

def ConnectionConfig.default : ConnectionConfig where
  heartbeatInterval := Duration.fromSecs 5
  watchdogTimeout := Duration.fromSecs 10
  requestTimeout := Duration.fromSecs 5
  backoff := .new

/-- A timer, by its deadline. -/
structure Sleep where
  deadline : Instant
  deriving DecidableEq, Repr

structure Reconnect where
  delay : Sleep
  device : CastDevice
  backoff : Backoff
  /-- Failed attempts so far. -/
  attempts : Nat
  deriving DecidableEq

structure RunState where
  session : Option Session
  desired : Option CastDevice
  /-- The channel whose receiving end the loop holds. -/
  inbound : Option Channel
  heartbeat : Option Sleep
  watchdog : Option Sleep
  reconnect : Option Reconnect
  deriving DecidableEq

def RunState.new : RunState := ⟨none, none, none, none, none, none⟩

/-- `tokio::time::sleep`. -/
def sleep (duration : Duration) : Cast Sleep := do
  let now ← ask .now
  return ⟨now + duration⟩

/-! ## Teardown -/

/-- Best-effort media `STOP`. -/
def stopMedia (session : Session) : Cast Session := do
  let (id, session) ← session.nextRequest
  let _ ← sendPayload session.transport (.toMedia session.mediaDestination (stop id))
  return session

/-- Best-effort `STOP_APP`. -/
def stopApplication (session : Session) (sessionId : String) : Cast Session := do
  let (id, session) ← session.nextRequest
  let _ ← sendPayload session.transport (.toReceiver (stopApp id sessionId))
  return session

/-- The farewell of a session: media `STOP` while streaming, then
`STOP_APP`, both only once an application session is known. -/
def sayGoodbye (session : Session) : Cast Session :=
  match session.sessionId with
  | none => return session
  | some sessionId => do
      let session ←
        if session.phase = .streaming then stopMedia session else pure session
      stopApplication session sessionId

def teardownSession (state : RunState) : Cast RunState :=
  match state.session with
  | none => return state
  | some session => do
      let session ← sayGoodbye session
      ask (.close session.transport)
      ask (.emit (.disconnected session.device))
      return { state with
        session := none
        inbound := none
        heartbeat := none
        watchdog := none }

/-! ## Losing and making a connection -/

variable (config : ConnectionConfig)

/-- Tear down, then schedule the first reconnect attempt to the desired
device, if the policy allows one. -/
def connectionLost (state : RunState) : Cast RunState := do
  let state ← teardownSession state
  match state.desired with
  | none => return state
  | some device =>
      match config.backoff.next with
      | some (delay, backoff) =>
          let delay ← sleep delay
          return { state with reconnect := some ⟨delay, device, backoff, 0⟩ }
      | none =>
          ask (.emit (.error (.reconnectExhausted device.name device.addr 0)))
          return { state with desired := none }

/-- A pin mismatch is reported and does not block the connection. -/
def reportMismatch (device : CastDevice) : PinCheck → Cast Unit
  | .mismatch previous current =>
      ask (.emit (.certificateMismatch device previous current))
  | _ => return ()

/-- Connect, send `CONNECT`, start the reader and the timers. -/
def establish (state : RunState) (device : CastDevice) :
    Cast (Except ConnectionError Unit × RunState) := do
  match ← ask (.connect device) with
  | .error source => return (.error (.tls device.addr source), state)
  | .ok (transport, pinCheck) =>
      reportMismatch device pinCheck
      -- A failed write leaves no reader behind: none is running yet.
      match ← sendPayload transport (.connectTo receiverId) with
      | .error error => return (.error (.tls device.addr (.io error)), state)
      | .ok () =>
          let channel ← ask .channel
          match ← ask (.spawnReader transport channel) with
          | .error source => return (.error (.readerThread source), state)
          | .ok () =>
              let heartbeat ← sleep config.heartbeatInterval
              let watchdog ← sleep config.watchdogTimeout
              ask (.emit (.connected device))
              return (.ok (), { state with
                inbound := some channel
                session := some (.new device transport config.requestTimeout)
                heartbeat := some heartbeat
                watchdog := some watchdog })

/-! ## Branches -/

/-- What a `select!` may pick, with the value the branch received. -/
inductive Branch : Type
  | command (command : Option Command)
  | inbound (frame : Option (Option (List Byte)))
  | heartbeat
  | watchdog
  | reconnect
  | shutdown

/-- The `if` conditions that read the loop state. -/
def branchGuard (state : RunState) : Branch → Prop
  | .command _ => True
  | .inbound _ => state.inbound.isSome
  | .heartbeat => state.heartbeat.isSome
  | .watchdog => state.watchdog.isSome
  | .reconnect => state.reconnect.isSome
  | .shutdown => True

instance (state : RunState) : DecidablePred (branchGuard state) := by
  intro b
  cases b <;> unfold branchGuard <;> infer_instance

/-- `Command::Select`. -/
def selectDevice (state : RunState) (device : CastDevice) : Cast RunState := do
  let state ← teardownSession state
  let state := { state with reconnect := none, desired := some device }
  match ← establish config state device with
  | (.ok (), state) => return state
  | (.error error, state) =>
      ask (.emit (.error error))
      return { state with desired := none }

/-- After a handler: keep its session, and on an error treat the connection
as lost. -/
def settle (state : RunState) : Handled → Cast RunState
  | (.ok (), session) => return { state with session := some session }
  | (.error _, session) =>
      connectionLost config { state with session := some session }

/-- Every other command, given to the session if there is one. -/
def sessionCommand (state : RunState) (command : Command) : Cast RunState :=
  match state.session with
  | none => return state
  | some session => do
      let handled ← handleCommand session command
      settle config state handled

/-- Emit events in order. -/
def emitAll : List ConnectionEvent → Cast Unit
  | [] => return ()
  | event :: events => do
      ask (.emit event)
      emitAll events

/-- Act on a routed payload. -/
def obey (state : RunState) : InboundAction → Cast RunState
  | .pong =>
      match state.watchdog with
      | some _ => do
          let watchdog ← sleep config.watchdogTimeout
          return { state with watchdog := some watchdog }
      | none => return state
  | .events events => do
      emitAll events
      return state
  | .ignore => return state

/-- Once ready, send what was queued. -/
def dispatchQueued (state : RunState) (session : Session) : Cast RunState :=
  if session.phase = .ready then
    match session.pendingCommand with
    | some pending => do
        let handled ← dispatchPending { session with pendingCommand := none } pending
        settle config state handled
    | none => return { state with session := some session }
  else
    return { state with session := some session }

variable (fromStr : String → Option Json)

/-- A frame of the current reader. -/
def inboundPayload (state : RunState) (payload : List Byte) : Cast RunState :=
  match state.session with
  | none => return state
  | some session => do
      let (action, session) := session.routeInbound fromStr payload
      let state ← obey config state action
      dispatchQueued config state session

/-- The reader is gone. -/
def readerExited (state : RunState) : Cast RunState :=
  if state.session.isSome then
    connectionLost config state
  else
    return { state with inbound := none }

def heartbeatFired (state : RunState) : Cast RunState :=
  match state.session with
  | none => return { state with heartbeat := none }
  | some session => do
      match ← sendPayload session.transport .heartbeat with
      | .error _ => connectionLost config state
      | .ok () =>
          let heartbeat ← sleep config.heartbeatInterval
          return { state with heartbeat := some heartbeat }

def watchdogFired (state : RunState) : Cast RunState :=
  if state.session.isSome then
    connectionLost config state
  else
    return { state with watchdog := none }

def reconnectFired (state : RunState) : Cast RunState :=
  match state.reconnect with
  | none => return state
  | some attempt => do
      match ← establish config { state with reconnect := none } attempt.device with
      | (.ok (), state) => return state
      | (.error _, state) =>
          match attempt.backoff.next with
          | some (delay, backoff) =>
              let delay ← sleep delay
              return { state with
                reconnect := some ⟨delay, attempt.device, backoff, attempt.attempts + 1⟩ }
          | none =>
              ask (.emit (.error (.reconnectExhausted attempt.device.name
                attempt.device.addr (attempt.attempts + 1))))
              return { state with desired := none }

/-! ## The loop -/

/-- Reap requests that exceeded their response timeout. -/
def reap (state : RunState) : Cast RunState :=
  match state.session with
  | none => return state
  | some session => do
      let now ← ask .now
      return { state with
        session := some { session with pending := (session.pending.expire now).2 } }

/-- What each branch does. -/
def branchBody (state : RunState) : Branch → Cast (Flow RunState)
  | .command none => return .exit state
  | .command (some .shutdown) => do return .exit (← teardownSession state)
  | .command (some (.select device)) => do return .park (← selectDevice config state device)
  | .command (some command) => do return .park (← sessionCommand config state command)
  | .inbound (some (some payload)) => do
      return .park (← inboundPayload config fromStr state payload)
  | .inbound _ => do return .park (← readerExited config state)
  | .heartbeat => do return .park (← heartbeatFired config state)
  | .watchdog => do return .park (← watchdogFired config state)
  | .reconnect => do return .park (← reconnectFired config state)
  | .shutdown => do return .exit (← teardownSession state)

/-- One pass of the loop; `break` skips the reaping. -/
def runBody (state : RunState) (branch : Branch) : Cast (Flow RunState) := do
  match ← branchBody config fromStr state branch with
  | .park state => return .park (← reap state)
  | .exit state => return .exit state

/-- The connection task. -/
def run : EventLoop castSig RunState Branch where
  prelude := do
    ask .subscribe
    return .park .new
  guard := branchGuard
  body := runBody config fromStr

instance (state : RunState) : DecidablePred ((run config fromStr).guard state) :=
  inferInstanceAs (DecidablePred (branchGuard state))

/-! ## A receiver to talk to -/

def livingRoom : CastDevice where
  id := "192.168.1.5:8009"
  name := "Living Room"
  addr := ⟨.v4 0xC0A80105, 8009⟩
  tofuKey := "living-room"

def movie : LoadRequest := ⟨"http://192.168.1.2:8010/stream", "video/mp4", .buffered⟩

/-- Everything succeeds at the instant `now`. -/
def obliging (now : Instant) : Oracle castSig := fun op =>
  match op with
  | .subscribe => ()
  | .connect _ => .ok (⟨0⟩, .disabled)
  | .write _ _ => .ok ()
  | .close _ => ()
  | .channel => ⟨0⟩
  | .spawnReader _ _ => .ok ()
  | .now => now
  | .emit _ => ()

/-- Nothing can be written at the instant `now`; the rest succeeds. -/
def refusing (now : Instant) : Oracle castSig := fun op =>
  match op with
  | .write _ _ => .error (.otherError "broken pipe")
  | op => obliging now op

end CastApp.Cast.RunLoop
