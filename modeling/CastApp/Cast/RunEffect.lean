import CastApp.Cast.RunLoop
import CastApp.Cast.SessionEffect

/-!
# What one turn of the connection task can do

The relations of `SessionEffect` carried up to the loop: teardown, losing and
establishing a connection, and finally `TurnEffect`, the list of everything a
turn of `run` may do.  A turn either leaves the session to a handler
(`Acts`), after which it lives on or is lost, or it ends, replaces or opens
one.

* `run_turnEffect` — every turn of the loop is one of these.
-/

namespace CastApp.Cast.RunEffect

open CastApp.State
open CastApp.Cast.Namespaces
open CastApp.Cast.RequestId
open CastApp.Cast.RunLoop
open CastApp.Cast.Session
open CastApp.Cast.SessionEffect
open CastApp.Util.Json
open CastApp.Util.Retry
open CastApp.Verified.Coroutine
open CastApp.Verified.EventLoop

/-! ## Teardown -/

/-- The farewell: what is written depends on the application session and on
whether media was streaming. -/
inductive Goodbye (session : Session) : Ops → Outcome castSig Session → Prop
  | silent (hSession : session.sessionId = none) :
      Goodbye session [] (.value session)
  | exhausted {sessionId : String} (hSession : session.sessionId = some sessionId) :
      Goodbye session [] (.fault .requestIdsExhausted)
  | application {sessionId : String} (hSession : session.sessionId = some sessionId)
      (hPhase : session.phase ≠ .streaming) (id : UInt32) (now : Instant)
      (r : RequestId) (p : PendingMap) (result : Except IoError Unit) :
      Goodbye session
        [⟨.now, now⟩,
          ⟨.write session.transport (.toReceiver (stopApp id sessionId)), result⟩]
        (.value (renumber session r p))
  | media {sessionId : String} (hSession : session.sessionId = some sessionId)
      (hPhase : session.phase = .streaming) (id : UInt32) (now : Instant)
      (result : Except IoError Unit) :
      Goodbye session
        [⟨.now, now⟩,
          ⟨.write session.transport (.toMedia session.mediaDestination (stop id)),
            result⟩]
        (.fault .requestIdsExhausted)
  | both {sessionId : String} (hSession : session.sessionId = some sessionId)
      (hPhase : session.phase = .streaming) (id id' : UInt32) (now now' : Instant)
      (r : RequestId) (p : PendingMap) (result result' : Except IoError Unit) :
      Goodbye session
        [⟨.now, now⟩,
          ⟨.write session.transport (.toMedia session.mediaDestination (stop id)),
            result⟩,
          ⟨.now, now'⟩,
          ⟨.write session.transport (.toReceiver (stopApp id' sessionId)), result'⟩]
        (.value (renumber session r p))

/-- One best-effort request. -/
inductive Attempts (session : Session) (outgoing : UInt32 → Outgoing) :
    Ops → Outcome castSig Session → Prop
  | exhausted : Attempts session outgoing [] (.fault .requestIdsExhausted)
  | written (id : UInt32) (now : Instant) (r : RequestId) (p : PendingMap)
      (result : Except IoError Unit) :
      Attempts session outgoing
        [⟨.now, now⟩, ⟨.write session.transport (outgoing id), result⟩]
        (.value (renumber session r p))

theorem stopMedia_ensures (session : Session) :
    Ensures (stopMedia session)
      (Attempts session fun id => .toMedia session.mediaDestination (stop id)) := by
  refine ensures_nextRequest_bind .exhausted fun id now r p => ?_
  refine ensures_perform_bind.mpr fun result => ?_
  exact ensures_pure.mpr (.written id now r p result)

theorem stopApplication_ensures (session : Session) (sessionId : String) :
    Ensures (stopApplication session sessionId)
      (Attempts session fun id => .toReceiver (stopApp id sessionId)) := by
  refine ensures_nextRequest_bind .exhausted fun id now r p => ?_
  refine ensures_perform_bind.mpr fun result => ?_
  exact ensures_pure.mpr (.written id now r p result)

theorem sayGoodbye_ensures (session : Session) :
    Ensures (sayGoodbye session) (Goodbye session) := by
  unfold sayGoodbye
  split
  · next hSession => exact ensures_pure.mpr (.silent hSession)
  · next sessionId hSession =>
      by_cases hPhase : session.phase = .streaming
      · rw [if_pos hPhase]
        refine (stopMedia_ensures session).bind ?_ ?_
        · rintro _ _ (_ | ⟨id, now, r, p, result⟩)
          refine (stopApplication_ensures _ sessionId).mono ?_
          rintro _ _ (_ | ⟨id', now', r', p', result'⟩)
          · exact .media hSession hPhase id now result
          · exact .both hSession hPhase id id' now now' r' p' result result'
        · rintro _ _ (_ | _)
          exact .exhausted hSession
      · rw [if_neg hPhase]
        refine (stopApplication_ensures session sessionId).mono ?_
        rintro _ _ (_ | ⟨id, now, r, p, result⟩)
        · exact .exhausted hSession
        · exact .application hSession hPhase id now r p result

/-- The state without a session and what belongs to it. -/
def torn (state : RunState) : RunState :=
  { state with session := none, inbound := none, heartbeat := none, watchdog := none }

inductive Teardown (state : RunState) : Ops → Outcome castSig RunState → Prop
  | idle (hSession : state.session = none) : Teardown state [] (.value state)
  | faulted {session : Session} {ops : Ops} {e : Fault}
      (hSession : state.session = some session)
      (hGoodbye : Goodbye session ops (.fault e)) : Teardown state ops (.fault e)
  | ended {session session' : Session} {ops : Ops}
      (hSession : state.session = some session)
      (hGoodbye : Goodbye session ops (.value session')) :
      Teardown state
        (ops ++ [⟨.close session.transport, ()⟩,
          ⟨.emit (.disconnected session.device), ()⟩])
        (.value (torn state))

/-- Saying goodbye moves nothing but the request bookkeeping. -/
theorem Goodbye.renumbers {session session' : Session} {ops : Ops}
    (h : Goodbye session ops (.value session')) :
    ∃ r p, session' = renumber session r p := by
  cases h with
  | silent => exact ⟨session.requestId, session.pending, rfl⟩
  | application => exact ⟨_, _, rfl⟩
  | both => exact ⟨_, _, rfl⟩

theorem teardownSession_ensures (state : RunState) :
    Ensures (teardownSession state) (Teardown state) := by
  unfold teardownSession
  split
  · next hSession => exact ensures_pure.mpr (.idle hSession)
  · next session hSession =>
      refine (sayGoodbye_ensures session).bind ?_ ?_
      · intro ops session' hGoodbye
        have hEnded := Teardown.ended hSession hGoodbye
        obtain ⟨r, p, rfl⟩ := hGoodbye.renumbers
        refine ensures_perform_bind.mpr fun _ => ?_
        refine ensures_perform_bind.mpr fun _ => ?_
        exact ensures_pure.mpr hEnded
      · intro ops e hGoodbye
        exact .faulted hSession hGoodbye

/-! ## Losing and making a connection -/

theorem sleep_ensures (duration : Duration) :
    Ensures (sleep duration) fun ops o =>
      ∃ now : Instant, ops = [⟨.now, now⟩] ∧ o = .value ⟨now + duration⟩ :=
  ensures_perform_bind.mpr fun now => ensures_pure.mpr ⟨now, rfl, rfl⟩

theorem ensures_sleep_bind {α : Type} {duration : Duration} {f : Sleep → Cast α}
    {Q : Ops → Outcome castSig α → Prop}
    (h : ∀ now : Instant, Ensures (f ⟨now + duration⟩) fun ops o =>
      Q (⟨.now, now⟩ :: ops) o) :
    Ensures (sleep duration >>= f) Q := by
  refine (sleep_ensures duration).bind ?_ ?_
  · rintro _ _ ⟨now, rfl, hValue⟩
    cases hValue
    exact h now
  · rintro _ _ ⟨_, _, hFault⟩
    cases hFault

variable (config : ConnectionConfig)

inductive Lost (state : RunState) : Ops → Outcome castSig RunState → Prop
  | faulted {ops : Ops} {e : Fault} (h : Teardown state ops (.fault e)) :
      Lost state ops (.fault e)
  | undesired {state' : RunState} {ops : Ops} (h : Teardown state ops (.value state'))
      (hDesired : state'.desired = none) : Lost state ops (.value state')
  | retry {state' : RunState} {ops : Ops} {device : CastDevice} {delay : Duration}
      {backoff : Backoff} (h : Teardown state ops (.value state'))
      (hDesired : state'.desired = some device)
      (hBackoff : config.backoff.next = some (delay, backoff)) (now : Instant) :
      Lost state (ops ++ [⟨.now, now⟩])
        (.value { state' with reconnect := some ⟨⟨now + delay⟩, device, backoff, 0⟩ })
  | exhausted {state' : RunState} {ops : Ops} {device : CastDevice}
      (h : Teardown state ops (.value state'))
      (hDesired : state'.desired = some device) (hBackoff : config.backoff.next = none) :
      Lost state
        (ops ++ [⟨.emit (.error (.reconnectExhausted device.name device.addr 0)), ()⟩])
        (.value { state' with desired := none })

theorem connectionLost_ensures (state : RunState) :
    Ensures (connectionLost config state) (Lost config state) := by
  refine (teardownSession_ensures state).bind ?_ fun _ _ h => .faulted h
  intro ops state' h
  split
  · next hDesired =>
      refine ensures_pure.mpr ?_
      rw [List.append_nil]
      exact .undesired h hDesired
  · next device hDesired =>
      split
      · next delay backoff hBackoff =>
          refine ensures_sleep_bind fun now => ?_
          exact ensures_pure.mpr (.retry h hDesired hBackoff now)
      · next hBackoff =>
          refine ensures_perform_bind.mpr fun _ => ?_
          exact ensures_pure.mpr (.exhausted h hDesired hBackoff)

/-- The warning a pin check gives rise to. -/
def mismatchOps (device : CastDevice) : PinCheck → Ops
  | .mismatch previous current =>
      [⟨.emit (.certificateMismatch device previous current), ()⟩]
  | _ => []

theorem reportMismatch_ensures (device : CastDevice) (pin : PinCheck) :
    Ensures (reportMismatch device pin) fun ops o =>
      ops = mismatchOps device pin ∧ o = .value () := by
  cases pin with
  | mismatch previous current =>
      intro ops o h
      obtain ⟨r, rfl, rfl⟩ := exec_perform.mp h
      exact ⟨rfl, rfl⟩
  | disabled | pinned | matched => exact ensures_pure.mpr ⟨rfl, rfl⟩

/-- The state with a fresh session to `device`. -/
def opened (state : RunState) (device : CastDevice) (transport : Transport)
    (channel : Channel) (heartbeat watchdog : Instant) : RunState :=
  { state with
    inbound := some channel
    session := some (.new device transport config.requestTimeout)
    heartbeat := some ⟨heartbeat + config.heartbeatInterval⟩
    watchdog := some ⟨watchdog + config.watchdogTimeout⟩ }

inductive Establishes (state : RunState) (device : CastDevice) :
    Ops → Outcome castSig (Except ConnectionError Unit × RunState) → Prop
  | unreachable (source : TlsError) :
      Establishes state device [⟨.connect device, .error source⟩]
        (.value (.error (.tls device.addr source), state))
  | refused (transport : Transport) (pin : PinCheck) (error : IoError) :
      Establishes state device
        (⟨.connect device, .ok (transport, pin)⟩ :: (mismatchOps device pin ++
          [⟨.write transport (.connectTo receiverId), .error error⟩]))
        (.value (.error (.tls device.addr (.io error)), state))
  | unread (transport : Transport) (pin : PinCheck) (channel : Channel)
      (source : IoError) :
      Establishes state device
        (⟨.connect device, .ok (transport, pin)⟩ :: (mismatchOps device pin ++
          [⟨.write transport (.connectTo receiverId), .ok ()⟩, ⟨.channel, channel⟩,
            ⟨.spawnReader transport channel, .error source⟩]))
        (.value (.error (.readerThread source), state))
  | opened (transport : Transport) (pin : PinCheck) (channel : Channel)
      (heartbeat watchdog : Instant) :
      Establishes state device
        (⟨.connect device, .ok (transport, pin)⟩ :: (mismatchOps device pin ++
          [⟨.write transport (.connectTo receiverId), .ok ()⟩, ⟨.channel, channel⟩,
            ⟨.spawnReader transport channel, .ok ()⟩, ⟨.now, heartbeat⟩,
            ⟨.now, watchdog⟩, ⟨.emit (.connected device), ()⟩]))
        (.value (.ok (), opened config state device transport channel heartbeat watchdog))

theorem establish_ensures (state : RunState) (device : CastDevice) :
    Ensures (establish config state device) (Establishes config state device) := by
  refine ensures_perform_bind.mpr fun answer => ?_
  match answer with
  | .error source => exact ensures_pure.mpr (.unreachable source)
  | .ok (transport, pin) =>
      refine (reportMismatch_ensures device pin).bind ?_ ?_
      · rintro _ _ ⟨rfl, -⟩
        refine ensures_perform_bind.mpr fun result => ?_
        match result with
        | .error error => exact ensures_pure.mpr (.refused transport pin error)
        | .ok () =>
            refine ensures_perform_bind.mpr fun channel => ?_
            refine ensures_perform_bind.mpr fun spawned => ?_
            match spawned with
            | .error source => exact ensures_pure.mpr (.unread transport pin channel source)
            | .ok () =>
                refine ensures_sleep_bind fun heartbeat => ?_
                refine ensures_sleep_bind fun watchdog => ?_
                refine ensures_perform_bind.mpr fun _ => ?_
                exact ensures_pure.mpr (.opened transport pin channel heartbeat watchdog)
      · rintro _ _ ⟨_, hFault⟩
        cases hFault

/-! ## Acting on a live session -/

variable (fromStr : String → Option Json)

def emitted (events : List ConnectionEvent) : Ops :=
  events.map fun event => ⟨.emit event, ()⟩

theorem emitAll_ensures (events : List ConnectionEvent) :
    Ensures (emitAll events) fun ops o => ops = emitted events ∧ o = .value () := by
  induction events with
  | nil => exact ensures_pure.mpr ⟨rfl, rfl⟩
  | cons event events ih =>
      refine ensures_perform_bind.mpr fun _ => ih.mono ?_
      rintro _ _ ⟨rfl, rfl⟩
      exact ⟨rfl, rfl⟩

/-- What acting on a routed payload awaits. -/
inductive Hears : InboundAction → Ops → Prop
  | reset (now : Instant) : Hears .pong [⟨.now, now⟩]
  | unarmed : Hears .pong []
  | events (events : List ConnectionEvent) : Hears (.events events) (emitted events)
  | ignored : Hears .ignore []

/-- What a live session does in a turn of branch `b`; an error is a
transport found lost. -/
inductive Acts (session : Session) : Branch → Ops → Outcome castSig Handled → Prop
  | command {c : Command} {ops : Ops} {o : Outcome castSig Handled}
      (hShutdown : c ≠ .shutdown) (hSelect : ∀ device, c ≠ .select device)
      (h : CommandEffect session c ops o) : Acts session (.command (some c)) ops o
  | routed {payload : List Byte} {action : InboundAction} {session' : Session} {ops : Ops}
      (hRoute : RouteEffect fromStr session payload (action, session'))
      (hHears : Hears action ops)
      (hQueue : session'.phase = .ready → session'.pendingCommand = none) :
      Acts session (.inbound (some (some payload))) ops (.value (.ok (), session'))
  | dispatched {payload : List Byte} {action : InboundAction} {session' : Session}
      {request : LoadRequest} {ops ops' : Ops} {o : Outcome castSig Handled}
      (hRoute : RouteEffect fromStr session payload (action, session'))
      (hHears : Hears action ops) (hPhase : session'.phase = .ready)
      (hQueue : session'.pendingCommand = some (.load request))
      (h : Loads { session' with pendingCommand := none } request ops' o) :
      Acts session (.inbound (some (some payload))) (ops ++ ops') o
  | pinged (result : Except IoError Unit) :
      Acts session .heartbeat [⟨.write session.transport .heartbeat, result⟩]
        (.value (result, session))

/-- The state with the session and the timers of a handled turn: a timer may
be rearmed, not set or cleared. -/
structure Rearmed (state : RunState) (session : Session) (state' : RunState) : Prop where
  session : state'.session = some session
  desired : state'.desired = state.desired
  inbound : state'.inbound = state.inbound
  reconnect : state'.reconnect = state.reconnect
  heartbeat : state'.heartbeat.isSome = state.heartbeat.isSome
  watchdog : state'.watchdog.isSome = state.watchdog.isSome

/-! ## Branches -/

/-- The branches that leave the loop after a teardown. -/
inductive Leaves : Branch → Prop
  | command : Leaves (.command (some .shutdown))
  | token : Leaves .shutdown

/-- The branches that report the connection gone. -/
inductive Gone : Branch → Prop
  | reader : Gone (.inbound (some none))
  | channel : Gone (.inbound none)
  | watchdog : Gone .watchdog

/-- What a branch does without a session. -/
inductive Idles (state : RunState) : Branch → RunState → Prop
  | command {c : Command} (hSelect : ∀ device, c ≠ .select device) :
      Idles state (.command (some c)) state
  | inbound {payload : List Byte} : Idles state (.inbound (some (some payload))) state
  | reader {b : Branch} (hReader : b = .inbound (some none) ∨ b = .inbound none) :
      Idles state b { state with inbound := none }
  | heartbeat : Idles state .heartbeat { state with heartbeat := none }
  | watchdog : Idles state .watchdog { state with watchdog := none }
  | reconnect (hReconnect : state.reconnect = none) : Idles state .reconnect state

/-- A branch that ends in a panic. -/
inductive Faults (state : RunState) : Branch → Ops → Fault → Prop
  | leaving {b : Branch} {ops : Ops} {e : Fault} (hLeaves : Leaves b)
      (h : Teardown state ops (.fault e)) : Faults state b ops e
  | selecting {device : CastDevice} {ops : Ops} {e : Fault}
      (h : Teardown state ops (.fault e)) :
      Faults state (.command (some (.select device))) ops e
  | handling {session : Session} {b : Branch} {ops : Ops} {e : Fault}
      (hSession : state.session = some session)
      (h : Acts fromStr session b ops (.fault e)) : Faults state b ops e
  | failing {session session' : Session} {state' : RunState} {b : Branch}
      {ops ops' : Ops} {error : IoError} {e : Fault}
      (hSession : state.session = some session)
      (h : Acts fromStr session b ops (.value (.error error, session')))
      (hRearmed : Rearmed state session' state') (hLost : Lost config state' ops' (.fault e)) :
      Faults state b (ops ++ ops') e
  | losing {session : Session} {b : Branch} {ops : Ops} {e : Fault}
      (hSession : state.session = some session) (hGone : Gone b)
      (h : Lost config state ops (.fault e)) : Faults state b ops e

/-- Everything a branch may do. -/
inductive BranchEffect (state : RunState) :
    Branch → Ops → Outcome castSig (Flow RunState) → Prop
  | closed : BranchEffect state (.command none) [] (.value (.exit state))
  | left {b : Branch} {ops : Ops} {state' : RunState} (hLeaves : Leaves b)
      (h : Teardown state ops (.value state')) :
      BranchEffect state b ops (.value (.exit state'))
  | faulted {b : Branch} {ops : Ops} {e : Fault}
      (h : Faults config fromStr state b ops e) : BranchEffect state b ops (.fault e)
  | idle {b : Branch} {state' : RunState} (hSession : state.session = none)
      (h : Idles state b state') : BranchEffect state b [] (.value (.park state'))
  | acted {session session' : Session} {state' : RunState} {b : Branch}
      {ops quiet : Ops} (hSession : state.session = some session)
      (h : Acts fromStr session b ops (.value (.ok (), session')))
      (hRearmed : Rearmed state session' state')
      (hQuiet : ∀ entry ∈ quiet, ∃ now : Instant, entry = ⟨.now, now⟩) :
      BranchEffect state b (ops ++ quiet) (.value (.park state'))
  | failed {session session' : Session} {state' state'' : RunState} {b : Branch}
      {ops ops' : Ops} {error : IoError} (hSession : state.session = some session)
      (h : Acts fromStr session b ops (.value (.error error, session')))
      (hRearmed : Rearmed state session' state')
      (hLost : Lost config state' ops' (.value state'')) :
      BranchEffect state b (ops ++ ops') (.value (.park state''))
  | gone {session : Session} {b : Branch} {ops : Ops} {state' : RunState}
      (hSession : state.session = some session) (hGone : Gone b)
      (hLost : Lost config state ops (.value state')) :
      BranchEffect state b ops (.value (.park state'))
  | selected {device : CastDevice} {ops ops' : Ops} {state' state'' : RunState}
      (h : Teardown state ops (.value state'))
      (hEstablishes : Establishes config
        { state' with reconnect := none, desired := some device } device ops'
        (.value (.ok (), state''))) :
      BranchEffect state (.command (some (.select device))) (ops ++ ops')
        (.value (.park state''))
  | selectFailed {device : CastDevice} {ops ops' : Ops} {state' state'' : RunState}
      {error : ConnectionError} (h : Teardown state ops (.value state'))
      (hEstablishes : Establishes config
        { state' with reconnect := none, desired := some device } device ops'
        (.value (.error error, state''))) :
      BranchEffect state (.command (some (.select device)))
        (ops ++ (ops' ++ [⟨.emit (.error error), ()⟩]))
        (.value (.park { state'' with desired := none }))
  | reconnected {attempt : Reconnect} {ops : Ops} {state' : RunState}
      (hReconnect : state.reconnect = some attempt)
      (h : Establishes config { state with reconnect := none } attempt.device ops
        (.value (.ok (), state'))) :
      BranchEffect state .reconnect ops (.value (.park state'))
  | retried {attempt : Reconnect} {ops : Ops} {state' : RunState}
      {error : ConnectionError} {delay : Duration} {backoff : Backoff}
      (hReconnect : state.reconnect = some attempt)
      (h : Establishes config { state with reconnect := none } attempt.device ops
        (.value (.error error, state')))
      (hBackoff : attempt.backoff.next = some (delay, backoff)) (now : Instant) :
      BranchEffect state .reconnect (ops ++ [⟨.now, now⟩])
        (.value (.park { state' with
          reconnect :=
            some ⟨⟨now + delay⟩, attempt.device, backoff, attempt.attempts + 1⟩ }))
  | abandoned {attempt : Reconnect} {ops : Ops} {state' : RunState}
      {error : ConnectionError} (hReconnect : state.reconnect = some attempt)
      (h : Establishes config { state with reconnect := none } attempt.device ops
        (.value (.error error, state')))
      (hBackoff : attempt.backoff.next = none) :
      BranchEffect state .reconnect
        (ops ++ [⟨.emit (.error (.reconnectExhausted attempt.device.name
          attempt.device.addr (attempt.attempts + 1))), ()⟩])
        (.value (.park { state' with desired := none }))

/-! ## Every branch is one of these -/

/-- The outcome of a branch that goes back to the `select!`. -/
def parks : Outcome castSig RunState → Outcome castSig (Flow RunState)
  | .value state => .value (.park state)
  | .fault e => .fault e

/-- `Effect` read as a postcondition of a branch that parks. -/
def Parks (state : RunState) (b : Branch) (ops : Ops) (o : Outcome castSig RunState) :
    Prop :=
  BranchEffect config fromStr state b ops (parks o)

theorem ensures_park {state : RunState} {b : Branch} {f : Cast RunState}
    (h : Ensures f (Parks config fromStr state b)) :
    Ensures (do return Flow.park (← f)) (BranchEffect config fromStr state b) := by
  refine h.bind ?_ fun _ _ hFault => hFault
  intro ops state' hValue
  refine ensures_pure.mpr ?_
  rw [List.append_nil]
  exact hValue

/-- A handler's result, settled. -/
theorem settle_ensures {state state' : RunState} {session session' : Session} {b : Branch}
    {ops : Ops} {result : Except IoError Unit} (hSession : state.session = some session)
    (h : Acts fromStr session b ops (.value (result, session')))
    (hRearmed : Rearmed state session' { state' with session := some session' }) :
    Ensures (settle config state' (result, session')) fun ops' o =>
      Parks config fromStr state b (ops ++ ops') o := by
  match result with
  | .ok () =>
      exact ensures_pure.mpr (.acted hSession h hRearmed (by simp))
  | .error error =>
      refine (connectionLost_ensures config _).mono ?_
      intro ops' o hLost
      cases o with
      | value state'' => exact .failed hSession h hRearmed hLost
      | fault e => exact .faulted (.failing hSession h hRearmed hLost)

/-- A session put back with its timers is rearmed. -/
theorem rearmed_self (state : RunState) (session : Session) :
    Rearmed state session { state with session := some session } :=
  ⟨rfl, rfl, rfl, rfl, rfl, rfl⟩

theorem sessionCommand_ensures (state : RunState) (c : Command)
    (hShutdown : c ≠ .shutdown) (hSelect : ∀ device, c ≠ .select device) :
    Ensures (sessionCommand config state c)
      (Parks config fromStr state (.command (some c))) := by
  unfold sessionCommand
  split
  · next hSession => exact ensures_pure.mpr (.idle hSession (.command hSelect))
  · next session hSession =>
      refine (handleCommand_ensures session c).bind ?_ ?_
      · rintro ops ⟨result, session'⟩ hEffect
        exact settle_ensures config fromStr hSession
          (.command hShutdown hSelect hEffect) (rearmed_self state session')
      · intro ops e hEffect
        exact .faulted (.handling hSession (.command hShutdown hSelect hEffect))

/-- Acting on a routed payload rearms at most the watchdog. -/
theorem obey_ensures (state : RunState) (action : InboundAction) :
    Ensures (obey config state action) fun ops o =>
      Hears action ops ∧ ∃ state', o = .value state' ∧
        ∀ session, Rearmed state session { state' with session := some session } := by
  unfold obey
  split
  · split
    · next sleep hWatchdog =>
        refine ensures_sleep_bind fun now => ?_
        refine ensures_pure.mpr ⟨.reset now, _, rfl, fun session => ?_⟩
        exact ⟨rfl, rfl, rfl, rfl, rfl, by rw [hWatchdog]; rfl⟩
    · exact ensures_pure.mpr ⟨.unarmed, _, rfl, rearmed_self state⟩
  · next events =>
      refine (emitAll_ensures events).bind ?_ ?_
      · rintro _ _ ⟨rfl, -⟩
        refine ensures_pure.mpr ⟨?_, _, rfl, rearmed_self state⟩
        rw [List.append_nil]
        exact .events events
      · rintro _ _ ⟨_, hFault⟩
        cases hFault
  · exact ensures_pure.mpr ⟨.ignored, _, rfl, rearmed_self state⟩

theorem inboundPayload_ensures (state : RunState) (payload : List Byte) :
    Ensures (inboundPayload config fromStr state payload)
      (Parks config fromStr state (.inbound (some (some payload)))) := by
  unfold inboundPayload
  split
  · next hSession => exact ensures_pure.mpr (.idle hSession .inbound)
  · next session hSession =>
      have hRoute := routeInbound_effect fromStr session payload
      generalize session.routeInbound fromStr payload = routed at hRoute ⊢
      obtain ⟨action, session'⟩ := routed
      refine (obey_ensures config state action).bind ?_ ?_
      · rintro ops _ ⟨hHears, state', hValue, hRearmed⟩
        cases hValue
        unfold dispatchQueued
        split
        · next hPhase =>
            split
            · next pending hQueue =>
                obtain ⟨request⟩ := pending
                refine (dispatchPending_ensures _ request).bind ?_ ?_
                · rintro ops' ⟨result, session''⟩ hLoads
                  refine (settle_ensures config fromStr hSession
                    (.dispatched hRoute hHears hPhase hQueue hLoads)
                    (hRearmed session'')).mono ?_
                  intro ops'' o h
                  rwa [List.append_assoc] at h
                · intro ops' e hLoads
                  exact .faulted (.handling hSession
                    (.dispatched hRoute hHears hPhase hQueue hLoads))
            · next hQueue =>
                exact ensures_pure.mpr (.acted hSession
                  (.routed hRoute hHears fun _ => hQueue) (hRearmed session') (by simp))
        · next hPhase =>
            exact ensures_pure.mpr (.acted hSession
              (.routed hRoute hHears fun h => absurd h hPhase) (hRearmed session')
              (by simp))
      · rintro _ _ ⟨_, _, hFault, _⟩
        cases hFault

/-- Losing the connection of a live session. -/
theorem connectionLost_parks {state : RunState} {session : Session} {b : Branch}
    (hSession : state.session = some session) (hGone : Gone b) :
    Ensures (connectionLost config state) (Parks config fromStr state b) := by
  refine (connectionLost_ensures config state).mono ?_
  intro ops o hLost
  cases o with
  | value state' => exact .gone hSession hGone hLost
  | fault e => exact .faulted (.losing hSession hGone hLost)

theorem readerExited_ensures (state : RunState) {b : Branch}
    (hReader : b = .inbound (some none) ∨ b = .inbound none) :
    Ensures (readerExited config state) (Parks config fromStr state b) := by
  have hGone : Gone b := by
    rcases hReader with rfl | rfl
    · exact .reader
    · exact .channel
  unfold readerExited
  split
  · next hSome =>
      obtain ⟨session, hSession⟩ := Option.isSome_iff_exists.mp hSome
      exact connectionLost_parks config fromStr hSession hGone
  · next hNone =>
      have hSession : state.session = none := by simpa using hNone
      exact ensures_pure.mpr (.idle hSession (.reader hReader))

theorem heartbeatFired_ensures (state : RunState) (hHeartbeat : state.heartbeat.isSome) :
    Ensures (heartbeatFired config state) (Parks config fromStr state .heartbeat) := by
  unfold heartbeatFired
  split
  · next hSession => exact ensures_pure.mpr (.idle hSession .heartbeat)
  · next session hSession =>
      refine ensures_perform_bind.mpr fun result => ?_
      have hSelf : state = { state with session := some session } := by rw [← hSession]
      match result with
      | .error error =>
          refine (connectionLost_ensures config state).mono ?_
          intro ops o hLost
          rw [hSelf] at hLost
          cases o with
          | value state' =>
              exact .failed hSession (.pinged (.error error)) (rearmed_self state session) hLost
          | fault e =>
              exact .faulted (.failing hSession (.pinged (.error error))
                (rearmed_self state session) hLost)
      | .ok () =>
          refine ensures_sleep_bind fun now => ensures_pure.mpr ?_
          refine .acted hSession (.pinged (.ok ())) ⟨hSession, rfl, rfl, rfl, ?_, rfl⟩ ?_
          · exact hHeartbeat.symm
          · intro entry hEntry
            exact ⟨now, List.mem_singleton.mp hEntry⟩

theorem watchdogFired_ensures (state : RunState) :
    Ensures (watchdogFired config state) (Parks config fromStr state .watchdog) := by
  unfold watchdogFired
  split
  · next hSome =>
      obtain ⟨session, hSession⟩ := Option.isSome_iff_exists.mp hSome
      exact connectionLost_parks config fromStr hSession .watchdog
  · next hNone =>
      have hSession : state.session = none := by simpa using hNone
      exact ensures_pure.mpr (.idle hSession .watchdog)

theorem selectDevice_ensures (state : RunState) (device : CastDevice) :
    Ensures (selectDevice config state device)
      (Parks config fromStr state (.command (some (.select device)))) := by
  refine (teardownSession_ensures state).bind ?_ fun _ _ h => .faulted (.selecting h)
  intro ops state' hTeardown
  refine (establish_ensures config _ device).bind ?_ ?_
  · rintro ops' ⟨result, state''⟩ hEstablishes
    match result with
    | .ok () =>
        refine ensures_pure.mpr ?_
        rw [List.append_nil]
        exact .selected hTeardown hEstablishes
    | .error error =>
        refine ensures_perform_bind.mpr fun _ => ensures_pure.mpr ?_
        exact .selectFailed hTeardown hEstablishes
  · intro ops' e hEstablishes
    cases hEstablishes

theorem reconnectFired_ensures (state : RunState) (hReconnect : state.reconnect.isSome) :
    Ensures (reconnectFired config state) (Parks config fromStr state .reconnect) := by
  unfold reconnectFired
  split
  · next hNone => rw [hNone] at hReconnect; cases hReconnect
  · next attempt hSome =>
      refine (establish_ensures config _ attempt.device).bind ?_ ?_
      · rintro ops ⟨result, state'⟩ hEstablishes
        match result with
        | .ok () =>
            refine ensures_pure.mpr ?_
            rw [List.append_nil]
            exact .reconnected hSome hEstablishes
        | .error error =>
            dsimp only
            split
            · next delay backoff hBackoff =>
                refine ensures_sleep_bind fun now => ensures_pure.mpr ?_
                exact .retried hSome hEstablishes hBackoff now
            · next hBackoff =>
                refine ensures_perform_bind.mpr fun _ => ensures_pure.mpr ?_
                exact .abandoned hSome hEstablishes hBackoff
      · intro ops e hEstablishes
        cases hEstablishes

theorem leave_ensures (state : RunState) {b : Branch} (hLeaves : Leaves b) :
    Ensures (do return Flow.exit (← teardownSession state))
      (BranchEffect config fromStr state b) := by
  refine (teardownSession_ensures state).bind ?_ fun _ _ h => .faulted (.leaving hLeaves h)
  intro ops state' h
  refine ensures_pure.mpr ?_
  rw [List.append_nil]
  exact .left hLeaves h

theorem branchBody_ensures (state : RunState) (b : Branch) (hGuard : branchGuard state b) :
    Ensures (branchBody config fromStr state b) (BranchEffect config fromStr state b) := by
  match b with
  | .command none => exact ensures_pure.mpr .closed
  | .command (some .shutdown) => exact leave_ensures config fromStr state .command
  | .command (some (.select device)) =>
      exact ensures_park config fromStr (selectDevice_ensures config fromStr state device)
  | .command (some .launchDefaultReceiver)
  | .command (some (.load _))
  | .command (some .play)
  | .command (some .pause)
  | .command (some .stop)
  | .command (some (.setVolume _ _))
  | .command (some .getStatus) =>
      exact ensures_park config fromStr
        (sessionCommand_ensures config fromStr state _ nofun nofun)
  | .inbound (some (some payload)) =>
      exact ensures_park config fromStr (inboundPayload_ensures config fromStr state payload)
  | .inbound (some none) =>
      exact ensures_park config fromStr (readerExited_ensures config fromStr state (.inl rfl))
  | .inbound none =>
      exact ensures_park config fromStr (readerExited_ensures config fromStr state (.inr rfl))
  | .heartbeat =>
      exact ensures_park config fromStr (heartbeatFired_ensures config fromStr state hGuard)
  | .watchdog => exact ensures_park config fromStr (watchdogFired_ensures config fromStr state)
  | .reconnect =>
      exact ensures_park config fromStr (reconnectFired_ensures config fromStr state hGuard)
  | .shutdown => exact leave_ensures config fromStr state .token

/-! ## Turns -/

/-- The end of a pass: overdue requests of a live session are dropped. -/
inductive Reaped (state : RunState) : Ops → RunState → Prop
  | idle (hSession : state.session = none) : Reaped state [] state
  | live {session : Session} (hSession : state.session = some session) (now : Instant)
      (p : PendingMap) :
      Reaped state [⟨.now, now⟩]
        { state with session := some (renumber session session.requestId p) }

/-- Everything a turn may do. -/
inductive TurnEffect (state : RunState) (b : Branch) :
    Ops → Stage castSig RunState → Prop
  | parked {ops ops' : Ops} {state' state'' : RunState}
      (h : BranchEffect config fromStr state b ops (.value (.park state')))
      (hReaped : Reaped state' ops' state'') :
      TurnEffect state b (ops ++ ops') (.parked state'')
  | exited {ops : Ops} {state' : RunState}
      (h : BranchEffect config fromStr state b ops (.value (.exit state'))) :
      TurnEffect state b ops (.exited state')
  | faulted {ops : Ops} {e : Fault}
      (h : BranchEffect config fromStr state b ops (.fault e)) :
      TurnEffect state b ops (.faulted e)

theorem reap_ensures (state : RunState) :
    Ensures (reap state) fun ops o => ∃ state', o = .value state' ∧ Reaped state ops state' := by
  unfold reap
  split
  · next hSession => exact ensures_pure.mpr ⟨_, rfl, .idle hSession⟩
  · next session hSession =>
      exact ensures_perform_bind.mpr fun now =>
        ensures_pure.mpr ⟨_, rfl, .live hSession now _⟩

/-- **A turn of the connection task does one of the things `TurnEffect`
lists.** -/
theorem run_turnEffect {state : RunState} {turn : Turn castSig Branch}
    {c : Stage castSig RunState}
    (h : (run config fromStr).TakesTurn state turn c) :
    TurnEffect config fromStr state turn.branch turn.ops c := by
  obtain ⟨hGuard, o, hExec, rfl⟩ := h
  have hBody : Ensures (runBody config fromStr state turn.branch) fun ops o =>
      TurnEffect config fromStr state turn.branch ops (stageOf o) := by
    refine (branchBody_ensures config fromStr state turn.branch hGuard).bind ?_ ?_
    · intro ops flow hBranch
      match flow with
      | .park state' =>
          refine (reap_ensures state').bind ?_ ?_
          · rintro ops' state'' ⟨_, hValue, hReaped⟩
            cases hValue
            refine ensures_pure.mpr ?_
            rw [List.append_nil]
            exact .parked hBranch hReaped
          · rintro _ _ ⟨_, hFault, _⟩
            cases hFault
      | .exit state' =>
          refine ensures_pure.mpr ?_
          rw [List.append_nil]
          exact .exited hBranch
    · intro ops e hBranch
      exact .faulted hBranch
  exact hBody turn.ops o hExec

/-- The loop starts in the empty state. -/
theorem run_init {c : Stage castSig RunState} (h : (run config fromStr).turns.init c) :
    c = .parked .new := by
  obtain ⟨ops, o, hExec, rfl⟩ := h
  obtain ⟨r, ops', rfl, hPark⟩ := exec_perform_bind.mp hExec
  obtain ⟨rfl, rfl⟩ := exec_pure.mp hPark
  rfl

theorem run_start : (run config fromStr).turns.init (.parked .new) :=
  ⟨[⟨.subscribe, ()⟩], _, ⟨(), [], rfl, rfl, rfl⟩, rfl⟩

end CastApp.Cast.RunEffect
