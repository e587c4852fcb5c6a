import CastApp.Cast.Session

/-!
# What a session handler can do

One inductive relation per handler lists everything it may do: the
operations it awaits and how it ends.  Every later fact about sessions is a
case analysis of these relations; no proof outside this file opens a handler.

* `handleCommand_ensures` — a command is ignored, asks the platform receiver,
  plays on the media channel, loads, or is not a session command at all.
* `routeInbound_effect` — a payload is a `RECEIVER_STATUS` that is applied,
  or changes nothing but the pending requests.
-/

namespace CastApp.Cast.SessionEffect

open CastApp.State
open CastApp.Cast.Namespaces
open CastApp.Cast.Proto
open CastApp.Cast.RequestId
open CastApp.Cast.Session
open CastApp.Util.Json
open CastApp.Verified.Coroutine

/-- Operations of the connection task and their answers. -/
abbrev Ops : Type := List (Entry castSig)

/-- The session with its request bookkeeping replaced. -/
def renumber (session : Session) (r : RequestId) (p : PendingMap) : Session :=
  { session with requestId := r, pending := p }

section Renumber

variable (session : Session) (r : RequestId) (p : PendingMap)

@[simp] theorem renumber_phase : (renumber session r p).phase = session.phase := rfl

@[simp] theorem renumber_device : (renumber session r p).device = session.device := rfl

@[simp] theorem renumber_transport :
    (renumber session r p).transport = session.transport := rfl

@[simp] theorem renumber_transportId :
    (renumber session r p).transportId = session.transportId := rfl

@[simp] theorem renumber_sessionId :
    (renumber session r p).sessionId = session.sessionId := rfl

@[simp] theorem renumber_pendingCommand :
    (renumber session r p).pendingCommand = session.pendingCommand := rfl

end Renumber

/-! ## Sending -/

inductive NextRequest (session : Session) :
    Ops → Outcome castSig (UInt32 × Session) → Prop
  | exhausted : NextRequest session [] (.fault .requestIdsExhausted)
  | fresh (id : UInt32) (now : Instant) (r : RequestId) (p : PendingMap) :
      NextRequest session [⟨.now, now⟩] (.value (id, renumber session r p))

theorem nextRequest_ensures (session : Session) :
    Ensures session.nextRequest (NextRequest session) := by
  unfold Session.nextRequest
  split
  · exact ensures_fault.mpr .exhausted
  · refine ensures_perform_bind.mpr fun now => ?_
    exact ensures_pure.mpr (.fresh _ now _ _)

/-- The rule for what begins with a fresh id. -/
theorem ensures_nextRequest_bind {α : Type} {session : Session}
    {f : UInt32 × Session → Cast α} {Q : Ops → Outcome castSig α → Prop}
    (hExhausted : Q [] (.fault .requestIdsExhausted))
    (hFresh : ∀ id now r p, Ensures (f (id, renumber session r p)) fun ops o =>
      Q (⟨.now, now⟩ :: ops) o) :
    Ensures (session.nextRequest >>= f) Q := by
  refine (nextRequest_ensures session).bind ?_ ?_
  · intro ops answer h
    cases h with
    | fresh id now r p => exact hFresh id now r p
  · intro ops e h
    cases h with
    | exhausted => exact hExhausted

/-- A request: a fresh id, then one write; `outgoing` is the message under
that id. -/
inductive Requests (session : Session) (outgoing : UInt32 → Outgoing) (phase : Phase) :
    Ops → Outcome castSig Handled → Prop
  | exhausted : Requests session outgoing phase [] (.fault .requestIdsExhausted)
  | written (id : UInt32) (now : Instant) (r : RequestId) (p : PendingMap)
      (result : Except IoError Unit) :
      Requests session outgoing phase
        [⟨.now, now⟩, ⟨.write session.transport (outgoing id), result⟩]
        (.value (result, { renumber session r p with phase := phase }))

theorem sendReceiver_ensures (session : Session) (message : UInt32 → Json)
    (phase : Phase) :
    Ensures (sendReceiver session message phase)
      (Requests session (fun id => .toReceiver (message id)) phase) := by
  refine ensures_nextRequest_bind .exhausted fun id now r p => ?_
  refine ensures_perform_bind.mpr fun result => ?_
  exact ensures_pure.mpr (.written id now r p result)

theorem sendMedia_ensures (session : Session) (message : UInt32 → Json)
    (phase : Phase) :
    Ensures (sendMedia session message phase)
      (Requests session (fun id => .toMedia session.mediaDestination (message id))
        phase) := by
  refine ensures_nextRequest_bind .exhausted fun id now r p => ?_
  refine ensures_perform_bind.mpr fun result => ?_
  exact ensures_pure.mpr (.written id now r p result)

/-- `CONNECT`, then `LOAD`. -/
inductive Loads (session : Session) (request : LoadRequest) :
    Ops → Outcome castSig Handled → Prop
  | refused (error : IoError) :
      Loads session request
        [⟨.write session.transport (.connectTo session.mediaDestination), .error error⟩]
        (.value (.error error, session))
  | exhausted :
      Loads session request
        [⟨.write session.transport (.connectTo session.mediaDestination), .ok ()⟩]
        (.fault .requestIdsExhausted)
  | unlaunched (now : Instant) (hSession : session.sessionId = none) :
      Loads session request
        [⟨.write session.transport (.connectTo session.mediaDestination), .ok ()⟩,
          ⟨.now, now⟩]
        (.fault .appSessionExpected)
  | written (id : UInt32) (now : Instant) (r : RequestId) (p : PendingMap)
      (sessionId : String) (hSession : session.sessionId = some sessionId)
      (result : Except IoError Unit) :
      Loads session request
        [⟨.write session.transport (.connectTo session.mediaDestination), .ok ()⟩,
          ⟨.now, now⟩,
          ⟨.write session.transport
            (.toMedia session.mediaDestination (loadMessage id sessionId request)),
            result⟩]
        (.value (result, { renumber session r p with phase := .streaming }))

theorem sendLoad_ensures (session : Session) (request : LoadRequest) :
    Ensures (sendLoad session request) (Loads session request) := by
  refine ensures_perform_bind.mpr fun result => ?_
  match result with
  | .error error => exact ensures_pure.mpr (.refused error)
  | .ok () =>
      refine ensures_nextRequest_bind .exhausted fun id now r p => ?_
      dsimp only
      split
      · next hNone =>
          have hSession : session.sessionId = none := hNone
          exact ensures_fault.mpr (.unlaunched now hSession)
      · next sessionId hSome =>
          have hSession : session.sessionId = some sessionId := hSome
          refine ensures_perform_bind.mpr fun result => ?_
          exact ensures_pure.mpr (.written id now r p sessionId hSession result)

/-! ## Commands -/

/-- `c` is dropped in `phase`. -/
inductive Ignores (phase : Phase) : Command → Prop
  | launch (hPhase : phase ≠ .connected) : Ignores phase .launchDefaultReceiver
  | load {request : LoadRequest} (hPhase : phase ≠ .connected)
      (hReady : phase ≠ .ready) (hStreaming : phase ≠ .streaming) :
      Ignores phase (.load request)
  | play (hReady : phase ≠ .ready) (hStreaming : phase ≠ .streaming) :
      Ignores phase .play
  | pause (hReady : phase ≠ .ready) (hStreaming : phase ≠ .streaming) :
      Ignores phase .pause
  | stop (hReady : phase ≠ .ready) (hStreaming : phase ≠ .streaming) :
      Ignores phase .stop

/-- `c` asks the platform receiver for `message`, leaving the session in
`phase` with `queued` pending. -/
inductive Asks (session : Session) :
    Command → (UInt32 → Json) → Phase → Option PendingCommand → Prop
  | launch (hPhase : session.phase = .connected) :
      Asks session .launchDefaultReceiver Namespaces.launch .launching
        session.pendingCommand
  | load {request : LoadRequest} (hPhase : session.phase = .connected) :
      Asks session (.load request) Namespaces.launch .launching
        (some (.load request))
  | setVolume {level : Float32} {muted : Bool} :
      Asks session (.setVolume level muted)
        (Namespaces.setVolume · level muted) session.phase session.pendingCommand
  | getStatus :
      Asks session .getStatus Namespaces.getStatus session.phase
        session.pendingCommand

/-- `c` sends `message` on the media channel, from `phase` into the last
phase. -/
inductive Plays (phase : Phase) : Command → (UInt32 → Json) → Phase → Prop
  | play : Plays phase .play Namespaces.play phase
  | pause : Plays phase .pause Namespaces.pause phase
  | stop : Plays phase .stop Namespaces.stop .ready

/-- Everything `handle_command` may do. -/
inductive CommandEffect (session : Session) (c : Command) (ops : Ops)
    (o : Outcome castSig Handled) : Prop
  | ignored (h : Ignores session.phase c) (hOps : ops = [])
      (hOutcome : o = .value (.ok (), session))
  | asked {message : UInt32 → Json} {phase : Phase}
      {queued : Option PendingCommand} (h : Asks session c message phase queued)
      (hEffect : Requests { session with pendingCommand := queued }
        (fun id => .toReceiver (message id)) phase ops o)
  | played {message : UInt32 → Json} {phase : Phase}
      (hPhase : session.phase = .ready ∨ session.phase = .streaming)
      (h : Plays session.phase c message phase)
      (hEffect : Requests session
        (fun id => .toMedia session.mediaDestination (message id)) phase ops o)
  | loaded {request : LoadRequest} (h : c = .load request)
      (hPhase : session.phase = .ready ∨ session.phase = .streaming)
      (hEffect : Loads session request ops o)
  | unreachable (h : c = .shutdown ∨ ∃ device, c = .select device) (hOps : ops = [])
      (hOutcome : o = .fault .commandUnreachable)

private theorem transportCommand_ensures {session : Session} {c : Command}
    {message : UInt32 → Json} {phase : Phase}
    (hIgnored : session.phase ≠ .ready → session.phase ≠ .streaming →
      Ignores session.phase c)
    (hPlays : Plays session.phase c message phase) :
    Ensures (handleCommand.transportCommand session message phase)
      (CommandEffect session c) := by
  unfold handleCommand.transportCommand
  split
  · next hPhase => exact ensures_pure.mpr (.ignored (hIgnored hPhase.1 hPhase.2) rfl rfl)
  · next hPhase =>
      have hLive : session.phase = .ready ∨ session.phase = .streaming := by
        by_cases hReady : session.phase = .ready
        · exact .inl hReady
        · by_cases hStreaming : session.phase = .streaming
          · exact .inr hStreaming
          · exact absurd ⟨hReady, hStreaming⟩ hPhase
      exact (sendMedia_ensures session message phase).mono
        fun _ _ h => .played hLive hPlays h

/-- Queued before the launch is written, the `LOAD` is part of the request. -/
theorem sendReceiver_asks {session : Session} {c : Command} {message : UInt32 → Json}
    {phase : Phase} {queued : Option PendingCommand}
    (h : Asks session c message phase queued) :
    Ensures (sendReceiver { session with pendingCommand := queued } message phase)
      (CommandEffect session c) :=
  (sendReceiver_ensures _ message phase).mono fun _ _ hEffect => .asked h hEffect

theorem handleCommand_ensures (session : Session) (c : Command) :
    Ensures (handleCommand session c) (CommandEffect session c) := by
  cases c with
  | launchDefaultReceiver =>
      simp only [handleCommand]
      split
      · next hPhase => exact ensures_pure.mpr (.ignored (.launch hPhase) rfl rfl)
      · next hPhase => exact sendReceiver_asks (.launch (Decidable.of_not_not hPhase))
  | load request =>
      simp only [handleCommand]
      split
      · next hPhase =>
          exact (sendLoad_ensures session request).mono
            fun _ _ h => .loaded rfl (.inl hPhase) h
      · next hPhase =>
          exact (sendLoad_ensures session request).mono
            fun _ _ h => .loaded rfl (.inr hPhase) h
      · next hPhase => exact sendReceiver_asks (.load hPhase)
      · next hReady hStreaming hConnected =>
          exact ensures_pure.mpr
            (.ignored (.load hConnected hReady hStreaming) rfl rfl)
  | play => exact transportCommand_ensures .play .play
  | pause => exact transportCommand_ensures .pause .pause
  | stop => exact transportCommand_ensures .stop .stop
  | setVolume level muted => exact sendReceiver_asks .setVolume
  | getStatus => exact sendReceiver_asks .getStatus
  | select device => exact ensures_fault.mpr (.unreachable (.inr ⟨device, rfl⟩) rfl rfl)
  | shutdown => exact ensures_fault.mpr (.unreachable (.inl rfl) rfl rfl)

theorem dispatchPending_ensures (session : Session) (request : LoadRequest) :
    Ensures (dispatchPending session (.load request)) (Loads session request) :=
  sendLoad_ensures session request

/-! ## Inbound payloads -/

variable (fromStr : String → Option Json)

/-- The status a payload carries, if it is a `RECEIVER_STATUS`. -/
def receiverStatusIn (payload : List Byte) : Option ReceiverStatus :=
  match decodeCastMessage payload with
  | .error _ => none
  | .ok message => parseReceiverStatus fromStr message.payloadUtf8

/-- Everything `route_inbound` may do. -/
inductive RouteEffect (session : Session) (payload : List Byte) :
    InboundAction × Session → Prop
  | status {status : ReceiverStatus} (p : PendingMap)
      (h : receiverStatusIn fromStr payload = some status) :
      RouteEffect session payload
        (.events (((renumber session session.requestId p).applyReceiverStatus status).1),
          ((renumber session session.requestId p).applyReceiverStatus status).2)
  | media {info : MediaStatusInfo} (p : PendingMap) :
      RouteEffect session payload
        (.events (Session.applyMediaStatus info), renumber session session.requestId p)
  | pong : RouteEffect session payload (.pong, session)
  | ignored (p : PendingMap) :
      RouteEffect session payload (.ignore, renumber session session.requestId p)

/-- Correlating a response touches the pending requests only. -/
theorem correlate_eq (session : Session) (value : Json) :
    ∃ p, session.correlate value = renumber session session.requestId p := by
  unfold Session.correlate
  split
  · exact ⟨_, rfl⟩
  · exact ⟨session.pending, rfl⟩

theorem routeInbound_effect (session : Session) (payload : List Byte) :
    RouteEffect fromStr session payload (session.routeInbound fromStr payload) := by
  have hIgnored : RouteEffect fromStr session payload (.ignore, session) :=
    .ignored session.pending
  unfold Session.routeInbound
  cases hMessage : decodeCastMessage payload with
  | error => exact hIgnored
  | ok message =>
      cases hValue : fromStr message.payloadUtf8 with
      | none => simpa only [hValue] using hIgnored
      | some value =>
          simp only [hValue]
          obtain ⟨p, hCorrelate⟩ := correlate_eq session value
          rw [hCorrelate]
          split
          · exact hIgnored
          · split
            · exact .pong
            · split
              · cases hStatus : parseReceiverStatus fromStr message.payloadUtf8 with
                | none => exact .ignored p
                | some status =>
                    refine .status p ?_
                    simpa only [receiverStatusIn, hMessage] using hStatus
              · split
                · split
                  · exact .media p
                  · exact .ignored p
                · exact hIgnored

end CastApp.Cast.SessionEffect
