import CastApp.Cast.Namespaces
import CastApp.Cast.Proto
import CastApp.Cast.RequestId
import CastApp.Util.Retry
import CastApp.Verified.Coroutine

/-!
# One session with a receiver

The state of a session, the commands it obeys, what it does with an inbound
payload, and the operations all of this awaits.  A session never touches a
socket: it asks for a message to be written and is told whether that worked.
-/

namespace CastApp.Cast.Session

open CastApp.State
open CastApp.Cast.Namespaces
open CastApp.Cast.Proto
open CastApp.Cast.RequestId
open CastApp.Util.Json
open CastApp.Util.Retry
open CastApp.Verified.Coroutine

/-! ## Commands and events -/

inductive Phase : Type
  | disconnected
  | connecting
  | connected
  | launching
  | ready
  | streaming
  | teardown
  deriving DecidableEq, Repr

/-- What a `LOAD` asks for. -/
structure LoadRequest where
  contentId : String
  contentType : String
  streamType : StreamType
  deriving DecidableEq, Repr

inductive Command : Type
  | select (device : CastDevice)
  | launchDefaultReceiver
  | load (request : LoadRequest)
  | play
  | pause
  | stop
  | setVolume (level : Float32) (muted : Bool)
  | getStatus
  | shutdown

/-- SHA-256 digest of a certificate. -/
abbrev Fingerprint : Type := Vector UInt8 32

inductive PinCheck : Type
  | disabled
  | pinned
  | matched
  | mismatch (previous current : Fingerprint)
  deriving DecidableEq

inductive TlsError : Type
  | connect (addr : SocketAddr) (source : IoError)
  | connectTimeout (addr : SocketAddr) (timeout : Duration)
  | rustls (message : String)
  | io (error : IoError)
  | handshakeTimeout (timeout : Duration)
  | workerPanicked
  deriving DecidableEq

inductive ConnectionError : Type
  | tls (addr : SocketAddr) (source : TlsError)
  | reconnectExhausted (name : String) (addr : SocketAddr) (attempts : Nat)
  | readerThread (source : IoError)
  deriving DecidableEq

inductive ConnectionEvent : Type
  | connected (device : CastDevice)
  | disconnected (device : CastDevice)
  | error (error : ConnectionError)
  | ready (transportId sessionId : String)
  | mediaStatus (playing buffering : Bool)
  | volume (level : Float32) (muted : Bool)
  | certificateMismatch (device : CastDevice) (previous current : Fingerprint)

/-! ## Operations -/

/-- A shared transport, by identity. -/
structure Transport where
  id : Nat
  deriving DecidableEq, Repr

/-- An unbounded frame channel, by identity. -/
structure Channel where
  id : Nat
  deriving DecidableEq, Repr

/-- A message as it is handed to `encode_cast_message`. -/
structure Outgoing where
  source : String
  destination : String
  namespaceUrn : String
  payload : Json

namespace Outgoing

/-- `CONNECT` to a destination. -/
def connectTo (destination : String) : Outgoing :=
  ⟨sourceId, destination, connectionNs, connect⟩

/-- A message to the platform receiver. -/
def toReceiver (payload : Json) : Outgoing :=
  ⟨sourceId, receiverId, receiverNs, payload⟩

/-- A message on the media channel. -/
def toMedia (destination : String) (payload : Json) : Outgoing :=
  ⟨sourceId, destination, mediaNs, payload⟩

def heartbeat : Outgoing := ⟨sourceId, transportId, heartbeatNs, ping⟩

end Outgoing

/-- What the connection task awaits or asks its surroundings for. -/
inductive Op : Type
  /-- `Shutdown::subscribe`, for the task itself. -/
  | subscribe
  | connect (device : CastDevice)
  /-- `send_payload` of an encoded message. -/
  | write (transport : Transport) (message : Outgoing)
  /-- `Transport::close` on a blocking worker. -/
  | close (transport : Transport)
  /-- `mpsc::unbounded_channel`. -/
  | channel
  /-- `spawn_reader`, with a receiver of the shutdown token. -/
  | spawnReader (transport : Transport) (channel : Channel)
  /-- `Instant::now`. -/
  | now
  | emit (event : ConnectionEvent)

/-- The answer to each operation. -/
abbrev Op.Ans : Op → Type
  | .subscribe => Unit
  | .connect _ => Except TlsError (Transport × PinCheck)
  | .write _ _ => Except IoError Unit
  | .close _ => Unit
  | .channel => Channel
  | .spawnReader _ _ => Except IoError Unit
  | .now => Instant
  | .emit _ => Unit

/-- The panics of the connection task. -/
inductive Fault : Type
  /-- `request ID space exhausted`. -/
  | requestIdsExhausted
  /-- `Ready/Streaming requires app session`. -/
  | appSessionExpected
  /-- `Select/Shutdown are handled by the run loop`. -/
  | commandUnreachable
  deriving DecidableEq, Repr

abbrev castSig : Signature where
  Op := Op
  Ans := Op.Ans
  Fault := Fault

/-- A computation of the connection task. -/
abbrev Cast (α : Type) : Type := Coro castSig α

/-- Await one operation. -/
abbrev ask (op : Op) : Cast op.Ans := @perform castSig op

/-! ## Session state -/

inductive PendingCommand : Type
  | load (request : LoadRequest)
  deriving DecidableEq, Repr

structure Session where
  phase : Phase
  device : CastDevice
  transport : Transport
  requestId : RequestId
  pending : PendingMap
  transportId : Option String
  sessionId : Option String
  pendingCommand : Option PendingCommand
  deriving DecidableEq

namespace Session

def new (device : CastDevice) (transport : Transport) (requestTimeout : Duration) :
    Session where
  phase := .connected
  device := device
  transport := transport
  requestId := .new
  pending := .new requestTimeout
  transportId := none
  sessionId := none
  pendingCommand := none

/-- Allocate a request id and register it as pending. -/
def nextRequest (session : Session) : Cast (UInt32 × Session) :=
  match session.requestId.allocate session.pending with
  | none => .fault .requestIdsExhausted
  | some (id, requestId) => do
      let now ← ask .now
      return (id, { session with
        requestId := requestId
        pending := session.pending.insert id now })

/-- Where media messages go; `transport-0` until the application is known. -/
def mediaDestination (session : Session) : String :=
  match session.transportId with
  | some id => mediaDestinationId id
  | none => Namespaces.transportId

end Session

/-! ## Inbound routing -/

inductive InboundAction : Type
  | pong
  | events (events : List ConnectionEvent)
  | ignore

namespace Session

/-- Resolve the pending request a response answers.  The call stands among the
fields of a `debug!` event, and this is the session when that event is enabled;
`Responses.correlateAt` covers both. -/
def correlate (session : Session) (value : Json) : Session :=
  match (value.get "requestId").bind Json.asU64 with
  | some id => { session with pending := (session.pending.resolve id.toUInt32).2 }
  | none => session

/-- Take over the ids a status carries. -/
def adoptIds (session : Session) (status : ReceiverStatus) : Session :=
  { session with
    transportId := status.transportId.or session.transportId
    sessionId := status.sessionId.or session.sessionId }

/-- A launching session that knows both ids becomes ready. -/
def becomeReady (session : Session) : List ConnectionEvent × Session :=
  if session.phase = .launching then
    match session.transportId, session.sessionId with
    | some transportId, some sessionId =>
        ([.ready transportId sessionId], { session with phase := .ready })
    | _, _ => ([], session)
  else
    ([], session)

def volumeEvents (volume : Option VolumeInfo) : List ConnectionEvent :=
  match volume with
  | some volume => [.volume volume.level volume.muted]
  | none => []

def applyReceiverStatus (session : Session) (status : ReceiverStatus) :
    List ConnectionEvent × Session :=
  let (ready, session) := (session.adoptIds status).becomeReady
  (ready ++ volumeEvents status.volume, session)

def applyMediaStatus (info : MediaStatusInfo) : List ConnectionEvent :=
  let playing := info.playerState = .playing ∨ info.playerState = .buffering
  [.mediaStatus playing (info.playerState = .buffering)]

/-- Classify one inbound payload and apply it; what cannot be read is
ignored. -/
def routeInbound (fromStr : String → Option Json) (session : Session)
    (payload : List Byte) : InboundAction × Session :=
  match decodeCastMessage payload with
  | .error _ => (.ignore, session)
  | .ok message =>
      match fromStr message.payloadUtf8 with
      | none => (.ignore, session)
      | some value =>
          match (value.get "type").bind Json.asStr with
          | none => (.ignore, session)
          | some msgType =>
              if msgType = "PONG" then
                (.pong, session)
              else if msgType = "RECEIVER_STATUS" then
                let session := session.correlate value
                match parseReceiverStatus fromStr message.payloadUtf8 with
                | some status =>
                    let (events, session) := session.applyReceiverStatus status
                    (.events events, session)
                | none => (.ignore, session)
              else if msgType = "MEDIA_STATUS" then
                let session := session.correlate value
                match parseMediaStatus fromStr message.payloadUtf8 with
                | some info => (.events (applyMediaStatus info), session)
                | none => (.ignore, session)
              else
                (.ignore, session)

end Session

/-! ## Commands -/

/-- The result of a handler that may have lost the transport. -/
abbrev Handled : Type := Except IoError Unit × Session

def sendPayload (transport : Transport) (message : Outgoing) :
    Cast (Except IoError Unit) :=
  ask (.write transport message)

/-- A request to the platform receiver. -/
def sendReceiver (session : Session) (message : UInt32 → Json)
    (phase : Phase) : Cast Handled := do
  let (id, session) ← session.nextRequest
  let session := { session with phase := phase }
  let result ← sendPayload session.transport (.toReceiver (message id))
  return (result, session)

/-- A request on the media channel. -/
def sendMedia (session : Session) (message : UInt32 → Json)
    (phase : Phase) : Cast Handled := do
  let (id, session) ← session.nextRequest
  let destination := session.mediaDestination
  let session := { session with phase := phase }
  let result ← sendPayload session.transport (.toMedia destination (message id))
  return (result, session)

/-- The `LOAD` of a request. -/
def loadMessage (id : UInt32) (sessionId : String) (request : LoadRequest) : Json :=
  load id sessionId request.contentId request.contentType request.streamType

/-- `CONNECT` to the media channel, then `LOAD` on it. -/
def sendLoad (session : Session) (request : LoadRequest) : Cast Handled := do
  let destination := session.mediaDestination
  match ← sendPayload session.transport (.connectTo destination) with
  | .error error => return (.error error, session)
  | .ok () =>
      let (id, session) ← session.nextRequest
      match session.sessionId with
      | none => .fault .appSessionExpected
      | some sessionId =>
          let session := { session with phase := .streaming }
          let result ← sendPayload session.transport
            (.toMedia destination (loadMessage id sessionId request))
          return (result, session)

/-- Dispatch one session command; an error means the transport is lost. -/
def handleCommand (session : Session) : Command → Cast Handled
  | .launchDefaultReceiver =>
      if session.phase ≠ .connected then
        return (.ok (), session)
      else
        sendReceiver session launch .launching
  | .load request =>
      match session.phase with
      | .ready | .streaming => sendLoad session request
      -- Launch first and queue the `LOAD`.
      | .connected =>
          sendReceiver { session with pendingCommand := some (.load request) }
            launch .launching
      | _ => return (.ok (), session)
  | .play => transportCommand play session.phase
  | .pause => transportCommand pause session.phase
  | .stop => transportCommand stop .ready
  | .setVolume level muted =>
      sendReceiver session (setVolume · level muted) session.phase
  | .getStatus => sendReceiver session getStatus session.phase
  | .select _ | .shutdown => .fault .commandUnreachable
where
  /-- `PLAY`, `PAUSE` and `STOP`: only with an application, into `phase`. -/
  transportCommand (message : UInt32 → Json) (phase : Phase) : Cast Handled :=
    if session.phase ≠ .ready ∧ session.phase ≠ .streaming then
      return (.ok (), session)
    else
      sendMedia session message phase

/-- Send a command queued while the session was `Connected`. -/
def dispatchPending (session : Session) : PendingCommand → Cast Handled
  | .load request => sendLoad session request

end CastApp.Cast.Session
