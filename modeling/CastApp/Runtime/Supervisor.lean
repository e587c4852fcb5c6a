import CastApp.Cast.Session
import CastApp.Media.MediaServer
import CastApp.Media.Mime
import CastApp.Verified.EventLoop

/-!
# The supervisor

`supervise` and everything it calls, as an event loop: what it starts, what
it tells the connection task and the media server, what it waits for, and the
coordinated shutdown it ends with.  It owns no socket: each probe, bind and
spawn is an operation whose answer comes from elsewhere.
-/

namespace CastApp.Runtime.Supervisor

open CastApp.State
open CastApp.Cast.Namespaces
open CastApp.Cast.Session
open CastApp.Media.MediaServer
open CastApp.Media.Mime
open CastApp.Verified.Coroutine
open CastApp.Verified.EventLoop

/-! ## Operations -/

/-- What the supervisor awaits or asks its surroundings for. -/
inductive Op : Type
  /-- `monitor_names` on a blocking worker. -/
  | enumerateDisplays
  | emit (event : BackendEvent)
  /-- `mdns::bind_socket`. -/
  | bindSocket
  /-- `mdns::run` on a task of its own. -/
  | spawnDiscovery
  /-- `send_replace` of the rescan counter. -/
  | bumpRescan
  | startCast
  | startServer
  | subscribePort
  /-- `Shutdown::subscribe`. -/
  | subscribe
  | selectLanIp (receiver : Option IpAddr)
  /-- A command for the connection task. -/
  | cast (command : Command)
  /-- A command for the media server. -/
  | server (command : ServerCommand)
  /-- The acknowledgement of a `SetBindAddr`; `none` when the server ended. -/
  | awaitAck
  | boundPort
  /-- `ScreenBridge::start` on a blocking worker; `none` when that failed. -/
  | startScreen (monitor : String)
  /-- `ScreenBridge::stop`. -/
  | stopScreen
  /-- `ScreenBridge::join` on a blocking worker, in the background or not. -/
  | detachScreen
  | joinScreen
  | awaitServer
  /-- The last events of the connection task, until it ends. -/
  | drainCast
  | awaitCast
  | awaitDiscovery
  /-- The end of the task, where what it owns is dropped. -/
  | finish

abbrev Op.Ans : Op → Type
  | .enumerateDisplays => Except String (List String)
  | .bindSocket => Except IoError Unit
  | .selectLanIp _ => BitVec 32
  | .awaitAck => Option (Except IoError Unit)
  | .boundPort => UInt16
  | .startScreen _ => Option (Except String Unit)
  | .drainCast => List ConnectionEvent
  | .emit _ | .spawnDiscovery | .bumpRescan | .startCast | .startServer | .subscribePort
  | .subscribe | .cast _ | .server _ | .stopScreen | .detachScreen | .joinScreen
  | .awaitServer | .awaitCast | .awaitDiscovery | .finish => Unit

abbrev supervisorSig : Signature where
  Op := Op
  Ans := Op.Ans
  Fault := Empty

/-- A computation of the supervisor. -/
abbrev Supervise (α : Type) : Type := Coro supervisorSig α

/-- Await one operation. -/
abbrev ask (op : Op) : Supervise op.Ans := @perform supervisorSig op

/-! ## State -/

structure SupervisorState where
  /-- Whether a screen pipeline is running. -/
  screen : Bool
  /-- Whether discovery was started. -/
  mdnsTask : Bool
  lanIp : IpAddr
  proxyPort : UInt16
  wildcardConsented : Bool
  fallbackPending : Bool
  currentSource : Option ActiveSource
  lastVolume : Float32
  muted : Bool

def screenMime : String := "video/mp4"

/-- The URL a receiver is told to load. -/
def streamUrl (ip : IpAddr) (port : UInt16) : String :=
  "http://" ++ ip.text ++ ":" ++ toString port.toNat ++ "/stream"

/-! ## Binding -/

/-- Ask the user for the wildcard bind, unless an answer is outstanding. -/
def requestWildcardFallback (state : SupervisorState) (reason : String) :
    Supervise SupervisorState :=
  if state.fallbackPending then
    return state
  else do
    ask (.emit (.bindFallbackRequested reason))
    return { state with fallbackPending := true }

def bindAddr (addr : SocketAddr) : Supervise (Except IoError Unit) := do
  ask (.server (.setBindAddr addr))
  match ← ask .awaitAck with
  | some result => return result
  | none => return .error ⟨.brokenPipe, "media server task ended"⟩

def bindWildcard (state : SupervisorState) : Supervise Unit := do
  let _ ← bindAddr ⟨.unspecified, state.proxyPort⟩
  return ()

def bindFailedReason (addr : SocketAddr) : String :=
  "Binding the media server to " ++ addr.text ++
    " failed, so the Chromecast could not reach the stream. The app wants to fall back to binding all interfaces (0.0.0.0)."

/-- Bind to the address the current receiver reaches; if that fails, fall
back to the wildcard with the consent of the user. -/
def rebindToLanIp (state : SupervisorState) : Supervise SupervisorState := do
  let addr : SocketAddr := ⟨state.lanIp, state.proxyPort⟩
  match ← bindAddr addr with
  | .ok () => return state
  | .error _ =>
      if state.wildcardConsented then do
        bindWildcard state
        return state
      else
        requestWildcardFallback state (bindFailedReason addr)

/-! ## Commands -/

def refreshDisplays : Supervise Unit := do
  match ← ask .enumerateDisplays with
  | .ok names => ask (.emit (.displaysUpdated names))
  | .error _ => return ()

/-- Choose the LAN address for a receiver, select it and rebind. -/
def selectReceiver (state : SupervisorState) (device : CastDevice) :
    Supervise SupervisorState := do
  let ip ← ask (.selectLanIp (some device.addr.ip))
  let state := { state with lanIp := .v4 ip }
  ask (.cast (.select device))
  rebindToLanIp state

/-- The path of a URL as a URL parser finds it, if it parses. -/
abbrev UrlPath : Type := String → Option String

variable (urlPath : UrlPath)

/-- `content_type_for_url`. -/
def contentTypeForUrl (raw : String) : String :=
  let path := (urlPath raw).getD ""
  mimeForExtension (((path.splitOn ".").getLast?).getD "")

/-- The `LOAD` a source is played with. -/
def loadOf (contentId : String) : ActiveSource → LoadRequest
  | .file path => ⟨contentId, mimeForPath path, .buffered⟩
  | .url raw => ⟨contentId, contentTypeForUrl urlPath raw, .buffered⟩
  | .screen _ => ⟨contentId, screenMime, .live⟩

/-- `Play`: ignored without a source, or while nothing is bound. -/
def play (state : SupervisorState) : Supervise Unit :=
  match state.currentSource with
  | none => return ()
  | some source => do
      let port ← ask .boundPort
      if port = 0 then
        return ()
      else
        ask (.cast (.load (loadOf urlPath (streamUrl state.lanIp port) source)))

def startFailed : String := "screen pipeline failed to start"

/-- Start a pipeline and report what came of it. -/
def startDisplay (state : SupervisorState) (monitor : String) : Supervise SupervisorState := do
  match ← ask (.startScreen monitor) with
  | some (.ok ()) => return { state with screen := true }
  | some (.error error) => do
      ask (.emit (.streamError error))
      return state
  | none => do
      ask (.emit (.streamError startFailed))
      return state

/-- `SelectDisplay`: replace the pipeline that is running. -/
def selectDisplay (state : SupervisorState) (monitor : String) :
    Supervise SupervisorState := do
  if state.screen then do
    ask .stopScreen
    ask .detachScreen
  let state := { state with screen := false, currentSource := some (.screen monitor) }
  ask (.server (.setSource (.screen monitor)))
  startDisplay state monitor

/-- `Rescan`: query again, and start discovery if it never was. -/
def rescan (state : SupervisorState) : Supervise SupervisorState := do
  ask .bumpRescan
  if state.mdnsTask then
    return state
  else
    match ← ask .bindSocket with
    | .ok () => do
        ask .spawnDiscovery
        return { state with mdnsTask := true }
    | .error _ => return state

def handleCommand (state : SupervisorState) : AppCommand → Supervise SupervisorState
  | .selectReceiver device => selectReceiver state device
  | .manualConnect addr => selectReceiver state (CastDevice.fromManualAddr addr)
  | .bindFallback consent => do
      let state := { state with fallbackPending := false }
      if consent then do
        let state := { state with wildcardConsented := true }
        bindWildcard state
        return state
      else
        return state
  | .selectSource tab => do
      if tab = .display then
        refreshDisplays
      return state
  | .selectDisplay monitor => selectDisplay state monitor
  | .selectFile path => do
      ask (.server (.setSource (.file path)))
      return { state with currentSource := some (.file path) }
  | .selectUrl url => do
      ask (.server (.setSource (.url url)))
      return { state with currentSource := some (.url url) }
  | .play => do
      play urlPath state
      return state
  | .pause => do
      ask (.cast .pause)
      return state
  | .stop => do
      ask (.cast .stop)
      return state
  | .setVolume level => do
      ask (.cast (.setVolume level state.muted))
      return { state with lastVolume := level }
  | .mute muted => do
      ask (.cast (.setVolume state.lastVolume muted))
      return { state with muted := muted }
  | .setProxyPort port => do
      ask (.server (.setPort port))
      return { state with proxyPort := port }
  | .rescan => rescan state

/-! ## Events -/

/-- `Duration` in `{:?}`. -/
def durationText (duration : Duration) : String :=
  if duration = 0 then
    "0ns"
  else if duration < 1000 then
    toString duration ++ "ms"
  else
    let fraction := duration % 1000
    let digits := String.ofList (((Nat.toDigits 10 (1000 + fraction)).drop 1).reverse.dropWhile
      (· == '0')).reverse
    toString (duration / 1000) ++ (if fraction = 0 then "" else "." ++ digits) ++ "s"

def tlsErrorText : TlsError → String
  | .connect addr source => "TCP connect to " ++ addr.text ++ " failed: " ++ source.message
  | .connectTimeout addr timeout =>
      "TCP connect to " ++ addr.text ++ " timed out after " ++ durationText timeout
  | .rustls message => "TLS handshake failed: " ++ message
  | .io error => "TLS I/O failed: " ++ error.message
  | .handshakeTimeout timeout => "TLS handshake timed out after " ++ durationText timeout
  | .workerPanicked => "TLS handshake worker panicked"

def connectionErrorText : ConnectionError → String
  | .tls addr source => "TLS connection to " ++ addr.text ++ " failed: " ++ tlsErrorText source
  | .reconnectExhausted name addr attempts =>
      "connection to " ++ name ++ " (" ++ addr.text ++ ") lost after " ++ toString attempts ++
        " reconnect attempts"
  | .readerThread source => "spawning the reader thread failed: " ++ source.message

/-- `{byte:02x}` of each byte. -/
def fingerprintToHex (fingerprint : Fingerprint) : String :=
  "".intercalate (fingerprint.toList.map fun byte =>
    String.ofList ((Nat.toDigits 16 (256 + byte.toNat)).drop 1))

def certificateWarningText (device : CastDevice) (previous current : Fingerprint) : String :=
  "Security notice: the certificate presented by " ++ device.name ++ " (" ++ device.addr.text ++
    ") does not match the one first seen for this receiver. SHA-256 changed from " ++
    fingerprintToHex previous ++ " to " ++ fingerprintToHex current ++
    ". This may mean the device was replaced or that a man-in-the-middle is intercepting the connection. The connection proceeded; see the log file for details."

/-- Pass an event of the connection task on to the GUI, mirroring the
volume. -/
def forwardConnectionEvent (state : SupervisorState) :
    ConnectionEvent → Supervise SupervisorState
  | .connected device => do
      ask (.emit (.receiverConnected device))
      return state
  | .disconnected device => do
      ask (.emit (.receiverDisconnected device))
      return state
  | .error error => do
      ask (.emit (.connectionError (connectionErrorText error)))
      return state
  | .ready _ _ => return state
  | .certificateMismatch device previous current => do
      ask (.emit (.certificateWarning (certificateWarningText device previous current)))
      return state
  | .mediaStatus playing buffering => do
      ask (.emit (.mediaStatus playing buffering))
      return state
  | .volume level muted => do
      ask (.emit (.volume level muted))
      return { state with lastVolume := level, muted := muted }

def forwardAll (state : SupervisorState) : List ConnectionEvent → Supervise SupervisorState
  | [] => return state
  | event :: events => do
      let state ← forwardConnectionEvent state event
      forwardAll state events

/-! ## The loop -/

/-- The coordinated shutdown: the listener first, then the cast session, then
discovery, then the capture. -/
def coordinatedShutdown (state : SupervisorState) : Supervise SupervisorState := do
  ask (.server .shutdown)
  ask .awaitServer
  ask (.cast .shutdown)
  let events ← ask .drainCast
  let state ← forwardAll state events
  ask .awaitCast
  -- The rescan sender is still owned here.
  if state.mdnsTask then
    ask .awaitDiscovery
  if state.screen then do
    ask .stopScreen
    ask .joinScreen
  ask .finish
  return state

inductive Branch : Type
  | command (command : Option AppCommand)
  | event (event : Option ConnectionEvent)
  /-- A change of the published port, or `false` when the server ended. -/
  | port (alive : Bool)
  | shutdown

def branchBody (state : SupervisorState) : Branch → Supervise (Flow SupervisorState)
  | .command (some command) => do return .park (← handleCommand urlPath state command)
  | .event (some event) => do return .park (← forwardConnectionEvent state event)
  | .port true => return .park state
  | .command none | .event none | .port false | .shutdown => do
      return .exit (← coordinatedShutdown state)

def noReceiverReason : String :=
  "No Chromecast receiver is selected yet, so the app cannot determine which network interface the receiver is on. The app wants to fall back to binding all interfaces (0.0.0.0) so the media server is reachable once a receiver is chosen."

/-- Start discovery, unless its socket could not be set up. -/
def startDiscovery (discovery : Except IoError Unit) : Supervise Bool :=
  match discovery with
  | .ok () => do
      ask .spawnDiscovery
      return true
  | .error error => do
      ask (.emit (.connectionError ("mDNS discovery failed: " ++ error.message)))
      return false

/-- Everything before the first `select!`. -/
def startUp (discovery : Except IoError Unit) (initialPort : UInt16) :
    Supervise SupervisorState := do
  refreshDisplays
  let mdnsTask ← startDiscovery discovery
  ask .startCast
  ask .startServer
  let ip ← ask (.selectLanIp none)
  let state ← requestWildcardFallback
    { screen := false
      mdnsTask := mdnsTask
      lanIp := .v4 ip
      proxyPort := initialPort
      wildcardConsented := false
      fallbackPending := false
      currentSource := none
      lastVolume := 0
      muted := false } noReceiverReason
  ask .subscribePort
  ask .subscribe
  return state

/-- The supervisor task. -/
def supervise (discovery : Except IoError Unit) (initialPort : UInt16) :
    EventLoop supervisorSig SupervisorState Branch where
  prelude := do return .park (← startUp discovery initialPort)
  guard _ _ := True
  body := branchBody urlPath

end CastApp.Runtime.Supervisor
