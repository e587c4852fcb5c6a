import CastApp.State

/-!
# The dashboard

The part of the GUI that mirrors the backend: what it keeps of the events it
drains, and how it selects a receiver.
-/

namespace CastApp.Gui.Dashboard

open CastApp.State

inductive DiscoveryState : Type
  | scanning
  | noReceivers
  | error (message : String)
  | ready
  deriving DecidableEq, Repr

inductive ConnectionState : Type
  /-- Nothing was heard of a connection yet. -/
  | scanning
  | connected (device : CastDevice)
  | disconnected
  deriving DecidableEq, Repr

inductive PlaybackState : Type
  | idle
  | playing
  | paused
  | buffering
  deriving DecidableEq, Repr

structure CastDashboard where
  availableReceivers : List CastDevice
  selectedReceiver : Option CastDevice
  displays : List String
  discovery : DiscoveryState
  connection : ConnectionState
  playback : PlaybackState
  /-- In percent. -/
  volume : UInt8
  muted : Bool
  volumeDragging : Bool
  errorBanner : Option String
  securityWarning : Option String
  bindFallback : Option String
  manualError : Option String

/-- `(level.clamp(0.0, 1.0) * 100.0).round() as u8`. -/
def volumePercent (level : Float32) : UInt8 :=
  let clamped := if level < 0 then 0 else if 1 < level then 1 else level
  (clamped * 100).round.toUInt8

namespace CastDashboard

def new : CastDashboard where
  availableReceivers := []
  selectedReceiver := none
  displays := []
  discovery := .scanning
  connection := .scanning
  playback := .idle
  volume := 0
  muted := false
  volumeDragging := false
  errorBanner := none
  securityWarning := none
  bindFallback := none
  manualError := none

/-! ## Events -/

def dismissError (dashboard : CastDashboard) : CastDashboard :=
  { dashboard with errorBanner := none }

def showError (dashboard : CastDashboard) (message : String) : CastDashboard :=
  { dashboard with errorBanner := some message }

def applyEvent (dashboard : CastDashboard) : BackendEvent → CastDashboard
  | .receiversUpdated devices =>
      dismissError { dashboard with
        availableReceivers := devices
        discovery := if devices.isEmpty then .noReceivers else .ready }
  | .displaysUpdated displays => dismissError { dashboard with displays := displays }
  | .receiverConnected device =>
      dismissError { dashboard with
        selectedReceiver := some device
        connection := .connected device }
  | .receiverDisconnected device =>
      dismissError { dashboard with
        selectedReceiver :=
          if dashboard.selectedReceiver = some device then none else dashboard.selectedReceiver
        connection := .disconnected
        playback := .idle }
  | .connectionError message =>
      { showError { dashboard with connection := .disconnected, playback := .idle } message with
        discovery :=
          if dashboard.availableReceivers.isEmpty then .error message else dashboard.discovery }
  | .streamError message => showError dashboard message
  | .mediaStatus playing buffering =>
      dismissError { dashboard with
        playback := if buffering then .buffering else if playing then .playing else .paused }
  | .volume level muted =>
      dismissError { dashboard with
        volume := if dashboard.volumeDragging then dashboard.volume else volumePercent level
        muted := muted }
  | .bindFallbackRequested reason => { dashboard with bindFallback := some reason }
  | .certificateWarning message => { dashboard with securityWarning := some message }

/-- One drain, with the events that were there, and their number. -/
def handleEvents (dashboard : CastDashboard) (events : List BackendEvent) : CastDashboard × Nat :=
  (events.foldl applyEvent dashboard, events.length)

/-! ## Selecting a receiver -/

def selectReceiver (dashboard : CastDashboard) (device : CastDevice) :
    CastDashboard × List AppCommand :=
  ({ dashboard with selectedReceiver := some device }, [.selectReceiver device])

/-- `try_manual_connect`, with what the two fields were parsed to. -/
def tryManualConnect (dashboard : CastDashboard) (parsed : Except String SocketAddr) :
    CastDashboard × List AppCommand :=
  match parsed with
  | .ok addr =>
      ({ dashboard with
          manualError := none
          selectedReceiver := some (.fromManualAddr addr) }, [.manualConnect addr])
  | .error message => ({ dashboard with manualError := some message }, [])

end CastDashboard

end CastApp.Gui.Dashboard
