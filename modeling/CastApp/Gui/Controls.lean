import CastApp.Gui.Dashboard
import CastApp.Gui.Slider
import CastApp.Gui.UrlEntry
import CastApp.Media.MediaServer

/-!
# The window

The rest of `CastDashboard`: what it keeps for itself beside the mirror of the
backend, what the user may do in a frame, and the commands that come of it.
Which widgets are there and enabled is as they are drawn; a text field takes
any text, and what the two fields of a manual connection parse to is left
open.
-/

namespace CastApp.Gui.Controls

open CastApp.Gui.Dashboard
open CastApp.Gui.Slider (VolumeThrottle)
open CastApp.Gui.UrlEntry (trimmed validateUrl)
open CastApp.Media.MediaServer (ActiveSource)
open CastApp.Media.SmbSource (UrlParser)
open CastApp.State

structure Window where
  dashboard : CastDashboard
  volumeThrottle : VolumeThrottle
  sourceTab : SourceTab
  hasActiveSource : Bool
  ffmpegAvailable : Bool
  selectedDisplay : Option String
  urlInput : String
  settingsOpen : Bool
  proxyPort : UInt16
  portDraft : UInt16
  /-- The native picker is open. -/
  filePicker : Bool
  manualIp : String
  manualPort : String
  manualOpen : Bool

namespace Window

def new (ffmpegAvailable : Bool) : Window where
  dashboard := .new
  volumeThrottle := .new
  sourceTab := .display
  hasActiveSource := false
  ffmpegAvailable := ffmpegAvailable
  selectedDisplay := none
  urlInput := ""
  settingsOpen := false
  proxyPort := 8080
  portDraft := 8080
  filePicker := false
  manualIp := ""
  manualPort := ""
  manualOpen := false

/-! ## Enablement -/

def canPlay (w : Window) : Bool := w.dashboard.selectedReceiver.isSome && w.hasActiveSource

def canPause (w : Window) : Bool := w.canPlay

def canStop (w : Window) : Bool := w.dashboard.selectedReceiver.isSome

def displayDropdownEnabled (w : Window) : Bool := w.ffmpegAvailable && !w.dashboard.displays.isEmpty

/-! ## Commands -/

/-- A method of the dashboard that dispatches. -/
abbrev Dispatches : Type := Window × List AppCommand

/-- A method that is of the mirror alone. -/
def mirror (w : Window) (result : CastDashboard × List AppCommand) : Dispatches :=
  ({ w with dashboard := result.1 }, result.2)

def retryDiscovery (w : Window) : Dispatches :=
  ({ w with dashboard := { w.dashboard with discovery := .scanning } }, [.rescan])

def selectTab (w : Window) (tab : SourceTab) : Dispatches :=
  ({ w with sourceTab := tab }, [.selectSource tab])

def selectDisplay (w : Window) (name : String) : Dispatches :=
  ({ w with selectedDisplay := some name, hasActiveSource := true }, [.selectDisplay name])

def selectFile (w : Window) (path : String) : Dispatches :=
  ({ w with hasActiveSource := true }, [.selectFile path])

def selectUrl (w : Window) (url : String) : Dispatches :=
  ({ w with hasActiveSource := true }, [.selectUrl (trimmed url)])

def toggleMute (w : Window) (muted : Bool) : Dispatches :=
  ({ w with dashboard := { w.dashboard with muted := muted } }, [.mute muted])

def saveProxyPort (w : Window) (port : UInt16) : Dispatches :=
  ({ w with proxyPort := port, portDraft := port }, [.setProxyPort port])

def answerBindFallback (w : Window) (consent : Bool) : Dispatches :=
  ({ w with dashboard := { w.dashboard with bindFallback := none } }, [.bindFallback consent])

def dismissSecurityWarning (w : Window) : Window :=
  { w with dashboard := { w.dashboard with securityWarning := none } }

/-- A position from 0 to 100. -/
def setVolume (w : Window) (level : UInt8) : Window :=
  { w with volumeThrottle := w.volumeThrottle.noteChange (level.toFloat32 / 100) }

def pollAndDispatchVolume (w : Window) (now : Nat) : Dispatches :=
  match w.volumeThrottle.poll now with
  | (none, throttle) => ({ w with volumeThrottle := throttle }, [])
  | (some level, throttle) => ({ w with volumeThrottle := throttle }, [.setVolume level])

def setVolumeDragging (w : Window) (dragging : Bool) : Window :=
  { w with dashboard := { w.dashboard with volumeDragging := dragging } }

/-- The slider is bound to the volume. -/
def slide (w : Window) (level : UInt8) : Window :=
  { w with dashboard := { w.dashboard with volume := level } }

end Window

/-! ## What the user does -/

/-- An input that a widget reacts to, or what a frame polls. -/
inductive Click : Type
  | settings
  | manualConnection
  | typeIp (text : String)
  | typePort (text : String)
  /-- `Connect`, with what the two fields parse to. -/
  | connect (parsed : Except String SocketAddr)
  | retry
  | receiver (device : CastDevice)
  | tab (chosen : SourceTab)
  | display (name : String)
  | browse
  /-- The native picker is done. -/
  | picked (path : Option String)
  | typeUrl (text : String)
  | apply
  | play
  | pause
  | stop
  | drag (level : UInt8)
  | dragStopped
  /-- A click on the track of the slider. -/
  | track (level : UInt8)
  | mute
  | dismissWarning
  | dismissError
  | draftPort (port : UInt16)
  | save
  | cancel
  | answer (consent : Bool)
  /-- A frame polls the throttle. -/
  | frame (now : Nat)

namespace Click

variable (parseUrl : UrlParser)

/-- The widget is drawn and enabled. -/
def Enabled (w : Window) : Click → Prop
  | .settings | .manualConnection | .typeIp _ | .typePort _ | .tab _ | .mute | .frame _ => True
  | .connect _ => w.manualOpen ∧ trimmed w.manualIp ≠ ""
  | .retry => ∃ message, w.dashboard.discovery = .error message
  | .receiver device => w.dashboard.discovery = .ready ∧ device ∈ w.dashboard.availableReceivers
  | .display name =>
      w.sourceTab = .display ∧ w.displayDropdownEnabled ∧ name ∈ w.dashboard.displays ∧
        w.selectedDisplay ≠ some name
  | .browse => w.sourceTab = .localFile
  | .picked _ => w.filePicker
  | .typeUrl _ => w.sourceTab = .webUrl
  | .apply => w.sourceTab = .webUrl ∧ validateUrl parseUrl w.urlInput
  | .play => w.canPlay
  | .pause => w.canPause
  | .stop => w.canStop
  | .drag level | .track level => level ≤ 100
  | .dragStopped => w.dashboard.volumeDragging
  | .dismissWarning => w.dashboard.securityWarning.isSome
  | .dismissError => w.dashboard.errorBanner.isSome ∨ w.dashboard.securityWarning.isSome
  | .draftPort port => w.settingsOpen ∧ 1024 ≤ port
  | .save => w.settingsOpen ∧ 1024 ≤ w.portDraft
  | .cancel => w.settingsOpen
  | .answer _ => w.dashboard.bindFallback.isSome

/-- What comes of it. -/
def handle (w : Window) : Click → Window.Dispatches
  | .settings => ({ w with settingsOpen := true }, [])
  | .manualConnection => ({ w with manualOpen := !w.manualOpen }, [])
  | .typeIp text =>
      ({ w with manualIp := text, dashboard := { w.dashboard with manualError := none } }, [])
  | .typePort text =>
      ({ w with manualPort := text, dashboard := { w.dashboard with manualError := none } }, [])
  | .connect parsed => w.mirror (w.dashboard.tryManualConnect parsed)
  | .retry => w.retryDiscovery
  | .receiver device => w.mirror (w.dashboard.selectReceiver device)
  | .tab chosen => w.selectTab chosen
  | .display name => w.selectDisplay name
  | .browse => ({ w with filePicker := true }, [])
  | .picked (some path) => { w with filePicker := false }.selectFile path
  | .picked none => ({ w with filePicker := false }, [])
  | .typeUrl text => ({ w with urlInput := text }, [])
  | .apply => w.selectUrl (trimmed w.urlInput)
  | .play => (w, [.play])
  | .pause => (w, [.pause])
  | .stop => (w, [.stop])
  | .drag level => (((w.slide level).setVolumeDragging true).setVolume level, [])
  | .dragStopped => (w.setVolumeDragging false, [])
  | .track level => ((w.slide level).setVolume level, [])
  | .mute => w.toggleMute (!w.dashboard.muted)
  | .dismissWarning => (w.dismissSecurityWarning, [])
  | .dismissError => ({ w with dashboard := w.dashboard.dismissError }, [])
  | .draftPort port => ({ w with portDraft := port }, [])
  | .save =>
      let (w, commands) := w.saveProxyPort w.portDraft
      ({ w with settingsOpen := false }, commands)
  | .cancel => ({ w with settingsOpen := false }, [])
  | .answer consent => w.answerBindFallback consent
  | .frame now => w.pollAndDispatchVolume now

end Click

/-- The source a command selects. -/
def sourceOf : AppCommand → Option ActiveSource
  | .selectDisplay monitor => some (.screen monitor)
  | .selectFile path => some (.file path)
  | .selectUrl url => some (.url url)
  | _ => none

end CastApp.Gui.Controls
