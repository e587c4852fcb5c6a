import CastApp.Cast.Mdns
import CastApp.Runtime.Supervisor
import CastApp.Screen.Portal

/-!
# The backend

The supervisor among the tasks and threads it started, one await point per
step: the discovery loops with the token and the rescan sender, the controller
threads at their portal requests, and the media server with the queue of its
commands.  Between any two steps of the supervisor any of them may take a
step, and the user of the backend may trigger the token, once.

Where the surroundings choose, every choice is left open: which displays and
addresses are found, whether a socket binds, what the portal answers.
-/

namespace CastApp.Runtime.Backend

open CastApp.Cast
open CastApp.Media.MediaServer
open CastApp.Runtime.Supervisor
open CastApp.Screen.Portal (PortalThread portalSig)
open CastApp.State
open CastApp.Util
open CastApp.Verified.Coroutine
open CastApp.Verified.EventLoop
open CastApp.Verified.Transition
open CastApp.Verified.WatchChannel

/-! ## The media server and its queue -/

structure ServerTask where
  state : ServerState
  running : Bool
  queue : List ServerCommand
  /-- The commands processed so far. -/
  processed : List ServerCommand
  /-- The acknowledgement of the last `SetBindAddr`, once it was sent. -/
  ack : Option (Except IoError Unit)

namespace ServerTask

/-- Not started. -/
def new : ServerTask := ⟨.unbound, false, [], [], none⟩

/-- Every command sent to the task, in order. -/
def log (s : ServerTask) : List ServerCommand := s.processed ++ s.queue

/-- A command sent to a task that has ended is dropped; a `SetBindAddr` comes
with a fresh acknowledgement. -/
def tell (s : ServerTask) (command : ServerCommand) : ServerTask :=
  { s with
    queue := if s.running then s.queue ++ [command] else s.queue
    ack := match command with
      | .setBindAddr _ => none
      | _ => s.ack }

/-- A step of the task: it processes the oldest command, or ends because of
one or of the token.  Its listener and its commands go with it. -/
inductive Step (token : Shutdown) (s : ServerTask) : ServerTask → Prop
  | process {command : ServerCommand} {rest : List ServerCommand} {state' : ServerState}
      {ack : Option (Except IoError Unit)} (hRunning : s.running = true)
      (hQueue : s.queue = command :: rest) (h : Processes s.state command ack state') :
      Step token s
        { s with
          state := state'
          queue := rest
          processed := s.processed ++ [command]
          ack := ack.or s.ack }
  | stop (hRunning : s.running = true)
      (hStop : (∃ rest, s.queue = .shutdown :: rest) ∨ token.isShuttingDown = true) :
      Step token s
        { s with
          state := { s.state with listener := none }
          running := false
          queue := [] }

end ServerTask

/-! ## The surroundings -/

/-- A discovery loop with its receiver of the token. -/
structure DiscoveryTask where
  control : Control Mdns.mdnsSig Mdns.DeviceTable
  receiver : Option Receiver

/-- The task has ended. -/
def DiscoveryTask.Ended (task : DiscoveryTask) : Prop :=
  (∃ devices, task.control = .exited devices) ∨ ∃ reason, task.control = .faulted reason

structure World where
  token : Shutdown
  /-- `shutdown_rx` of the supervisor, once it has subscribed. -/
  receiver : Option Receiver
  discovery : List DiscoveryTask
  /-- The supervisor still owns the rescan sender. -/
  rescanHeld : Bool
  portals : List PortalThread
  /-- The controller thread of the running pipeline, if it is at the portal. -/
  pipeline : Option Nat
  server : ServerTask

namespace World

def new : World := ⟨.new, none, [], true, [], none, .new⟩

def tell (w : World) (command : ServerCommand) : World :=
  { w with server := w.server.tell command }

def setPortal (w : World) (k : Nat) (thread : PortalThread) : World :=
  { w with portals := w.portals.set k thread }

/-- Set the stop flag of a pipeline. -/
def stopPortal (w : World) (k : Nat) : World :=
  { w with portals := w.portals.modify k fun thread => { thread with stop := true } }

/-- `ScreenBridge::stop` on the running pipeline. -/
def stopPipeline (w : World) : World :=
  match w.pipeline with
  | some k => w.stopPortal k
  | none => w

/-- A pipeline that attaches a stream, and opens the portal on Wayland. -/
def startPipeline (w : World) (stream : ScreenStream) (portal : Bool) : World :=
  { w.tell (.attachScreenStream stream) with
    portals := if portal then w.portals ++ [.calling .createSession false] else w.portals
    pipeline := if portal then some w.portals.length else none }

end World

variable (parsePacket : List Byte → Except Mdns.DnsError (List Mdns.DiscoveredDevice))

/-- A discovery loop that was spawned and did not run yet. -/
def DiscoveryTask.new : DiscoveryTask := ⟨.running (Mdns.runWithDest parsePacket).prelude, none⟩

/-- How the operations of the supervisor are answered. -/
inductive Answers (w : World) : (op : Op) → op.Ans → World → Prop
  | enumerateDisplays (result : Except String (List String)) :
      Answers w .enumerateDisplays result w
  | emit {event : BackendEvent} : Answers w (.emit event) () w
  | bindSocket (result : Except IoError Unit) : Answers w .bindSocket result w
  | spawnDiscovery :
      Answers w .spawnDiscovery () { w with discovery := w.discovery ++ [.new parsePacket] }
  | bumpRescan : Answers w .bumpRescan () w
  | startCast : Answers w .startCast () w
  | startServer :
      Answers w .startServer () { w with server := { w.server with running := true } }
  | subscribePort : Answers w .subscribePort () w
  | subscribe : Answers w .subscribe () { w with receiver := some w.token.subscribe }
  | selectLanIp {receiver : Option IpAddr} (ip : BitVec 32) :
      Answers w (.selectLanIp receiver) ip w
  | cast {command : Session.Command} : Answers w (.cast command) () w
  | server {command : ServerCommand} : Answers w (.server command) () (w.tell command)
  | acked {result : Except IoError Unit} (hAck : w.server.ack = some result) :
      Answers w .awaitAck (some result) { w with server := { w.server with ack := none } }
  | ackDropped (hAck : w.server.ack = none) (hStopped : w.server.running = false) :
      Answers w .awaitAck none w
  | boundPort : Answers w .boundPort w.server.state.boundPort w
  | notStarted {monitor : String} (result : Option (Except String Unit))
      (hFailed : result ≠ some (.ok ())) : Answers w (.startScreen monitor) result w
  /-- A start may also fail when the stream was attached already. -/
  | started {monitor : String} (result : Option (Except String Unit)) (stream : ScreenStream)
      (portal : Bool) :
      Answers w (.startScreen monitor) result (w.startPipeline stream portal)
  | stopScreen : Answers w .stopScreen () w.stopPipeline
  | detachScreen : Answers w .detachScreen () w
  | joinScreen : Answers w .joinScreen () w
  | awaitServer (hStopped : w.server.running = false) : Answers w .awaitServer () w
  | drainCast (events : List Session.ConnectionEvent) : Answers w .drainCast events w
  | awaitCast : Answers w .awaitCast () w
  | awaitDiscovery (hEnded : ∀ task ∈ w.discovery, task.Ended) : Answers w .awaitDiscovery () w
  | finish : Answers w .finish () { w with rescanHeld := false }

/-- Which branch of the `select!` is ready: commands and events at any time,
as is a change of the port, the end of the server once it has ended, and the
token when it was not seen yet. -/
inductive Fires (w : World) : Branch → World → Prop
  | command (command : Option AppCommand) : Fires w (.command command) w
  | event (event : Option Session.ConnectionEvent) : Fires w (.event event) w
  | port : Fires w (.port true) w
  | portClosed (hStopped : w.server.running = false) : Fires w (.port false) w
  | shutdown {receiver : Receiver} (hReceiver : w.receiver = some receiver)
      (hReady : receiver.Ready w.token) :
      Fires w .shutdown { w with receiver := some w.token.subscribe }

/-- A step of somebody else. -/
inductive Step : Type
  /-- `Backend::shutdown`, which gives the backend up. -/
  | trigger
  | discovery (k : Nat) (label : Label Mdns.mdnsSig Mdns.Branch Empty)
  | portal (k : Nat) (label : Option (Label portalSig Screen.Portal.Branch Empty))
  /-- A pipeline stops by itself. -/
  | stopPortal (k : Nat)
  | server

inductive Moves (w : World) : Step → World → Prop
  | trigger (hRunning : w.token.isShuttingDown = false) :
      Moves w .trigger { w with token := w.token.trigger }
  | discovery {k : Nat} {task : DiscoveryTask} {label : Label Mdns.mdnsSig Mdns.Branch Empty}
      {control' : Control Mdns.mdnsSig Mdns.DeviceTable} {receiver' : Option Receiver}
      (hTask : w.discovery[k]? = some task)
      (h : SmallStep (Mdns.runWithDest parsePacket) (Mdns.surroundings w.token w.rescanHeld)
        (task.control, task.receiver) label (control', receiver')) :
      Moves w (.discovery k label)
        { w with discovery := w.discovery.set k ⟨control', receiver'⟩ }
  | portal {k : Nat} {thread thread' : PortalThread}
      {label : Option (Label portalSig Screen.Portal.Branch Empty)}
      (hThread : w.portals[k]? = some thread) (h : thread.Step w.token label thread') :
      Moves w (.portal k label) (w.setPortal k thread')
  | stopPortal (k : Nat) : Moves w (.stopPortal k) (w.stopPortal k)
  | server {server' : ServerTask} (h : w.server.Step w.token server') :
      Moves w .server { w with server := server' }

/-- The surroundings of the supervisor. -/
def surroundings : Environment supervisorSig SupervisorState Branch World Step where
  init w := w = .new
  answers := Answers parsePacket
  parks w _ w' := w' = w
  fires w _ := Fires w
  moves := Moves parsePacket

/-- A state of the backend. -/
abbrev BackendState : Type := Control supervisorSig SupervisorState × World

/-- One step of the backend. -/
abbrev BackendMove : Type := Move BackendState (Label supervisorSig Branch Step)

/-- The backend, started with the outcome of the first socket setup and the
port to bind. -/
def backend (urlPath : UrlPath) (discovery : Except IoError Unit) (initialPort : UInt16) :
    System BackendState (Label supervisorSig Branch Step) :=
  (supervise urlPath discovery initialPort).small (surroundings parsePacket)

/-! ## Steps -/

section Steps

variable {parsePacket}
variable {urlPath : UrlPath} {discovery : Except IoError Unit} {initialPort : UInt16}
variable {trace : List BackendMove} {control : Control supervisorSig SupervisorState}
variable {state : SupervisorState} {w w' : World}

theorem run_start :
    Run (backend parsePacket urlPath discovery initialPort) []
      (.running (supervise urlPath discovery initialPort).prelude, .new) :=
  .start ⟨rfl, rfl⟩

theorem run_park
    (hRun : Run (backend parsePacket urlPath discovery initialPort) trace
      (.running (.done (.park state)), w)) :
    Run (backend parsePacket urlPath discovery initialPort)
      (trace ++ [⟨(.running (.done (.park state)), w), .park, (.parked state, w)⟩])
      (.parked state, w) :=
  hRun.step (.park rfl)

theorem run_fire (b : Branch)
    (hRun : Run (backend parsePacket urlPath discovery initialPort) trace (.parked state, w))
    (hFires : Fires w b w') :
    Run (backend parsePacket urlPath discovery initialPort)
      (trace ++ [⟨(.parked state, w), .fire b,
        (.running (branchBody urlPath state b), w')⟩])
      (.running (branchBody urlPath state b), w') :=
  hRun.step (.fire trivial hFires)

theorem run_move (step : Step)
    (hRun : Run (backend parsePacket urlPath discovery initialPort) trace (control, w))
    (hMoves : Moves parsePacket w step w') :
    Run (backend parsePacket urlPath discovery initialPort)
      (trace ++ [⟨(control, w), .move step, (control, w')⟩]) (control, w') :=
  hRun.step (.move hMoves)

theorem run_answer (op : Op) (r : op.Ans) {resume : op.Ans → Supervise (Flow SupervisorState)}
    (hRun : Run (backend parsePacket urlPath discovery initialPort) trace
      (.running (.await op resume), w))
    (hAnswers : Answers parsePacket w op r w') :
    Run (backend parsePacket urlPath discovery initialPort)
      (trace ++ [⟨(.running (.await op resume), w), .answer ⟨op, r⟩, (.running (resume r), w')⟩])
      (.running (resume r), w') :=
  hRun.step (.answer hAnswers)

/-- What the supervisor starts its loop with. -/
def started (ip : BitVec 32) (initialPort : UInt16) : SupervisorState where
  screen := false
  mdnsTask := false
  lanIp := .v4 ip
  proxyPort := initialPort
  wildcardConsented := false
  fallbackPending := true
  currentSource := none
  lastVolume := 0
  muted := false

/-- The supervisor can start without displays and without discovery. -/
theorem run_startUp {error : IoError} (ip : BitVec 32)
    (hRun : Run (backend parsePacket urlPath (.error error) initialPort) trace
      (.running (supervise urlPath (.error error) initialPort).prelude, w)) :
    ∃ more, Run (backend parsePacket urlPath (.error error) initialPort) (trace ++ more)
        (.parked (started ip initialPort),
          { w with
            server := { w.server with running := true }
            receiver := some w.token.subscribe }) ∧
      ∀ m ∈ more, m.pre.2.token = w.token ∧
        ∀ receiver ip', m.label = .answer ⟨.selectLanIp receiver, ip'⟩ → ip' = ip := by
  have h₁ := run_answer .enumerateDisplays (.error "") hRun (.enumerateDisplays _)
  have h₂ := run_answer (.emit _) () h₁ .emit
  have h₃ := run_answer .startCast () h₂ .startCast
  have h₄ := run_answer .startServer () h₃ .startServer
  have h₅ := run_answer (.selectLanIp none) ip h₄ (.selectLanIp ip)
  have h₆ := run_answer (.emit _) () h₅ .emit
  have h₇ := run_answer .subscribePort () h₆ .subscribePort
  have h₈ := run_answer .subscribe () h₇ .subscribe
  have h₉ := run_park h₈
  simp only [List.append_assoc] at h₉
  refine ⟨_, h₉, ?_⟩
  simp

end Steps

end CastApp.Runtime.Backend
