import CastApp.Runtime.Backend
import CastApp.Verified.Typestate

/-!
# How the supervisor speaks to the media server

A bind is acknowledged and everything else is not, so the supervisor is held
to an order: after a `SetBindAddr` it awaits the acknowledgement before it
does anything else, and after a `Shutdown` it sends no command and no `LOAD`.

* `supervise_keeps` — the supervisor keeps to this order.
* **`run_spoken`** — in every state of the backend, a `SetBindAddr` waits in
  the queue of the server only while the supervisor awaits its outcome, and a
  `Shutdown` only while it closes down.
* `run_coherent` — a listener is on the address of the last successful bind.
-/

namespace CastApp.Runtime.ServerProtocol

open CastApp.Cast
open CastApp.Media.MediaServer
open CastApp.Runtime.Backend
open CastApp.Runtime.Supervisor
open CastApp.State
open CastApp.Util
open CastApp.Verified.Coroutine
open CastApp.Verified.EventLoop
open CastApp.Verified.Transition
open CastApp.Verified.Typestate

/-! ## The protocol -/

inductive Phase : Type
  | starting
  | idle
  /-- A `SetBindAddr` was sent and its acknowledgement is awaited. -/
  | binding
  /-- A `Shutdown` was sent. -/
  | closing
  deriving DecidableEq

/-- The operations that are asked in any phase but `binding`. -/
def Plain : Op → Prop
  | .startServer | .awaitAck | .server (.setBindAddr _) | .server .shutdown | .cast (.load _) =>
      False
  | _ => True

variable (urlPath : UrlPath)

/-- The order of operations.  A `LOAD` names a port that was not 0. -/
inductive Next : Phase → Op → Phase → Prop
  | plain {ph : Phase} {op : Op} (hPlain : Plain op) (hPhase : ph ≠ .binding) : Next ph op ph
  | startServer : Next .starting .startServer .idle
  | bind (addr : SocketAddr) : Next .idle (.server (.setBindAddr addr)) .binding
  | ack : Next .binding .awaitAck .idle
  | load (ip : IpAddr) (port : UInt16) (source : ActiveSource) (hPort : port ≠ 0) :
      Next .idle (.cast (.load (loadOf urlPath (streamUrl ip port) source))) .idle
  | shutdown : Next .idle (.server .shutdown) .closing

variable {urlPath}

/-- `p` keeps to the order from `ph` and ends in `ph` again. -/
abbrev Stays {α : Type} (urlPath : UrlPath) (ph : Phase) (p : Supervise α) : Prop :=
  Keeps (S := supervisorSig) (Next urlPath) ph p fun ph' _ => ph' = ph

/-- A plain operation, then the rest. -/
theorem plain_then {α : Type} {ph : Phase} {op : Op} {f : op.Ans → Supervise α}
    {post : Phase → α → Prop} (hPhase : ph ≠ .binding) (hPlain : Plain op)
    (hf : ∀ r, Keeps (S := supervisorSig) (Next urlPath) ph (f r) post) :
    Keeps (S := supervisorSig) (Next urlPath) ph (ask op >>= f) post :=
  .perform (.plain hPlain hPhase) hf

section Functions

variable {state : SupervisorState} {ph : Phase}

theorem bindAddr_stays (addr : SocketAddr) : Stays urlPath .idle (bindAddr addr) := by
  refine .perform (.bind addr) fun _ => .perform .ack fun answer => ?_
  cases answer with
  | none => exact rfl
  | some result => exact rfl

theorem bindWildcard_stays : Stays urlPath .idle (bindWildcard state) :=
  (bindAddr_stays _).bind fun _ _ hSame => hSame

theorem requestWildcardFallback_stays (hPhase : ph ≠ .binding) (reason : String) :
    Stays urlPath ph (requestWildcardFallback state reason) := by
  unfold requestWildcardFallback
  by_cases hPending : state.fallbackPending = true
  · rw [if_pos hPending]
    exact rfl
  · rw [if_neg hPending]
    exact plain_then hPhase trivial fun _ => rfl

theorem rebindToLanIp_stays : Stays urlPath .idle (rebindToLanIp state) := by
  refine (bindAddr_stays _).bind ?_
  rintro _ result rfl
  cases result with
  | ok => exact rfl
  | error error =>
      show Stays urlPath .idle (if state.wildcardConsented = true then _ else _)
      by_cases hConsented : state.wildcardConsented = true
      · rw [if_pos hConsented]
        exact bindWildcard_stays.bind fun _ _ hSame => hSame
      · rw [if_neg hConsented]
        exact requestWildcardFallback_stays (by decide) _

theorem selectReceiver_stays (device : CastDevice) :
    Stays urlPath .idle (selectReceiver state device) :=
  plain_then (by decide) trivial fun _ => plain_then (by decide) trivial fun _ =>
    rebindToLanIp_stays

theorem refreshDisplays_stays (hPhase : ph ≠ .binding) : Stays urlPath ph refreshDisplays := by
  refine plain_then hPhase trivial fun displays => ?_
  cases displays with
  | error => exact rfl
  | ok names => exact ⟨ph, .plain trivial hPhase, fun _ => rfl⟩

theorem play_stays : Stays urlPath .idle (play urlPath state) := by
  unfold play
  cases state.currentSource with
  | none => exact rfl
  | some source =>
      refine plain_then (by decide) trivial fun port => ?_
      by_cases hPort : port = 0
      · rw [if_pos hPort]
        exact rfl
      · rw [if_neg hPort]
        exact ⟨.idle, .load _ port source hPort, fun _ => rfl⟩

theorem startDisplay_stays (monitor : String) :
    Stays urlPath .idle (startDisplay state monitor) := by
  refine plain_then (by decide) trivial fun started => ?_
  match started with
  | some (.ok ()) => exact rfl
  | some (.error error) => exact plain_then (by decide) trivial fun _ => rfl
  | none => exact plain_then (by decide) trivial fun _ => rfl

theorem selectDisplay_stays (monitor : String) :
    Stays urlPath .idle (selectDisplay state monitor) := by
  unfold selectDisplay
  by_cases hScreen : state.screen = true
  · simp only [hScreen, if_true]
    exact plain_then (by decide) trivial fun _ => plain_then (by decide) trivial fun _ =>
      plain_then (by decide) trivial fun _ => startDisplay_stays monitor
  · simp only [hScreen]
    exact plain_then (by decide) trivial fun _ => startDisplay_stays monitor

theorem rescan_stays : Stays urlPath .idle (rescan state) := by
  refine plain_then (by decide) trivial fun _ => ?_
  by_cases hTask : state.mdnsTask = true
  · rw [if_pos hTask]
    exact rfl
  · rw [if_neg hTask]
    refine plain_then (by decide) trivial fun socket => ?_
    cases socket with
    | ok => exact plain_then (by decide) trivial fun _ => rfl
    | error => exact rfl

theorem handleCommand_stays (command : AppCommand) :
    Stays urlPath .idle (handleCommand urlPath state command) := by
  cases command with
  | selectReceiver device => exact selectReceiver_stays device
  | manualConnect addr => exact selectReceiver_stays _
  | bindFallback consent =>
      cases consent with
      | true => exact bindWildcard_stays.bind fun _ _ hSame => hSame
      | false => exact rfl
  | selectSource tab =>
      show Stays urlPath .idle (if tab = .display then _ else _)
      by_cases hTab : tab = .display
      · rw [if_pos hTab]
        exact (refreshDisplays_stays (by decide)).bind fun _ _ hSame => hSame
      · rw [if_neg hTab]
        exact rfl
  | selectDisplay monitor => exact selectDisplay_stays monitor
  | selectFile path => exact plain_then (by decide) trivial fun _ => rfl
  | selectUrl url => exact plain_then (by decide) trivial fun _ => rfl
  | play => exact play_stays.bind fun _ _ hSame => hSame
  | pause => exact plain_then (by decide) trivial fun _ => rfl
  | stop => exact plain_then (by decide) trivial fun _ => rfl
  | setVolume level => exact plain_then (by decide) trivial fun _ => rfl
  | mute muted => exact plain_then (by decide) trivial fun _ => rfl
  | setProxyPort port => exact plain_then (by decide) trivial fun _ => rfl
  | rescan => exact rescan_stays

theorem forwardConnectionEvent_stays (hPhase : ph ≠ .binding) (event : Session.ConnectionEvent) :
    Stays urlPath ph (forwardConnectionEvent state event) := by
  cases event with
  | ready => exact rfl
  | connected | disconnected | error | certificateMismatch | mediaStatus | volume =>
      exact plain_then hPhase trivial fun _ => rfl

theorem forwardAll_stays (hPhase : ph ≠ .binding) (events : List Session.ConnectionEvent) :
    Stays urlPath ph (forwardAll state events) := by
  induction events generalizing state with
  | nil => exact rfl
  | cons event events ih =>
      refine (forwardConnectionEvent_stays hPhase event).bind ?_
      rintro _ state' rfl
      exact ih

/-- The coordinated shutdown ends in `closing`. -/
theorem coordinatedShutdown_keeps :
    Keeps (S := supervisorSig) (Next urlPath) .idle (coordinatedShutdown state)
      fun ph' _ => ph' = .closing := by
  refine .perform .shutdown fun _ => plain_then (by decide) trivial fun _ =>
    plain_then (by decide) trivial fun _ => plain_then (by decide) trivial fun events =>
      (forwardAll_stays (by decide) events).bind ?_
  rintro _ state' rfl
  have hFinish : Keeps (S := supervisorSig) (Next urlPath) .closing (do
      if state'.screen then do
        ask .stopScreen
        ask .joinScreen
      ask .finish
      return state') fun ph' _ => ph' = .closing := by
    by_cases hScreen : state'.screen = true
    · simp only [hScreen, if_true]
      exact plain_then (by decide) trivial fun _ => plain_then (by decide) trivial fun _ =>
        plain_then (by decide) trivial fun _ => rfl
    · simp only [hScreen]
      exact plain_then (by decide) trivial fun _ => rfl
  refine plain_then (by decide) trivial fun _ => ?_
  by_cases hTask : state'.mdnsTask = true
  · simp only [hTask, if_true]
    exact plain_then (by decide) trivial fun _ => hFinish
  · simp only [hTask]
    exact hFinish

theorem startDiscovery_stays (hPhase : ph ≠ .binding) (discovery : Except IoError Unit) :
    Stays urlPath ph (startDiscovery discovery) := by
  cases discovery <;> exact plain_then hPhase trivial fun _ => rfl

/-- The start ends in `idle`. -/
theorem startUp_keeps (discovery : Except IoError Unit) (initialPort : UInt16) :
    Keeps (S := supervisorSig) (Next urlPath) .starting (startUp discovery initialPort)
      fun ph' _ => ph' = .idle := by
  refine (refreshDisplays_stays (by decide)).bind ?_
  rintro _ _ rfl
  refine (startDiscovery_stays (by decide) discovery).bind ?_
  rintro _ mdnsTask rfl
  refine plain_then (by decide) trivial fun _ => .perform .startServer fun _ =>
    plain_then (by decide) trivial fun ip => ?_
  refine (requestWildcardFallback_stays (by decide) noReceiverReason).bind ?_
  rintro _ state rfl
  exact plain_then (by decide) trivial fun _ => plain_then (by decide) trivial fun _ => rfl

end Functions

/-! ## The supervisor keeps to the order -/

/-- Between two turns of its loop the supervisor is idle. -/
abbrev Home (ph : Phase) : Prop := ph = .idle

abbrev Speaking (urlPath : UrlPath) (ph : Phase) (c : Control supervisorSig SupervisorState) : Prop :=
  InPhase (Next urlPath) Home ph c

theorem prelude_speaking (discovery : Except IoError Unit) (initialPort : UInt16) :
    Speaking urlPath .starting (.running (supervise urlPath discovery initialPort).prelude) :=
  (startUp_keeps discovery initialPort).bind fun _ _ hIdle _ => hIdle

theorem supervise_keeps (discovery : Except IoError Unit) (initialPort : UInt16) (ph : Phase)
    (state : SupervisorState) (b : Branch) (hHome : Home ph) :
    Speaking urlPath ph (.running ((supervise urlPath discovery initialPort).body state b)) := by
  subst hHome
  have hLeave : Speaking urlPath .idle
      (.running (coordinatedShutdown state >>= fun state => pure (.exit state))) := by
    refine coordinatedShutdown_keeps.bind ?_
    rintro ph' state' - ⟨s, hPark⟩
    cases hPark
  cases b with
  | command command =>
      cases command with
      | none => exact hLeave
      | some command => exact (handleCommand_stays command).bind fun _ _ hIdle _ => hIdle
  | event event =>
      cases event with
      | none => exact hLeave
      | some event =>
          exact (forwardConnectionEvent_stays (by decide) event).bind fun _ _ hIdle _ => hIdle
  | port alive =>
      cases alive with
      | false => exact hLeave
      | true => exact fun _ => rfl
  | shutdown => exact hLeave

/-! ## The queue of the server -/

def isBind : ServerCommand → Bool
  | .setBindAddr _ => true
  | _ => false

/-- How many binds are unanswered, or answered and not yet noticed. -/
def outstanding (s : ServerTask) : Nat := s.queue.countP isBind + s.ack.toList.length

/-- The queue is what the phase of the supervisor says. -/
structure Agrees (ph : Phase) (s : ServerTask) : Prop where
  stopped : s.running = false → s.queue = []
  binds : outstanding s ≤ if ph = .binding then 1 else 0
  unclosed : ph ≠ .closing → .shutdown ∉ s.queue

namespace Agrees

variable {ph ph' : Phase} {s s' : ServerTask} {token : Shutdown}

theorem new : Agrees .starting .new where
  stopped := fun _ => rfl
  binds := Nat.le_refl _
  unclosed := fun _ => List.not_mem_nil

/-- No bind is outstanding but in the phase `binding`. -/
theorem settled (h : Agrees ph s) (hPhase : ph ≠ .binding) :
    s.queue.countP isBind = 0 ∧ s.ack = none := by
  have hBinds := h.binds
  rw [if_neg hPhase] at hBinds
  unfold outstanding at hBinds
  refine ⟨by omega, ?_⟩
  cases hAck : s.ack with
  | none => rfl
  | some result =>
      rw [hAck] at hBinds
      simp at hBinds

/-- A server that has ended is told nothing. -/
theorem stopped_tell {command : ServerCommand} (h : Agrees ph s)
    (hStopped : (s.tell command).running = false) : (s.tell command).queue = [] := by
  have hEnded : s.running = false := hStopped
  show (if s.running = true then _ else _) = _
  rw [hEnded]
  exact h.stopped hEnded

/-- A command other than a bind or a shutdown is sent. -/
theorem tell {command : ServerCommand} (h : Agrees ph s) (hBind : isBind command = false)
    (hShutdown : command ≠ .shutdown) : Agrees ph (s.tell command) := by
  have hAck : (s.tell command).ack = s.ack := by
    cases command with
    | setBindAddr => cases hBind
    | _ => rfl
  have hQueue : (s.tell command).queue = s.queue ∨
      (s.tell command).queue = s.queue ++ [command] ∧ s.running = true := by
    unfold ServerTask.tell
    cases hRunning : s.running with
    | false => exact .inl rfl
    | true => exact .inr ⟨rfl, rfl⟩
  rcases hQueue with hQueue | ⟨hQueue, hRunning⟩
  · refine ⟨fun hStopped => hQueue.trans (h.stopped hStopped), ?_, fun hPhase => ?_⟩
    · unfold outstanding
      rw [hQueue, hAck]
      exact h.binds
    · rw [hQueue]
      exact h.unclosed hPhase
  · refine ⟨fun hStopped => ?_, ?_, fun hPhase => ?_⟩
    · exact absurd (hRunning.symm.trans hStopped) (by decide)
    · unfold outstanding
      rw [hQueue, hAck, List.countP_append, List.countP_singleton, hBind]
      exact h.binds
    · rw [hQueue]
      simpa [hShutdown.symm] using h.unclosed hPhase

/-- A bind is sent. -/
theorem bind (h : Agrees .idle s) (addr : SocketAddr) :
    Agrees .binding (s.tell (.setBindAddr addr)) := by
  have hSettled := (h.settled (by decide)).1
  constructor
  · exact h.stopped_tell
  · show List.countP isBind (if s.running = true then _ else _) + 0 ≤ 1
    by_cases hRunning : s.running = true
    · rw [if_pos hRunning, List.countP_append, hSettled]
      exact Nat.le_refl 1
    · rw [if_neg hRunning, hSettled]
      omega
  · intro _
    show ServerCommand.shutdown ∉ if s.running = true then _ else _
    have hOpen := h.unclosed (by decide)
    by_cases hRunning : s.running = true
    · rw [if_pos hRunning]
      simpa using hOpen
    · rw [if_neg hRunning]
      exact hOpen

/-- A shutdown is sent. -/
theorem shutdown (h : Agrees .idle s) : Agrees .closing (s.tell .shutdown) := by
  obtain ⟨hSettled, hAck⟩ := h.settled (by decide)
  constructor
  · exact h.stopped_tell
  · show List.countP isBind (if s.running = true then _ else _) + s.ack.toList.length ≤ 0
    rw [hAck]
    by_cases hRunning : s.running = true
    · rw [if_pos hRunning, List.countP_append, hSettled]
      exact Nat.le_refl 0
    · rw [if_neg hRunning, hSettled]
      exact Nat.le_refl 0
  · exact fun hPhase => absurd rfl hPhase

/-- The server takes a step. -/
theorem server (h : Agrees ph s) (hStep : s.Step token s') : Agrees ph s' := by
  cases hStep with
  | stop =>
      refine ⟨fun _ => rfl, ?_, fun _ => List.not_mem_nil⟩
      exact Nat.le_trans (Nat.add_le_add_right (Nat.zero_le _) _) h.binds
  | @process command rest state' ack hRunning hQueue hProcess =>
      refine ⟨fun hStopped => absurd (hRunning.symm.trans hStopped) (by decide), ?_, fun hPhase => ?_⟩
      · refine Nat.le_trans ?_ h.binds
        unfold outstanding
        rw [hQueue]
        cases hProcess <;> cases s.ack <;> simp [List.countP_cons, isBind]
      · have hOpen := h.unclosed hPhase
        rw [hQueue] at hOpen
        exact fun hMem => hOpen (List.mem_cons_of_mem _ hMem)

end Agrees

/-! ## Runs -/

/-- The supervisor is in phase `ph` and the queue of the server agrees. -/
structure Spoken (urlPath : UrlPath) (ph : Phase) (c : BackendState) : Prop where
  speaking : Speaking urlPath ph c.1
  agrees : Agrees ph c.2.server

variable {parsePacket : List Byte → Except Mdns.DnsError (List Mdns.DiscoveredDevice)}
variable {discovery : Except IoError Unit} {initialPort : UInt16}

/-- An operation that sends nothing to the server leaves its queue alone. -/
theorem Agrees.answers {ph ph' : Phase} {w w' : World} {op : Op} {r : op.Ans}
    (h : Agrees ph w.server) (hNext : Next urlPath ph op ph')
    (hAnswers : Answers parsePacket w op r w') : Agrees ph' w'.server := by
  cases hAnswers with
  | startServer =>
      cases hNext with
      | plain hPlain => exact hPlain.elim
      | startServer =>
          obtain ⟨hSettled, hAck⟩ := h.settled (by decide)
          refine ⟨nofun, ?_, fun _ => h.unclosed (by decide)⟩
          show List.countP isBind w.server.queue + w.server.ack.toList.length ≤ 0
          rw [hSettled, hAck]
          exact Nat.le_refl 0
  | @server command =>
      cases hNext with
      | bind addr => exact h.bind addr
      | shutdown => exact h.shutdown
      | plain hPlain =>
          cases command with
          | setBindAddr | shutdown => exact hPlain.elim
          | setSource | attachScreenStream | setPort =>
              refine h.tell rfl ?_
              intro hShutdown
              cases hShutdown
  | acked hAck =>
      cases hNext with
      | plain hPlain => exact hPlain.elim
      | ack =>
          refine ⟨h.stopped, ?_, fun _ => h.unclosed (by decide)⟩
          have hBinds := h.binds
          unfold outstanding at hBinds ⊢
          rw [hAck] at hBinds
          simp at hBinds ⊢
          exact hBinds
  | ackDropped hAck hStopped =>
      cases hNext with
      | plain hPlain => exact hPlain.elim
      | ack =>
          refine ⟨h.stopped, ?_, fun _ => h.unclosed (by decide)⟩
          unfold outstanding
          rw [h.stopped hStopped, hAck]
          exact Nat.le_refl 0
  | started result stream portal =>
      cases hNext with
      | plain => exact h.tell rfl nofun
  | stopScreen =>
      cases hNext with
      | plain =>
          unfold World.stopPipeline
          cases w.pipeline <;> exact h
  | _ => cases hNext <;> exact h

/-- A step keeps to the order, and the queue with it. -/
theorem Spoken.step {ph : Phase} {c c' : BackendState} {label : Label supervisorSig Branch Step}
    (h : Spoken urlPath ph c)
    (hStep : (backend parsePacket urlPath discovery initialPort).step c label c') :
    ∃ ph', Label.Leads (Next urlPath) ph label ph' ∧ Spoken urlPath ph' c' := by
  obtain ⟨ph', hLeads, hSpeaking⟩ :=
    InPhase.step (supervise_keeps discovery initialPort) hStep h.speaking
  refine ⟨ph', hLeads, hSpeaking, ?_⟩
  cases hStep with
  | answer hAnswer => exact h.agrees.answers hLeads hAnswer
  | park hPark =>
      cases hPark
      cases hLeads
      exact h.agrees
  | fire _ hFire =>
      cases hLeads
      cases hFire <;> exact h.agrees
  | exit | fault =>
      cases hLeads
      exact h.agrees
  | move hMove =>
      cases hLeads
      cases hMove with
      | server hServer => exact h.agrees.server hServer
      | trigger | discovery | portal | stopPortal => exact h.agrees

/-- **In every state of the backend** the supervisor is in some phase of the
order, and the queue of the server is as that phase says. -/
theorem run_spoken {trace : List BackendMove} {c : BackendState}
    (hRun : Run (backend parsePacket urlPath discovery initialPort) trace c) :
    ∃ ph, Spoken urlPath ph c := by
  refine hRun.invariant (I := fun c => ∃ ph, Spoken urlPath ph c) ?_ ?_
  · rintro ⟨control, w⟩ ⟨rfl, rfl⟩
    exact ⟨.starting, prelude_speaking discovery initialPort, .new⟩
  · rintro c label c' ⟨ph, h⟩ hStep
    obtain ⟨ph', -, hSpoken⟩ := h.step hStep
    exact ⟨ph', hSpoken⟩

/-- The listener across one step of the backend. -/
theorem coherent_step {c c' : BackendState} {label : Label supervisorSig Branch Step}
    (h : c.2.server.state.Coherent)
    (hStep : (backend parsePacket urlPath discovery initialPort).step c label c') :
    c'.2.server.state.Coherent := by
  cases hStep with
  | @answer op r resume w w' hAnswer =>
      cases hAnswer with
      | stopScreen =>
          unfold World.stopPipeline
          cases hPipeline : w.pipeline <;> exact h
      | _ => exact h
  | park hPark =>
      cases hPark
      exact h
  | fire _ hFire => cases hFire <;> exact h
  | exit | fault => exact h
  | move hMove =>
      cases hMove with
      | server hServer =>
          cases hServer with
          | process _ _ hProcess => exact h.processes hProcess
          | stop =>
              intro l hListener
              cases hListener
      | trigger | discovery | portal | stopPortal => exact h

theorem run_coherent {trace : List BackendMove} {c : BackendState}
    (hRun : Run (backend parsePacket urlPath discovery initialPort) trace c) :
    c.2.server.state.Coherent := by
  refine hRun.invariant ?_ fun c label c' => coherent_step
  rintro ⟨control, w⟩ ⟨-, rfl⟩
  exact ServerState.coherent_unbound

end CastApp.Runtime.ServerProtocol
