import CastApp.Runtime.ServerProtocol

/-!
# The URL a receiver is told to load

`Play` builds the URL from the LAN address the supervisor keeps and the port
the server published last.  Whether somebody listens there is up to the
server, which may have lost its listener to a failed bind, or may have a
change of the port still in its queue.

* **`load_served_iff`** — once the server has processed what was sent before a
  `LOAD` it is reached at the URL, whatever the binds come to, exactly when it
  is reached there at the `LOAD` and no other port waits in its queue.
* `load_unserved` — a failed rebind drops the listener and leaves the published
  port behind.
-/

namespace CastApp.Runtime.StreamUrl

open CastApp.Cast
open CastApp.Media.MediaServer
open CastApp.Runtime.Backend
open CastApp.Runtime.ServerProtocol
open CastApp.Runtime.Supervisor
open CastApp.State
open CastApp.Util
open CastApp.Verified.Coroutine
open CastApp.Verified.EventLoop
open CastApp.Verified.Transition
open CastApp.Verified.Typestate

variable {urlPath : UrlPath} {discovery : Except IoError Unit} {initialPort : UInt16}
variable {parsePacket : List Byte → Except Mdns.DnsError (List Mdns.DiscoveredDevice)}

/-- The server is reached at `http://ip:port`. -/
def Serves (ip : IpAddr) (port : UInt16) (s : ServerState) : Prop :=
  ∃ l, s.listener = some l ∧ l.port = port ∧ (l.ip = ip ∨ l.ip = .unspecified)

/-- A change of the port leads to `port`. -/
def SetsOnly (port : UInt16) (queue : List ServerCommand) : Prop :=
  ∀ p, .setPort p ∈ queue → p = port

/-! ## Settling down -/

/-- What the server has still to process of the first `mark` commands leaves
it where it is reached. -/
def Settling (ip : IpAddr) (port : UInt16) (mark : Nat) (s : ServerTask) : Prop :=
  s.running = true → s.processed.length ≤ mark →
    Serves ip port s.state ∧ ∃ todo more, s.queue = todo ++ more ∧
      s.processed.length + todo.length = mark ∧ SetsOnly port todo ∧
        ∀ command ∈ todo, isBind command = false

namespace Settling

variable {ip : IpAddr} {port : UInt16} {mark : Nat} {s s' : ServerTask} {token : Shutdown}

theorem tell (h : Settling ip port mark s) (command : ServerCommand) :
    Settling ip port mark (s.tell command) := by
  intro hRunning hProcessed
  obtain ⟨hServes, todo, more, hQueue, hMark, hSets, hBinds⟩ := h hRunning hProcessed
  refine ⟨hServes, todo, more ++ [command], ?_, hMark, hSets, hBinds⟩
  have hStill : s.running = true := hRunning
  show (if s.running = true then _ else _) = _
  rw [if_pos hStill, hQueue, List.append_assoc]

/-- A harmless command keeps the server reachable. -/
theorem serves_processes {state state' : ServerState} {command : ServerCommand}
    {ack : Option (Except IoError Unit)} (hPort : port ≠ 0) (hCoherent : state.Coherent)
    (hServes : Serves ip port state) (hProcess : Processes state command ack state')
    (hBind : isBind command = false) (hSets : ∀ p, command = .setPort p → p = port) :
    Serves ip port state' := by
  cases hProcess with
  | setSource | attachScreenStream => exact hServes
  | setBindAddr => cases hBind
  | setPort p result hFits =>
      obtain rfl := hSets p rfl
      obtain ⟨l, hListener, hAt, hIp⟩ := hServes
      have hBound : state.bindIp = some l.ip := hCoherent l hListener
      unfold ServerState.setPort
      rw [hBound]
      cases result with
      | error error => exact ⟨l, hListener, hAt, hIp⟩
      | ok actual => exact ⟨⟨l.ip, actual⟩, rfl, hFits hPort, hIp⟩

theorem server (h : Settling ip port mark s) (hPort : port ≠ 0) (hCoherent : s.state.Coherent)
    (hStep : s.Step token s') : Settling ip port mark s' := by
  cases hStep with
  | stop =>
      intro hRunning
      cases hRunning
  | @process command rest state' ack hRunning hQueue hProcess =>
      intro _ hProcessed
      rw [List.length_append, List.length_singleton] at hProcessed
      obtain ⟨hServes, todo, more, hSplit, hMark, hSets, hBinds⟩ := h hRunning (by omega)
      -- The command is one of the first `mark`, as that many are not done yet.
      cases todo with
      | nil =>
          rw [List.length_nil] at hMark
          omega
      | cons first todo =>
          rw [hQueue, List.cons_append, List.cons.injEq] at hSplit
          obtain ⟨rfl, hRest⟩ := hSplit
          refine ⟨serves_processes hPort hCoherent hServes hProcess
              (hBinds command List.mem_cons_self) ?_, todo, more, hRest, ?_, ?_, ?_⟩
          · rintro p rfl
            exact hSets p List.mem_cons_self
          · rw [List.length_cons] at hMark
            rw [List.length_append, List.length_singleton]
            omega
          · exact fun p hMem => hSets p (List.mem_cons_of_mem _ hMem)
          · exact fun later hMem => hBinds later (List.mem_cons_of_mem _ hMem)

theorem answers {w w' : World} {op : Op} {r : op.Ans} (h : Settling ip port mark w.server)
    (hOp : op ≠ .startServer) (hAnswers : Answers parsePacket w op r w') :
    Settling ip port mark w'.server := by
  cases hAnswers with
  | startServer => exact absurd rfl hOp
  | server => exact h.tell _
  | started => exact h.tell _
  | stopScreen =>
      unfold World.stopPipeline
      cases w.pipeline <;> exact h
  | _ => exact h

end Settling

/-- The server does not start again. -/
theorem Next.not_starting {ph ph' : Phase} {op : Op} (h : Next urlPath ph op ph')
    (hPhase : ph ≠ .starting) : op ≠ .startServer ∧ ph' ≠ .starting := by
  cases h with
  | plain hPlain =>
      refine ⟨?_, hPhase⟩
      rintro rfl
      exact hPlain
  | startServer => exact absurd rfl hPhase
  | bind | ack | load | shutdown => exact ⟨nofun, nofun⟩

/-- What the first commands leave to be reached stays so along every path. -/
theorem path_settling {ip : IpAddr} {port : UInt16} {mark : Nat} {ph : Phase}
    {c c' : BackendState} {later : List BackendMove} (hPort : port ≠ 0)
    (hSpoken : Spoken urlPath ph c) (hPhase : ph ≠ .starting)
    (hCoherent : c.2.server.state.Coherent) (hSettling : Settling ip port mark c.2.server)
    (hPath : Path (backend parsePacket urlPath discovery initialPort) c later c') :
    Settling ip port mark c'.2.server := by
  have hAlong : ∃ ph, Spoken urlPath ph c' ∧ ph ≠ .starting ∧
      c'.2.server.state.Coherent ∧ Settling ip port mark c'.2.server := by
    refine hPath.traceInvariant (I := fun _ c => ∃ ph, Spoken urlPath ph c ∧ ph ≠ .starting ∧
      c.2.server.state.Coherent ∧ Settling ip port mark c.2.server)
      ⟨ph, hSpoken, hPhase, hCoherent, hSettling⟩ ?_
    rintro _ c₁ label c₂ ⟨ph₁, hSpoken₁, hPhase₁, hCoherent₁, hSettling₁⟩ hStep
    obtain ⟨ph₂, hLeads, hSpoken₂⟩ := hSpoken₁.step hStep
    have hCoherent₂ := coherent_step hCoherent₁ hStep
    cases hStep with
    | answer hAnswer =>
        obtain ⟨hOp, hPhase₂⟩ := Next.not_starting hLeads hPhase₁
        exact ⟨ph₂, hSpoken₂, hPhase₂, hCoherent₂, hSettling₁.answers hOp hAnswer⟩
    | park hPark =>
        cases hPark
        cases hLeads
        exact ⟨ph₁, hSpoken₂, hPhase₁, hCoherent₂, hSettling₁⟩
    | fire _ hFire =>
        cases hLeads
        refine ⟨ph₁, hSpoken₂, hPhase₁, hCoherent₂, ?_⟩
        cases hFire <;> exact hSettling₁
    | exit | fault =>
        cases hLeads
        exact ⟨ph₁, hSpoken₂, hPhase₁, hCoherent₂, hSettling₁⟩
    | move hMove =>
        cases hLeads
        refine ⟨ph₁, hSpoken₂, hPhase₁, hCoherent₂, ?_⟩
        cases hMove with
        | server hServer => exact hSettling₁.server hPort hCoherent₁ hServer
        | trigger | discovery | portal | stopPortal => exact hSettling₁
  obtain ⟨_, -, -, -, hSettled⟩ := hAlong
  exact hSettled

/-! ## Binds that go wrong -/

/-- The outcome of a bind that hurts a receiver waiting at `port`: refused
there, granted anywhere else. -/
def hostile (port p : UInt16) : BindResult :=
  if p = port then .error ⟨.other, ""⟩ else .ok (if p = 0 then port + 1 else p)

theorem hostile_fits (port p : UInt16) : (hostile port p).Fits p := by
  unfold hostile
  by_cases hSame : p = port
  · rw [if_pos hSame]
    exact trivial
  · rw [if_neg hSame]
    intro hZero
    rw [if_neg hZero]

/-- What a command comes to under hostile binds. -/
def settle (port : UInt16) (s : ServerState) : ServerCommand → ServerState
  | .setSource source => s.setSource source
  | .attachScreenStream stream => s.attachScreenStream stream
  | .setPort p => s.setPort p (hostile port p)
  | .setBindAddr _ | .shutdown => s

theorem processes_settle (port : UInt16) (s : ServerState) {command : ServerCommand}
    (hBind : isBind command = false) (hShutdown : command ≠ .shutdown) :
    Processes s command none (settle port s command) := by
  cases command with
  | setSource source => exact .setSource source
  | attachScreenStream stream => exact .attachScreenStream stream
  | setPort p => exact .setPort p _ (hostile_fits port p)
  | setBindAddr => cases hBind
  | shutdown => exact absurd rfl hShutdown

/-- A server that is reached after a hostile bind was reached before. -/
theorem serves_of_setPort {ip : IpAddr} {port p : UInt16} {s : ServerState}
    (hCoherent : s.Coherent) (h : Serves ip port (s.setPort p (hostile port p))) :
    Serves ip port s ∧ p = port := by
  obtain ⟨l, hListener, hAt, hIp⟩ := h
  unfold ServerState.setPort hostile at hListener
  cases hBound : s.bindIp with
  | none =>
      rw [hBound] at hListener
      have hSome := hCoherent l hListener
      rw [hBound] at hSome
      cases hSome
  | some bound =>
      simp only [hBound] at hListener
      by_cases hSame : p = port
      · rw [if_pos hSame] at hListener
        exact ⟨⟨l, hListener, hAt, hIp⟩, hSame⟩
      · rw [if_neg hSame] at hListener
        cases hListener
        by_cases hZero : p = 0
        · rw [if_pos hZero] at hAt
          exact absurd hAt (by simp)
        · rw [if_neg hZero] at hAt
          exact absurd hAt hSame

/-- A server that is reached after hostile binds was reached before, and was
asked for no other port. -/
theorem serves_of_settled {ip : IpAddr} {port : UInt16} {queue : List ServerCommand}
    {s : ServerState} (hCoherent : s.Coherent)
    (hBinds : ∀ command ∈ queue, isBind command = false)
    (hShutdown : .shutdown ∉ queue) (h : Serves ip port (queue.foldl (settle port) s)) :
    Serves ip port s ∧ SetsOnly port queue := by
  induction queue generalizing s with
  | nil => exact ⟨h, fun p hMem => absurd hMem List.not_mem_nil⟩
  | cons command queue ih =>
      have hNotShutdown : command ≠ .shutdown := by
        rintro rfl
        exact hShutdown List.mem_cons_self
      have hProcess := processes_settle port s (hBinds command List.mem_cons_self) hNotShutdown
      obtain ⟨hAfter, hSets⟩ := ih (hCoherent.processes hProcess)
        (fun later hMem => hBinds later (List.mem_cons_of_mem _ hMem))
        (fun hMem => hShutdown (List.mem_cons_of_mem _ hMem)) h
      have hBefore : Serves ip port s ∧ ∀ p, command = .setPort p → p = port := by
        cases command with
        | setSource | attachScreenStream => exact ⟨hAfter, nofun⟩
        | setBindAddr | shutdown => exact ⟨hAfter, nofun⟩
        | setPort p =>
            obtain ⟨hServes, rfl⟩ := serves_of_setPort hCoherent hAfter
            refine ⟨hServes, ?_⟩
            rintro _ ⟨⟩
            rfl
      refine ⟨hBefore.1, fun p hMem => ?_⟩
      rcases List.mem_cons.mp hMem with hHere | hLater
      · exact hBefore.2 p hHere.symm
      · exact hSets p hLater

/-- The server may process its whole queue under hostile binds. -/
theorem path_settle {port : UInt16} {c : BackendState} {queue : List ServerCommand}
    {later : List BackendMove} {control : Control supervisorSig SupervisorState} {w : World}
    (hPath : Path (backend parsePacket urlPath discovery initialPort) c later (control, w))
    (hRunning : w.server.running = true) (hQueue : w.server.queue = queue)
    (hBinds : ∀ command ∈ queue, isBind command = false) (hShutdown : .shutdown ∉ queue) :
    ∃ more w', Path (backend parsePacket urlPath discovery initialPort) c more (control, w') ∧
      w'.server.running = true ∧ w'.server.processed = w.server.processed ++ queue ∧
        w'.server.state = queue.foldl (settle port) w.server.state := by
  induction queue generalizing w later with
  | nil => exact ⟨later, w, hPath, hRunning, (List.append_nil _).symm, rfl⟩
  | cons command queue ih =>
      have hNotShutdown : command ≠ .shutdown := by
        rintro rfl
        exact hShutdown List.mem_cons_self
      have hProcess := processes_settle port w.server.state (hBinds command List.mem_cons_self)
        hNotShutdown
      have hNext := hPath.step (.move (.server (.process hRunning hQueue hProcess)))
      obtain ⟨more, w', hEnd, hStill, hProcessed, hState⟩ := ih hNext hRunning rfl
        (fun later hMem => hBinds later (List.mem_cons_of_mem _ hMem))
        (fun hMem => hShutdown (List.mem_cons_of_mem _ hMem))
      refine ⟨more, w', hEnd, hStill, ?_, hState⟩
      rw [hProcessed, List.append_assoc, List.singleton_append]

/-! ## The theorem -/

/-- **Once the server has processed everything sent before a `LOAD`** it is
reached at the URL of the `LOAD`, in whatever follows, exactly when at the
`LOAD` a running server is reached there and no other port waits in its
queue. -/
theorem load_served_iff {trace : List BackendMove} {c c' : BackendState}
    {request : Session.LoadRequest} {r : Unit}
    (hRun : Run (backend parsePacket urlPath discovery initialPort) trace c)
    (hLoad : (backend parsePacket urlPath discovery initialPort).step c
      (.answer ⟨.cast (.load request), r⟩) c') :
    ∃ ip port, port ≠ 0 ∧ request.contentId = streamUrl ip port ∧
      ((∀ later c'', Path (backend parsePacket urlPath discovery initialPort) c' later c'' →
          c''.2.server.running = true →
            c''.2.server.processed.length = c.2.server.log.length →
              Serves ip port c''.2.server.state) ↔
        (c.2.server.running = true →
          Serves ip port c.2.server.state ∧ SetsOnly port c.2.server.queue)) := by
  obtain ⟨ph, hSpoken⟩ := run_spoken hRun
  obtain ⟨ph', hLeads, hSpoken'⟩ := hSpoken.step hLoad
  have hCoherent := run_coherent hRun
  have hServer : c'.2.server = c.2.server := by
    cases hLoad with
    | answer hAnswer =>
        cases hAnswer
        rfl
  cases hLeads with
  | plain hPlain => exact hPlain.elim
  | load ip port source hPort =>
      refine ⟨ip, port, hPort, by cases source <;> rfl, ?_⟩
      have hBinds : ∀ command ∈ c.2.server.queue, isBind command = false := by
        have hSettled := (hSpoken.agrees.settled (by decide)).1
        intro command hMem
        exact Bool.eq_false_iff.mpr (List.countP_eq_zero.mp hSettled command hMem)
      have hShutdown := hSpoken.agrees.unclosed (by decide)
      constructor
      · intro hAll hRunning
        have hNil : Path (backend parsePacket urlPath discovery initialPort) c' [] (c'.1, c'.2) :=
          .nil
        obtain ⟨more, w', hPath, hStill, hProcessed, hState⟩ := @path_settle _ _ _ _ port _ _ _ _ _ hNil
          (by rw [hServer]; exact hRunning) (congrArg ServerTask.queue hServer) hBinds hShutdown
        rw [hServer] at hProcessed hState
        have hServes := hAll more _ hPath hStill (congrArg List.length hProcessed)
        rw [hState] at hServes
        exact serves_of_settled hCoherent hBinds hShutdown hServes
      · intro hNow later c'' hPath hRunning hProcessed
        have hSettling : Settling ip port c.2.server.log.length c'.2.server := by
          rw [hServer]
          intro hStarted _
          obtain ⟨hServes, hSets⟩ := hNow hStarted
          refine ⟨hServes, c.2.server.queue, [], (List.append_nil _).symm, ?_, hSets, hBinds⟩
          exact List.length_append.symm
        have hSettled := path_settling hPort hSpoken' (by decide)
          (by rw [hServer]; exact hCoherent) hSettling hPath
        exact (hSettled hRunning (Nat.le_of_eq hProcessed)).1

/-! ## A URL nobody listens at -/

section Rebinding

/-- The backend of the runs below: no display, no discovery, port 8010. -/
abbrev quiet : System BackendState (Label supervisorSig Branch Step) :=
  backend (fun _ => .ok []) (fun _ => none) (.error ⟨.other, ""⟩) 8010

/-- A supervisor with something to play, for the receivers reached from `ip`. -/
def withFile (ip : BitVec 32) : SupervisorState :=
  { started ip 8010 with currentSource := some (.file "a.mp4") }

variable {trace : List BackendMove} {w : World} {ip : BitVec 32}

/-- A file is chosen and the server takes note of it. -/
theorem run_selectFile (hRun : Run quiet trace (.parked (started ip 8010), w))
    (hRunning : w.server.running = true) (hQueue : w.server.queue = []) :
    ∃ more w', Run quiet (trace ++ more) (.parked (withFile ip), w') ∧
      w'.server.running = true ∧ w'.server.queue = [] := by
  have h₁ := run_fire (.command (some (.selectFile "a.mp4"))) hRun (.command _)
  have h₂ := run_answer (.server (.setSource (.file "a.mp4"))) () h₁ .server
  have hTold : (w.server.tell (.setSource (.file "a.mp4"))).queue = [.setSource (.file "a.mp4")] := by
    unfold ServerTask.tell
    rw [hRunning, hQueue]
    rfl
  have h₃ := run_move .server h₂ (.server (.process hRunning hTold (.setSource _)))
  have h₄ := run_park h₃
  simp only [List.append_assoc] at h₄
  exact ⟨_, _, h₄, hRunning, rfl⟩

/-- A receiver is entered by hand, and the bind for it comes to `result`. -/
theorem run_manualConnect (addr : SocketAddr) (ip' : BitVec 32) (result : BindResult)
    (hFits : result.Fits 8010) (hRun : Run quiet trace (.parked (withFile ip), w))
    (hRunning : w.server.running = true) (hQueue : w.server.queue = []) :
    ∃ more w', Run quiet (trace ++ more) (.parked (withFile ip'), w') ∧
      w'.server.running = true ∧ w'.server.queue = [] ∧
        w'.server.state = (w.server.state.setBindAddr ⟨.v4 ip', 8010⟩ result).1 := by
  have h₁ := run_fire (.command (some (.manualConnect addr))) hRun (.command _)
  have h₂ := run_answer (.selectLanIp (some addr.ip)) ip' h₁ (.selectLanIp ip')
  have h₃ := run_answer (.cast (.select (CastDevice.fromManualAddr addr))) () h₂ .cast
  have h₄ := run_answer (.server (.setBindAddr ⟨.v4 ip', 8010⟩)) () h₃ .server
  have hTold : (w.server.tell (.setBindAddr ⟨.v4 ip', 8010⟩)).queue =
      [.setBindAddr ⟨.v4 ip', 8010⟩] := by
    unfold ServerTask.tell
    rw [hRunning, hQueue]
    rfl
  have h₅ := run_move .server h₄
    (.server (.process hRunning hTold (.setBindAddr ⟨.v4 ip', 8010⟩ result hFits)))
  cases result with
  | ok actual =>
      have h₆ := run_answer .awaitAck (some (.ok ())) h₅ (.acked rfl)
      have h₇ := run_park h₆
      simp only [List.append_assoc] at h₇
      exact ⟨_, _, h₇, hRunning, rfl, rfl⟩
  | error error =>
      have h₆ := run_answer .awaitAck (some (.error error)) h₅ (.acked rfl)
      have h₇ := run_park h₆
      simp only [List.append_assoc] at h₇
      exact ⟨_, _, h₇, hRunning, rfl, rfl⟩

/-- The first receiver is reached, and a file is ready to be played to it. -/
theorem run_bound : ∃ trace w, Run quiet trace (.parked (withFile 0xC0A80102), w) ∧
    w.server.running = true ∧ w.server.queue = [] ∧
      w.server.state.listener = some ⟨.v4 0xC0A80102, 8010⟩ ∧
        w.server.state.boundPort = 8010 := by
  have hStart : Run quiet [] _ := run_start
  obtain ⟨_, hStarted, -⟩ := run_startUp 0 hStart
  obtain ⟨_, w₁, hFile, hRunning₁, hQueue₁⟩ := run_selectFile hStarted rfl rfl
  obtain ⟨_, w₂, hBound, hRunning₂, hQueue₂, hState₂⟩ :=
    run_manualConnect ⟨.v4 0xC0A80105, 8009⟩ 0xC0A80102 (.ok 8010) (fun _ => rfl) hFile
      hRunning₁ hQueue₁
  exact ⟨_, w₂, hBound, hRunning₂, hQueue₂, by rw [hState₂]; rfl, by rw [hState₂]; rfl⟩

/-- `Play` reads the published port and enqueues the `LOAD`. -/
theorem run_play (hRun : Run quiet trace (.parked (withFile ip), w))
    (hPort : w.server.state.boundPort = 8010) :
    ∃ trace c c' request, Run quiet trace c ∧
      quiet.step c (.answer ⟨.cast (.load request), ()⟩) c' ∧ c'.2 = w ∧ c.2 = w := by
  have h₁ := run_fire (.command (some .play)) hRun (.command _)
  have hAnswer : Answers (fun _ => .ok []) w .boundPort 8010 w := by
    rw [← hPort]
    exact .boundPort
  have h₂ := run_answer .boundPort 8010 h₁ hAnswer
  exact ⟨_, _, _, _, h₂, .answer .cast, rfl, rfl⟩

/-- A `LOAD` while nothing went wrong. -/
theorem play_served :
    ∃ trace c c' request, Run quiet trace c ∧
      quiet.step c (.answer ⟨.cast (.load request), ()⟩) c' ∧
        ∃ ip port, port ≠ 0 ∧ request.contentId = streamUrl ip port ∧
          ((∀ later c'', Path quiet c' later c'' → c''.2.server.running = true →
              c''.2.server.processed.length = c.2.server.log.length →
                Serves ip port c''.2.server.state) ↔
            (c.2.server.running = true →
              Serves ip port c.2.server.state ∧ SetsOnly port c.2.server.queue)) := by
  obtain ⟨_, w, hBound, -, -, -, hPort⟩ := run_bound
  obtain ⟨trace, c, c', request, hRun, hLoad, -, -⟩ := run_play hBound hPort
  exact ⟨trace, c, c', request, hRun, hLoad, load_served_iff hRun hLoad⟩

/-- A second rebind fails, and what is played is nowhere to be loaded. -/
theorem load_unserved :
    ¬ ∀ trace c c' request, Run quiet trace c →
      quiet.step c (.answer ⟨.cast (.load request), ()⟩) c' →
        ∃ ip port, request.contentId = streamUrl ip port ∧
          ∀ later c'', Path quiet c' later c'' → c''.2.server.running = true →
            c''.2.server.processed.length = c.2.server.log.length →
              Serves ip port c''.2.server.state := by
  intro hAll
  obtain ⟨_, w₁, hBound, hRunning₁, hQueue₁, -, hPort₁⟩ := run_bound
  obtain ⟨_, w₂, hFailed, hRunning₂, hQueue₂, hState₂⟩ :=
    run_manualConnect ⟨.v4 0xC0A80106, 8009⟩ 0xC0A80102 (.error ⟨.other, "in use"⟩) trivial hBound
      hRunning₁ hQueue₁
  have hPort₂ : w₂.server.state.boundPort = 8010 := by
    rw [hState₂]
    exact hPort₁
  obtain ⟨trace, c, c', request, hRun, hLoad, hAfter, hBefore⟩ := run_play hFailed hPort₂
  obtain ⟨ip, port, -, hServed⟩ := hAll trace c c' request hRun hLoad
  have hProcessed : c'.2.server.processed.length = c.2.server.log.length := by
    unfold ServerTask.log
    rw [hAfter, hBefore, hQueue₂, List.append_nil]
  obtain ⟨l, hListener, -⟩ := hServed [] c' .nil (by rw [hAfter]; exact hRunning₂) hProcessed
  rw [hAfter, hState₂] at hListener
  cases hListener

end Rebinding

end CastApp.Runtime.StreamUrl
