import CastApp.Runtime.Backend
import CastApp.Verified.Subscription

/-!
# Who sees the shutdown of the backend

The supervisor, the discovery loops and the portal waits each take a receiver
of the token and wait for it to change.  A receiver counts what was published
before it was taken as seen.

* **`shutdown_seen`** — in a run in which every receiver is taken from a
  running token, the wait of every parked task is ready from the trigger on,
  and the supervisor waits for no discovery loop that cannot learn of it.
* `late_subscribe` — a trigger during the start of the supervisor finds it
  parked and not ready.
-/

namespace CastApp.Runtime.ShutdownObservers

open CastApp.Cast
open CastApp.Runtime.Backend
open CastApp.Runtime.Supervisor
open CastApp.Screen.Portal (PortalThread AbortSignal)
open CastApp.State
open CastApp.Util
open CastApp.Verified.Coroutine
open CastApp.Verified.EventLoop
open CastApp.Verified.Subscription
open CastApp.Verified.Transition
open CastApp.Verified.WatchChannel

/-! ## Being seen -/

/-- Discovery loop `k` goes on and has nothing left to wait for: it missed the
trigger, and the rescan sender is kept. -/
structure Stuck (k : Nat) (w : World) : Prop where
  triggered : w.token.isShuttingDown = true
  held : w.rescanHeld = true
  loop : ∃ task r, w.discovery[k]? = some task ∧ task.receiver = some r ∧
    ¬ r.Ready w.token ∧
      ((∃ devices, task.control = .parked devices) ∨
        ∃ p, task.control = .running p ∧ NeverExits p)

/-- Everybody who is parked can go on, and no stuck loop is waited for. -/
structure Observed (c : BackendState) : Prop where
  supervisor : ∀ state, c.1 = .parked state → ∃ r, c.2.receiver = some r ∧ r.Ready c.2.token
  discovery : ∀ task ∈ c.2.discovery, ∀ devices, task.control = .parked devices →
    ∃ r, task.receiver = some r ∧ r.Ready c.2.token
  portals : ∀ thread ∈ c.2.portals, ∀ wait, thread.control = .parked wait →
    (thread.signal c.2.token).shutdown.isShuttingDown = true →
      (thread.signal c.2.token).WaitReady thread.receiver
  awaited : ∀ resume, c.1 = .running (.await .awaitDiscovery resume) →
    ∀ k, ¬ Stuck k c.2

/-- The receivers taken by a step: the one of the supervisor, that of a
discovery loop, and that of a portal wait whose stop flag is not set yet. -/
def TakesReceiver (m : BackendMove) : Prop :=
  (∃ r, m.label = .answer ⟨.subscribe, r⟩) ∨
    (∃ k r, m.label = .move (.discovery k (.answer ⟨.subscribe, r⟩))) ∨
      ∃ k thread, m.label = .move (.portal k (some .park)) ∧
        m.pre.2.portals[k]? = some thread ∧ thread.method = .start ∧ thread.stop = false

/-- Every receiver was taken from a running token. -/
def SubscribesInTime (trace : List BackendMove) : Prop :=
  ∀ m ∈ trace, TakesReceiver m → m.pre.2.token.isShuttingDown = false

/-! ## The loops subscribe -/

section Loops

variable (urlPath : UrlPath) (discovery : Except IoError Unit) (initialPort : UInt16)
variable (parsePacket : List Byte → Except Mdns.DnsError (List Mdns.DiscoveredDevice))

theorem reaches_startUp : Reaches (S := supervisorSig) .subscribe (startUp discovery initialPort) :=
  .bind_right _ fun _ => .bind_right _ fun _ => .bind_right _ fun _ => .bind_right _ fun _ =>
    .bind_right _ fun _ => .bind_right _ fun _ => .bind_right _ fun _ =>
      .bind_left reaches_perform _

theorem supervise_subscribes :
    Subscribes (supervise urlPath discovery initialPort) .subscribe (· = .shutdown) where
  first := ((reaches_startUp discovery initialPort).bind_left _).awaits
  leaves := by
    rintro state b rfl
    exact .bind _ neverParks_exit

theorem runWithDest_subscribes :
    Subscribes (Mdns.runWithDest parsePacket) .subscribe (· = .shutdown false true) where
  first := by
    rintro ops devices ⟨converted, rest, rfl, hRest⟩
    cases converted with
    | error e =>
        obtain ⟨-, hExit⟩ := hRest
        cases hExit
    | ok =>
        obtain ⟨r, rest, rfl, -⟩ := hRest
        exact ⟨⟨.subscribe, r⟩, by simp, rfl⟩
  leaves := by
    rintro devices b rfl
    exact neverParks_exit devices

theorem surroundings_keepsReceiver :
    KeepsReceiver (surroundings parsePacket) .subscribe (· = .shutdown) World.receiver where
  answers := by
    intro w op r w' h hOther
    cases h with
    | subscribe => exact absurd rfl hOther
    | stopScreen =>
        unfold World.stopPipeline
        cases w.pipeline <;> rfl
    | _ => rfl
  parks := by
    rintro w state w' rfl
    rfl
  fires := by
    intro w state b w' r h _ _
    cases h with
    | shutdown => exact .inr rfl
    | _ => exact .inl rfl
  moves := by
    intro w step w' h
    cases h <;> rfl

theorem mdns_keepsReceiver {token : Shutdown} (hToken : token.WellFormed) (rescanHeld : Bool) :
    KeepsReceiver (Mdns.surroundings token rescanHeld) .subscribe (· = .shutdown false true)
      id where
  answers := by
    intro receiver op r receiver' h hOther
    cases h with
    | subscribe => exact absurd rfl hOther
    | fromStd | sendTo | emit => rfl
  parks := id
  fires := by
    rintro receiver devices b receiver' r h rfl hSeen
    cases h with
    | shutdown hReceiver hReady =>
        cases hReceiver
        right
        cases hValue : token.isShuttingDown with
        | true => rfl
        | false => exact absurd hReady (Shutdown.not_ready_of_running hToken hSeen hValue)
    | tick | rescan | closed | recv => exact .inl rfl
  moves := False.elim

end Loops

/-! ## Everybody listens -/

/-- A thread parked at `Start` was told to stop, or holds a receiver that has
seen nothing. -/
def PortalListens (thread : PortalThread) : Prop :=
  ∀ wait, thread.control = .parked wait → thread.method = .start →
    thread.stop = true ∨ ∃ r, thread.receiver = some r ∧ r.seen = 0

/-- The tasks of the backend other than the supervisor listen. -/
structure TasksListen (w : World) : Prop where
  token : w.token.WellFormed
  discovery : ∀ task ∈ w.discovery, Listens (S := Mdns.mdnsSig) .subscribe task.control task.receiver
  portals : ∀ thread ∈ w.portals, PortalListens thread

namespace TasksListen

variable {parsePacket : List Byte → Except Mdns.DnsError (List Mdns.DiscoveredDevice)}
variable {w w' : World}

theorem new : TasksListen .new where
  token := Shutdown.wellFormed_new
  discovery := fun _ h => absurd h List.not_mem_nil
  portals := fun _ h => absurd h List.not_mem_nil

theorem calling (method : Screen.Portal.Method) (stop : Bool) :
    PortalListens (.calling method stop) := by
  intro wait hParked
  cases hParked

theorem stopped {thread : PortalThread} : PortalListens { thread with stop := true } :=
  fun _ _ _ => .inl rfl

/-- Setting a stop flag keeps everybody listening. -/
theorem stopPortal (h : TasksListen w) (k : Nat) : TasksListen (w.stopPortal k) where
  token := h.token
  discovery := h.discovery
  portals := by
    intro thread hMem
    obtain ⟨j, hLt, rfl⟩ := List.getElem_of_mem hMem
    have hLt' : j < w.portals.length := by simpa [World.stopPortal] using hLt
    simp only [World.stopPortal, List.getElem_modify]
    by_cases hHere : k = j
    · rw [if_pos hHere]
      exact stopped
    · rw [if_neg hHere]
      exact h.portals _ (List.getElem_mem hLt')

theorem answers {op : Op} {r : op.Ans} (h : TasksListen w)
    (hAnswers : Answers parsePacket w op r w') : TasksListen w' := by
  cases hAnswers with
  | spawnDiscovery =>
      refine ⟨h.token, fun task hMem => ?_, h.portals⟩
      rcases List.mem_append.mp hMem with hOld | hNew
      · exact h.discovery task hOld
      · rw [List.mem_singleton.mp hNew]
        exact (runWithDest_subscribes parsePacket).listens
  | started result stream portal =>
      refine ⟨h.token, h.discovery, fun thread hMem => ?_⟩
      cases portal with
      | false => exact h.portals thread hMem
      | true =>
          rcases List.mem_append.mp hMem with hOld | hNew
          · exact h.portals thread hOld
          · rw [List.mem_singleton.mp hNew]
            exact calling _ _
  | stopScreen =>
      unfold World.stopPipeline
      cases w.pipeline with
      | none => exact h
      | some k => exact h.stopPortal k
  | _ => exact ⟨h.token, h.discovery, h.portals⟩

theorem fires {b : Branch} (h : TasksListen w) (hFires : Fires w b w') : TasksListen w' := by
  cases hFires <;> exact ⟨h.token, h.discovery, h.portals⟩

/-- A discovery loop takes a step. -/
theorem discovery_step {k : Nat} {task : DiscoveryTask}
    {label : Label Mdns.mdnsSig Mdns.Branch Empty}
    {control' : Control Mdns.mdnsSig Mdns.DeviceTable} {receiver' : Option Receiver}
    (h : TasksListen w) (hTask : w.discovery[k]? = some task)
    (hStep : SmallStep (Mdns.runWithDest parsePacket) (Mdns.surroundings w.token w.rescanHeld)
      (task.control, task.receiver) label (control', receiver'))
    (hInTime : ∀ r, label = .answer ⟨.subscribe, r⟩ → w.token.isShuttingDown = false) :
    TasksListen { w with discovery := w.discovery.set k ⟨control', receiver'⟩ } where
  token := h.token
  portals := h.portals
  discovery := by
    have hBefore := h.discovery task (List.mem_of_getElem? hTask)
    have hAfter : Listens (S := Mdns.mdnsSig) .subscribe control' receiver' := by
      refine hBefore.step (runWithDest_subscribes parsePacket)
        (mdns_keepsReceiver h.token w.rescanHeld) hStep fun r hLabel => ?_
      subst hLabel
      have hRunning := hInTime r rfl
      generalize task.control = control at hStep
      cases hStep with
      | answer hAnswer =>
          cases hAnswer
          exact ⟨_, rfl, Shutdown.subscribe_unseen h.token hRunning⟩
    intro other hMem
    rcases List.mem_or_eq_of_mem_set hMem with hOld | rfl
    · exact h.discovery other hOld
    · exact hAfter

/-- A controller thread takes a step at the portal. -/
theorem portal_step {k : Nat} {thread thread' : PortalThread}
    {label : Option (Label Screen.Portal.portalSig Screen.Portal.Branch Empty)}
    (h : TasksListen w) (hThread : w.portals[k]? = some thread)
    (hStep : thread.Step w.token label thread')
    (hInTime : label = some .park → thread.method = .start → thread.stop = false →
      w.token.isShuttingDown = false) : TasksListen (w.setPortal k thread') where
  token := h.token
  discovery := h.discovery
  portals := by
    have hBefore := h.portals thread (List.mem_of_getElem? hThread)
    have hAfter : PortalListens thread' := by
      cases hStep with
      | next => exact calling _ _
      | @request label control' receiver' hRequest =>
          intro wait hParked hMethod
          change control' = .parked wait at hParked
          subst hParked
          generalize hControl : thread.control = control at hRequest
          cases hRequest with
          | park hPark =>
              cases hPark
              by_cases hStop : thread.stop = true
              · exact .inl hStop
              · have hStop : thread.stop = false := Bool.eq_false_iff.mpr hStop
                have hRunning := hInTime rfl hMethod hStop
                have hToken : (thread.signal w.token).shutdown = w.token := by
                  unfold PortalThread.signal
                  rw [show thread.method = .start from hMethod]
                refine .inr ⟨_, rfl, ?_⟩
                rw [hToken]
                exact Shutdown.subscribe_unseen h.token hRunning
          | move hMove => exact hMove.elim
    intro other hMem
    rcases List.mem_or_eq_of_mem_set hMem with hOld | rfl
    · exact h.portals other hOld
    · exact hAfter

theorem moves {step : Step} (h : TasksListen w) (hMoves : Moves parsePacket w step w')
    (hDiscovery : ∀ k r, step = .discovery k (.answer ⟨.subscribe, r⟩) →
      w.token.isShuttingDown = false)
    (hPortal : ∀ k thread, step = .portal k (some .park) → w.portals[k]? = some thread →
      thread.method = .start → thread.stop = false → w.token.isShuttingDown = false) :
    TasksListen w' := by
  cases hMoves with
  | trigger => exact ⟨Shutdown.wellFormed_trigger w.token, h.discovery, h.portals⟩
  | @discovery k task label control' receiver' hTask hStep =>
      refine h.discovery_step hTask hStep fun r hLabel => ?_
      subst hLabel
      exact hDiscovery k r rfl
  | @portal k thread thread' label hThread hStep =>
      refine h.portal_step hThread hStep fun hLabel => ?_
      subst hLabel
      exact hPortal k thread rfl hThread
  | stopPortal k => exact h.stopPortal k
  | server => exact ⟨h.token, h.discovery, h.portals⟩

end TasksListen

variable {parsePacket : List Byte → Except Mdns.DnsError (List Mdns.DiscoveredDevice)}
variable {urlPath : UrlPath} {discovery : Except IoError Unit} {initialPort : UInt16}

/-- All of them, the supervisor included. -/
structure Listening (c : BackendState) : Prop where
  supervisor : Listens (S := supervisorSig) .subscribe c.1 c.2.receiver
  tasks : TasksListen c.2

/-- A step that takes no receiver late keeps everybody listening. -/
theorem Listening.step {c c' : BackendState} {label : Label supervisorSig Branch Step}
    (h : Listening c)
    (hStep : (backend parsePacket urlPath discovery initialPort).step c label c')
    (hInTime : TakesReceiver ⟨c, label, c'⟩ → c.2.token.isShuttingDown = false) :
    Listening c' := by
  have hSupervisor : Listens (S := supervisorSig) .subscribe c'.1 c'.2.receiver := by
    refine h.supervisor.step (supervise_subscribes urlPath discovery initialPort)
      (surroundings_keepsReceiver parsePacket) hStep fun r hLabel => ?_
    subst hLabel
    have hRunning := hInTime (.inl ⟨r, rfl⟩)
    generalize c.1 = control at hStep
    cases hStep with
    | answer hAnswer =>
        cases hAnswer
        exact ⟨_, rfl, Shutdown.subscribe_unseen h.tasks.token hRunning⟩
  refine ⟨hSupervisor, ?_⟩
  cases hStep with
  | answer hAnswer => exact h.tasks.answers hAnswer
  | park hPark =>
      cases hPark
      exact h.tasks
  | fire _ hFire => exact h.tasks.fires hFire
  | exit | fault => exact h.tasks
  | move hMove =>
      refine h.tasks.moves hMove (fun k r hLabel => hInTime (.inr (.inl ⟨k, r, ?_⟩)))
        fun k thread hLabel hThread hMethod hStop =>
          hInTime (.inr (.inr ⟨k, thread, ?_, hThread, hMethod, hStop⟩))
      · rw [hLabel]
      · rw [hLabel]

theorem run_listening {trace : List BackendMove} {c : BackendState}
    (hRun : Run (backend parsePacket urlPath discovery initialPort) trace c)
    (hInTime : SubscribesInTime trace) : Listening c := by
  refine hRun.traceInvariant (I := fun trace c => SubscribesInTime trace → Listening c)
    ?_ ?_ hInTime
  · rintro ⟨control, w⟩ ⟨rfl, rfl⟩ -
    exact ⟨(supervise_subscribes urlPath discovery initialPort).listens, .new⟩
  · intro trace c label c' _ hBefore hStep hInTime
    have hEarlier : SubscribesInTime trace :=
      fun m hMem => hInTime m (List.mem_append_left _ hMem)
    exact (hBefore hEarlier).step hStep
      (hInTime ⟨c, label, c'⟩ (List.mem_append_right _ (List.mem_singleton.mpr rfl)))

/-- The operations of a discovery loop have answers. -/
def anyAnswer : Oracle Mdns.mdnsSig
  | .fromStd | .sendTo _ => .ok ()
  | .subscribe | .emit _ => ()

/-- Once the token is triggered, everybody who listens is ready. -/
theorem Listening.observed {c : BackendState} (h : Listening c)
    (hTriggered : c.2.token.isShuttingDown = true) : Observed c := by
  have hReady : ∀ r : Receiver, r.seen = 0 → r.Ready c.2.token := fun r hSeen =>
    Shutdown.ready_of_unseen h.tasks.token hSeen hTriggered
  constructor
  · intro state hParked
    have hListens := h.supervisor
    rw [hParked] at hListens
    obtain ⟨r, hReceiver, hSeen⟩ := hListens.parked
    exact ⟨r, hReceiver, hReady r hSeen⟩
  · intro task hMem devices hParked
    have hListens := h.tasks.discovery task hMem
    rw [hParked] at hListens
    obtain ⟨r, hReceiver, hSeen⟩ := hListens.parked
    exact ⟨r, hReceiver, hReady r hSeen⟩
  · intro thread hMem wait hParked hSignal
    have hListens := h.tasks.portals thread hMem wait hParked
    unfold PortalThread.signal at hSignal ⊢
    cases hMethod : thread.method with
    | createSession | selectSources =>
        rw [hMethod] at hSignal
        cases hSignal
    | start =>
        rcases hListens hMethod with hStop | ⟨r, hReceiver, hSeen⟩
        · exact .inl hStop
        · exact .inr ⟨r, hReceiver, hReady r hSeen⟩
  · rintro resume - k ⟨-, -, task, r, hTask, hReceiver, hMissed, hGoesOn⟩
    have hListens := h.tasks.discovery task (List.mem_of_getElem? hTask)
    rw [hReceiver] at hListens
    generalize task.control = control at hListens hGoesOn
    cases hListens with
    | fresh hSeen => exact hMissed (hReady r hSeen)
    | leaving hNever =>
        rcases hGoesOn with ⟨devices, hControl⟩ | ⟨p, hControl, hGoesOn⟩
        · cases hControl
        · cases hControl
          exact parks_or_exits anyAnswer Empty.elim hNever hGoesOn
    | exited | faulted =>
        rcases hGoesOn with ⟨devices, hControl⟩ | ⟨p, hControl, -⟩
        · cases hControl
        · cases hControl

/-- **In a run in which every receiver is taken from a running token**,
whenever the token is triggered the wait of every parked task is ready, and
the supervisor awaits no stuck discovery loop. -/
theorem shutdown_seen {trace : List BackendMove} {c : BackendState}
    (hRun : Run (backend parsePacket urlPath discovery initialPort) trace c)
    (hInTime : SubscribesInTime trace) (hTriggered : c.2.token.isShuttingDown = true) :
    Observed c :=
  (run_listening hRun hInTime).observed hTriggered

/-- A trigger while everybody is parked is seen. -/
theorem trigger_while_idle :
    ∃ trace c, Run (backend (fun _ => .ok []) (fun _ => none) (.error ⟨.other, ""⟩) 8010) trace c ∧
      c.2.token.isShuttingDown = true ∧ Observed c := by
  have hStart : Run (backend (fun _ => .ok []) (fun _ => none) (.error ⟨.other, ""⟩) 8010) [] _ :=
    run_start
  obtain ⟨more, hIdle, hTokens⟩ := run_startUp 0 hStart
  have hTriggered := run_move .trigger hIdle (.trigger rfl)
  refine ⟨_, _, hTriggered, rfl, shutdown_seen hTriggered ?_ rfl⟩
  intro m hMem _
  rcases List.mem_append.mp hMem with hMem | hMem
  · rw [(hTokens m hMem).1]
    rfl
  · rw [List.mem_singleton.mp hMem]
    rfl

/-! ## Being missed -/

namespace Stuck

variable {k : Nat} {w w' : World}

theorem not_ended (h : Stuck k w) : ¬ ∀ task ∈ w.discovery, task.Ended := by
  intro hEnded
  obtain ⟨task, r, hTask, -, -, hGoesOn⟩ := h.loop
  rcases hEnded task (List.mem_of_getElem? hTask) with ⟨devices, hExited⟩ | ⟨reason, -⟩
  · rw [hExited] at hGoesOn
    rcases hGoesOn with ⟨_, hControl⟩ | ⟨_, hControl, -⟩ <;> cases hControl
  · exact reason.elim

/-- Nothing the supervisor does concerns the loop, but that it gives up the
rescan sender at its end. -/
theorem keeps (h : Stuck k w) (hToken : w'.token = w.token) (hHeld : w'.rescanHeld = w.rescanHeld)
    (hDiscovery : ∃ more, w'.discovery = w.discovery ++ more) : Stuck k w' := by
  obtain ⟨task, r, hTask, hReceiver, hMissed, hGoesOn⟩ := h.loop
  obtain ⟨more, hMore⟩ := hDiscovery
  refine ⟨hToken ▸ h.triggered, hHeld ▸ h.held, task, r, ?_, hReceiver, hToken ▸ hMissed, hGoesOn⟩
  have hLt : k < w.discovery.length := (List.getElem?_eq_some_iff.mp hTask).1
  rw [hMore, List.getElem?_append_left hLt]
  exact hTask

theorem answers {op : Op} {r : op.Ans} (h : Stuck k w) (hAnswers : Answers parsePacket w op r w')
    (hOp : op ≠ .finish) : Stuck k w' ∧ op ≠ .awaitDiscovery := by
  cases hAnswers with
  | finish => exact absurd rfl hOp
  | awaitDiscovery hEnded => exact absurd hEnded h.not_ended
  | spawnDiscovery => exact ⟨h.keeps rfl rfl ⟨_, rfl⟩, nofun⟩
  | stopScreen =>
      refine ⟨?_, nofun⟩
      unfold World.stopPipeline
      cases w.pipeline with
      | none => exact h
      | some k => exact h.keeps rfl rfl ⟨[], (List.append_nil _).symm⟩
  | _ => exact ⟨h.keeps rfl rfl ⟨[], (List.append_nil _).symm⟩, nofun⟩

theorem fires {b : Branch} (h : Stuck k w) (hFires : Fires w b w') : Stuck k w' := by
  cases hFires <;> exact h.keeps rfl rfl ⟨[], (List.append_nil _).symm⟩

/-- The branches that do not end the loop lead back to its `select!`. -/
theorem branchBody_neverExits (devices : Mdns.DeviceTable) {token : Shutdown}
    {receiver receiver' : Option Receiver} {b : Mdns.Branch}
    (hFires : Mdns.Fires token true receiver b receiver')
    (hMissed : ∀ r, receiver = some r → ¬ r.Ready token) :
    NeverExits (Mdns.branchBody parsePacket devices b) ∧ receiver' = receiver := by
  cases hFires with
  | shutdown hReceiver hReady => exact absurd hReady (hMissed _ hReceiver)
  | closed hHeld => cases hHeld
  | tick =>
      refine ⟨.bind _ fun _ => ?_, rfl⟩
      by_cases hExpired : (Mdns.expireCycle devices).2 = true
      · simp only [hExpired, if_true]
        exact .bind _ fun _ => neverExits_park _
      · simp only [hExpired]
        exact neverExits_park _
  | rescan => exact ⟨.bind _ fun _ => neverExits_park _, rfl⟩
  | recv => exact ⟨.bind _ fun _ => neverExits_park _, rfl⟩

/-- The loop itself takes a step. -/
theorem loop_step {task : DiscoveryTask} {r : Receiver} {token : Shutdown}
    {label : Label Mdns.mdnsSig Mdns.Branch Empty}
    {control' : Control Mdns.mdnsSig Mdns.DeviceTable} {receiver' : Option Receiver}
    (hReceiver : task.receiver = some r) (hMissed : ¬ r.Ready token)
    (hGoesOn : (∃ devices, task.control = .parked devices) ∨
      ∃ p, task.control = .running p ∧ NeverExits p)
    (hStep : SmallStep (Mdns.runWithDest parsePacket) (Mdns.surroundings token true)
      (task.control, task.receiver) label (control', receiver')) :
    (∃ r', receiver' = some r' ∧ ¬ r'.Ready token) ∧
      ((∃ devices, control' = .parked devices) ∨
        ∃ p, control' = .running p ∧ NeverExits p) := by
  generalize task.control = control at hGoesOn hStep
  rw [hReceiver] at hStep
  cases hStep with
  | @answer op answer resume _ _ hAnswer =>
      rcases hGoesOn with ⟨_, hControl⟩ | ⟨p, hControl, hNever⟩
      · cases hControl
      · cases hControl
        refine ⟨?_, .inr ⟨_, rfl, hNever.answer answer⟩⟩
        cases hAnswer with
        | subscribe => exact ⟨_, rfl, not_ready_subscribe token⟩
        | fromStd | sendTo | emit => exact ⟨r, rfl, hMissed⟩
  | park hPark =>
      cases hPark
      exact ⟨⟨r, rfl, hMissed⟩, .inl ⟨_, rfl⟩⟩
  | @fire devices b _ _ _ hFire =>
      have hSame : ∀ old, some r = some old → ¬ old.Ready token := by
        rintro old ⟨⟩
        exact hMissed
      obtain ⟨hNever, rfl⟩ := branchBody_neverExits devices hFire hSame
      exact ⟨⟨r, rfl, hMissed⟩, .inr ⟨_, rfl, hNever⟩⟩
  | exit =>
      rcases hGoesOn with ⟨_, hControl⟩ | ⟨p, hControl, hNever⟩
      · cases hControl
      · cases hControl
        exact absurd ⟨_, rfl⟩ hNever.done
  | @fault reason => exact reason.elim
  | move hMove => exact hMove.elim

theorem moves {step : Step} (h : Stuck k w) (hMoves : Moves parsePacket w step w') :
    Stuck k w' := by
  cases hMoves with
  | trigger hRunning =>
      have hTriggered := h.triggered
      rw [hRunning] at hTriggered
      cases hTriggered
  | @discovery j task label control' receiver' hTask hStep =>
      obtain ⟨stuck, r, hStuck, hReceiver, hMissed, hGoesOn⟩ := h.loop
      by_cases hHere : j = k
      · subst hHere
        obtain rfl := Option.some.inj (hTask.symm.trans hStuck)
        rw [h.held] at hStep
        obtain ⟨⟨r', hReceiver', hMissed'⟩, hGoesOn'⟩ :=
          loop_step hReceiver hMissed hGoesOn hStep
        have hLt : j < w.discovery.length := (List.getElem?_eq_some_iff.mp hTask).1
        exact ⟨h.triggered, h.held, ⟨control', receiver'⟩, r',
          by rw [List.getElem?_set_self hLt], hReceiver', hMissed', hGoesOn'⟩
      · refine ⟨h.triggered, h.held, stuck, r, ?_, hReceiver, hMissed, hGoesOn⟩
        rw [List.getElem?_set_ne hHere]
        exact hStuck
  | portal | stopPortal | server => exact h.keeps rfl rfl ⟨[], (List.append_nil _).symm⟩

/-- A loop that missed the trigger keeps running until the supervisor is at
its end, and the supervisor does not get past awaiting it. -/
theorem step {c c' : BackendState} {label : Label supervisorSig Branch Step} (h : Stuck k c.2)
    (hStep : (backend parsePacket urlPath discovery initialPort).step c label c')
    (hLabel : ∀ r, label ≠ .answer ⟨.finish, r⟩) :
    Stuck k c'.2 ∧ ∀ r, label ≠ .answer ⟨.awaitDiscovery, r⟩ := by
  cases hStep with
  | @answer op answer resume _ _ hAnswer =>
      have hOp : op ≠ .finish := by
        rintro rfl
        exact hLabel answer rfl
      obtain ⟨hStuck, hOther⟩ := h.answers hAnswer hOp
      refine ⟨hStuck, fun r hSame => hOther ?_⟩
      cases hSame
      rfl
  | park hPark =>
      cases hPark
      exact ⟨h, nofun⟩
  | fire _ hFire => exact ⟨h.fires hFire, nofun⟩
  | exit | fault => exact ⟨h, nofun⟩
  | move hMove => exact ⟨h.moves hMove, nofun⟩

end Stuck

/-- **A discovery loop that missed the trigger is never awaited to the end**:
in whatever follows, up to the end of the supervisor, it goes on, and awaiting
it is not answered. -/
theorem stuck_forever {k : Nat} {later : List BackendMove} {c c' : BackendState}
    (hStuck : Stuck k c.2)
    (hPath : Path (backend parsePacket urlPath discovery initialPort) c later c')
    (hFinish : ∀ m ∈ later, ∀ r, m.label ≠ .answer ⟨.finish, r⟩) :
    Stuck k c'.2 ∧ ∀ m ∈ later, ∀ r, m.label ≠ .answer ⟨.awaitDiscovery, r⟩ := by
  refine hPath.traceInvariant
    (I := fun later c' => (∀ m ∈ later, ∀ r, m.label ≠ .answer ⟨.finish, r⟩) →
      Stuck k c'.2 ∧ ∀ m ∈ later, ∀ r, m.label ≠ .answer ⟨.awaitDiscovery, r⟩) ?_ ?_ hFinish
  · intro _
    exact ⟨hStuck, fun m hMem => absurd hMem List.not_mem_nil⟩
  · intro later c₁ label c₂ hBefore hStep hFinish
    obtain ⟨hStuck₁, hEarlier⟩ := hBefore fun m hMem => hFinish m (List.mem_append_left _ hMem)
    obtain ⟨hStuck₂, hLast⟩ := hStuck₁.step hStep
      (hFinish ⟨c₁, label, c₂⟩ (List.mem_append_right _ (List.mem_singleton.mpr rfl)))
    refine ⟨hStuck₂, fun m hMem => ?_⟩
    rcases List.mem_append.mp hMem with hMem | hMem
    · exact hEarlier m hMem
    · rw [List.mem_singleton.mp hMem]
      exact hLast

/-- A trigger while the displays are enumerated for the first time is not
seen by the supervisor. -/
theorem late_subscribe :
    ¬ ∀ trace c, Run (backend (fun _ => .ok []) (fun _ => none) (.error ⟨.other, ""⟩) 8010) trace c →
      c.2.token.isShuttingDown = true → Observed c := by
  intro hAll
  have hStart : Run (backend (fun _ => .ok []) (fun _ => none) (.error ⟨.other, ""⟩) 8010) [] _ :=
    run_start
  have hTriggered := run_move .trigger hStart (.trigger rfl)
  obtain ⟨more, hIdle, -⟩ := run_startUp 0 hTriggered
  obtain ⟨r, hReceiver, hReady⟩ := (hAll _ _ hIdle rfl).supervisor _ rfl
  cases hReceiver
  exact not_ready_subscribe _ hReady

end CastApp.Runtime.ShutdownObservers
