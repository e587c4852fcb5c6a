import CastApp.Media.LanIp
import CastApp.Runtime.CommandEffect
import CastApp.Runtime.ServerProtocol

/-!
# The wildcard bind

The listener goes to `0.0.0.0` only with the consent of the user.  Two tasks
decide where it is: the supervisor, which has an address from LAN selection
and the consent, and the media server, which binds again on the address it
remembers.

* `Sealed.step` — without consent the wildcard is neither remembered nor
  asked for, nor on its way to the server.
* **`wildcard_listener_consented`** — a listener on the wildcard address was
  consented to.
-/

namespace CastApp.Runtime.WildcardConsent

open CastApp.Cast
open CastApp.Media.LanIp (Network selectLanIp selectLanIp_ne_unspecified localhost)
open CastApp.Media.MediaServer
open CastApp.Runtime.Backend
open CastApp.Runtime.CommandEffect
open CastApp.Runtime.ServerProtocol
open CastApp.Runtime.Supervisor
open CastApp.State
open CastApp.Util
open CastApp.Verified.Coroutine
open CastApp.Verified.EventLoop
open CastApp.Verified.RelyGuarantee
open CastApp.Verified.Transition

/-- The user has sent `BindFallback(true)`. -/
def Consented (trace : List BackendMove) : Prop :=
  ∃ m ∈ trace, m.label = .fire (.command (some (.bindFallback true)))

/-- An address other than the wildcard. -/
abbrev Private (ip : IpAddr) : Prop := ip ≠ .unspecified

/-- Each time the supervisor asked for an address, it got what LAN selection
makes of some network without the wildcard address. -/
def SelectsLan (trace : List BackendMove) : Prop :=
  ∀ m ∈ trace, ∀ receiver ip, m.label = .answer ⟨.selectLanIp receiver, ip⟩ →
    ∃ network : Network, network.Specified ∧ ip = selectLanIp network receiver

/-- A step at which no address is asked for. -/
theorem SelectsLan.append {trace : List BackendMove} {m : BackendMove} (h : SelectsLan trace)
    (hOther : ∀ receiver ip, m.label ≠ .answer ⟨.selectLanIp receiver, ip⟩) :
    SelectsLan (trace ++ [m]) := by
  intro m' hMem receiver ip hLabel
  rcases List.mem_append.mp hMem with hMem | hMem
  · exact h m' hMem receiver ip hLabel
  · rw [List.mem_singleton.mp hMem] at hLabel
    exact absurd hLabel (hOther receiver ip)

/-! ## The server -/

/-- Without consent the server neither remembers the wildcard address nor is
about to be told it. -/
structure Unexposed (consent : Prop) (s : ServerTask) : Prop where
  queued : ∀ addr, .setBindAddr addr ∈ s.queue → Private addr.ip ∨ consent
  bound : s.state.bindIp = some .unspecified → consent

namespace Unexposed

variable {consent : Prop} {s s' : ServerTask} {token : Shutdown}

theorem new : Unexposed consent .new := ⟨by simp [ServerTask.new], nofun⟩

theorem tell {command : ServerCommand} (h : Unexposed consent s)
    (hCommand : ∀ addr, command = .setBindAddr addr → Private addr.ip ∨ consent) :
    Unexposed consent (s.tell command) := by
  refine ⟨fun addr hMem => ?_, h.bound⟩
  unfold ServerTask.tell at hMem
  by_cases hRunning : s.running = true
  · simp only [hRunning, if_true, List.mem_append, List.mem_singleton] at hMem
    rcases hMem with hMem | rfl
    · exact h.queued addr hMem
    · exact hCommand addr rfl
  · simp only [hRunning] at hMem
    exact h.queued addr hMem

/-- The address remembered after a command is the one before, or that of the
command. -/
theorem bound_processes {state state' : ServerState} {command : ServerCommand}
    {ack : Option (Except IoError Unit)} (h : Processes state command ack state') :
    state'.bindIp = state.bindIp ∨
      ∃ addr, command = .setBindAddr addr ∧ state'.bindIp = some addr.ip := by
  cases h with
  | setSource | attachScreenStream => exact .inl rfl
  | setPort port result =>
      left
      unfold ServerState.setPort
      cases hIp : state.bindIp with
      | none => simp [hIp]
      | some ip => cases result <;> simp [hIp]
  | setBindAddr addr result =>
      cases result with
      | ok => exact .inr ⟨addr, rfl, rfl⟩
      | error => exact .inl rfl

theorem step (h : Unexposed consent s) (hStep : s.Step token s') : Unexposed consent s' := by
  cases hStep with
  | stop => exact ⟨by simp, h.bound⟩
  | @process command rest state' ack hRunning hQueue hProcess =>
      have hQueued : ∀ addr, .setBindAddr addr ∈ command :: rest → Private addr.ip ∨ consent := by
        rw [← hQueue]
        exact h.queued
      refine ⟨fun addr hMem => hQueued addr (List.mem_cons_of_mem _ hMem), fun hBound => ?_⟩
      rcases bound_processes hProcess with hSame | ⟨addr, rfl, hIp⟩
      · exact h.bound (hSame ▸ hBound)
      · have hAddr : addr.ip = .unspecified := Option.some.inj (hIp.symm.trans hBound)
        exact (hQueued addr List.mem_cons_self).resolve_left fun hPrivate => hPrivate hAddr

end Unexposed

/-! ## Runs -/

/-- Without consent neither of the two tasks has anything to do with the
wildcard address. -/
structure Sealed (consent : Prop) (c : BackendState) : Prop where
  supervisor : Containing Private consent c.1
  server : Unexposed consent c.2.server

variable {parsePacket : List Byte → Except Mdns.DnsError (List Mdns.DiscoveredDevice)}
variable {urlPath : UrlPath} {discovery : Except IoError Unit} {initialPort : UInt16}

theorem Sealed.mono {consent consent' : Prop} {c : BackendState} (h : Sealed consent c)
    (hConsent : consent → consent') : Sealed consent' c where
  supervisor := by
    refine h.supervisor.mono (fun op hOp => ?_) fun state ⟨volume, hState⟩ => ?_
    · unfold Contained at hOp ⊢
      split
      · exact hOp.imp_right hConsent
      · trivial
    · exact ⟨volume, hState.lanIp, fun hGiven => hConsent (hState.consented hGiven),
        hState.lastVolume, hState.muted⟩
  server :=
    ⟨fun addr hMem => (h.server.queued addr hMem).imp_right hConsent,
      fun hBound => hConsent (h.server.bound hBound)⟩

/-- An operation that is contained leaves the server unexposed. -/
theorem Unexposed.answers {consent : Prop} {w w' : World} {op : Op} {r : op.Ans}
    (h : Unexposed consent w.server) (hOp : Contained Private consent op)
    (hAnswers : Answers parsePacket w op r w') : Unexposed consent w'.server := by
  cases hAnswers with
  | @server command =>
      apply h.tell
      rintro addr rfl
      exact hOp
  | started result stream portal => exact h.tell nofun
  | startServer | acked => exact ⟨h.queued, h.bound⟩
  | stopScreen =>
      unfold World.stopPipeline
      cases w.pipeline <;> exact h
  | _ => exact h

/-- **A step keeps the wildcard sealed**, unless it is the consent. -/
theorem Sealed.step {consent : Prop} {c c' : BackendState}
    {label : Label supervisorSig Branch Step} (h : Sealed consent c)
    (hSelected : Label.Satisfies (Selected Private) label)
    (hConsent : label = .fire (.command (some (.bindFallback true))) → consent)
    (hStep : (backend parsePacket urlPath discovery initialPort).step c label c') :
    Sealed consent c' := by
  have hBody (state : SupervisorState) (b : Branch) (hFire : label = .fire b)
      (hState : Rests Private consent state) :
      Containing Private consent
        (.running ((supervise urlPath discovery initialPort).body state b)) :=
    supervise_maintains discovery initialPort hState fun hGrant => hConsent (hGrant ▸ hFire)
  obtain ⟨hAsked, hSupervisor⟩ := h.supervisor.step hBody hSelected hStep
  refine ⟨hSupervisor, ?_⟩
  cases hStep with
  | answer hAnswer => exact h.server.answers hAsked hAnswer
  | park hPark =>
      cases hPark
      exact h.server
  | fire _ hFire => cases hFire <;> exact h.server
  | exit | fault => exact h.server
  | move hMove =>
      cases hMove with
      | server hServer => exact h.server.step hServer
      | trigger | discovery | portal | stopPortal => exact h.server

/-- The supervisor was given private addresses only. -/
theorem SelectsLan.satisfies {trace : List BackendMove} (h : SelectsLan trace) {m : BackendMove}
    (hMem : m ∈ trace) : Label.Satisfies (Selected Private) m.label := by
  cases hLabel : m.label with
  | answer entry =>
      obtain ⟨op, r⟩ := entry
      cases op with
      | selectLanIp receiver =>
          obtain ⟨network, hNetwork, hIp⟩ := h m hMem receiver r hLabel
          show Private (.v4 r)
          rw [hIp]
          exact selectLanIp_ne_unspecified hNetwork receiver
      | _ => trivial
  | _ => trivial

theorem run_sealed {trace : List BackendMove} {c : BackendState}
    (hRun : Run (backend parsePacket urlPath discovery initialPort) trace c)
    (hLan : SelectsLan trace) : Sealed (Consented trace) c := by
  induction hRun with
  | @start c hInit =>
      obtain ⟨control, w⟩ := c
      obtain ⟨rfl, rfl⟩ := hInit
      exact ⟨prelude_maintains discovery initialPort, .new⟩
  | @step trace c c' label _ hStep ih =>
      have hBefore : Sealed (Consented trace) c :=
        ih fun m hMem => hLan m (List.mem_append_left _ hMem)
      have hLast : (⟨c, label, c'⟩ : BackendMove) ∈ trace ++ [⟨c, label, c'⟩] := by simp
      refine (hBefore.mono ?_).step (hLan.satisfies hLast) (fun hLabel => ⟨_, hLast, hLabel⟩) hStep
      rintro ⟨m, hMem, hLabel⟩
      exact ⟨m, List.mem_append_left _ hMem, hLabel⟩

/-- **A listener on the wildcard address was consented to**, in every state
of the backend. -/
theorem wildcard_listener_consented {trace : List BackendMove} {c : BackendState} {l : Listener}
    (hRun : Run (backend parsePacket urlPath discovery initialPort) trace c)
    (hLan : SelectsLan trace) (hListener : c.2.server.state.listener = some l)
    (hWildcard : l.ip = .unspecified) : Consented trace := by
  have hBound : c.2.server.state.bindIp = some l.ip := run_coherent hRun l hListener
  exact (run_sealed hRun hLan).server.bound (hWildcard ▸ hBound)

/-- A machine without a network, whose user agrees to the wildcard bind. -/
theorem offline_wildcard_consented :
    ∃ trace c l, Run (backend (fun _ => .ok []) (fun _ => none) (.error ⟨.other, ""⟩) 8010) trace c ∧
      SelectsLan trace ∧ c.2.server.state.listener = some l ∧ l.ip = .unspecified ∧
        Consented trace := by
  have hStart : Run (backend (fun _ => .ok []) (fun _ => none) (.error ⟨.other, ""⟩) 8010) [] _ :=
    run_start
  obtain ⟨more, hIdle, hSelects⟩ := run_startUp localhost hStart
  have h₁ := run_fire (.command (some (.bindFallback true))) hIdle (.command _)
  have h₂ := run_answer (.server (.setBindAddr ⟨.unspecified, 8010⟩)) () h₁ .server
  have h₃ := run_move .server h₂
    (.server (.process rfl rfl (.setBindAddr ⟨.unspecified, 8010⟩ (.ok 8010) fun _ => rfl)))
  have hOffline : Network.Specified ⟨.error ⟨.other, ""⟩, none⟩ := ⟨nofun, nofun⟩
  have hMore : SelectsLan more := fun m hMem receiver ip hLabel =>
    ⟨_, hOffline, (hSelects m hMem).2 receiver ip hLabel⟩
  refine ⟨_, _, ⟨.unspecified, 8010⟩, h₃, ?hLan, rfl, rfl,
    wildcard_listener_consented h₃ ?hLan rfl rfl⟩
  exact ((hMore.append (by simp)).append (by simp)).append (by simp)

end CastApp.Runtime.WildcardConsent
