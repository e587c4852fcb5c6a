import CastApp.Runtime.EventRelay

/-!
# What the supervisor may do

One pass over every function of the supervisor: where each may send the
listener, whether it passes anything on, and what it leaves of the addresses,
of the consent and of the volume.  `Lan` stands for the addresses that LAN
selection answers with, and `consent` for whatever entitles the supervisor to
bind any other.

* `handleCommand_discreet` — a command that selects nothing passes nothing on.
* **`handleCommand_maintains`** — only `BindFallback(true)` gives consent, and
  only `SetVolume` and `Mute` change the volume.
* `supervise_maintains` — what holds between any two turns of the loop.
-/

namespace CastApp.Runtime.CommandEffect

open CastApp.Cast.Session (ConnectionEvent)
open CastApp.Runtime.EventRelay
open CastApp.Runtime.Supervisor
open CastApp.State
open CastApp.Verified.Coroutine
open CastApp.Verified.EventLoop
open CastApp.Verified.RelyGuarantee

variable (Lan : IpAddr → Prop) (consent : Prop)

/-- LAN selection answers with an address of `Lan`. -/
def Selected : (op : Op) → op.Ans → Prop
  | .selectLanIp _, ip => Lan (.v4 ip)
  | _, _ => True

/-- The listener is only sent to an address of `Lan`, or with consent. -/
def Contained : Op → Prop
  | .server (.setBindAddr addr) => Lan addr.ip ∨ consent
  | _ => True

/-- What the supervisor remembers: an address of `Lan`, no more consent than
was given, and the volume. -/
structure Remembers (volume : Float32 × Bool) (state : SupervisorState) : Prop where
  lanIp : Lan state.lanIp
  consented : state.wildcardConsented = true → consent
  lastVolume : state.lastVolume = volume.1
  muted : state.muted = volume.2

/-- `p` contains the listener and ends in a state that remembers `volume`. -/
abbrev Maintains (volume : Float32 × Bool) (p : Supervise SupervisorState) : Prop :=
  Abides (S := supervisorSig) (Selected Lan) (Contained Lan consent) p
    (Remembers Lan consent volume)

/-- `p` contains the listener. -/
abbrev Contains {α : Type} (p : Supervise α) : Prop :=
  Abides (S := supervisorSig) (Selected Lan) (Contained Lan consent) p fun _ => True

/-- `p` contains the listener, passes nothing on, and returns what `post` says. -/
abbrev Discreet {α : Type} (p : Supervise α) (post : α → Prop) : Prop :=
  Abides (S := supervisorSig) (Selected Lan) (fun op => Contained Lan consent op ∧ Unheard op) p post

/-- The volume after a command. -/
def volumeAfter (volume : Float32 × Bool) : AppCommand → Float32 × Bool
  | .setVolume level => (level, volume.2)
  | .mute muted => (volume.1, muted)
  | _ => volume

/-- The volume after an event of the connection task. -/
def volumeHeard (volume : Float32 × Bool) : ConnectionEvent → Float32 × Bool
  | .volume level muted => (level, muted)
  | _ => volume

variable {Lan consent} {urlPath : UrlPath} {state : SupervisorState} {volume : Float32 × Bool}

theorem Discreet.maintains {p : Supervise SupervisorState}
    (h : Discreet Lan consent p (Remembers Lan consent volume)) : Maintains Lan consent volume p :=
  h.mono (fun _ _ => id) (fun _ => And.left) fun _ => id

theorem Discreet.contains {α : Type} {p : Supervise α} {post : α → Prop}
    (h : Discreet Lan consent p post) : Contains Lan consent p :=
  h.mono (fun _ _ => id) (fun _ => And.left) fun _ _ => trivial

/-- What is discreet wherever the listener goes is quiet. -/
theorem Discreet.quiet {α : Type} {p : Supervise α} {post : α → Prop}
    (h : Discreet (fun _ => True) True p post) : Quiet p := by
  refine h.mono (fun op _ _ => ?_) (fun _ => And.right) fun _ _ => trivial
  cases op <;> trivial

/-- Any state remembers something. -/
theorem remembers_any (state : SupervisorState) :
    Remembers (fun _ => True) True (state.lastVolume, state.muted) state :=
  ⟨trivial, fun _ => trivial, rfl, rfl⟩

/-! ## Binding -/

theorem bindAddr_discreet {addr : SocketAddr} (hAddr : Lan addr.ip ∨ consent) :
    Discreet Lan consent (bindAddr addr) fun _ => True := by
  refine .perform ⟨hAddr, trivial⟩ fun _ _ => .perform ⟨trivial, trivial⟩ fun answer _ => ?_
  cases answer <;> trivial

theorem bindWildcard_discreet (hConsent : consent) :
    Discreet Lan consent (bindWildcard state) fun _ => True :=
  (bindAddr_discreet (.inr hConsent)).bind fun _ _ => trivial

theorem requestWildcardFallback_discreet (h : Remembers Lan consent volume state)
    (reason : String) :
    Discreet Lan consent (requestWildcardFallback state reason) (Remembers Lan consent volume) := by
  unfold requestWildcardFallback
  by_cases hPending : state.fallbackPending = true
  · rw [if_pos hPending]
    exact h
  · rw [if_neg hPending]
    exact .perform ⟨trivial, rfl⟩ fun _ _ => ⟨h.lanIp, h.consented, h.lastVolume, h.muted⟩

theorem rebindToLanIp_discreet (h : Remembers Lan consent volume state) :
    Discreet Lan consent (rebindToLanIp state) (Remembers Lan consent volume) := by
  apply (bindAddr_discreet (.inl h.lanIp)).bind
  intro result _
  cases result with
  | ok => exact h
  | error error =>
      show Discreet Lan consent (if state.wildcardConsented = true then _ else _) _
      by_cases hConsented : state.wildcardConsented = true
      · rw [if_pos hConsented]
        exact (bindWildcard_discreet (h.consented hConsented)).bind fun _ _ => h
      · rw [if_neg hConsented]
        exact requestWildcardFallback_discreet h _

/-! ## Commands -/

/-- The selected address is used from here on. -/
theorem selectReceiver_maintains (h : Remembers Lan consent volume state) (device : CastDevice) :
    Maintains Lan consent volume (selectReceiver state device) := by
  refine .perform trivial fun ip hIp => .perform trivial fun _ _ => ?_
  have hSelected : Remembers Lan consent volume { state with lanIp := .v4 ip } :=
    ⟨hIp, h.consented, h.lastVolume, h.muted⟩
  exact (rebindToLanIp_discreet hSelected).maintains

theorem refreshDisplays_discreet : Discreet Lan consent refreshDisplays fun _ => True := by
  apply Abides.perform ⟨trivial, trivial⟩
  intro displays _
  cases displays with
  | error => trivial
  | ok names => exact .perform ⟨trivial, rfl⟩ fun _ _ => trivial

theorem play_discreet : Discreet Lan consent (play urlPath state) fun _ => True := by
  unfold play
  cases state.currentSource with
  | none => trivial
  | some source =>
      apply Abides.perform ⟨trivial, trivial⟩
      intro port _
      by_cases hPort : port = 0
      · rw [if_pos hPort]
        trivial
      · rw [if_neg hPort]
        exact .perform ⟨trivial, rfl⟩ fun _ _ => trivial

theorem startDisplay_discreet (h : Remembers Lan consent volume state) (monitor : String) :
    Discreet Lan consent (startDisplay state monitor) (Remembers Lan consent volume) := by
  apply Abides.perform ⟨trivial, trivial⟩
  intro started _
  match started with
  | some (.ok ()) => exact ⟨h.lanIp, h.consented, h.lastVolume, h.muted⟩
  | some (.error error) => exact .perform ⟨trivial, rfl⟩ fun _ _ => h
  | none => exact .perform ⟨trivial, rfl⟩ fun _ _ => h

theorem selectDisplay_discreet (h : Remembers Lan consent volume state) (monitor : String) :
    Discreet Lan consent (selectDisplay state monitor) (Remembers Lan consent volume) := by
  have hSwitched : Remembers Lan consent volume
      { state with screen := false, currentSource := some (.screen monitor) } :=
    ⟨h.lanIp, h.consented, h.lastVolume, h.muted⟩
  have hStart := startDisplay_discreet hSwitched monitor
  unfold selectDisplay
  by_cases hScreen : state.screen = true
  · simp only [hScreen, if_true]
    exact .perform ⟨trivial, trivial⟩ fun _ _ => .perform ⟨trivial, trivial⟩ fun _ _ =>
      .perform ⟨trivial, trivial⟩ fun _ _ => hStart
  · simp only [hScreen]
    exact .perform ⟨trivial, trivial⟩ fun _ _ => hStart

theorem rescan_discreet (h : Remembers Lan consent volume state) :
    Discreet Lan consent (rescan state) (Remembers Lan consent volume) := by
  apply Abides.perform ⟨trivial, trivial⟩
  intro _ _
  by_cases hTask : state.mdnsTask = true
  · rw [if_pos hTask]
    exact h
  · rw [if_neg hTask]
    apply Abides.perform ⟨trivial, trivial⟩
    intro socket _
    cases socket with
    | ok =>
        exact .perform ⟨trivial, trivial⟩ fun _ _ => ⟨h.lanIp, h.consented, h.lastVolume, h.muted⟩
    | error => exact h

/-- A command that selects nothing, where `BindFallback(true)` comes with
consent. -/
theorem handleCommand_discreet (h : Remembers Lan consent volume state) {command : AppCommand}
    (hConsent : command = .bindFallback true → consent) (hCommand : selection command = none) :
    Discreet Lan consent (handleCommand urlPath state command)
      (Remembers Lan consent (volumeAfter volume command)) := by
  have hSame {state' : SupervisorState} (hLan : state'.lanIp = state.lanIp)
      (hConsented : state'.wildcardConsented = state.wildcardConsented)
      (hLevel : state'.lastVolume = state.lastVolume) (hMuted : state'.muted = state.muted) :
      Remembers Lan consent volume state' :=
    ⟨hLan ▸ h.lanIp, fun hGiven => h.consented (hConsented ▸ hGiven), hLevel ▸ h.lastVolume,
      hMuted ▸ h.muted⟩
  cases command with
  | selectReceiver | manualConnect => cases hCommand
  | bindFallback granted =>
      cases granted with
      | false => exact hSame rfl rfl rfl rfl
      | true =>
          refine (bindWildcard_discreet (hConsent rfl)).bind fun _ _ => ?_
          exact ⟨h.lanIp, fun _ => hConsent rfl, h.lastVolume, h.muted⟩
  | selectSource tab =>
      show Discreet Lan consent (if tab = .display then _ else _) _
      by_cases hTab : tab = .display
      · rw [if_pos hTab]
        exact refreshDisplays_discreet.bind fun _ _ => h
      · rw [if_neg hTab]
        exact h
  | selectDisplay monitor => exact selectDisplay_discreet h monitor
  | selectFile path => exact .perform ⟨trivial, trivial⟩ fun _ _ => hSame rfl rfl rfl rfl
  | selectUrl url => exact .perform ⟨trivial, trivial⟩ fun _ _ => hSame rfl rfl rfl rfl
  | play => exact play_discreet.bind fun _ _ => h
  | pause => exact .perform ⟨trivial, rfl⟩ fun _ _ => h
  | stop => exact .perform ⟨trivial, rfl⟩ fun _ _ => h
  | setVolume level =>
      exact .perform ⟨trivial, rfl⟩ fun _ _ => ⟨h.lanIp, h.consented, rfl, h.muted⟩
  | mute muted =>
      exact .perform ⟨trivial, rfl⟩ fun _ _ => ⟨h.lanIp, h.consented, h.lastVolume, rfl⟩
  | setProxyPort port => exact .perform ⟨trivial, trivial⟩ fun _ _ => hSame rfl rfl rfl rfl
  | rescan => exact rescan_discreet h

/-- **Handling a command**, where `BindFallback(true)` comes with consent. -/
theorem handleCommand_maintains (h : Remembers Lan consent volume state) {command : AppCommand}
    (hConsent : command = .bindFallback true → consent) :
    Maintains Lan consent (volumeAfter volume command) (handleCommand urlPath state command) := by
  cases hSelection : selection command with
  | none => exact (handleCommand_discreet h hConsent hSelection).maintains
  | some device =>
      cases command with
      | selectReceiver device => exact selectReceiver_maintains h device
      | manualConnect addr => exact selectReceiver_maintains h _
      | _ => cases hSelection

/-! ## Events -/

theorem forwardConnectionEvent_maintains (h : Remembers Lan consent volume state)
    (event : ConnectionEvent) :
    Maintains Lan consent (volumeHeard volume event) (forwardConnectionEvent state event) := by
  cases event with
  | ready => exact h
  | volume => exact .perform trivial fun _ _ => ⟨h.lanIp, h.consented, rfl, rfl⟩
  | connected | disconnected | error | certificateMismatch | mediaStatus =>
      exact .perform trivial fun _ _ => h

theorem forwardAll_maintains (h : Remembers Lan consent volume state)
    (events : List ConnectionEvent) :
    Maintains Lan consent (events.foldl volumeHeard volume) (forwardAll state events) := by
  induction events generalizing state volume with
  | nil => exact h
  | cons event events ih =>
      exact (forwardConnectionEvent_maintains h event).bind fun _ hState => ih hState

/-! ## The loop -/

/-- What the shutdown does once the events are drained. -/
theorem finishing_discreet (state : SupervisorState) : Discreet Lan consent (do
    ask .awaitCast
    if state.mdnsTask then
      ask .awaitDiscovery
    if state.screen then do
      ask .stopScreen
      ask .joinScreen
    ask .finish
    return state) fun _ => True := by
  apply Abides.perform ⟨trivial, trivial⟩
  intro _ _
  have hFinish : Discreet Lan consent (do
      if state.screen then do
        ask .stopScreen
        ask .joinScreen
      ask .finish
      return state) fun _ => True := by
    by_cases hScreen : state.screen = true
    · simp only [hScreen, if_true]
      exact .perform ⟨trivial, trivial⟩ fun _ _ => .perform ⟨trivial, trivial⟩ fun _ _ =>
        .perform ⟨trivial, trivial⟩ fun _ _ => trivial
    · simp only [hScreen]
      exact .perform ⟨trivial, trivial⟩ fun _ _ => trivial
  by_cases hTask : state.mdnsTask = true
  · simp only [hTask, if_true]
    exact .perform ⟨trivial, trivial⟩ fun _ _ => hFinish
  · simp only [hTask]
    exact hFinish

theorem coordinatedShutdown_contains (h : Remembers Lan consent volume state) :
    Contains Lan consent (coordinatedShutdown state) :=
  .perform trivial fun _ _ => .perform trivial fun _ _ => .perform trivial fun _ _ =>
    .perform trivial fun events _ => (forwardAll_maintains h events).bind fun state' _ =>
      (finishing_discreet state').contains

theorem startUp_maintains (discovery : Except IoError Unit) (initialPort : UInt16) :
    Maintains Lan consent (0, false) (startUp discovery initialPort) := by
  apply refreshDisplays_discreet.contains.bind
  intro _ _
  have hDiscovery : Contains Lan consent (startDiscovery discovery) := by
    cases discovery <;> exact .perform trivial fun _ _ => trivial
  refine hDiscovery.bind fun mdnsTask _ => .perform trivial fun _ _ => .perform trivial fun _ _ =>
    .perform trivial fun ip hIp => ?_
  refine (requestWildcardFallback_discreet ?_ _).maintains.bind fun _ hState =>
    .perform trivial fun _ _ => .perform trivial fun _ _ => hState
  exact ⟨hIp, nofun, rfl, rfl⟩

/-- The state between two turns. -/
def Rests (Lan : IpAddr → Prop) (consent : Prop) (state : SupervisorState) : Prop :=
  ∃ volume, Remembers Lan consent volume state

/-- The supervisor contains the listener, inside a turn and between turns. -/
abbrev Containing (Lan : IpAddr → Prop) (consent : Prop)
    (c : Control supervisorSig SupervisorState) : Prop :=
  LoopAbides (Selected Lan) (Contained Lan consent) (Rests Lan consent) c

theorem prelude_maintains (discovery : Except IoError Unit) (initialPort : UInt16) :
    Containing Lan consent (.running (supervise urlPath discovery initialPort).prelude) := by
  refine (startUp_maintains discovery initialPort).bind fun state hState => ?_
  rintro _ ⟨⟩
  exact ⟨_, hState⟩

/-- A turn that is not the consent keeps what holds between turns; a turn that
is comes with consent. -/
theorem supervise_maintains (discovery : Except IoError Unit) (initialPort : UInt16)
    {state : SupervisorState} {b : Branch} (h : Rests Lan consent state)
    (hConsent : b = .command (some (.bindFallback true)) → consent) :
    Containing Lan consent
      (.running ((supervise urlPath discovery initialPort).body state b)) := by
  obtain ⟨volume, h⟩ := h
  have hPark {p : Supervise SupervisorState} {volume' : Float32 × Bool}
      (hp : Maintains Lan consent volume' p) :
      Containing Lan consent (.running (p >>= fun state => pure (.park state))) := by
    refine hp.bind fun state' hState => ?_
    rintro _ ⟨⟩
    exact ⟨volume', hState⟩
  have hLeave : Containing Lan consent
      (.running (coordinatedShutdown state >>= fun state => pure (.exit state))) :=
    (coordinatedShutdown_contains h).bind fun _ _ => nofun
  cases b with
  | command command =>
      cases command with
      | none => exact hLeave
      | some command => exact hPark (handleCommand_maintains h fun hGrant => hConsent (hGrant ▸ rfl))
  | event event =>
      cases event with
      | none => exact hLeave
      | some event => exact hPark (forwardConnectionEvent_maintains h event)
  | port alive =>
      cases alive with
      | false => exact hLeave
      | true => exact hPark (p := pure state) h
  | shutdown => exact hLeave

end CastApp.Runtime.CommandEffect
