import CastApp.Media.MediaServer
import CastApp.Verified.Transition

/-!
# Rebinding the listener

The media-server task keeps three values for one listener: the listener, the
address it was last bound on and the port it has published.  `SetPort` and
`SetBindAddr` write them with opposite failure semantics: a failed `SetPort`
keeps what there is, a failed `SetBindAddr` drops the listener and nothing
else.  This module follows the three through any sequence of commands and any
outcome of the binds.

* `published_port_tracks_iff` — the published port is the listener's exactly
  as long as no `SetBindAddr` takes a listener away by failing and no
  `SetPort(0)` succeeds.
* `set_port_only_moves_iff` — `SetPort` only ever moves a listener exactly as
  long as none succeeds on an address left over from a listener since lost.
-/

namespace CastApp.Media.Rebinding

open CastApp.State
open CastApp.Media.MediaServer
open CastApp.Verified.Transition

/-- A command, with the outcome of the bind it asks for. -/
structure Handled where
  command : ServerCommand
  result : BindResult

/-- What the operating system promises of a bind to `port`: a port that is
named is the one listened on, and any other is nonzero. -/
def Listens (port : UInt16) : BindResult → Prop
  | .ok actual => actual ≠ 0 ∧ (port ≠ 0 → actual = port)
  | .error _ => True

theorem Listens.fits {port : UInt16} {result : BindResult} (h : Listens port result) :
    result.Fits port := by
  cases result with
  | ok => exact h.2
  | error => trivial

/-- A bind to a named port, with that port. -/
theorem listens_named {port : UInt16} (hPort : port ≠ 0) : Listens port (.ok port) :=
  ⟨hPort, fun _ => rfl⟩

/-- The port a command asks for, of the commands that bind. -/
def requestedPort : ServerCommand → Option UInt16
  | .setPort port => some port
  | .setBindAddr addr => some addr.port
  | .setSource _ | .attachScreenStream _ | .shutdown => none

/-- The outcome of a bind is one the operating system gives. -/
def Handled.Listens (h : Handled) : Prop :=
  ∀ port, requestedPort h.command = some port → Rebinding.Listens port h.result

end CastApp.Media.Rebinding

namespace CastApp.Media.MediaServer.ServerState

open CastApp.Media.Rebinding

/-- One turn of the command loop. -/
def handle (s : ServerState) (h : Handled) : ServerState :=
  match h.command with
  | .setSource source => s.setSource source
  | .attachScreenStream stream => s.attachScreenStream stream
  | .setPort port => s.setPort port h.result
  | .setBindAddr addr => (s.setBindAddr addr h.result).1
  | .shutdown => s

/-- A turn is a processed command. -/
theorem processes_handle (s : ServerState) {h : Handled} (hCommand : h.command ≠ .shutdown)
    (hListens : h.Listens) : ∃ ack, Processes s h.command ack (s.handle h) := by
  obtain ⟨command, result⟩ := h
  cases command with
  | setSource source => exact ⟨none, .setSource source⟩
  | attachScreenStream stream => exact ⟨none, .attachScreenStream stream⟩
  | setPort port => exact ⟨none, .setPort port result (hListens port rfl).fits⟩
  | setBindAddr addr => exact ⟨_, .setBindAddr addr result (hListens addr.port rfl).fits⟩
  | shutdown => exact absurd rfl hCommand

end CastApp.Media.MediaServer.ServerState

namespace CastApp.Media.Rebinding

open CastApp.State
open CastApp.Media.MediaServer
open CastApp.Verified.Transition

/-- The command loop of a server task that starts in a state of `start`. -/
def commandLoop (start : ServerState → Prop) : System ServerState Handled where
  init := start
  step s h s' := h.command ≠ .shutdown ∧ h.Listens ∧ s' = s.handle h

/-- A server task with its startup bind behind it. -/
def Started (s : ServerState) : Prop :=
  ∃ initialBind result, (∀ ip port, initialBind = some (ip, port) → Listens port result) ∧
    s = ServerState.started initialBind result

theorem started_unbound : Started .unbound := ⟨none, .ok 0, nofun, rfl⟩

variable {start : ServerState → Prop} {trace : List (Move ServerState Handled)}
  {s : ServerState}

/-! ## The published port -/

/-- The published port is nonzero exactly while there is a listener, and then
it is the listener's. -/
structure PortTracks (s : ServerState) : Prop where
  held : s.boundPort ≠ 0 ↔ s.listener.isSome
  same : ∀ l, s.listener = some l → s.boundPort = l.port

/-- The two turns that leave the published port behind: a `SetBindAddr` that
fails while there is a listener, and a `SetPort(0)` that succeeds. -/
def Desyncs (s : ServerState) (h : Handled) : Prop :=
  match h.command, h.result with
  | .setBindAddr _, .error _ => s.listener.isSome
  | .setPort port, .ok _ => port = 0 ∧ s.bindIp.isSome
  | _, _ => False

theorem portTracks_of_listener_none {s : ServerState} (hListener : s.listener = none) :
    PortTracks s ↔ s.boundPort = 0 := by
  constructor
  · intro h
    refine Decidable.byContradiction fun hPort => ?_
    have hSome := h.held.mp hPort
    rw [hListener] at hSome
    cases hSome
  · intro hPort
    refine ⟨?_, fun l hl => ?_⟩
    · simp [hListener, hPort]
    · rw [hListener] at hl
      cases hl

theorem portTracks_of_listener {s : ServerState} {l : Listener} (hListener : s.listener = some l)
    (hPort : l.port ≠ 0) : PortTracks s ↔ s.boundPort = l.port := by
  constructor
  · exact fun h => h.same l hListener
  · intro h
    refine ⟨?_, fun l' hl' => ?_⟩
    · simp [hListener, h, hPort]
    · rw [hListener] at hl'
      cases hl'
      exact h

theorem portTracks_started (h : Started s) : PortTracks s := by
  obtain ⟨initialBind, result, hListens, rfl⟩ := h
  cases initialBind with
  | none => exact (portTracks_of_listener_none rfl).mpr rfl
  | some bind =>
      cases result with
      | error => exact (portTracks_of_listener_none rfl).mpr rfl
      | ok actual => exact (portTracks_of_listener rfl (hListens _ _ rfl).1).mpr rfl

/-- From a state whose port tracks, a turn leaves it behind exactly when it is
one of the two that do. -/
theorem portTracks_handle (hTracks : PortTracks s) {h : Handled} (hListens : h.Listens) :
    PortTracks (s.handle h) ↔ ¬ Desyncs s h := by
  obtain ⟨command, result⟩ := h
  cases command with
  | setSource | attachScreenStream | shutdown =>
      exact ⟨fun _ => id, fun _ => ⟨hTracks.held, hTracks.same⟩⟩
  | setPort port =>
      simp only [ServerState.handle, ServerState.setPort]
      cases hIp : s.bindIp with
      | none =>
          have hNot : ¬ Desyncs s ⟨.setPort port, result⟩ := by
            cases result <;> simp [Desyncs, hIp]
          exact iff_of_true hTracks hNot
      | some ip =>
          cases result with
          | error => exact iff_of_true hTracks id
          | ok actual =>
              obtain ⟨hActual, hNamed⟩ := hListens port rfl
              rw [portTracks_of_listener rfl hActual]
              simp only [Desyncs, hIp, Option.isSome_some, and_true]
              constructor
              · rintro rfl rfl
                exact hActual rfl
              · exact fun hPort => (hNamed hPort).symm
  | setBindAddr addr =>
      cases result with
      | ok actual =>
          have hActual := (hListens addr.port rfl).1
          exact iff_of_true ((portTracks_of_listener rfl hActual).mpr rfl) id
      | error error =>
          have hDropped : (s.handle ⟨.setBindAddr addr, .error error⟩).listener = none := rfl
          rw [portTracks_of_listener_none hDropped]
          constructor
          · intro hPort hSome
            exact hTracks.held.mpr hSome hPort
          · intro hSome
            exact Decidable.byContradiction fun hPort => hSome (hTracks.held.mp hPort)

/-- **The published port after every command.**  On any run of the command
loop, from any startup bind, the published port tracks the listener after each
command exactly when no turn is a `SetBindAddr` failing while a listener is
held or a `SetPort(0)` succeeding. -/
theorem published_port_tracks_iff (hRun : Run (commandLoop Started) trace s) :
    (∀ m ∈ trace, PortTracks m.post) ↔ ∀ m ∈ trace, ¬ Desyncs m.pre m.label := by
  refine hRun.forall_post_iff (fun _ => portTracks_started) ?_
  rintro s h _ hTracks ⟨-, hListens, rfl⟩
  exact portTracks_handle hTracks hListens

/-- The outcome of binding an address no interface has. -/
def addrNotAvailable : IoError := ⟨.other, "Cannot assign requested address (os error 99)"⟩

/-- A server bound to an address keeps publishing its port after the listener
is gone. -/
theorem lost_listener_stays_published :
    ∃ trace s, Run (commandLoop Started) trace s ∧
      trace.map Move.label =
        [⟨.setBindAddr ⟨.v4 0xC0A80002, 8000⟩, .ok 8000⟩,
          ⟨.setBindAddr ⟨.v4 0x0A000002, 8000⟩, .error addrNotAvailable⟩] ∧
      s.listener = none ∧ s.boundPort = 8000 ∧ ¬ ∀ m ∈ trace, PortTracks m.post := by
  have hStart : Run (commandLoop Started) [] .unbound := .start started_unbound
  have hBound := hStart.step (l := ⟨.setBindAddr ⟨.v4 0xC0A80002, 8000⟩, .ok 8000⟩)
    ⟨nofun, by rintro _ ⟨⟩; exact listens_named (by decide), rfl⟩
  have hLost := hBound.step (l := ⟨.setBindAddr ⟨.v4 0x0A000002, 8000⟩, .error addrNotAvailable⟩)
    ⟨nofun, fun _ _ => trivial, rfl⟩
  refine ⟨_, _, hLost, rfl, rfl, rfl, fun hAll => ?_⟩
  have hTracks := hAll _ (List.mem_append_right _ (List.mem_singleton_self _))
  exact absurd ((portTracks_of_listener_none rfl).mp hTracks) (by decide)

/-- Moving a bound server to another port keeps the two together. -/
theorem moved_port_tracks :
    ∃ trace s, Run (commandLoop Started) trace s ∧
      trace.map Move.label =
        [⟨.setBindAddr ⟨.v4 0xC0A80002, 8000⟩, .ok 8000⟩, ⟨.setPort 9000, .ok 9000⟩] ∧
      s.boundPort = 9000 ∧ ∀ m ∈ trace, PortTracks m.post := by
  have hStart : Run (commandLoop Started) [] .unbound := .start started_unbound
  have hBound := hStart.step (l := ⟨.setBindAddr ⟨.v4 0xC0A80002, 8000⟩, .ok 8000⟩)
    ⟨nofun, by rintro _ ⟨⟩; exact listens_named (by decide), rfl⟩
  have hMoved := hBound.step (l := ⟨.setPort 9000, .ok 9000⟩)
    ⟨nofun, by rintro _ ⟨⟩; exact listens_named (by decide), rfl⟩
  refine ⟨_, _, hMoved, rfl, rfl, (published_port_tracks_iff hMoved).mpr ?_⟩
  simp [Desyncs]

/-! ## Moving the listener -/

/-- What `SetPort` may do: nothing while there is no listener, and otherwise
move the listener to another port of its address, or keep it when the bind
fails. -/
def MovesTo (port : UInt16) (result : BindResult) (before after : Option Listener) : Prop :=
  match before, result with
  | none, _ => after = none
  | some l, .error _ => after = some l
  | some l, .ok actual => after = some ⟨l.ip, actual⟩ ∧ (port ≠ 0 → actual = port)

/-- If the command is a `SetPort`, it does no more than that. -/
def OnlyMoves (m : Move ServerState Handled) : Prop :=
  ∀ port, m.label.command = .setPort port →
    MovesTo port m.label.result m.pre.listener m.post.listener

namespace Handled

/-- A `SetBindAddr` that succeeds. -/
def Binds (h : Handled) : Prop := ∃ addr actual, h = ⟨.setBindAddr addr, .ok actual⟩

/-- A `SetBindAddr` that fails. -/
def Drops (h : Handled) : Prop := ∃ addr error, h = ⟨.setBindAddr addr, .error error⟩

/-- A `SetPort` whose bind succeeds. -/
def Rebinds (h : Handled) : Prop := ∃ port actual, h = ⟨.setPort port, .ok actual⟩

end Handled

/-- After these commands the server has lost the listener of an address it
still remembers: a `SetBindAddr` has succeeded, a later one has failed, and
no bind has succeeded since. -/
def LostListener (past : List Handled) : Prop :=
  ∃ earlier failed later, past = earlier ++ failed :: later ∧
    (∃ h ∈ earlier, h.Binds) ∧ failed.Drops ∧ ∀ h ∈ later, ¬ h.Binds ∧ ¬ h.Rebinds

theorem lostListener_snoc {past : List Handled} {h : Handled} :
    LostListener (past ++ [h]) ↔
      ((∃ b ∈ past, b.Binds) ∧ h.Drops) ∨ (LostListener past ∧ ¬ h.Binds ∧ ¬ h.Rebinds) := by
  constructor
  · rintro ⟨earlier, failed, later, hSplit, hBinds, hDrops, hQuiet⟩
    rcases List.eq_nil_or_concat later with rfl | ⟨later, last, rfl⟩
    · obtain ⟨rfl, hLast⟩ := List.append_inj' hSplit rfl
      obtain rfl := List.singleton_inj.mp hLast
      exact .inl ⟨hBinds, hDrops⟩
    · rw [List.concat_eq_append, ← List.cons_append, ← List.append_assoc] at hSplit
      obtain ⟨rfl, hLast⟩ := List.append_inj' hSplit rfl
      obtain rfl := List.singleton_inj.mp hLast
      have hBefore : ∀ h' ∈ later, ¬ h'.Binds ∧ ¬ h'.Rebinds :=
        fun h' hMem => hQuiet h' (by simp [hMem])
      exact .inr ⟨⟨earlier, failed, later, rfl, hBinds, hDrops, hBefore⟩, hQuiet h (by simp)⟩
  · rintro (⟨hBinds, hDrops⟩ | ⟨⟨earlier, failed, later, rfl, hBinds, hDrops, hQuiet⟩, hLast⟩)
    · exact ⟨past, h, [], rfl, hBinds, hDrops, by simp⟩
    · refine ⟨earlier, failed, later ++ [h], by simp, hBinds, hDrops, ?_⟩
      simp only [List.forall_mem_append, List.forall_mem_singleton]
      exact ⟨hQuiet, hLast⟩

/-- The commands of a run. -/
abbrev handled (trace : List (Move ServerState Handled)) : List Handled := trace.map Move.label

/-- The state a server ends in that was started unbound. -/
structure Remembers (past : List Handled) (s : ServerState) : Prop where
  coherent : s.Coherent
  bound : s.bindIp.isSome ↔ ∃ h ∈ past, h.Binds
  lost : s.bindIp.isSome ∧ s.listener = none ↔ LostListener past

theorem remembers_unbound : Remembers [] .unbound where
  coherent := ServerState.coherent_unbound
  bound := by simp [ServerState.unbound]
  lost := by simp [ServerState.unbound, LostListener]

/-- A turn that neither binds an address nor fails to leaves the remembered
address, and with it the commands that count, as they are. -/
theorem Remembers.quiet {past : List Handled} (hPast : Remembers past s) {h : Handled}
    {s' : ServerState} (hCoherent : s'.Coherent) (hIp : s'.bindIp = s.bindIp)
    (hListener : s'.listener = s.listener) (hBinds : ¬ h.Binds) (hDrops : ¬ h.Drops)
    (hRebinds : h.Rebinds → s.bindIp = none) : Remembers (past ++ [h]) s' where
  coherent := hCoherent
  bound := by
    rw [hIp, hPast.bound]
    simp [or_and_right, exists_or, hBinds]
  lost := by
    rw [hIp, hListener, hPast.lost, lostListener_snoc]
    constructor
    · intro hLost
      refine .inr ⟨hLost, hBinds, fun hRebind => ?_⟩
      have hSome := (hPast.lost.mpr hLost).1
      simp [hRebinds hRebind] at hSome
    · rintro (⟨-, hDrop⟩ | ⟨hLost, -⟩)
      · exact absurd hDrop hDrops
      · exact hLost

theorem Remembers.handle {past : List Handled} (hPast : Remembers past s) {h : Handled}
    (hListens : h.Listens) (hCommand : h.command ≠ .shutdown) :
    Remembers (past ++ [h]) (s.handle h) := by
  obtain ⟨ack, hProcess⟩ := s.processes_handle hCommand hListens
  have hCoherent := hPast.coherent.processes hProcess
  obtain ⟨command, result⟩ := h
  cases command with
  | setSource | attachScreenStream =>
      refine hPast.quiet hCoherent rfl rfl ?_ ?_ ?_ <;>
        simp [Handled.Binds, Handled.Drops, Handled.Rebinds]
  | shutdown => exact absurd rfl hCommand
  | setPort port =>
      cases hIp : s.bindIp with
      | none =>
          have hSame : s.handle ⟨.setPort port, result⟩ = s := by
            simp [ServerState.handle, ServerState.setPort, hIp]
          rw [hSame] at hCoherent ⊢
          refine hPast.quiet hCoherent rfl rfl ?_ ?_ fun _ => hIp <;>
            simp [Handled.Binds, Handled.Drops]
      | some ip =>
          cases result with
          | error error =>
              have hSame : s.handle ⟨.setPort port, .error error⟩ = s := by
                simp [ServerState.handle, ServerState.setPort, hIp]
              rw [hSame] at hCoherent ⊢
              refine hPast.quiet hCoherent rfl rfl ?_ ?_ ?_ <;>
                simp [Handled.Binds, Handled.Drops, Handled.Rebinds]
          | ok actual =>
              have hBound : ∃ b ∈ past, b.Binds := hPast.bound.mp (by simp [hIp])
              refine ⟨hCoherent, ?_, ?_⟩
              · obtain ⟨b, hMem, hBinds⟩ := hBound
                simp only [ServerState.handle, ServerState.setPort, hIp, Option.isSome_some,
                  true_iff]
                exact ⟨b, List.mem_append_left _ hMem, hBinds⟩
              · rw [lostListener_snoc]
                simp [ServerState.handle, ServerState.setPort, hIp, Handled.Drops,
                  Handled.Rebinds]
  | setBindAddr addr =>
      cases result with
      | ok actual =>
          refine ⟨hCoherent, ?_, ?_⟩
          · simp only [ServerState.handle, ServerState.setBindAddr, Option.isSome_some, true_iff]
            exact ⟨_, List.mem_append_right _ (List.mem_singleton_self _), addr, actual, rfl⟩
          · rw [lostListener_snoc]
            simp [ServerState.handle, ServerState.setBindAddr, Handled.Drops, Handled.Binds]
      | error error =>
          have hNot : ¬ Handled.Binds ⟨.setBindAddr addr, .error error⟩ := by
            simp [Handled.Binds]
          have hBound : (s.bindIp.isSome ↔ ∃ b ∈ past ++ [⟨.setBindAddr addr, .error error⟩],
              b.Binds) := by
            rw [hPast.bound]
            simp [or_and_right, exists_or, hNot]
          refine ⟨hCoherent, hBound, ?_⟩
          rw [lostListener_snoc, ← hPast.bound, ← hPast.lost]
          simp only [ServerState.handle, ServerState.setBindAddr, and_true]
          constructor
          · exact fun hSome => .inl ⟨hSome, addr, error, rfl⟩
          · rintro (⟨hSome, -⟩ | ⟨⟨hSome, -⟩, -⟩)
            · exact hSome
            · exact hSome

theorem run_remembers (hRun : Run (commandLoop (· = .unbound)) trace s) :
    Remembers (handled trace) s := by
  induction hRun with
  | start hInit =>
      cases hInit
      exact remembers_unbound
  | step _ hStep hPast =>
      obtain ⟨hCommand, hListens, rfl⟩ := hStep
      simp only [handled, List.map_append, List.map_cons, List.map_nil]
      exact hPast.handle hListens hCommand

/-- A `SetPort` only moves the listener, unless it succeeds after the listener
was lost. -/
theorem onlyMoves_handle {past : List Handled} (hPast : Remembers past s) {h : Handled}
    (hListens : h.Listens) : OnlyMoves ⟨s, h, s.handle h⟩ ↔ ¬ (LostListener past ∧ h.Rebinds) := by
  obtain ⟨command, result⟩ := h
  cases command with
  | setSource | attachScreenStream | setBindAddr | shutdown =>
      simp [OnlyMoves, Handled.Rebinds]
  | setPort port =>
      have hOnly : OnlyMoves ⟨s, ⟨.setPort port, result⟩, s.setPort port result⟩ ↔
          MovesTo port result s.listener (s.setPort port result).listener := by
        constructor
        · exact fun hAll => hAll port rfl
        · rintro hPort _ ⟨⟩
          exact hPort
      rw [← hPast.lost]
      refine hOnly.trans ?_
      cases hListener : s.listener with
      | none =>
          cases hIp : s.bindIp with
          | none => simp [MovesTo, ServerState.setPort, hIp, hListener]
          | some ip =>
              cases result <;>
                simp [MovesTo, ServerState.setPort, hIp, hListener, Handled.Rebinds]
      | some l =>
          have hIp := hPast.coherent l hListener
          cases result with
          | error => simp [MovesTo, ServerState.setPort, hIp, hListener]
          | ok actual =>
              have hNamed : port ≠ 0 → actual = port := (hListens port rfl).2
              simpa [MovesTo, ServerState.setPort, hIp] using hNamed

/-- **`SetPort` over a whole run.**  On a server started unbound, every
`SetPort` only moves an existing listener, or keeps it when its bind fails,
exactly when none succeeds after a failed `SetBindAddr` has taken the listener
of an address bound before. -/
theorem set_port_only_moves_iff (hRun : Run (commandLoop (· = .unbound)) trace s) :
    (∀ m ∈ trace, OnlyMoves m) ↔
      ∀ before m after, trace = before ++ m :: after →
        ¬ (LostListener (handled before) ∧ m.label.Rebinds) := by
  have hEach : ∀ before m after, trace = before ++ m :: after →
      (OnlyMoves m ↔ ¬ (LostListener (handled before) ∧ m.label.Rebinds)) := by
    rintro before m after rfl
    obtain ⟨hBefore, -, hListens, hPost⟩ := hRun.step_run
    rw [show m = ⟨m.pre, m.label, m.pre.handle m.label⟩ from hPost ▸ rfl]
    exact onlyMoves_handle (run_remembers hBefore) hListens
  constructor
  · intro hAll before m after hSplit
    have hMem : m ∈ trace := by simp [hSplit]
    exact (hEach before m after hSplit).mp (hAll m hMem)
  · intro hNone m hMem
    obtain ⟨before, after, hSplit⟩ := List.append_of_mem hMem
    exact (hEach before m after hSplit).mpr (hNone before m after hSplit)

/-- With the listener lost, `SetPort` makes one on the address bound before. -/
theorem set_port_revives_address :
    ∃ trace s, Run (commandLoop (· = .unbound)) trace s ∧
      trace.map Move.label =
        [⟨.setBindAddr ⟨.v4 0xC0A80002, 8000⟩, .ok 8000⟩,
          ⟨.setBindAddr ⟨.v4 0x0A000002, 8000⟩, .error addrNotAvailable⟩,
          ⟨.setPort 9000, .ok 9000⟩] ∧
      (∃ m ∈ trace, m.label.command = .setPort 9000 ∧ m.pre.listener = none ∧
        m.post.listener = some ⟨.v4 0xC0A80002, 9000⟩) ∧
      ¬ ∀ m ∈ trace, OnlyMoves m := by
  have hStart : Run (commandLoop (· = .unbound)) [] .unbound := .start rfl
  have hBound := hStart.step (l := ⟨.setBindAddr ⟨.v4 0xC0A80002, 8000⟩, .ok 8000⟩)
    ⟨nofun, by rintro _ ⟨⟩; exact listens_named (by decide), rfl⟩
  have hLost := hBound.step (l := ⟨.setBindAddr ⟨.v4 0x0A000002, 8000⟩, .error addrNotAvailable⟩)
    ⟨nofun, fun _ _ => trivial, rfl⟩
  have hRevived := hLost.step (l := ⟨.setPort 9000, .ok 9000⟩)
    ⟨nofun, by rintro _ ⟨⟩; exact listens_named (by decide), rfl⟩
  refine ⟨_, _, hRevived, rfl, ?_, fun hAll => ?_⟩
  · exact ⟨_, List.mem_append_right _ (List.mem_singleton_self _), rfl, rfl, rfl⟩
  · have hNone := hAll _ (List.mem_append_right _ (List.mem_singleton_self _)) 9000 rfl
    cases hNone

/-- A bound server is moved to another port of its address. -/
theorem set_port_moves_bound :
    ∃ trace s, Run (commandLoop (· = .unbound)) trace s ∧
      trace.map Move.label =
        [⟨.setBindAddr ⟨.v4 0xC0A80002, 8000⟩, .ok 8000⟩, ⟨.setPort 9000, .ok 9000⟩] ∧
      s.listener = some ⟨.v4 0xC0A80002, 9000⟩ ∧ ∀ m ∈ trace, OnlyMoves m := by
  have hStart : Run (commandLoop (· = .unbound)) [] .unbound := .start rfl
  have hBound := hStart.step (l := ⟨.setBindAddr ⟨.v4 0xC0A80002, 8000⟩, .ok 8000⟩)
    ⟨nofun, by rintro _ ⟨⟩; exact listens_named (by decide), rfl⟩
  have hMoved := hBound.step (l := ⟨.setPort 9000, .ok 9000⟩)
    ⟨nofun, by rintro _ ⟨⟩; exact listens_named (by decide), rfl⟩
  refine ⟨_, _, hMoved, rfl, rfl, (set_port_only_moves_iff hMoved).mpr ?_⟩
  rintro before m after hSplit ⟨⟨earlier, failed, later, hPast, -, ⟨addr, error, hDrops⟩, -⟩, -⟩
  have hMem : failed ∈ handled (before ++ m :: after) := by
    simp only [handled, List.map_append] at hPast ⊢
    simp [hPast]
  rw [← hSplit, hDrops] at hMem
  simp [handled] at hMem

end CastApp.Media.Rebinding
