import CastApp.Media.Connections

/-!
# The slot of the live stream

A handler does not look at the generation when it takes from the slot or puts
back into it.  A handler accepted under an old generation, and slow with its
request head, takes the stream that was attached since.

* `InTime` — a handler that reaches the slot finds there no stream younger
  than itself.
* **`slot_safe_iff`** — in every run, handlers leave alone what was attached
  after they were accepted, and what is attached stays in the slot or with a
  later handler until one ends it, exactly when every step is `InTime`.
* `slow_client_takes_stream` — a run with a handler that is not.
-/

namespace CastApp.Media.Connections

open CastApp.Media.MediaServer
open CastApp.State
open CastApp.Verified.Transition
open CastApp.Verified.WatchChannel

variable {s s' : Server} {l : Label} {trace : List ServerMove}

/-! ## Who has a stream -/

namespace Server

/-- The stream that handler `h` has in hand. -/
def held (s : Server) (h : Nat) : Option ScreenStream :=
  s.handlers[h]?.bind (·.control.held)

/-- The generation that handler `h` was accepted under. -/
def seen (s : Server) (h : Nat) : Option Nat :=
  s.handlers[h]?.map (·.generationRx.seen)

/-- The number of commands that set a source or attached a stream. -/
def processed (s : Server) : Nat :=
  if s.control = .bumping then s.version + 1 else s.version

theorem processed_head (h : s.control = .head) : s.processed = s.version := by
  unfold processed
  rw [h]
  rfl

theorem processed_bumping (h : s.control = .bumping) : s.processed = s.version + 1 :=
  if_pos h

variable {h k : Nat} {handler : Handler} {control : HandlerControl}

theorem held_eq (hHandler : s.handlers[h]? = some handler) : s.held h = handler.control.held := by
  unfold held
  rw [hHandler]
  rfl

theorem seen_eq (hHandler : s.handlers[h]? = some handler) :
    s.seen h = some handler.generationRx.seen := by
  unfold seen
  rw [hHandler]
  rfl

theorem lt_of_seen {n : Nat} (hSeen : s.seen h = some n) : h < s.handlers.length := by
  obtain ⟨handler, hHandler, -⟩ := Option.map_eq_some_iff.mp hSeen
  exact (List.getElem?_eq_some_iff.mp hHandler).1

theorem seen_setHandler : (s.setHandler h control).seen k = s.seen k := by
  unfold seen setHandler
  dsimp only
  rw [List.getElem?_modify]
  cases s.handlers[k]? with
  | none => rfl
  | some handler => by_cases hSame : h = k <;> simp [hSame, Handler.goto]

theorem held_setHandler_self (hHandler : s.handlers[h]? = some handler) :
    (s.setHandler h control).held h = control.held := by
  unfold held setHandler
  dsimp only
  rw [List.getElem?_modify, hHandler]
  simp [Handler.goto]

theorem held_setHandler_ne (hNe : h ≠ k) : (s.setHandler h control).held k = s.held k := by
  unfold held setHandler
  dsimp only
  rw [List.getElem?_modify]
  simp [hNe]

theorem held_accepted : s.accepted.held k = s.held k := by
  unfold held accepted
  dsimp only
  by_cases hOld : k < s.handlers.length
  · rw [List.getElem?_append_left hOld]
  · have hBeyond : s.handlers.length ≤ k := Nat.le_of_not_lt hOld
    rw [List.getElem?_append_right hBeyond, List.getElem?_eq_none hBeyond]
    cases hIndex : k - s.handlers.length with
    | zero => rfl
    | succ => rfl

/-- The handler of a new connection has seen the present generation. -/
theorem seen_accepted {n : Nat} (hSeen : s.accepted.seen k = some n) :
    s.seen k = some n ∨ (k = s.handlers.length ∧ n = s.version) := by
  have hLt : k < s.handlers.length + 1 := by
    have hLt := lt_of_seen hSeen
    rwa [accepted, List.length_append] at hLt
  by_cases hOld : k < s.handlers.length
  · left
    unfold seen accepted at hSeen
    rwa [List.getElem?_append_left hOld] at hSeen
  · right
    obtain rfl : k = s.handlers.length := by omega
    unfold seen accepted at hSeen
    rw [List.getElem?_append_right (Nat.le_refl _), Nat.sub_self] at hSeen
    cases hSeen
    exact ⟨rfl, rfl⟩

theorem seen_accepted_of_seen {n : Nat} (hSeen : s.seen k = some n) :
    s.accepted.seen k = some n := by
  have hOld := lt_of_seen hSeen
  unfold seen accepted
  dsimp only
  rwa [List.getElem?_append_left hOld]

end Server

/-! ## Who has the stream -/

/-- A `SetSource` or an `AttachScreenStream`. -/
def IsCommand : Label → Prop
  | .setSource _ | .attachScreenStream _ => True
  | _ => False

instance (l : Label) : Decidable (IsCommand l) := by
  unfold IsCommand
  split <;> infer_instance

/-- The handler that takes the step. -/
def actor : Label → Option Nat
  | .handler h _ => some h
  | _ => none

/-- Handler `h` drops the stream: from its hand, or by putting another in its
place. -/
def Drops (m : ServerMove) (h : Nat) (stream : ScreenStream) : Prop :=
  m.label = .handler h (.abandon stream) ∨
    ∃ returned, m.label = .handler h (.putBack returned) ∧ m.pre.task.liveRx = some stream

/-- Handler `h` takes, drops or replaces the stream. -/
def Displaces (m : ServerMove) (h : Nat) (stream : ScreenStream) : Prop :=
  m.label = .handler h (.take (some stream)) ∨ Drops m h stream

theorem Drops.actor {m : ServerMove} {h : Nat} {stream : ScreenStream} (hDrops : Drops m h stream) :
    actor m.label = some h := by
  rcases hDrops with hLabel | ⟨returned, hLabel, -⟩
  · rw [hLabel]
    rfl
  · rw [hLabel]
    rfl

/-- A handler accepted before a command leaves alone what is attached by it
or after it. -/
def LeftAlone (trace : List ServerMove) : Prop :=
  ∀ before command after, trace = before ++ command :: after → IsCommand command.label →
    ∀ m ∈ after, ∀ h < command.pre.handlers.length, ∀ stream,
      (∃ attach ∈ command :: after, attach.label = .attachScreenStream stream) →
        ¬ Displaces m h stream

/-- An attached stream is in the slot or with a handler accepted after it was
attached, unless such a handler has dropped it or a command followed. -/
def Kept (trace : List ServerMove) (s : Server) : Prop :=
  ∀ before attach after stream, trace = before ++ attach :: after →
    attach.label = .attachScreenStream stream → (∀ m ∈ after, ¬ IsCommand m.label) →
    (∀ m ∈ after, ∀ h, attach.pre.handlers.length ≤ h → ¬ Drops m h stream) →
      s.task.liveRx = some stream ∨
        ∃ h, attach.pre.handlers.length ≤ h ∧ s.held h = some stream

/-- A handler that takes or puts back finds in the slot no stream that was
attached under a generation it has not seen. -/
def InTime (m : ServerMove) : Prop :=
  match m.label with
  | .handler h (.take _) | .handler h (.putBack _) =>
      ∀ stream ∈ m.pre.task.liveRx, ∀ seen ∈ m.pre.seen h, stream.id ≤ seen
  | _ => True

instance (m : ServerMove) : Decidable (InTime m) := by
  unfold InTime
  split <;> infer_instance

/-! ## Steps and streams -/

theorem Processes.liveRx {task task' : ServerState} {command : ServerCommand}
    {ack : Option (Except IoError Unit)} (hRebinds : Rebinds command)
    (hProcess : Processes task command ack task') : task'.liveRx = task.liveRx := by
  cases hProcess with
  | setSource | attachScreenStream => exact absurd hRebinds id
  | setPort port result =>
      unfold ServerState.setPort
      split
      · rfl
      · split <;> rfl
  | setBindAddr addr result =>
      unfold ServerState.setBindAddr
      split <;> rfl

/-- Away from the slot a handler keeps the stream it has in hand, or drops
it. -/
theorem HandlerStep.held {handler : Handler} {event : HandlerEvent} {control : HandlerControl}
    (hStep : HandlerStep s handler event control) :
    control.held = handler.control.held ∨
      ∃ stream, event = .abandon stream ∧ handler.control.held = some stream ∧
        control.held = none := by
  cases hStep with
  | readHead hControl read =>
      rw [hControl]
      exact .inl (Handler.held_dispatch _ _)
  | respond hControl => exact .inl (by rw [hControl]; rfl)
  | served hServing => exact .inl (HandlerControl.held_of_serving hServing).symm
  | headSent hControl | abort hControl | chunk hControl | closed hControl | flushed hControl
  | flushedIdle hControl | flushedTail hControl =>
      rw [hControl]
      exact .inl rfl
  | idled hControl =>
      rw [hControl]
      exact .inl (Handler.held_idled _ _ _)
  | written hControl =>
      rw [hControl]
      exact .inl (Handler.held_written _ _ _ _ _)
  | failed hControl => exact .inr ⟨_, rfl, HandlerControl.held_of_writesFor hControl, rfl⟩
  | dropped hControl =>
      rw [hControl]
      exact .inr ⟨_, rfl, rfl, rfl⟩

namespace ServerStep

variable {h : Nat} {stream : ScreenStream}

theorem handler_exists {event : HandlerEvent} (hStep : ServerStep s (.handler h event) s') :
    ∃ seen, s.seen h = some seen := by
  cases hStep with
  | handler hHandler | take hHandler | putBack hHandler => exact ⟨_, Server.seen_eq hHandler⟩

theorem taken {found : Option ScreenStream}
    (hStep : ServerStep s (.handler h (.take found)) s') : s.task.liveRx = found := by
  cases hStep with
  | handler hHandler hStep => cases hStep
  | take => rfl

theorem abandoned (hStep : ServerStep s (.handler h (.abandon stream)) s') :
    s.held h = some stream := by
  cases hStep with
  | handler hHandler hStep =>
      rw [Server.held_eq hHandler]
      cases hStep with
      | failed hControl => exact HandlerControl.held_of_writesFor hControl
      | dropped hControl =>
          rw [hControl]
          rfl

theorem attached (hStep : ServerStep s (.attachScreenStream stream) s') :
    s.control = .head ∧ stream = ⟨s.version + 1⟩ ∧ s'.task.liveRx = some stream := by
  cases hStep with
  | attachScreenStream hControl => exact ⟨hControl, rfl, rfl⟩

/-- A command starts at the head of the loop and leads to a new generation. -/
theorem command (hStep : ServerStep s l s') (hCommand : IsCommand l) :
    s.control = .head ∧ s'.processed = s.version + 1 ∧ s'.handlers = s.handlers := by
  cases hStep with
  | setSource hControl | attachScreenStream hControl => exact ⟨hControl, rfl, rfl⟩
  | bump | rebind | accept | stop | handler | take | putBack | trigger | exhaust =>
      exact absurd hCommand id

theorem version_le (hStep : ServerStep s l s') : s.version ≤ s'.version := by
  cases hStep with
  | bump => exact Nat.le_succ _
  | setSource | attachScreenStream | rebind | accept | stop | handler | take | putBack | trigger
  | exhaust => exact Nat.le_refl _

theorem processed_le (hStep : ServerStep s l s') : s.processed ≤ s'.processed := by
  cases hStep with
  | setSource hControl | attachScreenStream hControl =>
      rw [Server.processed_head hControl]
      exact Nat.le_succ _
  | bump hControl =>
      rw [Server.processed_bumping hControl]
      exact Nat.le_refl _
  | stop hControl =>
      rw [Server.processed_head hControl]
      exact Nat.le_refl _
  | rebind | accept | handler | take | putBack | trigger | exhaust => exact Nat.le_refl _

theorem handlers_le (hStep : ServerStep s l s') : s.handlers.length ≤ s'.handlers.length := by
  cases hStep with
  | accept =>
      unfold Server.accepted
      rw [List.length_append]
      exact Nat.le_add_right _ _
  | handler | take | putBack => exact Nat.le_of_eq (List.length_modify ..).symm
  | setSource | attachScreenStream | bump | rebind | stop | trigger | exhaust =>
      exact Nat.le_refl _

/-- A handler was there before, or is accepted under the present
generation. -/
theorem seen {n : Nat} (hStep : ServerStep s l s') (hSeen : s'.seen h = some n) :
    s.seen h = some n ∨ (s.control = .head ∧ h = s.handlers.length ∧ n = s.version) := by
  cases hStep with
  | accept hControl => exact (Server.seen_accepted hSeen).imp id fun hNew => ⟨hControl, hNew⟩
  | handler | take | putBack =>
      rw [Server.seen_setHandler] at hSeen
      exact .inl hSeen
  | setSource | attachScreenStream | bump | rebind | stop | trigger | exhaust =>
      exact .inl hSeen

theorem seen_kept {n : Nat} (hStep : ServerStep s l s') (hSeen : s.seen h = some n) :
    s'.seen h = some n := by
  cases hStep with
  | accept => exact Server.seen_accepted_of_seen hSeen
  | handler | take | putBack =>
      rw [Server.seen_setHandler]
      exact hSeen
  | setSource | attachScreenStream | bump | rebind | stop | trigger | exhaust => exact hSeen

/-- A handler has in hand what it had, or what it took from the slot. -/
theorem held (hStep : ServerStep s l s') (hHeld : s'.held h = some stream) :
    s.held h = some stream ∨
      (l = .handler h (.take (some stream)) ∧ s.task.liveRx = some stream) := by
  cases hStep with
  | accept =>
      rw [Server.held_accepted] at hHeld
      exact .inl hHeld
  | @handler k handler _ control hHandler hStep =>
      left
      by_cases hSame : k = h
      · subst hSame
        rw [Server.held_setHandler_self hHandler] at hHeld
        rw [Server.held_eq hHandler]
        rcases hStep.held with hKept | ⟨_, -, -, hNone⟩
        · rw [← hKept]
          exact hHeld
        · rw [hNone] at hHeld
          cases hHeld
      · rwa [Server.held_setHandler_ne hSame] at hHeld
  | @take k handler hHandler hControl =>
      by_cases hSame : k = h
      · subst hSame
        have hEmptied : (s.setSlot none).handlers[k]? = some handler := hHandler
        rw [Server.held_setHandler_self hEmptied, Handler.held_taken] at hHeld
        rw [hHeld]
        exact .inr ⟨rfl, rfl⟩
      · rw [Server.held_setHandler_ne hSame] at hHeld
        exact .inl hHeld
  | @putBack k handler returned hHandler hControl =>
      left
      by_cases hSame : k = h
      · subst hSame
        have hFilled : (s.setSlot (some returned)).handlers[k]? = some handler := hHandler
        rw [Server.held_setHandler_self hFilled] at hHeld
        cases hHeld
      · rwa [Server.held_setHandler_ne hSame] at hHeld
  | setSource | attachScreenStream | bump | rebind | stop | trigger | exhaust => exact .inl hHeld

/-- The slot holds what it held, what is attached, or what a handler had in
hand. -/
theorem slot (hStep : ServerStep s l s') (hSlot : s'.task.liveRx = some stream) :
    s.task.liveRx = some stream ∨ l = .attachScreenStream stream ∨
      ∃ h, s.held h = some stream := by
  cases hStep with
  | setSource | take => cases hSlot
  | attachScreenStream =>
      cases hSlot
      exact .inr (.inl rfl)
  | @putBack k handler _ hHandler hControl =>
      cases hSlot
      have hHeld : s.held k = some stream := by
        rw [Server.held_eq hHandler, hControl]
        rfl
      exact .inr (.inr ⟨k, hHeld⟩)
  | rebind _ hRebinds hProcess =>
      left
      rw [← Processes.liveRx hRebinds hProcess]
      exact hSlot
  | bump | accept | stop | handler | trigger | exhaust => exact .inl hSlot

/-- The slot loses a stream to a command, to a handler that takes it, or to
one that puts another in its place. -/
theorem slot_kept (hStep : ServerStep s l s') (hSlot : s.task.liveRx = some stream) :
    s'.task.liveRx = some stream ∨ IsCommand l ∨
      (∃ h, l = .handler h (.take (some stream)) ∧ s'.held h = some stream) ∨
      ∃ h returned, l = .handler h (.putBack returned) := by
  cases hStep with
  | setSource | attachScreenStream => exact .inr (.inl trivial)
  | @take k handler hHandler =>
      have hEmptied : (s.setSlot none).handlers[k]? = some handler := hHandler
      refine .inr (.inr (.inl ⟨k, by rw [hSlot], ?_⟩))
      rw [Server.held_setHandler_self hEmptied, Handler.held_taken]
      exact hSlot
  | putBack => exact .inr (.inr (.inr ⟨_, _, rfl⟩))
  | rebind _ hRebinds hProcess =>
      left
      rw [← hSlot]
      exact Processes.liveRx hRebinds hProcess
  | bump | accept | stop | handler | trigger | exhaust => exact .inl hSlot

/-- A handler keeps the stream in hand, drops it, or puts it back. -/
theorem held_kept (hStep : ServerStep s l s') (hHeld : s.held h = some stream) :
    s'.held h = some stream ∨ l = .handler h (.abandon stream) ∨
      s'.task.liveRx = some stream := by
  cases hStep with
  | accept =>
      rw [Server.held_accepted]
      exact .inl hHeld
  | @handler k handler _ control hHandler hStep =>
      by_cases hSame : k = h
      · subst hSame
        rw [Server.held_eq hHandler] at hHeld
        rcases hStep.held with hKept | ⟨dropped, rfl, hDropped, -⟩
        · left
          rw [Server.held_setHandler_self hHandler, hKept]
          exact hHeld
        · obtain rfl : dropped = stream := Option.some.inj (hDropped.symm.trans hHeld)
          exact .inr (.inl rfl)
      · left
        rwa [Server.held_setHandler_ne hSame]
  | @take k handler hHandler hControl =>
      left
      by_cases hSame : k = h
      · subst hSame
        rw [Server.held_eq hHandler, hControl] at hHeld
        cases hHeld
      · rwa [Server.held_setHandler_ne hSame]
  | @putBack k handler _ hHandler hControl =>
      by_cases hSame : k = h
      · subst hSame
        rw [Server.held_eq hHandler, hControl] at hHeld
        exact .inr (.inr hHeld)
      · left
        rwa [Server.held_setHandler_ne hSame]
  | setSource | attachScreenStream | bump | rebind | stop | trigger | exhaust => exact .inl hHeld

end ServerStep

/-! ## Runs and generations -/

section Runs

theorem Server.seen_start {task : ServerState} {token : Util.Shutdown} {h n : Nat}
    (hSeen : (Server.start task token).seen h = some n) : False := by
  cases hSeen

/-- No handler has seen a generation to come. -/
theorem run_seen_le (hRun : Run mediaServer trace s) {h n : Nat} (hSeen : s.seen h = some n) :
    n ≤ s.version := by
  have hAll : ∀ h n, s.seen h = some n → n ≤ s.version := by
    refine hRun.invariant (I := fun s => ∀ h n, s.seen h = some n → n ≤ s.version) ?_ ?_
    · rintro s ⟨initialBind, result, token, -, rfl⟩ h n hSeen
      exact (Server.seen_start hSeen).elim
    · intro s l s' ih hStep h n hSeen
      have hVersion := ServerStep.version_le hStep
      rcases ServerStep.seen hStep hSeen with hOld | ⟨-, -, rfl⟩
      · exact Nat.le_trans (ih h n hOld) hVersion
      · exact hVersion
  exact hAll h n hSeen

/-- What holds from a command on: the handlers accepted before it have seen no
generation after its own, those accepted later have. -/
structure Aged (command : ServerMove) (s : Server) : Prop where
  handlers : command.pre.handlers.length ≤ s.handlers.length
  processed : command.pre.version < s.processed
  earlier : ∀ h n, s.seen h = some n → h < command.pre.handlers.length → n ≤ command.pre.version
  later : ∀ h n, s.seen h = some n → command.pre.handlers.length ≤ h → command.pre.version < n

theorem Aged.step {command : ServerMove} (h : Aged command s) (hStep : ServerStep s l s') :
    Aged command s' where
  handlers := Nat.le_trans h.handlers hStep.handlers_le
  processed := Nat.lt_of_lt_of_le h.processed hStep.processed_le
  earlier := by
    intro k n hSeen hEarlier
    have hHandlers := h.handlers
    rcases hStep.seen hSeen with hOld | ⟨-, rfl, -⟩
    · exact h.earlier k n hOld hEarlier
    · omega
  later := by
    intro k n hSeen hLater
    have hProcessed := h.processed
    rcases hStep.seen hSeen with hOld | ⟨hHead, -, rfl⟩
    · exact h.later k n hOld hLater
    · rwa [Server.processed_head hHead] at hProcessed

theorem run_aged (hRun : Run mediaServer trace s) :
    ∀ command ∈ trace, IsCommand command.label → Aged command s := by
  refine hRun.traceInvariant
    (I := fun trace s => ∀ command ∈ trace, IsCommand command.label → Aged command s) ?_ ?_
  · intro s hInit command hMem
    cases hMem
  · intro trace s l s' hBefore ih hStep command hMem hCommand
    rcases List.mem_append.mp hMem with hOld | hNew
    · exact (ih command hOld hCommand).step hStep
    · obtain rfl := List.mem_singleton.mp hNew
      obtain ⟨hHead, hProcessed, hHandlers⟩ := ServerStep.command hStep hCommand
      have hKnown : ∀ h n, s'.seen h = some n → s.seen h = some n := by
        intro h n hSeen
        unfold Server.seen at hSeen ⊢
        rwa [hHandlers] at hSeen
      refine ⟨Nat.le_of_eq (congrArg List.length hHandlers).symm, ?_, ?_, ?_⟩
      · rw [hProcessed]
        exact Nat.lt_succ_self _
      · intro h n hSeen _
        exact run_seen_le hBefore (hKnown h n hSeen)
      · intro h n hSeen hLater
        exact absurd (Server.lt_of_seen (hKnown h n hSeen)) (Nat.not_lt.mpr hLater)

/-- Every stream in the slot or in hand was attached. -/
theorem run_attached (hRun : Run mediaServer trace s) {stream : ScreenStream}
    (hHere : s.task.liveRx = some stream ∨ ∃ h, s.held h = some stream) :
    ∃ attach ∈ trace, attach.label = .attachScreenStream stream := by
  have hAll : ∀ stream, (s.task.liveRx = some stream ∨ ∃ h, s.held h = some stream) →
      ∃ attach ∈ trace, attach.label = .attachScreenStream stream := by
    refine hRun.traceInvariant
      (I := fun trace s => ∀ stream,
        (s.task.liveRx = some stream ∨ ∃ h, s.held h = some stream) →
          ∃ attach ∈ trace, attach.label = .attachScreenStream stream) ?_ ?_
    · rintro s ⟨initialBind, result, token, -, rfl⟩ stream (hSlot | ⟨h, hHeld⟩)
      · have hEmpty := ServerState.liveRx_started initialBind result
        cases hEmpty.symm.trans hSlot
      · cases hHeld
    · intro trace s l s' hBefore ih hStep stream hHere
      have hOld : (s.task.liveRx = some stream ∨ ∃ h, s.held h = some stream) →
          ∃ attach ∈ trace ++ [⟨s, l, s'⟩], attach.label = .attachScreenStream stream := by
        intro hThere
        obtain ⟨attach, hMem, hLabel⟩ := ih stream hThere
        exact ⟨attach, List.mem_append_left _ hMem, hLabel⟩
      rcases hHere with hSlot | ⟨h, hHeld⟩
      · rcases ServerStep.slot hStep hSlot with hSlot | hLabel | hHeld
        · exact hOld (.inl hSlot)
        · exact ⟨_, List.mem_append_right _ (List.mem_singleton_self _), hLabel⟩
        · exact hOld (.inr hHeld)
      · rcases ServerStep.held hStep hHeld with hHeld | ⟨-, hSlot⟩
        · exact hOld (.inr ⟨h, hHeld⟩)
        · exact hOld (.inl hSlot)
  exact hAll stream hHere

/-- When all steps are in time, a handler has in hand only what was attached
before it was accepted. -/
theorem run_held (hRun : Run mediaServer trace s) (hInTime : ∀ m ∈ trace, InTime m) {h n : Nat}
    {stream : ScreenStream} (hHeld : s.held h = some stream) (hSeen : s.seen h = some n) :
    stream.id ≤ n := by
  have hAll : ∀ h stream n, s.held h = some stream → s.seen h = some n → stream.id ≤ n := by
    refine hRun.traceInvariant
      (I := fun trace s => (∀ m ∈ trace, InTime m) → ∀ h stream n, s.held h = some stream →
        s.seen h = some n → stream.id ≤ n) ?_ ?_ hInTime
    · rintro s ⟨initialBind, result, token, -, rfl⟩ - h stream n hHeld
      cases hHeld
    · intro trace s l s' hBefore ih hStep hInTime h stream n hHeld hSeen
      have hInTimeHere := hInTime ⟨s, l, s'⟩ (List.mem_append_right _ (List.mem_singleton_self _))
      have hBeforeInTime := ih fun m hMem => hInTime m (List.mem_append_left _ hMem)
      rcases ServerStep.held hStep hHeld with hOld | ⟨rfl, hSlot⟩
      · -- who has something in hand was accepted before
        obtain ⟨handler, hHandler, -⟩ := Option.bind_eq_some_iff.mp hOld
        have hBeforeSeen := Server.seen_eq hHandler
        have hKept := ServerStep.seen_kept hStep hBeforeSeen
        obtain rfl := Option.some.inj (hKept.symm.trans hSeen)
        exact hBeforeInTime h stream _ hOld hBeforeSeen
      · obtain ⟨seen, hBeforeSeen⟩ := ServerStep.handler_exists hStep
        have hKept := ServerStep.seen_kept hStep hBeforeSeen
        obtain rfl := Option.some.inj (hKept.symm.trans hSeen)
        exact hInTimeHere stream hSlot _ hBeforeSeen
  exact hAll h stream n hHeld hSeen

/-- What a handler displaces in time, it has seen the generation of. -/
theorem displaced_seen {m : ServerMove} {h n : Nat} {stream : ScreenStream}
    (hRun : Run mediaServer trace m.pre) (hStep : ServerStep m.pre m.label m.post)
    (hBefore : ∀ m ∈ trace, InTime m) (hInTime : InTime m) (hDisplaces : Displaces m h stream)
    (hSeen : m.pre.seen h = some n) : stream.id ≤ n := by
  obtain ⟨s, l, s'⟩ := m
  rcases hDisplaces with hTake | hAbandon | ⟨returned, hReturn, hSlot⟩
  · obtain rfl : l = _ := hTake
    exact hInTime stream hStep.taken n hSeen
  · obtain rfl : l = _ := hAbandon
    exact run_held hRun hBefore hStep.abandoned hSeen
  · obtain rfl : l = _ := hReturn
    exact hInTime stream hSlot n hSeen

theorem Displaces.handler_exists {m : ServerMove} {h : Nat} {stream : ScreenStream}
    (hStep : ServerStep m.pre m.label m.post) (hDisplaces : Displaces m h stream) :
    ∃ n, m.pre.seen h = some n := by
  rcases hDisplaces with hLabel | hLabel | ⟨returned, hLabel, -⟩ <;>
  · rw [hLabel] at hStep
    exact hStep.handler_exists

/-- A stream attached by a command or after it is younger than the
generation the command found. -/
theorem attached_after {before after : List ServerMove} {command attach : ServerMove}
    {stream : ScreenStream} (hRun : Run mediaServer (before ++ command :: after) s)
    (hCommand : IsCommand command.label) (hMem : attach ∈ command :: after)
    (hAttach : attach.label = .attachScreenStream stream) :
    command.pre.version < stream.id := by
  rcases List.mem_cons.mp hMem with rfl | hAfter
  · obtain ⟨-, hStep⟩ := hRun.step_run
    rw [hAttach] at hStep
    obtain ⟨-, rfl, -⟩ := ServerStep.attached hStep
    exact Nat.lt_succ_self _
  · obtain ⟨between, rest, rfl⟩ := List.append_of_mem hAfter
    rw [← List.cons_append, ← List.append_assoc] at hRun
    obtain ⟨hThere, hStep⟩ := hRun.step_run
    have hAged := run_aged hThere command
      (List.mem_append_right _ (List.mem_cons_self ..)) hCommand
    rw [hAttach] at hStep
    obtain ⟨hHead, rfl, -⟩ := ServerStep.attached hStep
    have hProcessed := hAged.processed
    rw [Server.processed_head hHead] at hProcessed
    exact Nat.lt_succ_of_lt hProcessed

/-- When all steps are in time, older handlers leave the slot alone. -/
theorem left_alone_of_inTime (hRun : Run mediaServer trace s)
    (hInTime : ∀ m ∈ trace, InTime m) : LeftAlone trace := by
  rintro before command after rfl hCommand m hMem h hEarlier stream ⟨attach, hAttachMem, hAttach⟩
    hDisplaces
  have hYounger := attached_after hRun hCommand hAttachMem hAttach
  obtain ⟨between, rest, rfl⟩ := List.append_of_mem hMem
  rw [← List.cons_append, ← List.append_assoc] at hRun hInTime
  obtain ⟨hThere, hStep⟩ := hRun.step_run
  obtain ⟨n, hSeen⟩ := hDisplaces.handler_exists hStep
  have hAged := run_aged hThere command (List.mem_append_right _ (List.mem_cons_self ..)) hCommand
  have hOld : n ≤ command.pre.version := hAged.earlier h n hSeen hEarlier
  have hKnown : stream.id ≤ n :=
    displaced_seen hThere hStep (fun m hMem => hInTime m (List.mem_append_left _ hMem))
      (hInTime m (List.mem_append_right _ (List.mem_cons_self ..))) hDisplaces hSeen
  omega

/-- When all steps are in time, an attached stream stays. -/
theorem kept_of_inTime (hRun : Run mediaServer trace s) (hInTime : ∀ m ∈ trace, InTime m) :
    Kept trace s := by
  rintro before attach after stream rfl hAttach hNoCommand hNoDrop
  obtain ⟨-, hAttached⟩ := hRun.step_run
  rw [hAttach] at hAttached
  obtain ⟨hHead, hStream, hSlot⟩ := ServerStep.attached hAttached
  have hCommand : IsCommand attach.label := by
    rw [hAttach]
    trivial
  refine hRun.invariantAfter
    (I := fun after s => (∀ m ∈ after, InTime m) → (∀ m ∈ after, ¬ IsCommand m.label) →
      (∀ m ∈ after, ∀ h, attach.pre.handlers.length ≤ h → ¬ Drops m h stream) →
        s.task.liveRx = some stream ∨
          ∃ h, attach.pre.handlers.length ≤ h ∧ s.held h = some stream) ?_ ?_
    (fun m hMem => hInTime m (List.mem_append_right _ (List.mem_cons_of_mem _ hMem)))
    hNoCommand hNoDrop
  · intro _ _ _
    exact .inl hSlot
  · intro between s l s' hThere ih hStep hInTime hNoCommand hNoDrop
    have hLast : (⟨s, l, s'⟩ : ServerMove) ∈ between ++ [⟨s, l, s'⟩] :=
      List.mem_append_right _ (List.mem_singleton_self _)
    have hAged := run_aged hThere attach (List.mem_append_right _ (List.mem_cons_self ..)) hCommand
    -- who finds the stream in time was accepted after it was attached
    have hLater : ∀ h n, s.seen h = some n → stream.id ≤ n → attach.pre.handlers.length ≤ h := by
      intro h n hSeen hKnown
      by_cases hEarlier : h < attach.pre.handlers.length
      · have hOld := hAged.earlier h n hSeen hEarlier
        have hId : stream.id = attach.pre.version + 1 := by rw [hStream]
        omega
      · exact Nat.le_of_not_lt hEarlier
    rcases ih (fun m hMem => hInTime m (List.mem_append_left _ hMem))
        (fun m hMem => hNoCommand m (List.mem_append_left _ hMem))
        (fun m hMem => hNoDrop m (List.mem_append_left _ hMem)) with hSlot | ⟨h, hAfter, hHeld⟩
    · rcases ServerStep.slot_kept hStep hSlot with
        hSlot' | hCommand | ⟨h, rfl, hHeld⟩ | ⟨h, returned, rfl⟩
      · exact .inl hSlot'
      · exact absurd hCommand (hNoCommand _ hLast)
      · obtain ⟨n, hSeen⟩ := ServerStep.handler_exists hStep
        have hKnown : stream.id ≤ n := hInTime _ hLast stream hSlot n hSeen
        exact .inr ⟨h, hLater h n hSeen hKnown, hHeld⟩
      · obtain ⟨n, hSeen⟩ := ServerStep.handler_exists hStep
        have hKnown : stream.id ≤ n := hInTime _ hLast stream hSlot n hSeen
        exact absurd (.inr ⟨returned, rfl, hSlot⟩) (hNoDrop _ hLast h (hLater h n hSeen hKnown))
    · rcases ServerStep.held_kept hStep hHeld with hHeld' | rfl | hSlot
      · exact .inr ⟨h, hAfter, hHeld'⟩
      · exact absurd (.inl rfl) (hNoDrop _ hLast h hAfter)
      · exact .inl hSlot

/-- When older handlers leave the slot alone, all steps are in time. -/
theorem inTime_of_left_alone (hRun : Run mediaServer trace s) (hAlone : LeftAlone trace) :
    ∀ m ∈ trace, InTime m := by
  intro m hMem
  obtain ⟨first, rest, rfl⟩ := List.append_of_mem hMem
  obtain ⟨hThere, hStep⟩ := hRun.step_run
  -- whoever reaches the slot too late displaces what is there
  have hLate : ∀ h stream n, m.pre.task.liveRx = some stream → m.pre.seen h = some n →
      Displaces m h stream → stream.id ≤ n := by
    intro h stream n hSlot hSeen hDisplaces
    obtain ⟨attach, hAttachMem, hAttach⟩ := run_attached hThere (.inl hSlot)
    have hCommand : IsCommand attach.label := by
      rw [hAttach]
      trivial
    have hAged := run_aged hThere attach hAttachMem hCommand
    obtain ⟨before, between, rfl⟩ := List.append_of_mem hAttachMem
    obtain ⟨-, hAttached⟩ := hThere.step_run
    rw [hAttach] at hAttached
    obtain ⟨-, rfl, -⟩ := ServerStep.attached hAttached
    by_cases hEarlier : h < attach.pre.handlers.length
    · have hTrace : before ++ attach :: between ++ m :: rest =
          before ++ attach :: (between ++ m :: rest) := by simp
      exact absurd hDisplaces
        (hAlone before attach (between ++ m :: rest) hTrace hCommand m
          (List.mem_append_right _ (List.mem_cons_self ..)) h hEarlier _
          ⟨attach, List.mem_cons_self .., hAttach⟩)
    · exact hAged.later h n hSeen (Nat.le_of_not_lt hEarlier)
  unfold InTime
  split
  · rename_i h found hLabel
    intro stream hSlot n hSeen
    rw [hLabel] at hStep
    obtain rfl : found = some stream := (ServerStep.taken hStep).symm.trans hSlot
    exact hLate h stream n hSlot hSeen (.inl hLabel)
  · rename_i h returned hLabel
    intro stream hSlot n hSeen
    exact hLate h stream n hSlot hSeen (.inr (.inr ⟨returned, hLabel, hSlot⟩))
  · trivial

/-- **The live slot.**  In every run of the server with any number of
connections: handlers leave alone what was attached after they were accepted,
and an attached stream stays in the slot or with a later handler until one
drops it or a command follows, exactly when every handler that reaches the
slot is in time. -/
theorem slot_safe_iff (hRun : Run mediaServer trace s) :
    (LeftAlone trace ∧ Kept trace s) ↔ ∀ m ∈ trace, InTime m :=
  ⟨fun h => inTime_of_left_alone hRun h.1,
    fun h => ⟨left_alone_of_inTime hRun h, kept_of_inTime hRun h⟩⟩

end Runs

/-! ## A slow client across a source switch -/

def serverAddr : SocketAddr := ⟨.v4 0x0A000002, 8080⟩

/-- A server on an address, with a display as its source. -/
def sourceChosen : Server :=
  { Server.start .unbound .new with
    task :=
      { ServerState.unbound with
        bindIp := some serverAddr.ip
        listener := some ⟨serverAddr.ip, serverAddr.port⟩
        boundPort := serverAddr.port
        current := some (.screen "left")
        generation := 1 }
    version := 1 }

theorem sourceChosen_run :
    ∃ trace, Run mediaServer trace sourceChosen ∧ ∀ m ∈ trace, InTime m := by
  have hStart : Run mediaServer [] (.start .unbound .new) :=
    .start ⟨none, .ok 0, .new, (by simp), rfl⟩
  have hBound := hStart.step
    (@ServerStep.rebind _ rfl (.setBindAddr serverAddr) _ _ trivial
      (.setBindAddr serverAddr (.ok serverAddr.port) fun _ => rfl))
  have hSet := hBound.step (.setSource rfl (.screen "left"))
  have hBumped := hSet.step (.bump rfl)
  exact ⟨_, hBumped, by decide⟩

/-- `GET /stream`. -/
def getStream : HeadRead := .request ⟨"GET", "/stream", []⟩

/-- A stream is attached, and goes to the connection that comes next. -/
theorem next_connection_gets_stream :
    ∃ trace s, Run mediaServer trace s ∧ LeftAlone trace ∧ Kept trace s ∧
      s.held 0 = some ⟨2⟩ := by
  obtain ⟨trace, hRun, hInTime⟩ := sourceChosen_run
  have hNil : Path mediaServer sourceChosen [] sourceChosen := .nil
  have hAttached := (hNil.step (.attachScreenStream rfl)).step (.bump rfl)
  have hAccepted := hAttached.step (.accept rfl rfl)
  have hRead := hAccepted.step (.handler (h := 0) rfl (.readHead rfl getStream))
  have hTaken := hRead.step (.take (h := 0) rfl (by decide))
  have hAll := (slot_safe_iff (hRun.extend hTaken)).mpr
    (List.forall_mem_append.mpr ⟨hInTime, by decide⟩)
  exact ⟨_, _, hRun.extend hTaken, hAll.1, hAll.2, by decide⟩

/-- A connection accepted before the source is switched is slow with its
request head.  It takes the stream of the new source, finds the generation
changed, and drops it. -/
theorem slow_client_takes_stream :
    ¬ ∀ trace s, Run mediaServer trace s → LeftAlone trace ∧ Kept trace s := by
  intro hAll
  obtain ⟨trace, hRun, -⟩ := sourceChosen_run
  have hAccepted := hRun.step (.accept rfl rfl)
  have hSwitched := (hAccepted.step (.setSource rfl (.screen "right"))).step (.bump rfl)
  have hAttached := hSwitched.step (.attachScreenStream rfl)
  have hNil : Path mediaServer
      (sourceChosen.accepted.sourceSet (.screen "right")).bumped.streamAttached [] _ := .nil
  have hRead := (hNil.step (.bump rfl)).step (.handler (h := 0) rfl (.readHead rfl getStream))
  have hTaken := hRead.step (.take (h := 0) rfl (by decide))
  have hSent := hTaken.step (.handler (h := 0) rfl (.headSent rfl 0))
  have hAborted := hSent.step (.handler (h := 0) rfl (.abort rfl (by decide)))
  have hDropped := hAborted.step (.handler (h := 0) rfl (.dropped rfl))
  have hKept := (hAll _ _ (hAttached.extend hDropped)).2 _ _ _ ⟨3⟩ (List.append_assoc _ [_] _) rfl
    (by decide) fun m hMem h hLater hDrops => by
      -- the only handler was accepted before
      have hFirst : h = 0 :=
        (show ∀ m ∈ _, ∀ k ∈ actor m.label, k = 0 by decide) m hMem h hDrops.actor
      rw [hFirst] at hLater
      exact absurd hLater (by decide)
  rcases hKept with hSlot | ⟨h, hLater, hHeld⟩
  · cases hSlot
  · obtain ⟨handler, hHandler, -⟩ := Option.bind_eq_some_iff.mp hHeld
    have hLt := (List.getElem?_eq_some_iff.mp hHandler).1
    exact absurd hLater (Nat.not_le.mpr hLt)

end CastApp.Media.Connections
