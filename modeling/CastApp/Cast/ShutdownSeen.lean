import CastApp.Cast.ConnectionTask

/-!
# The shutdown branch of the connection task

The branch waits for a change of the token and is switched off, for one
`select!`, when the token is found triggered already.  A trigger is therefore
seen if it comes while the task is parked, and only then.

* **`shutdown_ready_iff`** — at every `select!` of a run with the token
  triggered the branch is ready, exactly when the run never enters a
  `select!` with the token triggered.
* `shutdown_lost` — once it does, the branch is never taken again.
* `trigger_while_connecting` — a trigger during an attempt to connect is such
  a run.
-/

namespace CastApp.Cast.ShutdownSeen

open CastApp.State
open CastApp.Cast.ConnectionTask
open CastApp.Cast.Reader
open CastApp.Cast.RunLoop
open CastApp.Cast.Session
open CastApp.Util
open CastApp.Util.Json
open CastApp.Verified.Coroutine
open CastApp.Verified.EventLoop
open CastApp.Verified.Transition
open CastApp.Verified.WatchChannel

/-- The shutdown branch of the current `select!` is enabled and ready. -/
def ShutdownReady (w : World) : Prop :=
  w.armed = true ∧ ∃ receiver, w.receiver = some receiver ∧ receiver.Ready w.token

/-! ## The token across one step -/

/-- What a step of the task does to the token: nothing, but it may subscribe
anew. -/
structure KeepsToken (w w' : World) : Prop where
  token : w'.token = w.token
  receiver : w'.receiver = w.receiver ∨ w'.receiver = some w.token.subscribe

theorem Answers.keepsToken {w w' : World} {op : Op} {r : op.Ans} (h : Answers w op r w') :
    KeepsToken w w' := by
  cases h with
  | subscribe => exact ⟨rfl, .inr rfl⟩
  | unreachable | connected | write | close | channel | unspawned | spawned | now | emit =>
      exact ⟨rfl, .inl rfl⟩

theorem Fires.keepsToken {w w' : World} {state : RunState} {b : Branch}
    (h : Fires w state b w') : KeepsToken w w' := by
  cases h with
  | shutdown => exact ⟨rfl, .inr rfl⟩
  | command | frame | closed | heartbeat | watchdog | reconnect => exact ⟨rfl, .inl rfl⟩

/-- What a step of somebody else does: it may trigger the token. -/
structure MayTrigger (w w' : World) : Prop where
  receiver : w'.receiver = w.receiver
  armed : w'.armed = w.armed
  token : w'.token = w.token ∨ w'.token = w.token.trigger

theorem Moves.mayTrigger {w w' : World} {step : Step} (h : Moves w step w') :
    MayTrigger w w' := by
  cases h with
  | trigger => exact ⟨rfl, rfl, .inr rfl⟩
  | poll | read => exact ⟨rfl, rfl, .inl rfl⟩
  | @send k reader connected =>
      cases (reader.thread.send connected).1 with
      | silent => exact ⟨rfl, rfl, .inl rfl⟩
      | send frame => cases connected <;> exact ⟨rfl, rfl, .inl rfl⟩

/-! ## The receiver of the task -/

variable {config : ConnectionConfig} {fromStr : String → Option Json}

/-- The task has a receiver from its first step on, and it is not ahead of
the token. -/
structure TokenInv (config : ConnectionConfig) (fromStr : String → Option Json)
    (c : TaskState) : Prop where
  token : Shutdown.WellFormed c.2.token
  subscribed : c.2.receiver = none → c.1 = .running (run config fromStr).prelude
  behind : ∀ receiver, c.2.receiver = some receiver → receiver.Behind c.2.token

/-- A step of the task from a state with a receiver. -/
theorem TokenInv.keeps {control control' : Control castSig RunState} {w w' : World}
    (hInv : TokenInv config fromStr (control, w)) (h : KeepsToken w w')
    (hSubscribed : w'.receiver ≠ none) : TokenInv config fromStr (control', w') where
  token := by rw [h.token]; exact hInv.token
  subscribed := fun hNone => absurd hNone hSubscribed
  behind := by
    intro receiver hReceiver
    rw [h.token]
    rcases h.receiver with hSame | hNew
    · exact hInv.behind receiver (hSame.symm.trans hReceiver)
    · rw [hNew] at hReceiver
      cases hReceiver
      exact behind_subscribe w.token

/-- Past the prelude the task has subscribed. -/
theorem TokenInv.receiver_ne_none {control : Control castSig RunState} {w : World}
    (hInv : TokenInv config fromStr (control, w))
    (hControl : control ≠ .running (run config fromStr).prelude) : w.receiver ≠ none :=
  fun hNone => hControl (hInv.subscribed hNone)

theorem tokenInv_new : TokenInv config fromStr (.running (run config fromStr).prelude, .new) where
  token := Shutdown.wellFormed_new
  subscribed := fun _ => rfl
  behind := by
    intro receiver hReceiver
    cases hReceiver

theorem TokenInv.step {c c' : TaskState} {label : Label castSig Branch Step}
    (hInv : TokenInv config fromStr c)
    (hStep : (connectionTask config fromStr).step c label c') : TokenInv config fromStr c' := by
  cases hStep with
  | @answer op r resume w w' h =>
      have hKeeps := Answers.keepsToken h
      refine hInv.keeps hKeeps ?_
      by_cases hNone : w.receiver = none
      · -- Only the prelude runs without a receiver, and it subscribes.
        cases hInv.subscribed hNone
        cases h
        exact Option.some_ne_none _
      · rcases hKeeps.receiver with hSame | hNew
        · rwa [hSame]
        · rw [hNew]
          exact Option.some_ne_none _
  | park h =>
      cases h
      exact hInv.keeps ⟨rfl, .inl rfl⟩ (hInv.receiver_ne_none nofun)
  | fire _ h =>
      have hKeeps := Fires.keepsToken h
      refine hInv.keeps hKeeps ?_
      rcases hKeeps.receiver with hSame | hNew
      · rw [hSame]
        exact hInv.receiver_ne_none nofun
      · rw [hNew]
        exact Option.some_ne_none _
  | exit | fault => exact hInv.keeps ⟨rfl, .inl rfl⟩ (hInv.receiver_ne_none nofun)
  | @move control step w w' h =>
      have hMoved := Moves.mayTrigger h
      constructor
      · rcases hMoved.token with hSame | hTriggered
        · rw [hSame]
          exact hInv.token
        · rw [hTriggered]
          exact Shutdown.wellFormed_trigger w.token
      · intro hNone
        exact hInv.subscribed (hMoved.receiver.symm.trans hNone)
      · intro receiver hReceiver
        have hBehind := hInv.behind receiver (hMoved.receiver.symm.trans hReceiver)
        rcases hMoved.token with hSame | hTriggered
        · rwa [hSame]
        · rw [hTriggered]
          exact hBehind.send true

theorem run_tokenInv {trace : List TaskMove} {c : TaskState}
    (hRun : Run (connectionTask config fromStr) trace c) : TokenInv config fromStr c := by
  refine hRun.invariant ?_ fun c label c' => TokenInv.step
  rintro ⟨control, w⟩ ⟨rfl, hInit⟩
  cases hInit
  exact tokenInv_new

/-! ## Being seen -/

/-- The token was running whenever the task entered a `select!`. -/
def ParksRunning (trace : List TaskMove) : Prop :=
  ∀ m ∈ trace, m.label = .park → m.pre.2.token.isShuttingDown = false

/-- The branch of a parked task that was armed, and has seen nothing yet. -/
structure Listening (w : World) : Prop where
  armed : w.armed = true
  fresh : ∃ receiver, w.receiver = some receiver ∧ receiver.seen = 0

/-- A task that parks while the token is running listens for it. -/
theorem TokenInv.listening {c : TaskState} {w : World} (hInv : TokenInv config fromStr c)
    (hReceiver : w.receiver = c.2.receiver) (hArmed : w.armed = true)
    (hSubscribed : c.2.receiver ≠ none) (hRunning : c.2.token.isShuttingDown = false) :
    Listening w := by
  obtain ⟨receiver, hSome⟩ := Option.ne_none_iff_exists'.mp hSubscribed
  have hVersion : c.2.token.version = 0 := hInv.token.mp hRunning
  have hBehind : receiver.seen ≤ c.2.token.version := hInv.behind receiver hSome
  exact ⟨hArmed, receiver, hReceiver.trans hSome, by omega⟩

theorem run_listens {trace : List TaskMove} {c : TaskState}
    (hRun : Run (connectionTask config fromStr) trace c) (hParks : ParksRunning trace) :
    ∀ state w, c = (.parked state, w) → Listening w := by
  refine hRun.traceInvariant
    (I := fun trace c => ParksRunning trace →
      ∀ state w, c = (.parked state, w) → Listening w) ?_ ?_ hParks
  · rintro c ⟨hPrelude, -⟩ - state w rfl
    cases hPrelude
  · intro trace c label c' hBefore hPrevious hStep hParks state w hParked
    have hEarlier : ParksRunning trace := fun m hMem => hParks m (List.mem_append_left _ hMem)
    have hInv := run_tokenInv hBefore
    cases hStep with
    | @park state₁ w₀ w₁ h =>
        cases hParked
        have hRunning : w₀.token.isShuttingDown = false :=
          hParks _ (List.mem_append_right _ (List.mem_singleton.mpr rfl)) rfl
        cases h
        exact hInv.listening rfl (by rw [hRunning]; rfl) (hInv.receiver_ne_none nofun) hRunning
    | @move control step w₀ w₁ h =>
        cases hParked
        have hMoved := Moves.mayTrigger h
        obtain ⟨hArmed, receiver, hReceiver, hSeen⟩ := hPrevious hEarlier state w₀ rfl
        exact ⟨hMoved.armed.trans hArmed, receiver, hMoved.receiver.trans hReceiver, hSeen⟩
    | answer | fire | exit | fault => cases hParked

/-- A listening branch is ready once the token is triggered. -/
theorem Listening.ready {w : World} (h : Listening w) (hToken : Shutdown.WellFormed w.token)
    (hTriggered : w.token.isShuttingDown = true) : ShutdownReady w := by
  obtain ⟨hArmed, receiver, hReceiver, hSeen⟩ := h
  exact ⟨hArmed, receiver, hReceiver, Shutdown.ready_of_unseen hToken hSeen hTriggered⟩

/-- **At every `select!` of a run with the token triggered, the shutdown
branch is enabled and ready, exactly when** the run enters no `select!` with
the token triggered already. -/
theorem shutdown_ready_iff {trace : List TaskMove} {c : TaskState}
    (hRun : Run (connectionTask config fromStr) trace c) :
    (∀ first rest state w, trace = first ++ rest →
      Run (connectionTask config fromStr) first (.parked state, w) →
      w.token.isShuttingDown = true → ShutdownReady w) ↔ ParksRunning trace := by
  constructor
  · rintro hReady ⟨pre, label, post⟩ hMem rfl
    obtain ⟨first, rest, rfl⟩ := List.append_of_mem hMem
    obtain ⟨hFirst, hStep⟩ := hRun.step_run
    have hNext := hFirst.step hStep
    cases hStep with
    | @park state w w' h =>
        cases h
        refine Bool.eq_false_iff.mpr fun hTriggered => ?_
        have hArmed := (hReady _ rest state _ (by simp) hNext hTriggered).1
        change (!w.token.isShuttingDown) = true at hArmed
        rw [hTriggered] at hArmed
        cases hArmed
  · rintro hParks first rest state w rfl hFirst hTriggered
    have hEarlier : ParksRunning first := fun m hMem => hParks m (List.mem_append_left _ hMem)
    exact (run_listens hFirst hEarlier state w rfl).ready (run_tokenInv hFirst).token hTriggered

/-- A trigger while the task is parked is seen. -/
theorem trigger_while_parked :
    ShutdownReady { World.listening with token := World.listening.token.trigger } := by
  obtain ⟨trace, hListening, hTokens⟩ := run_listening .default fun _ => none
  have hTriggered := run_move .trigger hListening .trigger
  refine (shutdown_ready_iff hTriggered).mpr ?_ _ [] .new _ (List.append_nil _).symm hTriggered rfl
  intro m hMem hPark
  rcases List.mem_append.mp hMem with hMem | hMem
  · rw [hTokens m hMem]
    rfl
  · rw [List.mem_singleton.mp hMem] at hPark
    cases hPark

/-! ## Being lost -/

/-- The token is triggered, and a parked task does not listen. -/
structure Deaf (c : TaskState) : Prop where
  triggered : c.2.token.isShuttingDown = true
  disarmed : ∀ state, c.1 = .parked state → c.2.armed = false

theorem deaf_running {p : Cast (Flow RunState)} {w : World}
    (hTriggered : w.token.isShuttingDown = true) : Deaf (.running p, w) := by
  refine ⟨hTriggered, fun state hParked => ?_⟩
  cases hParked

theorem Deaf.step {c c' : TaskState} {label : Label castSig Branch Step} (hDeaf : Deaf c)
    (hStep : (connectionTask config fromStr).step c label c') :
    Deaf c' ∧ label ≠ .fire .shutdown := by
  cases hStep with
  | answer h =>
      refine ⟨deaf_running ?_, nofun⟩
      rw [(Answers.keepsToken h).token]
      exact hDeaf.triggered
  | park h =>
      cases h
      refine ⟨⟨hDeaf.triggered, fun _ _ => ?_⟩, nofun⟩
      have hTriggered := hDeaf.triggered
      show (!_) = false
      rw [hTriggered]
      rfl
  | fire _ h =>
      refine ⟨deaf_running ?_, ?_⟩
      · rw [(Fires.keepsToken h).token]
        exact hDeaf.triggered
      · intro hShutdown
        cases hShutdown
        cases h with
        | shutdown hArmed =>
            have hDisarmed := hDeaf.disarmed _ rfl
            rw [hArmed] at hDisarmed
            cases hDisarmed
  | exit | fault =>
      refine ⟨⟨hDeaf.triggered, fun state hParked => ?_⟩, nofun⟩
      cases hParked
  | move h =>
      have hMoved := Moves.mayTrigger h
      refine ⟨⟨?_, ?_⟩, nofun⟩
      · rcases hMoved.token with hSame | hTriggered
        · rw [hSame]
          exact hDeaf.triggered
        · rw [hTriggered]
          rfl
      · intro state hParked
        rw [hMoved.armed]
        exact hDeaf.disarmed state hParked

/-- Once the task enters a `select!` with the token triggered, it never takes
the shutdown branch again. -/
theorem shutdown_lost {trace : List TaskMove} {c : TaskState}
    (hRun : Run (connectionTask config fromStr) trace c) :
    ∀ first m rest, trace = first ++ m :: rest → m.label = .park →
      m.pre.2.token.isShuttingDown = true →
      Deaf c ∧ ∀ later ∈ rest, later.label ≠ .fire .shutdown := by
  refine hRun.traceInvariant
    (I := fun trace c => ∀ first m rest, trace = first ++ m :: rest → m.label = .park →
      m.pre.2.token.isShuttingDown = true →
      Deaf c ∧ ∀ later ∈ rest, later.label ≠ .fire .shutdown) ?_ ?_
  · intro c _ first m rest hSplit
    cases first <;> cases hSplit
  · intro trace c label c' hBefore hPrevious hStep first m rest hSplit hPark hTriggered
    rcases List.eq_nil_or_concat rest with rfl | ⟨rest, last, rfl⟩
    · obtain ⟨-, hSame⟩ := List.append_inj' hSplit rfl
      cases hSame
      cases hPark
      have hDeaf : Deaf c := by
        refine ⟨hTriggered, fun state hParked => ?_⟩
        cases hStep
        cases hParked
      exact ⟨(hDeaf.step hStep).1, fun later hLater => absurd hLater List.not_mem_nil⟩
    · rw [List.concat_eq_append] at hSplit ⊢
      rw [show first ++ m :: (rest ++ [last]) = (first ++ m :: rest) ++ [last] by simp] at hSplit
      obtain ⟨hEarlier, hSame⟩ := List.append_inj' hSplit rfl
      cases hSame
      obtain ⟨hDeaf, hNever⟩ := hPrevious first m rest hEarlier hPark hTriggered
      obtain ⟨hDeaf', hLast⟩ := hDeaf.step hStep
      refine ⟨hDeaf', fun later hLater => ?_⟩
      rcases List.mem_append.mp hLater with hLater | hLater
      · exact hNever later hLater
      · rw [List.mem_singleton.mp hLater]
        exact hLast

/-- A token triggered while the task is connecting finds the shutdown branch
switched off at the next `select!`. -/
theorem trigger_while_connecting :
    ¬ ∀ trace state w, Run (connectionTask .default fun _ => none) trace (.parked state, w) →
      w.token.isShuttingDown = true → ShutdownReady w := by
  intro hAll
  obtain ⟨trace, hListening, -⟩ := run_listening .default fun _ => none
  have hSelected := run_fire (.command (some (.select livingRoom))) hListening trivial
    (.command _)
  obtain ⟨more, hOpened⟩ := run_obliged (run_move .trigger hSelected .trigger)
  have hArmed := (hAll _ _ _ (run_park hOpened) rfl).1
  cases hArmed

end CastApp.Cast.ShutdownSeen
