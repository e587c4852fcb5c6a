import CastApp.Screen.Bridge

/-!
# One encoder generation at a time

A restart joins the readers of the old generation before it clears the output
queue, and spawns the next encoder after that.  So at any time only the
reader of the newest generation may still push, and all that is queued is of
that generation.

* `Awaited` — which readers may be running, at each place of the controller.
* **`run_generations`** — the invariant, for every run.
-/

namespace CastApp.Screen.Bridge

open CastApp.State
open CastApp.Screen.Capture
open CastApp.Screen.Segments
open CastApp.Util.Backpressure
open CastApp.Verified.Transition

variable {p p' : Pipeline} {l : Label} {g : Nat}

/-! ## What the threads leave alone -/

/-- The encoders, the readers and the way of their output are as they were. -/
structure SameStream (p p' : Pipeline) : Prop where
  output : p'.output = p.output
  readers : p'.readers = p.readers
  readerHandles : p'.readerHandles = p.readerHandles
  controller : p'.controller = p.controller
  forwarder : p'.forwarder = p.forwarder
  accepted : p'.channel.accepted = p.channel.accepted

theorem CaptureStep.sameStream (h : CaptureStep p l p') : SameStream p p' := by
  cases h <;> exact ⟨rfl, rfl, rfl, rfl, rfl, rfl⟩

theorem OutsideStep.sameStream (h : OutsideStep p l p') : SameStream p p' := by
  cases h <;> exact ⟨rfl, rfl, rfl, rfl, rfl, rfl⟩

/-! ## Readers -/

theorem not_readerFinished :
    ¬ p.ReaderFinished g ↔ ∃ r, p.readers[g]? = some r ∧ ¬ r.Finished := by
  simp [Pipeline.ReaderFinished]

theorem readerFinished_congr (h : p'.readers = p.readers) :
    p'.ReaderFinished g ↔ p.ReaderFinished g := by
  unfold Pipeline.ReaderFinished
  rw [h]

theorem not_finished_of_pop {r r' : StdoutReader} {segment : EncodedSegment}
    (h : r.pop = some (segment, r')) : ¬ r.Finished := by
  intro hFinished
  unfold StdoutReader.pop at h
  rw [hFinished] at h
  cases h

theorem not_finished_of_drained {r r' : StdoutReader} (h : r.drained = some r') :
    ¬ r.Finished := by
  intro hFinished
  unfold StdoutReader.drained at h
  rw [hFinished] at h
  cases h

/-- The reader that takes a step has not finished, and only it changes. -/
theorem ReaderStep.running (h : ReaderStep p g l p') :
    ∃ r r', p.readers[g]? = some r ∧ ¬ r.Finished ∧ p'.readers = p.readers.set g r' := by
  cases h with
  | read hReader hControl =>
      refine ⟨_, _, hReader, fun hFinished => ?_, rfl⟩
      rw [StdoutReader.Finished, hControl] at hFinished
      cases hFinished
  | push hReader hPop => exact ⟨_, _, hReader, not_finished_of_pop hPop, rfl⟩
  | drained hReader hDrained => exact ⟨_, _, hReader, not_finished_of_drained hDrained, rfl⟩

/-- A reader that has finished stays so. -/
theorem ReaderStep.finished {i : Nat} (h : ReaderStep p g l p') (hFinished : p.ReaderFinished i) :
    p'.ReaderFinished i := by
  obtain ⟨r, r', hReader, hRunning, hReaders⟩ := h.running
  have hOther : g ≠ i := by
    rintro rfl
    exact hRunning (hFinished r hReader)
  intro r₁ hr₁
  rw [hReaders, List.getElem?_set_ne hOther] at hr₁
  exact hFinished r₁ hr₁

theorem ReaderStep.length (h : ReaderStep p g l p') : p'.readers.length = p.readers.length := by
  obtain ⟨r, r', -, -, hReaders⟩ := h.running
  rw [hReaders, List.length_set]

theorem ReaderStep.controller (h : ReaderStep p g l p') :
    p'.controller = p.controller ∧ p'.readerHandles = p.readerHandles := by
  cases h <;> exact ⟨rfl, rfl⟩

/-- What is queued after a reader's step was queued before, or is of its
generation. -/
theorem ReaderStep.output {e : Emission} (h : ReaderStep p g l p') (hMem : e ∈ p'.output.items) :
    e ∈ p.output.items ∨ e.generation = g := by
  cases h with
  | read | drained => exact .inl hMem
  | push hReader hPop =>
      rcases BoundedDropOldest.mem_pushOr rfl hMem with hOld | rfl
      · exact .inl hOld
      · exact .inr rfl

theorem ReaderStep.capacity (h : ReaderStep p g l p') :
    p'.output.capacity = p.output.capacity := by
  cases h with
  | read | drained => rfl
  | push => exact BoundedDropOldest.pushOr_capacity rfl

theorem ForwarderStep.capacity (h : ForwarderStep p l p') :
    p'.output.capacity = p.output.capacity := by
  cases h with
  | pop hControl hPop => exact (BoundedDropOldest.tryPop_some hPop).2
  | enter | leave | noSegment | deliver | drop | hold | retry | giveUp | unreceived => rfl

theorem ForwarderStep.output {e : Emission} (h : ForwarderStep p l p')
    (hMem : e ∈ p'.output.items) : e ∈ p.output.items := by
  cases h with
  | pop hControl hPop =>
      rw [(BoundedDropOldest.tryPop_some hPop).1]
      exact List.mem_cons_of_mem _ hMem
  | enter | leave | noSegment | deliver | drop | hold | retry | giveUp | unreceived => exact hMem

theorem ForwarderStep.controller (h : ForwarderStep p l p') :
    p'.controller = p.controller ∧ p'.readerHandles = p.readerHandles ∧
      p'.readers = p.readers := by
  cases h <;> exact ⟨rfl, rfl, rfl⟩

/-! ## The invariant -/

/-- Which readers may be running: none before the first spawn and from the
end of the joins to the next one, in between those that are awaited. -/
def Awaited (p : Pipeline) : ControllerControl → Prop
  | .preparing | .spawning _ => p.readers = []
  | .joining _ handles => ∀ g, ¬ p.ReaderFinished g → g ∈ handles
  | .emptying _ => ∀ g, p.ReaderFinished g
  | .respawning _ => (∀ g, p.ReaderFinished g) ∧ p.output.items = []
  | _ => ∀ g, ¬ p.ReaderFinished g → g ∈ p.readerHandles

structure Generations (p : Pipeline) : Prop where
  latest : ∀ g, ¬ p.ReaderFinished g → g + 1 = p.readers.length
  queued : ∀ e ∈ p.output.items, e.generation + 1 = p.readers.length
  awaited : Awaited p p.controller.control
  capacity : p.output.capacity = outputQueueCapacity

theorem generations_new (input : PipelineInput) (shuttingDown : Bool) :
    Generations (.new input shuttingDown) := by
  refine ⟨?_, by simp [Pipeline.new], ?_, rfl⟩
  · intro g hRunning
    obtain ⟨r, hReader, -⟩ := not_readerFinished.mp hRunning
    simp [Pipeline.new] at hReader
  · cases input <;> rfl

/-- What is awaited only depends on the readers and the queue. -/
theorem Awaited.of_finished {control : ControllerControl} (h : Awaited p control)
    (hFinished : ∀ g, p.ReaderFinished g → p'.ReaderFinished g)
    (hLength : p'.readers.length = p.readers.length)
    (hHandles : p'.readerHandles = p.readerHandles)
    (hEmpty : (∀ g, p.ReaderFinished g) → p.output.items = [] → p'.output.items = []) :
    Awaited p' control := by
  have hRunning : ∀ g, ¬ p'.ReaderFinished g → ¬ p.ReaderFinished g :=
    fun g hRunning hOld => hRunning (hFinished g hOld)
  cases control with
  | preparing | spawning =>
      have hNil : p.readers = [] := h
      rw [hNil] at hLength
      exact List.eq_nil_of_length_eq_zero hLength
  | joining target handles => exact fun g hr => h g (hRunning g hr)
  | emptying => exact fun g => hFinished g (h g)
  | respawning => exact ⟨fun g => hFinished g (h.1 g), hEmpty h.1 h.2⟩
  | _ =>
      intro g hr
      rw [hHandles]
      exact h g (hRunning g hr)

theorem Generations.sameStream (h : Generations p) (hSame : SameStream p p') :
    Generations p' := by
  have hFinished : ∀ g, p'.ReaderFinished g ↔ p.ReaderFinished g :=
    fun g => readerFinished_congr hSame.readers
  refine ⟨?_, ?_, ?_, by rw [hSame.output, h.capacity]⟩
  · intro g hRunning
    rw [hSame.readers]
    exact h.latest g fun hOld => hRunning ((hFinished g).mpr hOld)
  · rw [hSame.output, hSame.readers]
    exact h.queued
  · rw [hSame.controller]
    exact h.awaited.of_finished (fun g => (hFinished g).mpr) (by rw [hSame.readers])
      hSame.readerHandles fun _ hEmpty => by rw [hSame.output, hEmpty]

theorem Generations.forwarder (h : Generations p) (hStep : ForwarderStep p l p') :
    Generations p' := by
  obtain ⟨hController, hHandles, hReaders⟩ := hStep.controller
  have hFinished : ∀ g, p'.ReaderFinished g ↔ p.ReaderFinished g :=
    fun g => readerFinished_congr hReaders
  refine ⟨?_, ?_, ?_, hStep.capacity.trans h.capacity⟩
  · intro g hRunning
    rw [hReaders]
    exact h.latest g fun hOld => hRunning ((hFinished g).mpr hOld)
  · intro e hMem
    rw [hReaders]
    exact h.queued e (hStep.output hMem)
  · rw [hController]
    refine h.awaited.of_finished (fun g => (hFinished g).mpr) (by rw [hReaders]) hHandles ?_
    intro _ hEmpty
    refine List.eq_nil_iff_forall_not_mem.mpr fun e hMem => ?_
    have hOld := hStep.output hMem
    rw [hEmpty] at hOld
    cases hOld

theorem Generations.reader (h : Generations p) (hStep : ReaderStep p g l p') :
    Generations p' := by
  obtain ⟨hController, hHandles⟩ := hStep.controller
  obtain ⟨r, r', hReader, hRunning, -⟩ := hStep.running
  have hHere : ¬ p.ReaderFinished g := fun hFinished => hRunning (hFinished r hReader)
  refine ⟨?_, ?_, ?_, hStep.capacity.trans h.capacity⟩
  · intro i hi
    rw [hStep.length]
    exact h.latest i fun hOld => hi (hStep.finished hOld)
  · intro e hMem
    rw [hStep.length]
    rcases hStep.output hMem with hOld | rfl
    · exact h.queued e hOld
    · exact h.latest _ hHere
  · rw [hController]
    exact h.awaited.of_finished (fun i hOld => hStep.finished hOld) hStep.length hHandles
      fun hAll _ => absurd (hAll g) hHere

/-- A spawned generation is the only one that may run. -/
theorem generations_spawn (hFinished : ∀ g, p.ReaderFinished g)
    (hEmpty : p.output.items = []) (hCapacity : p.output.capacity = outputQueueCapacity)
    (target : EncoderTarget) (reader : Bool)
    {control : ControllerControl}
    (hControl : ∀ p', Awaited p' control ↔ ∀ g, ¬ p'.ReaderFinished g → g ∈ p'.readerHandles) :
    Generations ((p.spawn target reader).goto control) := by
  have hNew : ∀ g, ¬ ((p.spawn target reader).goto control).ReaderFinished g →
      g = p.readers.length ∧ reader = true := by
    intro g hRunning
    obtain ⟨r, hReader, hNot⟩ := not_readerFinished.mp hRunning
    have hSplit : (p.readers ++ [if reader then StdoutReader.new else .absent])[g]? = some r :=
      hReader
    by_cases hOld : g < p.readers.length
    · rw [List.getElem?_append_left hOld] at hSplit
      exact absurd (hFinished g r hSplit) hNot
    · have hLast : g = p.readers.length := by
        have hLt := (List.getElem?_eq_some_iff.mp hSplit).1
        rw [List.length_append, List.length_singleton] at hLt
        omega
      refine ⟨hLast, ?_⟩
      subst hLast
      rw [List.getElem?_append_right (Nat.le_refl _), Nat.sub_self] at hSplit
      cases reader with
      | true => rfl
      | false =>
          cases hSplit
          exact absurd rfl hNot
  refine ⟨?_, ?_, ?_, hCapacity⟩
  · intro g hRunning
    obtain ⟨rfl, -⟩ := hNew g hRunning
    simp [Pipeline.spawn, Pipeline.goto]
  · intro e hMem
    have hOld : e ∈ p.output.items := hMem
    rw [hEmpty] at hOld
    cases hOld
  · refine (hControl _).mpr ?_
    intro g hRunning
    obtain ⟨rfl, rfl⟩ := hNew g hRunning
    simp [Pipeline.spawn, Pipeline.goto]

/-- The turn goes on to a restart, to the end of it, or past it. -/
theorem afterRead_control (c : Controller) (next : Option EncoderTarget)
    (requested : Option Size) (announcements : Nat) :
    (∃ target, Controller.candidate next requested = some target ∧ c.current ≠ some target ∧
        (c.afterRead next requested announcements).control = .waiting target) ∨
      (∃ target, Controller.candidate next requested = some target ∧ c.current = some target ∧
        (c.afterRead next requested announcements).control = .clearing target) ∨
      (Controller.candidate next requested = none ∧
        (c.afterRead next requested announcements).control = .probing) := by
  unfold Controller.afterRead
  cases Controller.candidate next requested with
  | none => exact .inr (.inr ⟨rfl, rfl⟩)
  | some target =>
      by_cases hCurrent : c.current = some target
      · exact .inr (.inl ⟨target, rfl, hCurrent, by simp [hCurrent]⟩)
      · exact .inl ⟨target, rfl, hCurrent, by simp [hCurrent]⟩

/-- What holds of a restart, of the end of a turn and of going past it, holds
of what the turn goes on to. -/
theorem afterRead_reaches {Q : ControllerControl → Prop} (c : Controller)
    (next : Option EncoderTarget) (requested : Option Size) (announcements : Nat)
    (hTarget : ∀ target, Controller.candidate next requested = some target →
      Q (.waiting target) ∧ Q (.clearing target))
    (hNone : Controller.candidate next requested = none → Q .probing) :
    Q (c.afterRead next requested announcements).control := by
  rcases afterRead_control c next requested announcements with
    ⟨target, hSome, -, hNext⟩ | ⟨target, hSome, -, hNext⟩ | ⟨hSome, hNext⟩
  · rw [hNext]
    exact (hTarget target hSome).1
  · rw [hNext]
    exact (hTarget target hSome).2
  · rw [hNext]
    exact hNone hSome

/-- A read leaves the encoder what it is, its stdin aside. -/
theorem current_afterRead (c : Controller) (next : Option EncoderTarget)
    (requested : Option Size) (announcements : Nat) :
    (c.afterRead next requested announcements).current = c.current := by
  unfold Controller.current Controller.afterRead
  cases Controller.candidate next requested with
  | none => rfl
  | some target =>
      by_cases hCurrent : c.encoder.map (·.current) ≠ some target
      · simp only [Controller.current, hCurrent, if_true, ne_eq, not_false_eq_true]
        cases c.encoder <;> rfl
      · simp only [Controller.current, hCurrent, if_false]

theorem Generations.controller (h : Generations p) (hStep : ControllerStep p l p') :
    Generations p' := by
  have hAwaited := h.awaited
  cases hStep with
  | prepared hControl | enter hControl | leave hControl | noStatus hControl | format hControl
  | streamFailed hControl | clearSlot hControl | running hControl | exited hControl
  | unprobed hControl | noFrame hControl | popFrame hControl | fed hControl | unfed hControl
  | silence hControl | complain hControl | fail hControl | refuse hControl | teardown hControl =>
      rw [hControl] at hAwaited
      exact ⟨h.latest, h.queued, hAwaited, h.capacity⟩
  | unprepared hControl | unspawned hControl =>
      rw [hControl] at hAwaited
      refine ⟨h.latest, h.queued, fun g hRunning => ?_, h.capacity⟩
      obtain ⟨r, hReader, -⟩ := not_readerFinished.mp hRunning
      have hNone : p.readers[g]? = some r := hReader
      rw [show p.readers = [] from hAwaited] at hNone
      cases hNone
  | @spawned target hControl reader =>
      rw [hControl] at hAwaited
      have hNil : p.readers = [] := hAwaited
      refine generations_spawn ?_ ?_ h.capacity target reader fun _ => Iff.rfl
      · intro g r hReader
        rw [hNil] at hReader
        cases hReader
      · refine List.eq_nil_iff_forall_not_mem.mpr fun e hMem => ?_
        have hGeneration := h.queued e hMem
        rw [hNil] at hGeneration
        cases hGeneration
  | readSlot hControl =>
      rw [hControl] at hAwaited
      refine ⟨h.latest, h.queued, ?_, h.capacity⟩
      exact afterRead_reaches p.controller _ p.resolutionRequest p.announced.length
        (fun _ _ => ⟨hAwaited, hAwaited⟩) fun _ => hAwaited
  | waited hControl =>
      rw [hControl] at hAwaited
      exact ⟨h.latest, h.queued, hAwaited, h.capacity⟩
  | @join target g handles hControl hFinished =>
      rw [hControl] at hAwaited
      refine ⟨h.latest, h.queued, fun i hRunning => ?_, h.capacity⟩
      rcases List.mem_cons.mp (hAwaited i hRunning) with rfl | hMem
      · exact absurd hFinished hRunning
      · exact hMem
  | joined hControl =>
      rw [hControl] at hAwaited
      refine ⟨h.latest, h.queued, fun g => ?_, h.capacity⟩
      by_contra hRunning
      exact absurd (hAwaited g hRunning) List.not_mem_nil
  | clearOutput hControl =>
      rw [hControl] at hAwaited
      refine ⟨h.latest, fun e hMem => ?_, ⟨hAwaited, rfl⟩, h.capacity⟩
      cases hMem
  | @respawned target hControl reader =>
      rw [hControl] at hAwaited
      exact generations_spawn hAwaited.1 hAwaited.2 h.capacity target reader fun _ => Iff.rfl
  | unrespawned hControl =>
      rw [hControl] at hAwaited
      exact ⟨h.latest, h.queued, fun g hRunning => absurd (hAwaited.1 g) hRunning,
        h.capacity⟩

theorem Generations.step (h : Generations p) (hStep : Step p l p') : Generations p' := by
  cases hStep with
  | capture hStep => exact h.sameStream hStep.sameStream
  | controller hStep => exact h.controller hStep
  | reader g hStep => exact h.reader hStep
  | forwarder hStep => exact h.forwarder hStep
  | outside hStep => exact h.sameStream hStep.sameStream

/-- Only the newest reader pushes, and only its segments are queued. -/
theorem run_generations {input : PipelineInput} {trace : List PipelineMove}
    (hRun : Run (bridge input) trace p) : Generations p := by
  refine hRun.invariant ?_ ?_
  · rintro p ⟨shuttingDown, rfl⟩
    exact generations_new input shuttingDown
  · intro p l p' h hStep
    exact h.step hStep

end CastApp.Screen.Bridge
