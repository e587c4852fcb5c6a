import CastApp.Screen.Generations
import CastApp.Verified.LedStream

/-!
# What the generations emit

Each stdout reader pushes the segments its segmenter cuts.  Over all readers
the segments come generation after generation, and the initialization of a
generation before its fragments.

* `Source` — what a reader has pushed and still holds begins with the only
  initialization of its generation, if there is one.
* **`run_emissions`** — the order of everything emitted, for every run.
-/

namespace CastApp.Screen.Bridge

open CastApp.State
open CastApp.Screen.Segments
open CastApp.Util.Backpressure
open CastApp.Verified.LedStream
open CastApp.Verified.Transition

variable {p p' : Pipeline} {l : Label} {g : Nat} {trace : List PipelineMove}

/-! ## Reading a run -/

def emittedIn : Label → Option Emission
  | .emit emission => some emission
  | _ => none

/-- The segments pushed by the readers, in order. -/
def emitted (trace : List PipelineMove) : List Emission :=
  trace.filterMap fun m => emittedIn m.label

theorem emitted_concat (trace : List PipelineMove) (p : Pipeline) (l : Label) (p' : Pipeline) :
    emitted (trace ++ [⟨p, l, p'⟩]) = emitted trace ++ (emittedIn l).toList := by
  unfold emitted
  rw [List.filterMap_append]
  cases h : emittedIn l <;> simp [h]

/-- A segment that leads its generation. -/
def IsInit (e : Emission) : Prop := e.segment.isFragment = false

instance (e : Emission) : Decidable (IsInit e) :=
  inferInstanceAs (Decidable (_ = _))

/-- The segments of one generation. -/
def sentBy (g : Nat) (emissions : List Emission) : List EncodedSegment :=
  (emissions.filter fun e => decide (e.generation = g)).map (·.segment)

theorem sentBy_concat_self (emissions : List Emission) (segment : EncodedSegment) :
    sentBy g (emissions ++ [⟨g, segment⟩]) = sentBy g emissions ++ [segment] := by
  simp [sentBy, List.filter_append]

theorem sentBy_concat_other {i : Nat} (emissions : List Emission) (segment : EncodedSegment)
    (hOther : i ≠ g) : sentBy g (emissions ++ [⟨i, segment⟩]) = sentBy g emissions := by
  simp [sentBy, List.filter_append, hOther]

theorem sentBy_eq_nil {emissions : List Emission} (h : ∀ e ∈ emissions, e.generation ≠ g) :
    sentBy g emissions = [] := by
  unfold sentBy
  rw [List.filter_eq_nil_iff.mpr, List.map_nil]
  intro e hMem
  simpa using h e hMem

/-! ## One reader -/

namespace StdoutReader

/-- The segments still to be pushed. -/
def held (r : StdoutReader) : List EncodedSegment :=
  match r.control with
  | .pushing segments | .flushing segments => segments
  | _ => []

/-- No more initialization can come. -/
def Settled (r : StdoutReader) : Prop :=
  match r.control with
  | .reading | .pushing _ => r.segmenter.InitSettled
  | .flushing _ | .finished => True

end StdoutReader

/-- What a reader has sent and holds: an initialization leads or there is
none, and once there is anything none is to come. -/
structure Source (sent : List EncodedSegment) (r : StdoutReader) : Prop where
  initFirst : InitFirst (sent ++ r.held)
  settled : sent ++ r.held ≠ [] → r.Settled

theorem source_new (reader : Bool) :
    Source [] (if reader then StdoutReader.new else .absent) := by
  cases reader with
  | true => exact ⟨initFirst_nil, fun h => absurd rfl h⟩
  | false => exact ⟨initFirst_nil, fun h => absurd rfl h⟩

theorem Source.read {sent : List EncodedSegment} {r : StdoutReader} (h : Source sent r)
    (hControl : r.control = .reading) (result : Except IoError (List Byte)) :
    Source sent (r.read result) := by
  have hHeld : r.held = [] := by
    unfold StdoutReader.held
    rw [hControl]
  have hSent : InitFirst sent := by
    have hAll := h.initFirst
    rwa [hHeld, List.append_nil] at hAll
  have hSettled : sent ≠ [] → r.segmenter.InitSettled := by
    intro hSome
    have hAll := h.settled
    rw [hHeld, List.append_nil, StdoutReader.Settled, hControl] at hAll
    exact hAll hSome
  cases result with
  | error error =>
      show Source sent (if error.kind = .interrupted then r else { r with control := .finished })
      split
      · exact h
      · refine ⟨?_, fun _ => trivial⟩
        show InitFirst (sent ++ [])
        rwa [List.append_nil]
  | ok chunk =>
      by_cases hSome : sent = []
      · subst hSome
        cases chunk with
        | nil => exact ⟨Mp4Segmenter.finish_initFirst, fun _ => trivial⟩
        | cons byte bytes =>
            obtain ⟨hFirst, hAfter⟩ := @Mp4Segmenter.feed_initFirst r.segmenter (byte :: bytes)
            exact ⟨hFirst, hAfter⟩
      · cases chunk with
        | nil =>
            refine ⟨?_, fun _ => trivial⟩
            show InitFirst (sent ++ r.segmenter.finish)
            rwa [Mp4Segmenter.finish_fragments (hSettled hSome), List.append_nil]
        | cons byte bytes =>
            obtain ⟨hFragments, hAfter⟩ :=
              Mp4Segmenter.feed_fragments (hSettled hSome) (byte :: bytes)
            exact ⟨hSent.append hFragments, fun _ => hAfter⟩

/-- Pushing moves a segment from what is held to what was sent. -/
theorem pop_held {r r' : StdoutReader} {segment : EncodedSegment}
    (h : r.pop = some (segment, r')) :
    r.held = segment :: r'.held ∧ (r.Settled → r'.Settled) := by
  unfold StdoutReader.pop at h
  split at h
  · rename_i hControl
    cases h
    unfold StdoutReader.held StdoutReader.Settled
    rw [hControl]
    exact ⟨rfl, id⟩
  · rename_i hControl
    cases h
    unfold StdoutReader.held StdoutReader.Settled
    rw [hControl]
    exact ⟨rfl, id⟩
  · cases h

theorem Source.pop {sent : List EncodedSegment} {r r' : StdoutReader} {segment : EncodedSegment}
    (h : Source sent r) (hPop : r.pop = some (segment, r')) :
    Source (sent ++ [segment]) r' ∧ (sent ≠ [] → segment.isFragment = true) := by
  obtain ⟨hHeld, hSettled⟩ := pop_held hPop
  have hFirst := h.initFirst
  rw [hHeld] at hFirst
  refine ⟨⟨?_, fun _ => hSettled (h.settled ?_)⟩, fun hSome => ?_⟩
  · rwa [List.append_assoc]
  · rw [hHeld]
    simp
  · obtain ⟨first, hMem⟩ := List.exists_mem_of_ne_nil sent hSome
    exact (List.pairwise_append.mp hFirst).2.2 first hMem segment List.mem_cons_self

theorem Source.drained {sent : List EncodedSegment} {r r' : StdoutReader} (h : Source sent r)
    (hDrained : r.drained = some r') : Source sent r' := by
  have hFirst := h.initFirst
  have hSettled := h.settled
  unfold StdoutReader.drained at hDrained
  split at hDrained
  · rename_i hControl
    cases hDrained
    unfold StdoutReader.held StdoutReader.Settled at *
    rw [hControl] at hFirst hSettled
    exact ⟨hFirst, hSettled⟩
  · rename_i hControl
    cases hDrained
    unfold StdoutReader.held at hFirst
    rw [hControl] at hFirst
    exact ⟨hFirst, fun _ => trivial⟩
  · cases hDrained

/-! ## All readers -/

/-- The order of what was emitted, and where each reader stands. -/
structure Emissions (emissions : List Emission) (p : Pipeline) : Prop where
  sorted : emissions.Pairwise fun a b => a.generation ≤ b.generation
  heads : HeadsFirst (·.generation) IsInit emissions
  spawned : ∀ e ∈ emissions, e.generation < p.readers.length
  sources : ∀ g r, p.readers[g]? = some r → Source (sentBy g emissions) r

variable {emissions : List Emission}

theorem Emissions.sameReaders (h : Emissions emissions p) (hReaders : p'.readers = p.readers) :
    Emissions emissions p' := by
  refine ⟨h.sorted, h.heads, ?_, ?_⟩
  · rw [hReaders]
    exact h.spawned
  · rw [hReaders]
    exact h.sources

theorem Emissions.setReader {r' : StdoutReader} (h : Emissions emissions p)
    (hSource : Source (sentBy g emissions) r') : Emissions emissions (p.setReader g r') := by
  refine ⟨h.sorted, h.heads, ?_, ?_⟩
  · intro e hMem
    show e.generation < (p.readers.set g r').length
    rw [List.length_set]
    exact h.spawned e hMem
  · intro i r hReader
    have hSet : (p.readers.set g r')[i]? = some r := hReader
    rw [List.getElem?_set] at hSet
    split at hSet
    · rename_i hEq
      subst hEq
      split at hSet
      · cases hSet
        exact hSource
      · cases hSet
    · exact h.sources i r hSet

/-- A new generation has sent nothing. -/
theorem Emissions.spawn (h : Emissions emissions p) (target : EncoderTarget) (reader : Bool) :
    Emissions emissions (p.spawn target reader) := by
  refine ⟨h.sorted, h.heads, ?_, ?_⟩
  · intro e hMem
    show e.generation < (p.readers ++ [_]).length
    rw [List.length_append, List.length_singleton]
    exact Nat.lt_succ_of_lt (h.spawned e hMem)
  · intro g r hReader
    have hSplit : (p.readers ++ [if reader then StdoutReader.new else .absent])[g]? = some r :=
      hReader
    by_cases hOld : g < p.readers.length
    · rw [List.getElem?_append_left hOld] at hSplit
      exact h.sources g r hSplit
    · rw [List.getElem?_append_right (by omega)] at hSplit
      have hNone : sentBy g emissions = [] := by
        refine sentBy_eq_nil fun e hMem => ?_
        have hLt := h.spawned e hMem
        omega
      rw [hNone]
      rw [(List.mem_singleton.mp (List.mem_of_getElem? hSplit))]
      exact source_new reader

/-- A push by the newest generation. -/
theorem Emissions.push {r r' : StdoutReader} {segment : EncodedSegment}
    (h : Emissions emissions p) (hReader : p.readers[g]? = some r)
    (hPop : r.pop = some (segment, r')) (hLatest : g + 1 = p.readers.length) :
    Emissions (emissions ++ [⟨g, segment⟩]) (p.setReader g r') := by
  obtain ⟨hSource, hFragment⟩ := (h.sources g r hReader).pop hPop
  have hLength : (p.setReader g r').readers.length = p.readers.length := List.length_set
  refine ⟨?_, h.heads.send ?_, ?_, ?_⟩
  · refine List.pairwise_append.mpr ⟨h.sorted, List.pairwise_singleton _ _, ?_⟩
    intro a ha b hb
    rw [List.mem_singleton.mp hb]
    have hLt := h.spawned a ha
    show a.generation ≤ g
    omega
  · intro hInit e hMem hGroup
    have hSome : sentBy g emissions ≠ [] := by
      refine List.ne_nil_of_mem (List.mem_map.mpr ⟨e, List.mem_filter.mpr ⟨hMem, ?_⟩, rfl⟩)
      exact decide_eq_true hGroup
    have hNot := hFragment hSome
    rw [IsInit] at hInit
    rw [hInit] at hNot
    cases hNot
  · intro e hMem
    rw [hLength]
    rcases List.mem_append.mp hMem with hMem | hMem
    · exact h.spawned e hMem
    · rw [List.mem_singleton.mp hMem]
      show g < p.readers.length
      omega
  · intro i r₁ hr₁
    have hSet : (p.readers.set g r')[i]? = some r₁ := hr₁
    by_cases hSame : g = i
    · subst hSame
      rw [sentBy_concat_self]
      rw [List.getElem?_set_self (by omega)] at hSet
      cases hSet
      exact hSource
    · rw [sentBy_concat_other _ _ hSame]
      rw [List.getElem?_set_ne hSame] at hSet
      exact h.sources i r₁ hSet

/-- A step that emits nothing and leaves the readers alone. -/
theorem Emissions.silent (h : Emissions emissions p) (hEmits : emittedIn l = none)
    (hReaders : p'.readers = p.readers) :
    Emissions (emissions ++ (emittedIn l).toList) p' := by
  rw [hEmits]
  simpa using h.sameReaders hReaders

theorem CaptureStep.emittedIn_eq (h : CaptureStep p l p') : emittedIn l = none := by
  cases h <;> rfl

theorem ControllerStep.emittedIn_eq (h : ControllerStep p l p') : emittedIn l = none := by
  cases h <;> rfl

theorem ForwarderStep.emittedIn_eq (h : ForwarderStep p l p') : emittedIn l = none := by
  cases h <;> rfl

theorem OutsideStep.emittedIn_eq (h : OutsideStep p l p') : emittedIn l = none := by
  cases h <;> rfl

/-- The controller adds a reader, or leaves them alone. -/
theorem ControllerStep.readers (h : ControllerStep p l p') :
    p'.readers = p.readers ∨
      ∃ target reader control, p' = (p.spawn target reader).goto control := by
  cases h with
  | @spawned target hControl reader => exact .inr ⟨target, reader, .head, rfl⟩
  | @respawned target hControl reader => exact .inr ⟨target, reader, .clearing target, rfl⟩
  | prepared | unprepared | unspawned | refuse | enter | leave | noStatus | format | streamFailed
  | readSlot | waited | join | joined | clearOutput | unrespawned | clearSlot | running | exited
  | unprobed | noFrame | popFrame | fed | unfed | silence | complain | fail | teardown =>
      exact .inl rfl

theorem Emissions.step (h : Emissions emissions p) (hGenerations : Generations p)
    (hStep : Step p l p') : Emissions (emissions ++ (emittedIn l).toList) p' := by
  cases hStep with
  | capture hStep => exact h.silent hStep.emittedIn_eq hStep.sameStream.readers
  | forwarder hStep => exact h.silent hStep.emittedIn_eq hStep.controller.2.2
  | outside hStep => exact h.silent hStep.emittedIn_eq hStep.sameStream.readers
  | controller hStep =>
      rcases hStep.readers with hReaders | ⟨target, reader, control, rfl⟩
      · exact h.silent hStep.emittedIn_eq hReaders
      · rw [hStep.emittedIn_eq]
        have hSpawned : Emissions emissions ((p.spawn target reader).goto control) :=
          (h.spawn target reader).sameReaders rfl
        simpa using hSpawned
  | reader g hStep =>
      cases hStep with
      | read hReader hControl result =>
          simpa [emittedIn] using h.setReader ((h.sources g _ hReader).read hControl result)
      | drained hReader hDrained =>
          simpa [emittedIn] using h.setReader ((h.sources g _ hReader).drained hDrained)
      | push hReader hPop =>
          have hLatest : g + 1 = p.readers.length :=
            hGenerations.latest g fun hFinished =>
              not_finished_of_pop hPop (hFinished _ hReader)
          exact (h.push hReader hPop hLatest).sameReaders rfl

/-- Generations emit one after the other, and each leads with its
initialization. -/
theorem run_emissions {input : PipelineInput} (hRun : Run (bridge input) trace p) :
    Emissions (emitted trace) p := by
  refine hRun.traceInvariant (I := fun trace p => Emissions (emitted trace) p) ?_ ?_
  · rintro p ⟨shuttingDown, rfl⟩
    refine ⟨List.Pairwise.nil, headsFirst_nil, ?_, ?_⟩
    · intro e hMem
      cases hMem
    · intro g r hReader
      simp [Pipeline.new] at hReader
  · intro trace p l p' hBefore h hStep
    rw [emitted_concat]
    exact h.step (run_generations hBefore) hStep

end CastApp.Screen.Bridge
