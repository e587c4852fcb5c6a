import CastApp.Screen.Emissions

/-!
# Stream integrity

What the media server receives is a part of what the encoders wrote, in
order and in whole segments.  Fragments are lost when the queue or the
channel is full; an initialization is lost only with its whole generation, at
a restart, or when the stream ends.

`chain` is everything delivered, in the forwarder's hand and queued, in this
order: a segment is added at the end of it, and what leaves it from the
middle is a fragment.

* `Flow` — the chain within what was emitted.
* `Led` of the chain — no fragment without its initialization.
* `Discarded` — the ways an initialization may be lost.
* **`stream_integrity`** — all of it, for every run.
-/

namespace CastApp.Screen.Bridge

open CastApp.State
open CastApp.Screen.Segments
open CastApp.Util.Backpressure
open CastApp.Verified.LedStream
open CastApp.Verified.Transition

variable {p p' : Pipeline} {l : Label} {g : Nat} {trace : List PipelineMove}
variable {emissions delivery : List Emission}

/-! ## The chain -/

def deliveredIn : Label → Option Emission
  | .deliver emission => some emission
  | _ => none

/-- The segments the channel accepted, in order. -/
def delivered (trace : List PipelineMove) : List Emission :=
  trace.filterMap fun m => deliveredIn m.label

theorem delivered_concat (trace : List PipelineMove) (p : Pipeline) (l : Label) (p' : Pipeline) :
    delivered (trace ++ [⟨p, l, p'⟩]) = delivered trace ++ (deliveredIn l).toList := by
  unfold delivered
  rw [List.filterMap_append]
  cases h : deliveredIn l <;> simp [h]

/-- What the forwarder has popped and not yet disposed of. -/
def inHand : ForwarderControl → List Emission
  | .sending emission | .waiting emission => [emission]
  | _ => []

/-- Delivered, in hand, queued. -/
def chain (delivery : List Emission) (p : Pipeline) : List Emission :=
  delivery ++ (inHand p.forwarder ++ p.output.items)

/-- What one step does to the chain: a segment is pushed and fragments may be
lost, the segments move along, fragments are lost, the queue is cleared, or
the forwarder leaves with what it holds. -/
inductive ChainStep (p : Pipeline) (delivery : List Emission) : Label → Pipeline → Prop
  | same {l : Label} {p' : Pipeline} (hEmits : emittedIn l = none)
      (hDelivers : deliveredIn l = none ∨ p.forwarder ≠ .finished)
      (hChain : chain (delivery ++ (deliveredIn l).toList) p' = chain delivery p)
      (hAlive : p'.forwarder ≠ .finished → p.forwarder ≠ .finished) :
      ChainStep p delivery l p'
  | pushed {e : Emission} {p' : Pipeline} (hRunning : ¬ p.ReaderFinished e.generation)
      (hOld : (chain delivery p').Sublist (chain delivery p ++ [e]))
      (hKept : ∀ x ∈ chain delivery p ++ [e], IsInit x → x ∈ chain delivery p')
      (hForwarder : p'.forwarder = p.forwarder) : ChainStep p delivery (.emit e) p'
  | lost {l : Label} {p' : Pipeline} (hEmits : emittedIn l = none)
      (hDelivers : deliveredIn l = none) (hOld : (chain delivery p').Sublist (chain delivery p))
      (hKept : ∀ x ∈ chain delivery p, IsInit x → x ∈ chain delivery p')
      (hAlive : p.forwarder ≠ .finished) : ChainStep p delivery l p'
  | cleared {p' : Pipeline} (hFinished : ∀ g, p'.ReaderFinished g)
      (hEmpty : p'.output.items = []) (hForwarder : p'.forwarder = p.forwarder) :
      ChainStep p delivery .clearOutput p'
  | left {l : Label} {e : Emission} {p' : Pipeline}
      (hLeaves : (l = .giveUp e ∧ p.stop = true) ∨ (l = .unreceived e ∧ p.channel.isOpen = false))
      (hHand : inHand p.forwarder = [e]) (hOutput : p'.output = p.output)
      (hForwarder : p'.forwarder = .finished) : ChainStep p delivery l p'

/-- A step that leaves queue and forwarder alone. -/
theorem chainStep_of_same (hEmits : emittedIn l = none) (hDelivers : deliveredIn l = none)
    (hOutput : p'.output = p.output) (hForwarder : p'.forwarder = p.forwarder) :
    ChainStep p delivery l p' := by
  refine .same hEmits (.inl hDelivers) ?_ ?_
  · unfold chain
    rw [hDelivers, hOutput, hForwarder]
    simp
  · rw [hForwarder]
    exact id

/-- A queue of one generation holds at most one initialization, so a full one
has a fragment to evict. -/
theorem exists_evictable (hFull : p.output.items.length = outputQueueCapacity)
    (hSame : ∀ e ∈ p.output.items, ∀ e' ∈ p.output.items, e.generation = e'.generation)
    (hHeads : HeadsFirst (·.generation) IsInit p.output.items) :
    ∃ e ∈ p.output.items, Pipeline.evictable e = true := by
  match hItems : p.output.items with
  | [] | [e] =>
      rw [hItems] at hFull
      cases hFull
  | first :: second :: rest =>
      rw [hItems] at hHeads hSame
      refine ⟨second, by simp, ?_⟩
      have hNot := (List.pairwise_cons.mp hHeads).1 second (by simp)
        (hSame first (by simp) second (by simp))
      simpa [IsInit, Pipeline.evictable] using hNot

theorem ReaderStep.chainStep (h : ReaderStep p g l p') (hGenerations : Generations p)
    (hHeads : HeadsFirst (·.generation) IsInit p.output.items) : ChainStep p delivery l p' := by
  cases h with
  | read | drained => exact chainStep_of_same rfl rfl rfl rfl
  | @push r r' segment hReader hPop =>
      have hRunning : ¬ p.ReaderFinished g :=
        fun hFinished => not_finished_of_pop hPop (hFinished r hReader)
      -- the queue never hands the new segment back
      obtain ⟨output, hOutput⟩ :
          ∃ output, p.output.pushOr ⟨g, segment⟩ Pipeline.evictable = (none, output) := by
        rcases hPush : p.output.pushOr ⟨g, segment⟩ Pipeline.evictable with ⟨back, output⟩
        rcases BoundedDropOldest.pushOr_cases hPush with
          ⟨rfl, -⟩ | ⟨_, _, _, rfl, -⟩ | ⟨-, -, hFull, hNone⟩
        · exact ⟨output, rfl⟩
        · exact ⟨output, rfl⟩
        · rw [hGenerations.capacity] at hFull
          obtain ⟨e, hMem, hEvictable⟩ := exists_evictable hFull (fun e he e' he' => by
            have hLeft := hGenerations.queued e he
            have hRight := hGenerations.queued e' he'
            omega) hHeads
          rw [hNone e hMem] at hEvictable
          cases hEvictable
      have hItems := BoundedDropOldest.sublist_pushOr hOutput
      refine .pushed hRunning ?_ ?_ rfl
      · unfold chain
        simp only [hOutput]
        rw [List.append_assoc, List.append_assoc]
        exact (hItems.append_left _).append_left _
      · intro x hMem hInit
        unfold chain at hMem ⊢
        simp only [hOutput]
        simp only [List.mem_append, List.mem_singleton] at hMem ⊢
        rcases hMem with (hMem | hMem | hMem) | rfl
        · exact .inl hMem
        · exact .inr (.inl hMem)
        · exact .inr (.inr (BoundedDropOldest.mem_pushOr_of_kept hOutput hInit hMem))
        · exact .inr (.inr (BoundedDropOldest.mem_pushOr_self hOutput))

theorem ControllerStep.chainStep (h : ControllerStep p l p') (hGenerations : Generations p) :
    ChainStep p delivery l p' := by
  cases h with
  | clearOutput hControl =>
      have hAwaited := hGenerations.awaited
      rw [hControl] at hAwaited
      exact .cleared hAwaited rfl rfl
  | prepared | unprepared | spawned | unspawned | refuse | enter | leave | noStatus | format
  | streamFailed | readSlot | waited | join | joined | respawned | unrespawned | clearSlot
  | running | exited | unprobed | noFrame | popFrame | fed | unfed | silence | complain | fail
  | teardown => exact chainStep_of_same rfl rfl rfl rfl

theorem ForwarderStep.chainStep (h : ForwarderStep p l p') : ChainStep p delivery l p' := by
  have hAlive : ∀ control, p.forwarder = control → control ≠ .finished →
      p.forwarder ≠ .finished := by
    rintro control hControl hNot
    rwa [hControl]
  cases h with
  | enter hControl | leave hControl | noSegment hControl | hold hControl | retry hControl =>
      refine .same rfl (.inl rfl) ?_ fun _ => hAlive _ hControl (by simp)
      simp [chain, hControl, inHand, deliveredIn]
  | pop hControl hPop =>
      refine .same rfl (.inl rfl) ?_ fun _ => hAlive _ hControl (by simp)
      have hItems := (BoundedDropOldest.tryPop_some hPop).1
      simp [chain, hControl, inHand, hItems, deliveredIn]
  | deliver hControl =>
      refine .same rfl (.inr (hAlive _ hControl (by simp))) ?_ fun _ => hAlive _ hControl (by simp)
      simp [chain, hControl, inHand, deliveredIn]
  | @drop e hControl hOpen hFull hFragment =>
      refine .lost rfl rfl ?_ ?_ (hAlive _ hControl (by simp))
      · unfold chain
        rw [hControl]
        exact (List.sublist_cons_self e _).append_left delivery
      · intro x hMem hInit
        unfold chain at hMem ⊢
        rw [hControl] at hMem
        simp only [inHand, List.mem_append, List.mem_singleton] at hMem ⊢
        rcases hMem with hMem | rfl | hMem
        · exact .inl hMem
        · rw [IsInit, hFragment] at hInit
          cases hInit
        · exact .inr (.inr hMem)
  | giveUp hControl hStop =>
      exact .left (.inl ⟨rfl, hStop⟩) (by rw [hControl]; rfl) rfl rfl
  | unreceived hControl hClosed =>
      exact .left (.inr ⟨rfl, hClosed⟩) (by rw [hControl]; rfl) rfl rfl

theorem Step.chainStep (h : Step p l p') (hGenerations : Generations p)
    (hHeads : HeadsFirst (·.generation) IsInit p.output.items) : ChainStep p delivery l p' := by
  cases h with
  | capture h =>
      have hSame := h.sameStream
      refine chainStep_of_same h.emittedIn_eq ?_ hSame.output hSame.forwarder
      cases h <;> rfl
  | controller h => exact h.chainStep hGenerations
  | reader g h => exact h.chainStep hGenerations hHeads
  | forwarder h => exact h.chainStep
  | outside h =>
      have hSame := h.sameStream
      refine chainStep_of_same h.emittedIn_eq ?_ hSame.output hSame.forwarder
      cases h <;> rfl

/-- A running reader was running before, or has just been spawned. -/
theorem Step.running (h : Step p l p') (hRunning : ¬ p'.ReaderFinished g) :
    ¬ p.ReaderFinished g ∨ p.readers.length ≤ g := by
  have hSame : p'.readers = p.readers → ¬ p.ReaderFinished g :=
    fun hReaders hFinished => hRunning ((readerFinished_congr hReaders).mpr hFinished)
  cases h with
  | capture h => exact .inl (hSame h.sameStream.readers)
  | forwarder h => exact .inl (hSame h.controller.2.2)
  | outside h => exact .inl (hSame h.sameStream.readers)
  | reader i h => exact .inl fun hFinished => hRunning (h.finished hFinished)
  | controller h =>
      rcases h.readers with hReaders | ⟨target, reader, control, rfl⟩
      · exact .inl (hSame hReaders)
      · by_cases hOld : g < p.readers.length
        · refine .inl fun hFinished => hRunning fun r hReader => hFinished r ?_
          have hSplit : (p.readers ++ [if reader then StdoutReader.new else .absent])[g]? =
            some r := hReader
          rwa [List.getElem?_append_left hOld] at hSplit
        · exact .inr (Nat.le_of_not_lt hOld)

/-! ## The invariant -/

/-- The chain is part of what was emitted, in order; nothing in it lacks its
initialization while the forwarder runs, and nothing delivered ever does. -/
structure Flow (emissions delivery : List Emission) (p : Pipeline) : Prop where
  ordered : (chain delivery p).Sublist emissions
  deliveredLed : Led (·.generation) IsInit emissions delivery
  chainLed : p.forwarder ≠ .finished → Led (·.generation) IsInit emissions (chain delivery p)
  current : p.forwarder ≠ .finished → ∀ g, ¬ p.ReaderFinished g →
    ∀ e ∈ emissions, e.generation = g → IsInit e → e ∈ chain delivery p

theorem flow_new (input : PipelineInput) (shuttingDown : Bool) :
    Flow [] [] (.new input shuttingDown) := by
  refine ⟨List.Sublist.refl _, led_nil, fun _ => led_nil, ?_⟩
  intro _ g _ e hMem
  cases hMem

theorem Flow.queueHeads (h : Flow emissions delivery p)
    (hHeads : HeadsFirst (·.generation) IsInit emissions) :
    HeadsFirst (·.generation) IsInit p.output.items := by
  refine hHeads.sublist (List.Sublist.trans ?_ h.ordered)
  exact (List.sublist_append_right _ _).trans (List.sublist_append_right _ _)

theorem Flow.step (h : Flow emissions delivery p) (hEmissions : Emissions emissions p)
    (hHeads : HeadsFirst (·.generation) IsInit (emissions ++ (emittedIn l).toList))
    (hStep : ChainStep p delivery l p')
    (hRunning : ∀ g, ¬ p'.ReaderFinished g → ¬ p.ReaderFinished g ∨ p.readers.length ≤ g) :
    Flow (emissions ++ (emittedIn l).toList) (delivery ++ (deliveredIn l).toList) p' := by
  -- what an old generation has emitted is in the chain as before
  have hCurrent : p.forwarder ≠ .finished → ∀ g, ¬ p'.ReaderFinished g →
      ∀ e ∈ emissions, e.generation = g → IsInit e → e ∈ chain delivery p := by
    intro hAlive g hg e hMem hGroup hInit
    rcases hRunning g hg with hOld | hNew
    · exact h.current hAlive g hOld e hMem hGroup hInit
    · have hLt := hEmissions.spawned e hMem
      omega
  cases hStep with
  | same hEmits hDelivers hChain hAlive =>
      rw [hEmits] at hHeads ⊢
      simp only [Option.toList_none, List.append_nil] at hHeads ⊢
      refine ⟨by rw [hChain]; exact h.ordered, ?_, fun hp => ?_, fun hp => ?_⟩
      · rcases hDelivers with hNone | hp
        · rw [hNone]
          simpa using h.deliveredLed
        · have hLed := h.chainLed hp
          have hOrdered := h.ordered
          rw [← hChain] at hLed hOrdered
          exact hLed.stop hHeads hOrdered
      · rw [hChain]
        exact h.chainLed (hAlive hp)
      · rw [hChain]
        exact hCurrent (hAlive hp)
  | @pushed e _ hReader hOld hKept hForwarder =>
      simp only [emittedIn, deliveredIn, Option.toList_some, Option.toList_none,
        List.append_nil] at hHeads ⊢
      have hDelivered : delivery.Sublist emissions :=
        (List.sublist_append_left _ _).trans h.ordered
      refine ⟨hOld.trans (h.ordered.append_right [e]), h.deliveredLed.later hHeads hDelivered,
        ?_, ?_⟩
      · intro hp
        rw [hForwarder] at hp
        have hLed := (h.chainLed hp).send (x := e) fun y hy hGroup hLead =>
          h.current hp _ hReader y hy hGroup hLead
        exact hLed.lose (fun x hx => hOld.subset hx) hKept
      · intro hp g hg x hMem hGroup hInit
        rw [hForwarder] at hp
        refine hKept x ?_ hInit
        rcases List.mem_append.mp hMem with hMem | hMem
        · exact List.mem_append_left _ (hCurrent hp g hg x hMem hGroup hInit)
        · exact List.mem_append_right _ hMem
  | lost hEmits hDelivers hOld hKept hAlive =>
      rw [hEmits, hDelivers]
      simp only [Option.toList_none, List.append_nil]
      refine ⟨hOld.trans h.ordered, h.deliveredLed, fun _ => ?_, fun _ => ?_⟩
      · exact (h.chainLed hAlive).lose (fun x hx => hOld.subset hx) hKept
      · intro g hg x hMem hGroup hInit
        exact hKept x (hCurrent hAlive g hg x hMem hGroup hInit) hInit
  | cleared hFinished hEmpty hForwarder =>
      simp only [emittedIn, deliveredIn, Option.toList_none, List.append_nil] at hHeads ⊢
      have hChain : chain delivery p = chain delivery p' ++ p.output.items := by
        unfold chain
        rw [hEmpty, hForwarder]
        simp
      have hOrdered := h.ordered
      rw [hChain] at hOrdered
      refine ⟨(List.sublist_append_left _ _).trans hOrdered, h.deliveredLed, fun hp => ?_,
        fun _ g hg => absurd (hFinished g) hg⟩
      rw [hForwarder] at hp
      have hLed := h.chainLed hp
      rw [hChain] at hLed
      exact hLed.stop hHeads hOrdered
  | @left _ e _ hLeaves hHand hOutput hForwarder =>
      have hSilent : emittedIn l = none ∧ deliveredIn l = none := by
        rcases hLeaves with ⟨rfl, -⟩ | ⟨rfl, -⟩
        · exact ⟨rfl, rfl⟩
        · exact ⟨rfl, rfl⟩
      rw [hSilent.1, hSilent.2]
      simp only [Option.toList_none, List.append_nil]
      refine ⟨?_, h.deliveredLed, fun hp => absurd hForwarder hp, fun hp => absurd hForwarder hp⟩
      refine List.Sublist.trans ?_ h.ordered
      unfold chain
      rw [hOutput, hForwarder, hHand]
      exact (List.sublist_cons_self e _).append_left delivery

/-! ## Where initializations go -/

/-- The segment was cleared away by a restart, or in the forwarder's hand when
it was told to stop or found the consumer gone. -/
def Discarded (trace : List PipelineMove) (e : Emission) : Prop :=
  ∃ m ∈ trace, (m.label = .clearOutput ∧ e ∈ m.pre.output.items) ∨
    (m.label = .giveUp e ∧ m.pre.stop = true) ∨
    (m.label = .unreceived e ∧ m.pre.channel.isOpen = false)

theorem Discarded.mono {m : PipelineMove} {e : Emission} (h : Discarded trace e) :
    Discarded (trace ++ [m]) e := by
  obtain ⟨m', hMem, hHow⟩ := h
  exact ⟨m', List.mem_append_left _ hMem, hHow⟩

/-- One step loses an initialization only in these ways. -/
theorem ChainStep.accounted {e : Emission} (h : ChainStep p delivery l p')
    (hMem : e ∈ chain delivery p ++ (emittedIn l).toList) (hInit : IsInit e) :
    e ∈ chain (delivery ++ (deliveredIn l).toList) p' ∨ Discarded [⟨p, l, p'⟩] e := by
  cases h with
  | same hEmits hDelivers hChain =>
      rw [hChain]
      rw [hEmits] at hMem
      exact .inl (by simpa using hMem)
  | pushed hRunning hOld hKept =>
      simp only [deliveredIn, Option.toList_none, List.append_nil]
      exact .inl (hKept e hMem hInit)
  | lost hEmits hDelivers hOld hKept =>
      rw [hEmits] at hMem
      rw [hDelivers]
      simp only [Option.toList_none, List.append_nil] at hMem ⊢
      exact .inl (hKept e hMem hInit)
  | cleared hFinished hEmpty hForwarder =>
      simp only [emittedIn, deliveredIn, Option.toList_none, List.append_nil] at hMem ⊢
      unfold chain at hMem ⊢
      rw [hForwarder, hEmpty]
      simp only [List.mem_append] at hMem ⊢
      rcases hMem with hMem | hMem | hMem
      · exact .inl (.inl hMem)
      · exact .inl (.inr (.inl hMem))
      · exact .inr ⟨_, List.mem_singleton.mpr rfl, .inl ⟨rfl, hMem⟩⟩
  | @left _ x _ hLeaves hHand hOutput hForwarder =>
      have hSilent : emittedIn l = none ∧ deliveredIn l = none := by
        rcases hLeaves with ⟨rfl, -⟩ | ⟨rfl, -⟩
        · exact ⟨rfl, rfl⟩
        · exact ⟨rfl, rfl⟩
      rw [hSilent.1] at hMem
      rw [hSilent.2]
      simp only [Option.toList_none, List.append_nil] at hMem ⊢
      unfold chain at hMem ⊢
      rw [hHand] at hMem
      rw [hOutput]
      simp only [List.mem_append, List.mem_singleton] at hMem ⊢
      rcases hMem with hMem | rfl | hMem
      · exact .inl (.inl hMem)
      · exact .inr ⟨_, List.mem_singleton.mpr rfl, .inr hLeaves⟩
      · exact .inl (.inr (.inr hMem))

/-! ## Every run -/

section Runs

variable {input : PipelineInput}

theorem run_flow (hRun : Run (bridge input) trace p) :
    Flow (emitted trace) (delivered trace) p := by
  refine hRun.traceInvariant (I := fun trace p => Flow (emitted trace) (delivered trace) p) ?_ ?_
  · rintro p ⟨shuttingDown, rfl⟩
    exact flow_new input shuttingDown
  · intro trace p l p' hBefore h hStep
    have hEmissions := run_emissions hBefore
    have hHeads := (run_emissions (hBefore.step hStep)).heads
    rw [emitted_concat] at hHeads
    rw [emitted_concat, delivered_concat]
    exact h.step hEmissions hHeads
      (hStep.chainStep (run_generations hBefore) (h.queueHeads hEmissions.heads))
      fun g => hStep.running

theorem run_accounted (hRun : Run (bridge input) trace p) :
    ∀ e ∈ emitted trace, IsInit e → e ∈ chain (delivered trace) p ∨ Discarded trace e := by
  refine hRun.traceInvariant
    (I := fun trace p => ∀ e ∈ emitted trace, IsInit e →
      e ∈ chain (delivered trace) p ∨ Discarded trace e) ?_ ?_
  · intro p hInit e hMem
    cases hMem
  · intro trace p l p' hBefore h hStep e hMem hInit
    have hQueueHeads := (run_flow hBefore).queueHeads (run_emissions hBefore).heads
    have hChainStep : ChainStep p (delivered trace) l p' :=
      hStep.chainStep (run_generations hBefore) hQueueHeads
    rw [emitted_concat] at hMem
    rw [delivered_concat]
    have hNow : e ∈ chain (delivered trace) p ++ (emittedIn l).toList ∨ Discarded trace e := by
      rcases List.mem_append.mp hMem with hOld | hNew
      · rcases h e hOld hInit with hChain | hGone
        · exact .inl (List.mem_append_left _ hChain)
        · exact .inr hGone
      · exact .inl (List.mem_append_right _ hNew)
    rcases hNow with hNow | hGone
    · rcases hChainStep.accounted hNow hInit with hChain | ⟨m, hm, hHow⟩
      · exact .inl hChain
      · exact .inr ⟨m, List.mem_append_right _ hm, hHow⟩
    · exact .inr hGone.mono

/-- What the channel accepted are the bytes of what was delivered. -/
theorem run_accepted (hRun : Run (bridge input) trace p) :
    p.channel.accepted = (delivered trace).map fun e => e.segment.bytes := by
  refine hRun.traceInvariant
    (I := fun trace p => p.channel.accepted = (delivered trace).map fun e => e.segment.bytes) ?_ ?_
  · rintro p ⟨shuttingDown, rfl⟩
    rfl
  · intro trace p l p' hBefore h hStep
    rw [delivered_concat, List.map_append, ← h]
    cases hStep with
    | capture hStep =>
        rw [hStep.sameStream.accepted]
        cases hStep <;> exact (List.append_nil _).symm
    | outside hStep =>
        rw [hStep.sameStream.accepted]
        cases hStep <;> exact (List.append_nil _).symm
    | controller hStep => cases hStep <;> exact (List.append_nil _).symm
    | reader g hStep => cases hStep <;> exact (List.append_nil _).symm
    | forwarder hStep =>
        cases hStep with
        | deliver => rfl
        | enter | leave | noSegment | pop | drop | hold | retry | giveUp | unreceived =>
            exact (List.append_nil _).symm

/-- **Stream integrity.**  In every run: the channel accepted whole segments,
in the order in which the generations emitted them; a delivered fragment has
the initialization of its generation, if there is one, before it; generations
do not mix; and an initialization that was emitted is queued, in hand,
delivered, or was discarded by a restart, a stop or the consumer's end. -/
theorem stream_integrity (hRun : Run (bridge input) trace p) :
    p.channel.accepted = (delivered trace).map (fun e => e.segment.bytes) ∧
    (delivered trace).Sublist (emitted trace) ∧
    (∀ before e after, delivered trace = before ++ e :: after → ¬ IsInit e →
      ∀ e₀ ∈ emitted trace, e₀.generation = e.generation → IsInit e₀ → e₀ ∈ before) ∧
    ((delivered trace).Pairwise fun e e' => e.generation ≤ e'.generation) ∧
    (∀ e ∈ emitted trace, IsInit e →
      e ∈ p.output.items ∨ e ∈ inHand p.forwarder ∨ e ∈ delivered trace ∨ Discarded trace e) := by
  have hFlow := run_flow hRun
  have hEmissions := run_emissions hRun
  have hOrdered : (delivered trace).Sublist (emitted trace) :=
    (List.sublist_append_left _ _).trans hFlow.ordered
  refine ⟨run_accepted hRun, hOrdered, ?_, hEmissions.sorted.sublist hOrdered, ?_⟩
  · intro before e after hDelivered hNot e₀ hMem hGroup hInit
    have hLed := hFlow.deliveredLed
    rw [hDelivered] at hLed hOrdered
    exact hLed.lead_before hEmissions.heads hOrdered hNot hMem hGroup hInit
  · intro e hMem hInit
    rcases run_accounted hRun e hMem hInit with hChain | hGone
    · unfold chain at hChain
      rcases List.mem_append.mp hChain with hDelivered | hChain
      · exact .inr (.inr (.inl hDelivered))
      · rcases List.mem_append.mp hChain with hHand | hQueued
        · exact .inr (.inl hHand)
        · exact .inl hQueued
    · exact .inr (.inr (.inr hGone))

end Runs

/-! ## A short stream -/

/-- Three empty boxes: `ftyp`, `moof` and `mdat`. -/
def shortStream : List Byte :=
  [0, 0, 0, 8, 0x66, 0x74, 0x79, 0x70, 0, 0, 0, 8] ++ moof ++ [0, 0, 0, 8] ++ mdat

/-- Read at once, it reaches the channel as an initialization and a
fragment. -/
theorem shortStream_run :
    ∃ trace p, Run (bridge (.frames (8, 8) false)) trace p ∧
      delivered trace =
        [⟨0, .init (shortStream.take 8)⟩, ⟨0, .fragment (shortStream.drop 8)⟩] := by
  have hStart : Run (bridge (.frames (8, 8) false)) [] (.new (.frames (8, 8) false) false) :=
    .start ⟨false, rfl⟩
  have hSpawned := hStart.step (.controller (.spawned rfl true))
  have hRead := hSpawned.step (.reader 0 (.read rfl rfl (.ok shortStream) fun chunk h => by
    cases h
    decide))
  have hInit := hRead.step (.reader 0 (.push rfl rfl))
  have hFragment := hInit.step (.reader 0 (.push rfl rfl))
  have hPopped := (hFragment.step (.forwarder (.enter rfl rfl))).step (.forwarder (.pop rfl rfl))
  have hFirst := hPopped.step (.forwarder (.deliver rfl rfl (by decide)))
  have hAgain := (hFirst.step (.forwarder (.enter rfl rfl))).step (.forwarder (.pop rfl rfl))
  have hSecond := hAgain.step (.forwarder (.deliver rfl rfl (by decide)))
  exact ⟨_, _, hSecond, rfl⟩

theorem shortStream_intact :
    ∃ trace p, Run (bridge (.frames (8, 8) false)) trace p ∧
      p.channel.accepted = [shortStream.take 8, shortStream.drop 8] ∧
      (delivered trace).Sublist (emitted trace) ∧
      ∀ e ∈ emitted trace, IsInit e →
        e ∈ p.output.items ∨ e ∈ inHand p.forwarder ∨ e ∈ delivered trace ∨
          Discarded trace e := by
  obtain ⟨trace, p, hRun, hDelivered⟩ := shortStream_run
  obtain ⟨hAccepted, hOrdered, -, -, hAccounted⟩ := stream_integrity hRun
  rw [hDelivered] at hAccepted
  exact ⟨trace, p, hRun, hAccepted, hOrdered, hAccounted⟩

end CastApp.Screen.Bridge
