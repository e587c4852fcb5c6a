import CastApp.Cast.ReaderDelivery
import CastApp.Cast.SessionIsolation

/-!
# What a session hears

The way of a message from the bytes its reader thread reads to the session it
is routed to, while other readers, their channels and the shutdown token take
steps of their own.

* `Delivers` — what a thread has put on its channel, compared with what it has
  read; `run_heard` is the run lemma.
* **`session_hears`** — the payloads routed to a live session are the first
  frames of what its reader has read, and all of them once that has caught up.
-/

namespace CastApp.Cast.Heard

open CastApp.State
open CastApp.Cast.ConnectionTask
open CastApp.Cast.FrameStream
open CastApp.Cast.Reader
open CastApp.Cast.ReaderDelivery (Progress read_progress)
open CastApp.Cast.RunInvariant
open CastApp.Cast.RunLoop
open CastApp.Cast.Session
open CastApp.Cast.SessionIsolation
open CastApp.Util.Json
open CastApp.Verified.Coroutine
open CastApp.Verified.EventLoop
open CastApp.Verified.Transition

/-! ## What a trace shows -/

/-- What thread `k` reads in a step. -/
def readBy (k : Nat) (m : TaskMove) : Option (List Byte) :=
  match m.label with
  | .move (.read j (.ok chunk)) => if j = k then some chunk else none
  | _ => none

/-- What the task takes from `channel` in a step. -/
def takenFrom (channel : Channel) (m : TaskMove) : Option (Option (List Byte)) :=
  match m.pre.1, m.label with
  | .parked state, .fire (.inbound (some frame)) =>
      if state.inbound = some channel then some frame else none
  | _, _ => none

/-- The payload that is routed to the session on `transport` in a step. -/
def routedTo (transport : Transport) (m : TaskMove) : Option (List Byte) :=
  match m.pre.1, m.label with
  | .parked state, .fire (.inbound (some frame)) =>
      if state.session.map (·.transport) = some transport then frame else none
  | _, _ => none

def reads (k : Nat) (trace : List TaskMove) : List (List Byte) := trace.filterMap (readBy k)

def takes (channel : Channel) (trace : List TaskMove) : List (Option (List Byte)) :=
  trace.filterMap (takenFrom channel)

theorem reads_concat (k : Nat) (trace : List TaskMove) (m : TaskMove) :
    reads k (trace ++ [m]) = reads k trace ++ (readBy k m).toList := by
  unfold reads
  rw [List.filterMap_append, List.filterMap_cons]
  cases readBy k m <;> rfl

theorem takes_concat (channel : Channel) (trace : List TaskMove) (m : TaskMove) :
    takes channel (trace ++ [m]) = takes channel trace ++ (takenFrom channel m).toList := by
  unfold takes
  rw [List.filterMap_append, List.filterMap_cons]
  cases takenFrom channel m <;> rfl

/-! ## One thread -/

variable {k : Nat} {r : ReaderThread} {chunks sent : List (List Byte)}

/-- The frames sent are the first of those read: all of them, while the thread
looks for more. -/
def Sends (chunks sent : List (List Byte)) (r : ReaderThread) : Prop :=
  match r.control with
  | .polling | .reading => Deframes chunks.flatten sent r.accumulator.buf ∧
      Incomplete r.accumulator.buf
  | .sending frames => Deframes chunks.flatten (sent ++ frames) r.accumulator.buf ∧
      Incomplete r.accumulator.buf
  | .leaving | .finished => ∃ frames held, Deframes chunks.flatten frames held ∧ sent <+: frames

theorem sends_new : Sends [] [] .new :=
  ⟨.incomplete (.inl (by decide)), .inl (by decide)⟩

theorem Sends.frames (h : Sends chunks sent r) :
    ∃ frames held, Deframes chunks.flatten frames held ∧ sent <+: frames := by
  unfold Sends at h
  split at h
  · exact ⟨sent, _, h.1, List.prefix_refl _⟩
  · exact ⟨sent, _, h.1, List.prefix_refl _⟩
  · exact ⟨_, _, h.1, List.prefix_append _ _⟩
  · exact h
  · exact h

/-- Out of the loop, the frames stay those they are. -/
theorem Sends.stop {r' : ReaderThread} (h : Sends chunks sent r)
    (hControl : r'.control = .leaving ∨ r'.control = .finished) : Sends chunks sent r' := by
  have hFrames := h.frames
  unfold Sends
  rcases hControl with hControl | hControl <;> rw [hControl] <;> exact hFrames

theorem Sends.poll (h : Sends chunks sent r) (hControl : r.control = .polling)
    (shuttingDown : Bool) : Sends chunks sent (r.poll shuttingDown) := by
  cases shuttingDown with
  | true => exact h.stop (.inl rfl)
  | false =>
      unfold Sends at h
      rw [hControl] at h
      exact h

theorem sends_of_progress (hProgress : Progress [] chunks sent r)
    (hLater : ∃ frames held, Deframes chunks.flatten frames held ∧ sent <+: frames) :
    Sends chunks sent r := by
  unfold Progress at hProgress
  unfold Sends
  cases hControl : r.control with
  | polling | reading | sending frames =>
      rw [hControl] at hProgress
      exact hProgress
  | leaving | finished => exact hLater

/-- The bytes of a read, if there are any. -/
def bytesOf : ReaderThread.ReadResult → List (List Byte)
  | .ok chunk => [chunk]
  | .error _ => []

theorem Sends.read (h : Sends chunks sent r) (hControl : r.control = .reading)
    (result : ReaderThread.ReadResult) :
    Sends (chunks ++ bytesOf result) sent (r.read result) := by
  have hReading := h
  unfold Sends at hReading
  rw [hControl] at hReading
  obtain ⟨hFrames, hHeld⟩ := hReading
  match result with
  | .ok [] =>
      have hSame : (chunks ++ bytesOf (.ok [])).flatten = chunks.flatten := by
        simp [bytesOf]
      have hStopped : Sends chunks sent (r.read (.ok [])) := h.stop (.inl rfl)
      unfold Sends at hStopped ⊢
      rw [hSame]
      exact hStopped
  | .ok (byte :: bytes) =>
      have hProgress : Progress [] (chunks ++ [byte :: bytes]) sent
          (r.read (.ok (byte :: bytes))) :=
        read_progress hFrames hHeld (List.cons_ne_nil byte bytes)
      have hLater : ∃ frames held, Deframes (chunks ++ [byte :: bytes]).flatten frames held ∧
          sent <+: frames := by
        obtain ⟨more, held, hMore⟩ := exists_deframes (r.accumulator.buf ++ byte :: bytes)
        refine ⟨sent ++ more, held, ?_, List.prefix_append _ _⟩
        rw [List.flatten_append, List.flatten_singleton]
        exact hFrames.append hMore
      show Sends (chunks ++ [byte :: bytes]) sent (r.read (.ok (byte :: bytes)))
      exact sends_of_progress hProgress hLater
  | .error error =>
      rw [show chunks ++ bytesOf (.error error) = chunks from List.append_nil chunks]
      unfold ReaderThread.read
      dsimp only
      split
      · exact ⟨hFrames, hHeld⟩
      · exact h.stop (.inl rfl)

/-- What a thread has put on its channel: the frames it has sent, and at last
the `none` of its exit. -/
inductive Delivers (chunks : List (List Byte)) (messages : List (Option (List Byte)))
    (r : ReaderThread) : Prop
  | going {sent : List (List Byte)} (h : Sends chunks sent r) (hMessages : messages = sent.map some)
  | gone {sent : List (List Byte)} (h : Sends chunks sent r) (hControl : r.control = .finished)
      (hMessages : messages = sent.map some ++ [none])

variable {messages : List (Option (List Byte))}

theorem delivers_new : Delivers [] [] .new := .going sends_new rfl

/-- A thread that is not finished goes on. -/
theorem Delivers.live (h : Delivers chunks messages r) (hControl : r.control ≠ .finished) :
    ∃ sent, Sends chunks sent r ∧ messages = sent.map some := by
  cases h with
  | going h hMessages => exact ⟨_, h, hMessages⟩
  | gone _ hFinished => exact absurd hFinished hControl

/-- What arrives of a message. -/
def arrives (connected : Bool) : ReaderThread.Action → List (Option (List Byte))
  | .send frame => if connected then [frame] else []
  | .silent => []

theorem Delivers.send (h : Delivers chunks messages r)
    (hControl : r.control = .leaving ∨ ∃ frames, r.control = .sending frames) (connected : Bool) :
    Delivers chunks (messages ++ arrives connected (r.send connected).1) (r.send connected).2 := by
  obtain ⟨sent, hSends, rfl⟩ := h.live (by rcases hControl with h | ⟨_, h⟩ <;> rw [h] <;> nofun)
  have hStop := hSends
  unfold Sends at hSends
  rcases hControl with hControl | ⟨frames, hControl⟩
  · simp only [ReaderThread.send, hControl]
    have hStopped : Sends chunks sent { r with control := .finished } := hStop.stop (.inr rfl)
    cases connected with
    | true => exact .gone hStopped rfl rfl
    | false => exact .going hStopped (List.append_nil _)
  · rw [hControl] at hSends
    obtain ⟨hFrames, hHeld⟩ := hSends
    cases frames with
    | nil =>
        simp only [ReaderThread.send, hControl]
        rw [List.append_nil] at hFrames
        exact .going ⟨hFrames, hHeld⟩ (List.append_nil _)
    | cons frame frames =>
        simp only [ReaderThread.send, hControl]
        cases connected with
        | true =>
            have hSent : Sends chunks (sent ++ [frame]) ⟨r.accumulator, .sending frames⟩ := by
              refine ⟨?_, hHeld⟩
              rw [List.append_assoc]
              exact hFrames
            refine .going hSent ?_
            rw [List.map_append]
            rfl
        | false => exact .going (hStop.stop (.inr rfl)) (List.append_nil _)

/-! ## All threads -/

variable {config : ConnectionConfig} {fromStr : String → Option Json}
variable {trace : List TaskMove} {c : TaskState} {w : World}

/-- No two threads share a channel. -/
def Apart (w : World) : Prop := (w.readers.map Spawned.channel).Nodup

theorem channels_eq {ops : SessionEffect.Ops} (h : WorldInv ops w) :
    w.readers.map Spawned.channel = (spawnsOf ops).map Prod.snd := by
  rw [← h.readers, List.map_map]
  rfl

/-- The turn a run is in could be played to its end, and would spawn no second
thread for a channel. -/
theorem run_apart (hRun : Run (connectionTask config fromStr) trace c) : Apart c.2 := by
  obtain ⟨more, last, hLonger, stage, hTurned⟩ : ∃ more last,
      Run (connectionTask config fromStr) (trace ++ more) last ∧
        ∃ stage, Turned (run config fromStr) stage (answered (trace ++ more)) := by
    obtain ⟨control, w⟩ := c
    cases control with
    | running p =>
        obtain ⟨more, hLonger⟩ := run_obliged hRun
        have hPending := small_followsTurns hLonger
        refine ⟨more, _, hLonger, ?_⟩
        cases hOutcome : (reactTo oblige p w).1 with
        | value flow =>
            rw [hOutcome] at hPending
            exact ⟨stageOf (.value flow), Pending.finish hPending ⟨rfl, rfl⟩⟩
        | fault reason =>
            rw [hOutcome] at hPending
            exact ⟨stageOf (.fault reason), Pending.finish hPending ⟨rfl, rfl⟩⟩
    | parked state | exited state | faulted reason =>
        have hTurned : Turned (run config fromStr) _ (answered trace) := small_followsTurns hRun
        rw [← List.append_nil trace] at hRun hTurned
        exact ⟨[], _, hRun, _, hTurned⟩
  obtain ⟨first, o, turns, hPrelude, hTurns, hOps⟩ := hTurned
  have hPaired : Paired (answered (trace ++ more)) := by
    obtain ⟨r, rest, rfl, hDone⟩ := exec_perform_bind.mp hPrelude
    obtain ⟨rfl, -⟩ := exec_pure.mp hDone
    rw [hOps]
    exact (paired_of_spawns rfl).append (run_wired hTurns).1
  have hAll : ((spawnsOf (answered (trace ++ more))).map Prod.snd).Nodup :=
    (List.Nodup.of_map _ (run_worldInv hLonger).channels.nodup).sublist hPaired.channels
  unfold Apart
  rw [channels_eq (run_worldInv hRun)]
  unfold spawnsOf at hAll ⊢
  rw [answered_append, List.filterMap_append, List.map_append] at hAll
  exact List.Nodup.of_append_left hAll

/-- What has been put on `channel`: what was taken, and what is queued. -/
def messagesOn (channel : Channel) (trace : List TaskMove) (w : World) :
    List (Option (List Byte)) :=
  takes channel trace ++ (w.queued channel).map Item.frame

structure HeardInv (trace : List TaskMove) (w : World) : Prop where
  threads : ∀ k reader, w.readers[k]? = some reader →
    Delivers (reads k trace) (messagesOn reader.channel trace w) reader.thread
  /-- A thread to come has read nothing. -/
  unread : ∀ k, w.readers.length ≤ k → reads k trace = []
  /-- Nothing is on a channel no thread sends on. -/
  unsent : ∀ channel, channel ∉ w.readers.map Spawned.channel → messagesOn channel trace w = []

theorem heardInv_new : HeardInv [] .new where
  threads _ _ hReader := by cases hReader
  unread _ _ := rfl
  unsent _ _ := rfl

variable {w' : World} {m : TaskMove}

/-- A step the threads and the channels have no part in. -/
theorem HeardInv.aside (h : HeardInv trace w) (hReaders : w'.readers = w.readers)
    (hQueued : w'.queued = w.queued) (hRead : ∀ k, readBy k m = none)
    (hTaken : ∀ channel, takenFrom channel m = none) : HeardInv (trace ++ [m]) w' := by
  have hReads : ∀ k, reads k (trace ++ [m]) = reads k trace := by
    intro k
    rw [reads_concat, hRead k]
    exact List.append_nil _
  have hMessages : ∀ channel,
      messagesOn channel (trace ++ [m]) w' = messagesOn channel trace w := by
    intro channel
    rw [messagesOn, messagesOn, takes_concat, hTaken channel, hQueued]
    simp
  refine ⟨fun k reader hReader => ?_, fun k hLess => ?_, fun channel hNone => ?_⟩
  · rw [hReads, hMessages]
    rw [hReaders] at hReader
    exact h.threads k reader hReader
  · rw [hReads]
    rw [hReaders] at hLess
    exact h.unread k hLess
  · rw [hMessages]
    rw [hReaders] at hNone
    exact h.unsent channel hNone

/-- A thread is spawned on a channel of its own. -/
theorem HeardInv.spawned {transport : Transport} {channel : Channel} (h : HeardInv trace w)
    (hReaders : w'.readers = w.readers ++ [⟨transport, channel, .new⟩])
    (hQueued : w'.queued = w.queued) (hRead : ∀ k, readBy k m = none)
    (hTaken : ∀ channel, takenFrom channel m = none) (hApart : Apart w') :
    HeardInv (trace ++ [m]) w' := by
  have hAside : HeardInv (trace ++ [m]) w := h.aside rfl rfl hRead hTaken
  have hMessages : ∀ channel, messagesOn channel (trace ++ [m]) w' =
      messagesOn channel (trace ++ [m]) w := by
    intro channel
    rw [messagesOn, messagesOn, hQueued]
  have hFresh : channel ∉ w.readers.map Spawned.channel := by
    unfold Apart at hApart
    rw [hReaders, List.map_append, List.nodup_append] at hApart
    exact fun hOld => hApart.2.2 channel hOld channel (List.mem_singleton.mpr rfl) rfl
  refine ⟨fun k reader hReader => ?_, fun k hLess => ?_, fun other hNone => ?_⟩
  · rw [hMessages]
    rw [hReaders] at hReader
    rcases Nat.lt_trichotomy k w.readers.length with hLess | rfl | hLess
    · rw [List.getElem?_append_left hLess] at hReader
      exact hAside.threads k reader hReader
    · rw [List.getElem?_append_right (Nat.le_refl _), Nat.sub_self] at hReader
      cases hReader
      rw [hAside.unread _ (Nat.le_refl _), hAside.unsent channel hFresh]
      exact delivers_new
    · rw [List.getElem?_eq_none (by rw [List.length_append]; exact hLess)] at hReader
      cases hReader
  · rw [hReaders, List.length_append] at hLess
    exact hAside.unread k (Nat.le_trans (Nat.le_add_right _ _) hLess)
  · rw [hMessages]
    rw [hReaders, List.map_append, List.mem_append, not_or] at hNone
    exact hAside.unsent other hNone.1

/-- A thread takes a step; the others do not notice. -/
theorem HeardInv.stepped {reader : Spawned} {thread : ReaderThread} (h : HeardInv trace w)
    (hApart : Apart w) (hReader : w.readers[k]? = some reader)
    (hReaders : w'.readers = (w.setReader k reader thread).readers)
    (hOthers : ∀ channel, channel ≠ reader.channel → w'.queued channel = w.queued channel)
    (hRead : ∀ j, j ≠ k → readBy j m = none) (hTaken : ∀ channel, takenFrom channel m = none)
    (hDelivers : Delivers (reads k trace ++ (readBy k m).toList)
      (messagesOn reader.channel trace w') thread) : HeardInv (trace ++ [m]) w' := by
  have hLength : k < w.readers.length := (List.getElem?_eq_some_iff.mp hReader).1
  have hTakes : ∀ channel, takes channel (trace ++ [m]) = takes channel trace := by
    intro channel
    rw [takes_concat, hTaken channel]
    exact List.append_nil _
  have hReads : ∀ j, j ≠ k → reads j (trace ++ [m]) = reads j trace := by
    intro j hOther
    rw [reads_concat, hRead j hOther]
    exact List.append_nil _
  have hMessages : ∀ channel, channel ≠ reader.channel →
      messagesOn channel (trace ++ [m]) w' = messagesOn channel trace w := by
    intro channel hOther
    rw [messagesOn, messagesOn, hTakes, hOthers channel hOther]
  have hChannels : w'.readers.map Spawned.channel = w.readers.map Spawned.channel := by
    have hEndpoints := congrArg (List.map Prod.snd) (setReader_endpoints thread hReader)
    rw [List.map_map, List.map_map] at hEndpoints
    rw [hReaders]
    exact hEndpoints
  have hSet : w'.readers = w.readers.set k { reader with thread := thread } := hReaders
  refine ⟨fun j other hOther => ?_, fun j hLess => ?_, fun channel hNone => ?_⟩
  · rw [hSet] at hOther
    by_cases hSame : j = k
    · subst hSame
      rw [List.getElem?_set_self hLength] at hOther
      cases hOther
      rw [reads_concat, messagesOn, hTakes]
      exact hDelivers
    · rw [List.getElem?_set_ne (Ne.symm hSame)] at hOther
      have hChannel : other.channel ≠ reader.channel := by
        intro hShared
        have hIndex : j < (w.readers.map Spawned.channel).length := by
          rw [List.length_map]
          exact (List.getElem?_eq_some_iff.mp hOther).1
        refine hSame ((List.getElem?_inj hIndex hApart).mp ?_)
        rw [List.getElem?_map, List.getElem?_map, hOther, hReader]
        exact congrArg some hShared
      rw [hReads j hSame, hMessages _ hChannel]
      exact h.threads j other hOther
  · rw [hSet, List.length_set] at hLess
    rw [hReads j (by omega)]
    exact h.unread j hLess
  · rw [hChannels] at hNone
    have hOther : channel ≠ reader.channel := by
      rintro rfl
      exact hNone (List.mem_map_of_mem (List.mem_of_getElem? hReader))
    rw [hMessages channel hOther]
    exact h.unsent channel hNone

/-- The task takes the oldest message of its channel. -/
theorem HeardInv.taken {state : RunState} {channel : Channel} {item : Item} {rest : List Item}
    {post : TaskState} (h : HeardInv trace w) (hInbound : state.inbound = some channel)
    (hQueued : w.queued channel = item :: rest) :
    HeardInv (trace ++ [⟨(.parked state, w), .fire (.inbound (some item.frame)), post⟩])
      { w with queued := Function.update w.queued channel rest } := by
  have hMessages : ∀ other, messagesOn other
      (trace ++ [⟨(.parked state, w), .fire (.inbound (some item.frame)), post⟩])
      { w with queued := Function.update w.queued channel rest } = messagesOn other trace w := by
    intro other
    rw [messagesOn, messagesOn, takes_concat]
    by_cases hSame : other = channel
    · subst hSame
      simp [takenFrom, hInbound, hQueued]
    · have hOther : channel ≠ other := Ne.symm hSame
      simp [takenFrom, hInbound, Function.update_of_ne hSame, hOther]
  have hReads : ∀ k, reads k
      (trace ++ [⟨(.parked state, w), .fire (.inbound (some item.frame)), post⟩]) =
        reads k trace := by
    intro k
    rw [reads_concat]
    exact List.append_nil _
  refine ⟨fun k reader hReader => ?_, fun k hLess => ?_, fun other hNone => ?_⟩
  · rw [hReads, hMessages]
    exact h.threads k reader hReader
  · rw [hReads]
    exact h.unread k hLess
  · rw [hMessages]
    exact h.unsent other hNone

/-- A read is one of the thread that reads. -/
theorem readBy_read (pre post : TaskState) (k : Nat) (result : ReaderThread.ReadResult) :
    (readBy k ⟨pre, .move (.read k result), post⟩).toList = bytesOf result ∧
      ∀ j, j ≠ k → readBy j ⟨pre, .move (.read k result), post⟩ = none := by
  cases result with
  | error error => exact ⟨rfl, fun _ _ => rfl⟩
  | ok chunk =>
      refine ⟨?_, fun j hOther => if_neg (Ne.symm hOther)⟩
      have hSame : readBy k ⟨pre, .move (.read k (.ok chunk)), post⟩ = some chunk := if_pos rfl
      rw [hSame]
      rfl

/-- What arrives is queued on that channel, and nothing else happens. -/
theorem deliver_arrives (w : World) (k : Nat) (channel : Channel) (connected : Bool)
    (action : ReaderThread.Action) :
    (w.deliver k channel connected action).readers = w.readers ∧
    (∀ other, other ≠ channel →
      (w.deliver k channel connected action).queued other = w.queued other) ∧
    ((w.deliver k channel connected action).queued channel).map Item.frame =
      (w.queued channel).map Item.frame ++ arrives connected action := by
  cases action with
  | silent => exact ⟨rfl, fun _ _ => rfl, (List.append_nil _).symm⟩
  | send frame =>
      cases connected with
      | false => exact ⟨rfl, fun _ _ => rfl, (List.append_nil _).symm⟩
      | true =>
          refine ⟨rfl, fun other hOther => Function.update_of_ne hOther _ _, ?_⟩
          show (Function.update w.queued channel (w.queued channel ++ [⟨k, frame⟩]) channel).map
            Item.frame = _
          rw [Function.update_self, List.map_append]
          rfl

/-- The step lemma for a thread. -/
theorem HeardInv.moves {control : Control castSig RunState} {step : Step} (h : HeardInv trace w)
    (hApart : Apart w) (hMoves : Moves w step w') :
    HeardInv (trace ++ [⟨(control, w), .move step, (control, w')⟩]) w' := by
  have hTaken : ∀ channel, takenFrom channel ⟨(control, w), .move step, (control, w')⟩ = none := by
    intro channel
    cases control <;> rfl
  cases hMoves with
  | trigger => exact h.aside rfl rfl (fun _ => rfl) hTaken
  | @poll k reader hReader hControl =>
      obtain ⟨sent, hSends, hMessages⟩ :=
        (h.threads k reader hReader).live (by rw [hControl]; nofun)
      refine h.stepped hApart hReader rfl (fun _ _ => rfl) (fun _ _ => rfl) hTaken ?_
      show Delivers (reads k trace ++ []) _ _
      rw [List.append_nil]
      exact .going (hSends.poll hControl _) hMessages
  | @read k reader result hReader hControl =>
      obtain ⟨sent, hSends, hMessages⟩ :=
        (h.threads k reader hReader).live (by rw [hControl]; nofun)
      obtain ⟨hOwn, hOthers⟩ := readBy_read (control, w)
        (control, w.setReader k reader (reader.thread.read result)) k result
      refine h.stepped hApart hReader rfl (fun _ _ => rfl) hOthers hTaken ?_
      rw [hOwn]
      exact .going (hSends.read hControl result) hMessages
  | @send k reader connected hReader hControl =>
      have hDelivers := (h.threads k reader hReader).send hControl connected
      obtain ⟨hReaders, hOthers, hQueued⟩ := deliver_arrives
        (w.setReader k reader (reader.thread.send connected).2) k reader.channel connected
        (reader.thread.send connected).1
      refine h.stepped hApart hReader hReaders hOthers (fun _ _ => rfl) hTaken ?_
      show Delivers (reads k trace ++ []) _ _
      rw [List.append_nil, messagesOn, hQueued, ← List.append_assoc]
      exact hDelivers

/-- **The run lemma.** -/
theorem run_heard (hRun : Run (connectionTask config fromStr) trace c) : HeardInv trace c.2 := by
  refine hRun.traceInvariant (I := fun trace c => HeardInv trace c.2) ?_ ?_
  · rintro ⟨control, w⟩ ⟨-, hInit⟩
    cases hInit
    exact heardInv_new
  · intro trace c label c' hBefore h hStep
    have hApart := run_apart (hBefore.step hStep)
    cases hStep with
    | answer hAnswer =>
        cases hAnswer with
        | spawned => exact h.spawned rfl rfl (fun _ => rfl) (fun _ => rfl) hApart
        | subscribe | unreachable | connected | write | close | channel | unspawned | now | emit =>
            exact h.aside rfl rfl (fun _ => rfl) fun _ => rfl
    | park hParks =>
        cases hParks
        exact h.aside rfl rfl (fun _ => rfl) fun _ => rfl
    | fire hGuard hFires =>
        cases hFires with
        | frame hInbound hQueued => exact h.taken hInbound hQueued
        | command | closed | heartbeat | watchdog | reconnect | shutdown =>
            exact h.aside rfl rfl (fun _ => rfl) fun _ => rfl
    | exit => exact h.aside rfl rfl (fun _ => rfl) fun _ => rfl
    | fault => exact h.aside rfl rfl (fun _ => rfl) fun _ => rfl
    | move hMoves => exact h.moves (run_apart hBefore) hMoves

/-! ## The session -/

/-- Two spawned readers on one transport, or on one channel, have both in
common. -/
theorem endpoints_unique {ops : SessionEffect.Ops} (hInv : WorldInv ops w) (hPaired : Paired ops)
    {transport transport' : Transport} {channel channel' : Channel}
    (h : (transport, channel) ∈ spawnsOf ops) (h' : (transport', channel') ∈ spawnsOf ops) :
    transport = transport' ↔ channel = channel' := by
  obtain ⟨j, hJ⟩ := List.mem_iff_getElem?.mp h
  obtain ⟨k, hK⟩ := List.mem_iff_getElem?.mp h'
  constructor
  · intro hShared
    obtain rfl := spawned_unique hInv hPaired hJ hK (.inl hShared)
    exact congrArg Prod.snd (Option.some.inj (hJ.symm.trans hK))
  · intro hShared
    obtain rfl := spawned_unique hInv hPaired hJ hK (.inr hShared)
    exact congrArg Prod.fst (Option.some.inj (hJ.symm.trans hK))

theorem spawns_earlier {first rest : List TaskMove} {spawned : Transport × Channel}
    (h : spawned ∈ spawnsOf (answered first)) : spawned ∈ spawnsOf (answered (first ++ rest)) := by
  unfold spawnsOf at h ⊢
  rw [answered_append, List.filterMap_append]
  exact List.mem_append_left _ h

/-- A message that is taken is routed to the session whose reader sent it. -/
theorem routed_eq {state : RunState} {session : Session} {channel : Channel}
    (hRun : Run (connectionTask config fromStr) trace (.parked state, w))
    (hOwn : (session.transport, channel) ∈ spawnsOf (answered trace)) :
    trace.filterMap (routedTo session.transport) = (takes channel trace).filterMap id := by
  obtain ⟨hPaired, -⟩ := parked_paired hRun
  unfold takes
  rw [List.filterMap_filterMap]
  refine List.filterMap_congr fun m hMem => ?_
  obtain ⟨first, rest, rfl⟩ := List.append_of_mem hMem
  obtain ⟨hFirst, hStep⟩ := hRun.step_run
  obtain ⟨⟨control, w₁⟩, label, post⟩ := m
  cases hStep with
  | answer | park | exit | fault => rfl
  | move => cases control <;> rfl
  | @fire state₁ b _ w₂ _ hFires =>
      cases hFires with
      | command | closed | heartbeat | watchdog | reconnect | shutdown => rfl
      | @frame channel₁ item rest₁ hInbound hQueued =>
          obtain ⟨_, _, turns, -, hTurns, -⟩ := small_parked hFirst
          have hSession := (run_invariant hTurns).1.inbound
          rw [hInbound] at hSession
          obtain ⟨live, hLive⟩ := Option.isSome_iff_exists.mp hSession.symm
          obtain ⟨channel₂, hInbound', hThen⟩ := (parked_paired hFirst).2 live hLive
          obtain rfl : channel₂ = channel₁ := Option.some.inj (hInbound'.symm.trans hInbound)
          -- Both were spawned, so they share the transport or differ in both.
          have hSame := endpoints_unique (run_worldInv hRun) hPaired (spawns_earlier hThen) hOwn
          by_cases hChannel : channel₂ = channel
          · have hTransport := hSame.mpr hChannel
            simp [routedTo, takenFrom, hLive, hInbound, hChannel, hTransport]
          · have hTransport := mt hSame.mp hChannel
            simp [routedTo, takenFrom, hLive, hInbound, hChannel, hTransport]

theorem frames_of_messages {taken queued last : List (Option (List Byte))}
    (hMessages : taken ++ queued = sent.map some ++ last) (hLast : last.filterMap id = []) :
    taken.filterMap id ++ queued.filterMap id = sent := by
  have hFrames := congrArg (List.filterMap id) hMessages
  rw [List.filterMap_append, List.filterMap_append, hLast, List.append_nil,
    List.filterMap_map] at hFrames
  rw [hFrames]
  exact List.filterMap_some

/-- The thread is looking for more: it has sent what it has read. -/
def CaughtUp (w : World) (reader : Spawned) : Prop :=
  (reader.thread.control = .polling ∨ reader.thread.control = .reading) ∧
    w.queued reader.channel = []

/-- **A session hears what its receiver said.**  In every interleaving of the
task, the shutdown token and all reader threads, the payloads routed to a live
session are frames of the bytes that the one thread spawned for its transport
has read, from the first on, each once and in their order; and all of them, as
soon as that thread looks for more and the channel is empty. -/
theorem session_hears {state : RunState} {session : Session}
    (hRun : Run (connectionTask config fromStr) trace (.parked state, w))
    (hSession : state.session = some session) :
    ∃ k reader, w.readers[k]? = some reader ∧ reader.transport = session.transport ∧
      ∃ frames held, Deframes (reads k trace).flatten frames held ∧
        trace.filterMap (routedTo session.transport) <+: frames ∧
        (CaughtUp w reader → trace.filterMap (routedTo session.transport) = frames) := by
  have hInv := run_worldInv hRun
  obtain ⟨-, hWired⟩ := parked_paired hRun
  obtain ⟨channel, -, hOwn⟩ := hWired session hSession
  obtain ⟨k, hK⟩ := List.mem_iff_getElem?.mp hOwn
  obtain ⟨reader, hReader, hEnds⟩ := hInv.reader hK
  obtain rfl : reader.channel = channel := congrArg Prod.snd hEnds
  rw [routed_eq hRun hOwn]
  obtain ⟨sent, hSends, hSent⟩ : ∃ sent, Sends (reads k trace) sent reader.thread ∧
      (takes reader.channel trace).filterMap id ++
        ((w.queued reader.channel).map Item.frame).filterMap id = sent := by
    cases (run_heard hRun).threads k reader hReader with
    | @going sent h hMessages =>
        exact ⟨sent, h, frames_of_messages (hMessages.trans (List.append_nil _).symm) rfl⟩
    | @gone sent h _ hMessages => exact ⟨sent, h, frames_of_messages hMessages rfl⟩
  obtain ⟨frames, held, hFrames, hPrefix⟩ := hSends.frames
  refine ⟨k, reader, hReader, congrArg Prod.fst hEnds, frames, held, hFrames, ?_, ?_⟩
  · rw [← hSent] at hPrefix
    exact (List.prefix_append _ _).trans hPrefix
  · rintro ⟨hControl, hEmpty⟩
    have hAll : Deframes (reads k trace).flatten sent reader.thread.accumulator.buf := by
      unfold Sends at hSends
      rcases hControl with hControl | hControl <;> rw [hControl] at hSends <;> exact hSends.1
    rw [(hFrames.unique hAll).1, ← hSent, hEmpty]
    exact (List.append_nil _).symm

/-- A frame of one byte on its way to a session. -/
theorem byte_heard : ∃ trace w state session,
    Run (connectionTask .default fun _ => none) trace (.parked state, w) ∧
      state.session = some session ∧ ∃ k reader, w.readers[k]? = some reader ∧
        reader.transport = session.transport ∧
        ∃ frames held, Deframes (reads k trace).flatten frames held ∧
          trace.filterMap (routedTo session.transport) <+: frames := by
  obtain ⟨trace, hListening, -⟩ := run_listening .default fun _ => none
  obtain ⟨more, hOpened⟩ := run_obliged
    (run_fire (.command (some (.select livingRoom))) hListening trivial (.command _))
  have hPolled := run_move (.poll 0) (run_park hOpened) (.poll rfl rfl)
  have hRead := run_move (.read 0 (.ok [0, 0, 0, 1, 7])) hPolled (.read rfl rfl)
  have hSent := run_move (.send 0 true) hRead (.send rfl (.inr ⟨_, rfl⟩))
  have hTaken := run_fire (.inbound (some (some [7]))) hSent rfl
    (@Fires.frame _ _ ⟨0⟩ ⟨0, some [7]⟩ [] rfl rfl)
  obtain ⟨later, hRouted⟩ := run_obliged hTaken
  obtain ⟨k, reader, hReader, hTransport, frames, held, hFrames, hPrefix, -⟩ :=
    session_hears (run_park hRouted) rfl
  exact ⟨_, _, _, _, run_park hRouted, rfl, k, reader, hReader, hTransport, frames, held,
    hFrames, hPrefix⟩

end CastApp.Cast.Heard
