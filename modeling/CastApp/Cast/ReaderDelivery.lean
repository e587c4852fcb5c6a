import CastApp.Cast.FrameStream
import CastApp.Verified.Transition

/-!
# What the reader delivers

The reader thread on one stream of bytes, cut into reads in any way.  The
frames of one read are sent only if the whole read was extracted: when a
length prefix over the limit arrives in the same read as the end of a
complete frame, the error takes the frame with it.

* `Delivering` — what has been sent, and what is still to be sent, at every
  point of the loop; `run_delivering` is its run lemma.
* **`delivered_iff`** — before its final `none` the reader sends every
  complete frame ahead of the first over-limit prefix exactly when some read
  ends between the last of these frames and the fourth byte of the prefix.
* `coalesced_frame_lost` — one read that does not.
-/

namespace CastApp.Cast.ReaderDelivery

open CastApp.State
open CastApp.Cast.Framing
open CastApp.Cast.FrameStream
open CastApp.Cast.Reader
open CastApp.Verified.Transition

/-! ## The reader on a stream -/

/-- `READ_BUFFER_SIZE`. -/
def readBufferSize : Nat := 16 * 1024

/-- The reader, and the bytes it has yet to read. -/
structure Reading where
  unread : List Byte
  thread : ReaderThread
  deriving DecidableEq

inductive Label : Type
  | poll
  | read (result : ReaderThread.ReadResult)
  | send (action : ReaderThread.Action)

inductive Step : Reading → Label → Reading → Prop
  /-- Nobody has triggered the shutdown token. -/
  | poll {unread : List Byte} {r : ReaderThread} (hControl : r.control = .polling) :
      Step ⟨unread, r⟩ .poll ⟨unread, r.poll false⟩
  | bytes {unread chunk : List Byte} {r : ReaderThread} (hControl : r.control = .reading)
      (hSome : chunk ≠ []) (hFits : chunk.length ≤ readBufferSize) :
      Step ⟨chunk ++ unread, r⟩ (.read (.ok chunk)) ⟨unread, r.read (.ok chunk)⟩
  | retry {unread : List Byte} {r : ReaderThread} {error : IoError}
      (hControl : r.control = .reading)
      (hKind : error.kind = .wouldBlock ∨ error.kind = .timedOut) :
      Step ⟨unread, r⟩ (.read (.error error)) ⟨unread, r.read (.error error)⟩
  /-- The stream ends after its last byte, in order or with an error. -/
  | ended {r : ReaderThread} {result : ReaderThread.ReadResult} (hControl : r.control = .reading)
      (hResult : ∀ chunk, result = .ok chunk → chunk = []) :
      Step ⟨[], r⟩ (.read result) ⟨[], r.read result⟩
  /-- The run task is still there. -/
  | frame {unread : List Byte} {r : ReaderThread} {frames : List (List Byte)}
      (hControl : r.control = .sending frames) :
      Step ⟨unread, r⟩ (.send (r.send true).1) ⟨unread, (r.send true).2⟩
  | last {unread : List Byte} {r : ReaderThread} (hControl : r.control = .leaving) :
      Step ⟨unread, r⟩ (.send (r.send true).1) ⟨unread, (r.send true).2⟩

/-- `reader_loop` on `stream`, cut into reads in any way. -/
def reader (stream : List Byte) : System Reading Label where
  init s := s = ⟨stream, .new⟩
  step := Step

abbrev Trace : Type := List (Move Reading Label)

/-- The reads of a trace, in order. -/
def readsOf (trace : Trace) : List (List Byte) :=
  trace.filterMap fun m =>
    match m.label with
    | .read (.ok chunk) => some chunk
    | _ => none

/-- The frames sent to the run task, in order. -/
def delivered (trace : Trace) : List (List Byte) :=
  trace.filterMap fun m =>
    match m.label with
    | .send (.send frame) => frame
    | _ => none

theorem readsOf_append (first later : Trace) :
    readsOf (first ++ later) = readsOf first ++ readsOf later := List.filterMap_append

/-! ## The invariant of the loop -/

/-- The loop is over: the stream was read to its end, or the last read
brought a length prefix over the limit, and the frames sent are those of the
reads before it. -/
inductive Ended (stream : List Byte) (reads sent : List (List Byte)) : Prop
  | complete {rest : List Byte} (hAll : reads.flatten = stream)
      (hSent : Deframes stream sent rest) (hRest : Incomplete rest)
  | overLimit {before frames : List (List Byte)} {last held rest : List Byte}
      (hReads : reads = before ++ [last])
      (hSent : Deframes before.flatten sent held) (hHeld : Incomplete held)
      (hFrames : Deframes reads.flatten frames rest) (hRest : OverLimit rest)

/-- What the frames sent so far have to do with the bytes read so far. -/
def Progress (stream : List Byte) (reads sent : List (List Byte)) (r : ReaderThread) : Prop :=
  match r.control with
  | .polling | .reading => Deframes reads.flatten sent r.accumulator.buf ∧ Incomplete r.accumulator.buf
  | .sending frames =>
      Deframes reads.flatten (sent ++ frames) r.accumulator.buf ∧ Incomplete r.accumulator.buf
  | .leaving | .finished => Ended stream reads sent

structure Delivering (stream : List Byte) (trace : Trace) (s : Reading) : Prop where
  bytes : stream = (readsOf trace).flatten ++ s.unread
  progress : Progress stream (readsOf trace) (delivered trace) s.thread

/-- One read with bytes in it. -/
theorem read_progress {stream chunk : List Byte} {reads sent : List (List Byte)}
    {r : ReaderThread} (hFrames : Deframes reads.flatten sent r.accumulator.buf)
    (hHeld : Incomplete r.accumulator.buf) (hSome : chunk ≠ []) :
    Progress stream (reads ++ [chunk]) sent (r.read (.ok chunk)) := by
  obtain ⟨frames, rest, hChunk⟩ := exists_deframes (r.accumulator.buf ++ chunk)
  have hReads : (reads ++ [chunk]).flatten = reads.flatten ++ chunk := by simp
  have hAll : Deframes (reads ++ [chunk]).flatten (sent ++ frames) rest := by
    rw [hReads]
    exact hFrames.append hChunk
  obtain ⟨b, bytes, rfl⟩ := List.exists_cons_of_ne_nil hSome
  rcases hChunk.rest_cases with hRest | hRest
  · have hRead : r.read (.ok (b :: bytes)) = ⟨⟨rest⟩, .sending frames⟩ := by
      simp only [ReaderThread.read, pushBytes_frames hChunk hRest]
    rw [hRead]
    exact ⟨hAll, hRest⟩
  · have hRead : (r.read (.ok (b :: bytes))).control = .leaving := by
      simp only [ReaderThread.read, pushBytes_overLimit hChunk hRest]
    unfold Progress
    rw [hRead]
    exact .overLimit rfl hFrames hHeld hAll hRest

/-- The step lemma. -/
theorem step_delivering {stream : List Byte} {trace : Trace} {s s' : Reading} {l : Label}
    (h : Delivering stream trace s) (hStep : Step s l s') :
    Delivering stream (trace ++ [⟨s, l, s'⟩]) s' := by
  obtain ⟨hBytes, hProgress⟩ := h
  cases hStep with
  | poll hControl =>
      unfold Progress at hProgress
      rw [hControl] at hProgress
      refine ⟨by simpa [readsOf] using hBytes, ?_⟩
      simpa [Progress, readsOf, delivered, ReaderThread.poll] using hProgress
  | @bytes unread chunk r hControl hSome hFits =>
      unfold Progress at hProgress
      rw [hControl] at hProgress
      refine ⟨by simpa [readsOf] using hBytes, ?_⟩
      have hRead := @read_progress stream _ _ _ _ hProgress.1 hProgress.2 hSome
      simpa [readsOf_append, readsOf, delivered] using hRead
  | @retry unread r error hControl hKind =>
      unfold Progress at hProgress
      rw [hControl] at hProgress
      refine ⟨by simpa [readsOf] using hBytes, ?_⟩
      have hRead : r.read (.error error) = { r with control := .polling } := by
        simp only [ReaderThread.read, if_pos hKind]
      rw [hRead]
      simpa [Progress, readsOf, delivered] using hProgress
  | @ended r result hControl hResult =>
      unfold Progress at hProgress
      rw [hControl] at hProgress
      have hReads : (readsOf (trace ++ [⟨⟨[], r⟩, .read result, ⟨[], r.read result⟩⟩])).flatten =
          (readsOf trace).flatten := by
        rw [readsOf_append]
        cases result with
        | ok chunk => simp [readsOf, hResult chunk rfl]
        | error error => simp [readsOf]
      have hSent : delivered (trace ++ [⟨⟨[], r⟩, .read result, ⟨[], r.read result⟩⟩]) =
          delivered trace := by simp [delivered]
      have hAll : (readsOf trace).flatten = stream := by simpa using hBytes.symm
      refine ⟨by rw [hReads]; exact hBytes, ?_⟩
      have hLeft : (r.read result).control = .leaving ∨
          r.read result = { r with control := .polling } := by
        cases result with
        | ok chunk =>
            rw [hResult chunk rfl]
            exact .inl rfl
        | error error =>
            simp only [ReaderThread.read]
            split
            · exact .inr rfl
            · exact .inl rfl
      rw [hSent]
      rcases hLeft with hLeft | hLeft
      · unfold Progress
        rw [hLeft]
        exact .complete (hReads.trans hAll) (hAll ▸ hProgress.1) hProgress.2
      · have hSame : Deframes (readsOf (trace ++
            [⟨⟨[], r⟩, .read result, ⟨[], r.read result⟩⟩])).flatten (delivered trace)
            r.accumulator.buf := by
          rw [hReads]
          exact hProgress.1
        unfold Progress
        simp only [hLeft]
        exact ⟨by rw [← hLeft]; exact hSame, hProgress.2⟩
  | @frame unread r frames hControl =>
      unfold Progress at hProgress
      rw [hControl] at hProgress
      refine ⟨by simpa [readsOf] using hBytes, ?_⟩
      cases frames with
      | nil =>
          simpa [Progress, readsOf, delivered, ReaderThread.send, hControl] using hProgress
      | cons frame frames =>
          simpa [Progress, readsOf, delivered, ReaderThread.send, hControl] using hProgress
  | @last unread r hControl =>
      unfold Progress at hProgress
      rw [hControl] at hProgress
      refine ⟨by simpa [readsOf] using hBytes, ?_⟩
      simpa [Progress, readsOf, delivered, ReaderThread.send, hControl] using hProgress

/-- The run lemma. -/
theorem run_delivering {stream : List Byte} {trace : Trace} {s : Reading}
    (hRun : Run (reader stream) trace s) : Delivering stream trace s := by
  apply hRun.traceInvariant
  · rintro _ rfl
    have hNothing : Incomplete FrameAccumulator.new.buf := .inl (by decide)
    exact ⟨rfl, .incomplete hNothing, hNothing⟩
  · intro trace s l s' _ h hStep
    exact step_delivering h hStep

/-! ## Read boundaries -/

/-- Some read ends within the four bytes that start at `offset`, or before
the first of them. -/
def EndsInside (reads : List (List Byte)) (offset : Nat) : Prop :=
  ∃ first later, reads = first ++ later ∧
    offset ≤ first.flatten.length ∧ first.flatten.length < offset + 4

/-- The first reads of a sequence without its last one end no later than all
the others. -/
theorem length_first_le {before first later : List (List Byte)} {last : List Byte}
    (hReads : before ++ [last] = first ++ later) :
    first.flatten.length ≤ before.flatten.length ∨ first = before ++ [last] := by
  rcases List.eq_nil_or_concat later with rfl | ⟨later', last', rfl⟩
  · right
    rw [List.append_nil] at hReads
    exact hReads.symm
  · left
    rw [List.concat_eq_append, ← List.append_assoc] at hReads
    obtain ⟨rfl, -⟩ := List.append_inj' hReads rfl
    simp

/-- A stream cut off behind its last frame, before or after the end of the
over-limit prefix. -/
theorem deframes_cut {stream before more rest : List Byte} {frames : List (List Byte)}
    (hStream : stream = before ++ more) (hFrames : Deframes stream frames rest)
    (hRest : OverLimit rest) (hBehind : stream.length - rest.length ≤ before.length) :
    ∃ tail, rest = tail ++ more ∧ Deframes before frames tail := by
  have hBytes := hFrames.bytes
  have hSizes := hFrames.sizes
  rw [hBytes] at hStream hBehind
  rw [List.length_append, Nat.add_sub_cancel] at hBehind
  obtain ⟨tail, hBefore⟩ :=
    List.prefix_of_prefix_length_le ⟨rest, hStream⟩ ⟨more, rfl⟩ hBehind
  rw [← hBefore, List.append_assoc] at hStream
  have hTail : rest = tail ++ more := List.append_cancel_left hStream
  refine ⟨tail, hTail, ?_⟩
  -- A frame in what the cut leaves of `rest` would be a frame of the stream.
  obtain ⟨later, held, hLater⟩ := exists_deframes tail
  obtain ⟨final, rest', hFinal⟩ := exists_deframes (held ++ more)
  have hRestAgain := hLater.append hFinal
  rw [← hTail] at hRestAgain
  obtain ⟨hNone, -⟩ := (Deframes.overLimit hRest).unique hRestAgain
  obtain ⟨rfl, -⟩ := List.append_eq_nil_iff.mp hNone.symm
  have hHeld : tail = held := hLater.bytes
  have hFirst := @deframes_encoded _ [] hSizes (.inl (by decide))
  rw [List.append_nil] at hFirst
  have hBoth := hFirst.append hLater
  rw [List.append_nil, ← hHeld] at hBoth
  rw [← hBefore]
  exact hBoth

/-- It holds all the frames only when it is cut off behind the last of
them. -/
theorem sent_iff {stream before more held rest : List Byte} {sent frames : List (List Byte)}
    (hStream : stream = before ++ more) (hSent : Deframes before sent held)
    (hFrames : Deframes stream frames rest) (hRest : OverLimit rest) :
    sent = frames ↔ stream.length - rest.length ≤ before.length := by
  constructor
  · rintro rfl
    rw [hFrames.bytes, hSent.bytes]
    simp only [List.length_append]
    omega
  · intro hBehind
    obtain ⟨tail, -, hCut⟩ := deframes_cut hStream hFrames hRest hBehind
    exact (hSent.unique hCut).1

/-- If nothing over the limit shows before the cut, the cut is ahead of the
prefix's fourth byte. -/
theorem cut_inside {stream before more held rest : List Byte} {sent frames : List (List Byte)}
    (hStream : stream = before ++ more) (hSent : Deframes before sent held)
    (hHeld : Incomplete held) (hFrames : Deframes stream frames rest) (hRest : OverLimit rest) :
    before.length < stream.length - rest.length + 4 := by
  by_cases hNear : before.length < stream.length - rest.length + 4
  · exact hNear
  exfalso
  obtain ⟨tail, hTail, hCut⟩ := deframes_cut hStream hFrames hRest (by omega)
  obtain ⟨rfl, rfl⟩ := hSent.unique hCut
  have hStreamLength := congrArg List.length hFrames.bytes
  have hBeforeLength := congrArg List.length hCut.bytes
  rw [List.length_append] at hStreamLength hBeforeLength
  have hHeader : 4 ≤ held.length := by omega
  have hAnnounced := announced_append hHeader more
  have hOver := hRest.2
  rw [hTail, hAnnounced] at hOver
  exact not_incomplete_of_overLimit ⟨hHeader, hOver⟩ hHeld

/-- **Delivery before a protocol error.**  The frames sent before the final
`none` are all complete frames that precede the first over-limit prefix
exactly when, if there is such a prefix, some read ends behind the last of
these frames and ahead of the prefix's fourth byte. -/
theorem delivered_iff {stream rest : List Byte} {frames : List (List Byte)} {trace : Trace}
    {s : Reading} (hFrames : Deframes stream frames rest)
    (hRun : Run (reader stream) trace s) (hDone : s.thread.control = .finished) :
    delivered trace = frames ↔
      (OverLimit rest → EndsInside (readsOf trace) (stream.length - rest.length)) := by
  obtain ⟨hBytes, hProgress⟩ := run_delivering hRun
  unfold Progress at hProgress
  rw [hDone] at hProgress
  cases hProgress with
  | complete hAll hSent hIncomplete =>
      obtain ⟨hEq, rfl⟩ := hSent.unique hFrames
      exact ⟨fun _ hOver => absurd hIncomplete (not_incomplete_of_overLimit hOver), fun _ => hEq⟩
  | @overLimit before frames' last held rest' hReads hSent hHeld hFrames' hOver' =>
      have hAgain := hFrames'.append_overLimit hOver' s.unread
      rw [← hBytes] at hAgain
      obtain ⟨rfl, rfl⟩ := hAgain.unique hFrames
      have hOver := overLimit_append hOver' s.unread
      have hStream : stream = before.flatten ++ (last ++ s.unread) := by
        rw [hBytes, hReads]
        simp
      rw [sent_iff hStream hSent hFrames hOver]
      constructor
      · intro hBehind _
        exact ⟨before, [last], hReads, hBehind, cut_inside hStream hSent hHeld hFrames hOver⟩
      · intro hEnds
        obtain ⟨first, later, hSplit, hLow, hHigh⟩ := hEnds hOver
        rcases length_first_le (hReads.symm.trans hSplit) with hLe | rfl
        · omega
        · -- All reads together hold the whole prefix.
          have hHeader := hOver'.1
          have hReadLength := congrArg List.length hFrames'.bytes
          have hStreamLength := congrArg List.length hFrames.bytes
          rw [List.length_append] at hReadLength hStreamLength
          rw [← hReads] at hHigh
          omega

/-! ## One stream, two cuts -/

/-- A frame of one byte, then a length prefix over the limit. -/
def shortStream : List Byte := [0, 0, 0, 1, 7, 255, 255, 255, 255]

/-- A run as the labels and states it goes through. -/
def record : Reading → List (Label × Reading) → Trace
  | _, [] => []
  | s, (l, s') :: later => ⟨s, l, s'⟩ :: record s' later

/-- The reader while `buf` is held. -/
def reading (unread buf : List Byte) (control : ReaderControl) : Reading :=
  ⟨unread, ⟨⟨buf⟩, control⟩⟩

/-- All of the stream in one read. -/
def coalesced : Trace :=
  record (reading shortStream [] .polling)
    [(.poll, reading shortStream [] .reading),
      (.read (.ok shortStream), reading [] shortStream .leaving),
      (.send (.send none), reading [] shortStream .finished)]

/-- The frame in one read, the prefix in the next. -/
def split : Trace :=
  let header : List Byte := [255, 255, 255, 255]
  record (reading shortStream [] .polling)
    [(.poll, reading shortStream [] .reading),
      (.read (.ok [0, 0, 0, 1, 7]), reading header [] (.sending [[7]])),
      (.send (.send (some [7])), reading header [] (.sending [])),
      (.send .silent, reading header [] .polling),
      (.poll, reading header [] .reading),
      (.read (.ok header), reading [] header .leaving),
      (.send (.send none), reading [] header .finished)]

theorem coalesced_run :
    Run (reader shortStream) coalesced (reading [] shortStream .finished) := by
  have hStart : Run (reader shortStream) [] (reading shortStream [] .polling) := .start rfl
  have hPoll := hStart.step (.poll rfl)
  have hRead := hPoll.step (@Step.bytes [] shortStream _ rfl (by decide) (by decide))
  exact hRead.step (.last rfl)

theorem split_run :
    Run (reader shortStream) split (reading [] [255, 255, 255, 255] .finished) := by
  have hStart : Run (reader shortStream) [] (reading shortStream [] .polling) := .start rfl
  have hPoll := hStart.step (.poll rfl)
  have hFrame := hPoll.step
    (@Step.bytes [255, 255, 255, 255] [0, 0, 0, 1, 7] _ rfl (by decide) (by decide))
  have hSent := (hFrame.step (@Step.frame _ _ [[7]] rfl)).step (@Step.frame _ _ [] rfl)
  have hPrefix := (hSent.step (.poll rfl)).step
    (@Step.bytes [] [255, 255, 255, 255] _ rfl (by decide) (by decide))
  exact hPrefix.step (.last rfl)

theorem shortStream_frames : Deframes shortStream [[7]] [255, 255, 255, 255] :=
  @Deframes.frame [7] _ _ _ (by decide) (.overLimit ⟨by decide, by decide⟩)

/-- Cut after the frame, the stream delivers it. -/
theorem split_delivered :
    delivered split = [[7]] ↔
      (OverLimit [255, 255, 255, 255] →
        EndsInside (readsOf split) (shortStream.length - 4)) :=
  delivered_iff shortStream_frames split_run rfl

/-- Read at once, it delivers nothing. -/
theorem coalesced_frame_lost :
    Run (reader shortStream) coalesced (reading [] shortStream .finished) ∧
      Run (reader shortStream) split (reading [] [255, 255, 255, 255] .finished) ∧
      Deframes shortStream [[7]] [255, 255, 255, 255] ∧
      delivered coalesced = [] ∧ delivered split = [[7]] :=
  ⟨coalesced_run, split_run, shortStream_frames, rfl, rfl⟩

end CastApp.Cast.ReaderDelivery
