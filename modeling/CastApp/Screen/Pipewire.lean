import CastApp.Screen.Bridge

/-!
# The PipeWire stream of a portal

The capture thread of a portal stream lives in two callbacks.  `param_changed`
takes over a negotiated format and reports it to the controller, once;
`process` queues a buffer if it is as long as a frame of the format taken over
last.  The report is latched, the length is not.

What the buffers really hold is the format the compositor negotiated last,
whether or not the callback could make sense of it; `negotiated` records it.

* `frames_match_iff` — every queued frame is one of the reported format
  exactly as long as the format in force whenever one is queued has the pixels
  and the pixel format of the one reported.
-/

namespace CastApp.Screen.Pipewire

open CastApp.State
open CastApp.Screen.Bridge (PixFmt PwFormat)
open CastApp.Util.Backpressure
open CastApp.Verified.Transition

/-! ## Formats -/

/-- The largest width or height that is accepted. -/
def maxStreamDimension : UInt32 := 16384

structure Rectangle where
  width : UInt32
  height : UInt32
  deriving DecidableEq, Repr

/-- The SPA video formats, of which the client asks for four. -/
inductive VideoFormat : Type
  | rgbx
  | bgrx
  | rgba
  | bgra
  | other (raw : UInt32)
  deriving DecidableEq, Repr

structure VideoInfoRaw where
  format : VideoFormat
  size : Rectangle
  deriving DecidableEq, Repr

/-- `VideoInfoRaw::default`. -/
def VideoInfoRaw.unset : VideoInfoRaw := ⟨.other 0, ⟨0, 0⟩⟩

/-- `PixFmt::from_video_format`. -/
def fromVideoFormat : VideoFormat → Option PixFmt
  | .rgbx => some .rgb0
  | .bgrx => some .bgr0
  | .rgba => some .rgba
  | .bgra => some .bgra
  | .other _ => none

/-- `PwFormat::frame_bytes`, in `u32` arithmetic. -/
def frameBytes (format : PwFormat) : Nat := (format.width * format.height * 4).toNat

/-- How the SPA types print in a message. -/
structure SpaDebug where
  size : Rectangle → String
  format : VideoFormat → String

/-- What is reported of a negotiated format. -/
def report (debug : SpaDebug) (info : VideoInfoRaw) : Except String PwFormat :=
  let size := info.size
  if size.width = 0 ∨ size.height = 0 ∨ size.width > maxStreamDimension ∨
      size.height > maxStreamDimension then
    .error ("unreasonable negotiated size " ++ debug.size size)
  else
    match fromVideoFormat info.format with
    | none => .error ("unsupported negotiated pixel format " ++ debug.format info.format)
    | some pixFmt => .ok ⟨size.width, size.height, pixFmt⟩

/-! ## The callbacks -/

inductive MediaType : Type
  | video
  | other
  deriving DecidableEq, Repr

inductive MediaSubtype : Type
  | raw
  | other
  deriving DecidableEq, Repr

/-- A parameter of the stream, as far as the callback reads it. -/
structure Param where
  /-- `id` is `Format`. -/
  isFormat : Bool
  /-- What `parse_format` makes of it. -/
  media : Option (MediaType × MediaSubtype)
  /-- The format it stands for. -/
  info : VideoInfoRaw
  /-- What a failed parse leaves in the place of the format. -/
  spoilt : Option VideoInfoRaw
  deriving DecidableEq, Repr

/-- One of the memory blocks of a buffer. -/
structure SpaData where
  offset : UInt32
  size : UInt32
  /-- The mapped memory. -/
  data : Option (List Byte)
  deriving DecidableEq, Repr

structure CaptureData where
  format : VideoInfoRaw
  formatSent : Bool
  /-- What the status channel has taken. -/
  status : List (Except String PwFormat)
  frames : BoundedDropOldest (List Byte)

namespace CaptureData

def new (capacity : Nat) (hCapacity : 0 < capacity) : CaptureData :=
  ⟨.unset, false, [], .new capacity hCapacity⟩

/-- `param_changed`.  `connected` tells whether the receiver of the status
channel is still there. -/
def paramChanged (debug : SpaDebug) (d : CaptureData) (param : Option Param) (connected : Bool) :
    CaptureData :=
  match param with
  | none => d
  | some param =>
      if !param.isFormat then d
      else if param.media ≠ some (.video, .raw) then d
      else
        match param.spoilt with
        | some spoilt => { d with format := spoilt }
        | none =>
            if d.formatSent then { d with format := param.info }
            else
              { d with
                format := param.info
                formatSent := true
                status := d.status ++ if connected then [report debug param.info] else [] }

/-- `usize::MAX`. -/
def usizeMax : Nat := 2 ^ 64 - 1

/-- The bytes of a frame, where they can be counted in a `usize`. -/
def expectedBytes (size : Rectangle) : Option Nat :=
  let bytes := size.width.toNat * size.height.toNat * 4
  if bytes ≤ usizeMax then some bytes else none

/-- The part of a block that its chunk points to, if it has the length of a
frame. -/
def slice (buf : SpaData) (payload : List Byte) (expected : Nat) : Option (List Byte) :=
  let start := min buf.offset.toNat payload.length
  let stop := min (min (start + buf.size.toNat) usizeMax) payload.length
  if stop - start ≠ expected then none else some ((payload.drop start).take (stop - start))

/-- What `process` makes of the blocks of a dequeued buffer: the frame it
queues, if it does. -/
def frameOf (d : CaptureData) (datas : Option (List SpaData)) : Option (List Byte) :=
  match datas with
  | none | some [] => none
  | some (buf :: _) =>
      match buf.data with
      | none => none
      | some payload =>
          if d.formatSent then (expectedBytes d.format.size).bind (slice buf payload) else none

/-- `process`. -/
def process (d : CaptureData) (datas : Option (List SpaData)) : CaptureData :=
  match d.frameOf datas with
  | none => d
  | some frame => { d with frames := d.frames.push frame }

end CaptureData

/-! ## Runs -/

inductive Callback : Type
  | paramChanged (param : Option Param) (connected : Bool)
  | process (datas : Option (List SpaData))

/-- The stream, with the format its buffers hold. -/
structure Stream where
  data : CaptureData
  negotiated : VideoInfoRaw

namespace Stream

/-- The format of the buffers after a parameter. -/
def renegotiated (s : Stream) : Option Param → VideoInfoRaw
  | some param => if param.isFormat then param.info else s.negotiated
  | none => s.negotiated

def next (debug : SpaDebug) (s : Stream) : Callback → Stream
  | .paramChanged param connected =>
      ⟨s.data.paramChanged debug param connected, s.renegotiated param⟩
  | .process datas => { s with data := s.data.process datas }

end Stream

/-- The callbacks of a stream, in any order. -/
def capture (debug : SpaDebug) : System Stream Callback where
  init s := ∃ capacity hCapacity negotiated, s = ⟨.new capacity hCapacity, negotiated⟩
  step s callback s' := s' = s.next debug callback

/-- The last format the controller was told. -/
def lastReported (status : List (Except String PwFormat)) : Option PwFormat :=
  (status.filterMap Except.toOption).getLast?

/-- If a frame is queued, it has the length and the pixel format of the format
last reported. -/
def FrameMatches (m : Move Stream Callback) : Prop :=
  ∀ datas frame, m.label = .process datas → m.pre.data.frameOf datas = some frame →
    ∃ format, lastReported m.pre.data.status = some format ∧ frame.length = frameBytes format ∧
      fromVideoFormat m.pre.negotiated.format = some format.pixFmt

/-- A parameter is a raw video format that parses. -/
def Param.Taken (param : Param) : Prop :=
  param.isFormat = true ∧ param.media = some (.video, .raw) ∧ param.spoilt = none

instance (param : Param) : Decidable param.Taken := inferInstanceAs (Decidable (_ ∧ _ ∧ _))

/-- The format a callback takes over, and whether it could be reported. -/
def Callback.takesOver : Callback → Option (VideoInfoRaw × Bool)
  | .paramChanged (some param) connected =>
      if param.Taken then some (param.info, connected) else none
  | .paramChanged none _ | .process _ => none

/-- The format taken over first. -/
def firstFormat (past : List Callback) : Option (VideoInfoRaw × Bool) :=
  past.findSome? Callback.takesOver

/-- The format a client can stream. -/
def Usable (info : VideoInfoRaw) : Prop :=
  info.size.width ≠ 0 ∧ info.size.height ≠ 0 ∧ info.size.width ≤ maxStreamDimension ∧
    info.size.height ≤ maxStreamDimension ∧ (fromVideoFormat info.format).isSome

instance (info : VideoInfoRaw) : Decidable (Usable info) :=
  inferInstanceAs (Decidable (_ ∧ _ ∧ _ ∧ _ ∧ _))

def pixels (size : Rectangle) : Nat := size.width.toNat * size.height.toNat

/-- With this past, the stream stands where its first format put it: that
format is one the client can stream and has been reported, the buffers have
its pixel format and the frames its number of pixels. -/
def Steady (past : List Callback) (s : Stream) : Prop :=
  ∃ info, firstFormat past = some (info, true) ∧ Usable info ∧
    s.negotiated.format = info.format ∧ pixels s.data.format.size = pixels info.size

/-! ## What is reported -/

section Formats

variable {debug : SpaDebug} {info : VideoInfoRaw} {format : PwFormat}

/-- Two formats of one pixel format are the same. -/
theorem fromVideoFormat_inj {a b : VideoFormat} {pixFmt : PixFmt}
    (ha : fromVideoFormat a = some pixFmt) (hb : fromVideoFormat b = some pixFmt) : a = b := by
  cases a <;> cases ha <;> cases b <;> cases hb <;> rfl

theorem report_ok_iff :
    report debug info = .ok format ↔
      Usable info ∧ format.width = info.size.width ∧ format.height = info.size.height ∧
        fromVideoFormat info.format = some format.pixFmt := by
  unfold report Usable
  by_cases hSize : info.size.width = 0 ∨ info.size.height = 0 ∨
      info.size.width > maxStreamDimension ∨ info.size.height > maxStreamDimension
  · simp only [hSize, if_true, reduceCtorEq, false_iff]
    rintro ⟨⟨hWidth, hHeight, hWide, hHigh, -⟩, -⟩
    rcases hSize with h | h | h | h
    · exact hWidth h
    · exact hHeight h
    · exact absurd h (UInt32.not_lt.mpr hWide)
    · exact absurd h (UInt32.not_lt.mpr hHigh)
  · simp only [hSize, if_false]
    simp only [not_or, gt_iff_lt, UInt32.not_lt] at hSize
    obtain ⟨width, height, pixFmt⟩ := format
    cases hFormat : fromVideoFormat info.format with
    | none => simp
    | some pix =>
        simp only [Except.ok.injEq, PwFormat.mk.injEq, Option.isSome_some, Option.some.injEq, hSize]
        constructor
        · rintro ⟨hWidth, hHeight, hPix⟩
          exact ⟨by simp [hSize.1, hSize.2.1], hWidth.symm, hHeight.symm, hPix⟩
        · rintro ⟨-, hWidth, hHeight, hPix⟩
          exact ⟨hWidth.symm, hHeight.symm, hPix⟩

/-- The bytes of a frame that may be streamed fit in a `u32`. -/
theorem frameBytes_of_usable (hUsable : Usable info) (hWidth : format.width = info.size.width)
    (hHeight : format.height = info.size.height) : frameBytes format = pixels info.size * 4 := by
  obtain ⟨-, -, hWide, hHigh, -⟩ := hUsable
  have hWideNat : info.size.width.toNat ≤ 16384 := UInt32.le_iff_toNat_le.mp hWide
  have hHighNat : info.size.height.toNat ≤ 16384 := UInt32.le_iff_toNat_le.mp hHigh
  have hPixels : info.size.width.toNat * info.size.height.toNat ≤ 16384 * 16384 :=
    Nat.mul_le_mul hWideNat hHighNat
  unfold frameBytes pixels
  rw [hWidth, hHeight, UInt32.toNat_mul, UInt32.toNat_mul,
    Nat.mod_eq_of_lt (by omega : info.size.width.toNat * info.size.height.toNat < 2 ^ 32)]
  exact Nat.mod_eq_of_lt (by simp; omega)

end Formats

namespace CaptureData

variable {d : CaptureData} {datas : Option (List SpaData)} {frame : List Byte}

theorem length_slice {buf : SpaData} {payload : List Byte} {expected : Nat}
    (hSlice : slice buf payload expected = some frame) : frame.length = expected := by
  simp only [slice, ne_eq, ite_not, Option.ite_none_right_eq_some, Option.some.injEq] at hSlice
  obtain ⟨hLength, rfl⟩ := hSlice
  rw [List.length_take, List.length_drop]
  omega

theorem expectedBytes_eq {size : Rectangle} {expected : Nat}
    (hExpected : expectedBytes size = some expected) : expected = pixels size * 4 := by
  simp only [expectedBytes, Option.ite_none_right_eq_some, Option.some.injEq] at hExpected
  exact hExpected.2.symm

/-- A frame is queued when a format has been taken over, and is as long as the
frames of the one in force. -/
theorem frameOf_some (hFrame : d.frameOf datas = some frame) :
    d.formatSent = true ∧ frame.length = pixels d.format.size * 4 := by
  unfold frameOf at hFrame
  split at hFrame
  · cases hFrame
  · cases hFrame
  · split at hFrame
    · cases hFrame
    · split at hFrame
      · rename_i hSent
        obtain ⟨expected, hExpected, hSlice⟩ := Option.bind_eq_some_iff.mp hFrame
        exact ⟨hSent, by rw [length_slice hSlice, expectedBytes_eq hExpected]⟩
      · cases hFrame

end CaptureData

/-! ## The report is latched -/

variable {debug : SpaDebug} {trace : List (Move Stream Callback)} {s : Stream}

/-- What the status channel has taken: the report of the first format, if the
receiver was there for it. -/
def reported (debug : SpaDebug) : Option (VideoInfoRaw × Bool) → List (Except String PwFormat)
  | some (info, true) => [report debug info]
  | some (_, false) | none => []

structure Latched (debug : SpaDebug) (past : List Callback) (s : Stream) : Prop where
  sent : s.data.formatSent = (firstFormat past).isSome
  status : s.data.status = reported debug (firstFormat past)

theorem firstFormat_snoc (past : List Callback) (callback : Callback) :
    firstFormat (past ++ [callback]) = (firstFormat past).or callback.takesOver := by
  simp [firstFormat, List.findSome?_append]

namespace CaptureData

variable {d : CaptureData} {param : Param} {connected : Bool}

theorem paramChanged_taken (hTaken : param.Taken) :
    d.paramChanged debug (some param) connected =
      if d.formatSent then { d with format := param.info }
      else
        { d with
          format := param.info
          formatSent := true
          status := d.status ++ if connected then [report debug param.info] else [] } := by
  obtain ⟨hFormat, hMedia, hParsed⟩ := hTaken
  simp [paramChanged, hFormat, hMedia, hParsed]

theorem paramChanged_ignored (d : CaptureData) (debug : SpaDebug) (connected : Bool)
    (hIgnored : ¬ param.Taken) :
    (d.paramChanged debug (some param) connected).formatSent = d.formatSent ∧
      (d.paramChanged debug (some param) connected).status = d.status := by
  cases hFormat : param.isFormat with
  | false => simp [paramChanged, hFormat]
  | true =>
      by_cases hMedia : param.media = some (.video, .raw)
      · cases hParsed : param.spoilt with
        | none => exact absurd ⟨hFormat, hMedia, hParsed⟩ hIgnored
        | some spoilt => simp [paramChanged, hFormat, hMedia, hParsed]
      · simp [paramChanged, hFormat, hMedia]

theorem process_latches (datas : Option (List SpaData)) :
    (d.process datas).formatSent = d.formatSent ∧ (d.process datas).status = d.status := by
  unfold process
  split
  · exact ⟨rfl, rfl⟩
  · exact ⟨rfl, rfl⟩

end CaptureData

/-- A callback that takes no format over changes nothing that is latched. -/
theorem Latched.quiet {past : List Callback} (h : Latched debug past s) {callback : Callback}
    {s' : Stream} (hQuiet : callback.takesOver = none)
    (hSent : s'.data.formatSent = s.data.formatSent) (hStatus : s'.data.status = s.data.status) :
    Latched debug (past ++ [callback]) s' := by
  have hFirst : firstFormat (past ++ [callback]) = firstFormat past := by
    rw [firstFormat_snoc, hQuiet, Option.or_none]
  exact ⟨by rw [hSent, h.sent, hFirst], by rw [hStatus, h.status, hFirst]⟩

/-- The first format is reported, and no later one. -/
theorem Latched.taken {past : List Callback} (h : Latched debug past s) {param : Param}
    {connected : Bool} (hTaken : param.Taken) :
    Latched debug (past ++ [.paramChanged (some param) connected])
      (s.next debug (.paramChanged (some param) connected)) := by
  have hFirst := firstFormat_snoc past (.paramChanged (some param) connected)
  simp only [Callback.takesOver, if_pos hTaken] at hFirst
  have hSent := h.sent
  have hStatus := h.status
  have hNext : (s.next debug (.paramChanged (some param) connected)).data = _ :=
    CaptureData.paramChanged_taken (d := s.data) hTaken
  cases hPast : firstFormat past with
  | none =>
      rw [hPast] at hFirst hSent hStatus
      constructor
      · simp [hNext, hSent, hFirst]
      · cases connected <;> simp [hNext, hSent, hFirst, hStatus, reported]
  | some first =>
      rw [hPast] at hFirst hSent hStatus
      constructor
      · simp [hNext, hSent, hFirst]
      · simp [hNext, hSent, hFirst, hStatus]

theorem Latched.next {past : List Callback} (h : Latched debug past s) (callback : Callback) :
    Latched debug (past ++ [callback]) (s.next debug callback) := by
  cases callback with
  | process datas =>
      obtain ⟨hSent, hStatus⟩ := CaptureData.process_latches (d := s.data) datas
      exact h.quiet rfl hSent hStatus
  | paramChanged param connected =>
      cases param with
      | none => exact h.quiet rfl rfl rfl
      | some param =>
          by_cases hTaken : param.Taken
          · exact h.taken hTaken
          · obtain ⟨hSent, hStatus⟩ := s.data.paramChanged_ignored debug connected hTaken
            exact h.quiet (if_neg hTaken) hSent hStatus

/-- The callbacks of a run. -/
abbrev callbacks (trace : List (Move Stream Callback)) : List Callback := trace.map Move.label

theorem run_latched (hRun : Run (capture debug) trace s) : Latched debug (callbacks trace) s := by
  induction hRun with
  | start hInit =>
      obtain ⟨capacity, hCapacity, negotiated, rfl⟩ := hInit
      exact ⟨rfl, rfl⟩
  | step _ hStep ih =>
      cases hStep
      simp only [callbacks, List.map_append, List.map_cons, List.map_nil]
      exact ih.next _

/-! ## Frames and the report -/

/-- The format last reported is that of the first format, where it can be
streamed. -/
theorem Latched.lastReported_iff {past : List Callback} (h : Latched debug past s)
    {format : PwFormat} :
    lastReported s.data.status = some format ↔
      ∃ info, firstFormat past = some (info, true) ∧ report debug info = .ok format := by
  rw [h.status]
  cases hFirst : firstFormat past with
  | none => simp [reported, lastReported]
  | some first =>
      obtain ⟨info, connected⟩ := first
      cases connected with
      | false => simp [reported, lastReported]
      | true =>
          cases hReport : report debug info with
          | error => simp [reported, lastReported, hReport, Except.toOption]
          | ok => simp [reported, lastReported, hReport, Except.toOption]

/-- A frame that is queued is one of the reported format exactly when the
stream stands where its first format put it. -/
theorem Latched.frameMatches_iff {past : List Callback} (h : Latched debug past s)
    {datas : Option (List SpaData)} {frame : List Byte}
    (hFrame : s.data.frameOf datas = some frame) :
    (∃ format, lastReported s.data.status = some format ∧ frame.length = frameBytes format ∧
      fromVideoFormat s.negotiated.format = some format.pixFmt) ↔ Steady past s := by
  have hLength := (CaptureData.frameOf_some hFrame).2
  constructor
  · rintro ⟨format, hLast, hBytes, hPixFmt⟩
    obtain ⟨info, hFirst, hReport⟩ := h.lastReported_iff.mp hLast
    obtain ⟨hUsable, hWidth, hHeight, hSupported⟩ := report_ok_iff.mp hReport
    rw [hLength, frameBytes_of_usable hUsable hWidth hHeight] at hBytes
    exact ⟨info, hFirst, hUsable, fromVideoFormat_inj hPixFmt hSupported, by omega⟩
  · rintro ⟨info, hFirst, hUsable, hFormat, hPixels⟩
    obtain ⟨pixFmt, hSupported⟩ := Option.isSome_iff_exists.mp hUsable.2.2.2.2
    have hReport : report debug info = .ok ⟨info.size.width, info.size.height, pixFmt⟩ :=
      report_ok_iff.mpr ⟨hUsable, rfl, rfl, hSupported⟩
    refine ⟨_, h.lastReported_iff.mpr ⟨info, hFirst, hReport⟩, ?_, by rw [hFormat]; exact hSupported⟩
    rw [hLength, frameBytes_of_usable hUsable rfl rfl, hPixels]

/-- The callback queues a frame. -/
def Queues (m : Move Stream Callback) : Prop :=
  ∃ datas frame, m.label = .process datas ∧ m.pre.data.frameOf datas = some frame

/-- **Every queued frame is one of the reported format** exactly when, whenever
a frame is queued, the first format taken over could be streamed and was
reported, and the format in force has its pixel format and its number of
pixels. -/
theorem frames_match_iff (hRun : Run (capture debug) trace s) :
    (∀ m ∈ trace, FrameMatches m) ↔
      ∀ before m after, trace = before ++ m :: after → Queues m →
        Steady (callbacks before) m.pre := by
  constructor
  · rintro hAll before m after rfl ⟨datas, frame, hLabel, hFrame⟩
    have hLatched := run_latched hRun.step_run.1
    exact (hLatched.frameMatches_iff hFrame).mp (hAll m (by simp) datas frame hLabel hFrame)
  · intro hSteady m hMem datas frame hLabel hFrame
    obtain ⟨before, after, rfl⟩ := List.append_of_mem hMem
    have hLatched := run_latched hRun.step_run.1
    exact (hLatched.frameMatches_iff hFrame).mpr
      (hSteady before m after rfl ⟨datas, frame, hLabel, hFrame⟩)

/-- A renegotiated format. -/
def negotiates (width height : UInt32) : Callback :=
  .paramChanged (some ⟨true, some (.video, .raw), ⟨.bgrx, ⟨width, height⟩⟩, none⟩) true

/-- A buffer of bytes, all of it a frame. -/
def delivers (bytes : List Byte) : Callback :=
  .process (some [⟨0, bytes.length.toUInt32, some bytes⟩])

theorem start_capture (debug : SpaDebug) :
    Run (capture debug) [] ⟨.new 2 (by decide), .unset⟩ := .start ⟨2, by decide, .unset, rfl⟩

/-- The stream shrinks from 2x1 to 1x1: the controller is never told, and the
smaller frame is queued. -/
theorem shrunk_frame_queued :
    ∃ trace s, Run (capture ⟨fun _ => "", fun _ => ""⟩) trace s ∧
      callbacks trace = [negotiates 2 1, negotiates 1 1, delivers [1, 2, 3, 4]] ∧
      s.data.frames.items = [[1, 2, 3, 4]] ∧
      s.data.status = [.ok ⟨2, 1, .bgr0⟩] ∧ frameBytes ⟨2, 1, .bgr0⟩ = 8 ∧
      ¬ ∀ m ∈ trace, FrameMatches m := by
  have hStart := start_capture ⟨fun _ => "", fun _ => ""⟩
  have hFirst := hStart.step (l := negotiates 2 1) rfl
  have hShrunk := hFirst.step (l := negotiates 1 1) rfl
  have hQueued := hShrunk.step (l := delivers [1, 2, 3, 4]) rfl
  refine ⟨_, _, hQueued, rfl, rfl, rfl, by decide, fun hAll => ?_⟩
  have hMatches := hAll _ (List.mem_append_right _ (List.mem_singleton_self _))
  obtain ⟨format, hLast, hBytes, -⟩ := hMatches _ [1, 2, 3, 4] rfl rfl
  obtain rfl : (⟨2, 1, .bgr0⟩ : PwFormat) = format := Option.some.inj hLast
  exact absurd hBytes (by decide)

/-- A frame of the format reported. -/
theorem reported_frame_queued :
    ∃ trace s, Run (capture ⟨fun _ => "", fun _ => ""⟩) trace s ∧
      callbacks trace = [negotiates 1 1, delivers [1, 2, 3, 4]] ∧
      s.data.frames.items = [[1, 2, 3, 4]] ∧ ∀ m ∈ trace, FrameMatches m := by
  have hStart := start_capture ⟨fun _ => "", fun _ => ""⟩
  have hFirst := hStart.step (l := negotiates 1 1) rfl
  have hQueued := hFirst.step (l := delivers [1, 2, 3, 4]) rfl
  refine ⟨_, _, hQueued, rfl, rfl, (frames_match_iff hQueued).mpr ?_⟩
  intro before m after hSplit hQueues
  rcases before with _ | ⟨first, _ | ⟨second, before⟩⟩
  · obtain ⟨rfl, -⟩ := List.cons.inj hSplit
    obtain ⟨datas, frame, hLabel, -⟩ := hQueues
    cases hLabel
  · obtain ⟨rfl, hRest⟩ := List.cons.inj hSplit
    obtain ⟨rfl, -⟩ := List.cons.inj hRest
    exact ⟨⟨.bgrx, ⟨1, 1⟩⟩, rfl, by decide, rfl, rfl⟩
  · have hLength := congrArg List.length hSplit
    simp at hLength

end CastApp.Screen.Pipewire
