import CastApp.Screen.Capture
import CastApp.Screen.Segments
import CastApp.Util.Backpressure
import CastApp.Verified.Transition

/-!
# The screen bridge

A pipeline from the monitor to the media server: the capture thread queues
raw frames, the controller feeds them to the encoder of the present
generation, one stdout reader per generation queues the encoder's segments,
and the forwarder moves those into the channel of the media server.  Two
queues, one slot, one channel and two flags are all they share.

Each step of the system is one access of one thread to what is shared, so
that between any two accesses any other thread may move.  The flags only ever
go up; a thread that looks at both is taken to look at them at once.

What encoders write, whether they live, whether threads and processes can be
spawned, and what the portal and its capture thread report is left open.

Two things are recorded that the program does not keep: which generation a
segment is from, and of which size and under which announcement a frame was
captured.
-/

namespace CastApp.Screen.Bridge

open CastApp.State
open CastApp.Screen.Capture
open CastApp.Screen.Segments
open CastApp.Util.Backpressure
open CastApp.Verified.Transition

/-! ## Encoders -/

inductive PixFmt : Type
  | rgb0
  | bgr0
  | rgba
  | bgra
  deriving DecidableEq, Repr

def PixFmt.ffmpegName : PixFmt → String
  | rgb0 => "rgb0"
  | bgr0 => "bgr0"
  | rgba => "rgba"
  | bgra => "bgra"

/-- The format of a portal stream. -/
structure PwFormat where
  width : UInt32
  height : UInt32
  pixFmt : PixFmt
  deriving DecidableEq, Repr

/-- What an encoder is spawned for. -/
inductive EncoderTarget : Type
  | x11 (size : Size)
  | portal (format : PwFormat)
  deriving DecidableEq, Repr

namespace EncoderTarget

/-- The `-s WxH` of the encoder. -/
def size : EncoderTarget → Size
  | x11 size => size
  | portal format => (format.width, format.height)

def describe : EncoderTarget → String
  | x11 size => toString size.1.toNat ++ "x" ++ toString size.2.toNat ++ " (RGBA)"
  | portal format =>
      toString format.width.toNat ++ "x" ++ toString format.height.toNat ++
        " (" ++ format.pixFmt.ffmpegName ++ ")"

end EncoderTarget

/-- How a child ended. -/
structure ExitStatus where
  success : Bool
  text : String

structure EncoderState where
  current : EncoderTarget
  /-- Whether the child's stdin is open. -/
  stdin : Bool
  /-- The position of its stdout reader among all readers. -/
  generation : Nat

/-! ## What travels -/

/-- A segment with the generation of the encoder that wrote it. -/
structure Emission where
  generation : Nat
  segment : EncodedSegment
  deriving DecidableEq, Repr

/-- When a frame was captured: its size, and how many sizes had been announced
by then. -/
structure Origin where
  size : Size
  announcement : Nat
  deriving DecidableEq, Repr

/-- A raw frame; one fed from outside has no origin. -/
structure QueuedFrame where
  bytes : List Byte
  origin : Option Origin
  deriving DecidableEq, Repr

/-! ## The stdout readers -/

def outputQueueCapacity : Nat := 8

/-- The size of a read. -/
def stdoutChunk : Nat := 64 * 1024

inductive StdoutControl : Type
  | reading
  /-- In the loop over what a chunk yielded. -/
  | pushing (segments : List EncodedSegment)
  /-- In the loop over what the end yielded. -/
  | flushing (segments : List EncodedSegment)
  | finished
  deriving DecidableEq, Repr

structure StdoutReader where
  segmenter : Mp4Segmenter
  control : StdoutControl
  deriving DecidableEq, Repr

namespace StdoutReader

def new : StdoutReader := ⟨.new, .reading⟩

/-- A reader whose thread could not be spawned. -/
def absent : StdoutReader := ⟨.new, .finished⟩

def Finished (r : StdoutReader) : Prop := r.control = .finished

instance (r : StdoutReader) : Decidable r.Finished :=
  inferInstanceAs (Decidable (r.control = .finished))

/-- One read of the encoder's stdout. -/
def read (r : StdoutReader) : Except IoError (List Byte) → StdoutReader
  | .ok [] => { r with control := .flushing r.segmenter.finish }
  | .ok chunk => ⟨(r.segmenter.feed chunk).2, .pushing (r.segmenter.feed chunk).1⟩
  | .error error => if error.kind = .interrupted then r else { r with control := .finished }

/-- The segment to be pushed next, and the reader behind that push. -/
def pop (r : StdoutReader) : Option (EncodedSegment × StdoutReader) :=
  match r.control with
  | .pushing (segment :: segments) => some (segment, { r with control := .pushing segments })
  | .flushing (segment :: segments) => some (segment, { r with control := .flushing segments })
  | _ => none

/-- Nothing is left to push. -/
def drained (r : StdoutReader) : Option StdoutReader :=
  match r.control with
  | .pushing [] => some { r with control := .reading }
  | .flushing [] => some { r with control := .finished }
  | _ => none

end StdoutReader

/-! ## The controller -/

inductive PipelineInput : Type
  | frames (initialResolution : Size) (captureThread : Bool)
  | portal
  deriving DecidableEq, Repr

/-- Where the controller stands. -/
inductive ControllerControl : Type
  /-- Running the portal dance. -/
  | preparing
  /-- About to spawn the first encoder. -/
  | spawning (target : EncoderTarget)
  /-- The head of the loop. -/
  | head
  /-- About to look at the status channel. -/
  | polling
  /-- About to read the slot, with the portal's candidate. -/
  | reading (next : Option EncoderTarget)
  /-- Restarting: stdin is closed, waiting for the old encoder. -/
  | waiting (target : EncoderTarget)
  /-- Joining the old readers. -/
  | joining (target : EncoderTarget) (handles : List Nat)
  /-- About to clear the output queue. -/
  | emptying (target : EncoderTarget)
  /-- About to spawn the next encoder. -/
  | respawning (target : EncoderTarget)
  /-- About to clear the slot. -/
  | clearing (target : EncoderTarget)
  /-- About to look whether the encoder has exited. -/
  | probing
  /-- About to take a frame. -/
  | popping
  | feeding (frame : QueuedFrame)
  /-- About to fail, unless a teardown was requested. -/
  | complaining (message : String)
  /-- About to fail. -/
  | failing (message : String)
  /-- Out of the loop. -/
  | leaving
  /-- About to report a failure to start. -/
  | refusing (message : String)
  | finished

/-- The controller with the encoder it owns. -/
structure Controller where
  control : ControllerControl
  /-- `portal_state` is set. -/
  portal : Bool
  encoder : Option EncoderState
  /-- How many sizes had been announced at the last read of the slot. -/
  seen : Nat

namespace Controller

def new : PipelineInput → Controller
  | .frames initialResolution _ => ⟨.spawning (.x11 initialResolution), false, none, 0⟩
  | .portal => ⟨.preparing, false, none, 0⟩

def goto (c : Controller) (control : ControllerControl) : Controller :=
  { c with control := control }

def current (c : Controller) : Option EncoderTarget := c.encoder.map (·.current)

/-- The candidate of a turn: a requested size, or else the portal's format. -/
def candidate (next : Option EncoderTarget) (requested : Option Size) : Option EncoderTarget :=
  match requested with
  | some size => some (.x11 size)
  | none => next

/-- The turn after the slot was read. -/
def afterRead (c : Controller) (next : Option EncoderTarget) (requested : Option Size)
    (announcements : Nat) : Controller :=
  { c with
    control :=
      match candidate next requested with
      | some target => if c.current ≠ some target then .waiting target else .clearing target
      | none => .probing
    encoder :=
      match candidate next requested with
      | some target =>
          if c.current ≠ some target then c.encoder.map fun e => { e with stdin := false }
          else c.encoder
      | none => c.encoder
    seen := announcements }

end Controller

/-! ## The forwarder -/

/-- The capacity of the media server's stream channel. -/
def serverChannelCapacity : Nat := 8

structure ServerChannel where
  buffer : List (List Byte)
  /-- Somebody still receives. -/
  isOpen : Bool
  /-- Everything a `try_send` accepted. -/
  accepted : List (List Byte)
  hBuffer : buffer.length ≤ serverChannelCapacity

namespace ServerChannel

def new : ServerChannel := ⟨[], true, [], Nat.zero_le _⟩

/-- A `try_send` that finds room. -/
def accept (ch : ServerChannel) (bytes : List Byte)
    (hRoom : ch.buffer.length < serverChannelCapacity) : ServerChannel :=
  { ch with
    buffer := ch.buffer ++ [bytes]
    accepted := ch.accepted ++ [bytes]
    hBuffer := by rw [List.length_append]; exact hRoom }

/-- The consumer takes a segment. -/
def drain (ch : ServerChannel) : ServerChannel :=
  { ch with
    buffer := ch.buffer.tail
    hBuffer := by
      have hBuffer := ch.hBuffer
      rw [List.length_tail]
      omega }

def close (ch : ServerChannel) : ServerChannel := { ch with isOpen := false }

end ServerChannel

inductive ForwarderControl : Type
  /-- The head of the loop. -/
  | head
  | popping
  /-- About to send what was popped. -/
  | sending (emission : Emission)
  /-- The channel had no room for an initialization. -/
  | waiting (emission : Emission)
  | finished
  deriving DecidableEq, Repr

/-! ## The pipeline -/

structure Pipeline where
  frames : BoundedDropOldest QueuedFrame
  output : BoundedDropOldest Emission
  stop : Bool
  failed : Bool
  resolutionRequest : Option Size
  /-- The readers of all generations, oldest first. -/
  readers : List StdoutReader
  readerHandles : List Nat
  lastError : Option String
  events : List String
  dropped : Nat
  channel : ServerChannel
  shuttingDown : Bool
  /-- What the portal's capture thread has reported. -/
  status : List (Except String PwFormat)
  capture : CaptureThread
  controller : Controller
  forwarder : ForwarderControl
  /-- The sizes the capture thread has announced. -/
  announced : List Size

/-- The capacity of the frame queue. -/
def frameQueueCapacity : Nat := 2

namespace Pipeline

/-- What `start_pipeline` starts. -/
def new (input : PipelineInput) (shuttingDown : Bool) : Pipeline where
  frames := .new frameQueueCapacity (by decide)
  output := .new outputQueueCapacity (by decide)
  stop := false
  failed := false
  resolutionRequest := none
  readers := []
  readerHandles := []
  lastError := none
  events := []
  dropped := 0
  channel := .new
  shuttingDown := shuttingDown
  status := []
  capture := match input with
    | .frames _ true => .new
    | _ => .absent
  controller := .new input
  forwarder := .head
  announced := []

/-- A thread of the pipeline is to leave its loop. -/
def TeardownRequested (p : Pipeline) : Prop := p.stop = true ∨ p.shuttingDown = true

instance (p : Pipeline) : Decidable p.TeardownRequested :=
  inferInstanceAs (Decidable (_ ∨ _))

/-- `report_once`: the first failure is kept and sent; any stops the
pipeline. -/
def report (p : Pipeline) (message : String) : Pipeline :=
  { p with
    failed := true
    lastError := if p.failed then p.lastError else some message
    events := if p.failed then p.events else p.events ++ [message]
    stop := true }

/-- The frame a capture yielded, as it is queued. -/
def queued (p : Pipeline) (frame : Frame) : QueuedFrame :=
  ⟨frame.bytes, some ⟨frame.size, p.announced.length⟩⟩

/-- Whether the queue may evict it: `push_segment` protects
initializations. -/
def evictable (emission : Emission) : Bool := emission.segment.isFragment

def setReader (p : Pipeline) (g : Nat) (r : StdoutReader) : Pipeline :=
  { p with readers := p.readers.set g r }

/-- The reader of generation `g` has ended. -/
def ReaderFinished (p : Pipeline) (g : Nat) : Prop := ∀ r, p.readers[g]? = some r → r.Finished

instance (p : Pipeline) (g : Nat) : Decidable (p.ReaderFinished g) :=
  match h : p.readers[g]? with
  | none => .isTrue fun r hr => by rw [h] at hr; cases hr
  | some r =>
      decidable_of_iff r.Finished
        ⟨fun hr r' hr' => by rw [h] at hr'; cases hr'; exact hr, fun hr => hr r h⟩

def goto (p : Pipeline) (control : ControllerControl) : Pipeline :=
  { p with controller := p.controller.goto control }

/-- `EncoderState::spawn` once the child is there, with its reader thread or
without.  Registering a reader forgets those that have finished. -/
def spawn (p : Pipeline) (target : EncoderTarget) (reader : Bool) : Pipeline :=
  { p with
    readers := p.readers ++ [if reader then .new else .absent]
    readerHandles :=
      if reader then
        (p.readerHandles.filter fun g => decide ¬ p.ReaderFinished g) ++ [p.readers.length]
      else
        p.readerHandles
    controller :=
      { p.controller with encoder := some ⟨target, true, p.readers.length⟩ } }

end Pipeline

/-! ## Steps -/

/-- A step, as far as it is spoken of. -/
inductive Label : Type
  /-- The capture thread, other than below. -/
  | capture
  | announce (size : Size)
  /-- The controller, other than below. -/
  | controller
  | readSlot (requested : Option Size)
  | clearSlot (target : EncoderTarget)
  | clearOutput
  | popFrame (frame : QueuedFrame)
  /-- A frame is written to the encoder's stdin. -/
  | feed (frame : QueuedFrame)
  /-- The stdout reader of a generation, other than below. -/
  | reader (generation : Nat)
  | emit (emission : Emission)
  /-- The forwarder, other than below. -/
  | forwarder
  | deliver (emission : Emission)
  /-- The forwarder leaves with a segment in hand, told to stop. -/
  | giveUp (emission : Emission)
  /-- The forwarder leaves with a segment in hand that nobody receives. -/
  | unreceived (emission : Emission)
  /-- `request_resolution`. -/
  | request (size : Size)
  /-- A frame from outside the capture thread. -/
  | pushFrame (bytes : List Byte)
  /-- The rest of the surroundings. -/
  | outside

/-- A step of the capture thread. -/
inductive CaptureStep (p : Pipeline) : Label → Pipeline → Prop
  | opened (hControl : p.capture.control = .opening) (result : Except String Unit) :
      CaptureStep p .capture { p with capture := p.capture.opened result }
  | enter (hControl : p.capture.control = .head) (hGo : ¬ p.TeardownRequested) :
      CaptureStep p .capture { p with capture := { p.capture with control := .capturing } }
  | leave (hControl : p.capture.control = .head) (hStop : p.TeardownRequested) :
      CaptureStep p .capture { p with capture := p.capture.ended }
  | captured (hControl : p.capture.control = .capturing) (result : Except String Frame) :
      CaptureStep p .capture { p with capture := p.capture.captured result }
  | announce {frame : Frame} (hControl : p.capture.control = .announcing frame) :
      CaptureStep p (.announce frame.size)
        { p with
          resolutionRequest := some frame.size
          capture := p.capture.announced frame
          announced := p.announced ++ [frame.size] }
  | push {frame : Frame} (hControl : p.capture.control = .pushing frame) :
      CaptureStep p .capture
        { p with
          frames := p.frames.push (p.queued frame)
          capture := p.capture.pushed }
  | count (hControl : p.capture.control = .counting) :
      CaptureStep p .capture { p with capture := p.capture.counted }
  | reacquire (hControl : p.capture.control = .reacquiring) (result : Except String Unit) :
      CaptureStep p .capture { p with capture := p.capture.reacquired result }
  | report {message : String} (hControl : p.capture.control = .reporting message) :
      CaptureStep p .capture { p.report message with capture := p.capture.ended }

/-- What `try_exit` finds. -/
def exitMessage (status : ExitStatus) (tail : String) : String :=
  if status.success then "ffmpeg stopped unexpectedly (exit 0); stderr:\n" ++ tail
  else "ffmpeg exited unexpectedly with " ++ status.text ++ "; stderr:\n" ++ tail

def stdinClosed : String := "ffmpeg stdin closed unexpectedly"

/-- A step of the controller. -/
inductive ControllerStep (p : Pipeline) : Label → Pipeline → Prop
  | prepared (hControl : p.controller.control = .preparing) (format : PwFormat) :
      ControllerStep p .controller
        { p with
          controller := { p.controller with control := .spawning (.portal format), portal := true } }
  | unprepared (hControl : p.controller.control = .preparing) (error : String) :
      ControllerStep p .controller (p.goto (.refusing ("portal capture failed: " ++ error)))
  | spawned {target : EncoderTarget} (hControl : p.controller.control = .spawning target)
      (reader : Bool) :
      ControllerStep p .controller ((p.spawn target reader).goto .head)
  | unspawned {target : EncoderTarget} (hControl : p.controller.control = .spawning target)
      (error : String) :
      ControllerStep p .controller (p.goto (.refusing ("failed to start ffmpeg: " ++ error)))
  | refuse {message : String} (hControl : p.controller.control = .refusing message) :
      ControllerStep p .controller ((p.report message).goto .finished)
  | enter (hControl : p.controller.control = .head) (hGo : ¬ p.TeardownRequested) :
      ControllerStep p .controller (p.goto .polling)
  | leave (hControl : p.controller.control = .head) (hStop : p.TeardownRequested) :
      ControllerStep p .controller (p.goto .leaving)
  | noStatus (hControl : p.controller.control = .polling)
      (hNone : p.controller.portal = false ∨ p.status = []) :
      ControllerStep p .controller (p.goto (.reading none))
  | format {format : PwFormat} {rest : List (Except String PwFormat)}
      (hControl : p.controller.control = .polling) (hPortal : p.controller.portal = true)
      (hStatus : p.status = .ok format :: rest) :
      ControllerStep p .controller
        ({ p with status := rest }.goto (.reading (some (.portal format))))
  | streamFailed {error : String} {rest : List (Except String PwFormat)}
      (hControl : p.controller.control = .polling) (hPortal : p.controller.portal = true)
      (hStatus : p.status = .error error :: rest) :
      ControllerStep p .controller
        ({ p with status := rest }.goto (.complaining ("pipewire capture failed: " ++ error)))
  | readSlot {next : Option EncoderTarget} (hControl : p.controller.control = .reading next) :
      ControllerStep p (.readSlot p.resolutionRequest)
        { p with
          controller := p.controller.afterRead next p.resolutionRequest p.announced.length }
  | waited {target : EncoderTarget} (hControl : p.controller.control = .waiting target) :
      ControllerStep p .controller
        ({ p with readerHandles := [] }.goto (.joining target p.readerHandles))
  | join {target : EncoderTarget} {g : Nat} {handles : List Nat}
      (hControl : p.controller.control = .joining target (g :: handles))
      (hFinished : p.ReaderFinished g) :
      ControllerStep p .controller (p.goto (.joining target handles))
  | joined {target : EncoderTarget} (hControl : p.controller.control = .joining target []) :
      ControllerStep p .controller (p.goto (.emptying target))
  | clearOutput {target : EncoderTarget} (hControl : p.controller.control = .emptying target) :
      ControllerStep p .clearOutput ({ p with output := p.output.clear }.goto (.respawning target))
  | respawned {target : EncoderTarget} (hControl : p.controller.control = .respawning target)
      (reader : Bool) :
      ControllerStep p .controller ((p.spawn target reader).goto (.clearing target))
  | unrespawned {target : EncoderTarget} (hControl : p.controller.control = .respawning target)
      (error : String) :
      ControllerStep p .controller
        (p.goto (.failing ("failed to restart ffmpeg at " ++ target.describe ++ ": " ++ error)))
  | clearSlot {target : EncoderTarget} (hControl : p.controller.control = .clearing target) :
      ControllerStep p (.clearSlot target) ({ p with resolutionRequest := none }.goto .head)
  | running (hControl : p.controller.control = .probing) :
      ControllerStep p .controller (p.goto .popping)
  | exited (hControl : p.controller.control = .probing) (status : ExitStatus) (tail : String) :
      ControllerStep p .controller (p.goto (.complaining (exitMessage status tail)))
  | unprobed (hControl : p.controller.control = .probing) (error : String) :
      ControllerStep p .controller (p.goto (.complaining ("polling ffmpeg failed: " ++ error)))
  | noFrame (hControl : p.controller.control = .popping) (hEmpty : p.frames.items = []) :
      ControllerStep p .controller (p.goto .head)
  | popFrame {frame : QueuedFrame} {frames : BoundedDropOldest QueuedFrame}
      (hControl : p.controller.control = .popping) (hPop : p.frames.tryPop = (some frame, frames)) :
      ControllerStep p (.popFrame frame) ({ p with frames := frames }.goto (.feeding frame))
  | fed {frame : QueuedFrame} {encoder : EncoderState}
      (hControl : p.controller.control = .feeding frame)
      (hEncoder : p.controller.encoder = some encoder) (hStdin : encoder.stdin = true) :
      ControllerStep p (.feed frame) (p.goto .head)
  | unfed {frame : QueuedFrame} {encoder : EncoderState}
      (hControl : p.controller.control = .feeding frame)
      (hEncoder : p.controller.encoder = some encoder) (error : String)
      (hError : encoder.stdin = false → error = stdinClosed) :
      ControllerStep p (.feed frame)
        (p.goto (.complaining ("writing to ffmpeg stdin failed: " ++ error)))
  | silence {message : String} (hControl : p.controller.control = .complaining message)
      (hStop : p.TeardownRequested) :
      ControllerStep p .controller (p.goto .leaving)
  | complain {message : String} (hControl : p.controller.control = .complaining message)
      (hGo : ¬ p.TeardownRequested) :
      ControllerStep p .controller (p.goto (.failing message))
  | fail {message : String} (hControl : p.controller.control = .failing message) :
      ControllerStep p .controller ((p.report message).goto .leaving)
  | teardown (hControl : p.controller.control = .leaving) :
      ControllerStep p .controller
        { p with
          controller :=
            { p.controller with
              control := .finished
              portal := false
              encoder := p.controller.encoder.map fun e => { e with stdin := false } } }

/-- A step of the stdout reader of generation `g`. -/
inductive ReaderStep (p : Pipeline) (g : Nat) : Label → Pipeline → Prop
  | read {r : StdoutReader} (hReader : p.readers[g]? = some r) (hControl : r.control = .reading)
      (result : Except IoError (List Byte))
      (hFits : ∀ chunk, result = .ok chunk → chunk.length ≤ stdoutChunk) :
      ReaderStep p g (.reader g) (p.setReader g (r.read result))
  | push {r r' : StdoutReader} {segment : EncodedSegment} (hReader : p.readers[g]? = some r)
      (hPop : r.pop = some (segment, r')) :
      ReaderStep p g (.emit ⟨g, segment⟩)
        { p.setReader g r' with output := (p.output.pushOr ⟨g, segment⟩ Pipeline.evictable).2 }
  | drained {r r' : StdoutReader} (hReader : p.readers[g]? = some r)
      (hDrained : r.drained = some r') :
      ReaderStep p g (.reader g) (p.setReader g r')

/-- A step of the forwarder. -/
inductive ForwarderStep (p : Pipeline) : Label → Pipeline → Prop
  | enter (hControl : p.forwarder = .head) (hGo : p.stop = false) :
      ForwarderStep p .forwarder { p with forwarder := .popping }
  | leave (hControl : p.forwarder = .head) (hStop : p.stop = true) :
      ForwarderStep p .forwarder { p with forwarder := .finished }
  | noSegment (hControl : p.forwarder = .popping) (hEmpty : p.output.items = []) :
      ForwarderStep p .forwarder { p with forwarder := .head }
  | pop {emission : Emission} {output : BoundedDropOldest Emission}
      (hControl : p.forwarder = .popping) (hPop : p.output.tryPop = (some emission, output)) :
      ForwarderStep p .forwarder { p with output := output, forwarder := .sending emission }
  | deliver {emission : Emission} (hControl : p.forwarder = .sending emission)
      (hOpen : p.channel.isOpen = true) (hRoom : p.channel.buffer.length < serverChannelCapacity) :
      ForwarderStep p (.deliver emission)
        { p with
          channel := p.channel.accept emission.segment.bytes hRoom
          forwarder := .head }
  | drop {emission : Emission} (hControl : p.forwarder = .sending emission)
      (hOpen : p.channel.isOpen = true) (hFull : p.channel.buffer.length = serverChannelCapacity)
      (hFragment : emission.segment.isFragment = true) :
      ForwarderStep p .forwarder { p with dropped := p.dropped + 1, forwarder := .head }
  | hold {emission : Emission} (hControl : p.forwarder = .sending emission)
      (hOpen : p.channel.isOpen = true) (hFull : p.channel.buffer.length = serverChannelCapacity)
      (hInit : emission.segment.isFragment = false) :
      ForwarderStep p .forwarder { p with forwarder := .waiting emission }
  | retry {emission : Emission} (hControl : p.forwarder = .waiting emission)
      (hGo : p.stop = false) :
      ForwarderStep p .forwarder { p with forwarder := .sending emission }
  | giveUp {emission : Emission} (hControl : p.forwarder = .waiting emission)
      (hStop : p.stop = true) :
      ForwarderStep p (.giveUp emission) { p with forwarder := .finished }
  | unreceived {emission : Emission} (hControl : p.forwarder = .sending emission)
      (hClosed : p.channel.isOpen = false) :
      ForwarderStep p (.unreceived emission) { p with stop := true, forwarder := .finished }

/-- What happens around the pipeline. -/
inductive OutsideStep (p : Pipeline) : Label → Pipeline → Prop
  | request (size : Size) :
      OutsideStep p (.request size) { p with resolutionRequest := some size }
  | pushFrame (bytes : List Byte) :
      OutsideStep p (.pushFrame bytes) { p with frames := p.frames.push ⟨bytes, none⟩ }
  | stop : OutsideStep p .outside { p with stop := true }
  | shutdown : OutsideStep p .outside { p with shuttingDown := true }
  | status (report : Except String PwFormat) :
      OutsideStep p .outside { p with status := p.status ++ [report] }
  | drain : OutsideStep p .outside { p with channel := p.channel.drain }
  | close : OutsideStep p .outside { p with channel := p.channel.close }

inductive Step (p : Pipeline) (l : Label) (p' : Pipeline) : Prop
  | capture (h : CaptureStep p l p')
  | controller (h : ControllerStep p l p')
  | reader (g : Nat) (h : ReaderStep p g l p')
  | forwarder (h : ForwarderStep p l p')
  | outside (h : OutsideStep p l p')

/-- The pipeline on an input. -/
def bridge (input : PipelineInput) : System Pipeline Label where
  init p := ∃ shuttingDown, p = .new input shuttingDown
  step := Step

abbrev PipelineMove : Type := Move Pipeline Label

end CastApp.Screen.Bridge
