import CastApp.Media.Flush
import CastApp.Media.MediaServer
import CastApp.Util.Shutdown
import CastApp.Verified.Transition

/-!
# Connections of the media server

The media-server task and the connections it has accepted.  Each connection
is handled by a task of its own, which gets the source and a receiver of the
generation as they were when it was accepted, and shares the slot of the live
stream with the server and all other connections.

A handler reaches the slot twice: it takes the stream once the request head
is read, and puts it back once the encoder has ended.  In between it watches
the generation, before and after it does not.
-/

namespace CastApp.Media.Connections

open CastApp.Media.Flush
open CastApp.Media.MediaServer
open CastApp.State
open CastApp.Util
open CastApp.Verified.Transition
open CastApp.Verified.WatchChannel

/-! ## Requests and answers -/

structure HttpRequest where
  method : String
  target : String
  /-- Names lowercased, values trimmed. -/
  headers : List (String × String)
  deriving DecidableEq, Repr

/-- What reading the request head came to. -/
inductive HeadRead : Type
  | request (request : HttpRequest)
  /-- `UnexpectedEof`. -/
  | closed
  | failed
  /-- `REQUEST_HEAD_TIMEOUT` is over. -/
  | slow
  deriving DecidableEq, Repr

structure Response where
  status : Nat
  reason : String
  headers : List (String × String)
  body : String
  deriving DecidableEq, Repr

def badRequest : Response := ⟨400, "Bad Request", [], ""⟩

def methodNotAllowed : Response := ⟨405, "Method Not Allowed", [("Allow", "GET, HEAD")], ""⟩

def notFound : Response := ⟨404, "Not Found", [], ""⟩

def busy : Response :=
  ⟨503, "Service Unavailable", [("Content-Type", "text/plain"), ("Content-Length", "4")], "busy"⟩

/-- The head of a live stream. -/
def liveHead : Response := ⟨200, "OK", [("Content-Type", "video/mp4")], ""⟩

def liveFlushBytes : Nat := 64 * 1024

def liveFlushInterval : Duration := 50

/-! ## Handlers -/

inductive ScreenEnd : Type
  | channelClosed
  | aborted
  deriving DecidableEq, Repr

/-- Where a handler is in `handle_connection` and `serve_live_screen`. -/
inductive HandlerControl : Type
  | readingHead
  | responding (response : Response)
  | servingFile (path : String) (range : Option String) (headOnly : Bool)
  | servingUrl (url : String) (range : Option String) (headOnly : Bool)
  | taking
  | sendingHead (stream : ScreenStream) (response : Response)
  /-- At the `select!` of the body loop. -/
  | streaming (stream : ScreenStream) (flush : FlushTracker)
  | writing (stream : ScreenStream) (flush : FlushTracker) (chunk : List Byte)
  | flushing (stream : ScreenStream) (flush : FlushTracker)
  | flushingIdle (stream : ScreenStream) (flush : FlushTracker)
  | flushingTail (stream : ScreenStream)
  | ended (reason : ScreenEnd) (stream : ScreenStream)
  | done
  deriving DecidableEq, Repr

namespace HandlerControl

/-- The live stream a handler has in hand. -/
def held : HandlerControl → Option ScreenStream
  | .sendingHead stream _ | .streaming stream _ | .writing stream _ _ | .flushing stream _
  | .flushingIdle stream _ | .flushingTail stream | .ended _ stream => some stream
  | _ => none

/-- The live stream for which a handler waits on its writer. -/
def writesFor : HandlerControl → Option ScreenStream
  | .sendingHead stream _ | .writing stream _ _ | .flushing stream _
  | .flushingIdle stream _ | .flushingTail stream => some stream
  | _ => none

/-- A file or a URL is being served. -/
def Serving : HandlerControl → Prop
  | .servingFile .. | .servingUrl .. => True
  | _ => False

theorem held_of_writesFor {control : HandlerControl} {stream : ScreenStream}
    (h : control.writesFor = some stream) : control.held = some stream := by
  cases control <;> first | exact h | cases h

theorem held_of_serving {control : HandlerControl} (h : control.Serving) :
    control.held = none := by
  cases control with
  | servingFile | servingUrl => rfl
  | readingHead | responding | taking | done | sendingHead | streaming | writing | flushing
  | flushingIdle | flushingTail | ended => exact absurd h id

end HandlerControl

structure Handler where
  control : HandlerControl
  source : Option ActiveSource
  generationRx : Receiver
  shutdownRx : Receiver
  deriving DecidableEq, Repr

namespace Handler

def goto (handler : Handler) (control : HandlerControl) : Handler :=
  { handler with control := control }

/-- What becomes of a connection whose request head is read. -/
def dispatch (source : Option ActiveSource) : HeadRead → HandlerControl
  | .closed | .slow => .done
  | .failed => .responding badRequest
  | .request request =>
      let headOnly := decide (request.method = "HEAD")
      let range := request.headers.lookup "range"
      if request.method ≠ "GET" ∧ request.method ≠ "HEAD" then .responding methodNotAllowed
      else if request.target ≠ "/stream" then .responding notFound
      else
        match source with
        | none => .responding notFound
        | some (.file path) => .servingFile path range headOnly
        | some (.url url) => .servingUrl url range headOnly
        | some (.screen _) => .taking

/-- What becomes of a connection that found this in the slot. -/
def taken : Option ScreenStream → HandlerControl
  | some stream => .sendingHead stream liveHead
  | none => .responding busy

/-- A chunk is written: it is counted, and flushed if due. -/
def written (stream : ScreenStream) (flush : FlushTracker) (chunk : List Byte)
    (now restarted : Instant) : HandlerControl :=
  match flush.shouldFlush chunk.length now restarted with
  | (true, flush) => .flushing stream flush
  | (false, flush) => .streaming stream flush

/-- No chunk came before the deadline. -/
def idled (stream : ScreenStream) (flush : FlushTracker) (now : Instant) : HandlerControl :=
  if flush.hasPending then .flushingIdle stream flush else .streaming stream (flush.reset now)

theorem held_dispatch (source : Option ActiveSource) (read : HeadRead) :
    (dispatch source read).held = none := by
  cases read with
  | closed | slow | failed => rfl
  | request request =>
      unfold dispatch
      dsimp only
      by_cases hMethod : request.method ≠ "GET" ∧ request.method ≠ "HEAD"
      · rw [if_pos hMethod]
        rfl
      · rw [if_neg hMethod]
        by_cases hTarget : request.target ≠ "/stream"
        · rw [if_pos hTarget]
          rfl
        · rw [if_neg hTarget]
          match source with
          | none | some (.file _) | some (.url _) | some (.screen _) => rfl

theorem held_taken (found : Option ScreenStream) : (taken found).held = found := by
  cases found with
  | none => rfl
  | some stream => rfl

theorem held_written (stream : ScreenStream) (flush : FlushTracker) (chunk : List Byte)
    (now restarted : Instant) : (written stream flush chunk now restarted).held = some stream := by
  unfold written
  split <;> rfl

theorem held_idled (stream : ScreenStream) (flush : FlushTracker) (now : Instant) :
    (idled stream flush now).held = some stream := by
  unfold idled
  split <;> rfl

end Handler

/-! ## The server -/

/-- Where the task is in its loop.  It is `bumping` between what a command
makes of the slot and the new generation. -/
inductive LoopControl : Type
  | head
  | bumping
  | stopped
  deriving DecidableEq, Repr

structure Server where
  control : LoopControl
  task : ServerState
  /-- How often the generation was sent. -/
  version : Nat
  shutdown : Shutdown
  /-- The handlers of all connections, in the order they were accepted. -/
  handlers : List Handler
  /-- The live streams whose encoder is gone and of which no chunk is left. -/
  exhausted : List ScreenStream

namespace Server

def start (task : ServerState) (shutdown : Shutdown) : Server :=
  ⟨.head, task, 0, shutdown, [], []⟩

/-- The channel of the generation. -/
def generationTx (s : Server) : Watch UInt64 := ⟨s.task.generation, s.version⟩

/-- `SetSource`, up to the new generation. -/
def sourceSet (s : Server) (source : ActiveSource) : Server :=
  { s with
    control := .bumping
    task := { s.task with current := some source, liveRx := none } }

/-- The stream that the next `AttachScreenStream` brings.  A stream is named
by the generation its attach leads to. -/
def nextStream (s : Server) : ScreenStream := ⟨s.version + 1⟩

/-- `AttachScreenStream`, up to the new generation. -/
def streamAttached (s : Server) : Server :=
  { s with control := .bumping, task := { s.task with liveRx := some s.nextStream } }

/-- The new generation. -/
def bumped (s : Server) : Server :=
  { s with
    control := .head
    task := { s.task with generation := s.task.generation + 1 }
    version := s.version + 1 }

/-- A connection is accepted and its handler spawned. -/
def accepted (s : Server) : Server :=
  { s with
    handlers := s.handlers ++
      [⟨.readingHead, s.task.current, s.generationTx.subscribe, s.shutdown.subscribe⟩] }

/-- The task returns, and drops its listener. -/
def stopped (s : Server) : Server :=
  { s with control := .stopped, task := { s.task with listener := none } }

def setSlot (s : Server) (slot : Option ScreenStream) : Server :=
  { s with task := { s.task with liveRx := slot } }

/-- Handler `h` goes on at `control`. -/
def setHandler (s : Server) (h : Nat) (control : HandlerControl) : Server :=
  { s with handlers := s.handlers.modify h (·.goto control) }

/-- The two steps of a `SetSource`, with nothing between them. -/
theorem bumped_sourceSet (s : Server) (source : ActiveSource) :
    (s.sourceSet source).bumped.task = s.task.setSource source := rfl

theorem bumped_streamAttached (s : Server) :
    s.streamAttached.bumped.task = s.task.attachScreenStream s.nextStream := rfl

end Server

/-! ## Steps -/

/-- What a handler does, as far as it is spoken of. -/
inductive HandlerEvent : Type
  | readHead (read : HeadRead)
  | respond (response : Response)
  /-- A file or URL response has ended, by itself or aborted. -/
  | served
  /-- The slot is emptied, with what was found in it. -/
  | take (found : Option ScreenStream)
  /-- A step of the body loop. -/
  | stream
  /-- The stream in hand is dropped. -/
  | abandon (stream : ScreenStream)
  | putBack (stream : ScreenStream)
  deriving DecidableEq, Repr

inductive Label : Type
  | setSource (source : ActiveSource)
  | attachScreenStream (stream : ScreenStream)
  | bump
  | rebind (command : ServerCommand)
  | accept
  | stop
  | handler (h : Nat) (event : HandlerEvent)
  | outside
  deriving DecidableEq, Repr

/-- A command that is about the listener. -/
def Rebinds : ServerCommand → Prop
  | .setPort _ | .setBindAddr _ => True
  | _ => False

/-- `changed` of the generation or of the shutdown token completes: something
was sent, or the senders are gone with the task. -/
def Handler.Aborts (s : Server) (handler : Handler) : Prop :=
  handler.generationRx.Ready s.generationTx ∨ handler.shutdownRx.Ready s.shutdown ∨
    s.control = .stopped

instance (s : Server) (handler : Handler) : Decidable (handler.Aborts s) :=
  inferInstanceAs (Decidable (_ ∨ _ ∨ _))

/-- A step of a handler that leaves the slot alone, and where it leads. -/
inductive HandlerStep (s : Server) (handler : Handler) : HandlerEvent → HandlerControl → Prop
  | readHead (hControl : handler.control = .readingHead) (read : HeadRead) :
      HandlerStep s handler (.readHead read) (Handler.dispatch handler.source read)
  | respond {response : Response} (hControl : handler.control = .responding response) :
      HandlerStep s handler (.respond response) .done
  | served (hControl : handler.control.Serving) : HandlerStep s handler .served .done
  | headSent {stream : ScreenStream} {response : Response}
      (hControl : handler.control = .sendingHead stream response) (now : Instant) :
      HandlerStep s handler .stream
        (.streaming stream (.new liveFlushBytes liveFlushInterval now))
  | abort {stream : ScreenStream} {flush : FlushTracker}
      (hControl : handler.control = .streaming stream flush) (hAborts : handler.Aborts s) :
      HandlerStep s handler .stream (.ended .aborted stream)
  | idled {stream : ScreenStream} {flush : FlushTracker}
      (hControl : handler.control = .streaming stream flush) (now : Instant)
      (hDue : flush.nextDeadline ≤ now) :
      HandlerStep s handler .stream (Handler.idled stream flush now)
  | chunk {stream : ScreenStream} {flush : FlushTracker}
      (hControl : handler.control = .streaming stream flush) (chunk : List Byte)
      (hLeft : stream ∉ s.exhausted) :
      HandlerStep s handler .stream (.writing stream flush chunk)
  | closed {stream : ScreenStream} {flush : FlushTracker}
      (hControl : handler.control = .streaming stream flush) (hExhausted : stream ∈ s.exhausted) :
      HandlerStep s handler .stream (.flushingTail stream)
  | written {stream : ScreenStream} {flush : FlushTracker} {chunk : List Byte}
      (hControl : handler.control = .writing stream flush chunk) (now restarted : Instant) :
      HandlerStep s handler .stream (Handler.written stream flush chunk now restarted)
  | flushed {stream : ScreenStream} {flush : FlushTracker}
      (hControl : handler.control = .flushing stream flush) :
      HandlerStep s handler .stream (.streaming stream flush)
  | flushedIdle {stream : ScreenStream} {flush : FlushTracker}
      (hControl : handler.control = .flushingIdle stream flush) (now : Instant) :
      HandlerStep s handler .stream (.streaming stream (flush.reset now))
  | flushedTail {stream : ScreenStream} (hControl : handler.control = .flushingTail stream) :
      HandlerStep s handler .stream (.ended .channelClosed stream)
  | failed {stream : ScreenStream} (hControl : handler.control.writesFor = some stream) :
      HandlerStep s handler (.abandon stream) .done
  | dropped {stream : ScreenStream} (hControl : handler.control = .ended .aborted stream) :
      HandlerStep s handler (.abandon stream) .done

inductive ServerStep (s : Server) : Label → Server → Prop
  | setSource (hControl : s.control = .head) (source : ActiveSource) :
      ServerStep s (.setSource source) (s.sourceSet source)
  | attachScreenStream (hControl : s.control = .head) :
      ServerStep s (.attachScreenStream s.nextStream) s.streamAttached
  | bump (hControl : s.control = .bumping) : ServerStep s .bump s.bumped
  | rebind (hControl : s.control = .head) {command : ServerCommand}
      {ack : Option (Except IoError Unit)} {task : ServerState} (hRebinds : Rebinds command)
      (hProcess : Processes s.task command ack task) :
      ServerStep s (.rebind command) { s with task := task }
  | accept (hControl : s.control = .head) (hListening : s.task.listener.isSome) :
      ServerStep s .accept s.accepted
  /-- On `Shutdown`, on the token, or when nobody can send a command. -/
  | stop (hControl : s.control = .head) : ServerStep s .stop s.stopped
  | handler {h : Nat} {handler : Handler} {event : HandlerEvent} {control : HandlerControl}
      (hHandler : s.handlers[h]? = some handler) (hStep : HandlerStep s handler event control) :
      ServerStep s (.handler h event) (s.setHandler h control)
  | take {h : Nat} {handler : Handler} (hHandler : s.handlers[h]? = some handler)
      (hControl : handler.control = .taking) :
      ServerStep s (.handler h (.take s.task.liveRx))
        ((s.setSlot none).setHandler h (Handler.taken s.task.liveRx))
  | putBack {h : Nat} {handler : Handler} {stream : ScreenStream}
      (hHandler : s.handlers[h]? = some handler)
      (hControl : handler.control = .ended .channelClosed stream) :
      ServerStep s (.handler h (.putBack stream)) ((s.setSlot (some stream)).setHandler h .done)
  | trigger : ServerStep s .outside { s with shutdown := s.shutdown.trigger }
  | exhaust (stream : ScreenStream) :
      ServerStep s .outside { s with exhausted := s.exhausted ++ [stream] }

/-- The media server, started unbound or with a bind. -/
def mediaServer : System Server Label where
  init s := ∃ initialBind result shutdown,
    (∀ bind ∈ initialBind, result.Fits bind.2) ∧
      s = .start (ServerState.started initialBind result) shutdown
  step := ServerStep

abbrev ServerMove : Type := Move Server Label

end CastApp.Media.Connections
