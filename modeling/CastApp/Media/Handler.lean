import CastApp.Media.UrlProxy
import CastApp.Verified.EventLoop

/-!
# The handler of a connection

`handle_connection` as an event loop of its own, over what it awaits.  The
loop is that of the body of a live stream or of a remote URL; every other
response is complete with the prelude.
-/

namespace CastApp.Media.Handler

open CastApp.Media.Connections
open CastApp.Media.Flush
open CastApp.Media.MediaServer
open CastApp.Media.Serving
open CastApp.Media.SmbSource (UrlParser)
open CastApp.Media.UrlProxy (Progress)
open CastApp.State
open CastApp.Util.Utf8
open CastApp.Verified.Coroutine
open CastApp.Verified.EventLoop

inductive State : Type
  /-- In the body loop of `UrlProxy::serve`. -/
  | proxying (flush : FlushTracker)
  /-- In the body loop of `serve_live_screen`. -/
  | streaming (stream : ScreenStream) (flush : FlushTracker)
  | done

/-- A response of the handler itself; nothing comes of a failed write. -/
def answer (response : Response) : Serve (Flow State) := do
  let _ ← ask (.writeHead ⟨response.status, response.reason, response.headers⟩)
  if response.body ≠ "" then
    let _ ← ask (.write (asBytes response.body))
  let _ ← ask .flush
  return .exit .done

/-- A response that is complete; its error is logged. -/
def finish (p : Serve (Except IoError Unit)) : Serve (Flow State) := do
  let _ ← p
  return .exit .done

/-- A proxied response, up to the next `select!`. -/
def proxied (p : Serve (Except IoError Progress)) : Serve (Flow State) := do
  match ← p with
  | .ok (.streaming flush) => return .park (.proxying flush)
  | .ok .complete => return .exit .done
  | .error _ => return .exit .done

/-- A live response, up to the next `select!`; the stream of a failed one is
dropped. -/
def live (stream : ScreenStream) (p : Serve (Except IoError FlushTracker)) :
    Serve (Flow State) := do
  match ← p with
  | .ok flush => return .park (.streaming stream flush)
  | .error _ => return .exit .done

/-- The head of a live stream. -/
def openLive : Serve (Except IoError FlushTracker) :=
  attempt (ask (.writeHead ⟨liveHead.status, liveHead.reason, liveHead.headers⟩)) fun () =>
    attempt (ask .flush) fun () => do
      let now ← ask .now
      return .ok (.new liveFlushBytes liveFlushInterval now)

/-- One turn of the body loop of a live stream. -/
def liveTurn (stream : ScreenStream) (flush : FlushTracker) : BodyEvent → Serve (Flow State)
  | .chunk bytes => live stream (UrlProxy.writeChunk flush bytes)
  | .deadline => live stream (UrlProxy.idle flush)
  | .ended => do
      match ← ask .flush with
      | .ok () => do
          ask (.putBack stream)
          return .exit .done
      | .error _ => return .exit .done
  -- A stale stream must not be recycled; the channel itself does not fail.
  | .aborted | .failed _ => return .exit .done

variable (parseUrl : UrlParser)

/-- The response to a `GET` or a `HEAD` of `/stream`. -/
def serveSource (source : Option ActiveSource) (range : Option String) (headOnly : Bool) :
    Serve (Flow State) :=
  match source with
  | none => answer notFound
  | some (.file path) => finish (LocalFile.serve path range headOnly)
  | some (.url url) =>
      if SmbSource.isSmbUrl url then
        finish (SmbSource.serve parseUrl url range headOnly)
      else
        proxied (UrlProxy.serve parseUrl url range headOnly)
  | some (.screen _) => do
      match ← ask .takeLive with
      | some stream => live stream openLive
      | none => answer busy

/-- The response to a request. -/
def handleRequest (source : Option ActiveSource) (request : HttpRequest) : Serve (Flow State) :=
  if request.method ≠ "GET" ∧ request.method ≠ "HEAD" then
    answer methodNotAllowed
  else if request.target ≠ "/stream" then
    answer notFound
  else
    serveSource parseUrl source (request.headers.lookup "range") (decide (request.method = "HEAD"))

def handleConnection (source : Option ActiveSource) : EventLoop servingSig State BodyEvent where
  prelude := do
    match ← ask .readRequest with
    | .closed | .slow => return .exit .done
    | .failed => answer badRequest
    | .request request => handleRequest parseUrl source request
  guard s event :=
    match s, event with
    | .streaming _ _, .failed _ => False
    | .done, _ => False
    | _, _ => True
  body s event :=
    match s with
    | .proxying flush => proxied (UrlProxy.turn flush event)
    | .streaming stream flush => liveTurn stream flush event
    | .done => return .exit .done

end CastApp.Media.Handler
