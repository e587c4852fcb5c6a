import CastApp.Media.SmbSource

/-!
# Remote URLs

`UrlProxy::serve`: the request is forwarded with its range, and the answer of
the origin is mirrored.  The body follows from the body loop, one turn for each
thing that comes to pass in its `select!`.
-/

namespace CastApp.Media.UrlProxy

open CastApp.Media.Flush
open CastApp.Media.Serving
open CastApp.Media.SmbSource (Url UrlParser)
open CastApp.State
open CastApp.Verified.Coroutine

/-- 32 KiB. -/
def flushBytes : Nat := 32 * 1024

/-- In milliseconds. -/
def flushInterval : Duration := 25

inductive ProxyError : Type
  | invalidUrl (source : String)
  | userinfo
  | missingHost
  deriving DecidableEq, Repr

variable (parseUrl : UrlParser)

def validateUrl (raw : String) : Except ProxyError Url :=
  match parseUrl raw with
  | .error source => .error (.invalidUrl source)
  | .ok url =>
      if url.username ≠ "" ∨ url.password.isSome then .error .userinfo
      else if url.host.isNone then .error .missingHost
      else .ok url

/-- `HeaderValue::to_str`: visible ASCII, spaces and tabs. -/
def headerText (value : List Byte) : Option String :=
  if value.all fun b => b = 0x09 || (0x20 ≤ b && b < 0x7F) then
    some (String.ofList (value.map fun b => Char.ofNat b.toNat))
  else
    none

def mirroredHeaders : List String :=
  ["content-type", "content-length", "content-range", "accept-ranges"]

/-- The head of an origin's answer, as it is passed on. -/
def mirroredHead (upstream : UpstreamHead) : ResponseHead :=
  ⟨upstream.status, reasonPhrase upstream.status,
    mirroredHeaders.filterMap fun name =>
      ((upstream.header name).bind headerText).map fun value => (name, value)⟩

def gatewayHead : ResponseHead :=
  ⟨502, "Bad Gateway", [("Content-Type", "text/plain"), ("Content-Length", "11")]⟩

def badGateway : Serve (Except IoError Unit) := respondText gatewayHead "Bad Gateway"

/-! ## Body loops -/

/-- Write a chunk of a body, and flush if it is due. -/
def writeChunk (flush : FlushTracker) (chunk : List Byte) :
    Serve (Except IoError FlushTracker) :=
  attempt (ask (.write chunk)) fun () => do
    let now ← ask .now
    let restarted ← ask .now
    match flush.shouldFlush chunk.length now restarted with
    | (true, flush) => attempt (ask .flush) fun () => return .ok flush
    | (false, flush) => return .ok flush

/-- No chunk came before the deadline. -/
def idle (flush : FlushTracker) : Serve (Except IoError FlushTracker) :=
  attempt (if flush.hasPending then ask .flush else return .ok ()) fun () => do
    let now ← ask .now
    return .ok (flush.reset now)

/-- Where a response is: complete, or at the `select!` of its body loop. -/
inductive Progress : Type
  | complete
  | streaming (flush : FlushTracker)

/-- One turn of the body loop. -/
def turn (flush : FlushTracker) : BodyEvent → Serve (Except IoError Progress)
  | .chunk bytes => attempt (writeChunk flush bytes) fun flush => return .ok (.streaming flush)
  | .deadline => attempt (idle flush) fun flush => return .ok (.streaming flush)
  | .failed error => return .error ⟨.connectionAborted, error⟩
  | .ended => attempt (ask .flush) fun () => return .ok .complete
  -- The future is dropped.
  | .aborted => return .ok .complete

def serve (rawUrl : String) (rangeHeader : Option String) (headOnly : Bool) :
    Serve (Except IoError Progress) := do
  match validateUrl parseUrl rawUrl with
  | .error _ =>
      attempt (respond SmbSource.badUrl) fun () => return .ok .complete
  | .ok _ =>
      match ← ask (.send rawUrl rangeHeader) with
      | .failed _ | .timeout => attempt badGateway fun () => return .ok .complete
      | .answered upstream =>
          attempt (ask (.writeHead (mirroredHead upstream))) fun () =>
            attempt (ask .flush) fun () =>
              if headOnly then
                return .ok .complete
              else do
                let now ← ask .now
                return .ok (.streaming (.new flushBytes flushInterval now))

end CastApp.Media.UrlProxy
