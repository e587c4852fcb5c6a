import CastApp.Media.Connections
import CastApp.Util.Utf8
import CastApp.Verified.Coroutine

/-!
# Serving a request

What the serving modules share: response heads, and the operations they await
of the connection, of the resource they serve from and of the slot of the live
stream.  What a resource holds and whether an operation succeeds is left open.
-/

namespace CastApp.Media.Serving

open CastApp.Media.Connections
open CastApp.Media.MediaServer
open CastApp.State
open CastApp.Util.Utf8
open CastApp.Verified.Coroutine

/-! ## Response heads -/

structure ResponseHead where
  status : Nat
  reason : String
  headers : List (String × String)
  deriving DecidableEq, Repr

def ResponseHead.text (head : ResponseHead) : String :=
  "HTTP/1.1 " ++ toString head.status ++ " " ++ head.reason ++ "\r\n" ++
    String.join (head.headers.map fun field => field.1 ++ ": " ++ field.2 ++ "\r\n") ++
      "Connection: close\r\n\r\n"

/-- `reason_phrase`; a status that is not listed has none. -/
def reasonPhrase : Nat → String
  | 200 => "OK"
  | 201 => "Created"
  | 204 => "No Content"
  | 206 => "Partial Content"
  | 301 => "Moved Permanently"
  | 302 => "Found"
  | 304 => "Not Modified"
  | 307 => "Temporary Redirect"
  | 308 => "Permanent Redirect"
  | 400 => "Bad Request"
  | 401 => "Unauthorized"
  | 403 => "Forbidden"
  | 404 => "Not Found"
  | 405 => "Method Not Allowed"
  | 408 => "Request Timeout"
  | 410 => "Gone"
  | 416 => "Range Not Satisfiable"
  | 429 => "Too Many Requests"
  | 500 => "Internal Server Error"
  | 502 => "Bad Gateway"
  | 503 => "Service Unavailable"
  | 504 => "Gateway Timeout"
  | _ => ""

/-! ## Resources -/

/-- An `smb://` URL, without credentials. -/
structure SmbUrl where
  host : String
  port : UInt16
  share : String
  filePath : String
  deriving DecidableEq, Repr

inductive SmbError : Type
  | invalidUrl (message : String)
  | authRequired (detail : String)
  | notFound (detail : String)
  | accessDenied (detail : String)
  | transport (source : String)
  deriving DecidableEq, Repr

/-- The answer of an origin, with the first value of each header. -/
structure UpstreamHead where
  status : Nat
  header : String → Option (List Byte)

/-- What `send` comes to within the time for the first byte. -/
inductive Upstream : Type
  | answered (head : UpstreamHead)
  | failed (error : String)
  | timeout

/-- What completes first in the `select!` of a body loop. -/
inductive BodyEvent : Type
  | chunk (bytes : List Byte)
  | failed (error : String)
  | ended
  /-- The deadline of the flush tracker. -/
  | deadline
  /-- The source was switched, or the server is shutting down. -/
  | aborted

/-! ## Operations -/

inductive Op : Type
  /-- `read_request`, within the time for a request head. -/
  | readRequest
  /-- `write_response_head`. -/
  | writeHead (head : ResponseHead)
  /-- `write_all` of bytes of a body. -/
  | write (bytes : List Byte)
  | flush
  | openFile (path : String)
  /-- The length in the metadata of the file. -/
  | fileSize
  | seek (start : Nat)
  | read (want : Nat)
  /-- `SmbConnector::open`, with the size of the file. -/
  | openShare (url : SmbUrl)
  | readAt (offset len : Nat)
  | closeShare
  | send (url : String) (range : Option String)
  | now
  /-- Take what is in the slot of the live stream. -/
  | takeLive
  | putBack (stream : ScreenStream)

abbrev Op.Ans : Op → Type
  | .readRequest => HeadRead
  | .writeHead _ | .write _ | .flush | .openFile _ | .seek _ => Except IoError Unit
  | .fileSize => Except IoError Nat
  | .read _ => Except IoError (List Byte)
  | .openShare _ => Except SmbError Nat
  | .readAt _ _ => Except SmbError (List Byte)
  | .closeShare => Except SmbError Unit
  | .send _ _ => Upstream
  | .now => Instant
  | .takeLive => Option ScreenStream
  | .putBack _ => Unit

/-- More bytes came than were asked for. -/
inductive Fault : Type
  | subtractOverflow
  deriving DecidableEq, Repr

abbrev servingSig : Signature where
  Op := Op
  Ans := Op.Ans
  Fault := Fault

/-- A computation of a connection handler. -/
abbrev Serve (α : Type) : Type := Coro servingSig α

abbrev ask (op : Op) : Serve op.Ans := @perform servingSig op

abbrev Ops : Type := List (Entry servingSig)

/-- The `?` operator. -/
def attempt {α β : Type} (p : Serve (Except IoError α))
    (f : α → Serve (Except IoError β)) : Serve (Except IoError β) := do
  match ← p with
  | .ok a => f a
  | .error error => return .error error

/-- A head without a body. -/
def respond (head : ResponseHead) : Serve (Except IoError Unit) :=
  attempt (ask (.writeHead head)) fun () => ask .flush

/-- A head with a short text. -/
def respondText (head : ResponseHead) (text : String) : Serve (Except IoError Unit) :=
  attempt (ask (.writeHead head)) fun () =>
    attempt (ask (.write (asBytes text))) fun () => ask .flush

end CastApp.Media.Serving
