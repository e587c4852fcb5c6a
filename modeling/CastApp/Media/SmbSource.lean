import CastApp.Media.LocalFile

/-!
# Network shares

`smb_source::serve`: the same heads as for a local file, read over a handle on
an anonymous share.
-/

namespace CastApp.Media.SmbSource

open CastApp.Media.Mime
open CastApp.Media.Range
open CastApp.Media.Serving
open CastApp.State
open CastApp.Util.Text
open CastApp.Verified.Coroutine

/-- A URL as the URL parser takes it apart. -/
structure Url where
  scheme : String
  username : String
  password : Option String
  host : Option String
  port : Option UInt16
  path : String
  query : Option String
  fragment : Option String

/-- `url::Url::parse`. -/
abbrev UrlParser : Type := String → Except String Url

variable (parseUrl : UrlParser)

def defaultPort : UInt16 := 445

def readChunk : Nat := 1024 * 1024

/-- The share and the path of a decoded URL path. -/
def shareAndFile (decoded : String) : Option (String × String) :=
  match split '/' (decoded.toList.dropWhile (· == '/')) with
  | share :: rest =>
      if share.isEmpty || rest.isEmpty || rest.any List.isEmpty then
        none
      else
        some (String.ofList share, "/".intercalate (rest.map String.ofList))
  | [] => none

namespace SmbUrl

def parse (raw : String) : Except SmbError SmbUrl :=
  match parseUrl raw with
  | .error message => .error (.invalidUrl message)
  | .ok parsed =>
      if !eqIgnoreAsciiCase parsed.scheme "smb" then
        .error (.invalidUrl "scheme must be smb://")
      else if parsed.username ≠ "" ∨ parsed.password.isSome then
        .error (.invalidUrl
          "userinfo (user:pass@) is rejected; network shares are anonymous-only")
      else
        match parsed.host with
        | none => .error (.invalidUrl "URL has no host")
        | some host =>
            if parsed.query.isSome ∨ parsed.fragment.isSome then
              .error (.invalidUrl "query strings and fragments are not supported")
            else
              match shareAndFile (percentDecodeLossy parsed.path) with
              | none =>
                  .error (.invalidUrl
                    "URL must name a share and a file path: smb://host/share/dir/file.mp4")
              | some (share, filePath) =>
                  .ok ⟨host, parsed.port.getD defaultPort, share, filePath⟩

end SmbUrl

/-- A prefix check; the parser sees to the rest. -/
def isSmbUrl (raw : String) : Bool :=
  (stripStart "smb://".toList ((trim raw.toList).map Char.toLower)).isSome

def fileExtension (path : String) : String :=
  String.ofList (((split '.' path.toList).getLast?).getD [])

/-- Write `remaining` bytes from `offset` on. -/
def streamReader (offset remaining : Nat) : Serve (Except IoError Unit) :=
  if remaining = 0 then
    return .ok ()
  else do
    match ← ask (.readAt offset (min remaining readChunk)) with
    | .error _ => return .error ⟨.connectionAborted, "network share transport error"⟩
    | .ok [] => return .ok ()
    | .ok (byte :: bytes) =>
        attempt (ask (.write (byte :: bytes))) fun () =>
          if remaining < bytes.length + 1 then
            .fault .subtractOverflow
          else
            streamReader (offset + (bytes.length + 1)) (remaining - (bytes.length + 1))
termination_by remaining

/-- A head with a short text, for every failure to open the file. -/
def plainError (status : Nat) (reason text : String) : Serve (Except IoError Unit) :=
  respondText
    ⟨status, reason,
      [("Content-Type", "text/plain"), ("Content-Length", toString text.utf8ByteSize)]⟩ text

def openFailed : SmbError → Serve (Except IoError Unit)
  | .authRequired _ =>
      plainError 401 "Unauthorized" "guest access rejected: authentication required"
  | .notFound _ => plainError 404 "Not Found" "network share resource not found"
  | .accessDenied _ => plainError 403 "Forbidden" "network share access denied"
  | .invalidUrl _ | .transport _ => plainError 502 "Bad Gateway" "Bad Gateway"

/-- The body behind a head. -/
def body : RangeDecision → Nat → Serve (Except IoError Unit)
  | .full, size => streamReader 0 size
  | .slice start stop, _ => streamReader start (stop - start + 1)
  | .unsatisfiable, _ => return .ok ()

def badUrl : ResponseHead := ⟨400, "Bad Request", []⟩

def serve (rawUrl : String) (rangeHeader : Option String) (headOnly : Bool) :
    Serve (Except IoError Unit) := do
  match SmbUrl.parse parseUrl rawUrl with
  | .error _ => respond badUrl
  | .ok url =>
      match ← ask (.openShare url) with
      | .error error => openFailed error
      | .ok size =>
          let mime := mimeForExtension (fileExtension url.filePath)
          let decision := parseRange rangeHeader size
          attempt (ask (.writeHead (LocalFile.headOf mime size decision))) fun () =>
            attempt (if headOnly then return .ok () else body decision size) fun () => do
              -- A handle that cannot be closed is no failure of the response.
              let _ ← ask .closeShare
              ask .flush

end CastApp.Media.SmbSource
