import CastApp.Media.Mime
import CastApp.Media.Range
import CastApp.Media.Serving

/-!
# Local files

`local_file::serve`: the head says what the `Range` header is resolved to, and
the body follows in chunks, unless only the head was asked for.
-/

namespace CastApp.Media.LocalFile

open CastApp.Media.Mime
open CastApp.Media.Range
open CastApp.Media.Serving
open CastApp.State
open CastApp.Verified.Coroutine

def chunkSize : Nat := 64 * 1024

def missing : ResponseHead := ⟨404, "Not Found", []⟩

/-- The head of a resource of `size` bytes. -/
def headOf (mime : String) (size : Nat) : RangeDecision → ResponseHead
  | .full =>
      ⟨200, "OK",
        [ ("Accept-Ranges", "bytes")
        , ("Content-Type", mime)
        , ("Content-Length", toString size)
        , ("Cache-Control", "no-cache") ]⟩
  | .slice start stop =>
      ⟨206, "Partial Content",
        [ ("Accept-Ranges", "bytes")
        , ("Content-Type", mime)
        , ("Content-Length", toString (stop - start + 1))
        , ("Content-Range", contentRange start stop size)
        , ("Cache-Control", "no-cache") ]⟩
  | .unsatisfiable =>
      ⟨416, "Range Not Satisfiable",
        [ ("Accept-Ranges", "bytes")
        , ("Content-Type", mime)
        , ("Content-Length", "0")
        , ("Content-Range", unsatisfiableContentRange size) ]⟩

/-- Write `remaining` bytes from where the file is read; a short file ends the
body early. -/
def streamReader (remaining : Nat) : Serve (Except IoError Unit) :=
  if remaining = 0 then
    return .ok ()
  else
    attempt (ask (.read (min remaining chunkSize))) fun chunk =>
      match chunk with
      | [] => return .ok ()
      | byte :: bytes =>
          attempt (ask (.write (byte :: bytes))) fun () =>
            if remaining < bytes.length + 1 then
              .fault .subtractOverflow
            else
              streamReader (remaining - (bytes.length + 1))
termination_by remaining

/-- The body behind a head. -/
def body : RangeDecision → Nat → Serve (Except IoError Unit)
  | .full, size => streamReader size
  | .slice start stop, _ =>
      attempt (ask (.seek start)) fun () => streamReader (stop - start + 1)
  | .unsatisfiable, _ => return .ok ()

def serve (path : String) (rangeHeader : Option String) (headOnly : Bool) :
    Serve (Except IoError Unit) := do
  match ← ask (.openFile path) with
  | .error error =>
      if error.kind = .notFound then
        respond missing
      else
        return .error error
  | .ok () =>
      attempt (ask .fileSize) fun size =>
        let decision := parseRange rangeHeader size
        attempt (ask (.writeHead (headOf (mimeForPath path) size decision))) fun () =>
          attempt (if headOnly then return .ok () else body decision size) fun () =>
            ask .flush

end CastApp.Media.LocalFile
