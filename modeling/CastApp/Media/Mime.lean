/-!
# Content types

The extension of a path and the MIME type it stands for.
-/

namespace CastApp.Media.Mime

def mimeTable : List (String × String) :=
  [ ("mp4", "video/mp4")
  , ("webm", "video/webm")
  , ("mkv", "video/x-matroska")
  , ("mov", "video/quicktime")
  , ("mp3", "audio/mpeg")
  , ("aac", "audio/aac")
  , ("m4a", "audio/mp4")
  , ("flac", "audio/flac")
  , ("wav", "audio/wav") ]

def defaultMime : String := "application/octet-stream"

/-- `str::eq_ignore_ascii_case`. -/
def eqIgnoreAsciiCase (a b : String) : Bool := a.toLower == b.toLower

def mimeForExtension (extension : String) : String :=
  match mimeTable.find? fun entry => eqIgnoreAsciiCase entry.1 extension with
  | some (_, mime) => mime
  | none => defaultMime

/-- `Path::file_name`: the last component, unless it is `..`. -/
def fileName (path : String) : Option String :=
  let components := (path.splitOn "/").filter fun component =>
    component != "" && component != "."
  match components.getLast? with
  | some ".." => none
  | last => last

/-- `Path::extension`: what follows the last dot, if anything precedes it. -/
def extension (path : String) : Option String :=
  (fileName path).bind fun name =>
    match (name.splitOn ".").reverse with
    | [] | [_] | [_, ""] => none
    | after :: _ => some after

def mimeForPath (path : String) : String :=
  match extension path with
  | some extension => mimeForExtension extension
  | none => defaultMime

end CastApp.Media.Mime
