import CastApp.Util.Text

/-!
# Range headers

How a `Range` header is resolved against a resource of a given size, and the
`Content-Range` of the answer.
-/

namespace CastApp.Media.Range

open CastApp.Util.Text

inductive RangeDecision : Type
  /-- The whole resource, `200`. -/
  | full
  /-- The bytes from `start` to `stop`, both included, `206`. -/
  | slice (start stop : Nat)
  /-- `416`. -/
  | unsatisfiable
  deriving DecidableEq, Repr

/-- `bytes=-n`. -/
def suffixRange (endText : List Char) (size : Nat) : RangeDecision :=
  match parseU64 (trim endText) with
  | none => .unsatisfiable
  | some suffix =>
      if suffix = 0 ∨ size = 0 then .unsatisfiable
      else if size ≤ suffix then .slice 0 (size - 1)
      else .slice (size - suffix) (size - 1)

def parseSingleRange (spec : List Char) (size : Nat) : RangeDecision :=
  match splitOnce '-' spec with
  | none => .unsatisfiable
  | some ([], endText) => suffixRange endText size
  | some (startText, endText) =>
      match parseU64 (trim startText) with
      | none => .unsatisfiable
      | some start =>
          if endText.isEmpty then
            if size = 0 ∨ size ≤ start then .unsatisfiable else .slice start (size - 1)
          else
            match parseU64 (trim endText) with
            | none => .unsatisfiable
            | some stop =>
                if stop < start then .unsatisfiable
                else if size ≤ start then .unsatisfiable
                else .slice start (min stop (size - 1))

def parseRange (header : Option String) (size : Nat) : RangeDecision :=
  match header with
  | none => .full
  | some header =>
      match stripStart "bytes=".toList (trim header.toList) with
      | none => .full
      | some rest =>
          let ranges := (split ',' rest).map trim
          if ranges.all List.isEmpty then .unsatisfiable
          else
            match ranges with
            | [range] => parseSingleRange range size
            | _ => .full

def contentRange (start stop size : Nat) : String :=
  "bytes " ++ toString start ++ "-" ++ toString stop ++ "/" ++ toString size

def unsatisfiableContentRange (size : Nat) : String := "bytes */" ++ toString size

example : parseRange (some "bytes= -5 ") 100 = .slice 95 99 := by decide +kernel

end CastApp.Media.Range
