/-!
# JSON values

`serde_json::Value` and the accessors the engine reads it through.  Parsing
text into a value is the library's business: what needs it takes the parser
as a parameter.
-/

namespace CastApp.Util.Json

/-- `serde_json::Number`. -/
inductive Number : Type
  | posInt (n : UInt64)
  | negInt (n : Int64)
  | float (x : Float)

/-- `serde_json::Value`; the keys of an object are distinct, in the order of
their insertion. -/
inductive Json : Type
  | null
  | bool (b : Bool)
  | number (n : Number)
  | string (s : String)
  | array (items : List Json)
  | object (fields : List (String × Json))

namespace Json

/-- A non-negative integer. -/
def nat (n : Nat) : Json := .number (.posInt n.toUInt64)

/-- `Map::get`. -/
def getField (fields : List (String × Json)) (key : String) : Option Json :=
  fields.lookup key

/-- `Value::get` at a string: fields of objects only. -/
def get : Json → String → Option Json
  | .object fields, key => getField fields key
  | _, _ => none

def asStr : Json → Option String
  | .string s => some s
  | _ => none

def asBool : Json → Option Bool
  | .bool b => some b
  | _ => none

def asArray : Json → Option (List Json)
  | .array items => some items
  | _ => none

def asObject : Json → Option (List (String × Json))
  | .object fields => some fields
  | _ => none

def asU64 : Json → Option UInt64
  | .number (.posInt n) => some n
  | _ => none

def asF64 : Json → Option Float
  | .number (.posInt n) => some n.toFloat
  | .number (.negInt n) => some n.toFloat
  | .number (.float x) => some x
  | _ => none

end Json

end CastApp.Util.Json
