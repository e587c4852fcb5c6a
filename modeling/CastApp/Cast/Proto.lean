import CastApp.Util.Utf8

/-!
# The CastMessage codec

Protobuf by hand: varints, the six fields the engine uses, unknown fields
skipped by wire type.  The decoder works on what is left of the payload, so
a position in the source is a suffix here.
-/

namespace CastApp.Cast.Proto

open CastApp.State
open CastApp.Util.Utf8

def maxFieldSize : Nat := 16 * 1024 * 1024

inductive WireType : Type
  | varint
  | fixed64
  | lengthDelimited
  | fixed32
  deriving DecidableEq, Repr

def WireType.number : WireType → UInt64
  | .varint => 0
  | .fixed64 => 1
  | .lengthDelimited => 2
  | .fixed32 => 5

/-- Groups, 3 and 4, are malformed. -/
def WireType.fromNumber (value : UInt8) : Option WireType :=
  if value = 0 then some .varint
  else if value = 1 then some .fixed64
  else if value = 2 then some .lengthDelimited
  else if value = 5 then some .fixed32
  else none

inductive ProtoError : Type
  | unexpectedEnd (available : Nat)
  | varintOverflow
  | unknownWireType (wire : UInt8)
  | missingFieldNumber
  | truncatedField (declared remaining : Nat)
  | fieldTooLarge
  deriving DecidableEq, Repr

/-! ## Varints -/

/-- Base-128, low group first; a `u64` has at most ten groups. -/
def varintEncodeGroups : Nat → UInt64 → List Byte
  | 0, _ => []
  | groups + 1, value =>
      let byte := (value &&& 0x7F).toUInt8
      let value := value >>> 7
      if value = 0 then [byte] else (byte ||| 0x80) :: varintEncodeGroups groups value

def varintEncode (value : UInt64) : List Byte := varintEncodeGroups 10 value

/-- The loop of `varint_decode` at byte `index`, with the bits read so far. -/
def varintDecodeFrom (index : Nat) (value : UInt64) :
    List Byte → Except ProtoError (UInt64 × Nat)
  | [] => .error (.unexpectedEnd index)
  | byte :: rest =>
      if index ≥ 10 then
        .error .varintOverflow
      -- The tenth byte can only contribute bit 63.
      else if index = 9 ∧ byte &&& 0x7F > 0x01 then
        .error .varintOverflow
      else
        let value := value ||| ((byte &&& 0x7F).toUInt64 <<< (7 * index).toUInt64)
        if byte &&& 0x80 = 0 then
          .ok (value, index + 1)
        else
          varintDecodeFrom (index + 1) value rest

/-- The value and the number of bytes consumed. -/
def varintDecode (bytes : List Byte) : Except ProtoError (UInt64 × Nat) :=
  varintDecodeFrom 0 0 bytes

/-! ## Messages -/

inductive PayloadType : Type
  | string
  | binary
  deriving DecidableEq, Repr

structure CastMessage where
  protocolVersion : UInt32
  sourceId : String
  destinationId : String
  namespaceUrn : String
  payloadType : PayloadType
  payloadUtf8 : String
  deriving DecidableEq, Repr

def CastMessage.empty : CastMessage := ⟨0, "", "", "", .string, ""⟩

def key (field : UInt64) (wire : WireType) : UInt64 := (field <<< 3) ||| wire.number

def lengthDelimited (field : UInt64) (data : List Byte) : List Byte :=
  varintEncode (key field .lengthDelimited) ++
    varintEncode data.length.toUInt64 ++ data

def encodeCastMessage (source dest namespaceUrn payload : String) : List Byte :=
  varintEncode (key 1 .varint) ++ [0] ++
    lengthDelimited 2 (asBytes source) ++
    lengthDelimited 3 (asBytes dest) ++
    lengthDelimited 4 (asBytes namespaceUrn) ++
    varintEncode (key 5 .varint) ++ [0] ++
    lengthDelimited 6 (asBytes payload)

/-- Store a varint field. -/
def CastMessage.setVarint (message : CastMessage) (field : UInt32)
    (value : UInt64) : CastMessage :=
  if field = 1 then { message with protocolVersion := value.toUInt32 }
  else if field = 5 then
    { message with payloadType := if value = 1 then .binary else .string }
  else message

/-- Store a length-delimited field. -/
def CastMessage.setBytes (message : CastMessage) (field : UInt32)
    (data : List Byte) : CastMessage :=
  if field = 2 then { message with sourceId := fromUtf8Lossy data }
  else if field = 3 then { message with destinationId := fromUtf8Lossy data }
  else if field = 4 then { message with namespaceUrn := fromUtf8Lossy data }
  else if field = 6 then { message with payloadUtf8 := fromUtf8Lossy data }
  else message

/-- What is left after `width` skipped bytes. -/
def skipFixed (width : Nat) (bytes : List Byte) : Except ProtoError (List Byte) :=
  if bytes.length < width then
    .error (.unexpectedEnd bytes.length)
  else
    .ok (bytes.drop width)

/-- One turn of the decoding loop: the message with one more field, and the
bytes after that field. -/
def decodeField (message : CastMessage) (bytes : List Byte) :
    Except ProtoError (CastMessage × List Byte) := do
  let (keyValue, consumed) ← varintDecode bytes
  let bytes := bytes.drop consumed
  let field := (keyValue >>> 3).toUInt32
  match WireType.fromNumber (keyValue &&& 0x07).toUInt8 with
  | none => .error (.unknownWireType (keyValue &&& 0x07).toUInt8)
  | some wire =>
      if field = 0 then
        .error .missingFieldNumber
      else
        match wire with
        | .varint => do
            let (value, consumed) ← varintDecode bytes
            .ok (message.setVarint field value, bytes.drop consumed)
        | .lengthDelimited => do
            let (length, consumed) ← varintDecode bytes
            let bytes := bytes.drop consumed
            let length := length.toNat
            if length > maxFieldSize then
              .error .fieldTooLarge
            else if length > bytes.length then
              .error (.truncatedField length bytes.length)
            else
              .ok (message.setBytes field (bytes.take length), bytes.drop length)
        | .fixed64 => do
            let bytes ← skipFixed 8 bytes
            .ok (message, bytes)
        | .fixed32 => do
            let bytes ← skipFixed 4 bytes
            .ok (message, bytes)

/-- The decoding loop; a field takes at least one byte, so the length of the
payload bounds the turns. -/
def decodeFields : Nat → CastMessage → List Byte → Except ProtoError CastMessage
  | _, message, [] => .ok message
  | 0, _, bytes => .error (.unexpectedEnd bytes.length)
  | fuel + 1, message, bytes => do
      let (message, rest) ← decodeField message bytes
      decodeFields fuel message rest

def decodeCastMessage (bytes : List Byte) : Except ProtoError CastMessage :=
  decodeFields bytes.length .empty bytes

end CastApp.Cast.Proto
