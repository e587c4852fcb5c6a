import CastApp.State

/-!
# Wire framing

A frame is a four-byte big-endian length followed by that many bytes of
payload.  `readFrame` reads one frame from bytes already in memory, where the
only end of input is the end of the bytes.
-/

namespace CastApp.Cast.Framing

open CastApp.State

def maxFrameSize : Nat := 16 * 1024 * 1024

inductive FrameError : Type
  | io (error : IoError)
  | frameTooLarge (length : Nat)
  | truncated (expected got : Nat)
  deriving DecidableEq, Repr

/-- `u32::to_be_bytes`. -/
def toBeBytes (n : UInt32) : List Byte :=
  [(n >>> 24).toUInt8, (n >>> 16).toUInt8, (n >>> 8).toUInt8, n.toUInt8]

def encodeFrame (payload : List Byte) : List Byte :=
  toBeBytes payload.length.toUInt32 ++ payload

/-- `u32::from_be_bytes`. -/
def fromBeBytes (header : List Byte) : Nat :=
  header.foldl (fun n b => n * 256 + b.toNat) 0

/-- One frame and the bytes after it; `none` at a clean end. -/
def readFrame (bytes : List Byte) :
    Except FrameError (Option (List Byte × List Byte)) :=
  if bytes.length < 4 then
    if bytes.length = 0 then .ok none else .error (.truncated 4 bytes.length)
  else
    let length := fromBeBytes (bytes.take 4)
    let rest := bytes.drop 4
    if length > maxFrameSize then .error (.frameTooLarge length)
    else if rest.length < length then .error (.truncated length rest.length)
    else .ok (some (rest.take length, rest.drop length))

end CastApp.Cast.Framing
