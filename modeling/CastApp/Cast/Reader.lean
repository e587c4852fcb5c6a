import CastApp.Cast.Framing

/-!
# The reader thread

One thread per session owns the read side of its transport.  It gathers
bytes into frames, sends each on the channel it was given, and sends `none`
once when it stops.  It stops at the end of the stream, on a protocol or
transport error, or when it finds the shutdown token triggered at the top of
its loop; a frame nobody receives any more ends it without the `none`.
-/

namespace CastApp.Cast.Reader

open CastApp.State
open CastApp.Cast.Framing

/-! ## Frame accumulation -/

structure FrameAccumulator where
  buf : List Byte
  deriving DecidableEq, Repr

namespace FrameAccumulator

def new : FrameAccumulator := ⟨[]⟩

/-- The extraction loop: the complete frames in order and the bytes after
the last of them.  A frame takes at least its header, so the number of bytes
bounds the turns. -/
def extract : Nat → List Byte → Except FrameError (List (List Byte) × List Byte)
  | 0, bytes => .ok ([], bytes)
  | fuel + 1, bytes =>
      match readFrame bytes with
      | .ok (some (payload, rest)) => do
          let (frames, rest) ← extract fuel rest
          .ok (payload :: frames, rest)
      | .ok none => .ok ([], bytes)
      | .error (.truncated _ _) => .ok ([], bytes)
      | .error error => .error error

/-- The new complete frames, and the accumulator with the partial one.  On
an error the bytes stay buffered. -/
def pushBytes (a : FrameAccumulator) (bytes : List Byte) :
    Except FrameError (List (List Byte)) × FrameAccumulator :=
  let buf := a.buf ++ bytes
  match extract buf.length buf with
  | .ok (frames, rest) => (.ok frames, ⟨rest⟩)
  | .error error => (.error error, ⟨buf⟩)

end FrameAccumulator

/-! ## The loop -/

/-- Where the thread stands between two accesses to what it shares. -/
inductive ReaderControl : Type
  /-- About to look at the shutdown token. -/
  | polling
  /-- About to read from the transport. -/
  | reading
  /-- Sending the frames of one read. -/
  | sending (frames : List (List Byte))
  /-- Out of the loop, about to send `none`. -/
  | leaving
  | finished
  deriving DecidableEq, Repr

structure ReaderThread where
  accumulator : FrameAccumulator
  control : ReaderControl
  deriving DecidableEq, Repr

namespace ReaderThread

def new : ReaderThread := ⟨.new, .polling⟩

/-- What a read from the transport may return. -/
abbrev ReadResult : Type := Except IoError (List Byte)

/-- What the thread does next, as seen from outside: nothing visible, or one
message on its channel. -/
inductive Action : Type
  | silent
  | send (frame : Option (List Byte))
  deriving DecidableEq, Repr

/-- The top of the loop. -/
def poll (r : ReaderThread) (shuttingDown : Bool) : ReaderThread :=
  { r with control := if shuttingDown then .leaving else .reading }

/-- One read and what follows from it. -/
def read (r : ReaderThread) (result : ReadResult) : ReaderThread :=
  match result with
  | .ok [] => { r with control := .leaving }
  | .ok bytes =>
      match r.accumulator.pushBytes bytes with
      | (.ok frames, accumulator) => ⟨accumulator, .sending frames⟩
      | (.error _, accumulator) => ⟨accumulator, .leaving⟩
  | .error error =>
      if error.kind = .wouldBlock ∨ error.kind = .timedOut then
        { r with control := .polling }
      else
        { r with control := .leaving }

/-- One send: the message, and the thread after it, given whether anybody
still receives. -/
def send (r : ReaderThread) (connected : Bool) : Action × ReaderThread :=
  match r.control with
  | .sending (frame :: frames) =>
      (.send (some frame),
        { r with control := if connected then .sending frames else .finished })
  | .sending [] => (.silent, { r with control := .polling })
  | .leaving => (.send none, { r with control := .finished })
  | _ => (.silent, r)

end ReaderThread

end CastApp.Cast.Reader
