import Mathlib.Algebra.Ring.Nat

/-!
# Shared types

The values the cast engine, the runtime and the media server exchange, and
the pieces of the standard library they are made of.  Instants and durations
are counted in milliseconds.
-/

namespace CastApp.State

/-! ## Standard library -/

abbrev Byte : Type := UInt8

/-- A point on the monotonic clock, in milliseconds. -/
abbrev Instant : Type := Nat

/-- A span of time, in milliseconds. -/
abbrev Duration : Type := Nat

def Duration.fromSecs (secs : Nat) : Duration := secs * 1000

/-- The kinds of I/O error the code tells apart. -/
inductive IoErrorKind : Type
  | interrupted
  | wouldBlock
  | timedOut
  | unexpectedEof
  | brokenPipe
  | notFound
  | connectionAborted
  | other
  deriving DecidableEq, Repr

structure IoError where
  kind : IoErrorKind
  message : String
  deriving DecidableEq, Repr

/-- `io::Error::other`. -/
def IoError.otherError (message : String) : IoError := ⟨.other, message⟩

inductive IpAddr : Type
  | v4 (bits : BitVec 32)
  | v6 (bits : BitVec 128)
  deriving DecidableEq, Repr

/-- `Ipv4Addr::UNSPECIFIED`, the wildcard `0.0.0.0`. -/
def IpAddr.unspecified : IpAddr := .v4 0

structure SocketAddr where
  ip : IpAddr
  port : UInt16
  deriving DecidableEq, Repr

/-! ### `Display` of addresses and durations -/

/-- `{:x}`. -/
def hexText (n : Nat) : String := String.ofList (Nat.toDigits 16 n)

/-- Four decimal octets. -/
def ipv4Text (bits : BitVec 32) : String :=
  ".".intercalate
    (([24, 16, 8, 0] : List Nat).map fun shift => toString (bits.toNat >>> shift % 256))

/-- The eight groups of an IPv6 address. -/
def ipv6Segments (bits : BitVec 128) : List Nat :=
  ([112, 96, 80, 64, 48, 32, 16, 0] : List Nat).map fun shift =>
    bits.toNat >>> shift % 65536

/-- A run of zero groups. -/
structure ZeroSpan where
  start : Nat
  len : Nat

/-- The first of the longest runs of zero groups. -/
def longestZeroSpan : Nat → ZeroSpan → ZeroSpan → List Nat → ZeroSpan
  | _, longest, _, [] => longest
  | i, longest, current, segment :: segments =>
      if segment = 0 then
        let current : ZeroSpan :=
          ⟨if current.len = 0 then i else current.start, current.len + 1⟩
        let longest := if current.len > longest.len then current else longest
        longestZeroSpan (i + 1) longest current segments
      else
        longestZeroSpan (i + 1) longest ⟨0, 0⟩ segments

def groupsText (segments : List Nat) : String := ":".intercalate (segments.map hexText)

def ipv6Text (bits : BitVec 128) : String :=
  let segments := ipv6Segments bits
  if segments.take 6 = [0, 0, 0, 0, 0, 0xFFFF] then
    "::ffff:" ++ ipv4Text (bits.setWidth 32)
  else
    let longest := longestZeroSpan 0 ⟨0, 0⟩ ⟨0, 0⟩ segments
    if longest.len > 1 then
      groupsText (segments.take longest.start) ++ "::" ++
        groupsText (segments.drop (longest.start + longest.len))
    else
      groupsText segments

def IpAddr.text : IpAddr → String
  | .v4 bits => ipv4Text bits
  | .v6 bits => ipv6Text bits

def SocketAddr.text (addr : SocketAddr) : String :=
  match addr.ip with
  | .v4 bits => ipv4Text bits ++ ":" ++ toString addr.port.toNat
  | .v6 bits => "[" ++ ipv6Text bits ++ "]:" ++ toString addr.port.toNat

example : ipv6Text 0x20010DB8000000000000000000000001 = "2001:db8::1" := by decide +kernel

/-! ## Receivers -/

/-- A discovered receiver. -/
structure CastDevice where
  id : String
  name : String
  addr : SocketAddr
  /-- Key of the certificate pin. -/
  tofuKey : String
  deriving DecidableEq, Repr

/-- A receiver typed in by hand. -/
def CastDevice.fromManualAddr (addr : SocketAddr) : CastDevice where
  id := addr.text
  name := "Manual " ++ addr.text
  addr := addr
  tofuKey := addr.text

/-! ## Commands and events of the backend -/

inductive SourceTab : Type
  | display
  | localFile
  | webUrl
  deriving DecidableEq, Repr

/-- What the GUI asks of the backend. -/
inductive AppCommand : Type
  | selectReceiver (device : CastDevice)
  | manualConnect (addr : SocketAddr)
  | selectSource (tab : SourceTab)
  | selectDisplay (monitor : String)
  | selectFile (path : String)
  | selectUrl (url : String)
  | play
  | pause
  | stop
  | setVolume (level : Float32)
  | mute (muted : Bool)
  | setProxyPort (port : UInt16)
  | rescan
  | bindFallback (consent : Bool)

/-- What the backend tells the GUI. -/
inductive BackendEvent : Type
  | receiversUpdated (devices : List CastDevice)
  | displaysUpdated (names : List String)
  | receiverConnected (device : CastDevice)
  | receiverDisconnected (device : CastDevice)
  | connectionError (message : String)
  | streamError (message : String)
  | mediaStatus (playing buffering : Bool)
  | volume (level : Float32) (muted : Bool)
  | bindFallbackRequested (reason : String)
  | certificateWarning (message : String)

end CastApp.State
