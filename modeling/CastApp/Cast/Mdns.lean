import CastApp.State
import CastApp.Util.Shutdown
import CastApp.Verified.EventLoop

/-!
# The discovery loop

The table of discovered devices and `run_with_dest`, the loop that keeps it:
query every interval and on every rescan, fold in what the packets announce,
drop what stayed silent, and tell the GUI when the table changes.

The loop is stated for any packet parser.  Its surroundings are the shutdown
token and the sender of the rescan counter.
-/

namespace CastApp.Cast.Mdns

open CastApp.State
open CastApp.Util
open CastApp.Verified.Coroutine
open CastApp.Verified.EventLoop
open CastApp.Verified.WatchChannel

/-! ## The device table -/

structure DiscoveredDevice where
  ip : BitVec 32
  port : UInt16
  name : String
  /-- The TXT `id=` of the receiver, when it advertises one. -/
  deviceId : Option String
  deriving DecidableEq, Repr

inductive DnsError : Type
  | truncated (available : Nat)
  | pointerOutOfBounds (offset : Nat)
  | pointerCycle
  | pointerDepthExceeded
  | badLabelLength (byte : Byte)
  deriving DecidableEq, Repr

structure DeviceEntry where
  name : String
  deviceId : Option String
  missedCycles : UInt8
  deriving DecidableEq, Repr

/-- Devices are told apart by IP and port. -/
abbrev DeviceKey : Type := BitVec 32 × UInt16

abbrev DeviceTable : Type := List (DeviceKey × DeviceEntry)

def missedCyclesToExpire : UInt8 := 3

/-- Insert or refresh a device; the flag says whether the table changed. -/
def upsertDevice (devices : DeviceTable) (device : DiscoveredDevice) : DeviceTable × Bool :=
  let key : DeviceKey := (device.ip, device.port)
  match devices.lookup key with
  | some entry =>
      (devices.map fun row =>
          if row.1 = key then (key, ⟨device.name, device.deviceId, 0⟩) else row,
        entry.name ≠ device.name ∨ entry.deviceId ≠ device.deviceId)
  | none => (devices ++ [(key, ⟨device.name, device.deviceId, 0⟩)], true)

def upsertAll (devices : DeviceTable) : List DiscoveredDevice → DeviceTable × Bool
  | [] => (devices, false)
  | device :: rest =>
      let first := upsertDevice devices device
      let others := upsertAll first.1 rest
      (others.1, first.2 || others.2)

/-- Count one more missed cycle for everybody and drop those that missed too
many. -/
def expireCycle (devices : DeviceTable) : DeviceTable × Bool :=
  let aged := devices.map fun row =>
    (row.1, { row.2 with missedCycles := row.2.missedCycles + 1 })
  (aged.filter fun row => row.2.missedCycles < missedCyclesToExpire,
    aged.any fun row => missedCyclesToExpire ≤ row.2.missedCycles)

/-- The key a receiver's certificate is pinned under. -/
def receiverKey (deviceId : Option String) (name : String) (ip : BitVec 32) : String :=
  match deviceId with
  | some id => if id = "" then name ++ "+" ++ ipv4Text ip else id
  | none => name ++ "+" ++ ipv4Text ip

def deviceOf (row : DeviceKey × DeviceEntry) : CastDevice where
  id := ipv4Text row.1.1 ++ ":" ++ toString row.1.2.toNat
  name := row.2.name
  addr := ⟨.v4 row.1.1, row.1.2⟩
  tofuKey := receiverKey row.2.deviceId row.2.name row.1.1

/-- What `push_snapshot` sends: the table as devices, sorted by identifier. -/
def snapshot (devices : DeviceTable) : BackendEvent :=
  .receiversUpdated ((devices.map deviceOf).mergeSort fun a b => a.id ≤ b.id)

/-! ## The loop -/

inductive Op : Type
  /-- `tokio::net::UdpSocket::from_std`. -/
  | fromStd
  /-- `Shutdown::subscribe`. -/
  | subscribe
  | sendTo (packet : List Byte)
  | emit (event : BackendEvent)

abbrev Op.Ans : Op → Type
  | .fromStd | .sendTo _ => Except IoError Unit
  | .subscribe | .emit _ => Unit

abbrev mdnsSig : Signature where
  Op := Op
  Ans := Op.Ans
  Fault := Empty

abbrev ask (op : Op) : Coro mdnsSig op.Ans := @perform mdnsSig op

/-- A name as length-prefixed labels. -/
def nameBytes (name : String) : List Byte :=
  ((name.splitOn ".").flatMap fun label =>
    label.utf8ByteSize.toUInt8 :: label.toUTF8.toList) ++ [0]

def googlecastService : String := "_googlecast._tcp.local"

/-- The PTR query for `_googlecast._tcp.local`. -/
def buildPtrQuery : List Byte :=
  [0, 0, 0, 0, 0, 1, 0, 0, 0, 0, 0, 0] ++ nameBytes googlecastService ++ [0, 12, 0, 1]

inductive Branch : Type
  /-- The token changed, to `value`, or its sender is gone. -/
  | shutdown (closed value : Bool)
  | tick
  /-- A rescan was asked for, or the supervisor is gone. -/
  | rescan (closed : Bool)
  | recv (result : Except IoError (List Byte))

variable (parsePacket : List Byte → Except DnsError (List DiscoveredDevice))

/-- The devices of a packet go into the table; a change is announced. -/
def receive (devices : DeviceTable) :
    Except IoError (List Byte) → Coro mdnsSig DeviceTable
  | .error _ => return devices
  | .ok data =>
      match parsePacket data with
      | .error _ => return devices
      | .ok found => do
          let upserted := upsertAll devices found
          if upserted.2 then
            ask (.emit (snapshot upserted.1))
          return upserted.1

def branchBody (devices : DeviceTable) : Branch → Coro mdnsSig (Flow DeviceTable)
  | .shutdown closed value =>
      return if closed || value then .exit devices else .park devices
  | .tick => do
      let _ ← ask (.sendTo buildPtrQuery)
      let expired := expireCycle devices
      if expired.2 then
        ask (.emit (snapshot expired.1))
      return .park expired.1
  | .rescan closed =>
      if closed then
        return .exit devices
      else do
        let _ ← ask (.sendTo buildPtrQuery)
        return .park devices
  | .recv result => do return .park (← receive parsePacket devices result)

def startUp : Coro mdnsSig (Flow DeviceTable) := do
  match ← ask .fromStd with
  | .error _ => return .exit []
  | .ok () => do
      ask .subscribe
      return .park []

/-- `run_with_dest`. -/
def runWithDest : EventLoop mdnsSig DeviceTable Branch where
  prelude := startUp
  guard _ _ := True
  body := branchBody parsePacket

/-! ## The surroundings -/

/-- How the operations of the loop are answered: the socket may fail at any
time, a subscription is made from the token as it is. -/
inductive Answers (token : Shutdown) (receiver : Option Receiver) :
    (op : Op) → op.Ans → Option Receiver → Prop
  | fromStd (result : Except IoError Unit) : Answers token receiver .fromStd result receiver
  | subscribe : Answers token receiver .subscribe () (some token.subscribe)
  | sendTo {packet : List Byte} (result : Except IoError Unit) :
      Answers token receiver (.sendTo packet) result receiver
  | emit {event : BackendEvent} : Answers token receiver (.emit event) () receiver

/-- Which branch is ready: ticks, rescans and packets at any time, the end of
the rescan sender once it is gone, and the token when it was not seen yet.
The loop holds a sender of the token itself, so that branch never closes. -/
inductive Fires (token : Shutdown) (rescanHeld : Bool) (receiver : Option Receiver) :
    Branch → Option Receiver → Prop
  | shutdown {r : Receiver} (hReceiver : receiver = some r) (hReady : r.Ready token) :
      Fires token rescanHeld receiver (.shutdown false token.isShuttingDown)
        (some token.subscribe)
  | tick : Fires token rescanHeld receiver .tick receiver
  | rescan (hHeld : rescanHeld = true) :
      Fires token rescanHeld receiver (.rescan false) receiver
  | closed (hHeld : rescanHeld = false) :
      Fires token rescanHeld receiver (.rescan true) receiver
  | recv (result : Except IoError (List Byte)) :
      Fires token rescanHeld receiver (.recv result) receiver

/-- The surroundings of the loop, as they are at one moment: what they keep
for it is its receiver. -/
def surroundings (token : Shutdown) (rescanHeld : Bool) :
    Environment mdnsSig DeviceTable Branch (Option Receiver) Empty where
  init receiver := receiver = none
  answers := Answers token
  parks receiver _ receiver' := receiver' = receiver
  fires receiver _ := Fires token rescanHeld receiver
  moves _ _ _ := False

end CastApp.Cast.Mdns
