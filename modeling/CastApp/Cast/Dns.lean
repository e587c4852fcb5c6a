import CastApp.Cast.Mdns
import CastApp.Util.Utf8

/-!
# DNS packets

The cursor over a packet: bytes, integers and slices with their bounds checks,
names with compression pointers, and resource records.  A read that fails
leaves the cursor somewhere, and that somewhere is part of the result.  What
would be a panic in the source is a failure of its own here, apart from the
errors a packet is refused with.

* `bind_ok`, `bind_error` — a sequence of reads, taken apart.
* `readU8_inPacket`, `take_inPacket`, `readName_inPacket` — the cursor never
  leaves the packet.
-/

namespace CastApp.Cast.Dns

open CastApp.State
open CastApp.Util.Utf8
open CastApp.Cast.Mdns (DnsError)

/-- How many compression pointers a name may follow. -/
def maxPointerDepth : Nat := 4

inductive Failure : Type
  | dns (error : DnsError)
  /-- An index or a slice past the end, which would be a panic. -/
  | indexOutOfBounds
  /-- A subtraction below zero, which would be a panic. -/
  | subtractOverflow
  /-- The bound on the turns of a loop was too small. -/
  | outOfTurns
  deriving DecidableEq, Repr

/-! ## The cursor -/

structure Parser where
  data : List Byte
  pos : Nat
  deriving DecidableEq, Repr

abbrev Parse : Type → Type := EStateM Failure Parser

/-- The result and the cursor a read ends with. -/
abbrev Outcome : Type → Type := EStateM.Result Failure Parser

namespace Parser

/-- The cursor is in the packet or just behind it. -/
def InPacket (p : Parser) : Prop := p.pos ≤ p.data.length

end Parser

def readU8 : Parse Byte := fun p =>
  if p.pos ≥ p.data.length then .error (.dns (.truncated p.data.length)) p
  else
    match p.data[p.pos]? with
    | some byte => .ok byte { p with pos := p.pos + 1 }
    | none => .error .indexOutOfBounds p

def readU16 : Parse UInt16 := do
  let hi ← readU8
  let lo ← readU8
  return hi.toUInt16 <<< 8 ||| lo.toUInt16

def readU32 : Parse UInt32 := do
  let a ← readU8
  let b ← readU8
  let c ← readU8
  let d ← readU8
  return a.toUInt32 <<< 24 ||| b.toUInt32 <<< 16 ||| c.toUInt32 <<< 8 ||| d.toUInt32

def take (len : Nat) : Parse (List Byte) := fun p =>
  if p.data.length < p.pos then .error .subtractOverflow p
  else if len > p.data.length - p.pos then .error (.dns (.truncated p.data.length)) p
  else if p.data.length < p.pos + len then .error .indexOutOfBounds p
  else .ok ((p.data.drop p.pos).take len) { p with pos := p.pos + len }

/-- A read elsewhere in the packet, behind which the cursor is where it was:
a saved and restored position, or a second cursor. -/
def readAt {α : Type} (offset : Nat) (read : Parse α) : Parse α := fun p =>
  match read { p with pos := offset } with
  | .ok a _ => .ok a p
  | .error failure _ => .error failure p

/-! ## Names -/

/-- The loop of `read_name_into`.  Each turn and each pointer takes one of the
`turns`. -/
def readNameInto : Nat → List String → Nat → List Nat → Parse (List String)
  | 0, _, _, _ => throw .outOfTurns
  | turns + 1, labels, depth, visited => do
      let byte ← readU8
      if byte = 0 then
        return labels
      else if byte &&& 0xC0 = 0xC0 then
        if depth ≥ maxPointerDepth then
          throw (.dns .pointerDepthExceeded)
        else
          let low ← readU8
          let offset := (byte &&& 0x3F).toNat <<< 8 ||| low.toNat
          let p ← get
          if offset ≥ p.data.length then
            throw (.dns (.pointerOutOfBounds offset))
          else if offset ∈ visited then
            throw (.dns .pointerCycle)
          else
            readAt offset (readNameInto turns labels (depth + 1) (visited ++ [offset]))
      else if byte &&& 0xC0 ≠ 0 then
        throw (.dns (.badLabelLength byte))
      else
        let label ← take byte.toNat
        readNameInto turns (labels ++ [fromUtf8Lossy label]) depth visited

/-- Every pointer starts over with at most the whole packet to go through. -/
def nameTurns (data : List Byte) : Nat := (maxPointerDepth + 1) * (data.length + 1)

def readName : Parse String := do
  let p ← get
  let labels ← readNameInto (nameTurns p.data) [] 0 []
  return ".".intercalate labels

/-! ## Records -/

def typeA : UInt16 := 1

def typePtr : UInt16 := 12

def typeTxt : UInt16 := 16

def typeSrv : UInt16 := 33

inductive RecordData : Type
  /-- The service instance. -/
  | ptr (inst : String)
  | srv (priority weight port : UInt16) (target : String)
  | txt (strings : List (List Byte))
  | a (ip : BitVec 32)
  /-- A record discovery has no use for. -/
  | other
  deriving DecidableEq, Repr

structure DnsRecord where
  owner : String
  recordType : UInt16
  ttl : UInt32
  rdata : RecordData
  deriving DecidableEq, Repr

/-- The loop over character-strings, up to `stop`. -/
def readStrings (stop : Nat) : Nat → List (List Byte) → Parse (List (List Byte))
  | 0, strings => do
      let p ← get
      if p.pos < stop then throw .outOfTurns else return strings
  | turns + 1, strings => do
      let p ← get
      if p.pos < stop then
        let len ← readU8
        let string ← take len.toNat
        readStrings stop turns (strings ++ [string])
      else
        return strings

def readSrv : Parse RecordData := do
  let priority ← readU16
  let weight ← readU16
  let port ← readU16
  let target ← readName
  return .srv priority weight port target

/-- `Ipv4Addr::new`. -/
def ipv4Of : List Byte → Parse (BitVec 32)
  | a :: b :: c :: d :: _ =>
      return BitVec.ofNat 32 (((a.toNat * 256 + b.toNat) * 256 + c.toNat) * 256 + d.toNat)
  | _ => throw .indexOutOfBounds

def readA : Parse RecordData := do
  let octets ← take 4
  let ip ← ipv4Of octets
  return .a ip

/-- The record data, which starts at the cursor. -/
def readData (recordType : UInt16) (rdlength : Nat) : Parse RecordData := do
  let p ← get
  if recordType = typePtr then
    let inst ← readName
    return .ptr inst
  else if recordType = typeSrv then
    readSrv
  else if recordType = typeTxt then
    let strings ← readStrings (p.pos + rdlength) rdlength []
    return .txt strings
  else if recordType = typeA then
    readA
  else
    return .other

def readRecord : Parse DnsRecord := do
  let owner ← readName
  let recordType ← readU16
  let _ ← readU16
  let ttl ← readU32
  let rdlength ← readU16
  let p ← get
  let _ ← take rdlength.toNat
  let rdata ← readAt p.pos (readData recordType rdlength.toNat)
  return ⟨owner, recordType, ttl, rdata⟩

/-! ## What a read does -/

section Reads

variable {α β : Type} {data : List Byte} {pos : Nat}

theorem bind_apply (x : Parse α) (f : α → Parse β) (p : Parser) :
    (x >>= f) p =
      match x p with
      | .ok a p => f a p
      | .error failure p => .error failure p := by
  show EStateM.bind x f p = _
  unfold EStateM.bind
  cases x p with
  | ok a q => rfl
  | error failure q => rfl

/-- A sequence that succeeds, taken apart. -/
theorem bind_ok {x : Parse α} {f : α → Parse β} {p q : Parser} {b : β} :
    (x >>= f) p = .ok b q ↔ ∃ a r, x p = .ok a r ∧ f a r = .ok b q := by
  rw [bind_apply]
  cases x p with
  | ok a r =>
      constructor
      · exact fun h => ⟨a, r, rfl, h⟩
      · rintro ⟨_, _, hFirst, h⟩
        cases hFirst
        exact h
  | error failure r => simp

/-- A sequence that fails does so in its first part or in its second. -/
theorem bind_error {x : Parse α} {f : α → Parse β} {p q : Parser} {failure : Failure} :
    (x >>= f) p = .error failure q ↔
      x p = .error failure q ∨ ∃ a r, x p = .ok a r ∧ f a r = .error failure q := by
  rw [bind_apply]
  cases x p with
  | ok a r =>
      constructor
      · exact fun h => .inr ⟨a, r, rfl, h⟩
      · rintro (hFirst | ⟨_, _, hFirst, h⟩)
        · cases hFirst
        · cases hFirst
          exact h
  | error failure r => simp

theorem readU8_some {byte : Byte} (h : data[pos]? = some byte) :
    readU8 ⟨data, pos⟩ = .ok byte ⟨data, pos + 1⟩ := by
  obtain ⟨hPos, hByte⟩ := List.getElem?_eq_some_iff.mp h
  unfold readU8
  rw [if_neg (by simp only; omega)]
  simp only [h]

theorem readU8_none (h : data[pos]? = none) :
    readU8 ⟨data, pos⟩ = .error (.dns (.truncated data.length)) ⟨data, pos⟩ := by
  unfold readU8
  exact if_pos (List.getElem?_eq_none_iff.mp h)

/-- The next `len` bytes. -/
def slice (data : List Byte) (pos len : Nat) : List Byte := (data.drop pos).take len

theorem length_slice {len : Nat} (h : pos + len ≤ data.length) :
    (slice data pos len).length = len := by
  simp only [slice, List.length_take, List.length_drop]
  omega

theorem take_fits {len : Nat} (h : pos + len ≤ data.length) :
    take len ⟨data, pos⟩ = .ok (slice data pos len) ⟨data, pos + len⟩ := by
  unfold take
  simp only
  rw [if_neg (by omega), if_neg (by omega), if_neg (by omega)]
  rfl

theorem take_short {len : Nat} (hPos : pos ≤ data.length) (h : data.length < pos + len) :
    take len ⟨data, pos⟩ = .error (.dns (.truncated data.length)) ⟨data, pos⟩ := by
  unfold take
  simp only
  rw [if_neg (by omega), if_pos (by omega)]

theorem readAt_ok {offset : Nat} {read : Parse α} {p q : Parser} {a : α} :
    readAt offset read p = .ok a q ↔ q = p ∧ ∃ r, read ⟨p.data, offset⟩ = .ok a r := by
  unfold readAt
  cases read { p with pos := offset } with
  | ok b r =>
      simp only [EStateM.Result.ok.injEq]
      constructor
      · rintro ⟨rfl, rfl⟩
        exact ⟨rfl, r, rfl, rfl⟩
      · rintro ⟨rfl, r, rfl, rfl⟩
        exact ⟨rfl, rfl⟩
  | error failure r => simp

theorem readAt_error {offset : Nat} {read : Parse α} {p q : Parser} {failure : Failure} :
    readAt offset read p = .error failure q ↔
      q = p ∧ ∃ r, read ⟨p.data, offset⟩ = .error failure r := by
  unfold readAt
  cases read { p with pos := offset } with
  | ok b r => simp
  | error found r =>
      simp only [EStateM.Result.error.injEq]
      constructor
      · rintro ⟨rfl, rfl⟩
        exact ⟨rfl, r, rfl, rfl⟩
      · rintro ⟨rfl, r, rfl, rfl⟩
        exact ⟨rfl, rfl⟩

end Reads

/-! ## The cursor stays in the packet -/

/-- The cursor behind a read, whether it succeeded or not. -/
def cursor {α : Type} : Outcome α → Parser
  | .ok _ p => p
  | .error _ p => p

/-- A read that leaves the cursor in the packet. -/
def StaysInPacket {α : Type} (read : Parse α) : Prop :=
  ∀ p, p.InPacket → (cursor (read p)).data = p.data ∧ (cursor (read p)).InPacket

section Cursor

variable {α β : Type}

theorem readU8_inPacket : StaysInPacket readU8 := by
  intro ⟨data, pos⟩ hPos
  cases hByte : data[pos]? with
  | none =>
      rw [readU8_none hByte]
      exact ⟨rfl, hPos⟩
  | some byte =>
      rw [readU8_some hByte]
      exact ⟨rfl, (List.getElem?_eq_some_iff.mp hByte).1⟩

theorem take_inPacket (len : Nat) : StaysInPacket (take len) := by
  intro ⟨data, pos⟩ hPos
  have hPos : pos ≤ data.length := hPos
  by_cases hFits : pos + len ≤ data.length
  · rw [take_fits hFits]
    exact ⟨rfl, hFits⟩
  · rw [take_short hPos (by omega)]
    exact ⟨rfl, hPos⟩

theorem StaysInPacket.bind {x : Parse α} {f : α → Parse β} (h : StaysInPacket x)
    (hThen : ∀ a, StaysInPacket (f a)) : StaysInPacket (x >>= f) := by
  intro p hPos
  have hFirst := h p hPos
  rw [bind_apply]
  cases hRead : x p with
  | ok a q =>
      rw [hRead] at hFirst
      obtain ⟨hData, hInPacket⟩ := hThen a q hFirst.2
      exact ⟨hData.trans hFirst.1, hInPacket⟩
  | error failure q =>
      rw [hRead] at hFirst
      exact hFirst

theorem stays_pure (a : α) : StaysInPacket (pure a) := fun _ hPos => ⟨rfl, hPos⟩

theorem stays_throw (failure : Failure) : StaysInPacket (throw failure : Parse α) :=
  fun _ hPos => ⟨rfl, hPos⟩

theorem stays_get : StaysInPacket get := fun _ hPos => ⟨rfl, hPos⟩

/-- A read elsewhere leaves the cursor where it was. -/
theorem readAt_inPacket (offset : Nat) (read : Parse α) : StaysInPacket (readAt offset read) := by
  intro p hPos
  have hCursor : cursor (readAt offset read p) = p := by
    unfold readAt
    cases read { p with pos := offset } with
    | ok a q => rfl
    | error failure q => rfl
  rw [hCursor]
  exact ⟨rfl, hPos⟩

theorem readNameInto_inPacket (turns : Nat) (labels : List String) (depth : Nat)
    (visited : List Nat) : StaysInPacket (readNameInto turns labels depth visited) := by
  induction turns generalizing labels depth visited with
  | zero => exact stays_throw _
  | succ turns ih =>
      unfold readNameInto
      refine readU8_inPacket.bind fun byte => ?_
      split
      · exact stays_pure _
      · split
        · split
          · exact stays_throw _
          · refine readU8_inPacket.bind fun low => stays_get.bind fun p => ?_
            split
            · exact stays_throw _
            · split
              · exact stays_throw _
              · exact readAt_inPacket _ _
        · split
          · exact stays_throw _
          · exact (take_inPacket _).bind fun label => ih _ _ _

theorem readName_inPacket : StaysInPacket readName :=
  stays_get.bind fun _ => (readNameInto_inPacket _ _ _ _).bind fun _ => stays_pure _

end Cursor

end CastApp.Cast.Dns
