import CastApp.Cast.Rdata
import CastApp.Cast.Correlate

/-!
# Packets

`parse_packet`: the header with its counts, the questions, which are skipped,
and the records of all three sections, which are correlated.  Nothing is asked
of a packet but its bytes: identifier and flags are not looked at, and what
lies behind the last record is not either.

* `Proper`, `readMessage_proper` — a read that cannot panic: it is in the
  packet, and what it fails with is an error of the packet.
* `RecordAt`, `readRecord_iff` — what a record is, byte by byte.
* `parsePacket_iff` — what the parser accepts, and what it makes of it.
* `parsePacket_total`, `parsePacket_take` — of every packet, whoever
  sent it, and of what is left of one that arrives short.
-/

namespace CastApp.Cast.Dns

open CastApp.State
open CastApp.Util.Utf8
open CastApp.Cast.Mdns (DnsError DiscoveredDevice)
open CastApp.Cast.Correlate (correlate)

variable {data : List Byte} {pos : Nat}

/-! ## The parser -/

def readQuestion : Parse Unit := do
  let _ ← readName
  let _ ← readU16
  let _ ← readU16

def readQuestions : Nat → Parse Unit
  | 0 => return ()
  | count + 1 => do
      readQuestion
      readQuestions count

def readRecords : Nat → List DnsRecord → Parse (List DnsRecord)
  | 0, records => return records
  | count + 1, records => do
      let record ← readRecord
      readRecords count (records ++ [record])

/-- Answers, authorities and additional records, in one count. -/
def recordCount (ancount nscount arcount : UInt16) : Nat :=
  (ancount.toUInt32 + nscount.toUInt32 + arcount.toUInt32).toNat

def readMessage : Parse (List DnsRecord) := do
  let _ ← readU16
  let _ ← readU16
  let qdcount ← readU16
  let ancount ← readU16
  let nscount ← readU16
  let arcount ← readU16
  readQuestions qdcount.toNat
  readRecords (recordCount ancount nscount arcount) []

/-- `parse_packet`, with the failures that would be panics. -/
def parsePacket (data : List Byte) : Except Failure (List DiscoveredDevice) :=
  match readMessage ⟨data, 0⟩ with
  | .ok records _ => .ok (correlate records)
  | .error failure _ => .error failure

theorem recordCount_eq (ancount nscount arcount : UInt16) :
    recordCount ancount nscount arcount = ancount.toNat + nscount.toNat + arcount.toNat := by
  have hAn := ancount.toNat_lt
  have hNs := nscount.toNat_lt
  have hAr := arcount.toNat_lt
  unfold recordCount
  rw [UInt32.toNat_add, UInt32.toNat_add, UInt16.toNat_toUInt32, UInt16.toNat_toUInt32,
    UInt16.toNat_toUInt32]
  omega

/-! ## No read can panic -/

/-- The cursor stays in the packet, and a failure is one of the packet's
errors. -/
structure ProperAt {α : Type} (read : Parse α) (p : Parser) : Prop where
  hData : (cursor (read p)).data = p.data
  hInPacket : (cursor (read p)).InPacket
  hRefuses : ∀ failure q, read p = .error failure q → ∃ error, failure = .dns error

/-- From anywhere in the packet. -/
def Proper {α : Type} (read : Parse α) : Prop := ∀ p, p.InPacket → ProperAt read p

section Proper

variable {α β : Type} {p : Parser}

theorem ProperAt.bind {x : Parse α} {f : α → Parse β} (h : ProperAt x p)
    (hThen : ∀ a r, x p = .ok a r → r.data = p.data → r.InPacket → ProperAt (f a) r) :
    ProperAt (x >>= f) p := by
  obtain ⟨hData, hInPacket, hRefuses⟩ := h
  cases hRead : x p with
  | error failure r =>
      have hBind : (x >>= f) p = .error failure r := bind_error.mpr (.inl hRead)
      rw [hRead] at hData hInPacket
      refine ⟨by rw [hBind]; exact hData, by rw [hBind]; exact hInPacket, ?_⟩
      intro found q hFound
      rw [hBind] at hFound
      cases hFound
      exact hRefuses failure r hRead
  | ok a r =>
      have hBind : (x >>= f) p = f a r := by rw [bind_apply, hRead]
      rw [hRead] at hData hInPacket
      obtain ⟨hDataThen, hInPacketThen, hRefusesThen⟩ := hThen a r hRead hData hInPacket
      refine ⟨?_, by rw [hBind]; exact hInPacketThen, by rw [hBind]; exact hRefusesThen⟩
      rw [hBind, hDataThen]
      exact hData

theorem Proper.bind {x : Parse α} {f : α → Parse β} (h : Proper x) (hThen : ∀ a, Proper (f a)) :
    Proper (x >>= f) :=
  fun p hPos => (h p hPos).bind fun a r _ _ hIn => hThen a r hIn

theorem proper_ok {read : Parse α} {a : α} (hPos : p.InPacket) (h : read p = .ok a p) :
    ProperAt read p where
  hData := by rw [h]; rfl
  hInPacket := by rw [h]; exact hPos
  hRefuses := by
    intro failure q hRead
    rw [h] at hRead
    cases hRead

theorem proper_pure (a : α) : Proper (pure a : Parse α) := fun _ hPos => proper_ok hPos rfl

theorem proper_get : Proper (get : Parse Parser) := fun p hPos =>
  ⟨rfl, hPos, fun _ _ hRead => by cases hRead⟩

theorem proper_readU8 : Proper readU8 := by
  intro ⟨data, pos⟩ hPos
  refine ⟨(readU8_inPacket _ hPos).1, (readU8_inPacket _ hPos).2, ?_⟩
  intro failure q hRead
  cases hByte : data[pos]? with
  | none =>
      rw [readU8_none hByte] at hRead
      cases hRead
      exact ⟨_, rfl⟩
  | some byte =>
      rw [readU8_some hByte] at hRead
      cases hRead

theorem proper_readU16 : Proper readU16 :=
  proper_readU8.bind fun _ => proper_readU8.bind fun _ => proper_pure _

theorem proper_readU32 : Proper readU32 :=
  proper_readU8.bind fun _ => proper_readU8.bind fun _ => proper_readU8.bind fun _ =>
    proper_readU8.bind fun _ => proper_pure _

theorem proper_take (len : Nat) : Proper (take len) := by
  intro ⟨data, pos⟩ hPos
  refine ⟨(take_inPacket len _ hPos).1, (take_inPacket len _ hPos).2, ?_⟩
  intro failure q hRead
  have hPos : pos ≤ data.length := hPos
  by_cases hFits : pos + len ≤ data.length
  · rw [take_fits hFits] at hRead
    cases hRead
  · rw [take_short hPos (by omega)] at hRead
    cases hRead
    exact ⟨_, rfl⟩

theorem proper_readName : Proper readName := fun p hPos =>
  ⟨(readName_inPacket p hPos).1, (readName_inPacket p hPos).2, fun _ _ hRead =>
    readName_refuses hRead⟩

theorem proper_readAt {read : Parse α} {offset : Nat} (hPos : p.InPacket)
    (h : ProperAt read ⟨p.data, offset⟩) : ProperAt (readAt offset read) p := by
  have hStays := readAt_inPacket offset read p hPos
  refine ⟨hStays.1, hStays.2, ?_⟩
  intro failure q hRead
  obtain ⟨-, r, hRead⟩ := readAt_error.mp hRead
  exact h.hRefuses failure r hRead

theorem proper_readSrv : Proper readSrv :=
  proper_readU16.bind fun _ => proper_readU16.bind fun _ => proper_readU16.bind fun _ =>
    proper_readName.bind fun _ => proper_pure _

/-- Four bytes are always an address. -/
theorem proper_readA : Proper readA := by
  intro ⟨data, pos⟩ hPos
  refine (proper_take 4 _ hPos).bind fun octets r hTake _ hIn => ?_
  have hFour := (take_ok hTake).1
  refine ProperAt.bind ?_ fun ip r _ _ hIn => proper_pure _ r hIn
  match octets, hFour with
  | [a, b, c, d], _ => exact proper_ok hIn rfl

/-- The loop over character-strings needs no more turns than there are bytes
of record data. -/
theorem proper_readStrings {stop : Nat} (turns : Nat) (strings : List (List Byte))
    (hPos : p.InPacket) (hTurns : stop ≤ p.pos + turns) :
    ProperAt (readStrings stop turns strings) p := by
  induction turns generalizing strings p with
  | zero => exact proper_ok hPos (readStrings_stop (by omega) 0 strings)
  | succ turns ih =>
      obtain ⟨data, pos⟩ := p
      by_cases hMore : pos < stop
      · have hTurn : ProperAt (readU8 >>= fun len => take len.toNat >>= fun string =>
            readStrings stop turns (strings ++ [string])) ⟨data, pos⟩ := by
          refine (proper_readU8 _ hPos).bind fun len r hLen _ hIn => ?_
          obtain ⟨-, rfl⟩ := readU8_ok hLen
          refine (proper_take _ _ hIn).bind fun string r hTake _ hIn => ?_
          obtain ⟨-, -, rfl⟩ := take_ok hTake
          exact ih _ hIn (by simp only at hTurns ⊢; omega)
        obtain ⟨hData, hInPacket, hRefuses⟩ := hTurn
        rw [← readStrings_turn hMore] at hData hInPacket hRefuses
        exact ⟨hData, hInPacket, hRefuses⟩
      · exact proper_ok hPos (readStrings_stop (by omega) _ strings)

theorem proper_readData (recordType : UInt16) (rdlength : Nat) :
    Proper (readData recordType rdlength) := by
  intro p hPos
  refine (proper_get p hPos).bind fun _ r hGet _ hIn => ?_
  cases hGet
  by_cases hPtr : recordType = typePtr
  · rw [if_pos hPtr]
    exact proper_readName.bind (fun _ => proper_pure _) p hPos
  rw [if_neg hPtr]
  by_cases hSrv : recordType = typeSrv
  · rw [if_pos hSrv]
    exact proper_readSrv p hPos
  rw [if_neg hSrv]
  by_cases hTxt : recordType = typeTxt
  · rw [if_pos hTxt]
    exact (proper_readStrings rdlength [] hPos (Nat.le_refl _)).bind
      fun _ r _ _ hIn => proper_pure _ r hIn
  rw [if_neg hTxt]
  by_cases hA : recordType = typeA
  · rw [if_pos hA]
    exact proper_readA p hPos
  · rw [if_neg hA]
    exact proper_pure _ p hPos

theorem proper_readRecord : Proper readRecord := by
  refine proper_readName.bind fun owner => proper_readU16.bind fun recordType =>
    proper_readU16.bind fun _ => proper_readU32.bind fun ttl => proper_readU16.bind
      fun rdlength => ?_
  intro p hPos
  refine (proper_get p hPos).bind fun _ r hGet _ _ => ?_
  cases hGet
  refine (proper_take _ p hPos).bind fun _ r _ hData hIn => ?_
  refine (proper_readAt hIn ?_).bind fun _ r _ _ hIn => proper_pure _ r hIn
  rw [hData]
  exact proper_readData _ _ p hPos

theorem proper_readQuestions (count : Nat) : Proper (readQuestions count) := by
  induction count with
  | zero => exact proper_pure _
  | succ count ih =>
      exact (proper_readName.bind fun _ => proper_readU16.bind fun _ =>
        proper_readU16.bind fun _ => proper_pure _).bind fun _ => ih

theorem proper_readRecords (count : Nat) (records : List DnsRecord) :
    Proper (readRecords count records) := by
  induction count generalizing records with
  | zero => exact proper_pure _
  | succ count ih => exact proper_readRecord.bind fun record => ih _

theorem proper_readMessage : Proper readMessage :=
  proper_readU16.bind fun _ => proper_readU16.bind fun _ => proper_readU16.bind fun _ =>
    proper_readU16.bind fun _ => proper_readU16.bind fun _ => proper_readU16.bind fun _ =>
      (proper_readQuestions _).bind fun _ => proper_readRecords _ _

end Proper

/-! ## What a message is -/

/-- A name at an offset, as it is decoded, and the offset behind it. -/
def NameAt (data : List Byte) (pos : Nat) (name : String) (stop : Nat) : Prop :=
  ∃ labels targets, Resolves data pos labels targets stop ∧ targets.Nodup ∧
    targets.length ≤ maxPointerDepth ∧ name = ".".intercalate (labels.map fromUtf8Lossy)

def U16At (data : List Byte) (pos : Nat) (value : UInt16) : Prop :=
  ∃ hi lo, data.drop pos = hi :: lo :: data.drop (pos + 2) ∧ value = be16 hi lo

def U32At (data : List Byte) (pos : Nat) (value : UInt32) : Prop :=
  ∃ a b c d, data.drop pos = a :: b :: c :: d :: data.drop (pos + 4) ∧ value = be32 a b c d

/-- Character-strings from an offset on, up to the first that does not start
before `stop`. -/
inductive StringsAt (data : List Byte) (stop : Nat) : Nat → List (List Byte) → Prop
  | done {pos : Nat} (hStop : stop ≤ pos) : StringsAt data stop pos []
  | string {pos : Nat} {len : Byte} {strings : List (List Byte)} (hMore : pos < stop)
      (hByte : data[pos]? = some len) (hFits : pos + 1 + len.toNat ≤ data.length)
      (hRest : StringsAt data stop (pos + 1 + len.toNat) strings) :
      StringsAt data stop pos (slice data (pos + 1) len.toNat :: strings)

/-- Record data at an offset.  A name, a last string or an address may go on
behind the record. -/
inductive DataAt (data : List Byte) (pos len : Nat) : UInt16 → RecordData → Prop
  | ptr {inst : String} {stop : Nat} (hName : NameAt data pos inst stop) :
      DataAt data pos len typePtr (.ptr inst)
  | srv {priority weight port : UInt16} {target : String} {stop : Nat}
      (hPriority : U16At data pos priority) (hWeight : U16At data (pos + 2) weight)
      (hPort : U16At data (pos + 4) port) (hTarget : NameAt data (pos + 6) target stop) :
      DataAt data pos len typeSrv (.srv priority weight port target)
  | txt {strings : List (List Byte)} (hStrings : StringsAt data (pos + len) pos strings) :
      DataAt data pos len typeTxt (.txt strings)
  | a {a b c d : Byte} (hOctets : data.drop pos = a :: b :: c :: d :: data.drop (pos + 4)) :
      DataAt data pos len typeA
        (.a (BitVec.ofNat 32 (((a.toNat * 256 + b.toNat) * 256 + c.toNat) * 256 + d.toNat)))
  | other {recordType : UInt16} (hPtr : recordType ≠ typePtr) (hSrv : recordType ≠ typeSrv)
      (hTxt : recordType ≠ typeTxt) (hA : recordType ≠ typeA) :
      DataAt data pos len recordType .other

/-- A record at an offset, and the offset behind it. -/
inductive RecordAt (data : List Byte) (pos : Nat) : DnsRecord → Nat → Prop
  | mk {owner : String} {after : Nat} {recordType cls rdlength : UInt16} {ttl : UInt32}
      {rdata : RecordData} (hOwner : NameAt data pos owner after)
      (hType : U16At data after recordType) (hClass : U16At data (after + 2) cls)
      (hTtl : U32At data (after + 4) ttl) (hLength : U16At data (after + 8) rdlength)
      (hFits : after + 10 + rdlength.toNat ≤ data.length)
      (hData : DataAt data (after + 10) rdlength.toNat recordType rdata) :
      RecordAt data pos ⟨owner, recordType, ttl, rdata⟩ (after + 10 + rdlength.toNat)

inductive RecordsAt (data : List Byte) : Nat → List DnsRecord → Nat → Prop
  | nil {pos : Nat} : RecordsAt data pos [] pos
  | cons {pos next stop : Nat} {record : DnsRecord} {records : List DnsRecord}
      (hRecord : RecordAt data pos record next) (hRest : RecordsAt data next records stop) :
      RecordsAt data pos (record :: records) stop

inductive QuestionsAt (data : List Byte) : Nat → Nat → Nat → Prop
  | nil {pos : Nat} : QuestionsAt data pos 0 pos
  | cons {pos after stop count : Nat} {name : String} {qtype qclass : UInt16}
      (hName : NameAt data pos name after) (hType : U16At data after qtype)
      (hClass : U16At data (after + 2) qclass)
      (hRest : QuestionsAt data (after + 4) count stop) : QuestionsAt data pos (count + 1) stop

/-- A message from the start of a packet: as many questions and records as the
header counts. -/
inductive MessageAt (data : List Byte) : List DnsRecord → Nat → Prop
  | mk {id flags qdcount ancount nscount arcount : UInt16} {after stop : Nat}
      {records : List DnsRecord} (hId : U16At data 0 id) (hFlags : U16At data 2 flags)
      (hQd : U16At data 4 qdcount) (hAn : U16At data 6 ancount) (hNs : U16At data 8 nscount)
      (hAr : U16At data 10 arcount) (hQuestions : QuestionsAt data 12 qdcount.toNat after)
      (hRecords : RecordsAt data after records stop)
      (hCount : records.length = ancount.toNat + nscount.toNat + arcount.toNat) :
      MessageAt data records stop

/-! ## The parser finds the messages -/

section Grammar

variable {q : Parser}

theorem readName_iff {name : String} :
    readName ⟨data, pos⟩ = .ok name q ↔ ∃ stop, q = ⟨data, stop⟩ ∧ NameAt data pos name stop := by
  rw [readName_ok_iff]
  constructor
  · rintro ⟨rfl, hName⟩
    exact ⟨q.pos, rfl, hName⟩
  · rintro ⟨stop, rfl, hName⟩
    exact ⟨rfl, hName⟩

theorem readU16_iff {value : UInt16} :
    readU16 ⟨data, pos⟩ = .ok value q ↔ q = ⟨data, pos + 2⟩ ∧ U16At data pos value := by
  constructor
  · intro h
    obtain ⟨hi, lo, hDrop, hValue, rfl⟩ := readU16_ok h
    exact ⟨rfl, hi, lo, hDrop, hValue⟩
  · rintro ⟨rfl, hi, lo, hDrop, rfl⟩
    exact readU16_drop hDrop

theorem readU32_iff {value : UInt32} :
    readU32 ⟨data, pos⟩ = .ok value q ↔ q = ⟨data, pos + 4⟩ ∧ U32At data pos value := by
  constructor
  · intro h
    obtain ⟨a, b, c, d, hDrop, hValue, rfl⟩ := readU32_ok h
    exact ⟨rfl, a, b, c, d, hDrop, hValue⟩
  · rintro ⟨rfl, a, b, c, d, hDrop, rfl⟩
    exact readU32_drop hDrop

theorem take_iff {len : Nat} {bytes : List Byte} (hPos : pos ≤ data.length) :
    take len ⟨data, pos⟩ = .ok bytes q ↔
      q = ⟨data, pos + len⟩ ∧ pos + len ≤ data.length ∧ bytes = slice data pos len := by
  by_cases hFits : pos + len ≤ data.length
  · rw [take_fits hFits]
    constructor
    · intro h
      cases h
      exact ⟨rfl, hFits, rfl⟩
    · rintro ⟨rfl, -, rfl⟩
      rfl
  · rw [take_short hPos (by omega)]
    constructor
    · intro h
      cases h
    · rintro ⟨-, hInside, -⟩
      exact absurd hInside hFits

/-- The loop finds the strings that are there. -/
theorem readStrings_iff {stop : Nat} (turns : Nat) {strings out : List (List Byte)}
    (hPos : pos ≤ data.length) (hTurns : stop ≤ pos + turns) :
    (∃ q, readStrings stop turns strings ⟨data, pos⟩ = .ok out q) ↔
      ∃ found, out = strings ++ found ∧ StringsAt data stop pos found := by
  induction turns generalizing strings pos with
  | zero =>
      rw [readStrings_stop (by omega)]
      constructor
      · rintro ⟨q, h⟩
        cases h
        exact ⟨[], by simp, .done (by omega)⟩
      · rintro ⟨found, rfl, hFound⟩
        cases hFound with
        | done hStop => exact ⟨_, by rw [List.append_nil]⟩
        | string hMore => omega
  | succ turns ih =>
      by_cases hMore : pos < stop
      · rw [readStrings_turn hMore]
        constructor
        · rintro ⟨q, h⟩
          obtain ⟨len, r, hLen, h⟩ := bind_ok.mp h
          obtain ⟨hDrop, rfl⟩ := readU8_ok hLen
          obtain ⟨hByte, -, hInside⟩ := drop_cons hDrop
          obtain ⟨string, r, hTake, h⟩ := bind_ok.mp h
          obtain ⟨rfl, hFits, rfl⟩ := (take_iff hInside).mp hTake
          obtain ⟨found, rfl, hFound⟩ := (ih hFits (by omega)).mp ⟨q, h⟩
          exact ⟨_ :: found, by simp, .string hMore hByte hFits hFound⟩
        · rintro ⟨found, rfl, hFound⟩
          cases hFound with
          | done hStop => omega
          | @string _ len found _ hByte hFits hRest =>
              have hOut : strings ++ slice data (pos + 1) len.toNat :: found =
                  strings ++ [slice data (pos + 1) len.toNat] ++ found := by simp
              obtain ⟨q, h⟩ := (ih hFits (by omega)).mpr ⟨found, hOut, hRest⟩
              exact ⟨q, bind_ok.mpr ⟨len, _, readU8_some hByte, bind_ok.mpr ⟨_, _,
                take_fits hFits, h⟩⟩⟩
      · rw [readStrings_stop (by omega)]
        constructor
        · rintro ⟨q, h⟩
          cases h
          exact ⟨[], by simp, .done (by omega)⟩
        · rintro ⟨found, rfl, hFound⟩
          cases hFound with
          | done hStop => exact ⟨_, by rw [List.append_nil]⟩
          | string hMore' => omega

theorem readSrv_iff {rdata : RecordData} {len : Nat} :
    (∃ q, readSrv ⟨data, pos⟩ = .ok rdata q) ↔ DataAt data pos len typeSrv rdata := by
  constructor
  · rintro ⟨q, h⟩
    obtain ⟨priority, r, hRead, h⟩ := bind_ok.mp h
    obtain ⟨rfl, hPriority⟩ := readU16_iff.mp hRead
    obtain ⟨weight, r, hRead, h⟩ := bind_ok.mp h
    obtain ⟨rfl, hWeight⟩ := readU16_iff.mp hRead
    obtain ⟨port, r, hRead, h⟩ := bind_ok.mp h
    obtain ⟨rfl, hPort⟩ := readU16_iff.mp hRead
    obtain ⟨target, r, hRead, h⟩ := bind_ok.mp h
    obtain ⟨stop, rfl, hTarget⟩ := readName_iff.mp hRead
    cases h
    exact .srv hPriority hWeight hPort hTarget
  · intro h
    cases h with
    | srv hPriority hWeight hPort hTarget =>
        refine ⟨_, bind_ok.mpr ⟨_, _, readU16_iff.mpr ⟨rfl, hPriority⟩, bind_ok.mpr ⟨_, _,
          readU16_iff.mpr ⟨rfl, hWeight⟩, bind_ok.mpr ⟨_, _, readU16_iff.mpr ⟨rfl, hPort⟩,
          bind_ok.mpr ⟨_, _, readName_iff.mpr ⟨_, rfl, hTarget⟩, rfl⟩⟩⟩⟩⟩
    | other _ hSrv => exact absurd rfl hSrv

theorem readA_iff {rdata : RecordData} {len : Nat} (hPos : pos ≤ data.length) :
    (∃ q, readA ⟨data, pos⟩ = .ok rdata q) ↔ DataAt data pos len typeA rdata := by
  constructor
  · rintro ⟨q, h⟩
    obtain ⟨octets, r, hTake, h⟩ := bind_ok.mp h
    obtain ⟨hFour, hDrop, rfl⟩ := take_ok hTake
    obtain ⟨ip, r, hIp, h⟩ := bind_ok.mp h
    match octets, hFour with
    | [a, b, c, d], _ =>
        cases hIp
        cases h
        exact .a hDrop
  · intro h
    cases h with
    | @a a b c d hOctets =>
        have hSplit : data.drop pos = [a, b, c, d] ++ data.drop (pos + 4) := hOctets
        exact ⟨_, bind_ok.mpr ⟨_, _, take_drop hSplit hPos, rfl⟩⟩
    | other _ _ _ hA => exact absurd rfl hA

theorem readData_ptr {len : Nat} :
    readData typePtr len ⟨data, pos⟩ = (readName >>= fun inst => pure (.ptr inst)) ⟨data, pos⟩ :=
  rfl

theorem readData_txt {len : Nat} :
    readData typeTxt len ⟨data, pos⟩ =
      (readStrings (pos + len) len [] >>= fun strings => pure (.txt strings)) ⟨data, pos⟩ := rfl

/-- The data of a record, decoded from where it starts. -/
theorem readData_iff {recordType : UInt16} {len : Nat} {rdata : RecordData}
    (hPos : pos ≤ data.length) :
    (∃ q, readData recordType len ⟨data, pos⟩ = .ok rdata q) ↔
      DataAt data pos len recordType rdata := by
  by_cases hPtr : recordType = typePtr
  · subst hPtr
    rw [readData_ptr]
    constructor
    · rintro ⟨q, h⟩
      obtain ⟨inst, r, hRead, h⟩ := bind_ok.mp h
      obtain ⟨stop, rfl, hName⟩ := readName_iff.mp hRead
      cases h
      exact .ptr hName
    · intro h
      cases h with
      | ptr hName => exact ⟨_, bind_ok.mpr ⟨_, _, readName_iff.mpr ⟨_, rfl, hName⟩, rfl⟩⟩
      | other hPtr => exact absurd rfl hPtr
  by_cases hSrv : recordType = typeSrv
  · subst hSrv
    exact readSrv_iff
  by_cases hTxt : recordType = typeTxt
  · subst hTxt
    have hStrings : ∀ out, (∃ q, readStrings (pos + len) len [] ⟨data, pos⟩ = .ok out q) ↔
        ∃ found, out = [] ++ found ∧ StringsAt data (pos + len) pos found :=
      fun out => readStrings_iff len hPos (Nat.le_refl _)
    rw [readData_txt]
    constructor
    · rintro ⟨q, h⟩
      obtain ⟨strings, r, hRead, h⟩ := bind_ok.mp h
      cases h
      obtain ⟨found, rfl, hFound⟩ := (hStrings strings).mp ⟨_, hRead⟩
      exact .txt hFound
    · intro h
      cases h with
      | @txt strings hFound =>
          obtain ⟨q, h⟩ := (hStrings strings).mpr ⟨strings, rfl, hFound⟩
          exact ⟨q, bind_ok.mpr ⟨_, _, h, rfl⟩⟩
      | other _ _ hTxt => exact absurd rfl hTxt
  by_cases hA : recordType = typeA
  · subst hA
    exact readA_iff hPos
  · rw [readData_other hPtr hSrv hTxt hA]
    constructor
    · rintro ⟨q, h⟩
      cases h
      exact .other hPtr hSrv hTxt hA
    · intro h
      cases h with
      | other => exact ⟨_, rfl⟩
      | ptr => exact absurd rfl hPtr
      | srv => exact absurd rfl hSrv
      | txt => exact absurd rfl hTxt
      | a => exact absurd rfl hA

theorem U16At.inside {value : UInt16} (h : U16At data pos value) : pos + 2 ≤ data.length := by
  obtain ⟨hi, lo, hDrop, -⟩ := h
  exact (drop_cons (drop_cons hDrop).2.1).2.2

theorem U32At.inside {value : UInt32} (h : U32At data pos value) : pos + 4 ≤ data.length := by
  obtain ⟨a, b, c, d, hDrop, -⟩ := h
  exact (drop_cons (drop_cons (drop_cons (drop_cons hDrop).2.1).2.1).2.1).2.2

/-- **What a record is.** -/
theorem readRecord_iff {record : DnsRecord} :
    readRecord ⟨data, pos⟩ = .ok record q ↔
      ∃ stop, q = ⟨data, stop⟩ ∧ RecordAt data pos record stop := by
  constructor
  · intro h
    obtain ⟨owner, r, hRead, h⟩ := bind_ok.mp h
    obtain ⟨after, rfl, hOwner⟩ := readName_iff.mp hRead
    obtain ⟨recordType, r, hRead, h⟩ := bind_ok.mp h
    obtain ⟨rfl, hType⟩ := readU16_iff.mp hRead
    obtain ⟨cls, r, hRead, h⟩ := bind_ok.mp h
    obtain ⟨rfl, hClass⟩ := readU16_iff.mp hRead
    obtain ⟨ttl, r, hRead, h⟩ := bind_ok.mp h
    obtain ⟨rfl, hTtl⟩ := readU32_iff.mp hRead
    obtain ⟨rdlength, r, hRead, h⟩ := bind_ok.mp h
    obtain ⟨rfl, hLength⟩ := readU16_iff.mp hRead
    obtain ⟨_, _, hGet, h⟩ := bind_ok.mp h
    cases hGet
    obtain ⟨bytes, r, hTake, h⟩ := bind_ok.mp h
    obtain ⟨rfl, hFits, -⟩ := (take_iff hLength.inside).mp hTake
    obtain ⟨rdata, r, hRead, h⟩ := bind_ok.mp h
    obtain ⟨rfl, hData⟩ := readAt_ok.mp hRead
    cases h
    exact ⟨_, rfl, .mk hOwner hType hClass hTtl hLength hFits
      ((readData_iff hLength.inside).mp hData)⟩
  · rintro ⟨stop, rfl, h⟩
    cases h with
    | mk hOwner hType hClass hTtl hLength hFits hData =>
        have hRead := (readData_iff hLength.inside).mpr hData
        refine bind_ok.mpr ⟨_, _, readName_iff.mpr ⟨_, rfl, hOwner⟩, bind_ok.mpr ⟨_, _,
          readU16_iff.mpr ⟨rfl, hType⟩, bind_ok.mpr ⟨_, _, readU16_iff.mpr ⟨rfl, hClass⟩,
          bind_ok.mpr ⟨_, _, readU32_iff.mpr ⟨rfl, hTtl⟩, bind_ok.mpr ⟨_, _,
          readU16_iff.mpr ⟨rfl, hLength⟩, bind_ok.mpr ⟨_, _, rfl, bind_ok.mpr ⟨_, _,
          (take_iff hLength.inside).mpr ⟨rfl, hFits, rfl⟩, bind_ok.mpr ⟨_, _,
          readAt_ok.mpr ⟨rfl, hRead⟩, rfl⟩⟩⟩⟩⟩⟩⟩⟩

theorem readRecords_iff (count : Nat) {records out : List DnsRecord} :
    readRecords count records ⟨data, pos⟩ = .ok out q ↔
      ∃ found stop, q = ⟨data, stop⟩ ∧ out = records ++ found ∧ found.length = count ∧
        RecordsAt data pos found stop := by
  induction count generalizing records pos with
  | zero =>
      constructor
      · intro h
        cases h
        exact ⟨[], pos, rfl, by simp, rfl, .nil⟩
      · rintro ⟨found, stop, rfl, rfl, hNone, hFound⟩
        cases hFound with
        | nil =>
            rw [List.append_nil]
            rfl
        | cons => cases hNone
  | succ count ih =>
      constructor
      · intro h
        obtain ⟨record, r, hRead, h⟩ := bind_ok.mp h
        obtain ⟨next, rfl, hRecord⟩ := readRecord_iff.mp hRead
        obtain ⟨found, stop, rfl, rfl, rfl, hFound⟩ := ih.mp h
        exact ⟨record :: found, stop, rfl, by simp, rfl, .cons hRecord hFound⟩
      · rintro ⟨found, stop, rfl, rfl, hSome, hFound⟩
        cases hFound with
        | nil => cases hSome
        | @cons _ next _ record found hRecord hRest =>
            refine bind_ok.mpr ⟨record, _, readRecord_iff.mpr ⟨_, rfl, hRecord⟩, ?_⟩
            exact ih.mpr ⟨found, stop, rfl, by simp, Nat.succ.inj hSome, hRest⟩

theorem readQuestions_iff (count : Nat) :
    readQuestions count ⟨data, pos⟩ = .ok () q ↔
      ∃ stop, q = ⟨data, stop⟩ ∧ QuestionsAt data pos count stop := by
  induction count generalizing pos with
  | zero =>
      constructor
      · intro h
        cases h
        exact ⟨pos, rfl, .nil⟩
      · rintro ⟨stop, rfl, h⟩
        cases h
        rfl
  | succ count ih =>
      constructor
      · intro h
        obtain ⟨_, r, hQuestion, h⟩ := bind_ok.mp h
        obtain ⟨name, r', hRead, hQuestion⟩ := bind_ok.mp hQuestion
        obtain ⟨after, rfl, hName⟩ := readName_iff.mp hRead
        obtain ⟨qtype, r', hRead, hQuestion⟩ := bind_ok.mp hQuestion
        obtain ⟨rfl, hType⟩ := readU16_iff.mp hRead
        obtain ⟨qclass, r', hRead, hQuestion⟩ := bind_ok.mp hQuestion
        obtain ⟨rfl, hClass⟩ := readU16_iff.mp hRead
        cases hQuestion
        obtain ⟨stop, rfl, hRest⟩ := ih.mp h
        exact ⟨stop, rfl, .cons hName hType hClass hRest⟩
      · rintro ⟨stop, rfl, h⟩
        cases h with
        | cons hName hType hClass hRest =>
            refine bind_ok.mpr ⟨(), _, bind_ok.mpr ⟨_, _, readName_iff.mpr ⟨_, rfl, hName⟩,
              bind_ok.mpr ⟨_, _, readU16_iff.mpr ⟨rfl, hType⟩, bind_ok.mpr ⟨_, _,
              readU16_iff.mpr ⟨rfl, hClass⟩, rfl⟩⟩⟩, ih.mpr ⟨stop, rfl, hRest⟩⟩

/-- The parser finds the messages and nothing else. -/
theorem readMessage_iff {records : List DnsRecord} :
    readMessage ⟨data, 0⟩ = .ok records q ↔
      ∃ stop, q = ⟨data, stop⟩ ∧ MessageAt data records stop := by
  constructor
  · intro h
    obtain ⟨id, r, hRead, h⟩ := bind_ok.mp h
    obtain ⟨rfl, hId⟩ := readU16_iff.mp hRead
    obtain ⟨flags, r, hRead, h⟩ := bind_ok.mp h
    obtain ⟨rfl, hFlags⟩ := readU16_iff.mp hRead
    obtain ⟨qdcount, r, hRead, h⟩ := bind_ok.mp h
    obtain ⟨rfl, hQd⟩ := readU16_iff.mp hRead
    obtain ⟨ancount, r, hRead, h⟩ := bind_ok.mp h
    obtain ⟨rfl, hAn⟩ := readU16_iff.mp hRead
    obtain ⟨nscount, r, hRead, h⟩ := bind_ok.mp h
    obtain ⟨rfl, hNs⟩ := readU16_iff.mp hRead
    obtain ⟨arcount, r, hRead, h⟩ := bind_ok.mp h
    obtain ⟨rfl, hAr⟩ := readU16_iff.mp hRead
    obtain ⟨_, r, hRead, h⟩ := bind_ok.mp h
    obtain ⟨after, rfl, hQuestions⟩ := (readQuestions_iff _).mp hRead
    obtain ⟨found, stop, rfl, rfl, hCount, hRecords⟩ := (readRecords_iff _).mp h
    exact ⟨stop, rfl, .mk hId hFlags hQd hAn hNs hAr hQuestions hRecords
      (hCount.trans (recordCount_eq _ _ _))⟩
  · rintro ⟨stop, rfl, h⟩
    cases h with
    | mk hId hFlags hQd hAn hNs hAr hQuestions hRecords hCount =>
        refine bind_ok.mpr ⟨_, _, readU16_iff.mpr ⟨rfl, hId⟩, bind_ok.mpr ⟨_, _,
          readU16_iff.mpr ⟨rfl, hFlags⟩, bind_ok.mpr ⟨_, _, readU16_iff.mpr ⟨rfl, hQd⟩,
          bind_ok.mpr ⟨_, _, readU16_iff.mpr ⟨rfl, hAn⟩, bind_ok.mpr ⟨_, _,
          readU16_iff.mpr ⟨rfl, hNs⟩, bind_ok.mpr ⟨_, _, readU16_iff.mpr ⟨rfl, hAr⟩,
          bind_ok.mpr ⟨(), _, (readQuestions_iff _).mpr ⟨_, rfl, hQuestions⟩,
          (readRecords_iff _).mpr ⟨records, stop, rfl, rfl,
            hCount.trans (recordCount_eq _ _ _).symm, hRecords⟩⟩⟩⟩⟩⟩⟩⟩

end Grammar

/-! ## With more bytes behind -/

section Extension

variable (more : List Byte)

theorem getElem?_extend {byte : Byte} (h : data[pos]? = some byte) :
    (data ++ more)[pos]? = some byte := by
  rw [List.getElem?_append_left (List.getElem?_eq_some_iff.mp h).1]
  exact h

theorem drop_extend (hPos : pos ≤ data.length) :
    (data ++ more).drop pos = data.drop pos ++ more := List.drop_append_of_le_length hPos

theorem slice_extend {len : Nat} (hFits : pos + len ≤ data.length) :
    slice (data ++ more) pos len = slice data pos len := by
  unfold slice
  rw [drop_extend more (by omega), List.take_append_of_le_length (by simp; omega)]

theorem Resolves.extend {labels : List (List Byte)} {targets : List Nat} {stop : Nat}
    (h : Resolves data pos labels targets stop) :
    Resolves (data ++ more) pos labels targets stop := by
  have hLength : (data ++ more).length = data.length + more.length := List.length_append
  induction h with
  | root hByte => exact .root (getElem?_extend more hByte)
  | label hByte hSome hShort hFits hRest ih =>
      rw [← slice_extend more hFits]
      exact .label (getElem?_extend more hByte) hSome hShort (by omega) ih
  | pointer hByte hPointer hLow hTarget hRest ih =>
      exact .pointer (getElem?_extend more hByte) hPointer (getElem?_extend more hLow) (by omega) ih

theorem NameAt.extend {name : String} {stop : Nat} (h : NameAt data pos name stop) :
    NameAt (data ++ more) pos name stop := by
  obtain ⟨labels, targets, hName, hRest⟩ := h
  exact ⟨labels, targets, hName.extend more, hRest⟩

theorem U16At.extend {value : UInt16} (h : U16At data pos value) :
    U16At (data ++ more) pos value := by
  have hInside := h.inside
  obtain ⟨hi, lo, hDrop, hValue⟩ := h
  refine ⟨hi, lo, ?_, hValue⟩
  rw [drop_extend more (by omega), drop_extend more hInside, hDrop]
  rfl

theorem U32At.extend {value : UInt32} (h : U32At data pos value) :
    U32At (data ++ more) pos value := by
  have hInside := h.inside
  obtain ⟨a, b, c, d, hDrop, hValue⟩ := h
  refine ⟨a, b, c, d, ?_, hValue⟩
  rw [drop_extend more (by omega), drop_extend more hInside, hDrop]
  rfl

theorem StringsAt.extend {stop : Nat} {strings : List (List Byte)}
    (h : StringsAt data stop pos strings) : StringsAt (data ++ more) stop pos strings := by
  have hLength : (data ++ more).length = data.length + more.length := List.length_append
  induction h with
  | done hStop => exact .done hStop
  | string hMore hByte hFits hRest ih =>
      rw [← slice_extend more hFits]
      exact .string hMore (getElem?_extend more hByte) (by omega) ih

theorem DataAt.extend {len : Nat} {recordType : UInt16} {rdata : RecordData}
    (h : DataAt data pos len recordType rdata) :
    DataAt (data ++ more) pos len recordType rdata := by
  cases h with
  | ptr hName => exact .ptr (hName.extend more)
  | srv hPriority hWeight hPort hTarget =>
      exact .srv (hPriority.extend more) (hWeight.extend more) (hPort.extend more)
        (hTarget.extend more)
  | txt hStrings => exact .txt (hStrings.extend more)
  | a hOctets =>
      refine .a ?_
      have hInside := (drop_cons (drop_cons (drop_cons (drop_cons hOctets).2.1).2.1).2.1).2.2
      rw [drop_extend more (by omega), drop_extend more hInside, hOctets]
      rfl
  | other hPtr hSrv hTxt hA => exact .other hPtr hSrv hTxt hA

theorem RecordAt.extend {record : DnsRecord} {stop : Nat} (h : RecordAt data pos record stop) :
    RecordAt (data ++ more) pos record stop := by
  have hLength : (data ++ more).length = data.length + more.length := List.length_append
  cases h with
  | mk hOwner hType hClass hTtl hLen hFits hData =>
      exact .mk (hOwner.extend more) (hType.extend more) (hClass.extend more) (hTtl.extend more)
        (hLen.extend more) (by omega) (hData.extend more)

theorem RecordsAt.extend {records : List DnsRecord} {stop : Nat}
    (h : RecordsAt data pos records stop) : RecordsAt (data ++ more) pos records stop := by
  induction h with
  | nil => exact .nil
  | cons hRecord _ ih => exact .cons (hRecord.extend more) ih

theorem QuestionsAt.extend {count stop : Nat} (h : QuestionsAt data pos count stop) :
    QuestionsAt (data ++ more) pos count stop := by
  induction h with
  | nil => exact .nil
  | cons hName hType hClass _ ih =>
      exact .cons (hName.extend more) (hType.extend more) (hClass.extend more) ih

theorem MessageAt.extend {records : List DnsRecord} {stop : Nat} (h : MessageAt data records stop) :
    MessageAt (data ++ more) records stop := by
  cases h with
  | mk hId hFlags hQd hAn hNs hAr hQuestions hRecords hCount =>
      exact .mk (hId.extend more) (hFlags.extend more) (hQd.extend more) (hAn.extend more)
        (hNs.extend more) (hAr.extend more) (hQuestions.extend more) (hRecords.extend more) hCount

end Extension

/-! ## How much room records take -/

theorem Resolves.after {labels : List (List Byte)} {targets : List Nat} {stop : Nat}
    (h : Resolves data pos labels targets stop) : pos + 1 ≤ stop := by
  induction h with
  | root hByte => exact Nat.le_refl _
  | label hByte hSome hShort hFits hRest ih => omega
  | pointer hByte hPointer hLow hTarget hRest ih => omega

theorem NameAt.after {name : String} {stop : Nat} (h : NameAt data pos name stop) :
    pos + 1 ≤ stop := by
  obtain ⟨labels, targets, hName, -⟩ := h
  exact hName.after

/-- A record takes eleven bytes at least. -/
theorem RecordAt.room {record : DnsRecord} {stop : Nat} (h : RecordAt data pos record stop) :
    pos + 11 ≤ stop ∧ stop ≤ data.length := by
  cases h with
  | mk hOwner hType hClass hTtl hLen hFits hData =>
      have hAfter := hOwner.after
      exact ⟨by omega, hFits⟩

theorem RecordsAt.room {records : List DnsRecord} {stop : Nat}
    (h : RecordsAt data pos records stop) (hPos : pos ≤ data.length) :
    pos + 11 * records.length ≤ stop ∧ stop ≤ data.length := by
  induction h with
  | nil => exact ⟨Nat.le_refl _, hPos⟩
  | cons hRecord _ ih =>
      obtain ⟨hRoom, hInside⟩ := hRecord.room
      obtain ⟨hRest, hStop⟩ := ih hInside
      refine ⟨?_, hStop⟩
      rw [List.length_cons]
      omega

theorem QuestionsAt.room {count stop : Nat} (h : QuestionsAt data pos count stop)
    (hPos : pos ≤ data.length) : pos + 5 * count ≤ stop ∧ stop ≤ data.length := by
  induction h with
  | nil => exact ⟨Nat.le_refl _, hPos⟩
  | cons hName hType hClass _ ih =>
      have hAfter := hName.after
      have hInside := hClass.inside
      obtain ⟨hRest, hStop⟩ := ih (by omega)
      exact ⟨by omega, hStop⟩

theorem MessageAt.room {records : List DnsRecord} {stop : Nat} (h : MessageAt data records stop) :
    12 + 11 * records.length ≤ data.length := by
  cases h with
  | mk hId hFlags hQd hAn hNs hAr hQuestions hRecords hCount =>
      have hHeader := hAr.inside
      obtain ⟨hAfter, hInside⟩ := hQuestions.room (by omega)
      obtain ⟨hRecords, hStop⟩ := hRecords.room hInside
      omega

theorem length_castInstances (records : List DnsRecord) :
    (Correlate.castInstances records).length ≤ records.length :=
  List.length_filterMap_le _ _

/-- There are no more devices than records. -/
theorem length_correlate (records : List DnsRecord) :
    (correlate records).length ≤ records.length := by
  rw [Correlate.correlate_eq]
  exact Nat.le_trans (List.length_filterMap_le _ _) (length_castInstances records)

/-! ## Every packet -/

/-- A packet describes devices exactly if it starts with a message, whose
records they are described by. -/
theorem parsePacket_iff {devices : List DiscoveredDevice} :
    parsePacket data = .ok devices ↔
      ∃ records stop, MessageAt data records stop ∧ devices = correlate records := by
  unfold parsePacket
  cases hRead : readMessage ⟨data, 0⟩ with
  | ok records q =>
      obtain ⟨stop, -, hMessage⟩ := readMessage_iff.mp hRead
      constructor
      · intro h
        cases h
        exact ⟨records, stop, hMessage, rfl⟩
      · rintro ⟨others, stop', hOther, rfl⟩
        have hSame := hRead.symm.trans (readMessage_iff.mpr ⟨stop', rfl, hOther⟩)
        cases hSame
        rfl
  | error failure q =>
      constructor
      · intro h
        cases h
      · rintro ⟨records, stop, hMessage, -⟩
        rw [readMessage_iff.mpr ⟨stop, rfl, hMessage⟩] at hRead
        cases hRead

theorem parsePacket_refuses {failure : Failure} (h : parsePacket data = .error failure) :
    ∃ error, failure = .dns error := by
  unfold parsePacket at h
  cases hRead : readMessage ⟨data, 0⟩ with
  | ok records q =>
      rw [hRead] at h
      cases h
  | error found q =>
      rw [hRead] at h
      cases h
      exact (proper_readMessage ⟨data, 0⟩ (Nat.zero_le _)).hRefuses failure q hRead

/-- The error a packet is refused with. -/
def Failure.refusal : (failure : Failure) → (∃ error, failure = .dns error) → DnsError
  | .dns error, _ => error
  | .indexOutOfBounds, h | .subtractOverflow, h | .outOfTurns, h =>
      absurd h (by rintro ⟨error, hError⟩; cases hError)

/-- `parse_packet` as its callers see it, who never see a panic. -/
def packetParser (data : List Byte) : Except DnsError (List DiscoveredDevice) :=
  match hParsed : parsePacket data with
  | .ok devices => .ok devices
  | .error failure => .error (failure.refusal (parsePacket_refuses hParsed))

theorem packetParser_ok {devices : List DiscoveredDevice} :
    packetParser data = .ok devices ↔ parsePacket data = .ok devices := by
  unfold packetParser
  split
  · next found hParsed => rw [hParsed, Except.ok.injEq, Except.ok.injEq]
  · next failure hParsed => simp [hParsed]

/-- Whatever arrives is read or refused.  No packet makes the parser panic
or go on for ever, and none describes more devices than it has room for. -/
theorem parsePacket_total (data : List Byte) :
    (∃ devices, parsePacket data = .ok devices ∧ 12 + 11 * devices.length ≤ data.length) ∨
      ∃ error, parsePacket data = .error (.dns error) := by
  cases hParsed : parsePacket data with
  | ok devices =>
      left
      obtain ⟨records, stop, hMessage, rfl⟩ := parsePacket_iff.mp hParsed
      have hRoom := hMessage.room
      have hFew := length_correlate records
      exact ⟨_, rfl, by omega⟩
  | error failure =>
      right
      obtain ⟨error, rfl⟩ := parsePacket_refuses hParsed
      exact ⟨error, rfl⟩

/-- What a receive buffer of any size keeps of a
datagram is refused, or it is read as the whole datagram is. -/
theorem parsePacket_take (data : List Byte) (size : Nat) :
    parsePacket (data.take size) = parsePacket data ∨
      ∃ error, parsePacket (data.take size) = .error (.dns error) := by
  rcases parsePacket_total (data.take size) with ⟨devices, hParsed, -⟩ | hRefused
  · left
    obtain ⟨records, stop, hMessage, rfl⟩ := parsePacket_iff.mp hParsed
    have hWhole := hMessage.extend (data.drop size)
    rw [List.take_append_drop] at hWhole
    rw [hParsed, parsePacket_iff.mpr ⟨records, stop, hWhole, rfl⟩]
  · exact .inr hRefused

/-- **Every packet.**  The devices found are those that the records of a message
describe, where the packet starts with one; otherwise it is refused, and no
packet makes the parser panic, go on for ever or find more than it has room
for.  Cut short by a receive buffer it is read as before or refused. -/
theorem parsePacket_exact (data : List Byte) :
    (∀ devices, parsePacket data = .ok devices ↔
      ∃ records stop, MessageAt data records stop ∧ devices = correlate records) ∧
    ((∃ devices, parsePacket data = .ok devices ∧ 12 + 11 * devices.length ≤ data.length) ∨
      ∃ error, parsePacket data = .error (.dns error)) ∧
    ∀ size, parsePacket (data.take size) = parsePacket data ∨
      ∃ error, parsePacket (data.take size) = .error (.dns error) :=
  ⟨fun _ => parsePacket_iff, parsePacket_total data, parsePacket_take data⟩

end CastApp.Cast.Dns
