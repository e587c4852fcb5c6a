import CastApp.Cast.Proto

/-!
# The message codec, field by field

A payload is a sequence of fields, each of which is decoded from its own
bytes only; a message is what the last field of each number leaves behind.

* `varintDecode_encode` — a varint is read back, whatever follows it.
* `readField_local`, `decodeField_local` — no field's decoding looks past the
  bytes it consumes.
* `Fields` and `decode_iff` — a payload decodes exactly when it is a sequence
  of fields, and then to the empty message overridden by them.
* **`cast_message_codec`** — messages survive a round trip, and payloads
  compose at field boundaries.
-/

namespace CastApp.Cast.Codec

open CastApp.State
open CastApp.Cast.Proto
open CastApp.Util.Utf8

/-! ## Varints -/

/-- The seven payload bits of a group, with and without its continuation
bit. -/
theorem group_bits : ∀ payload : Fin 128,
    let b := UInt8.ofNat payload
    b &&& 0x7F = b ∧ (b ||| 0x80) &&& 0x7F = b ∧ b &&& 0x80 = 0 ∧ (b ||| 0x80) &&& 0x80 ≠ 0 := by
  decide +kernel

theorem group_bits_of_lt {b : UInt8} (hLt : b.toNat < 128) :
    b &&& 0x7F = b ∧ (b ||| 0x80) &&& 0x7F = b ∧ b &&& 0x80 = 0 ∧ (b ||| 0x80) &&& 0x80 ≠ 0 := by
  have hBits := group_bits ⟨b.toNat, hLt⟩
  simpa using hBits

theorem toNat_low_group (value : UInt64) :
    ((value &&& 0x7F).toUInt8).toNat = value.toNat % 128 := by
  rw [UInt64.toNat_toUInt8, UInt64.toNat_and]
  have hMask : (0x7F : UInt64).toNat = 2 ^ 7 - 1 := rfl
  rw [hMask, Nat.and_two_pow_sub_one_eq_mod]
  omega

theorem toNat_shift_group (value : UInt64) : (value >>> 7).toNat = value.toNat / 128 := by
  rw [UInt64.toNat_shiftRight]
  simp [Nat.shiftRight_eq_div_pow]

/-- One group ORed in above the groups read so far. -/
theorem toNat_or_group {value : UInt64} {b : UInt8} {index : Nat} (hIndex : index < 10)
    (hLow : value.toNat < 2 ^ (7 * index)) (hFits : b.toNat * 2 ^ (7 * index) < 2 ^ 64) :
    (value ||| (b.toUInt64 <<< (7 * index).toUInt64)).toNat =
      value.toNat + b.toNat * 2 ^ (7 * index) := by
  have hShift : (7 * index).toUInt64.toNat = 7 * index := by
    show (UInt64.ofNat (7 * index)).toNat = 7 * index
    rw [UInt64.toNat_ofNat']
    omega
  rw [UInt64.toNat_or, UInt64.toNat_shiftLeft, UInt8.toNat_toUInt64, hShift,
    Nat.mod_eq_of_lt (show 7 * index < 64 by omega), Nat.shiftLeft_eq, Nat.mod_eq_of_lt hFits,
    Nat.or_comm, Nat.mul_comm, ← Nat.two_pow_add_eq_or_of_lt hLow]
  omega

/-- The decoder at group `index`, on what the encoder writes from there. -/
theorem varintDecodeFrom_encodeGroups {groups index : Nat} {acc value : UInt64}
    (hGroups : index + groups = 10) (hSome : 0 < groups)
    (hLow : acc.toNat < 2 ^ (7 * index)) (hFits : value.toNat * 2 ^ (7 * index) < 2 ^ 64)
    (after : List Byte) :
    varintDecodeFrom index acc (varintEncodeGroups groups value ++ after) =
      .ok (UInt64.ofNat (acc.toNat + value.toNat * 2 ^ (7 * index)),
        index + (varintEncodeGroups groups value).length) := by
  induction groups generalizing index acc value with
  | zero => omega
  | succ groups ih =>
      have hPow : 2 ^ (7 * (index + 1)) = 2 ^ (7 * index) * 128 := by
        rw [Nat.mul_add, Nat.pow_add]
      have hPos : 0 < 2 ^ (7 * index) := Nat.two_pow_pos _
      let b := (value &&& 0x7F).toUInt8
      have hByte : b.toNat = value.toNat % 128 := toNat_low_group value
      obtain ⟨hPlain, hMarked, hLast, hMore⟩ := group_bits_of_lt (b := b) (by omega)
      have hSplit : value.toNat = value.toNat % 128 + 128 * (value.toNat / 128) := by omega
      have hSum : value.toNat * 2 ^ (7 * index) =
          value.toNat % 128 * 2 ^ (7 * index) + value.toNat / 128 * (2 ^ (7 * index) * 128) := by
        conv => lhs; rw [hSplit, Nat.add_mul]
        rw [Nat.mul_comm 128, Nat.mul_assoc, Nat.mul_comm 128]
      have hAcc := toNat_or_group (b := b) (show index < 10 by omega) hLow (by rw [hByte]; omega)
      have hTenth : index = 9 → ¬ b > 0x01 := by
        intro hNine hBig
        have hTwo : 2 ≤ value.toNat := by
          have hNat : (0x01 : UInt8).toNat < b.toNat := hBig
          have hOne : (0x01 : UInt8).toNat = 1 := rfl
          omega
        rw [hNine] at hFits
        have hTooBig : 2 * 2 ^ (7 * 9) ≤ value.toNat * 2 ^ (7 * 9) := Nat.mul_le_mul_right _ hTwo
        omega
      unfold varintEncodeGroups
      by_cases hRest : value >>> 7 = 0
      · have hSmall : value.toNat / 128 = 0 := by
          rw [← toNat_shift_group, hRest]
          rfl
        rw [if_pos hRest]
        show varintDecodeFrom index acc (b :: after) = _
        unfold varintDecodeFrom
        rw [hPlain, if_neg (by omega), if_neg (fun h => hTenth h.1 h.2), if_pos hLast]
        rw [hSmall, Nat.zero_mul, Nat.add_zero] at hSum
        rw [hSum, ← hByte, ← hAcc, UInt64.ofNat_toNat]
        rfl
      · rw [if_neg hRest]
        show varintDecodeFrom index acc ((b ||| 0x80) :: (varintEncodeGroups groups _ ++ after)) = _
        unfold varintDecodeFrom
        rw [hMarked, if_neg (by omega), if_neg (fun h => hTenth h.1 h.2), if_neg hMore]
        have hLarge : 0 < value.toNat / 128 := by
          rw [← toNat_shift_group]
          apply Nat.pos_of_ne_zero
          intro hZero
          exact hRest (UInt64.toNat_inj.mp hZero)
        have hNotTenth : 0 < groups := by
          apply Nat.pos_of_ne_zero
          intro hNone
          have hNine : index = 9 := by omega
          rw [hNine] at hFits
          have hTooBig : 128 * 2 ^ (7 * 9) ≤ value.toNat * 2 ^ (7 * 9) :=
            Nat.mul_le_mul_right _ (by omega)
          omega
        have hNextLow : (acc ||| (b.toUInt64 <<< (7 * index).toUInt64)).toNat <
            2 ^ (7 * (index + 1)) := by
          have hLe : b.toNat * 2 ^ (7 * index) ≤ 127 * 2 ^ (7 * index) :=
            Nat.mul_le_mul_right _ (by omega)
          omega
        rw [ih (by omega) hNotTenth hNextLow (by rw [toNat_shift_group, hPow]; omega), hAcc,
          toNat_shift_group, hPow, hByte, hSum, List.length_cons]
        simp only [Nat.add_assoc, Nat.add_comm 1]

/-- A varint is read back, whatever follows it. -/
theorem varintDecode_encode (value : UInt64) (after : List Byte) :
    varintDecode (varintEncode value ++ after) = .ok (value, (varintEncode value).length) := by
  have hFrom := @varintDecodeFrom_encodeGroups 10 0 0 value rfl (by decide) (by decide)
    (by simpa using value.toNat_lt) after
  unfold varintDecode varintEncode
  rw [hFrom]
  simp

/-- The decoder stops within the bytes it was given, and later ones do not
matter. -/
theorem varintDecodeFrom_local {index consumed : Nat} {acc value : UInt64} {bytes : List Byte}
    (h : varintDecodeFrom index acc bytes = .ok (value, consumed)) :
    ∃ used rest, bytes = used ++ rest ∧ used ≠ [] ∧ consumed = index + used.length ∧
      ∀ after, varintDecodeFrom index acc (used ++ after) = .ok (value, consumed) := by
  induction bytes generalizing index acc with
  | nil => cases h
  | cons b bytes ih =>
      unfold varintDecodeFrom at h
      by_cases hLong : index ≥ 10
      · rw [if_pos hLong] at h
        cases h
      by_cases hTenth : index = 9 ∧ b &&& 0x7F > 0x01
      · rw [if_neg hLong, if_pos hTenth] at h
        cases h
      rw [if_neg hLong, if_neg hTenth] at h
      by_cases hLast : b &&& 0x80 = 0
      · simp only [if_pos hLast] at h
        cases h
        refine ⟨[b], bytes, rfl, by simp, rfl, fun after => ?_⟩
        show varintDecodeFrom index acc (b :: after) = _
        unfold varintDecodeFrom
        rw [if_neg hLong, if_neg hTenth]
        simp only [if_pos hLast]
      · simp only [if_neg hLast] at h
        obtain ⟨used, rest, rfl, -, rfl, hAfter⟩ := ih h
        refine ⟨b :: used, rest, rfl, by simp, by rw [List.length_cons]; omega, fun after => ?_⟩
        show varintDecodeFrom index acc (b :: (used ++ after)) = _
        unfold varintDecodeFrom
        rw [if_neg hLong, if_neg hTenth]
        simp only [if_neg hLast]
        exact hAfter after

/-- A varint and the bytes after it. -/
theorem varintDecode_local {bytes : List Byte} {value : UInt64} {consumed : Nat}
    (h : varintDecode bytes = .ok (value, consumed)) :
    ∃ used, bytes = used ++ bytes.drop consumed ∧ used ≠ [] ∧ consumed = used.length ∧
      ∀ after, varintDecode (used ++ after) = .ok (value, used.length) := by
  obtain ⟨used, rest, rfl, hSome, rfl, hAfter⟩ := varintDecodeFrom_local h
  rw [Nat.zero_add] at hAfter
  refine ⟨used, ?_, hSome, Nat.zero_add _, hAfter⟩
  rw [Nat.zero_add, List.drop_left]

/-! ## Fields -/

/-- A field as the decoder reads it: its number, and what its wire type
carries. -/
inductive WireField : Type
  | varint (number : UInt32) (value : UInt64)
  | bytes (number : UInt32) (data : List Byte)
  /-- A fixed-width field. -/
  | fixed (number : UInt32)
  deriving DecidableEq

/-- A field behind its key, and the bytes after it. -/
def readContent (number : UInt32) (wire : WireType) (bytes : List Byte) :
    Except ProtoError (WireField × List Byte) :=
  match wire with
  | .varint => do
      let (value, consumed) ← varintDecode bytes
      .ok (.varint number value, bytes.drop consumed)
  | .lengthDelimited => do
      let (length, consumed) ← varintDecode bytes
      let bytes := bytes.drop consumed
      let length := length.toNat
      if length > maxFieldSize then
        .error .fieldTooLarge
      else if length > bytes.length then
        .error (.truncatedField length bytes.length)
      else
        .ok (.bytes number (bytes.take length), bytes.drop length)
  | .fixed64 => do
      let bytes ← skipFixed 8 bytes
      .ok (.fixed number, bytes)
  | .fixed32 => do
      let bytes ← skipFixed 4 bytes
      .ok (.fixed number, bytes)

/-- One field, and the bytes after it. -/
def readField (bytes : List Byte) : Except ProtoError (WireField × List Byte) := do
  let (keyValue, consumed) ← varintDecode bytes
  let number := (keyValue >>> 3).toUInt32
  match WireType.fromNumber (keyValue &&& 0x07).toUInt8 with
  | none => .error (.unknownWireType (keyValue &&& 0x07).toUInt8)
  | some wire =>
      if number = 0 then .error .missingFieldNumber
      else readContent number wire (bytes.drop consumed)

/-- The message with one field stored. -/
def store (message : CastMessage) : WireField → CastMessage
  | .varint number value => message.setVarint number value
  | .bytes number data => message.setBytes number data
  | .fixed _ => message

/-- One turn of the decoder reads a field and stores it. -/
theorem decodeField_eq (message : CastMessage) (bytes : List Byte) :
    decodeField message bytes =
      (readField bytes).map fun field => (store message field.1, field.2) := by
  unfold decodeField readField
  cases varintDecode bytes with
  | error error => rfl
  | ok read =>
      obtain ⟨keyValue, consumed⟩ := read
      simp only [bind, Except.bind]
      cases WireType.fromNumber (keyValue &&& 0x07).toUInt8 with
      | none => rfl
      | some wire =>
          by_cases hNumber : (keyValue >>> 3).toUInt32 = 0
          · simp only [if_pos hNumber]
            rfl
          simp only [if_neg hNumber]
          unfold readContent
          cases wire with
          | varint => cases varintDecode (bytes.drop consumed) <;> rfl
          | lengthDelimited =>
              cases varintDecode (bytes.drop consumed) with
              | error error => rfl
              | ok read =>
                  simp only [bind, Except.bind]
                  split
                  · rfl
                  · split <;> rfl
          | fixed64 => cases skipFixed 8 (bytes.drop consumed) <;> rfl
          | fixed32 => cases skipFixed 4 (bytes.drop consumed) <;> rfl

theorem skipFixed_local {width : Nat} {bytes rest : List Byte}
    (h : skipFixed width bytes = .ok rest) :
    ∃ used, bytes = used ++ rest ∧ ∀ after, skipFixed width (used ++ after) = .ok after := by
  unfold skipFixed at h
  by_cases hShort : bytes.length < width
  · rw [if_pos hShort] at h
    cases h
  rw [if_neg hShort] at h
  cases h
  refine ⟨bytes.take width, (List.take_append_drop width bytes).symm, fun after => ?_⟩
  have hLength : (bytes.take width).length = width := by
    rw [List.length_take]
    omega
  unfold skipFixed
  rw [if_neg (by rw [List.length_append]; omega), List.drop_left' hLength]

/-- The content of a field is read from its own bytes. -/
theorem readContent_local {number : UInt32} {wire : WireType} {bytes rest : List Byte}
    {field : WireField} (h : readContent number wire bytes = .ok (field, rest)) :
    ∃ used, bytes = used ++ rest ∧
      ∀ after, readContent number wire (used ++ after) = .ok (field, after) := by
  unfold readContent at h ⊢
  cases wire with
  | varint =>
      cases hRead : varintDecode bytes with
      | error error =>
          rw [hRead] at h
          cases h
      | ok read =>
          rw [hRead] at h
          cases h
          obtain ⟨used, hBytes, -, -, hAfter⟩ := varintDecode_local hRead
          refine ⟨used, hBytes, fun after => ?_⟩
          simp only [hAfter after, bind, Except.bind, List.drop_left]
  | lengthDelimited =>
      cases hRead : varintDecode bytes with
      | error error =>
          rw [hRead] at h
          cases h
      | ok read =>
          obtain ⟨length, consumed⟩ := read
          rw [hRead] at h
          simp only [bind, Except.bind] at h
          by_cases hBig : length.toNat > maxFieldSize
          · rw [if_pos hBig] at h
            cases h
          by_cases hShort : length.toNat > (bytes.drop consumed).length
          · rw [if_neg hBig, if_pos hShort] at h
            cases h
          rw [if_neg hBig, if_neg hShort] at h
          obtain ⟨used, hBytes, -, -, hAfter⟩ := varintDecode_local hRead
          let data := (bytes.drop consumed).take length.toNat
          have hData : data.length = length.toNat := by
            rw [List.length_take]
            omega
          cases h
          refine ⟨used ++ data, ?_, fun after => ?_⟩
          · rw [List.append_assoc, List.take_append_drop]
            exact hBytes
          · rw [List.append_assoc]
            simp only [hAfter (data ++ after), bind, Except.bind, List.drop_left]
            rw [if_neg hBig, if_neg (by rw [List.length_append]; omega),
              List.take_left' hData, List.drop_left' hData]
  | fixed64 =>
      cases hSkip : skipFixed 8 bytes with
      | error error =>
          rw [hSkip] at h
          cases h
      | ok rest' =>
          rw [hSkip] at h
          cases h
          obtain ⟨used, hBytes, hAfter⟩ := skipFixed_local hSkip
          refine ⟨used, hBytes, fun after => ?_⟩
          simp only [hAfter after, bind, Except.bind]
  | fixed32 =>
      cases hSkip : skipFixed 4 bytes with
      | error error =>
          rw [hSkip] at h
          cases h
      | ok rest' =>
          rw [hSkip] at h
          cases h
          obtain ⟨used, hBytes, hAfter⟩ := skipFixed_local hSkip
          refine ⟨used, hBytes, fun after => ?_⟩
          simp only [hAfter after, bind, Except.bind]

/-- A field is read from its own bytes, at least one of them. -/
theorem readField_local {bytes rest : List Byte} {field : WireField}
    (h : readField bytes = .ok (field, rest)) :
    ∃ used, bytes = used ++ rest ∧ used ≠ [] ∧
      ∀ after, readField (used ++ after) = .ok (field, after) := by
  unfold readField at h
  cases hRead : varintDecode bytes with
  | error error =>
      rw [hRead] at h
      cases h
  | ok read =>
      obtain ⟨keyValue, consumed⟩ := read
      rw [hRead] at h
      simp only [bind, Except.bind] at h
      cases hWire : WireType.fromNumber (keyValue &&& 0x07).toUInt8 with
      | none =>
          rw [hWire] at h
          cases h
      | some wire =>
          rw [hWire] at h
          by_cases hNumber : (keyValue >>> 3).toUInt32 = 0
          · simp only [if_pos hNumber] at h
            cases h
          simp only [if_neg hNumber] at h
          obtain ⟨keyBytes, hBytes, hSome, -, hKey⟩ := varintDecode_local hRead
          obtain ⟨content, hContent, hAfter⟩ := readContent_local h
          refine ⟨keyBytes ++ content, ?_, by simp [hSome], fun after => ?_⟩
          · rw [List.append_assoc, ← hContent]
            exact hBytes
          · unfold readField
            rw [List.append_assoc]
            simp only [hKey (content ++ after), bind, Except.bind, List.drop_left, hWire,
              if_neg hNumber, hAfter after]

/-- No field's decoding looks past its own bytes. -/
theorem decodeField_local {message message' : CastMessage} {bytes rest : List Byte}
    (h : decodeField message bytes = .ok (message', rest)) :
    ∃ used, bytes = used ++ rest ∧ used ≠ [] ∧
      ∀ after, decodeField message (used ++ after) = .ok (message', after) := by
  rw [decodeField_eq] at h
  cases hRead : readField bytes with
  | error error =>
      rw [hRead] at h
      cases h
  | ok read =>
      rw [hRead] at h
      cases h
      obtain ⟨used, hBytes, hSome, hAfter⟩ := readField_local hRead
      refine ⟨used, hBytes, hSome, fun after => ?_⟩
      rw [decodeField_eq, hAfter]
      rfl

/-- A payload as a sequence of fields. -/
inductive Fields : List Byte → List WireField → Prop
  | nil : Fields [] []
  | cons {bytes rest : List Byte} {field : WireField} {fields : List WireField}
      (hRead : readField bytes = .ok (field, rest)) (hRest : Fields rest fields) :
      Fields bytes (field :: fields)

/-- Behind a sequence of fields, the decoder goes on with what follows. -/
theorem Fields.append_iff {first later : List Byte} {fields all : List WireField}
    (h : Fields first fields) :
    Fields (first ++ later) all ↔ ∃ more, all = fields ++ more ∧ Fields later more := by
  induction h generalizing all with
  | nil =>
      constructor
      · intro hLater
        exact ⟨all, rfl, hLater⟩
      · rintro ⟨more, rfl, hLater⟩
        exact hLater
  | @cons bytes rest field fields hRead hRest ih =>
      obtain ⟨used, rfl, hSome, hAfter⟩ := readField_local hRead
      have hHere := hAfter (rest ++ later)
      rw [List.append_assoc]
      constructor
      · intro hAll
        generalize hBytes : used ++ (rest ++ later) = bytes at hAll
        cases hAll with
        | nil => exact absurd (List.append_eq_nil_iff.mp hBytes).1 hSome
        | cons hRead' hRest' =>
            rw [← hBytes] at hRead'
            rw [hHere] at hRead'
            cases hRead'
            obtain ⟨more, rfl, hLater⟩ := ih.mp hRest'
            exact ⟨more, rfl, hLater⟩
      · rintro ⟨more, rfl, hLater⟩
        exact .cons hHere (ih.mpr ⟨more, rfl, hLater⟩)

/-! ## What fields do to a message -/

def WireField.varintAt (number : UInt32) : WireField → Option UInt64
  | .varint n value => if n = number then some value else none
  | _ => none

def WireField.bytesAt (number : UInt32) : WireField → Option (List Byte)
  | .bytes n data => if n = number then some data else none
  | _ => none

/-- The last varint field of a number. -/
def lastVarint (number : UInt32) (fields : List WireField) : Option UInt64 :=
  (fields.filterMap (WireField.varintAt number)).getLast?

/-- The last length-delimited field of a number. -/
def lastBytes (number : UInt32) (fields : List WireField) : Option (List Byte) :=
  (fields.filterMap (WireField.bytesAt number)).getLast?

/-- A message overridden, member by member, by the fields with the number and
wire type of that member; the last one wins. -/
def overrideBy (message : CastMessage) (fields : List WireField) : CastMessage where
  protocolVersion := ((lastVarint 1 fields).map UInt64.toUInt32).getD message.protocolVersion
  sourceId := ((lastBytes 2 fields).map fromUtf8Lossy).getD message.sourceId
  destinationId := ((lastBytes 3 fields).map fromUtf8Lossy).getD message.destinationId
  namespaceUrn := ((lastBytes 4 fields).map fromUtf8Lossy).getD message.namespaceUrn
  payloadType := ((lastVarint 5 fields).map fun value =>
    if value = 1 then PayloadType.binary else .string).getD message.payloadType
  payloadUtf8 := ((lastBytes 6 fields).map fromUtf8Lossy).getD message.payloadUtf8

/-- The first of several values matters only if there is no later one. -/
theorem getLast?_filterMap_cons {α β : Type} (f : α → Option β) (a : α) (as : List α) :
    ((a :: as).filterMap f).getLast? = ((as.filterMap f).getLast?).or (f a) := by
  cases hHead : f a with
  | none => simp [hHead]
  | some b =>
      rw [List.filterMap_cons_some hHead, List.getLast?_cons]
      cases (as.filterMap f).getLast? <;> rfl

/-- An earlier value is what a later one overrides. -/
theorem getD_map_or {α β : Type} (f : α → β) (later earlier : Option α) (default : β) :
    ((later.or earlier).map f).getD default =
      (later.map f).getD ((earlier.map f).getD default) := by
  cases later <;> rfl

section Store

variable (message : CastMessage) (field : WireField)

theorem store_protocolVersion : (store message field).protocolVersion =
    ((field.varintAt 1).map UInt64.toUInt32).getD message.protocolVersion := by
  cases field <;> grind [store, CastMessage.setVarint, CastMessage.setBytes, WireField.varintAt]

theorem store_sourceId : (store message field).sourceId =
    ((field.bytesAt 2).map fromUtf8Lossy).getD message.sourceId := by
  cases field <;> grind [store, CastMessage.setVarint, CastMessage.setBytes, WireField.bytesAt]

theorem store_destinationId : (store message field).destinationId =
    ((field.bytesAt 3).map fromUtf8Lossy).getD message.destinationId := by
  cases field <;> grind [store, CastMessage.setVarint, CastMessage.setBytes, WireField.bytesAt]

theorem store_namespaceUrn : (store message field).namespaceUrn =
    ((field.bytesAt 4).map fromUtf8Lossy).getD message.namespaceUrn := by
  cases field <;> grind [store, CastMessage.setVarint, CastMessage.setBytes, WireField.bytesAt]

theorem store_payloadType : (store message field).payloadType =
    ((field.varintAt 5).map fun value =>
      if value = 1 then PayloadType.binary else .string).getD message.payloadType := by
  cases field <;> grind [store, CastMessage.setVarint, CastMessage.setBytes, WireField.varintAt]

theorem store_payloadUtf8 : (store message field).payloadUtf8 =
    ((field.bytesAt 6).map fromUtf8Lossy).getD message.payloadUtf8 := by
  cases field <;> grind [store, CastMessage.setVarint, CastMessage.setBytes, WireField.bytesAt]

end Store

@[simp] theorem overrideBy_nil (message : CastMessage) : overrideBy message [] = message := rfl

theorem overrideBy_cons (message : CastMessage) (field : WireField) (fields : List WireField) :
    overrideBy message (field :: fields) = overrideBy (store message field) fields := by
  unfold overrideBy lastVarint lastBytes
  simp only [getLast?_filterMap_cons, getD_map_or, store_protocolVersion, store_sourceId,
    store_destinationId, store_namespaceUrn, store_payloadType, store_payloadUtf8]

/-- Overriding by some fields and then by others. -/
theorem overrideBy_append (message : CastMessage) (first later : List WireField) :
    overrideBy message (first ++ later) = overrideBy (overrideBy message first) later := by
  induction first generalizing message with
  | nil => rfl
  | cons field first ih => rw [List.cons_append, overrideBy_cons, ih, overrideBy_cons]

/-! ## Payloads -/

/-- The decoding loop reads the fields of a payload and stores them. -/
theorem decodeFields_iff {fuel : Nat} {message result : CastMessage} {bytes : List Byte}
    (hFuel : bytes.length ≤ fuel) :
    decodeFields fuel message bytes = .ok result ↔
      ∃ fields, Fields bytes fields ∧ result = overrideBy message fields := by
  induction fuel generalizing message bytes with
  | zero =>
      obtain rfl := List.length_eq_zero_iff.mp (Nat.le_zero.mp hFuel)
      constructor
      · intro h
        cases h
        exact ⟨[], .nil, rfl⟩
      · rintro ⟨fields, hFields, rfl⟩
        cases hFields with
        | nil => rfl
        | cons hRead _ => cases hRead
  | succ fuel ih =>
      cases bytes with
      | nil =>
          constructor
          · intro h
            cases h
            exact ⟨[], .nil, rfl⟩
          · rintro ⟨fields, hFields, rfl⟩
            cases hFields with
            | nil => rfl
            | cons hRead _ => cases hRead
      | cons b bytes =>
          unfold decodeFields
          rw [decodeField_eq]
          cases hRead : readField (b :: bytes) with
          | error error =>
              constructor
              · intro h
                cases h
              · rintro ⟨fields, hFields, rfl⟩
                cases hFields with
                | cons hRead' _ =>
                    rw [hRead] at hRead'
                    cases hRead'
          | ok read =>
              obtain ⟨field, rest⟩ := read
              obtain ⟨used, hUsed, hSome, -⟩ := readField_local hRead
              have hShorter : rest.length ≤ fuel := by
                have hLength := congrArg List.length hUsed
                have hPos := List.length_pos_iff.mpr hSome
                rw [List.length_append] at hLength
                omega
              show decodeFields fuel (store message field) rest = .ok result ↔ _
              rw [ih hShorter]
              constructor
              · rintro ⟨fields, hFields, rfl⟩
                exact ⟨field :: fields, .cons hRead hFields, (overrideBy_cons _ _ _).symm⟩
              · rintro ⟨fields, hFields, rfl⟩
                cases hFields with
                | cons hRead' hRest =>
                    rw [hRead] at hRead'
                    cases hRead'
                    exact ⟨_, hRest, overrideBy_cons _ _ _⟩

/-- A payload decodes exactly when it is a sequence of fields. -/
theorem decode_iff {bytes : List Byte} {result : CastMessage} :
    decodeCastMessage bytes = .ok result ↔
      ∃ fields, Fields bytes fields ∧ result = overrideBy .empty fields :=
  decodeFields_iff (Nat.le_refl _)

/-- Decoding behind a payload that decodes. -/
theorem decode_append_iff {a b : List Byte} {message result : CastMessage}
    (h : decodeCastMessage a = .ok message) :
    decodeCastMessage (a ++ b) = .ok result ↔
      ∃ fields, Fields b fields ∧ result = overrideBy message fields := by
  obtain ⟨first, hFirst, rfl⟩ := decode_iff.mp h
  rw [decode_iff]
  constructor
  · rintro ⟨all, hAll, rfl⟩
    obtain ⟨later, rfl, hLater⟩ := hFirst.append_iff.mp hAll
    exact ⟨later, hLater, overrideBy_append _ _ _⟩
  · rintro ⟨later, hLater, rfl⟩
    exact ⟨first ++ later, hFirst.append_iff.mpr ⟨later, rfl, hLater⟩,
      (overrideBy_append _ _ _).symm⟩

/-! ## The round trip -/

/-- The decoder takes this key for that number and wire type. -/
def Announces (field : UInt64) (wire : WireType) (number : UInt32) : Prop :=
  (key field wire >>> 3).toUInt32 = number ∧
    WireType.fromNumber (key field wire &&& 0x07).toUInt8 = some wire ∧ number ≠ 0

/-- A field behind an encoded key. -/
theorem readField_key {field : UInt64} {wire : WireType} {number : UInt32}
    (hKey : Announces field wire number) (after : List Byte) :
    readField (varintEncode (key field wire) ++ after) = readContent number wire after := by
  obtain ⟨hNumber, hWire, hSome⟩ := hKey
  unfold readField
  simp only [varintDecode_encode, bind, Except.bind, List.drop_left, hNumber, hWire, if_neg hSome]

theorem readField_zero {field : UInt64} {number : UInt32}
    (hKey : Announces field .varint number) (after : List Byte) :
    readField (varintEncode (key field .varint) ++ ([0] ++ after)) =
      .ok (.varint number 0, after) := by
  rw [readField_key hKey]
  rfl

theorem readField_lengthDelimited {field : UInt64} {number : UInt32} {data : List Byte}
    (hKey : Announces field .lengthDelimited number) (hSize : data.length ≤ maxFieldSize)
    (after : List Byte) :
    readField (lengthDelimited field data ++ after) = .ok (.bytes number data, after) := by
  have hLength : data.length.toUInt64.toNat = data.length := by
    show (UInt64.ofNat data.length).toNat = data.length
    unfold maxFieldSize at hSize
    rw [UInt64.toNat_ofNat']
    omega
  unfold lengthDelimited
  rw [List.append_assoc, List.append_assoc, readField_key hKey]
  unfold readContent
  simp only [varintDecode_encode, bind, Except.bind, List.drop_left, hLength]
  rw [if_neg (by omega), if_neg (by rw [List.length_append]; omega), List.take_left]

/-- The fields of an encoded message. -/
theorem fields_encode {source dest namespaceUrn payload : List Byte}
    (hSource : source.length ≤ maxFieldSize) (hDest : dest.length ≤ maxFieldSize)
    (hNamespace : namespaceUrn.length ≤ maxFieldSize) (hPayload : payload.length ≤ maxFieldSize) :
    Fields
      (varintEncode (key 1 .varint) ++ [0] ++ lengthDelimited 2 source ++ lengthDelimited 3 dest ++
        lengthDelimited 4 namespaceUrn ++ varintEncode (key 5 .varint) ++ [0] ++
        lengthDelimited 6 payload)
      [.varint 1 0, .bytes 2 source, .bytes 3 dest, .bytes 4 namespaceUrn, .varint 5 0,
        .bytes 6 payload] := by
  simp only [List.append_assoc]
  refine .cons (readField_zero ⟨by decide, by decide, by decide⟩ _) ?_
  refine .cons (readField_lengthDelimited ⟨by decide, by decide, by decide⟩ hSource _) ?_
  refine .cons (readField_lengthDelimited ⟨by decide, by decide, by decide⟩ hDest _) ?_
  refine .cons (readField_lengthDelimited ⟨by decide, by decide, by decide⟩ hNamespace _) ?_
  refine .cons (readField_zero ⟨by decide, by decide, by decide⟩ _) ?_
  have hLast := @readField_lengthDelimited 6 6 _
    ⟨by decide, by decide, by decide⟩ hPayload []
  rw [List.append_nil] at hLast
  exact .cons hLast .nil

/-- What `encode_cast_message` writes decodes to the same four strings. -/
theorem decode_encode {source dest namespaceUrn payload : String}
    (hSource : (asBytes source).length ≤ maxFieldSize)
    (hDest : (asBytes dest).length ≤ maxFieldSize)
    (hNamespace : (asBytes namespaceUrn).length ≤ maxFieldSize)
    (hPayload : (asBytes payload).length ≤ maxFieldSize) :
    decodeCastMessage (encodeCastMessage source dest namespaceUrn payload) =
      .ok ⟨0, source, dest, namespaceUrn, .string, payload⟩ := by
  rw [decode_iff]
  refine ⟨_, fields_encode hSource hDest hNamespace hPayload, ?_⟩
  simp [overrideBy_cons, store, CastMessage.setVarint, CastMessage.setBytes, CastMessage.empty,
    fromUtf8Lossy_asBytes]

/-- **The CastMessage codec.**  Messages survive a round trip; behind a
payload that decodes, another one decodes exactly when it does on its own,
and then overrides the message member by member; and no field's decoding
depends on the bytes behind it. -/
theorem cast_message_codec :
    (∀ source dest namespaceUrn payload : String,
      (asBytes source).length ≤ maxFieldSize → (asBytes dest).length ≤ maxFieldSize →
      (asBytes namespaceUrn).length ≤ maxFieldSize → (asBytes payload).length ≤ maxFieldSize →
        decodeCastMessage (encodeCastMessage source dest namespaceUrn payload) =
          .ok ⟨0, source, dest, namespaceUrn, .string, payload⟩) ∧
    (∀ (a b : List Byte) (message : CastMessage), decodeCastMessage a = .ok message →
      ((∃ result, decodeCastMessage (a ++ b) = .ok result) ↔
        ∃ result, decodeCastMessage b = .ok result) ∧
      ∀ result, decodeCastMessage (a ++ b) = .ok result ↔
        ∃ fields, Fields b fields ∧ result = overrideBy message fields) ∧
    (∀ (message message' : CastMessage) (bytes rest : List Byte),
      decodeField message bytes = .ok (message', rest) →
        ∃ used, bytes = used ++ rest ∧ used ≠ [] ∧
          ∀ after, decodeField message (used ++ after) = .ok (message', after)) := by
  refine ⟨fun source dest namespaceUrn payload => decode_encode, ?_,
    fun message message' bytes rest => decodeField_local⟩
  intro a b message h
  refine ⟨?_, fun result => decode_append_iff h⟩
  constructor
  · rintro ⟨result, hResult⟩
    obtain ⟨fields, hFields, -⟩ := (decode_append_iff h).mp hResult
    exact ⟨_, decode_iff.mpr ⟨fields, hFields, rfl⟩⟩
  · rintro ⟨result, hResult⟩
    obtain ⟨fields, hFields, -⟩ := decode_iff.mp hResult
    exact ⟨_, (decode_append_iff h).mpr ⟨fields, hFields, rfl⟩⟩

/-- A heartbeat, and a source id that overrides its own. -/
theorem codec_ping :
    decodeCastMessage (encodeCastMessage "s" "r" "n" "PING") =
        .ok ⟨0, "s", "r", "n", .string, "PING"⟩ ∧
      ((∃ result, decodeCastMessage (encodeCastMessage "s" "r" "n" "PING" ++ [0x12, 1, 98]) =
          .ok result) ↔ ∃ result, decodeCastMessage [0x12, 1, 98] = .ok result) := by
  obtain ⟨hRound, hCompose, -⟩ := cast_message_codec
  have hPing := hRound "s" "r" "n" "PING" (by decide +kernel) (by decide +kernel)
    (by decide +kernel) (by decide +kernel)
  exact ⟨hPing, (hCompose _ _ _ hPing).1⟩

end CastApp.Cast.Codec
