import CastApp.Cast.Codec
import CastApp.Verified.LastWrite

/-!
# Fields the message does not know

A field number is the whole of a 64-bit key above its wire type, and a field
whose number is not 1 to 6 should be skipped.  The decoder narrows the number
to 32 bits first, so a larger number may pass for a known one, or for 0.

* `decode_message` — what a sequence of well-formed fields decodes to.
* **`unknown_field_ignored_iff`** — a field inserted between two others leaves
  the message as it was exactly when it does not clobber it.
* `unaliased_field_ignored` — which it never does when the low 32 bits of its
  number are beyond 6.
* `aliased_field` — the field 4294967302 replaces the payload.
-/

namespace CastApp.Cast.UnknownFields

open CastApp.State
open CastApp.Cast.Codec
open CastApp.Cast.Proto
open CastApp.Util.Utf8
open CastApp.Verified.LastWrite

/-! ## Well-formed fields -/

/-- What a field carries behind its key. -/
inductive Content : Type
  | varint (value : UInt64)
  | fixed64
  | bytes (data : List Byte)
  | fixed32
  deriving DecidableEq

def Content.wire : Content → WireType
  | .varint _ => .varint
  | .fixed64 => .fixed64
  | .bytes _ => .lengthDelimited
  | .fixed32 => .fixed32

/-- A field, with its number at full width. -/
structure Field where
  number : UInt64
  content : Content
  deriving DecidableEq

/-- The bytes are one varint, not necessarily the shortest of its value. -/
def Varint (bytes : List Byte) (value : UInt64) : Prop :=
  varintDecode bytes = .ok (value, bytes.length)

/-- The bytes of a content within the size limit. -/
inductive EncodesContent : List Byte → Content → Prop
  | varint {bytes : List Byte} {value : UInt64} (hValue : Varint bytes value) :
      EncodesContent bytes (.varint value)
  | fixed64 {bytes : List Byte} (hWidth : bytes.length = 8) : EncodesContent bytes .fixed64
  | bytes {header data : List Byte} {length : UInt64} (hHeader : Varint header length)
      (hLength : length.toNat = data.length) (hSize : data.length ≤ maxFieldSize) :
      EncodesContent (header ++ data) (.bytes data)
  | fixed32 {bytes : List Byte} (hWidth : bytes.length = 4) : EncodesContent bytes .fixed32

/-- The bytes of a field: its key, with a number other than 0, and its content. -/
inductive Encodes : List Byte → Field → Prop
  | field {key content : List Byte} {keyValue : UInt64} {field : Field}
      (hKey : Varint key keyValue) (hNumber : keyValue >>> 3 = field.number)
      (hWire : WireType.fromNumber (keyValue &&& 0x07).toUInt8 = some field.content.wire)
      (hSome : field.number ≠ 0) (hContent : EncodesContent content field.content) :
      Encodes (key ++ content) field

/-- A well-formed message as a sequence of fields. -/
inductive Message : List Byte → List Field → Prop
  | nil : Message [] []
  | cons {bytes rest : List Byte} {field : Field} {fields : List Field}
      (hField : Encodes bytes field) (hRest : Message rest fields) :
      Message (bytes ++ rest) (field :: fields)

theorem Message.append {a b : List Byte} {first later : List Field} (hFirst : Message a first)
    (hLater : Message b later) : Message (a ++ b) (first ++ later) := by
  induction hFirst with
  | nil => exact hLater
  | cons hField _ ih =>
      rw [List.append_assoc]
      exact .cons hField ih

/-! ## What the decoder makes of a field -/

/-- The number as the decoder compares it. -/
def Field.narrowed (field : Field) : UInt32 := field.number.toUInt32

/-- The field under its narrowed number. -/
def Field.narrow (field : Field) : WireField :=
  match field.content with
  | .varint value => .varint field.narrowed value
  | .bytes data => .bytes field.narrowed data
  | .fixed64 | .fixed32 => .fixed field.narrowed

theorem Varint.decode {bytes : List Byte} {value : UInt64} (h : Varint bytes value)
    (after : List Byte) : varintDecode (bytes ++ after) = .ok (value, bytes.length) := by
  obtain ⟨used, hBytes, -, hLength, hAfter⟩ := varintDecode_local h
  rw [List.drop_length, List.append_nil] at hBytes
  rw [hBytes]
  exact hAfter after

theorem Varint.ne_nil {bytes : List Byte} {value : UInt64} (h : Varint bytes value) :
    bytes ≠ [] := by
  rintro rfl
  cases h

theorem skipFixed_width {width : Nat} {bytes : List Byte} (h : bytes.length = width)
    (after : List Byte) : skipFixed width (bytes ++ after) = .ok after := by
  unfold skipFixed
  rw [if_neg (by rw [List.length_append]; omega), List.drop_left' h]

theorem readContent_encodes {bytes : List Byte} {field : Field}
    (h : EncodesContent bytes field.content) (after : List Byte) :
    readContent field.narrowed field.content.wire (bytes ++ after) = .ok (field.narrow, after) := by
  unfold Field.narrow
  generalize field.content = content at h
  cases h with
  | varint hValue =>
      simp only [readContent, Content.wire, hValue.decode, bind, Except.bind, List.drop_left]
  | fixed64 hWidth =>
      simp only [readContent, Content.wire, skipFixed_width hWidth, bind, Except.bind]
  | @bytes header data length hHeader hLength hSize =>
      simp only [readContent, Content.wire, List.append_assoc, hHeader.decode, bind, Except.bind,
        List.drop_left]
      rw [if_neg (by omega), if_neg (by rw [List.length_append]; omega),
        List.take_left' hLength.symm, List.drop_left' hLength.symm]
  | fixed32 hWidth =>
      simp only [readContent, Content.wire, skipFixed_width hWidth, bind, Except.bind]

theorem readField_encodes {bytes : List Byte} {field : Field} (h : Encodes bytes field)
    (after : List Byte) :
    readField (bytes ++ after) =
      if field.narrowed = 0 then .error .missingFieldNumber else .ok (field.narrow, after) := by
  cases h with
  | field hKey hNumber hWire hSome hContent =>
      have hRead := readContent_encodes hContent after
      unfold Field.narrowed at hRead ⊢
      unfold readField
      simp only [List.append_assoc, hKey.decode, bind, Except.bind, List.drop_left, hNumber, hWire,
        hRead]

theorem Encodes.ne_nil {bytes : List Byte} {field : Field} (h : Encodes bytes field) :
    bytes ≠ [] := by
  cases h with
  | field hKey =>
      intro hNil
      exact hKey.ne_nil (List.append_eq_nil_iff.mp hNil).1

/-! ## What the decoder makes of a message -/

/-- The message overridden by the narrowed fields, if none of them is 0. -/
def meaning (message : CastMessage) (fields : List Field) : Except ProtoError CastMessage :=
  if fields.all (·.narrowed ≠ 0) then
    .ok (overrideBy message (fields.map Field.narrow))
  else
    .error .missingFieldNumber

theorem meaning_cons (message : CastMessage) (field : Field) (fields : List Field) :
    meaning message (field :: fields) =
      if field.narrowed = 0 then .error .missingFieldNumber
      else meaning (store message field.narrow) fields := by
  unfold meaning
  by_cases hZero : field.narrowed = 0
  · simp [hZero]
  · simp [hZero, overrideBy_cons]

theorem decodeFields_message {bytes : List Byte} {fields : List Field} (h : Message bytes fields)
    {fuel : Nat} (hFuel : bytes.length ≤ fuel) (message : CastMessage) :
    decodeFields fuel message bytes = meaning message fields := by
  induction h generalizing fuel message with
  | nil => cases fuel <;> rfl
  | @cons bytes rest field fields hField hRest ih =>
      obtain ⟨byte, bytes', rfl⟩ := List.exists_cons_of_ne_nil hField.ne_nil
      cases fuel with
      | zero => simp at hFuel
      | succ fuel =>
          have hShorter : rest.length ≤ fuel := by
            rw [List.length_append, List.length_cons] at hFuel
            omega
          show (decodeField message (byte :: bytes' ++ rest)).bind _ = _
          rw [decodeField_eq, readField_encodes hField, meaning_cons]
          by_cases hZero : field.narrowed = 0
          · rw [if_pos hZero, if_pos hZero]
            rfl
          · rw [if_neg hZero, if_neg hZero]
            exact ih hShorter (store message field.narrow)

/-- A well-formed message decodes to what its fields mean. -/
theorem decode_message {bytes : List Byte} {fields : List Field} (h : Message bytes fields) :
    decodeCastMessage bytes = meaning .empty fields :=
  decodeFields_message h (Nat.le_refl _) .empty

/-! ## A message as registers -/

inductive Member : Type
  | protocolVersion
  | sourceId
  | destinationId
  | namespaceUrn
  | payloadType
  | payloadUtf8
  deriving DecidableEq, Repr

inductive Value : Type
  | version (n : UInt32)
  | text (s : String)
  | kind (payloadType : PayloadType)
  deriving DecidableEq, Repr

/-- What each member of a message holds. -/
def contents (message : CastMessage) : Member → Value
  | .protocolVersion => .version message.protocolVersion
  | .sourceId => .text message.sourceId
  | .destinationId => .text message.destinationId
  | .namespaceUrn => .text message.namespaceUrn
  | .payloadType => .kind message.payloadType
  | .payloadUtf8 => .text message.payloadUtf8

/-- The member a field goes to, and what it puts there. -/
def WireField.write : WireField → Option (Member × Value)
  | .varint number value =>
      if number = 1 then some (.protocolVersion, .version value.toUInt32)
      else if number = 5 then
        some (.payloadType, .kind (if value = 1 then .binary else .string))
      else none
  | .bytes number data =>
      if number = 2 then some (.sourceId, .text (fromUtf8Lossy data))
      else if number = 3 then some (.destinationId, .text (fromUtf8Lossy data))
      else if number = 4 then some (.namespaceUrn, .text (fromUtf8Lossy data))
      else if number = 6 then some (.payloadUtf8, .text (fromUtf8Lossy data))
      else none
  | .fixed _ => none

/-- The member the decoder takes a field for, and what it puts there. -/
def Field.write (field : Field) : Option (Member × Value) := WireField.write field.narrow

theorem contents_injective {message message' : CastMessage}
    (h : contents message = contents message') : message = message' := by
  have hVersion := congrFun h .protocolVersion
  have hSource := congrFun h .sourceId
  have hDestination := congrFun h .destinationId
  have hNamespace := congrFun h .namespaceUrn
  have hKind := congrFun h .payloadType
  have hPayload := congrFun h .payloadUtf8
  simp only [contents, Value.version.injEq, Value.text.injEq, Value.kind.injEq] at *
  cases message
  cases message'
  simp_all

theorem contents_setVarint (message : CastMessage) (number : UInt32) (value : UInt64) :
    contents (message.setVarint number value) =
      writeAll (contents message) (WireField.write (.varint number value)).toList := by
  funext member
  unfold CastMessage.setVarint WireField.write
  by_cases hVersion : number = 1
  · simp only [if_pos hVersion]
    cases member <;> rfl
  · simp only [if_neg hVersion]
    by_cases hKind : number = 5
    · simp only [if_pos hKind]
      cases member <;> rfl
    · simp only [if_neg hKind]
      rfl

theorem contents_setBytes (message : CastMessage) (number : UInt32) (data : List Byte) :
    contents (message.setBytes number data) =
      writeAll (contents message) (WireField.write (.bytes number data)).toList := by
  funext member
  unfold CastMessage.setBytes WireField.write
  by_cases hSource : number = 2
  · simp only [if_pos hSource]
    cases member <;> rfl
  · simp only [if_neg hSource]
    by_cases hDestination : number = 3
    · simp only [if_pos hDestination]
      cases member <;> rfl
    · simp only [if_neg hDestination]
      by_cases hNamespace : number = 4
      · simp only [if_pos hNamespace]
        cases member <;> rfl
      · simp only [if_neg hNamespace]
        by_cases hPayload : number = 6
        · simp only [if_pos hPayload]
          cases member <;> rfl
        · simp only [if_neg hPayload]
          rfl

theorem contents_store (message : CastMessage) (field : WireField) :
    contents (store message field) =
      writeAll (contents message) (WireField.write field).toList := by
  cases field with
  | varint number value => exact contents_setVarint message number value
  | bytes number data => exact contents_setBytes message number data
  | fixed number => rfl

/-- The writes of a sequence of fields. -/
def writes (fields : List Field) : List (Member × Value) := fields.filterMap Field.write

theorem writes_cons (field : Field) (fields : List Field) :
    writes (field :: fields) = field.write.toList ++ writes fields := by
  unfold writes
  cases hWrite : field.write with
  | none => exact List.filterMap_cons_none hWrite
  | some write => exact List.filterMap_cons_some hWrite

theorem contents_overrideBy (message : CastMessage) (fields : List Field) :
    contents (overrideBy message (fields.map Field.narrow)) =
      writeAll (contents message) (writes fields) := by
  induction fields generalizing message with
  | nil => rfl
  | cons field fields ih =>
      rw [List.map_cons, overrideBy_cons, ih, contents_store, writes_cons, writeAll_append]
      rfl

/-! ## Inserting a field -/

/-- What a member holds after the fields, starting from the empty message. -/
def valueAt (fields : List Field) (member : Member) : Value :=
  writeAll (contents .empty) (writes fields) member

/-- Between `first` and `later`, a field does damage: the message decodes
without it, and its narrowed number is 0, or is that of a member to which no
later field goes and which holds something else. -/
structure Clobbers (first : List Field) (field : Field) (later : List Field) : Prop where
  decodes : ∀ other ∈ first ++ later, other.narrowed ≠ 0
  changes : field.narrowed = 0 ∨ ∃ member value, field.write = some (member, value) ∧
    (∀ other ∈ writes later, other.1 ≠ member) ∧ valueAt first member ≠ value

theorem meaning_of_decodes {message : CastMessage} {fields : List Field}
    (h : ∀ field ∈ fields, field.narrowed ≠ 0) :
    meaning message fields = .ok (overrideBy message (fields.map Field.narrow)) := by
  unfold meaning
  rw [if_pos (by simpa using h)]

theorem meaning_of_zero {message : CastMessage} {fields : List Field} {field : Field}
    (hMem : field ∈ fields) (hZero : field.narrowed = 0) :
    meaning message fields = .error .missingFieldNumber := by
  unfold meaning
  rw [if_neg]
  intro hAll
  have hField := List.all_eq_true.mp hAll field hMem
  simp [hZero] at hField

/-- Behind fields that decode, one more that decodes is seen unless a later one
covers it or it puts what is there. -/
theorem overrideBy_insert_iff (first later : List Field) (field : Field) :
    overrideBy .empty ((first ++ field :: later).map Field.narrow) =
        overrideBy .empty ((first ++ later).map Field.narrow) ↔
      ∀ member value, field.write = some (member, value) →
        (∃ other ∈ writes later, other.1 = member) ∨ valueAt first member = value := by
  have hContents : overrideBy .empty ((first ++ field :: later).map Field.narrow) =
        overrideBy .empty ((first ++ later).map Field.narrow) ↔
      writeAll (contents .empty) (writes (first ++ field :: later)) =
        writeAll (contents .empty) (writes (first ++ later)) := by
    rw [← contents_overrideBy, ← contents_overrideBy]
    exact ⟨fun h => congrArg contents h, contents_injective⟩
  rw [hContents]
  have hSplit : ∀ fields, writes (first ++ fields) = writes first ++ writes fields := fun fields =>
    List.filterMap_append
  rw [hSplit, hSplit, writes_cons]
  unfold valueAt
  cases hWrite : field.write with
  | none => simp
  | some write =>
      rw [Option.toList_some, List.singleton_append, writeAll_insert_iff]
      constructor
      · intro h member value hEq
        cases hEq
        exact h
      · intro h
        exact h write.1 write.2 rfl

theorem meaning_insert_iff (first later : List Field) (field : Field) :
    meaning .empty (first ++ field :: later) = meaning .empty (first ++ later) ↔
      ¬ Clobbers first field later := by
  by_cases hDecodes : ∀ other ∈ first ++ later, other.narrowed ≠ 0
  · by_cases hZero : field.narrowed = 0
    · have hError := @meaning_of_zero .empty (first ++ field :: later) field (by simp) hZero
      rw [hError, meaning_of_decodes hDecodes]
      apply iff_of_false
      · intro h
        cases h
      · intro h
        exact h ⟨hDecodes, .inl hZero⟩
    · have hAll : ∀ other ∈ first ++ field :: later, other.narrowed ≠ 0 := by
        intro other hMem
        rcases List.mem_append.mp hMem with hFirst | hMem
        · exact hDecodes other (List.mem_append_left _ hFirst)
        · rcases List.mem_cons.mp hMem with rfl | hLater
          · exact hZero
          · exact hDecodes other (List.mem_append_right _ hLater)
      rw [meaning_of_decodes hAll, meaning_of_decodes hDecodes, Except.ok.injEq,
        overrideBy_insert_iff]
      constructor
      · rintro hKept ⟨-, hChanges⟩
        obtain ⟨member, value, hWrite, hUncovered, hOther⟩ := hChanges.resolve_left hZero
        rcases hKept member value hWrite with ⟨other, hMem, hMember⟩ | hHeld
        · exact hUncovered other hMem hMember
        · exact hOther hHeld
      · intro hHarmless member value hWrite
        apply Classical.byContradiction
        intro hBad
        apply hHarmless ⟨hDecodes, .inr ⟨member, value, hWrite, ?_, fun h => hBad (.inr h)⟩⟩
        intro other hMem hMember
        exact hBad (.inl ⟨other, hMem, hMember⟩)
  · -- The message does not decode in either case.
    have hZero : ∃ other ∈ first ++ later, other.narrowed = 0 := by
      apply Classical.byContradiction
      intro hNone
      exact hDecodes fun other hMem hOther => hNone ⟨other, hMem, hOther⟩
    obtain ⟨other, hMem, hOther⟩ := hZero
    have hMore : other ∈ first ++ field :: later := by
      rcases List.mem_append.mp hMem with hMem | hMem
      · exact List.mem_append_left _ hMem
      · exact List.mem_append_right _ (List.mem_cons_of_mem _ hMem)
    rw [meaning_of_zero hMem hOther, meaning_of_zero hMore hOther]
    exact iff_of_true rfl fun h => hDecodes h.decodes

section Insert

variable {a b inserted : List Byte} {first later : List Field} {field : Field}

theorem decode_insert (hFirst : Message a first) (hLater : Message b later)
    (hField : Encodes inserted field) :
    decodeCastMessage (a ++ inserted ++ b) = meaning .empty (first ++ field :: later) := by
  rw [List.append_assoc]
  exact decode_message (hFirst.append (.cons hField hLater))

/-- **Fields between others.**  A well-formed field, at a boundary of a
well-formed message, leaves the result of decoding as it was exactly when it
does not clobber the message. -/
theorem unknown_field_ignored_iff (hFirst : Message a first) (hLater : Message b later)
    (hField : Encodes inserted field) :
    decodeCastMessage (a ++ inserted ++ b) = decodeCastMessage (a ++ b) ↔
      ¬ Clobbers first field later := by
  rw [decode_insert hFirst hLater hField, decode_message (hFirst.append hLater)]
  exact meaning_insert_iff first later field

/-- A field whose number is beyond 6 in its low 32 bits clobbers no message. -/
theorem unaliased_field_ignored (hFirst : Message a first) (hLater : Message b later)
    (hField : Encodes inserted field) (hUnknown : 6 < field.narrowed.toNat) :
    decodeCastMessage (a ++ inserted ++ b) = decodeCastMessage (a ++ b) := by
  have hNe : ∀ known : UInt32, known.toNat ≤ 6 → field.narrowed ≠ known := by
    rintro known hKnown rfl
    omega
  have hWrite : field.write = none := by
    unfold Field.write Field.narrow
    cases field.content with
    | varint value => simp [WireField.write, hNe]
    | bytes data => simp [WireField.write, hNe]
    | fixed64 | fixed32 => rfl
  rw [decode_insert hFirst hLater hField, decode_message (hFirst.append hLater)]
  apply (meaning_insert_iff first later field).mpr
  rintro ⟨-, hZero | ⟨member, value, hSome, -⟩⟩
  · exact hNe 0 (by decide) hZero
  · rw [hWrite] at hSome
    cases hSome

end Insert

/-! ### Two fields behind a message -/

/-- A message of one field, the payload `PING`. -/
def pingBytes : List Byte := [0x32, 4, 80, 73, 78, 71]

def pingField : Field := ⟨6, .bytes [80, 73, 78, 71]⟩

theorem message_ping : Message pingBytes [pingField] := by
  have hKey : Varint [0x32] 0x32 := rfl
  have hHeader : Varint [4] 4 := rfl
  have hContent : EncodesContent ([4] ++ [80, 73, 78, 71]) (.bytes [80, 73, 78, 71]) :=
    .bytes hHeader rfl (by decide)
  have hField : Encodes ([0x32] ++ ([4] ++ [80, 73, 78, 71])) pingField :=
    .field hKey rfl rfl (by decide) hContent
  exact .cons hField .nil

/-- The varint field 100 that the decoder's own test appends. -/
theorem encodes_hundred : Encodes ([0xA0, 0x06] ++ [0x2A]) ⟨100, .varint 42⟩ := by
  have hKey : Varint [0xA0, 0x06] 800 := rfl
  have hContent : EncodesContent [0x2A] (.varint 42) := .varint rfl
  exact .field hKey rfl rfl (by decide) hContent

/-- The field 4294967302, which is 2 ^ 32 + 6, with the content `x`. -/
theorem encodes_alias :
    Encodes ([0xB2, 0x80, 0x80, 0x80, 0x80, 0x01] ++ ([1] ++ [120]))
      ⟨4294967302, .bytes [120]⟩ := by
  have hKey : Varint [0xB2, 0x80, 0x80, 0x80, 0x80, 0x01] 34359738418 := rfl
  have hHeader : Varint [1] 1 := rfl
  have hContent : EncodesContent ([1] ++ [120]) (.bytes [120]) := .bytes hHeader rfl (by decide)
  exact .field hKey rfl rfl (by decide) hContent

/-- The field 100 behind `PING`. -/
theorem hundred_ignored :
    decodeCastMessage (pingBytes ++ ([0xA0, 0x06] ++ [0x2A]) ++ []) =
        decodeCastMessage (pingBytes ++ []) ↔
      ¬ Clobbers [pingField] ⟨100, .varint 42⟩ [] :=
  unknown_field_ignored_iff message_ping .nil encodes_hundred

/-- The field 4294967302 behind `PING` replaces the payload. -/
theorem aliased_field :
    ∃ fields field inserted, Message pingBytes fields ∧ Encodes inserted field ∧
      6 < field.number.toNat ∧
      decodeCastMessage (pingBytes ++ inserted ++ []) ≠ decodeCastMessage (pingBytes ++ []) := by
  refine ⟨_, _, _, message_ping, encodes_alias, by decide, ?_⟩
  intro hSame
  have hPayload := congrArg (fun result => result.toOption.map (·.payloadUtf8)) hSame
  revert hPayload
  decide +kernel

end CastApp.Cast.UnknownFields
