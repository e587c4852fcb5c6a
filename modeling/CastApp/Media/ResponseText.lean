import CastApp.Media.UrlProxy
import CastApp.Media.RequestHead
import CastApp.Util.Display

/-!
# Response heads as a client reads them

A client takes a response apart line by line.  It reads the head that was meant
as long as the reason and the fields of that head stay on their lines, which
holds of every head the serving modules write: what an origin answers is
mirrored into a head, and nothing it answers adds a line to it.

* `readResponse` — the client.
* `readResponse_text`, `readResponse_prefix` — a head whose fields stay on
  their lines is read back, from all of a response and from a part of it.
* `headOf_wellFormed`, `mirroredHead_wellFormed` — the heads that are written.
-/

namespace CastApp.Media.ResponseText

open CastApp.Media.RequestHead
open CastApp.Media.Serving
open CastApp.State
open CastApp.Util
open CastApp.Util.Display
open CastApp.Util.Utf8

/-! ## A client -/

/-- A field as a client reads it: the white space around its value is none of
it. -/
def readField (line : List Char) : Option (String × String) :=
  (Text.splitOnce ':' line).map fun (name, value) =>
    (String.ofList name, String.ofList (Text.trim value))

/-- The fields of a head, up to the empty line, and the bytes behind it. -/
def readFields (bytes : List Byte) : Option (List (String × String) × List Byte) :=
  match _hLine : newlineAt bytes with
  | none => none
  | some (line, rest) =>
      match trimLineEnd (fromUtf8Lossy line).toList with
      | [] => some ([], rest)
      | c :: text => do
          let field ← readField (c :: text)
          let (fields, body) ← readFields rest
          some (field :: fields, body)
termination_by bytes.length
decreasing_by
  obtain ⟨hBytes, hSome⟩ := newlineAt_length _hLine
  have hLength := congrArg List.length hBytes
  have hPos := List.length_pos_iff.mpr hSome
  rw [List.length_append] at hLength
  omega

def readNumber (digits : List Char) : Option Nat :=
  if digits ≠ [] ∧ digits.all Char.isDigit then some (Nat.ofDigitChars 10 digits 0) else none

/-- Status and reason of a status line. -/
def readStatus (line : List Char) : Option (Nat × String) :=
  let (version, code, reason) := splitThree line
  if "HTTP/1.".toList.isPrefixOf version then
    (readNumber code).map fun status => (status, String.ofList reason)
  else none

/-- A head and the bytes behind it; nothing while the head is incomplete. -/
def readResponse (bytes : List Byte) : Option (ResponseHead × List Byte) := do
  let (line, rest) ← newlineAt bytes
  let (status, reason) ← readStatus (trimLineEnd (fromUtf8Lossy line).toList)
  let (headers, body) ← readFields rest
  some (⟨status, reason, headers⟩, body)

/-! ## Heads that are read back -/

/-- Text that stays on its line. -/
def OneLine (text : String) : Prop := '\r' ∉ text.toList ∧ '\n' ∉ text.toList

instance (text : String) : Decidable (OneLine text) := inferInstanceAs (Decidable (_ ∧ _))

structure WellFormedField (field : String × String) : Prop where
  name : OneLine field.1
  colon : ':' ∉ field.1.toList
  value : OneLine field.2

instance (field : String × String) : Decidable (WellFormedField field) :=
  decidable_of_iff (OneLine field.1 ∧ ':' ∉ field.1.toList ∧ OneLine field.2)
    ⟨fun h => ⟨h.1, h.2.1, h.2.2⟩, fun h => ⟨h.name, h.colon, h.value⟩⟩

structure WellFormed (head : ResponseHead) : Prop where
  reason : OneLine head.reason
  fields : ∀ field ∈ head.headers, WellFormedField field

instance (head : ResponseHead) : Decidable (WellFormed head) :=
  decidable_of_iff (OneLine head.reason ∧ ∀ field ∈ head.headers, WellFormedField field)
    ⟨fun h => ⟨h.1, h.2⟩, fun h => ⟨h.reason, h.fields⟩⟩

/-- A head as a client reads it. -/
def asRead (head : ResponseHead) : ResponseHead where
  status := head.status
  reason := head.reason
  headers := head.headers.map (fun field =>
    (field.1, String.ofList (Text.trim field.2.toList))) ++ [("Connection", "close")]

theorem newlineAt_of_not_mem {line rest : List Byte} (h : (0x0A : Byte) ∉ line) :
    newlineAt (line ++ 0x0A :: rest) = some (line ++ [0x0A], rest) := by
  induction line with
  | nil => rfl
  | cons b line ih =>
      have hOther : b ≠ 0x0A := fun hSame => h (hSame ▸ List.mem_cons_self ..)
      rw [List.cons_append, newlineAt_cons, if_neg hOther,
        ih fun hMem => h (List.mem_cons_of_mem _ hMem)]
      rfl

/-- A line end and nothing else is trimmed. -/
theorem trimLineEnd_append {text : List Char} (h : ∀ c ∈ text, c ≠ '\r' ∧ c ≠ '\n') :
    trimLineEnd (text ++ ['\r', '\n']) = text := by
  have hStop : text.reverse.dropWhile (fun c => c = '\r' || c = '\n') = text.reverse := by
    cases hText : text.reverse with
    | nil => rfl
    | cons c rest =>
        have hMem : c ∈ text := List.mem_reverse.mp (hText ▸ List.mem_cons_self ..)
        obtain ⟨hCr, hLf⟩ := h c hMem
        simp [hCr, hLf]
  unfold trimLineEnd
  rw [List.reverse_append]
  show (List.dropWhile (fun c => c = '\r' || c = '\n') ('\n' :: '\r' :: text.reverse)).reverse = _
  simp only [List.dropWhile_cons, decide_true, Bool.or_true, Bool.true_or, if_true]
  rw [hStop, List.reverse_reverse]

/-- A line as it is written is one up to the next newline. -/
theorem newlineAt_text {text : String} (h : OneLine text) (rest : List Byte) :
    newlineAt (asBytes (text ++ "\r\n") ++ rest) = some (asBytes (text ++ "\r\n"), rest) := by
  have hEnd : asBytes "\r\n" = [0x0D, 0x0A] := by decide +kernel
  have hNone : (0x0A : Byte) ∉ asBytes text ++ [0x0D] := by
    intro hMem
    rcases List.mem_append.mp hMem with hText | hCr
    · exact not_mem_asBytes (by decide) (by decide : String.utf8EncodeChar '\n' = [0x0A]) h.2 hText
    · simp at hCr
  have hSplit : asBytes (text ++ "\r\n") ++ rest = (asBytes text ++ [0x0D]) ++ 0x0A :: rest := by
    rw [asBytes_append, hEnd]
    simp
  rw [hSplit, newlineAt_of_not_mem hNone, asBytes_append, hEnd]
  simp

/-- A line as it is read is the one that was written. -/
theorem trimLineEnd_text {text : String} (h : OneLine text) :
    trimLineEnd (text ++ "\r\n").toList = text.toList := by
  have hChars : (text ++ "\r\n").toList = text.toList ++ ['\r', '\n'] := by simp
  rw [hChars]
  refine trimLineEnd_append fun c hMem => ⟨?_, ?_⟩
  · rintro rfl
    exact h.1 hMem
  · rintro rfl
    exact h.2 hMem

theorem readLine {text : String} (h : OneLine text) :
    trimLineEnd (fromUtf8Lossy (asBytes (text ++ "\r\n"))).toList = text.toList := by
  rw [fromUtf8Lossy_asBytes]
  exact trimLineEnd_text h

theorem oneLine_append {first rest : String} (hFirst : OneLine first) (hRest : OneLine rest) :
    OneLine (first ++ rest) := by
  constructor
  · rw [String.toList_append, List.mem_append]
    exact fun hMem => hMem.elim hFirst.1 hRest.1
  · rw [String.toList_append, List.mem_append]
    exact fun hMem => hMem.elim hFirst.2 hRest.2

theorem oneLine_toString (n : Nat) : OneLine (toString n) := by
  unfold OneLine
  rw [toList_toString]
  exact ⟨not_mem_toDigits rfl n, not_mem_toDigits rfl n⟩

/-! ## Fields and status -/

theorem readFields_nil {bytes line rest : List Byte} (hLine : newlineAt bytes = some (line, rest))
    (hText : trimLineEnd (fromUtf8Lossy line).toList = []) :
    readFields bytes = some ([], rest) := by
  unfold readFields
  split
  · next hNone => rw [hNone] at hLine; cases hLine
  · next hSome =>
    rw [hSome] at hLine
    cases hLine
    rw [hText]

theorem readFields_cons {bytes line rest : List Byte} {text : List Char}
    {field : String × String} {fields : List (String × String)} {body : List Byte}
    (hLine : newlineAt bytes = some (line, rest))
    (hText : trimLineEnd (fromUtf8Lossy line).toList = text) (hSome : text ≠ [])
    (hField : readField text = some field) (hRest : readFields rest = some (fields, body)) :
    readFields bytes = some (field :: fields, body) := by
  unfold readFields
  split
  · next hNone => rw [hNone] at hLine; cases hLine
  · next hFound =>
    rw [hFound] at hLine
    cases hLine
    rw [hText]
    cases text with
    | nil => exact absurd rfl hSome
    | cons c text =>
        dsimp only
        rw [hField, hRest]
        rfl

theorem trim_cons_space (text : List Char) : Text.trim (' ' :: text) = Text.trim text := rfl

/-- A field without the white space around its value. -/
def trimmedField (field : String × String) : String × String :=
  (field.1, String.ofList (Text.trim field.2.toList))

theorem readField_text {field : String × String} (h : WellFormedField field) :
    readField (field.1 ++ ": " ++ field.2).toList = some (trimmedField field) := by
  have hChars : (field.1 ++ ": " ++ field.2).toList =
      field.1.toList ++ ':' :: (' ' :: field.2.toList) := by simp
  unfold readField
  rw [hChars, Text.splitOnce_append h.colon, Option.map_some]
  show some (String.ofList field.1.toList, String.ofList (Text.trim (' ' :: field.2.toList))) = _
  rw [trim_cons_space, String.ofList_toList]
  rfl

theorem readFields_field {field : String × String} (h : WellFormedField field)
    {rest body : List Byte} {fields : List (String × String)}
    (hRest : readFields rest = some (fields, body)) :
    readFields (asBytes (field.1 ++ ": " ++ field.2 ++ "\r\n") ++ rest) =
      some (trimmedField field :: fields, body) := by
  have hLine : OneLine (field.1 ++ ": " ++ field.2) :=
    oneLine_append (oneLine_append h.name (by decide)) h.value
  refine readFields_cons (newlineAt_text hLine rest) (readLine hLine) ?_ (readField_text h) hRest
  simp

theorem readFields_end (body : List Byte) :
    readFields (asBytes "\r\n" ++ body) = some ([], body) := by
  have hEmpty : OneLine "" := by decide
  exact readFields_nil (newlineAt_text hEmpty body) (readLine hEmpty)

def fieldsText (headers : List (String × String)) : String :=
  String.join (headers.map fun field => field.1 ++ ": " ++ field.2 ++ "\r\n")

/-- The fields of a head are read back, whatever the body. -/
theorem readFields_text {headers : List (String × String)}
    (h : ∀ field ∈ headers, WellFormedField field) (body : List Byte) :
    readFields (asBytes (fieldsText headers) ++ (asBytes "Connection: close\r\n\r\n" ++ body)) =
      some (headers.map trimmedField ++ [("Connection", "close")], body) := by
  induction headers with
  | nil =>
      have hClose : WellFormedField ("Connection", "close") :=
        ⟨by decide, by decide, by decide⟩
      have hText : asBytes "Connection: close\r\n\r\n" =
          asBytes ("Connection" ++ ": " ++ "close" ++ "\r\n") ++ asBytes "\r\n" := by
        decide +kernel
      have hTrimmed : trimmedField ("Connection", "close") = ("Connection", "close") := by
        decide +kernel
      have hRead := readFields_field hClose (readFields_end body)
      rw [hTrimmed, ← List.append_assoc, ← hText] at hRead
      exact hRead
  | cons field headers ih =>
      have hJoin : fieldsText (field :: headers) =
          (field.1 ++ ": " ++ field.2 ++ "\r\n") ++ fieldsText headers := by
        unfold fieldsText
        rw [List.map_cons, String.join_cons]
      rw [hJoin, asBytes_append, List.append_assoc]
      exact readFields_field (h field (by simp)) (ih fun other hMem => h other (by simp [hMem]))

theorem readNumber_toString (n : Nat) : readNumber (toString n).toList = some n := by
  have hDigits : ∀ c ∈ Nat.toDigits 10 n, c.isDigit = true := by
    intro c hMem
    exact Nat.isDigit_of_mem_toDigits (by decide) (by decide) hMem
  have hSome : Nat.toDigits 10 n ≠ [] := Nat.toDigits_ne_nil
  unfold readNumber
  rw [toList_toString, if_pos ⟨hSome, List.all_eq_true.mpr hDigits⟩]
  simp

def statusLine (head : ResponseHead) : String :=
  "HTTP/1.1 " ++ toString head.status ++ " " ++ head.reason

theorem readStatus_text (head : ResponseHead) :
    readStatus (statusLine head).toList = some (head.status, head.reason) := by
  have hChars : (statusLine head).toList =
      "HTTP/1.1".toList ++ ' ' :: ((toString head.status).toList ++ ' ' :: head.reason.toList) := by
    simp [statusLine]
  have hCode : ' ' ∉ (toString head.status).toList := by
    rw [toList_toString]
    exact not_mem_toDigits rfl head.status
  have hVersion : ' ' ∉ "HTTP/1.1".toList := by decide
  have hPrefix : "HTTP/1.".toList.isPrefixOf "HTTP/1.1".toList = true := by decide
  have hSplit : splitThree ("HTTP/1.1".toList ++ ' ' ::
      ((toString head.status).toList ++ ' ' :: head.reason.toList)) =
        ("HTTP/1.1".toList, (toString head.status).toList, head.reason.toList) := by
    unfold splitThree
    rw [Text.splitOnce_append hVersion]
    dsimp only
    rw [Text.splitOnce_append hCode]
  unfold readStatus
  rw [hChars, hSplit]
  dsimp only
  rw [if_pos hPrefix, readNumber_toString, Option.map_some, String.ofList_toList]

theorem text_eq (head : ResponseHead) :
    head.text =
      (statusLine head ++ "\r\n") ++ (fieldsText head.headers ++ "Connection: close\r\n\r\n") :=
  String.append_assoc

/-- **A head is read back**, with what follows as its body. -/
theorem readResponse_text {head : ResponseHead} (h : WellFormed head) (body : List Byte) :
    readResponse (asBytes head.text ++ body) = some (asRead head, body) := by
  have hStatus : OneLine (statusLine head) :=
    oneLine_append (oneLine_append (oneLine_append (by decide) (oneLine_toString _)) (by decide))
      h.reason
  have hBytes : asBytes head.text ++ body = asBytes (statusLine head ++ "\r\n") ++
      (asBytes (fieldsText head.headers) ++ (asBytes "Connection: close\r\n\r\n" ++ body)) := by
    rw [text_eq, asBytes_append, asBytes_append (fieldsText _), List.append_assoc,
      List.append_assoc]
  unfold readResponse
  rw [hBytes, newlineAt_text hStatus]
  dsimp only [Option.bind_eq_bind, Option.bind_some]
  rw [readLine hStatus, readStatus_text]
  dsimp only [Option.bind_some]
  rw [readFields_text h.fields]
  rfl

theorem newlineAt_some_append {bytes line rest : List Byte}
    (h : newlineAt bytes = some (line, rest)) (more : List Byte) :
    newlineAt (bytes ++ more) = some (line, rest ++ more) := by
  rw [newlineAt_append, h]

/-- What has been read of the fields is read of them whatever follows. -/
theorem readFields_append {bytes body : List Byte} {fields : List (String × String)}
    (h : readFields bytes = some (fields, body)) (more : List Byte) :
    readFields (bytes ++ more) = some (fields, body ++ more) := by
  induction hLength : bytes.length using Nat.strongRecOn generalizing bytes fields with
  | ind n ih =>
      unfold readFields at h
      split at h
      · cases h
      · next line rest hLine =>
        have hMore := newlineAt_some_append hLine more
        cases hText : trimLineEnd (fromUtf8Lossy line).toList with
        | nil =>
            rw [hText] at h
            cases h
            exact readFields_nil hMore hText
        | cons c text =>
            rw [hText] at h
            dsimp only at h
            obtain ⟨field, hField, h⟩ := Option.bind_eq_some_iff.mp h
            obtain ⟨⟨others, last⟩, hRest, h⟩ := Option.bind_eq_some_iff.mp h
            cases h
            obtain ⟨hBytes, hSome⟩ := newlineAt_length hLine
            have hPos := List.length_pos_iff.mpr hSome
            have hShort : rest.length < n := by
              rw [← hLength, hBytes, List.length_append]
              omega
            have hOthers := ih rest.length hShort hRest rfl
            exact readFields_cons hMore hText (List.cons_ne_nil _ _) hField hOthers

theorem readResponse_append {bytes body : List Byte} {head : ResponseHead}
    (h : readResponse bytes = some (head, body)) (more : List Byte) :
    readResponse (bytes ++ more) = some (head, body ++ more) := by
  unfold readResponse at h ⊢
  obtain ⟨⟨line, rest⟩, hLine, h⟩ := Option.bind_eq_some_iff.mp h
  obtain ⟨⟨status, reason⟩, hStatus, h⟩ := Option.bind_eq_some_iff.mp h
  obtain ⟨⟨headers, last⟩, hFields, h⟩ := Option.bind_eq_some_iff.mp h
  cases h
  have hMore := newlineAt_some_append hLine more
  have hBody := readFields_append hFields more
  simp only [hMore, hStatus, hBody, Option.bind_eq_bind, Option.bind_some]

/-- A client that has got a part of a response reads its head and a part of its
body, or no head yet. -/
theorem readResponse_prefix {head : ResponseHead} (h : WellFormed head) {received body : List Byte}
    (hReceived : received <+: asBytes head.text ++ body) :
    readResponse received = none ∨
      ∃ part, readResponse received = some (asRead head, part) ∧ part <+: body := by
  obtain ⟨more, hMore⟩ := hReceived
  cases hRead : readResponse received with
  | none => exact .inl rfl
  | some found =>
      obtain ⟨found, part⟩ := found
      have hWhole := readResponse_append hRead more
      rw [hMore, readResponse_text h] at hWhole
      cases hWhole
      exact .inr ⟨part, rfl, List.prefix_append ..⟩

/-! ## The heads that are written -/

theorem reasonPhrase_oneLine (status : Nat) : OneLine (reasonPhrase status) := by
  unfold reasonPhrase
  split <;> decide

theorem mimeForExtension_oneLine (extension : String) :
    OneLine (Mime.mimeForExtension extension) := by
  have hTable : ∀ entry ∈ Mime.mimeTable, OneLine entry.2 := by decide
  unfold Mime.mimeForExtension
  split
  · next name mime hFound => exact hTable (name, mime) (List.mem_of_find?_eq_some hFound)
  · decide

theorem mimeForPath_oneLine (path : String) : OneLine (Mime.mimeForPath path) := by
  unfold Mime.mimeForPath
  split
  · exact mimeForExtension_oneLine _
  · decide

theorem contentRange_oneLine (start stop size : Nat) :
    OneLine (Range.contentRange start stop size) := by
  have hStart : OneLine ("bytes " ++ toString start) :=
    oneLine_append (by decide) (oneLine_toString _)
  have hStop : OneLine ("bytes " ++ toString start ++ "-" ++ toString stop) :=
    oneLine_append (oneLine_append hStart (by decide)) (oneLine_toString _)
  exact oneLine_append (oneLine_append hStop (by decide)) (oneLine_toString _)

theorem field_wellFormed {name value : String} (hName : OneLine name ∧ ':' ∉ name.toList)
    (hValue : OneLine value) : WellFormedField (name, value) := ⟨hName.1, hName.2, hValue⟩

theorem contentLength_wellFormed (length : Nat) :
    WellFormedField ("Content-Length", toString length) :=
  field_wellFormed (by decide) (oneLine_toString length)

/-- The head of a file or of a share. -/
theorem headOf_wellFormed {mime : String} (hMime : OneLine mime) (size : Nat)
    (decision : Range.RangeDecision) : WellFormed (LocalFile.headOf mime size decision) := by
  have hType : WellFormedField ("Content-Type", mime) := field_wellFormed (by decide) hMime
  have hRange : ∀ range, OneLine range → WellFormedField ("Content-Range", range) :=
    fun _ hRange => field_wellFormed (by decide) hRange
  have hAccept : WellFormedField ("Accept-Ranges", "bytes") := by decide
  have hCache : WellFormedField ("Cache-Control", "no-cache") := by decide
  cases decision with
  | full =>
      have hLength := contentLength_wellFormed size
      have hReason : OneLine "OK" := by decide
      refine ⟨hReason, ?_⟩
      simp only [LocalFile.headOf, List.forall_mem_cons, hType, hLength, hAccept, hCache, true_and]
      exact List.forall_mem_nil _
  | slice start stop =>
      have hLength := contentLength_wellFormed (stop - start + 1)
      have hSlice := hRange _ (contentRange_oneLine start stop size)
      have hReason : OneLine "Partial Content" := by decide
      refine ⟨hReason, ?_⟩
      simp only [LocalFile.headOf, List.forall_mem_cons, hType, hLength, hAccept, hCache, hSlice,
        true_and]
      exact List.forall_mem_nil _
  | unsatisfiable =>
      have hSize : OneLine (Range.unsatisfiableContentRange size) :=
        oneLine_append (by decide) (oneLine_toString _)
      have hNone : WellFormedField ("Content-Length", "0") := by decide
      have hReason : OneLine "Range Not Satisfiable" := by decide
      refine ⟨hReason, ?_⟩
      simp only [LocalFile.headOf, List.forall_mem_cons, hType, hNone, hAccept, hRange _ hSize,
        true_and]
      exact List.forall_mem_nil _

/-- The text of a header value has no line end, whatever an origin sends. -/
theorem headerText_oneLine {value : List Byte} {text : String}
    (h : UrlProxy.headerText value = some text) : OneLine text := by
  unfold UrlProxy.headerText at h
  split at h
  · next hVisible =>
    cases h
    have hChars : ∀ c ∈ (String.ofList (value.map fun b => Char.ofNat b.toNat)).toList,
        c ≠ '\r' ∧ c ≠ '\n' := by
      rw [String.toList_ofList]
      intro c hMem
      obtain ⟨b, hByte, rfl⟩ := List.mem_map.mp hMem
      have hOne := List.all_eq_true.mp hVisible b hByte
      have hAll : ∀ b : Fin 256, (UInt8.ofNat b = 0x09 ||
          (0x20 ≤ UInt8.ofNat b && UInt8.ofNat b < 0x7F)) = true →
            Char.ofNat (UInt8.ofNat b).toNat ≠ '\r' ∧ Char.ofNat (UInt8.ofNat b).toNat ≠ '\n' := by
        decide +kernel
      have hThis := hAll ⟨b.toNat, b.toNat_lt⟩
      simpa using hThis (by simpa using hOne)
    constructor
    · intro hMem
      exact (hChars _ hMem).1 rfl
    · intro hMem
      exact (hChars _ hMem).2 rfl
  · cases h

/-- **The head of a proxied answer**: what an origin answers adds no line. -/
theorem mirroredHead_wellFormed (upstream : UpstreamHead) :
    WellFormed (UrlProxy.mirroredHead upstream) := by
  have hNames : ∀ name ∈ UrlProxy.mirroredHeaders, OneLine name ∧ ':' ∉ name.toList := by decide
  refine ⟨reasonPhrase_oneLine _, ?_⟩
  intro field hMem
  obtain ⟨name, hName, hField⟩ := List.mem_filterMap.mp hMem
  obtain ⟨text, hText, rfl⟩ := Option.map_eq_some_iff.mp hField
  obtain ⟨value, -, hValue⟩ := Option.bind_eq_some_iff.mp hText
  obtain ⟨hLine, hColon⟩ := hNames name hName
  exact ⟨hLine, hColon, headerText_oneLine hValue⟩

theorem plainHead_wellFormed {reason : String} (hReason : OneLine reason) (status length : Nat) :
    WellFormed ⟨status, reason,
      [("Content-Type", "text/plain"), ("Content-Length", toString length)]⟩ := by
  have hType : WellFormedField ("Content-Type", "text/plain") := by decide
  have hLength := contentLength_wellFormed length
  refine ⟨hReason, ?_⟩
  simp only [List.forall_mem_cons, hType, hLength, true_and]
  exact List.forall_mem_nil _

end CastApp.Media.ResponseText
