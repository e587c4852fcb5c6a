import CastApp.Media.ResponseText

/-!
# Requests on the wire

What `read_request` makes of a client's bytes does not depend on the reads
they arrive in, and a request that a client writes within the limits is read
back: its method, its target, and under each lowercased name the value that
was written last.

* `readLimitedLine_reads`, `readRequest_reads` — any bytes, in any reads.
* `Request`, `readRequest_text` — a request within the limits is read back.
* **`requests_read_back`** — the two, of all that may arrive.
-/

namespace CastApp.Media.RequestText

open CastApp.Media.Connections (HttpRequest)
open CastApp.Media.RequestHead
open CastApp.Media.ResponseText
open CastApp.State
open CastApp.Util
open CastApp.Util.Utf8
open CastApp.Verified

variable {ending : Ending}

/-! ## Reads do not count -/

/-- All that is still to come, as one read. -/
def gathered (r : Reader) : Reader := ⟨r.bytes, []⟩

theorem bytes_gathered (r : Reader) : (gathered r).bytes = r.bytes := List.append_nil _

theorem gathered_gathered (r : Reader) : gathered (gathered r) = gathered r := by
  unfold gathered
  exact congrArg (fun bytes => (⟨bytes, []⟩ : Reader)) (bytes_gathered r)

def gatheredLine : LineRead → LineRead
  | .line text rest => .line text (gathered rest)
  | .closed => .closed
  | .failed error => .failed error
  | .waiting => .waiting

theorem readUntil_line {buf bytes line rest : List Byte}
    (h : newlineAt bytes = some (line, rest)) :
    readUntil ending buf bytes [] = .read (buf ++ line) ⟨rest, []⟩ := by
  unfold readUntil
  rw [h]

/-- Without a newline, one read or several end alike. -/
theorem readUntil_none {buf available : List Byte} {reads : List (List Byte)}
    (h : newlineAt (available ++ reads.flatten) = none) :
    readUntil ending buf available reads =
      readUntil ending buf (available ++ reads.flatten) [] := by
  have hRead := readUntil_eq ending buf available reads
  have hOne := readUntil_eq ending buf (available ++ reads.flatten) []
  rw [List.flatten_nil, List.append_nil, h] at hOne
  rw [h] at hRead
  dsimp only at hRead hOne
  rw [hRead, hOne]

theorem readUntil_end {buf available line : List Byte} {reads : List (List Byte)} {rest : Reader}
    (h : newlineAt (available ++ reads.flatten) = none)
    (hRead : readUntil ending buf available reads = .read line rest) : rest = ⟨[], []⟩ := by
  have hEnd := readUntil_eq ending buf available reads
  rw [h] at hEnd
  dsimp only at hEnd
  rw [hRead] at hEnd
  cases ending with
  | eof =>
      cases hEnd
      rfl
  | failed error => cases hEnd
  | silent => cases hEnd

def gatheredUntil : UntilRead → UntilRead
  | .read line rest => .read line (gathered rest)
  | .failed error line => .failed error line
  | .waiting line => .waiting line

theorem readUntil_gathered (r : Reader) :
    readUntil ending [] (gathered r).available (gathered r).reads =
      gatheredUntil (readUntil ending [] r.available r.reads) := by
  have hRead := readUntil_eq ending [] r.available r.reads
  cases hFound : newlineAt (r.available ++ r.reads.flatten) with
  | some found =>
      obtain ⟨line, tail⟩ := found
      rw [hFound] at hRead
      obtain ⟨rest, hRead, rfl⟩ := hRead
      rw [hRead]
      exact readUntil_line hFound
  | none =>
      have hOne : readUntil ending [] (gathered r).available (gathered r).reads =
          readUntil ending [] r.available r.reads := (readUntil_none hFound).symm
      rw [hOne]
      cases hUntil : readUntil ending [] r.available r.reads with
      | read line rest =>
          rw [readUntil_end hFound hUntil]
          rfl
      | failed error line => rfl
      | waiting line => rfl

theorem readLimitedLine_reads (max : Nat) (r : Reader) :
    readLimitedLine ending max (gathered r) =
      (gatheredLine (readLimitedLine ending max r).1, (readLimitedLine ending max r).2) := by
  unfold readLimitedLine
  rw [readUntil_gathered]
  cases readUntil ending [] r.available r.reads with
  | failed error line => rfl
  | waiting line => rfl
  | read line rest =>
      dsimp only [gatheredUntil]
      by_cases hLong : line.length > max
      · simp only [if_pos hLong, gatheredLine]
      by_cases hEmpty : line = []
      · simp only [if_neg hLong, if_pos hEmpty, gatheredLine]
      simp only [if_neg hLong, if_neg hEmpty, gatheredLine]

/-- The header loop, one line unfolded. -/
theorem readHeaders_eq (headers : HashMap String String) (r : Reader) :
    readHeaders ending headers r =
      match readLimitedLine ending maxHeaderLine r with
      | (.closed, buf) =>
          (.error (.unexpectedEof "closed mid-headers"), [⟨maxHeaderLine, buf, false, false⟩])
      | (.failed error, buf) => (.error error, [⟨maxHeaderLine, buf, false, false⟩])
      | (.waiting, buf) => (.waiting, [⟨maxHeaderLine, buf, false, false⟩])
      | (.line text rest, buf) =>
          if trimLineEnd text.toList = [] then
            (.ok headers, [⟨maxHeaderLine, buf, true, false⟩])
          else
            match headerLine (trimLineEnd text.toList) with
            | none =>
                (.error (.invalidData "malformed header line"),
                  [⟨maxHeaderLine, buf, true, false⟩])
            | some (name, value) =>
                if headers.entries.length ≥ maxHeaders then
                  (.error (.invalidData "too many headers"), [⟨maxHeaderLine, buf, true, false⟩])
                else
                  ((readHeaders ending (headers.insert name value) rest).1,
                    ⟨maxHeaderLine, buf, true, true⟩ ::
                      (readHeaders ending (headers.insert name value) rest).2) := by
  rw [readHeaders]
  split
  · next hLine => rw [hLine]
  · next hLine => rw [hLine]
  · next hLine => rw [hLine]
  · next text rest buf hLine =>
    by_cases hEmpty : trimLineEnd text.toList = []
    · simp only [hLine, if_pos hEmpty]
    cases hHeader : headerLine (trimLineEnd text.toList) with
    | none => simp only [hLine, if_neg hEmpty, hHeader]
    | some found =>
        obtain ⟨name, value⟩ := found
        by_cases hMany : headers.entries.length ≥ maxHeaders
        · simp only [hLine, if_neg hEmpty, hHeader, if_pos hMany]
        cases hRest : readHeaders ending (headers.insert name value) rest with
        | mk result log => simp only [hLine, if_neg hEmpty, hHeader, if_neg hMany, hRest]

theorem readHeaders_reads (headers : HashMap String String) (r : Reader) :
    readHeaders ending headers (gathered r) = readHeaders ending headers r := by
  induction hLength : r.bytes.length using Nat.strongRecOn generalizing headers r with
  | ind n ih =>
      rw [readHeaders_eq headers (gathered r), readHeaders_eq headers r, readLimitedLine_reads]
      cases hLine : readLimitedLine ending maxHeaderLine r with
      | mk read buf =>
          cases read with
          | closed => rfl
          | failed error => rfl
          | waiting => rfl
          | line text rest =>
              have hShort := readLimitedLine_shorter hLine
              rw [hLength] at hShort
              have hRest := fun headers => ih rest.bytes.length hShort headers rest rfl
              simp only [gatheredLine, hRest]

/-- However a request arrives, whole, malformed or cut short, it comes to the
same, and so does the record of its lines. -/
theorem readRequest_reads (ending : Ending) (r : Reader) :
    readRequest ending r = readRequest ending (gathered r) := by
  unfold readRequest
  rw [readLimitedLine_reads]
  cases readLimitedLine ending maxRequestLine r with
  | mk read buf =>
      cases read with
      | closed => rfl
      | failed error => rfl
      | waiting => rfl
      | line text rest => simp only [gatheredLine, readHeaders_reads]

/-! ## Requests within the limits -/

def requestText (method target minor : String) : String :=
  method ++ " " ++ target ++ " HTTP/1." ++ minor

def fieldText (field : String × String) : String := field.1 ++ ": " ++ field.2

/-- Text without a space that stays on its line. -/
structure Token (text : String) : Prop where
  some : text ≠ ""
  oneLine : OneLine text
  space : ' ' ∉ text.toList

/-- A request as a client writes it, each line of it within its limit. -/
structure Request where
  method : String
  target : String
  minor : String
  headers : List (String × String)
  hMethod : Token method
  hTarget : Token target
  hMinor : OneLine minor
  hHeaders : ∀ field ∈ headers, WellFormedField field
  hLine : (asBytes (requestText method target minor ++ "\r\n")).length ≤ maxRequestLine
  hLines : ∀ field ∈ headers, (asBytes (fieldText field ++ "\r\n")).length ≤ maxHeaderLine
  hCount : headers.length ≤ maxHeaders

def Request.bytes (text : Request) : List Byte :=
  asBytes (requestText text.method text.target text.minor ++ "\r\n") ++
    (asBytes (fieldsText text.headers) ++ asBytes "\r\n")

/-- A field as the reader enters it. -/
def entered (field : String × String) : String × String :=
  (String.ofList ((Text.trim field.1.toList).map Char.toLower),
    String.ofList (Text.trim field.2.toList))

/-- What was written last under a name. -/
def lastWritten (headers : List (String × String)) (name : String) : Option String :=
  (headers.map entered).reverse.lookup name

theorem readLimitedLine_text {text : String} {max : Nat} (h : OneLine text)
    (hShort : (asBytes (text ++ "\r\n")).length ≤ max) (rest : List Byte) :
    readLimitedLine ending max ⟨asBytes (text ++ "\r\n") ++ rest, []⟩ =
      (.line (text ++ "\r\n") ⟨rest, []⟩, asBytes (text ++ "\r\n")) := by
  have hSome : asBytes (text ++ "\r\n") ≠ [] := (newlineAt_length (newlineAt_text h rest)).2
  unfold readLimitedLine
  rw [readUntil_line (newlineAt_text h rest), List.nil_append]
  dsimp only
  rw [if_neg (by omega), if_neg hSome, fromUtf8Lossy_asBytes]

theorem requestLine_text {method target minor : String} (hMethod : Token method)
    (hTarget : Token target) :
    requestLine (requestText method target minor).toList = some (method, target) := by
  have hChars : (requestText method target minor).toList =
      method.toList ++ ' ' :: (target.toList ++ ' ' :: ("HTTP/1.".toList ++ minor.toList)) := by
    simp [requestText]
  have hPrefix : "HTTP/1.".toList.isPrefixOf ("HTTP/1.".toList ++ minor.toList) = true :=
    List.isPrefixOf_iff_prefix.mpr (List.prefix_append _ _)
  have hSome : method.toList ≠ [] := mt String.toList_eq_nil_iff.mp hMethod.some
  have hPath : target.toList ≠ [] := mt String.toList_eq_nil_iff.mp hTarget.some
  unfold requestLine splitThree
  rw [hChars, Text.splitOnce_append hMethod.space]
  dsimp only
  rw [Text.splitOnce_append hTarget.space]
  dsimp only
  rw [hPrefix, if_neg (by simp [hSome, hPath]), String.ofList_toList, String.ofList_toList]

theorem headerLine_text {field : String × String} (h : WellFormedField field) :
    headerLine (fieldText field).toList = some (entered field) := by
  have hChars : (fieldText field).toList =
      field.1.toList ++ ':' :: (' ' :: field.2.toList) := by simp [fieldText]
  unfold headerLine
  rw [hChars, Text.splitOnce_append h.colon, Option.map_some]
  rfl

theorem oneLine_fieldText {field : String × String} (h : WellFormedField field) :
    OneLine (fieldText field) :=
  oneLine_append (oneLine_append h.name (by decide)) h.value

theorem length_insert_le (entries : HashMap String String) (name value : String) :
    (entries.insert name value).entries.length ≤ entries.entries.length + 1 :=
  Nat.succ_le_succ (List.length_filter_le ..)

theorem lastWritten_cons (field : String × String) (headers : List (String × String))
    (name : String) :
    lastWritten (field :: headers) name =
      (lastWritten headers name).or
        (if name = (entered field).1 then some (entered field).2 else none) := by
  unfold lastWritten
  rw [List.map_cons, List.reverse_cons, List.lookup_append, List.lookup_cons]
  congr 1
  by_cases hName : name = (entered field).1
  · rw [if_pos hName, hName, beq_self_eq_true]
  · rw [if_neg hName, beq_false_of_ne hName]
    rfl

theorem readHeaders_text (ending : Ending) {headers : List (String × String)}
    {entries : HashMap String String} (hHeaders : ∀ field ∈ headers, WellFormedField field)
    (hLines : ∀ field ∈ headers, (asBytes (fieldText field ++ "\r\n")).length ≤ maxHeaderLine)
    (hCount : entries.entries.length + headers.length ≤ maxHeaders) (rest : List Byte) :
    ∃ read : HashMap String String,
      (readHeaders ending entries
        ⟨asBytes (fieldsText headers) ++ (asBytes "\r\n" ++ rest), []⟩).1 = .ok read ∧
      ∀ name, read.get name = (lastWritten headers name).or (entries.get name) := by
  induction headers generalizing entries with
  | nil =>
      have hEmpty : OneLine "" := by decide
      have hEnd : readLimitedLine ending maxHeaderLine ⟨asBytes ("" ++ "\r\n") ++ rest, []⟩ = _ :=
        readLimitedLine_text hEmpty (by decide +kernel) rest
      rw [String.empty_append] at hEnd
      refine ⟨entries, ?_, fun name => rfl⟩
      show (readHeaders ending entries ⟨asBytes "\r\n" ++ rest, []⟩).1 = _
      rw [readHeaders_eq, hEnd]
      dsimp only
      rw [if_pos (by decide)]
  | cons field headers ih =>
      have hField := hHeaders field List.mem_cons_self
      have hRead : readLimitedLine ending maxHeaderLine ⟨asBytes (fieldText field ++ "\r\n") ++
          (asBytes (fieldsText headers) ++ (asBytes "\r\n" ++ rest)), []⟩ = _ :=
        readLimitedLine_text (oneLine_fieldText hField) (hLines field List.mem_cons_self) _
      have hJoin : asBytes (fieldsText (field :: headers)) ++ (asBytes "\r\n" ++ rest) =
          asBytes (fieldText field ++ "\r\n") ++
            (asBytes (fieldsText headers) ++ (asBytes "\r\n" ++ rest)) := by
        unfold fieldsText
        rw [List.map_cons, String.join_cons, asBytes_append, List.append_assoc]
        rfl
      have hSome : (fieldText field).toList ≠ [] := by simp [fieldText]
      have hRoom : entries.entries.length + 1 ≤ maxHeaders := by
        rw [List.length_cons] at hCount
        omega
      have hGrown := length_insert_le entries (entered field).1 (entered field).2
      have hCount : (entries.insert (entered field).1 (entered field).2).entries.length +
          headers.length ≤ maxHeaders := by
        rw [List.length_cons] at hCount
        omega
      obtain ⟨read, hResult, hHeld⟩ := ih
        (fun other hMem => hHeaders other (List.mem_cons_of_mem _ hMem))
        (fun other hMem => hLines other (List.mem_cons_of_mem _ hMem)) hCount
      refine ⟨read, ?_, fun name => ?_⟩
      · rw [hJoin, readHeaders_eq, hRead]
        dsimp only
        rw [trimLineEnd_text (oneLine_fieldText hField), if_neg hSome, headerLine_text hField]
        dsimp only
        rw [if_neg (by omega), hResult]
      · rw [hHeld name, HashMap.get_insert, lastWritten_cons, Option.or_assoc]
        congr 1
        by_cases hName : name = (entered field).1
        · rw [if_pos hName, if_pos hName]
          rfl
        · rw [if_neg hName, if_neg hName]
          rfl

/-- A request within the limits is read back, whatever follows it. -/
theorem readRequest_text (ending : Ending) (text : Request) (more : List Byte) (r : Reader)
    (hBytes : r.bytes = text.bytes ++ more) :
    ∃ request : HttpRequest,
      (readRequest ending r).1 = .ok request ∧
        request.method = text.method ∧ request.target = text.target ∧
        ∀ name, request.headers.lookup name = lastWritten text.headers name := by
  have hLine : OneLine (requestText text.method text.target text.minor) :=
    oneLine_append (oneLine_append (oneLine_append (oneLine_append text.hMethod.oneLine (by decide))
      text.hTarget.oneLine) (by decide)) text.hMinor
  have hCount : (HashMap.empty : HashMap String String).entries.length + text.headers.length ≤
      maxHeaders := by simpa [HashMap.empty] using text.hCount
  obtain ⟨read, hRead, hHeld⟩ :=
    readHeaders_text ending text.hHeaders text.hLines hCount more
  have hGathered : gathered r =
      ⟨asBytes (requestText text.method text.target text.minor ++ "\r\n") ++
        (asBytes (fieldsText text.headers) ++ (asBytes "\r\n" ++ more)), []⟩ := by
    unfold gathered
    rw [hBytes]
    unfold Request.bytes
    rw [List.append_assoc, List.append_assoc]
  refine ⟨⟨text.method, text.target, read.entries⟩, ?_, rfl, rfl, fun name => ?_⟩
  · rw [readRequest_reads, hGathered]
    unfold readRequest
    rw [readLimitedLine_text hLine text.hLine]
    dsimp only
    rw [trimLineEnd_text hLine, requestLine_text text.hMethod text.hTarget]
    dsimp only
    rw [hRead]
    rfl
  · have hLookup := hHeld name
    rw [HashMap.get_empty, Option.or_none] at hLookup
    exact hLookup

/-- **Requests on the wire.**  What bytes come to, and the record of their lines,
does not depend on the reads they arrive in; and where they start with a request
within the limits, that request is read back, the last value of each field
under its lowercased name. -/
theorem requests_read_back (ending : Ending) (r : Reader) :
    (∀ other : Reader, other.bytes = r.bytes → readRequest ending other = readRequest ending r) ∧
      ∀ (text : Request) (more : List Byte), r.bytes = text.bytes ++ more →
        ∃ request : HttpRequest,
          (readRequest ending r).1 = .ok request ∧
            request.method = text.method ∧ request.target = text.target ∧
            ∀ name, request.headers.lookup name = lastWritten text.headers name := by
  refine ⟨fun other hSame => ?_, fun text more => readRequest_text ending text more r⟩
  rw [readRequest_reads, readRequest_reads ending r, gathered, hSame]
  rfl

/-- A player that seeks. -/
def seek : Request where
  method := "GET"
  target := "/stream"
  minor := "1"
  headers := [("Range", "bytes=0-"), ("RANGE", " bytes=7- ")]
  hMethod := ⟨by decide, by decide, by decide⟩
  hTarget := ⟨by decide, by decide, by decide⟩
  hMinor := by decide
  hHeaders := by decide
  hLine := by decide +kernel
  hLines := by decide +kernel
  hCount := by decide

/-- It arrives in two reads; of two ranges the second counts. -/
theorem seek_read :
    ∃ request : HttpRequest,
      (readRequest .silent ⟨seek.bytes.take 9, [seek.bytes.drop 9]⟩).1 = .ok request ∧
        request.target = "/stream" ∧ request.headers.lookup "range" = some "bytes=7-" := by
  have hBytes : (⟨seek.bytes.take 9, [seek.bytes.drop 9]⟩ : Reader).bytes = seek.bytes ++ [] := by
    simp [Reader.bytes]
  obtain ⟨request, hRead, -, hTarget, hHeaders⟩ :=
    (requests_read_back .silent ⟨seek.bytes.take 9, [seek.bytes.drop 9]⟩).2 seek [] hBytes
  exact ⟨request, hRead, hTarget, (hHeaders "range").trans (by decide +kernel)⟩

end CastApp.Media.RequestText
