import CastApp.Media.Connections
import CastApp.Util.Text
import CastApp.Verified.HashMap

/-!
# Reading a request head

`read_request` over a buffered reader: what a client sends comes in reads of
at most the reader's size, and `read_until` takes from them up to a newline.
Beside its answer each reader gives a record of the lines it came to.

* `readLimitedLine_cons` — a line is what is between two newlines, however the
  bytes were split into reads; its length is checked once it is all there.
* `readHeaders_log` — the header loop, line by line.
* `headersFit_iff` — the headers that are entered against the limit.
* **`head_limits_iff`** — when the limits on a request head hold.
-/

namespace CastApp.Media.RequestHead

open CastApp.State
open CastApp.Util
open CastApp.Util.Utf8
open CastApp.Verified

def maxRequestLine : Nat := 8 * 1024

def maxHeaderLine : Nat := 8 * 1024

def maxHeaders : Nat := 64

/-! ## The reader -/

/-- How a client's bytes end. -/
inductive Ending : Type
  | eof
  | failed (error : String)
  /-- Nothing more comes, and the connection stays open. -/
  | silent
  deriving DecidableEq, Repr

/-- What a client sends, as a reader with a buffer of `size` reads it. -/
structure Client (size : Nat) where
  reads : List (List Byte)
  hReads : ∀ read ∈ reads, 0 < read.length ∧ read.length ≤ size
  ending : Ending

/-- A buffered reader: what it holds, and the reads to come. -/
structure Reader where
  available : List Byte
  reads : List (List Byte)
  deriving DecidableEq, Repr

def Reader.bytes (r : Reader) : List Byte := r.available ++ r.reads.flatten

/-- The bytes up to the first newline, and those behind it. -/
def newlineAt : List Byte → Option (List Byte × List Byte)
  | [] => none
  | b :: rest =>
      if b = 0x0A then some ([b], rest)
      else (newlineAt rest).map fun (line, rest) => (b :: line, rest)

theorem newlineAt_cons (b : Byte) (rest : List Byte) :
    newlineAt (b :: rest) =
      if b = 0x0A then some ([b], rest)
      else (newlineAt rest).map fun (line, rest) => (b :: line, rest) := rfl

/-- What `read_until` comes to, with what is in the buffer then. -/
inductive UntilRead : Type
  | read (buf : List Byte) (rest : Reader)
  | failed (error : String) (buf : List Byte)
  /-- It waits for the client. -/
  | waiting (buf : List Byte)
  deriving DecidableEq, Repr

/-- `read_until(b'\n')` into `buf`: all the reader holds, again and again, up
to a newline or the end. -/
def readUntil (ending : Ending) (buf available : List Byte) : List (List Byte) → UntilRead
  | [] =>
      match newlineAt available with
      | some (line, rest) => .read (buf ++ line) ⟨rest, []⟩
      | none =>
          match ending with
          | .eof => .read (buf ++ available) ⟨[], []⟩
          | .failed error => .failed error (buf ++ available)
          | .silent => .waiting (buf ++ available)
  | next :: reads =>
      match newlineAt available with
      | some (line, rest) => .read (buf ++ line) ⟨rest, next :: reads⟩
      | none => readUntil ending (buf ++ available) next reads

/-! ## A line -/

inductive HeadError : Type
  | unexpectedEof (text : String)
  | invalidData (text : String)
  | io (error : String)
  deriving DecidableEq, Repr

inductive LineRead : Type
  | line (text : String) (rest : Reader)
  /-- `None`: the end, with nothing buffered. -/
  | closed
  | failed (error : HeadError)
  | waiting
  deriving DecidableEq, Repr

/-- One line, and all that was buffered of it.  Where `read_until` returns
without a newline the input has ended, and the next round reads nothing. -/
def readLimitedLine (ending : Ending) (max : Nat) (r : Reader) : LineRead × List Byte :=
  match readUntil ending [] r.available r.reads with
  | .failed error buf => (.failed (.io error), buf)
  | .waiting buf => (.waiting, buf)
  | .read buf rest =>
      if buf.length > max then (.failed (.invalidData "line exceeds maximum length"), buf)
      else if buf = [] then (.closed, buf)
      else (.line (fromUtf8Lossy buf) rest, buf)

/-- `trim_end_matches(['\r', '\n'])`. -/
def trimLineEnd (text : List Char) : List Char :=
  (text.reverse.dropWhile fun c => c = '\r' || c = '\n').reverse

/-- `splitn(3, ' ')`; a part that is missing is empty. -/
def splitThree (line : List Char) : List Char × List Char × List Char :=
  match Text.splitOnce ' ' line with
  | none => (line, [], [])
  | some (method, rest) =>
      match Text.splitOnce ' ' rest with
      | none => (method, rest, [])
      | some (target, version) => (method, target, version)

/-- Method and target of a request line, if it is one of HTTP/1. -/
def requestLine (line : List Char) : Option (String × String) :=
  let (method, target, version) := splitThree line
  if method = [] ∨ target = [] ∨ ¬ "HTTP/1.".toList.isPrefixOf version then none
  else some (String.ofList method, String.ofList target)

/-- Name and value of a header line. -/
def headerLine (line : List Char) : Option (String × String) :=
  (Text.splitOnce ':' line).map fun (name, value) =>
    (String.ofList ((Text.trim name).map Char.toLower), String.ofList (Text.trim value))

/-! ## A request head -/

/-- A line that was read: what was buffered of it under which limit, whether
it was returned as a line, and whether it was entered as a header. -/
structure LineLog where
  limit : Nat
  buffered : List Byte
  returned : Bool
  entered : Bool
  deriving DecidableEq, Repr

/-- What reading a request head comes to. -/
inductive HeadResult (α : Type) : Type
  | ok (value : α)
  | error (reason : HeadError)
  | waiting

def HeadResult.map {α β : Type} (f : α → β) : HeadResult α → HeadResult β
  | .ok value => .ok (f value)
  | .error reason => .error reason
  | .waiting => .waiting

theorem newlineAt_length {bytes line rest : List Byte} (h : newlineAt bytes = some (line, rest)) :
    bytes = line ++ rest ∧ line ≠ [] := by
  induction bytes generalizing line with
  | nil => cases h
  | cons b bytes ih =>
      unfold newlineAt at h
      split at h
      · cases h
        exact ⟨rfl, List.cons_ne_nil _ _⟩
      · obtain ⟨⟨line', rest'⟩, hFound, hSame⟩ := Option.map_eq_some_iff.mp h
        cases hSame
        obtain ⟨hBytes, -⟩ := ih hFound
        exact ⟨by rw [hBytes]; rfl, List.cons_ne_nil _ _⟩

/-- What is read comes off what was there. -/
theorem readUntil_bytes {ending : Ending} {buf available buf' : List Byte}
    {reads : List (List Byte)} {rest : Reader}
    (h : readUntil ending buf available reads = .read buf' rest) :
    buf ++ available ++ reads.flatten = buf' ++ rest.bytes := by
  induction reads generalizing buf available with
  | nil =>
      unfold readUntil at h
      split at h
      · next line tail hFound =>
        cases h
        rw [(newlineAt_length hFound).1]
        simp [Reader.bytes]
      · cases ending <;> cases h
        simp [Reader.bytes]
  | cons next reads ih =>
      unfold readUntil at h
      split at h
      · next line tail hFound =>
        cases h
        rw [(newlineAt_length hFound).1]
        simp [Reader.bytes]
      · rw [← ih h]
        simp

theorem readLimitedLine_shorter {ending : Ending} {max : Nat} {r rest : Reader} {text : String}
    {buf : List Byte} (h : readLimitedLine ending max r = (.line text rest, buf)) :
    rest.bytes.length < r.bytes.length := by
  unfold readLimitedLine at h
  split at h
  · cases h
  · cases h
  · next buf' rest' hRead =>
    have hBytes := readUntil_bytes hRead
    split at h
    · cases h
    split at h
    · cases h
    · next hSome =>
      cases h
      have hLength := congrArg List.length hBytes
      have hPos : 0 < buf.length := List.length_pos_iff.mpr hSome
      have hSplit : (buf ++ rest.bytes).length = buf.length + rest.bytes.length :=
        List.length_append
      show rest.bytes.length < (r.available ++ r.reads.flatten).length
      rw [List.nil_append] at hLength
      omega

/-- The header loop. -/
def readHeaders (ending : Ending) (headers : HashMap String String) (r : Reader) :
    HeadResult (HashMap String String) × List LineLog :=
  match _hLine : readLimitedLine ending maxHeaderLine r with
  | (.closed, buf) =>
      (.error (.unexpectedEof "closed mid-headers"), [⟨maxHeaderLine, buf, false, false⟩])
  | (.failed error, buf) => (.error error, [⟨maxHeaderLine, buf, false, false⟩])
  | (.waiting, buf) => (.waiting, [⟨maxHeaderLine, buf, false, false⟩])
  | (.line text rest, buf) =>
      let line := trimLineEnd text.toList
      if line = [] then
        (.ok headers, [⟨maxHeaderLine, buf, true, false⟩])
      else
        match headerLine line with
        | none =>
            (.error (.invalidData "malformed header line"), [⟨maxHeaderLine, buf, true, false⟩])
        | some (name, value) =>
            if headers.entries.length ≥ maxHeaders then
              (.error (.invalidData "too many headers"), [⟨maxHeaderLine, buf, true, false⟩])
            else
              let (result, log) := readHeaders ending (headers.insert name value) rest
              (result, ⟨maxHeaderLine, buf, true, true⟩ :: log)
termination_by r.bytes.length
decreasing_by exact readLimitedLine_shorter _hLine

/-- The request line and the headers. -/
def readRequest (ending : Ending) (r : Reader) :
    HeadResult Connections.HttpRequest × List LineLog :=
  match readLimitedLine ending maxRequestLine r with
  | (.closed, buf) =>
      (.error (.unexpectedEof "closed before the request line"),
        [⟨maxRequestLine, buf, false, false⟩])
  | (.failed error, buf) => (.error error, [⟨maxRequestLine, buf, false, false⟩])
  | (.waiting, buf) => (.waiting, [⟨maxRequestLine, buf, false, false⟩])
  | (.line text rest, buf) =>
      match requestLine (trimLineEnd text.toList) with
      | none =>
          (.error (.invalidData "malformed request line"), [⟨maxRequestLine, buf, true, false⟩])
      | some (method, target) =>
          let (result, log) := readHeaders ending .empty rest
          (result.map fun headers => ⟨method, target, headers.entries⟩,
            ⟨maxRequestLine, buf, true, false⟩ :: log)

/-! ## The lines a client sends -/

/-- The bytes cut behind each newline; the last line may be without one. -/
def splitLines : List Byte → List (List Byte)
  | [] => []
  | b :: rest =>
      if b = 0x0A then [b] :: splitLines rest
      else
        match splitLines rest with
        | [] => [[b]]
        | line :: lines => (b :: line) :: lines

theorem splitLines_cons (b : Byte) (rest : List Byte) :
    splitLines (b :: rest) =
      if b = 0x0A then [b] :: splitLines rest
      else
        match splitLines rest with
        | [] => [[b]]
        | line :: lines => (b :: line) :: lines := rfl

theorem splitLines_of_newline {bytes line rest : List Byte}
    (h : newlineAt bytes = some (line, rest)) :
    splitLines bytes = line :: splitLines rest ∧ line.getLast? = some 0x0A := by
  induction bytes generalizing line with
  | nil => cases h
  | cons b bytes ih =>
      unfold newlineAt at h
      rw [splitLines_cons]
      split at h
      · next hNewline =>
        cases h
        rw [if_pos hNewline]
        exact ⟨rfl, congrArg some hNewline⟩
      · next hOther =>
        obtain ⟨⟨line', rest'⟩, hFound, hSame⟩ := Option.map_eq_some_iff.mp h
        cases hSame
        obtain ⟨hLines, hLast⟩ := ih hFound
        rw [if_neg hOther, hLines]
        have hSome : line' ≠ [] := (newlineAt_length hFound).2
        exact ⟨rfl, by rw [List.getLast?_cons, hLast]; rfl⟩

theorem splitLines_of_none {bytes : List Byte} (h : newlineAt bytes = none) :
    splitLines bytes = (if bytes = [] then [] else [bytes]) ∧ bytes.getLast? ≠ some 0x0A := by
  induction bytes with
  | nil => exact ⟨rfl, nofun⟩
  | cons b bytes ih =>
      unfold newlineAt at h
      rw [splitLines_cons]
      split at h
      · cases h
      · next hOther =>
        obtain ⟨hLines, hLast⟩ := ih (Option.map_eq_none_iff.mp h)
        rw [if_neg hOther, hLines, if_neg (List.cons_ne_nil b bytes)]
        cases bytes with
        | nil => exact ⟨rfl, fun hSame => hOther (Option.some.inj hSame)⟩
        | cons c rest => exact ⟨rfl, by rw [List.getLast?_cons_cons]; exact hLast⟩

theorem newlineAt_append (first rest : List Byte) :
    newlineAt (first ++ rest) =
      match newlineAt first with
      | some (line, tail) => some (line, tail ++ rest)
      | none => (newlineAt rest).map fun (line, tail) => (first ++ line, tail) := by
  induction first with
  | nil =>
      rw [List.nil_append]
      exact Option.map_id'.symm
  | cons b first ih =>
      rw [List.cons_append, newlineAt_cons, newlineAt_cons]
      split
      · rfl
      · rw [ih]
        cases newlineAt first with
        | some found => rfl
        | none => cases newlineAt rest <;> rfl

/-- `read_until` by the bytes to come: where they are split does not count. -/
theorem readUntil_eq (ending : Ending) (buf available : List Byte) (reads : List (List Byte)) :
    match newlineAt (available ++ reads.flatten) with
    | some (line, tail) =>
        ∃ rest, readUntil ending buf available reads = .read (buf ++ line) rest ∧ rest.bytes = tail
    | none =>
        readUntil ending buf available reads =
          match ending with
          | .eof => .read (buf ++ (available ++ reads.flatten)) ⟨[], []⟩
          | .failed error => .failed error (buf ++ (available ++ reads.flatten))
          | .silent => .waiting (buf ++ (available ++ reads.flatten)) := by
  induction reads generalizing buf available with
  | nil =>
      rw [List.flatten_nil, List.append_nil]
      unfold readUntil
      cases hFound : newlineAt available with
      | some found => exact ⟨_, rfl, List.append_nil found.2⟩
      | none => rfl
  | cons next reads ih =>
      rw [List.flatten_cons, newlineAt_append]
      unfold readUntil
      cases hFound : newlineAt available with
      | some found => exact ⟨_, rfl, by simp [Reader.bytes]⟩
      | none =>
          have hNext := ih (buf ++ available) next
          cases hTail : newlineAt (next ++ reads.flatten) with
          | some found =>
              rw [hTail] at hNext
              obtain ⟨rest, hRead, hRest⟩ := hNext
              exact ⟨rest, by simpa using hRead, hRest⟩
          | none =>
              rw [hTail] at hNext
              simpa using hNext

/-- Whether `read_until` gives the line out: it has its newline, or the input
ends behind it. -/
def Whole (ending : Ending) (line : List Byte) : Prop :=
  line.getLast? = some 0x0A ∨ ending = .eof

instance (ending : Ending) (line : List Byte) : Decidable (Whole ending line) :=
  inferInstanceAs (Decidable (_ ∨ _))

/-- A line that is returned. -/
def Fits (ending : Ending) (max : Nat) (line : List Byte) : Prop :=
  Whole ending line ∧ line.length ≤ max

instance (ending : Ending) (max : Nat) (line : List Byte) : Decidable (Fits ending max line) :=
  inferInstanceAs (Decidable (_ ∧ _))

theorem readLimitedLine_nil (ending : Ending) (max : Nat) {r : Reader}
    (h : splitLines r.bytes = []) :
    (readLimitedLine ending max r).2 = [] ∧
      ∀ text rest, (readLimitedLine ending max r).1 ≠ .line text rest := by
  have hRead := readUntil_eq ending [] r.available r.reads
  unfold Reader.bytes at h
  cases hFound : newlineAt (r.available ++ r.reads.flatten) with
  | some found =>
      rw [(splitLines_of_newline hFound).1] at h
      cases h
  | none =>
      rw [hFound] at hRead
      have hBytes : r.available ++ r.reads.flatten = [] := by
        have hLines := (splitLines_of_none hFound).1
        rw [h] at hLines
        split at hLines
        · assumption
        · cases hLines
      unfold readLimitedLine
      rw [hRead, hBytes]
      cases ending <;> exact ⟨rfl, nofun⟩

/-- All of a line is buffered, and it is returned when it is whole and within
its limit. -/
def ReadsLine (ending : Ending) (max : Nat) (r : Reader) (line : List Byte)
    (lines : List (List Byte)) : Prop :=
  if Fits ending max line then
    ∃ rest, readLimitedLine ending max r = (.line (fromUtf8Lossy line) rest, line) ∧
      splitLines rest.bytes = lines
  else
    (readLimitedLine ending max r).2 = line ∧
      ∀ text rest, (readLimitedLine ending max r).1 ≠ .line text rest

/-- What `read_until` read is returned when it is within the limit. -/
theorem readLimitedLine_read {ending : Ending} {max : Nat} {r rest : Reader} {line : List Byte}
    {lines : List (List Byte)} (hWhole : Whole ending line) (hSome : line ≠ [])
    (hLines : splitLines rest.bytes = lines)
    (h : readUntil ending [] r.available r.reads = .read line rest) :
    ReadsLine ending max r line lines := by
  have hFits : Fits ending max line ↔ line.length ≤ max := ⟨And.right, fun hLe => ⟨hWhole, hLe⟩⟩
  have hRead : readLimitedLine ending max r =
      if line.length > max then
        (.failed (.invalidData "line exceeds maximum length"), line)
      else if line = [] then (.closed, line)
      else (.line (fromUtf8Lossy line) rest, line) := by
    unfold readLimitedLine
    rw [h]
  unfold ReadsLine
  by_cases hLong : line.length > max
  · rw [if_neg (mt hFits.mp (by omega)), hRead, if_pos hLong]
    exact ⟨rfl, nofun⟩
  · rw [if_pos (hFits.mpr (by omega)), hRead, if_neg hLong, if_neg hSome]
    exact ⟨rest, rfl, hLines⟩

/-- **A line, however it was split into reads**, is what stands up to the next
newline. -/
theorem readLimitedLine_cons (ending : Ending) (max : Nat) {r : Reader} {line : List Byte}
    {lines : List (List Byte)} (h : splitLines r.bytes = line :: lines) :
    ReadsLine ending max r line lines := by
  have hRead := readUntil_eq ending [] r.available r.reads
  unfold Reader.bytes at h
  cases hFound : newlineAt (r.available ++ r.reads.flatten) with
  | some found =>
      obtain ⟨found, tail⟩ := found
      obtain ⟨hLines, hLast⟩ := splitLines_of_newline hFound
      rw [h] at hLines
      cases hLines
      rw [hFound] at hRead
      obtain ⟨rest, hBuf, rfl⟩ := hRead
      exact readLimitedLine_read (.inl hLast) (newlineAt_length hFound).2 rfl hBuf
  | none =>
      obtain ⟨hLines, hLast⟩ := splitLines_of_none hFound
      have hSome : r.available ++ r.reads.flatten ≠ [] := by
        intro hNil
        rw [hNil] at h
        cases h
      rw [if_neg hSome, h] at hLines
      cases hLines
      rw [hFound] at hRead
      cases ending with
      | eof => exact readLimitedLine_read (.inr rfl) hSome rfl hRead
      | failed error =>
          unfold ReadsLine readLimitedLine
          rw [if_neg fun hFits => hFits.1.elim hLast nofun]
          rw [hRead]
          exact ⟨rfl, nofun⟩
      | silent =>
          unfold ReadsLine readLimitedLine
          rw [if_neg fun hFits => hFits.1.elim hLast nofun]
          rw [hRead]
          exact ⟨rfl, nofun⟩

/-! ## The header loop, line by line -/

/-- Name and value of a line that the header loop enters. -/
def headerOf (ending : Ending) (line : List Byte) : Option (String × String) :=
  if Fits ending maxHeaderLine line then
    let text := trimLineEnd (fromUtf8Lossy line).toList
    if text = [] then none else headerLine text
  else none

theorem headerOf_length {ending : Ending} {line : List Byte} {header : String × String}
    (h : headerOf ending line = some header) : line.length ≤ maxHeaderLine := by
  unfold headerOf at h
  split at h
  · next hFits => exact hFits.2
  · cases h

/-- The record of the header loop, from the lines to come. -/
def headerLog (ending : Ending) (headers : HashMap String String) :
    List (List Byte) → List LineLog
  | [] => [⟨maxHeaderLine, [], false, false⟩]
  | line :: lines =>
      match headerOf ending line with
      | none => [⟨maxHeaderLine, line, Fits ending maxHeaderLine line, false⟩]
      | some (name, value) =>
          if headers.entries.length ≥ maxHeaders then [⟨maxHeaderLine, line, true, false⟩]
          else
            ⟨maxHeaderLine, line, true, true⟩ :: headerLog ending (headers.insert name value) lines

theorem readHeaders_stop {ending : Ending} {headers : HashMap String String} {r : Reader}
    (h : ∀ text rest, (readLimitedLine ending maxHeaderLine r).1 ≠ .line text rest) :
    (readHeaders ending headers r).2 =
      [⟨maxHeaderLine, (readLimitedLine ending maxHeaderLine r).2, false, false⟩] := by
  unfold readHeaders
  split
  · next hLine => rw [hLine]
  · next hLine => rw [hLine]
  · next hLine => rw [hLine]
  · next text rest buf hLine => exact absurd (congrArg Prod.fst hLine) (h text rest)

theorem readHeaders_line {ending : Ending} {headers : HashMap String String} {r rest : Reader}
    {line : List Byte} (hFits : Fits ending maxHeaderLine line)
    (h : readLimitedLine ending maxHeaderLine r = (.line (fromUtf8Lossy line) rest, line)) :
    (readHeaders ending headers r).2 =
      match headerOf ending line with
      | none => [⟨maxHeaderLine, line, true, false⟩]
      | some (name, value) =>
          if headers.entries.length ≥ maxHeaders then [⟨maxHeaderLine, line, true, false⟩]
          else
            ⟨maxHeaderLine, line, true, true⟩ ::
              (readHeaders ending (headers.insert name value) rest).2 := by
  unfold headerOf
  rw [if_pos hFits, readHeaders]
  split <;> rename_i hLine <;> rw [h] at hLine
  · cases hLine
  · cases hLine
  · cases hLine
  · cases hLine
    by_cases hEmpty : trimLineEnd (fromUtf8Lossy line).toList = []
    · simp only [hEmpty, if_true]
    · simp only [hEmpty, if_false]
      cases headerLine (trimLineEnd (fromUtf8Lossy line).toList) with
      | none => rfl
      | some header =>
          dsimp only
          split <;> rfl

theorem readHeaders_log (ending : Ending) (headers : HashMap String String) (r : Reader) :
    (readHeaders ending headers r).2 = headerLog ending headers (splitLines r.bytes) := by
  generalize hLines : splitLines r.bytes = lines
  induction lines generalizing headers r with
  | nil =>
      have hRead := readLimitedLine_nil ending maxHeaderLine hLines
      rw [readHeaders_stop fun text rest => hRead.2 text rest, hRead.1]
      rfl
  | cons line lines ih =>
      have hRead := readLimitedLine_cons ending maxHeaderLine hLines
      unfold ReadsLine at hRead
      unfold headerLog
      split at hRead
      · next hFits =>
        obtain ⟨rest, hLine, hRest⟩ := hRead
        rw [readHeaders_line hFits hLine, decide_eq_true hFits]
        cases headerOf ending line with
        | none => rfl
        | some header =>
            dsimp only
            rw [ih _ rest hRest]
      · next hFits =>
        have hNone : headerOf ending line = none := if_neg hFits
        rw [readHeaders_stop hRead.2, hRead.1, hNone, decide_eq_false hFits]

/-- The names of the headers in front of the first line that is none, and that
line; it is empty where nothing more comes. -/
def leadingHeaders (ending : Ending) : List (List Byte) → List String × List Byte
  | [] => ([], [])
  | line :: lines =>
      match headerOf ending line with
      | none => ([], line)
      | some (name, _) =>
          (name :: (leadingHeaders ending lines).1, (leadingHeaders ending lines).2)

/-- The header lines that the limits allow: few enough and the line behind
them within reach, or more than are taken and no name twice among those. -/
def HeadersFit (size : Nat) (names : List String) (next : List Byte) : Prop :=
  (names.length ≤ maxHeaders ∧ next.length ≤ maxHeaderLine + size) ∨
    (maxHeaders < names.length ∧ (names.take maxHeaders).Nodup)

def entered (log : List LineLog) : Nat := log.countP LineLog.entered

/-- What is buffered of each line, and how many are entered as headers when
`n` were before. -/
structure LinesFit (size n : Nat) (log : List LineLog) : Prop where
  hBuffered : ∀ line ∈ log, line.buffered.length ≤ line.limit + size
  hEntered : n + entered log ≤ maxHeaders

theorem linesFit_stop (size n limit : Nat) (line : List Byte) (returned : Bool) :
    LinesFit size n [⟨limit, line, returned, false⟩] ↔
      n ≤ maxHeaders ∧ line.length ≤ limit + size := by
  constructor
  · intro hFit
    exact ⟨hFit.hEntered, hFit.hBuffered _ (List.mem_singleton_self _)⟩
  · intro ⟨hEntered, hLength⟩
    refine ⟨fun line' hMem => ?_, hEntered⟩
    rw [List.mem_singleton.mp hMem]
    exact hLength

theorem linesFit_cons {size n limit : Nat} {line : List Byte} {log : List LineLog}
    (isHeader : Bool) (hLength : line.length ≤ limit + size) :
    LinesFit size n (⟨limit, line, true, isHeader⟩ :: log) ↔
      LinesFit size (n + isHeader.toNat) log := by
  have hCount : entered (⟨limit, line, true, isHeader⟩ :: log) =
      entered log + isHeader.toNat := by
    unfold entered
    rw [List.countP_cons]
    cases isHeader <;> rfl
  constructor
  · intro hFit
    have hEntered := hFit.hEntered
    exact ⟨fun line' hMem => hFit.hBuffered line' (List.mem_cons_of_mem _ hMem), by omega⟩
  · intro hFit
    have hEntered := hFit.hEntered
    refine ⟨fun line' hMem => ?_, by omega⟩
    cases hMem with
    | head => exact hLength
    | tail _ hMem => exact hFit.hBuffered line' hMem

theorem headersFit_iff (size : Nat) (ending : Ending) (lines : List (List Byte)) :
    ∀ (headers : HashMap String String) (seen : List String),
      (∀ key, key ∈ headers.entries.map Prod.fst ↔ key ∈ seen) →
      seen.length ≤ maxHeaders →
      (LinesFit size seen.length (headerLog ending headers lines) ↔
        HeadersFit size (seen ++ (leadingHeaders ending lines).1)
          (leadingHeaders ending lines).2) := by
  induction lines with
  | nil =>
      intro headers seen hKeys hSeen
      show LinesFit size seen.length [_] ↔ HeadersFit size (seen ++ []) []
      rw [linesFit_stop, List.append_nil]
      constructor
      · intro hFit
        exact .inl hFit
      · intro
        exact ⟨hSeen, Nat.zero_le _⟩
  | cons line lines ih =>
      intro headers seen hKeys hSeen
      unfold headerLog leadingHeaders
      cases hHeader : headerOf ending line with
      | none =>
          show LinesFit size seen.length [_] ↔ HeadersFit size (seen ++ []) line
          rw [linesFit_stop, List.append_nil]
          constructor
          · intro hFit
            exact .inl hFit
          · intro hFit
            apply hFit.resolve_right
            intro hMany
            exact Nat.not_lt.mpr hSeen hMany.1
      | some header =>
          obtain ⟨name, value⟩ := header
          dsimp only
          have hLength := headerOf_length hHeader
          have hLe := HashMap.length_le hKeys
          have hTake : seen.length = maxHeaders →
              (seen ++ name :: (leadingHeaders ending lines).1).take maxHeaders = seen := by
            intro hFull
            rw [← hFull, List.take_left]
          by_cases hFull : headers.entries.length ≥ maxHeaders
          · -- the map is full: no name was seen twice
            have hMax : seen.length = maxHeaders := by omega
            have hNodup : seen.Nodup := (HashMap.length_eq_iff hKeys).mp (by omega)
            rw [if_pos hFull, linesFit_stop]
            constructor
            · intro
              refine .inr ⟨by rw [List.length_append, List.length_cons]; omega, ?_⟩
              rw [hTake hMax]
              exact hNodup
            · intro
              exact ⟨hSeen, by omega⟩
          · rw [if_neg hFull, linesFit_cons true (by omega)]
            by_cases hMax : seen.length = maxHeaders
            · -- a name was seen twice, and one header more is entered
              constructor
              · intro hFit
                have hEntered := hFit.hEntered
                rw [Bool.toNat_true] at hEntered
                omega
              · intro hFit
                have hMany : ¬ (seen ++ name :: (leadingHeaders ending lines).1).length
                    ≤ maxHeaders := by
                  rw [List.length_append, List.length_cons]
                  omega
                have hNodup := (hFit.resolve_left fun hFew => hMany hFew.1).2
                rw [hTake hMax] at hNodup
                have hSame := (HashMap.length_eq_iff hKeys).mpr hNodup
                omega
            · have hNext := ih (headers.insert name value) (seen ++ [name])
                (fun key => by
                  rw [HashMap.mem_keys_insert, hKeys, List.mem_append, List.mem_singleton,
                    or_comm])
                (by rw [List.length_append, List.length_singleton]; omega)
              rw [List.length_append, List.append_assoc] at hNext
              exact hNext

theorem headerLog_length (ending : Ending) (lines : List (List Byte)) :
    ∀ headers : HashMap String String,
      (headerLog ending headers lines).length = entered (headerLog ending headers lines) + 1 := by
  induction lines with
  | nil =>
      intro headers
      rfl
  | cons line lines ih =>
      intro headers
      unfold headerLog
      split
      · rfl
      · split
        · rfl
        · next name value _ _ =>
          unfold entered
          rw [List.length_cons, List.countP_cons_of_pos rfl, ih]
          rfl

theorem headerLog_limit {ending : Ending} (lines : List (List Byte)) :
    ∀ (headers : HashMap String String), ∀ log ∈ headerLog ending headers lines,
      log.limit = maxHeaderLine ∧ (log.returned = true → log.buffered.length ≤ maxHeaderLine) := by
  induction lines with
  | nil =>
      intro headers log hMem
      rw [List.mem_singleton.mp hMem]
      exact ⟨rfl, nofun⟩
  | cons line lines ih =>
      intro headers log hMem
      unfold headerLog at hMem
      split at hMem
      · rw [List.mem_singleton.mp hMem]
        exact ⟨rfl, fun hReturned => (of_decide_eq_true hReturned).2⟩
      · next name value hHeader =>
        have hLength := headerOf_length hHeader
        split at hMem
        · rw [List.mem_singleton.mp hMem]
          exact ⟨rfl, fun _ => hLength⟩
        · cases hMem with
          | head => exact ⟨rfl, fun _ => hLength⟩
          | tail _ hMem => exact ih _ log hMem

/-! ## The limits on a request head -/

/-- What the limits on a request head ask of the lines it came to. -/
structure HeadLimits (size : Nat) (log : List LineLog) : Prop where
  hConsumed : (log.map fun line => line.buffered.length).sum ≤
    (maxRequestLine + size) + (maxHeaders + 1) * (maxHeaderLine + size)
  hBuffered : ∀ line ∈ log, line.buffered.length ≤ line.limit + size
  hLine : ∀ line ∈ log, line.returned = true → line.buffered.length ≤ line.limit
  hHeaders : entered log ≤ maxHeaders

/-- The request line of a head, if it is returned and well formed. -/
def requestLineOf (ending : Ending) (line : List Byte) : Option (String × String) :=
  if Fits ending maxRequestLine line then requestLine (trimLineEnd (fromUtf8Lossy line).toList)
  else none

/-- The record of a request head, from the lines to come. -/
def requestLog (ending : Ending) : List (List Byte) → List LineLog
  | [] => [⟨maxRequestLine, [], false, false⟩]
  | first :: lines =>
      if (requestLineOf ending first).isSome then
        ⟨maxRequestLine, first, true, false⟩ :: headerLog ending .empty lines
      else [⟨maxRequestLine, first, Fits ending maxRequestLine first, false⟩]

theorem readRequest_stop {ending : Ending} {r : Reader}
    (h : ∀ text rest, (readLimitedLine ending maxRequestLine r).1 ≠ .line text rest) :
    (readRequest ending r).2 =
      [⟨maxRequestLine, (readLimitedLine ending maxRequestLine r).2, false, false⟩] := by
  unfold readRequest
  split
  · next hLine => rw [hLine]
  · next hLine => rw [hLine]
  · next hLine => rw [hLine]
  · next text rest buf hLine => exact absurd (congrArg Prod.fst hLine) (h text rest)

theorem readRequest_log (ending : Ending) (r : Reader) :
    (readRequest ending r).2 = requestLog ending (splitLines r.bytes) := by
  cases hLines : splitLines r.bytes with
  | nil =>
      have hRead := readLimitedLine_nil ending maxRequestLine hLines
      rw [readRequest_stop hRead.2, hRead.1]
      rfl
  | cons first lines =>
      have hRead := readLimitedLine_cons ending maxRequestLine hLines
      unfold ReadsLine at hRead
      unfold requestLog requestLineOf
      dsimp only
      split at hRead
      · next hFits =>
        obtain ⟨rest, hLine, hRest⟩ := hRead
        unfold readRequest
        rw [hLine]
        dsimp only
        rw [if_pos hFits, decide_eq_true hFits]
        cases requestLine (trimLineEnd (fromUtf8Lossy first).toList) with
        | none => rfl
        | some parts =>
            show _ :: (readHeaders ending .empty rest).2 = _
            rw [readHeaders_log, hRest]
            rfl
      · next hFits =>
        rw [readRequest_stop hRead.2, hRead.1, if_neg hFits, decide_eq_false hFits]
        rfl

/-- The lines of a request head that its limits allow: a request line within
reach, and behind one that is answered to, headers that fit. -/
def HeadFits (size : Nat) (ending : Ending) : List (List Byte) → Prop
  | [] => True
  | first :: lines =>
      first.length ≤ maxRequestLine + size ∧
        ((requestLineOf ending first).isSome →
          HeadersFit size (leadingHeaders ending lines).1 (leadingHeaders ending lines).2)

theorem requestLineOf_length {ending : Ending} {line : List Byte}
    (h : (requestLineOf ending line).isSome) : line.length ≤ maxRequestLine := by
  unfold requestLineOf at h
  split at h
  · next hFits => exact hFits.2
  · cases h

theorem linesFit_consumed {size : Nat} {ending : Ending} {lines : List (List Byte)}
    {headers : HashMap String String} (h : LinesFit size 0 (headerLog ending headers lines)) :
    ((headerLog ending headers lines).map fun line => line.buffered.length).sum ≤
      (maxHeaders + 1) * (maxHeaderLine + size) := by
  have hBound : ∀ length ∈ (headerLog ending headers lines).map fun line => line.buffered.length,
      length ≤ maxHeaderLine + size := by
    intro length hMem
    obtain ⟨log, hLog, rfl⟩ := List.mem_map.mp hMem
    have hBuffered := h.hBuffered log hLog
    rw [(headerLog_limit lines headers log hLog).1] at hBuffered
    exact hBuffered
  have hSome : (headerLog ending headers lines).map (fun line => line.buffered.length) ≠ [] := by
    intro hNone
    have hLength := headerLog_length ending lines headers
    rw [List.map_eq_nil_iff.mp hNone] at hLength
    exact absurd hLength (Nat.succ_ne_zero _).symm
  have hEntered := h.hEntered
  have hSum := List.sum_le_max_mul_length_nat hSome
  rw [List.length_map, headerLog_length] at hSum
  calc ((headerLog ending headers lines).map fun line => line.buffered.length).sum
      ≤ _ * (entered (headerLog ending headers lines) + 1) := hSum
    _ ≤ (maxHeaderLine + size) * (maxHeaders + 1) :=
        Nat.mul_le_mul (hBound _ (List.max_mem hSome)) (by omega)
    _ = (maxHeaders + 1) * (maxHeaderLine + size) := Nat.mul_comm _ _

/-- The other limits hold of any request head that keeps these. -/
theorem headLimits_iff_linesFit (size : Nat) (ending : Ending) (lines : List (List Byte)) :
    HeadLimits size (requestLog ending lines) ↔ LinesFit size 0 (requestLog ending lines) := by
  constructor
  · intro hLimits
    have hHeaders := hLimits.hHeaders
    exact ⟨hLimits.hBuffered, by omega⟩
  · intro hFit
    have hEntered := hFit.hEntered
    cases lines with
    | nil =>
        exact ⟨Nat.zero_le _, hFit.hBuffered, by simp [requestLog], by omega⟩
    | cons first lines =>
        unfold requestLog at hFit hEntered ⊢
        dsimp only at hFit hEntered ⊢
        by_cases hRequest : (requestLineOf ending first).isSome
        · have hLength := requestLineOf_length hRequest
          rw [if_pos hRequest] at hFit hEntered ⊢
          have hHeaders := (linesFit_cons false (by omega)).mp hFit
          have hConsumed := linesFit_consumed hHeaders
          refine ⟨?_, hFit.hBuffered, ?_, by omega⟩
          · rw [List.map_cons, List.sum_cons]
            show first.length + _ ≤ _
            omega
          · intro line hMem hReturned
            cases hMem with
            | head => exact hLength
            | tail _ hMem =>
                obtain ⟨hLimit, hLine⟩ := headerLog_limit lines .empty line hMem
                rw [hLimit]
                exact hLine hReturned
        · rw [if_neg hRequest] at hFit hEntered ⊢
          obtain ⟨-, hLength⟩ := (linesFit_stop _ _ _ _ _).mp hFit
          refine ⟨?_, hFit.hBuffered, ?_, by omega⟩
          · show first.length + 0 ≤ _
            omega
          · intro line hMem hReturned
            rw [List.mem_singleton.mp hMem] at hReturned ⊢
            exact (of_decide_eq_true hReturned).2

theorem linesFit_iff_headFits (size : Nat) (ending : Ending) (lines : List (List Byte)) :
    LinesFit size 0 (requestLog ending lines) ↔ HeadFits size ending lines := by
  cases lines with
  | nil =>
      show LinesFit size 0 [_] ↔ True
      rw [linesFit_stop]
      exact iff_true_intro ⟨Nat.zero_le _, Nat.zero_le _⟩
  | cons first lines =>
      unfold requestLog HeadFits
      dsimp only
      by_cases hRequest : (requestLineOf ending first).isSome
      · have hLength := requestLineOf_length hRequest
        have hReach : first.length ≤ maxRequestLine + size := by omega
        have hHeaders := headersFit_iff size ending lines .empty []
          (fun key => Iff.rfl) (Nat.zero_le _)
        rw [if_pos hRequest, linesFit_cons false hReach]
        constructor
        · intro hFit
          exact ⟨hReach, fun _ => hHeaders.mp hFit⟩
        · intro hFit
          exact hHeaders.mpr (hFit.2 hRequest)
      · rw [if_neg hRequest, linesFit_stop]
        constructor
        · intro hFit
          exact ⟨hFit.2, fun hSome => absurd hSome hRequest⟩
        · intro hFit
          exact ⟨Nat.zero_le _, hFit.1⟩

/-- **When the limits on a request head hold**: when the request line ends
within the limit and one read more, and behind a well-formed one the headers
are few enough and the line behind them ends so as well, or there are more
than are taken and no name is twice among those. -/
theorem head_limits_iff (size : Nat) (client : Client size) :
    HeadLimits size (readRequest client.ending ⟨[], client.reads⟩).2 ↔
      HeadFits size client.ending (splitLines client.reads.flatten) := by
  rw [readRequest_log, headLimits_iff_linesFit, linesFit_iff_headFits]
  rfl

theorem newlineAt_replicate {b : Byte} (hOther : b ≠ 0x0A) (n : Nat) :
    newlineAt (List.replicate n b) = none := by
  induction n with
  | zero => rfl
  | succ n ih => rw [List.replicate_succ, newlineAt_cons, if_neg hOther, ih, Option.map_none]

theorem not_headLimits_of_long {size : Nat} {client : Client size}
    (hNone : newlineAt client.reads.flatten = none)
    (hLong : maxRequestLine + size < client.reads.flatten.length) :
    ¬ HeadLimits size (readRequest client.ending ⟨[], client.reads⟩).2 := by
  have hSome : client.reads.flatten ≠ [] := by
    intro hNil
    rw [hNil, List.length_nil] at hLong
    omega
  have hLines : splitLines client.reads.flatten = [client.reads.flatten] := by
    rw [(splitLines_of_none hNone).1, if_neg hSome]
  rw [readRequest_log, headLimits_iff_linesFit, linesFit_iff_headFits]
  show ¬ HeadFits size client.ending (splitLines client.reads.flatten)
  rw [hLines]
  intro hFit
  exact Nat.not_lt.mpr hFit.1 hLong

/-- A client that sends 133 reads of 8 KiB without a newline. -/
def longLine : Client (8 * 1024) where
  reads := List.replicate 133 (List.replicate (8 * 1024) 0x41)
  hReads := by
    intro read hMem
    rw [List.eq_of_mem_replicate hMem, List.length_replicate]
    omega
  ending := .eof

/-- All of them are taken as one request line. -/
theorem long_line_over_limits :
    ¬ HeadLimits (8 * 1024) (readRequest longLine.ending ⟨[], longLine.reads⟩).2 := by
  have hBytes : longLine.reads.flatten = List.replicate (133 * (8 * 1024)) 0x41 :=
    List.flatten_replicate_replicate
  apply not_headLimits_of_long
  · rw [hBytes]
    exact newlineAt_replicate (by decide) _
  · rw [hBytes, List.length_replicate]
    unfold maxRequestLine
    omega

end CastApp.Media.RequestHead
