import CastApp.Media.RequestText
import CastApp.Media.SentBytes
import CastApp.Media.ServedBytes

/-!
# Downloads

A client downloads what the server has stored, a file or a file on a share, in
as many connections as it takes: each with a request of its own, for any range;
each may be cut at any moment by the client, the link, the resource or a switch
of the source.  The client stores the body of a response where the head says it
belongs.

* `Serving` — what a connection keeps while it serves.
* `run_delivers` — its run lemma.
* `held_agrees`, `completes` — what a client holds, and how it is completed.
* **`download_correct`** — the two, for every run.
-/

namespace CastApp.Media.Download

open CastApp.Media.Connections
open CastApp.Media.Handler
open CastApp.Media.LocalFile (headOf)
open CastApp.Media.MediaServer
open CastApp.Media.Range
open CastApp.Media.RequestHead
open CastApp.Media.RequestText (Request)
open CastApp.Media.ResponseText
open CastApp.Media.SentBytes (Begun Link Unsent)
open CastApp.Media.ServedBytes (Bounded Chunk bytesOf)
open CastApp.Media.Serving
open CastApp.Media.SmbSource (UrlParser)
open CastApp.State
open CastApp.Util
open CastApp.Util.Utf8
open CastApp.Verified.Anytime
open CastApp.Verified.Coroutine
open CastApp.Verified.Ends
open CastApp.Verified.EventLoop
open CastApp.Verified.Transition

/-! ## One connection -/

/-- A connection that serves what is stored. -/
structure Delivery where
  /-- Where the file is read. -/
  position : Nat
  link : Link
  /-- The client, the file or the share has failed. -/
  failed : Bool

def Delivery.opened : Delivery := ⟨0, .opened, false⟩

def Troubled (d : Delivery) : Prop := d.failed = true ∨ d.link.broken = true

/-- What reading a request head comes to in time. -/
def headRead : HeadResult HttpRequest → HeadRead
  | .ok request => .request request
  | .error (.unexpectedEof _) => .closed
  | .error _ => .failed
  | .waiting => .slow

def Fails {ε α : Type} (d : Delivery) (r : Except ε α) (d' : Delivery) : Prop :=
  (∃ error, r = .error error) ∧ d' = { d with failed := true }

/-- A content that does not change and a link to a client: either may fail at
any operation, and the client may be too slow. -/
def answers (content : List Byte) (read : HeadRead) : Answers servingSig Delivery
  | d, .readRequest, r, d' => r = read ∧ d' = d ∨ r = .slow ∧ d' = { d with failed := true }
  | d, .openFile _, r, d' => r = .ok () ∧ d' = { d with position := 0 } ∨ Fails d r d'
  | d, .fileSize, r, d' => r = .ok content.length ∧ d' = d ∨ Fails d r d'
  | d, .seek start, r, d' => r = .ok () ∧ d' = { d with position := start } ∨ Fails d r d'
  | d, .read want, r, d' =>
      (∃ chunk, r = .ok chunk ∧ Chunk content d.position want chunk ∧
        d' = { d with position := d.position + chunk.length }) ∨ Fails d r d'
  | d, .openShare _, r, d' => r = .ok content.length ∧ d' = d ∨ Fails d r d'
  | d, .readAt offset len, r, d' =>
      (∃ chunk, r = .ok chunk ∧ Chunk content offset len chunk ∧ d' = d) ∨ Fails d r d'
  | d, .closeShare, _, d' => d' = d
  | d, .writeHead head, r, d' =>
      ∃ l, SentBytes.answers d.link (.writeHead head) r l ∧ d' = { d with link := l }
  | d, .write bytes, r, d' =>
      ∃ l, SentBytes.answers d.link (.write bytes) r l ∧ d' = { d with link := l }
  | d, .flush, r, d' => ∃ l, SentBytes.answers d.link .flush r l ∧ d' = { d with link := l }
  | _, .send _ _, _, _ | _, .now, _, _ | _, .takeLive, _, _ | _, .putBack _, _, _ => False

/-- The head has been written, and all of the body but `rest`. -/
structure Serving (head : ResponseHead) (due rest : List Byte) (l : Link) : Prop where
  begun : Begun head l
  body : l.body ++ rest = due

/-- A response without anything to store has been begun. -/
def Refused (l : Link) : Prop := ∃ head, Begun head l ∧ head.status ≠ 200 ∧ head.status ≠ 206

section Connection

variable {content : List Byte} {read : HeadRead} {head : ResponseHead} {due : List Byte}
variable {d : Delivery}

/-- What a connection keeps, wherever it is dropped. -/
def Kept (head : ResponseHead) (due : List Byte) (l : Link) : Prop :=
  Unsent l ∨ Refused l ∨ ∃ rest, Serving head due rest l

/-- What it leaves at its end. -/
def Closed (head : ResponseHead) (due : List Byte) (d : Delivery) : Prop :=
  Kept head due d.link ∧ (Troubled d ∨ Serving head due [] d.link)

theorem Serving.kept {l : Link} {rest : List Byte} (h : Serving head due rest l) :
    Kept head due l := .inr (.inr ⟨rest, h⟩)

theorem Serving.closed (h : Serving head due [] d.link) : Closed head due d := ⟨h.kept, .inr h⟩

variable (content read head due) in
/-- A part of a handler, up to its end. -/
abbrev Closes {α : Type} (d : Delivery) (p : Serve α) : Prop :=
  Stays (answers content read) (fun d => Kept head due d.link) d p fun d' _ => Closed head due d'

variable (content read head due) in
/-- A part of a handler that goes on with `mid` unless there is trouble. -/
abbrev Tries {α : Type} (d : Delivery) (p : Serve (Except IoError α))
    (mid : Delivery → α → Prop) : Prop :=
  Stays (answers content read) (fun d => Kept head due d.link) d p fun d' r =>
    match r with
    | .ok a => mid d' a
    | .error _ => Closed head due d'

theorem attempt_closes {α β : Type} {p : Serve (Except IoError α)}
    {f : α → Serve (Except IoError β)} (mid : Delivery → α → Prop)
    (hp : Tries content read head due d p mid)
    (hf : ∀ d' a, mid d' a → Closes content read head due d' (f a)) :
    Closes content read head due d (attempt p f) := by
  refine hp.bind fun d' r hMid => ?_
  cases r with
  | ok a => exact hf d' a hMid
  | error error => exact ⟨hMid.1, hMid⟩

theorem attempt_tries {α β : Type} {p : Serve (Except IoError α)}
    {f : α → Serve (Except IoError β)} (mid : Delivery → α → Prop) {post : Delivery → β → Prop}
    (hp : Tries content read head due d p mid)
    (hf : ∀ d' a, mid d' a → Tries content read head due d' (f a) post) :
    Tries content read head due d (attempt p f) post := by
  refine hp.bind fun d' r hMid => ?_
  cases r with
  | ok a => exact hf d' a hMid
  | error error => exact ⟨hMid.1, hMid⟩

/-- A resource that fails is trouble. -/
theorem Fails.closed {ε α : Type} {r : Except ε α} {d' : Delivery} (hKept : Kept head due d.link)
    (h : Fails d r d') : Closed head due d' := by
  obtain ⟨-, rfl⟩ := h
  exact ⟨hKept, .inl (.inl rfl)⟩

/-! ### The link -/

/-- A write that fails has broken the link. -/
theorem broken_of_error {bytes : List Byte} {l : Link} {error : IoError} {sent : List Byte}
    {broken : Bool} (h : SentBytes.Sends bytes l (.error error) sent broken) : broken = true := by
  cases h with
  | cut hOpen hPart => rfl
  | dead hBroken => rfl

theorem write_tries {bytes rest : List Byte} (h : Serving head due (bytes ++ rest) d.link) :
    Tries content read head due d (ask (.write bytes)) fun d' _ =>
      Serving head due rest d'.link ∧ d'.position = d.position := by
  refine ⟨h.kept, ?_⟩
  rintro r d' ⟨l, ⟨sent, broken, hSends, rfl⟩, rfl⟩
  have hServing : Serving head due rest
      ⟨d.link.heads, d.link.body ++ bytes, sent, broken⟩ :=
    ⟨h.begun.write hSends, by rw [← h.body, List.append_assoc]⟩
  refine ⟨hServing.kept, ?_⟩
  cases r with
  | ok _ => exact ⟨hServing, rfl⟩
  | error error => exact ⟨hServing.kept, .inl (.inr (broken_of_error hSends))⟩

theorem writeHead_tries (hUnsent : Unsent d.link) (hHead : WellFormed head) :
    Tries content read head due d (ask (.writeHead head)) fun d' _ =>
      Serving head due due d'.link ∧ d'.position = d.position := by
  refine ⟨.inl hUnsent, ?_⟩
  rintro r d' ⟨l, ⟨sent, broken, hSends, rfl⟩, rfl⟩
  have hServing : Serving head due due
      ⟨d.link.heads ++ [head], d.link.body, sent, broken⟩ :=
    ⟨hUnsent.begun hHead hSends, by rw [hUnsent.body, List.nil_append]⟩
  refine ⟨hServing.kept, ?_⟩
  cases r with
  | ok _ => exact ⟨hServing, rfl⟩
  | error error => exact ⟨hServing.kept, .inl (.inr (broken_of_error hSends))⟩

theorem flush_closes (h : Serving head due [] d.link) :
    Closes content read head due d (ask .flush) := by
  refine ⟨h.kept, ?_⟩
  rintro r d' ⟨l, hFlushed, rfl⟩
  have hServing : Serving head due [] l := by
    refine ⟨h.begun.flush hFlushed, ?_⟩
    rcases hFlushed with rfl | rfl
    · exact h.body
    · exact h.body
  exact ⟨hServing.kept, hServing.kept, .inr hServing⟩

/-! ### Refusals -/

/-- A refusal comes of a failure. -/
structure Refusing (d : Delivery) : Prop where
  refused : Refused d.link
  failed : d.failed = true

theorem Refusing.closed (h : Refusing d) : Closed head due d :=
  ⟨.inr (.inl h.refused), .inl (.inl h.failed)⟩

theorem refuse_closes {p : Serve (Except IoError Unit)} (hUnsent : Unsent d.link)
    (hFailed : d.failed = true) {refusal : ResponseHead} (hHead : WellFormed refusal)
    (hStatus : refusal.status ≠ 200 ∧ refusal.status ≠ 206)
    (hp : ∀ d', Refusing d' → Closes content read head due d' p) :
    Closes content read head due d (attempt (ask (.writeHead refusal)) fun () => p) := by
  refine attempt_closes (fun d' _ => Refusing d') ⟨.inl hUnsent, ?_⟩ fun d' _ h => hp d' h
  rintro r d' ⟨l, ⟨sent, broken, hSends, rfl⟩, rfl⟩
  have hRefusing : Refusing
      { d with link := ⟨d.link.heads ++ [refusal], d.link.body, sent, broken⟩ } :=
    ⟨⟨refusal, hUnsent.begun hHead hSends, hStatus⟩, hFailed⟩
  refine ⟨hRefusing.closed.1, ?_⟩
  cases r with
  | ok _ => exact hRefusing
  | error error => exact hRefusing.closed

theorem flushRefusal_closes (h : Refusing d) : Closes content read head due d (ask .flush) := by
  refine ⟨h.closed.1, ?_⟩
  rintro r d' ⟨l, hFlushed, rfl⟩
  obtain ⟨⟨refusal, hBegun, hStatus⟩, hFailed⟩ := h
  have hRefusing : Refusing { d with link := l } :=
    ⟨⟨refusal, hBegun.flush hFlushed, hStatus⟩, hFailed⟩
  exact ⟨hRefusing.closed.1, hRefusing.closed⟩

theorem writeRefusal_closes (h : Refusing d) (bytes : List Byte) :
    Closes content read head due d (attempt (ask (.write bytes)) fun () => ask .flush) := by
  refine attempt_closes (fun d' _ => Refusing d') ⟨h.closed.1, ?_⟩
    fun d' _ h => flushRefusal_closes h
  rintro r d' ⟨l, ⟨sent, broken, hSends, rfl⟩, rfl⟩
  obtain ⟨⟨refusal, hBegun, hStatus⟩, hFailed⟩ := h
  have hRefusing : Refusing { d with link := ⟨d.link.heads, d.link.body ++ bytes, sent, broken⟩ } :=
    ⟨⟨refusal, hBegun.write hSends, hStatus⟩, hFailed⟩
  refine ⟨hRefusing.closed.1, ?_⟩
  cases r with
  | ok _ => exact hRefusing
  | error error => exact hRefusing.closed

/-! ### Readers -/

/-- The reader of a file hands over the bytes from its position on. -/
theorem localReader_tries (remaining : Nat)
    (h : Serving head due ((content.drop d.position).take remaining) d.link)
    (hFits : d.position + remaining ≤ content.length) :
    Tries content read head due d (LocalFile.streamReader remaining) fun d' _ =>
      Serving head due [] d'.link := by
  induction remaining using Nat.strongRecOn generalizing d with
  | ind remaining ih =>
      unfold LocalFile.streamReader
      by_cases hDone : remaining = 0
      · subst hDone
        exact ⟨h.kept, h⟩
      · rw [if_neg hDone]
        have hWant : 0 < min remaining LocalFile.chunkSize := by
          unfold LocalFile.chunkSize
          omega
        refine attempt_tries (fun d' chunk =>
          Chunk content d.position (min remaining LocalFile.chunkSize) chunk ∧
            d' = { d with position := d.position + chunk.length }) ⟨h.kept, ?_⟩ ?_
        · rintro r d' (⟨chunk, rfl, hChunk, rfl⟩ | hFails)
          · exact ⟨h.kept, hChunk, rfl⟩
          · have hClosed : Closed head due d' := hFails.closed h.kept
            refine ⟨hClosed.1, ?_⟩
            obtain ⟨⟨error, rfl⟩, -⟩ := hFails
            exact hClosed
        · rintro d' chunk ⟨hChunk, rfl⟩
          have hShort := hChunk.short
          cases chunk with
          | nil => exact absurd rfl (hChunk.some hWant (by omega))
          | cons byte bytes =>
              rw [List.length_cons] at hShort
              rw [← hChunk.append_take (Nat.min_le_left ..)] at h
              refine attempt_tries _ (write_tries ⟨h.begun, h.body⟩) ?_
              rintro d' _ ⟨hServing, hPosition⟩
              rw [if_neg (by omega)]
              have hBehind : d'.position = d.position + (bytes.length + 1) := hPosition
              refine ih (remaining - (bytes.length + 1)) (by omega) ?_ (by omega)
              rw [hBehind]
              exact hServing

/-- The reader of a share hands over the bytes from its offset on. -/
theorem shareReader_tries (remaining : Nat) {offset : Nat}
    (h : Serving head due ((content.drop offset).take remaining) d.link)
    (hFits : offset + remaining ≤ content.length) :
    Tries content read head due d (SmbSource.streamReader offset remaining) fun d' _ =>
      Serving head due [] d'.link := by
  induction remaining using Nat.strongRecOn generalizing d offset with
  | ind remaining ih =>
      unfold SmbSource.streamReader
      by_cases hDone : remaining = 0
      · subst hDone
        exact ⟨h.kept, h⟩
      · rw [if_neg hDone]
        have hWant : 0 < min remaining SmbSource.readChunk := by
          unfold SmbSource.readChunk
          omega
        refine Stays.perform h.kept ?_
        rintro r d' (⟨chunk, rfl, hChunk, rfl⟩ | hFails)
        · have hShort := hChunk.short
          cases chunk with
          | nil => exact absurd rfl (hChunk.some hWant (by omega))
          | cons byte bytes =>
              rw [List.length_cons] at hShort
              rw [← hChunk.append_take (Nat.min_le_left ..)] at h
              refine attempt_tries _ (write_tries h) ?_
              rintro d' _ ⟨hServing, -⟩
              rw [if_neg (by omega)]
              refine ih (remaining - (bytes.length + 1)) (by omega) hServing ?_
              omega
        · have hClosed : Closed head due d' := hFails.closed h.kept
          obtain ⟨⟨error, rfl⟩, -⟩ := hFails
          exact ⟨hClosed.1, hClosed⟩

theorem localBody_tries {decision : RangeDecision} (hBounded : Bounded content decision)
    (h : Serving head due (bytesOf content decision) d.link) (hStart : d.position = 0) :
    Tries content read head due d (LocalFile.body decision content.length) fun d' _ =>
      Serving head due [] d'.link := by
  cases decision with
  | full =>
      refine localReader_tries content.length ?_ (by omega)
      rw [hStart, List.drop_zero, List.take_length]
      exact h
  | slice start stop =>
      obtain ⟨hOrder, hInside⟩ := hBounded start stop rfl
      refine attempt_tries (fun d' _ => d' = { d with position := start }) ⟨h.kept, ?_⟩ ?_
      · rintro r d' (⟨rfl, rfl⟩ | hFails)
        · exact ⟨h.kept, rfl⟩
        · have hClosed : Closed head due d' := hFails.closed h.kept
          obtain ⟨⟨error, rfl⟩, -⟩ := hFails
          exact ⟨hClosed.1, hClosed⟩
      · rintro d' _ rfl
        exact localReader_tries (stop - start + 1) h
          (show start + (stop - start + 1) ≤ content.length by omega)
  | unsatisfiable => exact ⟨h.kept, h⟩

theorem shareBody_tries {decision : RangeDecision} (hBounded : Bounded content decision)
    (h : Serving head due (bytesOf content decision) d.link) :
    Tries content read head due d (SmbSource.body decision content.length) fun d' _ =>
      Serving head due [] d'.link := by
  cases decision with
  | full =>
      refine shareReader_tries content.length ?_ (by omega)
      rw [List.drop_zero, List.take_length]
      exact h
  | slice start stop =>
      obtain ⟨hOrder, hInside⟩ := hBounded start stop rfl
      exact shareReader_tries (stop - start + 1) h (by omega)
  | unsatisfiable => exact ⟨h.kept, h⟩

end Connection

/-! ## Sources -/

/-- A source that is stored, and its content type. -/
inductive Stored (parseUrl : UrlParser) : ActiveSource → String → Prop
  | file (path : String) : Stored parseUrl (.file path) (Mime.mimeForPath path)
  | share {url : String} {share : SmbUrl} (hSmb : SmbSource.isSmbUrl url = true)
      (hUrl : SmbSource.SmbUrl.parse parseUrl url = .ok share) :
      Stored parseUrl (.url url) (Mime.mimeForExtension (SmbSource.fileExtension share.filePath))

/-- The head that is due for a range. -/
def headFor (content : List Byte) (mime : String) (range : Option String) : ResponseHead :=
  headOf mime content.length (parseRange range content.length)

/-- The body that is due for a range. -/
def bodyFor (content : List Byte) (range : Option String) : List Byte :=
  bytesOf content (parseRange range content.length)

section Sources

variable {parseUrl : UrlParser} {content : List Byte} {read : HeadRead} {range : Option String}
variable {d : Delivery}

theorem localFile_closes (path : String) (h : Unsent d.link) :
    Closes content read (headFor content (Mime.mimeForPath path) range) (bodyFor content range) d
      (LocalFile.serve path range false) := by
  refine Stays.perform (.inl h) ?_
  rintro opened d' (⟨rfl, rfl⟩ | hFails)
  · refine attempt_closes (fun d' size =>
      size = content.length ∧ d' = { d with position := 0 }) ⟨.inl h, ?_⟩ ?_
    · rintro r d' (⟨rfl, rfl⟩ | hFails)
      · exact ⟨.inl h, rfl, rfl⟩
      · have hClosed : Closed (headFor content (Mime.mimeForPath path) range)
            (bodyFor content range) d' :=
          Fails.closed (d := { d with position := 0 }) (.inl h) hFails
        obtain ⟨⟨error, rfl⟩, -⟩ := hFails
        exact ⟨hClosed.1, hClosed⟩
    · rintro d' size ⟨rfl, rfl⟩
      refine attempt_closes _ (writeHead_tries (d := { d with position := 0 }) h
        (headOf_wellFormed (mimeForPath_oneLine path) _ _)) ?_
      rintro d' _ ⟨hServing, hPosition⟩
      exact attempt_closes _ (localBody_tries ServedBytes.parseRange_bounded hServing hPosition)
        fun d' _ hServing => flush_closes hServing
  · have hClosed : Closed (headFor content (Mime.mimeForPath path) range)
        (bodyFor content range) d' := hFails.closed (.inl h)
    obtain ⟨⟨error, rfl⟩, rfl⟩ := hFails
    by_cases hMissing : error.kind = .notFound
    · dsimp only
      rw [if_pos hMissing]
      have hHead : WellFormed LocalFile.missing := by decide
      exact refuse_closes (d := { d with failed := true }) h rfl hHead (by decide) fun d' h =>
        flushRefusal_closes h
    · dsimp only
      rw [if_neg hMissing]
      exact ⟨.inl h, hClosed⟩

theorem openFailed_closes {head : ResponseHead} {due : List Byte} (error : SmbError)
    (h : Unsent d.link) (hFailed : d.failed = true) :
    Closes content read head due d (SmbSource.openFailed error) := by
  have hPlain : ∀ status reason text, OneLine reason → status ≠ 200 ∧ status ≠ 206 →
      Closes content read head due d (SmbSource.plainError status reason text) := by
    intro status reason text hReason hStatus
    exact refuse_closes h hFailed (plainHead_wellFormed hReason _ _) hStatus fun d' h =>
      writeRefusal_closes h _
  cases error with
  | authRequired => exact hPlain _ _ _ (by decide) (by decide)
  | notFound => exact hPlain _ _ _ (by decide) (by decide)
  | accessDenied => exact hPlain _ _ _ (by decide) (by decide)
  | invalidUrl => exact hPlain _ _ _ (by decide) (by decide)
  | transport => exact hPlain _ _ _ (by decide) (by decide)

theorem smbSource_closes {url : String} {share : SmbUrl}
    (hUrl : SmbSource.SmbUrl.parse parseUrl url = .ok share) (h : Unsent d.link) :
    Closes content read
      (headFor content (Mime.mimeForExtension (SmbSource.fileExtension share.filePath)) range)
      (bodyFor content range) d (SmbSource.serve parseUrl url range false) := by
  unfold SmbSource.serve
  rw [hUrl]
  refine Stays.perform (.inl h) ?_
  rintro opened d' (⟨rfl, rfl⟩ | hFails)
  · refine attempt_closes _ (writeHead_tries h
      (headOf_wellFormed (mimeForExtension_oneLine _) _ _)) ?_
    rintro d' _ ⟨hServing, -⟩
    refine attempt_closes _ (shareBody_tries ServedBytes.parseRange_bounded hServing)
      fun d' _ hServing => ?_
    refine Stays.perform hServing.kept ?_
    rintro closed d' rfl
    exact flush_closes hServing
  · obtain ⟨⟨error, rfl⟩, rfl⟩ := hFails
    exact openFailed_closes error h rfl

/-- A connection that is served from what is stored. -/
def delivery (content : List Byte) (read : HeadRead) (parseUrl : UrlParser)
    (source : ActiveSource) :
    System (Control servingSig State × Delivery) (Label servingSig BodyEvent Empty) :=
  within (· = Delivery.opened) (answers content read) (handleConnection parseUrl (some source))

variable {source : ActiveSource} {mime : String} {request : HttpRequest}

theorem finish_closes {head : ResponseHead} {due : List Byte}
    {p : Serve (Except IoError Unit)} (hp : Closes content read head due d p) :
    StaysLoop (answers content read) (fun d => Kept head due d.link) (fun _ _ => False)
      (Closed head due) d (finish p) := hp.bind fun _ _ h => ⟨h.1, h⟩

/-- A request is handled by a part that closes its connection, and that comes to
its end where nothing fails. -/
theorem handleRequest_stored (content : List Byte) (read : HeadRead)
    (hStored : Stored parseUrl source mime) (hMethod : request.method = "GET")
    (hTarget : request.target = "/stream") :
    ∃ p, handleRequest parseUrl (some source) request = finish p ∧
      (∀ d, Unsent d.link → Closes content read
        (headFor content mime (request.headers.lookup "range"))
        (bodyFor content (request.headers.lookup "range")) d p) ∧
      Ends (ServedBytes.answers content) .start p
        (ServedBytes.Responds content mime (request.headers.lookup "range") false) := by
  have hGet : ¬ (request.method ≠ "GET" ∧ request.method ≠ "HEAD") :=
    fun hOther => hOther.1 hMethod
  have hWhole : decide (request.method = "HEAD") = false := by
    rw [hMethod]
    decide
  unfold handleRequest
  rw [if_neg hGet, if_neg (not_not.mpr hTarget), hWhole]
  cases hStored with
  | file path =>
      exact ⟨_, rfl, fun d h => localFile_closes path h, ServedBytes.localFile_ends path _ false⟩
  | @share url share hSmb hUrl =>
      unfold serveSource
      simp only [if_pos hSmb]
      exact ⟨_, rfl, fun d h => smbSource_closes hUrl h, ServedBytes.smbSource_ends hUrl _ false⟩

variable {c : Control servingSig State × Delivery}
variable {trace : List (Move (Control servingSig State × Delivery)
  (Label servingSig BodyEvent Empty))}

/-- The run lemma: at every moment a connection keeps to the response that is
due for the range it was asked for. -/
theorem run_delivers (hStored : Stored parseUrl source mime) (hMethod : request.method = "GET")
    (hTarget : request.target = "/stream")
    (hRun : Run (delivery content (.request request) parseUrl source) trace c) :
    AtAnytime (answers content (.request request))
      (fun d => Kept (headFor content mime (request.headers.lookup "range"))
        (bodyFor content (request.headers.lookup "range")) d.link) (fun _ _ => False)
      (Closed (headFor content mime (request.headers.lookup "range"))
        (bodyFor content (request.headers.lookup "range"))) c.2 c.1 := by
  refine loopStays hRun ?_ fun d s event d' hNever _ _ => hNever.elim
  rintro d rfl
  have hOpened : Unsent Link.opened := ⟨rfl, rfl, rfl⟩
  refine Stays.perform (.inl hOpened) ?_
  rintro read d' (⟨rfl, rfl⟩ | ⟨rfl, rfl⟩)
  · obtain ⟨p, hHandled, hCloses, -⟩ :=
      handleRequest_stored content (.request request) hStored hMethod hTarget
    dsimp only
    rw [hHandled]
    exact finish_closes (hCloses _ hOpened)
  · exact ⟨.inl hOpened, .inl hOpened, .inl (.inl rfl)⟩

/-- A delivery that goes as a transfer without failures does. -/
structure Follows (w : ServedBytes.Wire) (d : Delivery) : Prop where
  position : d.position = w.position
  quiet : ¬ Troubled d

theorem Follows.answer (read : HeadRead) {w w' : ServedBytes.Wire} (h : Follows w d) {op : Op}
    {r : op.Ans} (hAnswer : ServedBytes.answers content w op r w') :
    ∃ d', answers content read d op r d' ∧ Follows w' d' := by
  obtain ⟨hPosition, hQuiet⟩ := h
  have hOpen : d.link.broken = false := by
    cases hBroken : d.link.broken with
    | false => rfl
    | true => exact absurd (.inr hBroken) hQuiet
  have hSent : ∀ heads body sent, ¬ Troubled { d with link := ⟨heads, body, sent, false⟩ } := by
    rintro heads body sent (hFailed | hBroken)
    · exact hQuiet (.inl hFailed)
    · cases hBroken
  cases op with
  | openFile path =>
      obtain ⟨rfl, rfl⟩ := hAnswer
      exact ⟨{ d with position := 0 }, .inl ⟨rfl, rfl⟩, rfl, hQuiet⟩
  | fileSize =>
      obtain ⟨rfl, rfl⟩ := hAnswer
      exact ⟨d, .inl ⟨rfl, rfl⟩, hPosition, hQuiet⟩
  | seek start =>
      obtain ⟨rfl, rfl⟩ := hAnswer
      exact ⟨{ d with position := start }, .inl ⟨rfl, rfl⟩, rfl, hQuiet⟩
  | read want =>
      obtain ⟨chunk, rfl, hChunk, rfl⟩ := hAnswer
      rw [← hPosition] at hChunk
      exact ⟨{ d with position := d.position + chunk.length }, .inl ⟨chunk, rfl, hChunk, rfl⟩,
        congrArg (· + chunk.length) hPosition, hQuiet⟩
  | openShare url =>
      obtain ⟨rfl, rfl⟩ := hAnswer
      exact ⟨d, .inl ⟨rfl, rfl⟩, hPosition, hQuiet⟩
  | readAt offset len =>
      obtain ⟨chunk, rfl, hChunk, rfl⟩ := hAnswer
      exact ⟨d, .inl ⟨chunk, rfl, hChunk, rfl⟩, hPosition, hQuiet⟩
  | closeShare =>
      obtain rfl := hAnswer
      exact ⟨d, rfl, hPosition, hQuiet⟩
  | writeHead head =>
      obtain ⟨rfl, rfl⟩ := hAnswer
      exact ⟨_, ⟨_, ⟨_, _, .taken hOpen, rfl⟩, rfl⟩, hPosition, hSent _ _ _⟩
  | write bytes =>
      obtain ⟨rfl, rfl⟩ := hAnswer
      exact ⟨_, ⟨_, ⟨_, _, .taken hOpen, rfl⟩, rfl⟩, hPosition, hSent _ _ _⟩
  | flush =>
      obtain ⟨rfl, rfl⟩ := hAnswer
      exact ⟨d, ⟨d.link, .inl rfl, rfl⟩, hPosition, hQuiet⟩
  | readRequest => exact hAnswer.elim
  | send url range => exact hAnswer.elim
  | now => exact hAnswer.elim
  | takeLive => exact hAnswer.elim
  | putBack stream => exact hAnswer.elim

theorem Follows.answered (read : HeadRead) {w w' : ServedBytes.Wire} (h : Follows w d) {tr : Ops}
    (hAnswered : Answered (ServedBytes.answers content) w tr w') :
    ∃ d', Answered (answers content read) d tr d' ∧ Follows w' d' := by
  induction tr generalizing w d with
  | nil =>
      obtain rfl : w = w' := hAnswered
      exact ⟨d, rfl, h⟩
  | cons entry tr ih =>
      obtain ⟨w₁, hAnswer, hAnswered⟩ := hAnswered
      obtain ⟨d₁, hStep, hFollows⟩ := h.answer read hAnswer
      obtain ⟨d', hRest, hEnd⟩ := ih hFollows hAnswered
      exact ⟨d', ⟨d₁, hStep, hRest⟩, hEnd⟩

/-- A connection can be served to its end without trouble. -/
theorem exists_quiet_run (content : List Byte) (hStored : Stored parseUrl source mime)
    (hMethod : request.method = "GET") (hTarget : request.target = "/stream") :
    ∃ trace d, Run (delivery content (.request request) parseUrl source) trace
      (.exited .done, d) ∧ ¬ Troubled d := by
  obtain ⟨p, hHandled, -, hEnds⟩ :=
    handleRequest_stored content (.request request) hStored hMethod hTarget
  have hFinish : Ends (ServedBytes.answers content) .start (finish p) fun _ flow =>
      flow = .exit .done := hEnds.bind fun _ _ _ => rfl
  obtain ⟨tr, flow, w, hExec, hAnswered, rfl⟩ := hFinish.exists_exec
  have hOpened : Follows .start .opened := ⟨rfl, fun h => h.elim nofun nofun⟩
  obtain ⟨d, hDelivered, hFollows⟩ := hOpened.answered (.request request) hAnswered
  rw [← hHandled] at hExec
  have hPrelude : Exec (handleConnection parseUrl (some source)).prelude
      (⟨.readRequest, .request request⟩ :: tr) (.value (.exit .done)) := ⟨_, tr, rfl, hExec⟩
  have hReads : Answered (answers content (.request request)) .opened
      (⟨.readRequest, .request request⟩ :: tr) d := ⟨_, .inl ⟨rfl, rfl⟩, hDelivered⟩
  have hInit : Delivery.opened = Delivery.opened := rfl
  obtain ⟨trace, hRun⟩ := run_exit (· = Delivery.opened) hInit hPrelude hReads
  exact ⟨trace, d, hRun, hFollows.quiet⟩

end Sources

/-! ## The client -/

/-- Where the bytes of a `206` belong. -/
def readStart (value : List Char) : Option Nat := do
  let range ← Text.stripStart "bytes ".toList value
  let (start, _) ← Text.splitOnce '-' range
  readNumber start

/-- What a client stores of the bytes it has received, and where. -/
def stored (received : List Byte) : Option (Nat × List Byte) := do
  let (head, body) ← readResponse received
  if head.status = 200 then
    some (0, body)
  else if head.status = 206 then do
    let value ← head.headers.lookup "Content-Range"
    let start ← readStart value.toList
    some (start, body)
  else
    none

theorem trim_eq_self {text : List Char}
    (hFirst : ∀ c ∈ text.head?, Text.isWhitespace c = false)
    (hLast : ∀ c ∈ text.getLast?, Text.isWhitespace c = false) : Text.trim text = text := by
  unfold Text.trim
  cases text with
  | nil => rfl
  | cons c text =>
      have hHead : (c :: text).dropWhile Text.isWhitespace = c :: text :=
        List.dropWhile_cons_of_neg (by rw [hFirst c rfl]; exact Bool.false_ne_true)
      have hSome := List.getLast?_eq_some_getLast (List.cons_ne_nil c text)
      have hEnd := Text.dropEnd_append hSome (hLast _ hSome) []
      rw [List.append_nil] at hEnd
      rw [hHead, hEnd]
      exact List.append_nil _

theorem not_whitespace_of_digit {c : Char} (h : c.isDigit = true) :
    Text.isWhitespace c = false := by
  have hDigit : 48 ≤ c.toNat ∧ c.toNat ≤ 57 := by
    unfold Char.isDigit at h
    rw [Bool.and_eq_true, decide_eq_true_eq, decide_eq_true_eq] at h
    exact ⟨UInt32.le_iff_toNat_le.mp h.1, UInt32.le_iff_toNat_le.mp h.2⟩
  unfold Text.isWhitespace
  simp only [Bool.or_eq_false_iff, Bool.and_eq_false_iff, decide_eq_false_iff_not,
    beq_eq_false_iff_ne]
  omega

theorem not_whitespace_of_mem {c : Char} {n : Nat} (h : c ∈ Nat.toDigits 10 n) :
    Text.isWhitespace c = false :=
  not_whitespace_of_digit (Nat.isDigit_of_mem_toDigits (by decide) (by decide) h)

theorem contentRange_toList (start stop size : Nat) :
    (contentRange start stop size).toList = "bytes ".toList ++ (Nat.toDigits 10 start ++
      '-' :: (Nat.toDigits 10 stop ++ '/' :: Nat.toDigits 10 size)) := by
  unfold contentRange
  simp only [String.toList_append, Display.toList_toString]
  simp

theorem readStart_contentRange (start stop size : Nat) :
    readStart (contentRange start stop size).toList = some start := by
  have hDash : '-' ∉ Nat.toDigits 10 start := Display.not_mem_toDigits rfl start
  have hNumber := readNumber_toString start
  rw [Display.toList_toString] at hNumber
  unfold readStart
  rw [contentRange_toList, Text.stripStart_eq_some_iff.mpr rfl]
  simp only [Option.bind_eq_bind, Option.bind_some, Text.splitOnce_append hDash]
  exact hNumber

theorem trim_contentRange (start stop size : Nat) :
    Text.trim (contentRange start stop size).toList = (contentRange start stop size).toList := by
  rw [contentRange_toList]
  refine trim_eq_self ?_ ?_
  · rintro c hFirst
    cases hFirst
    decide
  · intro c hLast
    have hSome : Nat.toDigits 10 size ≠ [] := Nat.toDigits_ne_nil
    have hEnd : ("bytes ".toList ++ (Nat.toDigits 10 start ++
        '-' :: (Nat.toDigits 10 stop ++ '/' :: Nat.toDigits 10 size))) =
        ("bytes ".toList ++ (Nat.toDigits 10 start ++
          '-' :: (Nat.toDigits 10 stop ++ ['/']))) ++ Nat.toDigits 10 size := by simp
    rw [hEnd, List.getLast?_append_of_ne_nil _ hSome] at hLast
    exact not_whitespace_of_mem (List.mem_of_mem_getLast? hLast)

/-- The head of a slice, as a client reads it, says where it begins. -/
theorem asRead_slice (mime : String) (size start stop : Nat) :
    (asRead (headOf mime size (.slice start stop))).headers.lookup "Content-Range" =
      some (contentRange start stop size) := by
  have hTrimmed : String.ofList (Text.trim (contentRange start stop size).toList) =
      contentRange start stop size := by rw [trim_contentRange, String.ofList_toList]
  simp [asRead, headOf, List.lookup_cons, hTrimmed]

/-- Where a part of the body of a decision belongs. -/
def placed : RangeDecision → List Byte → Option (Nat × List Byte)
  | .full, part => some (0, part)
  | .slice start _, part => some (start, part)
  | .unsatisfiable, _ => none

section Client

variable {parseUrl : UrlParser} {content : List Byte} {range : Option String} {mime : String}
variable {source : ActiveSource} {request : HttpRequest} {l : Link}

/-- What is stored of a part of a response that serves. -/
theorem stored_of_read {decision : RangeDecision} {received part : List Byte}
    (h : readResponse received = some (asRead (headOf mime content.length decision), part)) :
    stored received = placed decision part := by
  unfold stored
  rw [h]
  simp only [Option.bind_eq_bind, Option.bind_some]
  cases decision with
  | full => rfl
  | slice start stop =>
      rw [asRead_slice]
      simp only [Option.bind_some, readStart_contentRange]
      rfl
  | unsatisfiable => rfl

/-- Whatever part of a response a client gets, what it stores is where it
belongs. -/
theorem stored_agrees (h : Kept (headFor content mime range) (bodyFor content range) l)
    {received part : List Byte} {offset : Nat} (hReceived : received <+: l.sent)
    (hStored : stored received = some (offset, part)) : part <+: content.drop offset := by
  rcases h with hUnsent | ⟨refusal, hBegun, hStatus⟩ | ⟨rest, hBegun, hBody⟩
  · rw [hUnsent.sent, List.prefix_nil] at hReceived
    rw [hReceived] at hStored
    cases hStored
  · have hRead := readResponse_prefix hBegun.wellFormed (hReceived.trans hBegun.part)
    unfold stored at hStored
    rcases hRead with hNone | ⟨part, hSome, -⟩
    · rw [hNone] at hStored
      cases hStored
    · rw [hSome] at hStored
      simp only [Option.bind_eq_bind, Option.bind_some, asRead, if_neg hStatus.1,
        if_neg hStatus.2] at hStored
      cases hStored
  · have hRead := readResponse_prefix hBegun.wellFormed (hReceived.trans hBegun.part)
    rcases hRead with hNone | ⟨body, hSome, hPart⟩
    · unfold stored at hStored
      rw [hNone] at hStored
      cases hStored
    · have hDue : body <+: bodyFor content range := hPart.trans ⟨rest, hBody⟩
      rw [stored_of_read hSome] at hStored
      unfold bodyFor at hDue
      cases hDecision : parseRange range content.length with
      | full =>
          rw [hDecision] at hStored hDue
          cases hStored
          exact hDue
      | slice start stop =>
          rw [hDecision] at hStored hDue
          cases hStored
          exact hDue.trans (List.take_prefix _ _)
      | unsatisfiable =>
          rw [hDecision] at hStored
          cases hStored

end Client

/-! ## Any number of connections -/

/-- What a client holds of a content. -/
abbrev Held : Type := Nat → Option Byte

def store (held : Held) : Option (Nat × List Byte) → Held
  | none => held
  | some (offset, part) => fun i =>
      if offset ≤ i ∧ i < offset + part.length then part[i - offset]? else held i

/-- A client's request for `/stream`, in any reads and with anything behind it. -/
structure Requests (text : Request) (r : Reader) : Prop where
  bytes : ∃ more, r.bytes = text.bytes ++ more
  method : text.method = "GET"
  target : text.target = "/stream"

/-- A connection of a client, as far as it has come. -/
def Connection (content : List Byte) (parseUrl : UrlParser) (source : ActiveSource)
    (ending : Ending) (r : Reader) (c : Control servingSig State × Delivery) : Prop :=
  Reachable (delivery content (headRead (readRequest ending r).1) parseUrl source) c

/-- A client that makes one connection after another, and stores what it
receives of each. -/
def download (content : List Byte) (parseUrl : UrlParser) (source : ActiveSource) :
    System Held (List Byte) where
  init held := held = fun _ => none
  step held received held' :=
    held' = store held (stored received) ∧
      ∃ text r ending c, Requests text r ∧ Connection content parseUrl source ending r c ∧
        received <+: c.2.link.sent

/-- What a client holds is the content, as far as it holds any. -/
def Agrees (content : List Byte) (held : Held) : Prop :=
  ∀ i b, held i = some b → content[i]? = some b

section Connections

variable {parseUrl : UrlParser} {content : List Byte} {mime : String} {source : ActiveSource}
variable {text : Request} {r : Reader} {ending : Ending} {c : Control servingSig State × Delivery}
variable {held : Held}

theorem Agrees.store (h : Agrees content held) {offset : Nat} {part : List Byte}
    (hPart : part <+: content.drop offset) :
    Agrees content (store held (some (offset, part))) := by
  intro i b hHeld
  unfold Download.store at hHeld
  dsimp only at hHeld
  by_cases hInside : offset ≤ i ∧ i < offset + part.length
  · rw [if_pos hInside] at hHeld
    obtain ⟨rest, hRest⟩ := hPart
    have hIndex : i = offset + (i - offset) := by omega
    rw [hIndex, ← List.getElem?_drop, ← hRest, List.getElem?_append_left (by omega)]
    exact hHeld
  · rw [if_neg hInside] at hHeld
    exact h i b hHeld

/-- A request is read, whatever reads it comes in. -/
theorem Requests.read (h : Requests text r) (ending : Ending) :
    ∃ request : HttpRequest, headRead (readRequest ending r).1 = .request request ∧
      request.method = "GET" ∧ request.target = "/stream" ∧
      request.headers.lookup "range" = RequestText.lastWritten text.headers "range" := by
  obtain ⟨more, hBytes⟩ := h.bytes
  obtain ⟨request, hRead, hMethod, hTarget, hHeaders⟩ :=
    RequestText.readRequest_text ending text more r hBytes
  refine ⟨request, ?_, hMethod.trans h.method, hTarget.trans h.target, hHeaders "range"⟩
  rw [hRead]
  rfl

/-- What is due to a request. -/
def rangeOf (text : Request) : Option String := RequestText.lastWritten text.headers "range"

theorem Connection.delivers (hStored : Stored parseUrl source mime) (hRequests : Requests text r)
    (hConnection : Connection content parseUrl source ending r c) :
    AtAnytime (answers content (headRead (readRequest ending r).1))
      (fun d => Kept (headFor content mime (rangeOf text)) (bodyFor content (rangeOf text)) d.link)
      (fun _ _ => False)
      (Closed (headFor content mime (rangeOf text)) (bodyFor content (rangeOf text))) c.2 c.1 := by
  obtain ⟨request, hRead, hMethod, hTarget, hRange⟩ := hRequests.read ending
  obtain ⟨trace, hRun⟩ := hConnection
  rw [hRead] at hRun ⊢
  have hDelivers := run_delivers hStored hMethod hTarget hRun
  rw [hRange] at hDelivers
  exact hDelivers

/-- The run lemma: whatever a client has stored is the content. -/
theorem held_agrees (hStored : Stored parseUrl source mime)
    {trace : List (Move Held (List Byte))}
    (hRun : Run (download content parseUrl source) trace held) : Agrees content held := by
  refine hRun.invariant (I := Agrees content) ?_ ?_
  · rintro held rfl i b hHeld
    cases hHeld
  · rintro held received held' hAgrees ⟨rfl, text, r, ending, c, hRequests, hConnection, hReceived⟩
    have hKept := (hConnection.delivers hStored hRequests).holds
    cases hPlace : stored received with
    | none => exact hAgrees
    | some placed => exact hAgrees.store (stored_agrees hKept hReceived hPlace)

/-! ### Resuming -/

/-- All bytes from `k` on. -/
def rangeFrom (k : Nat) : String := "bytes=" ++ toString k ++ "-"

theorem trim_of_forall {text : List Char} (h : ∀ c ∈ text, Text.isWhitespace c = false) :
    Text.trim text = text :=
  trim_eq_self (fun c hFirst => h c (List.mem_of_mem_head? hFirst)) fun c hLast =>
    h c (List.mem_of_mem_getLast? hLast)

theorem readU64_toDigits {k : Nat} (hK : k < 2 ^ 64) :
    RangeGrammar.ReadU64 (Text.trim (Nat.toDigits 10 k)) k := by
  have hDigits : RangeGrammar.Digits (Nat.toDigits 10 k) k :=
    ⟨Nat.toDigits_ne_nil, fun c hMem => Nat.isDigit_of_mem_toDigits (by decide) (by decide) hMem,
      Nat.ofDigitChars_toDigits (by decide) (by decide)⟩
  rw [trim_of_forall fun c hMem => not_whitespace_of_mem hMem]
  exact RangeGrammar.readU64_iff.mpr ⟨.inl hDigits, hK⟩

theorem parseRange_rangeFrom {k : Nat} (hK : k < 2 ^ 64) (size : Nat) :
    parseRange (some (rangeFrom k)) size = (RangeGrammar.Spec.openEnded k).decision size := by
  have hText : (rangeFrom k).toList = "bytes=".toList ++ (Nat.toDigits 10 k ++ ['-']) := by
    unfold rangeFrom
    simp only [String.toList_append, Display.toList_toString, List.append_assoc]
    rfl
  have hChars : ∀ c ∈ Nat.toDigits 10 k ++ ['-'], Text.isWhitespace c = false := by
    intro c hMem
    rcases List.mem_append.mp hMem with hDigit | hDash
    · exact not_whitespace_of_mem hDigit
    · rw [List.mem_singleton.mp hDash]
      decide
  have hBytes : RangeGrammar.ByteRanges (rangeFrom k) (Nat.toDigits 10 k ++ ['-']) := by
    unfold RangeGrammar.ByteRanges
    rw [hText]
    refine trim_of_forall fun c hMem => ?_
    rcases List.mem_append.mp hMem with hUnit | hRange
    · have hLiteral : "bytes=".toList.all (!Text.isWhitespace ·) = true := by decide +kernel
      simpa using List.all_eq_true.mp hLiteral c hUnit
    · exact hChars c hRange
  have hOne : ',' ∉ Nat.toDigits 10 k ++ ['-'] := by
    rw [List.mem_append]
    rintro (hDigit | hDash)
    · exact Display.not_mem_toDigits rfl k hDigit
    · simp at hDash
  rw [RangeGrammar.parseRange_single hBytes hOne, trim_of_forall hChars]
  refine RangeGrammar.parseSingleRange_of_read ⟨Nat.toDigits 10 k, [], rfl, ?_, ?_⟩ size
  · exact Display.not_mem_toDigits rfl k
  · exact .openEnded (readU64_toDigits hK)

/-- What is stored of a connection that was not troubled. -/
theorem Connection.stores (hStored : Stored parseUrl source mime) (hRequests : Requests text r)
    {s : State} {d : Delivery}
    (hConnection : Connection content parseUrl source ending r (.exited s, d))
    (hQuiet : ¬ Troubled d) :
    stored d.link.sent = placed (parseRange (rangeOf text) content.length)
      (bodyFor content (rangeOf text)) := by
  obtain ⟨-, -, hServing⟩ := hConnection.delivers hStored hRequests
  obtain ⟨hBegun, hBody⟩ := hServing.resolve_left hQuiet
  have hOpen : d.link.broken = false := by
    cases hBroken : d.link.broken with
    | false => rfl
    | true => exact absurd (.inr hBroken) hQuiet
  rw [List.append_nil] at hBody
  rw [hBegun.whole hOpen, hBody]
  exact stored_of_read (readResponse_text hBegun.wellFormed _)

/-- A client that holds all before `k` can be served the rest, and whenever it
asks for it and no trouble comes it holds all of the content then. -/
def Completes (content : List Byte) (parseUrl : UrlParser) (source : ActiveSource) (held : Held)
    (k : Nat) : Prop :=
  (∀ i < k, i < content.length → (held i).isSome = true) →
    ∀ text r ending, Requests text r → rangeOf text = some (rangeFrom k) →
      (∃ s d, Connection content parseUrl source ending r (.exited s, d) ∧ ¬ Troubled d) ∧
        ∀ s d, Connection content parseUrl source ending r (.exited s, d) → ¬ Troubled d →
          ∀ i < content.length, store held (stored d.link.sent) i = content[i]?

theorem completes (hStored : Stored parseUrl source mime) (hAgrees : Agrees content held) {k : Nat}
    (hK : k < 2 ^ 64) : Completes content parseUrl source held k := by
  intro hHeld text r ending hRequests hRange
  constructor
  · obtain ⟨request, hRead, hMethod, hTarget, -⟩ := hRequests.read ending
    obtain ⟨steps, d, hServed, hQuiet⟩ := exists_quiet_run content hStored hMethod hTarget
    rw [← hRead] at hServed
    exact ⟨.done, d, ⟨steps, hServed⟩, hQuiet⟩
  · intro s d hConnection hQuiet i hInside
    have hBefore : i < k → held i = content[i]? := by
      intro hBefore
      obtain ⟨b, hSome⟩ := Option.isSome_iff_exists.mp (hHeld i hBefore hInside)
      rw [hSome, hAgrees i b hSome]
    rw [hConnection.stores hStored hRequests hQuiet, hRange, parseRange_rangeFrom hK]
    unfold bodyFor
    rw [parseRange_rangeFrom hK]
    by_cases hMore : k < content.length
    · have hSlice : (RangeGrammar.Spec.openEnded k).decision content.length =
          .slice k (content.length - 1) := RangeGrammar.Spec.decision_pos hMore
      have hRest : bytesOf content (.slice k (content.length - 1)) = content.drop k := by
        refine List.take_of_length_le ?_
        rw [List.length_drop]
        omega
      rw [hSlice, hRest]
      show (if k ≤ i ∧ i < k + (content.drop k).length then (content.drop k)[i - k]?
        else held i) = _
      rw [List.length_drop]
      by_cases hBehind : k ≤ i
      · rw [if_pos ⟨hBehind, by omega⟩, List.getElem?_drop]
        congr 1
        omega
      · rw [if_neg fun h => hBehind h.1]
        exact hBefore (by omega)
    · have hNone : (RangeGrammar.Spec.openEnded k).decision content.length = .unsatisfiable :=
        RangeGrammar.Spec.decision_neg hMore
      rw [hNone]
      exact hBefore (by omega)

/-- **A download is right and can be completed.**  Over any connections, each
for any range, served from a file or a share that may fail, written to a link
that may break, dropped at any moment and received in part, a client stores
bytes of the content where they belong and no others; and from wherever it is
resumed, one connection without trouble completes it. -/
theorem download_correct (hStored : Stored parseUrl source mime)
    {trace : List (Move Held (List Byte))}
    (hRun : Run (download content parseUrl source) trace held) :
    Agrees content held ∧ ∀ k < 2 ^ 64, Completes content parseUrl source held k :=
  have hAgrees := held_agrees hStored hRun
  ⟨hAgrees, fun _ hK => completes hStored hAgrees hK⟩

end Connections

def fromStart : Request where
  method := "GET"
  target := "/stream"
  minor := "1"
  headers := [("Range", "bytes=0-")]
  hMethod := RequestText.seek.hMethod
  hTarget := RequestText.seek.hTarget
  hMinor := RequestText.seek.hMinor
  hHeaders := by decide
  hLine := RequestText.seek.hLine
  hLines := by decide +kernel
  hCount := by decide

/-- Three bytes, downloaded at once. -/
theorem film_downloaded : ∃ trace held,
    Run (download [1, 2, 3] (fun _ => .error "") (.file "film.mp4")) trace held ∧
      ∀ i < 3, held i = [1, 2, 3][i]? := by
  have hStart : Run (download [1, 2, 3] (fun _ => .error "") (.file "film.mp4")) []
      (fun _ => none) := .start rfl
  have hRequests : Requests fromStart ⟨[], [fromStart.bytes]⟩ :=
    ⟨⟨[], by simp [Reader.bytes]⟩, rfl, rfl⟩
  have hRange : rangeOf fromStart = some (rangeFrom 0) := by decide +kernel
  obtain ⟨-, hCompletes⟩ := download_correct (.file "film.mp4") hStart
  obtain ⟨⟨s, d, hConnection, hQuiet⟩, hWhole⟩ := hCompletes 0 (by decide)
    (fun i hBefore => absurd hBefore (Nat.not_lt_zero i)) _ _ .eof hRequests hRange
  exact ⟨_, _, hStart.step ⟨rfl, _, _, _, _, hRequests, hConnection, List.prefix_refl _⟩,
    hWhole s d hConnection hQuiet⟩

end CastApp.Media.Download
