import CastApp.Media.RangeGrammar
import CastApp.Media.SmbSource
import CastApp.Verified.Ends

/-!
# The bytes that are served

A resource with a fixed content, on disk or on a share, whose reads may be as
short as they like: at least one byte before the end, and none behind it.  The
file is read from a position that moves, the share at an offset that the reader
keeps.

* `localReader_ends`, `shareReader_ends` — a reader writes exactly the bytes it
  is to write, in whatever pieces they are read.
* `localFile_ends`, `smbSource_ends` — a response is the head that is due and
  the bytes it describes.
* **`serving_agrees`** — a file and a share with the same content are served
  alike, up to the content type.
-/

namespace CastApp.Media.ServedBytes

open CastApp.Media.Range
open CastApp.Media.RangeGrammar
open CastApp.Media.Serving
open CastApp.Media.SmbSource (UrlParser)
open CastApp.State
open CastApp.Verified.Coroutine
open CastApp.Verified.Ends

/-! ## The resource and the connection -/

/-- Where the file is read, what has been asked of the resource, and what has
been written to the connection. -/
structure Wire where
  position : Nat
  /-- The offset and the length of every read so far. -/
  reads : List (Nat × Nat)
  heads : List ResponseHead
  body : List Byte

namespace Wire

def start : Wire := ⟨0, [], [], []⟩

end Wire

variable (content : List Byte)

/-- What a read of `want` bytes at `offset` may return. -/
structure Chunk (offset want : Nat) (chunk : List Byte) : Prop where
  bytes : chunk <+: content.drop offset
  short : chunk.length ≤ want
  some : 0 < want → offset < content.length → chunk ≠ []

/-- An existing, unchanging resource and a client that takes everything. -/
def answers : Answers servingSig Wire
  | w, .openFile _, r, w' => r = .ok () ∧ w' = { w with position := 0 }
  | w, .fileSize, r, w' => r = .ok content.length ∧ w' = w
  | w, .seek start, r, w' => r = .ok () ∧ w' = { w with position := start }
  | w, .read want, r, w' =>
      ∃ chunk, r = .ok chunk ∧ Chunk content w.position want chunk ∧
        w' = { w with
          position := w.position + chunk.length
          reads := w.reads ++ [(w.position, want)] }
  | w, .openShare _, r, w' => r = .ok content.length ∧ w' = w
  | w, .readAt offset len, r, w' =>
      ∃ chunk, r = .ok chunk ∧ Chunk content offset len chunk ∧
        w' = { w with reads := w.reads ++ [(offset, len)] }
  -- A handle may be closed or not.
  | w, .closeShare, _, w' => w' = w
  | w, .writeHead head, r, w' => r = .ok () ∧ w' = { w with heads := w.heads ++ [head] }
  | w, .write bytes, r, w' => r = .ok () ∧ w' = { w with body := w.body ++ bytes }
  | w, .flush, r, w' => r = .ok () ∧ w' = w
  | _, .readRequest, _, _ | _, .send _ _, _, _ | _, .now, _, _ | _, .takeLive, _, _
  | _, .putBack _, _, _ => False

/-- Every read asked for bytes of the content. -/
def Inside (w : Wire) : Prop := ∀ read ∈ w.reads, read.1 + read.2 ≤ content.length

/-- From `w` to `w'`, the bytes have been written to the body, and no read has
left the content. -/
structure Delivers (w w' : Wire) (bytes : List Byte) : Prop where
  heads : w'.heads = w.heads
  body : w'.body = w.body ++ bytes
  inside : Inside content w → Inside content w'

variable {content}

theorem Delivers.refl (w : Wire) : Delivers content w w [] where
  heads := rfl
  body := (List.append_nil _).symm
  inside h := h

theorem Delivers.trans {w w' w'' : Wire} {xs ys : List Byte} (h : Delivers content w w' xs)
    (h' : Delivers content w' w'' ys) : Delivers content w w'' (xs ++ ys) where
  heads := h'.heads.trans h.heads
  body := by rw [h'.body, h.body, List.append_assoc]
  inside hInside := h'.inside (h.inside hInside)

/-! ## Chunks -/

/-- There is always something to return. -/
theorem exists_chunk (offset want : Nat) : ∃ chunk, Chunk content offset want chunk := by
  refine ⟨(content.drop offset).take want, List.take_prefix _ _, ?_, ?_⟩
  · rw [List.length_take]
    omega
  · intro hWant hOffset hNil
    have hLength := congrArg List.length hNil
    rw [List.length_take, List.length_drop, List.length_nil] at hLength
    omega

/-- A chunk and the bytes behind it. -/
theorem Chunk.append_take {offset want remaining : Nat} {chunk : List Byte}
    (h : Chunk content offset want chunk) (hWant : want ≤ remaining) :
    chunk ++ (content.drop (offset + chunk.length)).take (remaining - chunk.length) =
      (content.drop offset).take remaining := by
  obtain ⟨rest, hRest⟩ := h.bytes
  have hShort := h.short
  have hBehind : content.drop (offset + chunk.length) = rest := by
    rw [← List.drop_drop, ← hRest, List.drop_left]
  have hWhole : chunk.take remaining = chunk := List.take_of_length_le (by omega)
  rw [hBehind, ← hRest, List.take_append, hWhole]

/-! ## Readers -/

/-- Sequencing with the `?` operator, where no error can be. -/
theorem ends_attempt {α β : Type} {w : Wire} {p : Serve (Except IoError α)}
    {f : α → Serve (Except IoError β)} {mid : Wire → α → Prop}
    {post : Wire → Except IoError β → Prop}
    (hp : Ends (answers content) w p fun w' r => ∃ a, r = .ok a ∧ mid w' a)
    (hf : ∀ w' a, mid w' a → Ends (answers content) w' (f a) post) :
    Ends (answers content) w (attempt p f) post := by
  refine hp.bind ?_
  rintro w' r ⟨a, rfl, hMid⟩
  exact hf w' a hMid

/-- What a reader leaves: its bytes, written. -/
def Reads (content : List Byte) (w : Wire) (bytes : List Byte) (w' : Wire)
    (r : Except IoError Unit) : Prop := r = .ok () ∧ Delivers content w w' bytes

/-- One turn of a reader: `w₁` is `w` behind a read that returned `chunk`, which
is written, and the rest writes the bytes behind it. -/
theorem turn_ends {w w₁ : Wire} {offset want remaining : Nat} {chunk : List Byte}
    {rest : Serve (Except IoError Unit)} (hChunk : Chunk content offset want chunk)
    (hWant : want ≤ remaining) (hFits : offset + remaining ≤ content.length)
    (hReads : w₁.reads = w.reads ++ [(offset, want)]) (hHeads : w₁.heads = w.heads)
    (hBody : w₁.body = w.body)
    (hRest : Ends (answers content) { w₁ with body := w₁.body ++ chunk } rest
      (Reads content { w₁ with body := w₁.body ++ chunk }
        ((content.drop (offset + chunk.length)).take (remaining - chunk.length)))) :
    Ends (answers content) w₁ (attempt (ask (.write chunk)) fun () => rest)
      (Reads content w ((content.drop offset).take remaining)) := by
  have hHere : Delivers content w { w₁ with body := w₁.body ++ chunk } chunk := by
    refine ⟨hHeads, congrArg (· ++ chunk) hBody, ?_⟩
    intro hInside read hMem
    have hMem : read ∈ w.reads ++ [(offset, want)] := hReads ▸ hMem
    rcases List.mem_append.mp hMem with hMem | hMem
    · exact hInside read hMem
    · obtain rfl := List.mem_singleton.mp hMem
      show offset + want ≤ content.length
      omega
  refine Ends.perform ⟨.ok (), _, rfl, rfl⟩ ?_
  rintro r w₂ ⟨rfl, rfl⟩
  refine hRest.mono ?_
  rintro w₂ r ⟨rfl, hDelivers⟩
  refine ⟨rfl, ?_⟩
  rw [← hChunk.append_take hWant]
  exact hHere.trans hDelivers

/-- The reader of a file writes the bytes from its position on. -/
theorem localReader_ends (remaining : Nat) {w : Wire}
    (hFits : w.position + remaining ≤ content.length) :
    Ends (answers content) w (LocalFile.streamReader remaining)
      (Reads content w ((content.drop w.position).take remaining)) := by
  induction remaining using Nat.strongRecOn generalizing w with
  | ind remaining ih =>
      unfold LocalFile.streamReader
      by_cases hDone : remaining = 0
      · subst hDone
        exact ⟨rfl, Delivers.refl w⟩
      · rw [if_neg hDone]
        have hWant : 0 < min remaining LocalFile.chunkSize := by
          unfold LocalFile.chunkSize
          omega
        obtain ⟨chunk, hChunk⟩ := exists_chunk w.position
          (min remaining LocalFile.chunkSize)
        refine Ends.perform ⟨.ok chunk, _, chunk, rfl, hChunk, rfl⟩ ?_
        rintro r w' ⟨chunk, rfl, hChunk, rfl⟩
        have hShort := hChunk.short
        cases chunk with
        | nil => exact absurd rfl (hChunk.some hWant (by omega))
        | cons byte bytes =>
            rw [List.length_cons] at hShort
            refine turn_ends hChunk (Nat.min_le_left ..) hFits rfl rfl rfl ?_
            rw [if_neg (by omega)]
            apply ih (remaining - (bytes.length + 1)) (by omega)
            show w.position + (bytes.length + 1) + (remaining - (bytes.length + 1)) ≤ _
            omega

/-- The reader of a share writes the bytes from its offset on. -/
theorem shareReader_ends (remaining : Nat) {w : Wire} {offset : Nat}
    (hFits : offset + remaining ≤ content.length) :
    Ends (answers content) w (SmbSource.streamReader offset remaining)
      (Reads content w ((content.drop offset).take remaining)) := by
  induction remaining using Nat.strongRecOn generalizing w offset with
  | ind remaining ih =>
      unfold SmbSource.streamReader
      by_cases hDone : remaining = 0
      · subst hDone
        exact ⟨rfl, Delivers.refl w⟩
      · rw [if_neg hDone]
        have hWant : 0 < min remaining SmbSource.readChunk := by
          unfold SmbSource.readChunk
          omega
        obtain ⟨chunk, hChunk⟩ := exists_chunk offset
          (min remaining SmbSource.readChunk)
        refine Ends.perform ⟨.ok chunk, _, chunk, rfl, hChunk, rfl⟩ ?_
        rintro r w' ⟨chunk, rfl, hChunk, rfl⟩
        have hShort := hChunk.short
        cases chunk with
        | nil => exact absurd rfl (hChunk.some hWant (by omega))
        | cons byte bytes =>
            rw [List.length_cons] at hShort
            refine turn_ends hChunk (Nat.min_le_left ..) hFits rfl rfl rfl ?_
            rw [if_neg (by omega)]
            apply ih (remaining - (bytes.length + 1)) (by omega)
            show offset + (bytes.length + 1) + (remaining - (bytes.length + 1)) ≤ _
            omega

/-! ## Responses -/

/-- The bytes a decision is about. -/
def bytesOf (content : List Byte) : RangeDecision → List Byte
  | .full => content
  | .slice start stop => (content.drop start).take (stop - start + 1)
  | .unsatisfiable => []

/-- The slice of a decision is inside the content. -/
def Bounded (content : List Byte) (decision : RangeDecision) : Prop :=
  ∀ start stop, decision = .slice start stop → start ≤ stop ∧ stop < content.length

theorem localBody_ends {w : Wire} {decision : RangeDecision} (hStart : w.position = 0)
    (hBounded : Bounded content decision) :
    Ends (answers content) w (LocalFile.body decision content.length)
      (Reads content w (bytesOf content decision)) := by
  cases decision with
  | full =>
      have hReader : Ends (answers content) w (LocalFile.streamReader content.length)
          (Reads content w ((content.drop w.position).take content.length)) :=
        localReader_ends content.length (by omega)
      rw [hStart, List.drop_zero, List.take_length] at hReader
      exact hReader
  | slice start stop =>
      obtain ⟨hOrder, hInside⟩ := hBounded start stop rfl
      refine Ends.perform ⟨.ok (), _, rfl, rfl⟩ ?_
      rintro r w' ⟨rfl, rfl⟩
      refine (localReader_ends (stop - start + 1) (w := { w with position := start })
        (show start + (stop - start + 1) ≤ _ by omega)).mono ?_
      rintro w' r ⟨rfl, hDelivers⟩
      exact ⟨rfl, hDelivers.heads, hDelivers.body, hDelivers.inside⟩
  | unsatisfiable => exact ⟨rfl, Delivers.refl w⟩

theorem shareBody_ends {w : Wire} {decision : RangeDecision} (hBounded : Bounded content decision) :
    Ends (answers content) w (SmbSource.body decision content.length)
      (Reads content w (bytesOf content decision)) := by
  cases decision with
  | full =>
      have hReader : Ends (answers content) w (SmbSource.streamReader 0 content.length)
          (Reads content w ((content.drop 0).take content.length)) :=
        shareReader_ends content.length (by omega)
      rw [List.drop_zero, List.take_length] at hReader
      exact hReader
  | slice start stop =>
      obtain ⟨hOrder, hInside⟩ := hBounded start stop rfl
      exact shareReader_ends (stop - start + 1) (by omega)
  | unsatisfiable => exact ⟨rfl, Delivers.refl w⟩

/-- The response that is due has been written. -/
structure Due (content : List Byte) (mime : String) (range : Option String) (headOnly : Bool)
    (w : Wire) : Prop where
  heads : w.heads = [LocalFile.headOf mime content.length (parseRange range content.length)]
  body : w.body =
    if headOnly then [] else bytesOf content (parseRange range content.length)
  inside : Inside content w

variable {range : Option String} {headOnly : Bool} {mime : String}

/-- The body behind a head, unless only the head was asked for. -/
theorem respond_ends {p : Serve (Except IoError Unit)} {w : Wire}
    (hp : Ends (answers content) w p (Reads content w (bytesOf content (parseRange range content.length))))
    (hHeads : w.heads = [LocalFile.headOf mime content.length (parseRange range content.length)])
    (hBody : w.body = []) (hInside : Inside content w) :
    Ends (answers content) w (if headOnly then return .ok () else p)
      fun w' r => ∃ a : Unit, r = .ok a ∧ Due content mime range headOnly w' := by
  cases headOnly with
  | true => exact ⟨(), rfl, hHeads, hBody, hInside⟩
  | false =>
      refine hp.mono ?_
      rintro w' r ⟨rfl, hDelivers⟩
      refine ⟨(), rfl, hDelivers.heads.trans hHeads, ?_, hDelivers.inside hInside⟩
      rw [hDelivers.body, hBody]
      rfl

theorem parseRange_bounded : Bounded content (parseRange range content.length) :=
  fun _ _ => parseRange_bounds

/-- A response has been written, without an error. -/
def Responds (content : List Byte) (mime : String) (range : Option String) (headOnly : Bool)
    (w : Wire) (r : Except IoError Unit) : Prop := r = .ok () ∧ Due content mime range headOnly w

theorem flush_ends {w : Wire} (hDue : Due content mime range headOnly w) :
    Ends (answers content) w (ask .flush) (Responds content mime range headOnly) := by
  refine Ends.perform (f := pure) ⟨.ok (), w, rfl, rfl⟩ ?_
  rintro r w' ⟨rfl, rfl⟩
  exact ⟨rfl, hDue⟩

/-- **A file is served.** -/
theorem localFile_ends (path : String) (range : Option String) (headOnly : Bool) :
    Ends (answers content) .start (LocalFile.serve path range headOnly)
      (Responds content (Mime.mimeForPath path) range headOnly) := by
  refine Ends.perform ⟨.ok (), _, rfl, rfl⟩ ?_
  rintro r w ⟨rfl, rfl⟩
  refine Ends.perform ⟨.ok content.length, _, rfl, rfl⟩ ?_
  rintro r w ⟨rfl, rfl⟩
  refine Ends.perform ⟨.ok (), _, rfl, rfl⟩ ?_
  rintro r w ⟨rfl, rfl⟩
  refine ends_attempt (respond_ends (localBody_ends rfl parseRange_bounded) rfl rfl nofun) ?_
  rintro w' - hDue
  exact flush_ends hDue

/-- **A file on a share is served.** -/
theorem smbSource_ends {parseUrl : UrlParser} {url : String} {share : SmbUrl}
    (hUrl : SmbSource.SmbUrl.parse parseUrl url = .ok share) (range : Option String)
    (headOnly : Bool) :
    Ends (answers content) .start (SmbSource.serve parseUrl url range headOnly)
      (Responds content (Mime.mimeForExtension (SmbSource.fileExtension share.filePath)) range
        headOnly) := by
  unfold SmbSource.serve
  rw [hUrl]
  refine Ends.perform ⟨.ok content.length, _, rfl, rfl⟩ ?_
  rintro r w ⟨rfl, rfl⟩
  refine Ends.perform ⟨.ok (), _, rfl, rfl⟩ ?_
  rintro r w ⟨rfl, rfl⟩
  refine ends_attempt (respond_ends (shareBody_ends parseRange_bounded) rfl rfl nofun) ?_
  rintro w' - hDue
  refine Ends.perform ⟨.ok (), _, rfl⟩ ?_
  rintro r w'' rfl
  exact flush_ends hDue

/-! ## What a client sees -/

/-- What a head says of the body behind it. -/
inductive Describes (content : List Byte) : ResponseHead → List Byte → Prop
  | whole {head : ResponseHead} (hStatus : head.status = 200)
      (hLength : head.headers.lookup "Content-Length" = some (toString content.length)) :
      Describes content head content
  | part {head : ResponseHead} {start stop : Nat} (hStatus : head.status = 206)
      (hOrder : start ≤ stop) (hInside : stop < content.length)
      (hRange : head.headers.lookup "Content-Range" =
        some (contentRange start stop content.length))
      (hLength : head.headers.lookup "Content-Length" =
        some (toString ((content.drop start).take (stop - start + 1)).length)) :
      Describes content head ((content.drop start).take (stop - start + 1))
  | refused {head : ResponseHead} (hStatus : head.status = 416) : Describes content head []

/-- A head without its content type. -/
def withoutType (head : ResponseHead) : ResponseHead :=
  { head with headers := head.headers.filter (·.1 ≠ "Content-Type") }

/-- One head, the bytes it describes unless only the head was asked for, and no
read outside the content. -/
def Sound (content : List Byte) (headOnly : Bool) (w : Wire) : Prop :=
  ∃ head bytes, w.heads = [head] ∧ Describes content head bytes ∧
    w.body = (if headOnly then [] else bytes) ∧ Inside content w

/-- What a handler may have written when it has ended. -/
def Served (content : List Byte) (p : Serve (Except IoError Unit)) (w : Wire) : Prop :=
  ∃ tr o, Exec p tr o ∧ Answered (answers content) .start tr w

/-- The handler can end, and whenever it does it has met no fault and no error
and has written a sound response. -/
def ServesSoundly (content : List Byte) (headOnly : Bool) (p : Serve (Except IoError Unit)) :
    Prop :=
  (∃ w, Served content p w) ∧
    ∀ tr o w, Exec p tr o → Answered (answers content) .start tr w →
      o = .value (.ok ()) ∧ Sound content headOnly w

theorem describes_headOf (mime : String) {decision : RangeDecision}
    (hBounded : Bounded content decision) :
    Describes content (LocalFile.headOf mime content.length decision)
      (bytesOf content decision) := by
  cases decision with
  | full => exact .whole rfl rfl
  | slice start stop =>
      obtain ⟨hOrder, hInside⟩ := hBounded start stop rfl
      refine .part rfl hOrder hInside rfl ?_
      have hLength : ((content.drop start).take (stop - start + 1)).length = stop - start + 1 := by
        rw [List.length_take, List.length_drop]
        omega
      rw [hLength]
      rfl
  | unsatisfiable => exact .refused rfl

theorem withoutType_headOf (mime mime' : String) (size : Nat) (decision : RangeDecision) :
    withoutType (LocalFile.headOf mime size decision) =
      withoutType (LocalFile.headOf mime' size decision) := by
  cases decision <;> rfl

theorem Due.sound {w : Wire} (h : Due content mime range headOnly w) :
    Sound content headOnly w :=
  ⟨_, _, h.heads, describes_headOf mime parseRange_bounded, h.body, h.inside⟩

theorem servesSoundly_of_ends {p : Serve (Except IoError Unit)}
    (hp : Ends (answers content) .start p (Responds content mime range headOnly)) :
    ServesSoundly content headOnly p := by
  constructor
  · obtain ⟨tr, a, w, hExec, hAnswered, -⟩ := hp.exists_exec
    exact ⟨w, tr, .value a, hExec, hAnswered⟩
  · intro tr o w hExec hAnswered
    obtain ⟨a, rfl, rfl, hDue⟩ := hp.exec hExec hAnswered
    exact ⟨rfl, hDue.sound⟩

theorem due_of_served {p : Serve (Except IoError Unit)} {w : Wire}
    (hp : Ends (answers content) .start p (Responds content mime range headOnly))
    (hServed : Served content p w) : Due content mime range headOnly w := by
  obtain ⟨tr, o, hExec, hAnswered⟩ := hServed
  obtain ⟨_, -, -, hDue⟩ := hp.exec hExec hAnswered
  exact hDue

/-- **Files and shares are served alike.**  Whatever the content, the range and
the lengths of the reads, both handlers end without a fault or an error, with
one head and the bytes it describes; and up to the content type the heads are
the same, and so are the bodies. -/
theorem serving_agrees {parseUrl : UrlParser} {url : String} {share : SmbUrl}
    (hUrl : SmbSource.SmbUrl.parse parseUrl url = .ok share) (path : String)
    (content : List Byte) (range : Option String) (headOnly : Bool) :
    ServesSoundly content headOnly (LocalFile.serve path range headOnly) ∧
      ServesSoundly content headOnly (SmbSource.serve parseUrl url range headOnly) ∧
      ∀ w w', Served content (LocalFile.serve path range headOnly) w →
        Served content (SmbSource.serve parseUrl url range headOnly) w' →
          w.heads.map withoutType = w'.heads.map withoutType ∧ w.body = w'.body := by
  have hLocal : Ends (answers content) .start (LocalFile.serve path range headOnly) _ :=
    localFile_ends path range headOnly
  have hShare : Ends (answers content) .start (SmbSource.serve parseUrl url range headOnly) _ :=
    smbSource_ends hUrl range headOnly
  refine ⟨servesSoundly_of_ends hLocal, servesSoundly_of_ends hShare, ?_⟩
  intro w w' hServed hServed'
  have hDue := due_of_served hLocal hServed
  have hDue' := due_of_served hShare hServed'
  constructor
  · rw [hDue.heads, hDue'.heads, List.map_singleton, List.map_singleton,
      withoutType_headOf _ _ content.length]
  · rw [hDue.body, hDue'.body]

/-- A parser that knows one URL. -/
def filmUrl (_ : String) : Except String SmbSource.Url :=
  .ok ⟨"smb", "", none, some "nas", none, "/media/film.mp4", none, none⟩

theorem parse_film : SmbSource.SmbUrl.parse filmUrl "smb://nas/media/film.mp4" =
    .ok ⟨"nas", 445, "media", "film.mp4"⟩ := by
  have hScheme : Mime.eqIgnoreAsciiCase "smb" "smb" = true := by decide +kernel
  have hFile : SmbSource.shareAndFile (Util.Text.percentDecodeLossy "/media/film.mp4") =
      some ("media", "film.mp4") := by decide +kernel
  simp [SmbSource.SmbUrl.parse, filmUrl, hScheme, hFile, SmbSource.defaultPort]

/-- Three bytes, from the second on. -/
theorem film_agrees :
    ServesSoundly [1, 2, 3] false (LocalFile.serve "film.mp4" (some "bytes=1-") false) ∧
      ServesSoundly [1, 2, 3] false
        (SmbSource.serve filmUrl "smb://nas/media/film.mp4" (some "bytes=1-") false) ∧
      ∀ w w', Served [1, 2, 3] (LocalFile.serve "film.mp4" (some "bytes=1-") false) w →
        Served [1, 2, 3]
            (SmbSource.serve filmUrl "smb://nas/media/film.mp4" (some "bytes=1-") false) w' →
          w.heads.map withoutType = w'.heads.map withoutType ∧ w.body = w'.body :=
  serving_agrees parse_film "film.mp4" [1, 2, 3] (some "bytes=1-") false

end CastApp.Media.ServedBytes
