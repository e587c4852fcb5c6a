import CastApp.Media.Handler
import CastApp.Media.ResponseText
import CastApp.Verified.Anytime

/-!
# What a connection sends

A handler and its link to a client.  The link may break at any write, in the
middle of what is written; the handler may be dropped wherever it waits, by a
switch of the source or by a shutdown; and files, shares and origins may answer
anything.

* `OneResponse` — what a connection keeps, at every await point.
* `run_oneResponse` — its run lemma.
* **`connection_reads_back`** — what a client reads of what was sent.
-/

namespace CastApp.Media.SentBytes

open CastApp.Media.Connections
open CastApp.Media.Handler
open CastApp.Media.MediaServer
open CastApp.Media.ResponseText
open CastApp.Media.Serving
open CastApp.Media.SmbSource (UrlParser)
open CastApp.State
open CastApp.Util.Utf8
open CastApp.Verified.Anytime
open CastApp.Verified.Coroutine
open CastApp.Verified.Ends (Answers)
open CastApp.Verified.EventLoop
open CastApp.Verified.Transition

/-! ## The link to a client -/

/-- What has been handed to the writer of a connection, and what of it was
sent. -/
structure Link where
  heads : List ResponseHead
  body : List Byte
  sent : List Byte
  /-- A write has failed. -/
  broken : Bool

def Link.opened : Link := ⟨[], [], [], false⟩

/-- Handing bytes to the writer: they are sent, or a part of them is and the
link breaks; on a broken link nothing more is sent. -/
inductive Sends (bytes : List Byte) (l : Link) : Except IoError Unit → List Byte → Bool → Prop
  | taken (hOpen : l.broken = false) : Sends bytes l (.ok ()) (l.sent ++ bytes) false
  | cut {part : List Byte} (hOpen : l.broken = false) (hPart : part <+: bytes) (error : IoError) :
      Sends bytes l (.error error) (l.sent ++ part) true
  | dead (hBroken : l.broken = true) (result : Except IoError Unit) :
      Sends bytes l result l.sent true

/-- A writer that may fail; what else is asked may be answered in any way. -/
def answers : Answers servingSig Link
  | l, .writeHead head, r, l' =>
      ∃ sent broken, Sends (asBytes head.text) l r sent broken ∧
        l' = ⟨l.heads ++ [head], l.body, sent, broken⟩
  | l, .write bytes, r, l' =>
      ∃ sent broken, Sends bytes l r sent broken ∧ l' = ⟨l.heads, l.body ++ bytes, sent, broken⟩
  | l, .flush, _, l' => l' = l ∨ l' = { l with broken := true }
  | l, _, _, l' => l' = l

/-- Nothing has been handed over yet. -/
structure Unsent (l : Link) : Prop where
  heads : l.heads = []
  body : l.body = []
  sent : l.sent = []

/-- One head has been, and what was handed over since is its body. -/
structure Begun (head : ResponseHead) (l : Link) : Prop where
  heads : l.heads = [head]
  wellFormed : WellFormed head
  part : l.sent <+: asBytes head.text ++ l.body
  whole : l.broken = false → l.sent = asBytes head.text ++ l.body

def Responded (l : Link) : Prop := ∃ head, Begun head l

/-- What a connection keeps, wherever it is dropped. -/
def OneResponse (l : Link) : Prop := Unsent l ∨ Responded l

variable {l : Link}

theorem Unsent.begun (h : Unsent l) {head : ResponseHead} (hHead : WellFormed head)
    {r : Except IoError Unit} {sent : List Byte} {broken : Bool}
    (hSends : Sends (asBytes head.text) l r sent broken) :
    Begun head ⟨l.heads ++ [head], l.body, sent, broken⟩ := by
  have hHeads : l.heads ++ [head] = [head] := by rw [h.heads, List.nil_append]
  cases hSends with
  | taken hOpen =>
      have hSent : l.sent ++ asBytes head.text = asBytes head.text ++ l.body := by
        rw [h.sent, h.body, List.nil_append, List.append_nil]
      exact ⟨hHeads, hHead, ⟨[], (List.append_nil _).trans hSent⟩, fun _ => hSent⟩
  | cut hOpen hPart error =>
      refine ⟨hHeads, hHead, ?_, nofun⟩
      rw [h.sent, h.body, List.nil_append, List.append_nil]
      exact hPart
  | dead hBroken result =>
      refine ⟨hHeads, hHead, ?_, nofun⟩
      rw [h.sent]
      exact List.nil_prefix

theorem Begun.write {head : ResponseHead} (h : Begun head l) {bytes : List Byte}
    {r : Except IoError Unit} {sent : List Byte} {broken : Bool}
    (hSends : Sends bytes l r sent broken) :
    Begun head ⟨l.heads, l.body ++ bytes, sent, broken⟩ := by
  cases hSends with
  | taken hOpen =>
      have hSent : l.sent ++ bytes = asBytes head.text ++ (l.body ++ bytes) := by
        rw [h.whole hOpen, List.append_assoc]
      exact ⟨h.heads, h.wellFormed, ⟨[], (List.append_nil _).trans hSent⟩, fun _ => hSent⟩
  | cut hOpen hPart error =>
      refine ⟨h.heads, h.wellFormed, ?_, nofun⟩
      rw [h.whole hOpen, ← List.append_assoc]
      exact (List.prefix_append_right_inj _).mpr hPart
  | dead hBroken result =>
      refine ⟨h.heads, h.wellFormed, ?_, nofun⟩
      rw [← List.append_assoc]
      exact h.part.trans (List.prefix_append ..)

theorem Begun.flush {head : ResponseHead} (h : Begun head l) {l' : Link}
    (hFlushed : l' = l ∨ l' = { l with broken := true }) : Begun head l' := by
  rcases hFlushed with rfl | rfl
  · exact h
  · exact ⟨h.heads, h.wellFormed, h.part, nofun⟩

/-! ## Parts of a handler -/

/-- A part of a handler keeps to one response, and leaves `post`. -/
abbrev Keeps {α : Type} (l : Link) (p : Serve α) (post : Link → Prop) : Prop :=
  Stays answers OneResponse l p fun l' _ => post l'

/-- Sequencing with the `?` operator: what an error leaves is left. -/
theorem attempt_keeps {α β : Type} {p : Serve (Except IoError α)}
    {f : α → Serve (Except IoError β)} {mid post : Link → Prop} (hp : Keeps l p mid)
    (hError : ∀ l', mid l' → OneResponse l' ∧ post l') (hf : ∀ l' a, mid l' → Keeps l' (f a) post) :
    Keeps l (attempt p f) post := by
  refine hp.bind fun l' result hMid => ?_
  cases result with
  | ok a => exact hf l' a hMid
  | error error => exact hError l' hMid

theorem responded_keeps (l' : Link) (h : Responded l') : OneResponse l' ∧ Responded l' :=
  ⟨.inr h, h⟩

theorem responded_one (l' : Link) (h : Responded l') : OneResponse l' ∧ OneResponse l' :=
  ⟨.inr h, .inr h⟩

theorem writeHead_keeps (h : Unsent l) {head : ResponseHead} (hHead : WellFormed head) :
    Keeps l (ask (.writeHead head)) Responded := by
  refine ⟨.inl h, ?_⟩
  rintro r l' ⟨sent, broken, hSends, rfl⟩
  have hBegun := h.begun hHead hSends
  exact ⟨.inr ⟨head, hBegun⟩, head, hBegun⟩

theorem write_keeps (h : Responded l) (bytes : List Byte) :
    Keeps l (ask (.write bytes)) Responded := by
  obtain ⟨head, hBegun⟩ := h
  refine ⟨.inr ⟨head, hBegun⟩, ?_⟩
  rintro r l' ⟨sent, broken, hSends, rfl⟩
  have hBegun := hBegun.write hSends
  exact ⟨.inr ⟨head, hBegun⟩, head, hBegun⟩

theorem flush_keeps (h : Responded l) : Keeps l (ask .flush) Responded := by
  obtain ⟨head, hBegun⟩ := h
  refine ⟨.inr ⟨head, hBegun⟩, ?_⟩
  intro r l' hFlushed
  have hBegun := hBegun.flush hFlushed
  exact ⟨.inr ⟨head, hBegun⟩, head, hBegun⟩

/-- A head, then something that goes on with the response. -/
theorem headThen_keeps {β : Type} (h : Unsent l) {head : ResponseHead} (hHead : WellFormed head)
    {f : Unit → Serve (Except IoError β)} (hf : ∀ l', Responded l' → Keeps l' (f ()) Responded) :
    Keeps l (attempt (ask (.writeHead head)) f) Responded :=
  attempt_keeps (writeHead_keeps h hHead) responded_keeps fun l' _ hMid => hf l' hMid

theorem respond_keeps (h : Unsent l) {head : ResponseHead} (hHead : WellFormed head) :
    Keeps l (respond head) Responded :=
  headThen_keeps h hHead fun _ hMid => flush_keeps hMid

theorem respondText_keeps (h : Unsent l) {head : ResponseHead} (hHead : WellFormed head)
    (text : String) : Keeps l (respondText head text) Responded := by
  refine headThen_keeps h hHead fun l' hMid => ?_
  exact attempt_keeps (write_keeps hMid _) responded_keeps fun _ _ hMid => flush_keeps hMid

/-- An operation on the resource sends nothing. -/
theorem resource_keeps {α : Type} (h : Responded l) {op : Op} {f : op.Ans → Serve α}
    (hOp : ∀ r l', answers l op r l' → l' = l) (hf : ∀ r, Keeps l (f r) Responded) :
    Keeps l (ask op >>= f) Responded := by
  refine Stays.perform (.inr h) fun r l' hAnswer => ?_
  rw [hOp r l' hAnswer]
  exact hf r

theorem localReader_keeps (remaining : Nat) (h : Responded l) :
    Keeps l (LocalFile.streamReader remaining) Responded := by
  induction remaining using Nat.strongRecOn generalizing l with
  | ind remaining ih =>
      unfold LocalFile.streamReader
      by_cases hDone : remaining = 0
      · rw [if_pos hDone]
        exact responded_keeps l h
      · rw [if_neg hDone]
        refine resource_keeps h (fun _ _ hSame => hSame) fun r => ?_
        match r with
        | .error error => exact responded_keeps l h
        | .ok [] => exact responded_keeps l h
        | .ok (byte :: bytes) =>
            refine attempt_keeps (write_keeps h _) responded_keeps fun l' _ hMid => ?_
            by_cases hOver : remaining < bytes.length + 1
            · rw [if_pos hOver]
              exact .inr hMid
            · rw [if_neg hOver]
              exact ih _ (by omega) hMid

theorem shareReader_keeps (offset remaining : Nat) (h : Responded l) :
    Keeps l (SmbSource.streamReader offset remaining) Responded := by
  induction remaining using Nat.strongRecOn generalizing l offset with
  | ind remaining ih =>
      unfold SmbSource.streamReader
      by_cases hDone : remaining = 0
      · rw [if_pos hDone]
        exact responded_keeps l h
      · rw [if_neg hDone]
        refine resource_keeps h (fun _ _ hSame => hSame) fun r => ?_
        match r with
        | .error error => exact responded_keeps l h
        | .ok [] => exact responded_keeps l h
        | .ok (byte :: bytes) =>
            refine attempt_keeps (write_keeps h _) responded_keeps fun l' _ hMid => ?_
            by_cases hOver : remaining < bytes.length + 1
            · rw [if_pos hOver]
              exact .inr hMid
            · rw [if_neg hOver]
              exact ih _ (by omega) _ hMid

/-! ## The sources -/

theorem localBody_keeps (decision : Range.RangeDecision) (size : Nat) (h : Responded l) :
    Keeps l (LocalFile.body decision size) Responded := by
  cases decision with
  | full => exact localReader_keeps size h
  | slice start stop =>
      refine resource_keeps h (fun _ _ hSame => hSame) fun r => ?_
      cases r with
      | ok _ => exact localReader_keeps _ h
      | error error => exact responded_keeps l h
  | unsatisfiable => exact responded_keeps l h

theorem shareBody_keeps (decision : Range.RangeDecision) (size : Nat) (h : Responded l) :
    Keeps l (SmbSource.body decision size) Responded := by
  cases decision with
  | full => exact shareReader_keeps 0 size h
  | slice start stop => exact shareReader_keeps start _ h
  | unsatisfiable => exact responded_keeps l h

/-- The body behind a head, unless only the head was asked for. -/
theorem bodyUnless_keeps {headOnly : Bool} {p : Serve (Except IoError Unit)} (h : Responded l)
    (hp : Keeps l p Responded) : Keeps l (if headOnly then return .ok () else p) Responded := by
  cases headOnly with
  | true => exact responded_keeps l h
  | false => exact hp

theorem Unsent.one (h : Unsent l) : OneResponse l ∧ OneResponse l := ⟨.inl h, .inl h⟩

theorem Keeps.one {α : Type} {p : Serve α} (hp : Keeps l p Responded) : Keeps l p OneResponse :=
  hp.mono fun _ _ h => .inr h

theorem localFile_keeps (path : String) (range : Option String) (headOnly : Bool) (h : Unsent l) :
    Keeps l (LocalFile.serve path range headOnly) OneResponse := by
  refine Stays.perform (.inl h) ?_
  rintro opened l' rfl
  cases opened with
  | error error =>
      by_cases hMissing : error.kind = .notFound
      · dsimp only
        rw [if_pos hMissing]
        exact (respond_keeps h (by decide)).one
      · dsimp only
        rw [if_neg hMissing]
        exact h.one
  | ok _ =>
      refine Stays.perform (.inl h) ?_
      rintro size l' rfl
      cases size with
      | error error => exact h.one
      | ok size =>
          refine Keeps.one (headThen_keeps h (headOf_wellFormed (mimeForPath_oneLine path) size _)
            fun l' hMid => ?_)
          exact attempt_keeps (bodyUnless_keeps hMid (localBody_keeps _ _ hMid)) responded_keeps
            fun _ _ hMid => flush_keeps hMid

theorem openFailed_keeps (error : SmbError) (h : Unsent l) :
    Keeps l (SmbSource.openFailed error) Responded := by
  cases error with
  | authRequired => exact respondText_keeps h (plainHead_wellFormed (by decide) _ _) _
  | notFound => exact respondText_keeps h (plainHead_wellFormed (by decide) _ _) _
  | accessDenied => exact respondText_keeps h (plainHead_wellFormed (by decide) _ _) _
  | invalidUrl => exact respondText_keeps h (plainHead_wellFormed (by decide) _ _) _
  | transport => exact respondText_keeps h (plainHead_wellFormed (by decide) _ _) _

variable {parseUrl : UrlParser}

theorem smbSource_keeps (url : String) (range : Option String) (headOnly : Bool) (h : Unsent l) :
    Keeps l (SmbSource.serve parseUrl url range headOnly) OneResponse := by
  unfold SmbSource.serve
  cases SmbSource.SmbUrl.parse parseUrl url with
  | error error => exact (respond_keeps h (by decide)).one
  | ok share =>
      refine Stays.perform (.inl h) ?_
      rintro opened l' rfl
      cases opened with
      | error error => exact (openFailed_keeps error h).one
      | ok size =>
          refine Keeps.one (headThen_keeps h
            (headOf_wellFormed (mimeForExtension_oneLine _) size _) fun l' hMid => ?_)
          refine attempt_keeps (bodyUnless_keeps hMid (shareBody_keeps _ _ hMid)) responded_keeps
            fun l' _ hMid => ?_
          exact resource_keeps hMid (fun _ _ hSame => hSame) fun closed => flush_keeps hMid

theorem writeChunk_keeps (flush : Flush.FlushTracker) (bytes : List Byte) (h : Responded l) :
    Keeps l (UrlProxy.writeChunk flush bytes) Responded := by
  refine attempt_keeps (write_keeps h bytes) responded_keeps fun l' _ hMid => ?_
  refine resource_keeps hMid (fun _ _ hSame => hSame) fun now => ?_
  refine resource_keeps hMid (fun _ _ hSame => hSame) fun restarted => ?_
  cases hDue : flush.shouldFlush bytes.length now restarted with
  | mk due flush =>
      cases due with
      | true =>
          exact attempt_keeps (flush_keeps hMid) responded_keeps fun l' _ => responded_keeps l'
      | false => exact responded_keeps _ hMid

theorem idle_keeps (flush : Flush.FlushTracker) (h : Responded l) :
    Keeps l (UrlProxy.idle flush) Responded := by
  have hFlush : Keeps l (if flush.hasPending then ask .flush else return .ok ()) Responded := by
    by_cases hPending : flush.hasPending
    · rw [if_pos hPending]
      exact flush_keeps h
    · rw [if_neg hPending]
      exact responded_keeps l h
  refine attempt_keeps hFlush responded_keeps fun l' _ hMid => ?_
  exact resource_keeps hMid (fun _ _ hSame => hSame) fun now => responded_keeps l' hMid

theorem turn_keeps (flush : Flush.FlushTracker) (event : BodyEvent) (h : Responded l) :
    Keeps l (UrlProxy.turn flush event) Responded := by
  cases event with
  | chunk bytes =>
      exact attempt_keeps (writeChunk_keeps flush bytes h) responded_keeps fun l' _ =>
        responded_keeps l'
  | deadline =>
      exact attempt_keeps (idle_keeps flush h) responded_keeps fun l' _ => responded_keeps l'
  | failed error => exact responded_keeps l h
  | ended => exact attempt_keeps (flush_keeps h) responded_keeps fun l' _ => responded_keeps l'
  | aborted => exact responded_keeps l h

theorem urlProxy_keeps (url : String) (range : Option String) (headOnly : Bool) (h : Unsent l) :
    Keeps l (UrlProxy.serve parseUrl url range headOnly) Responded := by
  have hGateway : ∀ {l' : Link}, Unsent l' → Keeps l'
      (attempt UrlProxy.badGateway fun () => return .ok UrlProxy.Progress.complete) Responded := by
    intro l' h
    exact attempt_keeps (respondText_keeps h (by decide) _) responded_keeps fun l' _ =>
      responded_keeps l'
  unfold UrlProxy.serve
  cases UrlProxy.validateUrl parseUrl url with
  | error error =>
      exact attempt_keeps (respond_keeps h (by decide)) responded_keeps fun l' _ =>
        responded_keeps l'
  | ok valid =>
      refine Stays.perform (.inl h) ?_
      rintro sent l' rfl
      cases sent with
      | failed error => exact hGateway h
      | timeout => exact hGateway h
      | answered upstream =>
          refine headThen_keeps h (mirroredHead_wellFormed upstream) fun l' hMid => ?_
          refine attempt_keeps (flush_keeps hMid) responded_keeps fun l' _ hMid => ?_
          cases headOnly with
          | true => exact responded_keeps l' hMid
          | false =>
              exact resource_keeps hMid (fun _ _ hSame => hSame) fun now => responded_keeps l' hMid

/-! ## The handler -/

/-- At the `select!` of a body the response has begun. -/
abbrev KeepsLoop (l : Link) (p : Serve (Flow State)) : Prop :=
  StaysLoop answers OneResponse (fun l' _ => Responded l') OneResponse l p

theorem answer_keeps {response : Response}
    (hHead : WellFormed ⟨response.status, response.reason, response.headers⟩) (h : Unsent l) :
    KeepsLoop l (answer response) := by
  unfold answer
  refine (writeHead_keeps h hHead).bind fun l' _ hMid => ?_
  by_cases hBody : response.body ≠ ""
  · rw [if_pos hBody]
    refine (write_keeps hMid _).bind fun l' _ hMid => ?_
    exact (flush_keeps hMid).bind fun l' _ hMid => responded_one l' hMid
  · rw [if_neg hBody]
    exact (flush_keeps hMid).bind fun l' _ hMid => responded_one l' hMid

theorem finish_keeps {p : Serve (Except IoError Unit)} (hp : Keeps l p OneResponse) :
    KeepsLoop l (finish p) := hp.bind fun _ _ h => ⟨h, h⟩

theorem proxied_keeps {p : Serve (Except IoError UrlProxy.Progress)} (hp : Keeps l p Responded) :
    KeepsLoop l (proxied p) := by
  refine hp.bind fun l' result hMid => ?_
  match result with
  | .ok (.streaming flush) => exact responded_keeps l' hMid
  | .ok .complete => exact responded_one l' hMid
  | .error error => exact responded_one l' hMid

theorem live_keeps {stream : ScreenStream} {p : Serve (Except IoError Flush.FlushTracker)}
    (hp : Keeps l p Responded) : KeepsLoop l (live stream p) := by
  refine hp.bind fun l' result hMid => ?_
  cases result with
  | ok flush => exact responded_keeps l' hMid
  | error error => exact responded_one l' hMid

theorem openLive_keeps (h : Unsent l) : Keeps l openLive Responded := by
  have hHead : WellFormed ⟨liveHead.status, liveHead.reason, liveHead.headers⟩ := by decide
  refine headThen_keeps h hHead fun l' hMid => ?_
  refine attempt_keeps (flush_keeps hMid) responded_keeps fun l' _ hMid => ?_
  exact resource_keeps hMid (fun _ _ hSame => hSame) fun now => responded_keeps l' hMid

theorem liveTurn_keeps (stream : ScreenStream) (flush : Flush.FlushTracker) (event : BodyEvent)
    (h : Responded l) : KeepsLoop l (liveTurn stream flush event) := by
  cases event with
  | chunk bytes => exact live_keeps (writeChunk_keeps flush bytes h)
  | deadline => exact live_keeps (idle_keeps flush h)
  | failed error => exact responded_one l h
  | aborted => exact responded_one l h
  | ended =>
      refine (flush_keeps h).bind fun l' result hMid => ?_
      cases result with
      | error error => exact responded_one l' hMid
      | ok _ =>
          refine Stays.perform (.inr hMid) ?_
          rintro put l' rfl
          exact responded_one _ hMid

theorem serveSource_keeps (source : Option ActiveSource) (range : Option String) (headOnly : Bool)
    (h : Unsent l) : KeepsLoop l (serveSource parseUrl source range headOnly) := by
  match source with
  | none => exact answer_keeps (by decide) h
  | some (.file path) => exact finish_keeps (localFile_keeps path range headOnly h)
  | some (.url url) =>
      unfold serveSource
      by_cases hSmb : SmbSource.isSmbUrl url
      · simp only [if_pos hSmb]
        exact finish_keeps (smbSource_keeps url range headOnly h)
      · simp only [if_neg hSmb]
        exact proxied_keeps (urlProxy_keeps url range headOnly h)
  | some (.screen monitor) =>
      refine Stays.perform (.inl h) ?_
      rintro found l' rfl
      cases found with
      | some stream => exact live_keeps (openLive_keeps h)
      | none => exact answer_keeps (by decide) h

theorem handleRequest_keeps (source : Option ActiveSource) (request : HttpRequest) (h : Unsent l) :
    KeepsLoop l (handleRequest parseUrl source request) := by
  unfold handleRequest
  by_cases hMethod : request.method ≠ "GET" ∧ request.method ≠ "HEAD"
  · rw [if_pos hMethod]
    exact answer_keeps (by decide) h
  · rw [if_neg hMethod]
    by_cases hTarget : request.target ≠ "/stream"
    · rw [if_pos hTarget]
      exact answer_keeps (by decide) h
    · rw [if_neg hTarget]
      exact serveSource_keeps source _ _ h

/-- One connection: its handler, with a link that may break at any write. -/
def connection (parseUrl : UrlParser) (source : Option ActiveSource) :
    System (Control servingSig State × Link) (Label servingSig BodyEvent Empty) :=
  within (· = Link.opened) answers (handleConnection parseUrl source)

variable {source : Option ActiveSource}
variable {trace : List (Move (Control servingSig State × Link) (Label servingSig BodyEvent Empty))}
variable {c : Control servingSig State × Link}

/-- The run lemma: at every moment a connection keeps to one response. -/
theorem run_oneResponse (hRun : Run (connection parseUrl source) trace c) : OneResponse c.2 := by
  suffices hHolds : AtAnytime answers OneResponse (fun l _ => Responded l) OneResponse c.2 c.1 from
    hHolds.holds
  refine loopStays hRun ?_ ?_
  · rintro l rfl
    have hOpened : Unsent Link.opened := ⟨rfl, rfl, rfl⟩
    refine Stays.perform (.inl hOpened) ?_
    rintro read l' rfl
    cases read with
    | request request => exact handleRequest_keeps source request hOpened
    | closed => exact hOpened.one
    | failed => exact answer_keeps (by decide) hOpened
    | slow => exact hOpened.one
  · rintro l s event l' h hGuard rfl
    cases s with
    | proxying flush => exact proxied_keeps (turn_keeps flush event h)
    | streaming stream flush => exact liveTurn_keeps stream flush event h
    | done => exact hGuard.elim

/-- What a client has read when it has got some of what was sent. -/
structure ReadsBack (l : Link) (head : ResponseHead) : Prop where
  /-- One head was written. -/
  heads : l.heads = [head]
  whole : l.broken = false → readResponse l.sent = some (asRead head, l.body)
  part : ∀ received, received <+: l.sent → readResponse received = none ∨
    ∃ part, readResponse received = some (asRead head, part) ∧ part <+: l.body

/-- **What a connection sends is one response.**  For every source, whatever
files, shares, origins and clients do and wherever a write fails or the handler
is dropped, nothing has been sent or exactly one head has been written; a
client reads that head and no other, and behind it the beginning of the body,
all of it if the link holds. -/
theorem connection_reads_back (hRun : Run (connection parseUrl source) trace c) :
    c.2.sent = [] ∨ ∃ head, ReadsBack c.2 head := by
  rcases run_oneResponse hRun with hUnsent | ⟨head, hBegun⟩
  · exact .inl hUnsent.sent
  · refine .inr ⟨head, hBegun.heads, ?_, ?_⟩
    · intro hOpen
      rw [hBegun.whole hOpen]
      exact readResponse_text hBegun.wellFormed _
    · intro received hReceived
      exact readResponse_prefix hBegun.wellFormed (hReceived.trans hBegun.part)

def refusal : ResponseHead := ⟨400, "Bad Request", []⟩

/-- A client that sends no request is refused, and reads that. -/
theorem refusal_reads_back : ∃ trace c, Run (connection (fun _ => .error "") none) trace c ∧
    c.2.sent ≠ [] ∧ (c.2.sent = [] ∨ ∃ head, ReadsBack c.2 head) := by
  have hRead : (connection (fun _ => .error "") none).step
      (.running (handleConnection (fun _ => .error "") none).prelude, .opened)
      (.answer ⟨.readRequest, .failed⟩) (.running (answer badRequest), .opened) := .answer rfl
  have hHead : (connection (fun _ => .error "") none).step
      (.running (answer badRequest), .opened) (.answer ⟨.writeHead refusal, .ok ()⟩)
      (.running (do let _ ← ask .flush; return .exit .done),
        ⟨[refusal], [], asBytes refusal.text, false⟩) :=
    .answer ⟨_, _, .taken rfl, rfl⟩
  have hStart : Run (connection (fun _ => .error "") none) []
      (.running (handleConnection (fun _ => .error "") none).prelude, .opened) :=
    .start ⟨rfl, rfl⟩
  have hRun := (hStart.step hRead).step hHead
  refine ⟨_, _, hRun, ?_, connection_reads_back hRun⟩
  decide +kernel

end CastApp.Media.SentBytes
