import CastApp.Media.ServedBytes
import CastApp.Verified.Droppable

/-!
# The handle of a file on a share

`smb_source::serve` opens a handle and closes it behind the body.  The
connection handler drops it at any `await` when the source is switched or the
server shuts down, and a `?` leaves it early.

* `streamReader_upholds` — a body that is read and written to its end leaves
  the handle as it was; in any other one it is lost.
* **`handle_released_iff`** — when a handle is closed.
* `handle_lost_on_disconnect` — a client that goes away.
-/

namespace CastApp.Media.ShareHandle

open CastApp.Media.Range
open CastApp.Media.Serving
open CastApp.Media.SmbSource
open CastApp.State
open CastApp.Verified.Coroutine
open CastApp.Verified.Droppable

/-- How a response halts. -/
abbrev Halt : Type := Ending servingSig (Except IoError Unit)

/-- `open` has returned a file. -/
def opened : Entry servingSig → Bool
  | ⟨.openShare _, .ok _⟩ => true
  | _ => false

def closes : Op → Bool
  | .closeShare => true
  | _ => false

def handles (h : Ops) : Nat := h.countP opened

/-- The calls of `close`, with one that is not answered any more. -/
def closeCalls (h : Ops) : Halt → Nat
  | .ended _ => h.countP fun entry => closes entry.1
  | .dropped op => (h.countP fun entry => closes entry.1) + (closes op).toNat

/-- `close` is called once for each file. -/
def Released (h : Ops) (e : Halt) : Prop := closeCalls h e = handles h

/-- What passes the bytes of a response on. -/
def transfers : Op → Bool
  | .writeHead _ | .readAt _ _ | .write _ => true
  | _ => false

/-- An error on the way. -/
def failed : Entry servingSig → Bool
  | ⟨.writeHead _, .error _⟩ | ⟨.readAt _ _, .error _⟩ | ⟨.write _, .error _⟩ => true
  | _ => false

/-- Nothing fails on the way, and the response is not dropped there. -/
structure Undisturbed (h : Ops) (e : Halt) : Prop where
  hAnswers : ∀ entry ∈ h, failed entry = false
  hDropped : ∀ op, e = .dropped op → transfers op = false

/-- What `read_at` is documented to answer: up to `len` bytes, or an error. -/
def Within : (op : Op) → op.Ans → Prop
  | .readAt _ len, .ok bytes => bytes.length ≤ len
  | _, _ => True

/-- A response, however it halts. -/
structure Response (parseUrl : UrlParser) (rawUrl : String) (range : Option String)
    (headOnly : Bool) where
  ops : Ops
  halt : Halt
  hHalts : Halts (serve parseUrl rawUrl range headOnly) ops halt
  hWithin : ∀ entry ∈ ops, Within entry.1 entry.2

/-! ## The account of a response -/

/-- `opens` files have been opened, and `close` has been answered `closed` times. -/
structure Stands (h : Ops) (opens closed : Nat) : Prop where
  hHandles : handles h = opens
  hClosed : (h.countP fun entry => closes entry.1) = closed

/-- Nothing has failed on the way. -/
def Unharmed (h : Ops) : Prop := ∀ entry ∈ h, failed entry = false

/-- What is asked of a response: its handle is closed if nothing disturbs it, and only then. -/
def Accounts (h : Ops) (e : Halt) : Prop := Released h e ↔ (0 < handles h → Undisturbed h e)

variable {h : Ops} {opens closed : Nat}

theorem Stands.append (hStands : Stands h opens closed) (entry : Entry servingSig) :
    Stands (h ++ [entry]) (opens + (opened entry).toNat) (closed + (closes entry.1).toNat) := by
  constructor
  · unfold handles
    rw [List.countP_append, List.countP_singleton, ← hStands.hHandles]
    cases opened entry <;> rfl
  · rw [List.countP_append, List.countP_singleton, ← hStands.hClosed]
    cases closes entry.1 <;> rfl

theorem Unharmed.append (hUnharmed : Unharmed h) {entry : Entry servingSig}
    (hAnswer : failed entry = false) : Unharmed (h ++ [entry]) := by
  intro entry' hMem
  rcases List.mem_append.mp hMem with hMem | hMem
  · exact hUnharmed entry' hMem
  · rw [List.mem_singleton.mp hMem]
    exact hAnswer

theorem Stands.closeCalls_ended (hStands : Stands h opens closed)
    (o : Outcome servingSig (Except IoError Unit)) : closeCalls h (.ended o) = closed :=
  hStands.hClosed

theorem Stands.closeCalls_dropped (hStands : Stands h opens closed) (op : Op) :
    closeCalls h (.dropped op) = closed + (closes op).toNat := by
  rw [← hStands.hClosed]
  rfl

/-- As many calls as files, and nothing in the way. -/
theorem accounts_of_released {e : Halt} (hReleased : Released h e)
    (hUndisturbed : 0 < handles h → Undisturbed h e) : Accounts h e :=
  ⟨fun _ => hUndisturbed, fun _ => hReleased⟩

/-- No call for an open file, and something in the way. -/
theorem accounts_of_lost (hStands : Stands h 1 0) {e : Halt} (hCalls : closeCalls h e = 0)
    (hDisturbed : ¬ Undisturbed h e) : Accounts h e := by
  have hHandles := hStands.hHandles
  constructor
  · intro hReleased
    unfold Released at hReleased
    omega
  · intro hUndisturbed
    exact absurd (hUndisturbed (by omega)) hDisturbed

/-! ## A handle that is held -/

/-- One file is open, and nothing has failed. -/
structure Held (h : Ops) : Prop where
  hStands : Stands h 1 0
  hUnharmed : Unharmed h

theorem closes_of_transfers {op : Op} (hTransfers : transfers op = true) : closes op = false := by
  cases op with
  | closeShare => exact Bool.noConfusion hTransfers
  | _ => rfl

theorem opened_of_transfers {op : Op} (hTransfers : transfers op = true) (r : op.Ans) :
    opened ⟨op, r⟩ = false := by
  cases op with
  | openShare => exact Bool.noConfusion hTransfers
  | _ => rfl

theorem Stands.transfer (hStands : Stands h opens closed) {op : Op}
    (hTransfers : transfers op = true) (r : op.Ans) : Stands (h ++ [⟨op, r⟩]) opens closed := by
  have hNext := hStands.append ⟨op, r⟩
  rw [opened_of_transfers hTransfers r, closes_of_transfers hTransfers] at hNext
  exact hNext

theorem Held.transfer (hHeld : Held h) {op : Op} {r : op.Ans} (hTransfers : transfers op = true)
    (hAnswer : failed ⟨op, r⟩ = false) : Held (h ++ [⟨op, r⟩]) :=
  ⟨hHeld.hStands.transfer hTransfers r, hHeld.hUnharmed.append hAnswer⟩

/-- Dropped while bytes are passed on, a handle is lost. -/
theorem Held.dropped (hHeld : Held h) {op : Op} (hTransfers : transfers op = true) :
    Accounts h (.dropped op) := by
  apply accounts_of_lost hHeld.hStands
  · rw [hHeld.hStands.closeCalls_dropped, closes_of_transfers hTransfers]
    rfl
  · intro hUndisturbed
    have hNot := hUndisturbed.hDropped op rfl
    rw [hTransfers] at hNot
    exact Bool.noConfusion hNot

/-- Left by `?`, it is lost. -/
theorem Held.failed (hHeld : Held h) {op : Op} {r : op.Ans} (hTransfers : transfers op = true)
    (hFailed : failed ⟨op, r⟩ = true) (o : Outcome servingSig (Except IoError Unit)) :
    Accounts (h ++ [⟨op, r⟩]) (.ended o) := by
  have hStands := hHeld.hStands.transfer hTransfers r
  apply accounts_of_lost hStands (hStands.closeCalls_ended o)
  intro hUndisturbed
  have hMem : ⟨op, r⟩ ∈ h ++ [⟨op, r⟩] := List.mem_append_right h (List.mem_singleton_self _)
  rw [hUndisturbed.hAnswers _ hMem] at hFailed
  exact Bool.noConfusion hFailed

/-! ## The body -/

/-- What a body comes to: the handle is held behind it, or the response is over. -/
def Streamed (h : Ops) : Halt → Prop
  | .ended (.value (.ok ())) => Held h
  | e => Accounts h e

theorem streamReader_upholds (offset remaining : Nat) (hHeld : Held h) :
    Upholds Within h (streamReader offset remaining) Streamed := by
  induction remaining using Nat.strongRecOn generalizing h offset with
  | ind remaining ih =>
      unfold streamReader
      by_cases hDone : remaining = 0
      · rw [if_pos hDone]
        exact hHeld
      · rw [if_neg hDone]
        refine ⟨hHeld.dropped rfl, fun read hWithin => ?_⟩
        match read with
        | .error error => exact hHeld.failed rfl rfl _
        | .ok [] => exact hHeld.transfer rfl rfl
        | .ok (byte :: bytes) =>
            have hRead : Held (h ++ [⟨.readAt offset (min remaining readChunk),
              .ok (byte :: bytes)⟩]) := hHeld.transfer rfl rfl
            have hLength : bytes.length + 1 ≤ min remaining readChunk := hWithin
            refine ⟨hRead.dropped rfl, fun write _ => ?_⟩
            match write with
            | .error error => exact hRead.failed rfl rfl _
            | .ok () =>
                dsimp only
                rw [if_neg (by omega)]
                exact ih _ (by omega) _ (hRead.transfer rfl rfl)

theorem writeHead_upholds (head : ResponseHead) (hHeld : Held h) :
    Upholds Within h (ask (.writeHead head)) Streamed := by
  refine ⟨hHeld.dropped rfl, fun r _ => ?_⟩
  match r with
  | .error error => exact hHeld.failed rfl rfl _
  | .ok () => exact hHeld.transfer rfl rfl

theorem body_upholds (headOnly : Bool) (decision : RangeDecision) (size : Nat) (hHeld : Held h) :
    Upholds Within h (if headOnly then return .ok () else body decision size) Streamed := by
  cases headOnly with
  | true => exact hHeld
  | false =>
      cases decision with
      | full => exact streamReader_upholds 0 size hHeld
      | slice start stop => exact streamReader_upholds start (stop - start + 1) hHeld
      | unsatisfiable => exact hHeld

/-- The `?` operator: what follows begins with the handle held. -/
theorem attempt_upholds {p : Serve (Except IoError Unit)}
    {f : Unit → Serve (Except IoError Unit)} (hp : Upholds Within h p Streamed)
    (hf : ∀ h', Held h' → Upholds Within h' (f ()) Accounts) :
    Upholds Within h (attempt p f) Accounts := by
  refine upholds_bind (hp.mono ?_)
  intro h' e hStreamed
  match e with
  | .dropped op => exact hStreamed
  | .ended (.fault reason) => exact hStreamed
  | .ended (.value (.error error)) => exact hStreamed
  | .ended (.value (.ok ())) => exact hf h' hStreamed

/-! ## Behind the body -/

/-- Behind the body the handle is closed, and nothing in the rest can lose it. -/
theorem close_upholds (hHeld : Held h) :
    Upholds Within h (do let _ ← ask .closeShare; ask .flush : Serve (Except IoError Unit))
      Accounts := by
  have hUnharmed := hHeld.hUnharmed
  have hHandles := hHeld.hStands.hHandles
  refine ⟨?_, fun r _ => ?_⟩
  · apply accounts_of_released
    · unfold Released
      rw [hHeld.hStands.closeCalls_dropped, hHandles]
      rfl
    · intro
      exact ⟨hUnharmed, fun op hDropped => by cases hDropped; rfl⟩
  have hStands : Stands (h ++ [⟨.closeShare, r⟩]) 1 1 := hHeld.hStands.append _
  have hUnharmed : Unharmed (h ++ [⟨.closeShare, r⟩]) := hUnharmed.append rfl
  refine ⟨?_, fun r' _ => ?_⟩
  · apply accounts_of_released
    · unfold Released
      rw [hStands.closeCalls_dropped, hStands.hHandles]
      rfl
    · intro
      exact ⟨hUnharmed, fun op hDropped => by cases hDropped; rfl⟩
  have hStands : Stands (_ ++ [⟨.flush, r'⟩]) 1 1 := hStands.append _
  apply accounts_of_released
  · unfold Released
    rw [hStands.hHandles]
    exact hStands.closeCalls_ended _
  · intro
    exact ⟨hUnharmed.append rfl, nofun⟩

/-! ## Responses without a file -/

theorem Stands.bare (hStands : Stands h 0 0) {e : Halt} (hHalt : e ≠ .dropped .closeShare) :
    Accounts h e := by
  have hHandles := hStands.hHandles
  apply accounts_of_released
  · unfold Released
    rw [hHandles]
    cases e with
    | ended o => exact hStands.closeCalls_ended o
    | dropped op =>
        have hCloses : closes op = false := by
          cases op with
          | closeShare => exact absurd rfl hHalt
          | _ => rfl
        rw [hStands.closeCalls_dropped, hCloses]
        rfl
  · intro hSome
    omega

theorem respond_upholds (head : ResponseHead) (hStands : Stands h 0 0) :
    Upholds Within h (respond head) Accounts := by
  refine ⟨hStands.bare nofun, fun r _ => ?_⟩
  have hHead : Stands (h ++ [⟨.writeHead head, r⟩]) 0 0 := hStands.append _
  match r with
  | .error error => exact hHead.bare nofun
  | .ok () =>
      refine ⟨hHead.bare nofun, fun r _ => ?_⟩
      have hFlushed : Stands (_ ++ [⟨.flush, r⟩]) 0 0 := hHead.append _
      exact hFlushed.bare nofun

theorem respondText_upholds (head : ResponseHead) (text : String) (hStands : Stands h 0 0) :
    Upholds Within h (respondText head text) Accounts := by
  refine ⟨hStands.bare nofun, fun r _ => ?_⟩
  have hHead : Stands (h ++ [⟨.writeHead head, r⟩]) 0 0 := hStands.append _
  match r with
  | .error error => exact hHead.bare nofun
  | .ok () =>
      refine ⟨hHead.bare nofun, fun r _ => ?_⟩
      have hText : Stands (_ ++ [⟨.write (Util.Utf8.asBytes text), r⟩]) 0 0 :=
        hHead.append _
      match r with
      | .error error => exact hText.bare nofun
      | .ok () =>
          refine ⟨hText.bare nofun, fun r _ => ?_⟩
          have hFlushed : Stands (_ ++ [⟨.flush, r⟩]) 0 0 := hText.append _
          exact hFlushed.bare nofun

theorem openFailed_upholds (error : SmbError) (hStands : Stands h 0 0) :
    Upholds Within h (openFailed error) Accounts := by
  cases error with
  | authRequired | notFound | accessDenied | invalidUrl | transport =>
      exact respondText_upholds _ _ hStands

/-! ## The whole response -/

/-- **Every response of a share accounts for its handle.** -/
theorem serve_upholds (parseUrl : UrlParser) (rawUrl : String) (range : Option String)
    (headOnly : Bool) : Upholds Within [] (serve parseUrl rawUrl range headOnly) Accounts := by
  have hStart : Stands [] 0 0 := ⟨rfl, rfl⟩
  unfold serve
  cases SmbUrl.parse parseUrl rawUrl with
  | error => exact respond_upholds badUrl hStart
  | ok url =>
      refine ⟨hStart.bare nofun, fun r _ => ?_⟩
      cases r with
      | error error =>
          have hStands : Stands [⟨.openShare url, .error error⟩] 0 0 := hStart.append _
          exact openFailed_upholds error hStands
      | ok size =>
          have hStands : Stands [⟨.openShare url, .ok size⟩] 1 0 := hStart.append _
          have hHeld : Held [⟨.openShare url, .ok size⟩] :=
            ⟨hStands, fun entry hMem => by rw [List.mem_singleton.mp hMem]; rfl⟩
          exact attempt_upholds (writeHead_upholds _ hHeld) fun _ hHead =>
            attempt_upholds (body_upholds headOnly _ size hHead) fun _ => close_upholds

/-- **When a handle is closed once it is open**: when no head, no read and no
write of the body fails, and the response is not dropped while one of them is
awaited. -/
theorem handle_released_iff {parseUrl : UrlParser} {rawUrl : String} {range : Option String}
    {headOnly : Bool} (response : Response parseUrl rawUrl range headOnly) :
    Released response.ops response.halt ↔
      (0 < handles response.ops → Undisturbed response.ops response.halt) :=
  (serve_upholds parseUrl rawUrl range headOnly).halts response.hHalts response.hWithin

/-- A client that goes away while the three bytes of a file are written. -/
def disconnectedOps : Ops :=
  [⟨.openShare ⟨"nas", 445, "media", "film.mp4"⟩, .ok 3⟩,
    ⟨.writeHead (LocalFile.headOf (Mime.mimeForExtension (fileExtension "film.mp4")) 3 .full),
      .ok ()⟩,
    ⟨.readAt 0 3, .ok [1, 2, 3]⟩,
    ⟨.write [1, 2, 3], .error ⟨.brokenPipe, "Broken pipe"⟩⟩]

theorem halts_disconnected :
    Halts (serve ServedBytes.filmUrl "smb://nas/media/film.mp4" none false) disconnectedOps
      (.ended (.value (.error ⟨.brokenPipe, "Broken pipe"⟩))) := by
  have hBody : Exec (streamReader 0 3)
      [⟨.readAt 0 3, .ok [1, 2, 3]⟩, ⟨.write [1, 2, 3], .error ⟨.brokenPipe, "Broken pipe"⟩⟩]
      (.value (.error ⟨.brokenPipe, "Broken pipe"⟩)) := by
    unfold streamReader
    rw [if_neg (by omega)]
    exact ⟨.ok [1, 2, 3], _, rfl, .error _, [], rfl, rfl, rfl⟩
  have hRest : Exec
      (attempt (streamReader 0 3) fun () => do
        let _ ← ask .closeShare
        ask .flush : Serve (Except IoError Unit))
      (disconnectedOps.drop 2) (.value (.error ⟨.brokenPipe, "Broken pipe"⟩)) :=
    exec_bind.mpr (.inl ⟨_, _, [], (List.append_nil _).symm, hBody, rfl, rfl⟩)
  apply halts_of_exec
  unfold serve
  rw [ServedBytes.parse_film]
  exact ⟨.ok 3, _, rfl, .ok (), _, rfl, hRest⟩

/-- The response to it. -/
def disconnected : Response ServedBytes.filmUrl "smb://nas/media/film.mp4" none false where
  ops := disconnectedOps
  halt := .ended (.value (.error ⟨.brokenPipe, "Broken pipe"⟩))
  hHalts := halts_disconnected
  hWithin := by
    simp [disconnectedOps, Within]

/-- **A client that goes away takes the handle with it.** -/
theorem handle_lost_on_disconnect :
    0 < handles disconnected.ops ∧ ¬ Released disconnected.ops disconnected.halt := by
  have hHandles : handles disconnected.ops = 1 := rfl
  have hCalls : closeCalls disconnected.ops disconnected.halt = 0 := rfl
  refine ⟨by omega, ?_⟩
  unfold Released
  omega

end CastApp.Media.ShareHandle
