import CastApp.Cast.Framing

/-!
# Segmentation of the encoder's output

The encoder writes fragmented MP4: boxes, each led by its size and its kind.
`Mp4Segmenter` cuts what arrives into one initialization, everything before
the first `moof`, and one fragment for each `moof` with the boxes up to its
`mdat`.  Output that does not parse as boxes is cut at the reads instead.

* `InitFirst` — an initialization is only ever the first segment.
* `feed_initFirst`, `feed_fragments` — what a chunk can yield, before and
  after the initialization is settled.
* `finish_initFirst`, `finish_fragments` — the same for the end of output.
-/

namespace CastApp.Screen.Segments

open CastApp.State
open CastApp.Cast.Framing (fromBeBytes)

/-- The largest box that is buffered. -/
def maxBoxBytes : Nat := 64 * 1024 * 1024

inductive EncodedSegment : Type
  /-- Everything before the first `moof`. -/
  | init (bytes : List Byte)
  /-- A `moof` and the boxes up to its `mdat`, or one read. -/
  | fragment (bytes : List Byte)
  deriving DecidableEq, Repr

namespace EncodedSegment

def bytes : EncodedSegment → List Byte
  | init bytes | fragment bytes => bytes

def isFragment : EncodedSegment → Bool
  | init _ => false
  | fragment _ => true

end EncodedSegment

/-! ## Boxes -/

def moof : List Byte := [0x6D, 0x6F, 0x6F, 0x66]

def mdat : List Byte := [0x6D, 0x64, 0x61, 0x74]

/-- What the bytes not yet parsed begin with. -/
inductive Front : Type
  /-- Less than a header, or than the box it announces. -/
  | incomplete
  /-- A header that no box can have. -/
  | unparseable
  | box (kind bytes rest : List Byte)
  deriving DecidableEq, Repr

/-- The front of bytes whose header announces a box of `total` bytes. -/
def boxFront (pending kind : List Byte) (headerLen total : Nat) : Front :=
  if total < headerLen ∨ total > maxBoxBytes then .unparseable
  else if pending.length < total then .incomplete
  else .box kind (pending.take total) (pending.drop total)

def front (pending : List Byte) : Front :=
  if pending.length < 8 then .incomplete
  else
    let sizeField := fromBeBytes (pending.take 4)
    let kind := (pending.drop 4).take 4
    if sizeField = 0 then .unparseable
    else if sizeField = 1 then
      -- a 64-bit size follows the kind
      if pending.length < 16 then .incomplete
      else boxFront pending kind 16 (fromBeBytes ((pending.drop 8).take 8))
    else if sizeField < 8 then .unparseable
    else boxFront pending kind 8 sizeField

/-! ## The segmenter -/

structure Mp4Segmenter where
  /-- Bytes not yet parsed into boxes. -/
  pending : List Byte
  /-- The initialization being collected. -/
  init : List Byte
  initEmitted : Bool
  /-- The fragment being assembled. -/
  fragment : List Byte
  inFragment : Bool
  /-- The output does not parse as boxes. -/
  isOpaque : Bool
  hOpened : inFragment = true → initEmitted = true
  deriving DecidableEq, Repr

namespace Mp4Segmenter

def new : Mp4Segmenter := ⟨[], [], false, [], false, false, by decide⟩

/-- The initialization, if one was collected and not yet handed out. -/
def pendingInit (s : Mp4Segmenter) : List EncodedSegment :=
  if !s.initEmitted && !s.init.isEmpty then [.init s.init] else []

/-- From here on, cut at the reads. -/
def enterOpaque (s : Mp4Segmenter) : List EncodedSegment × Mp4Segmenter :=
  (s.pendingInit,
    { s with
      pending := []
      init := if s.initEmitted then s.init else []
      fragment := []
      inFragment := false
      isOpaque := true
      hOpened := fun h => nomatch h })

/-- One complete box. -/
def takeBox (s : Mp4Segmenter) (kind bytes : List Byte) : List EncodedSegment × Mp4Segmenter :=
  if kind = moof then
    -- a fragment still open is flushed as it is
    (s.pendingInit ++ (if s.inFragment then [.fragment s.fragment] else []),
      { s with
        init := if s.initEmitted then s.init else []
        initEmitted := true
        fragment := bytes
        inFragment := true
        hOpened := fun _ => rfl })
  else if kind = mdat && s.inFragment then
    ([.fragment (s.fragment ++ bytes)],
      { s with fragment := [], inFragment := false, hOpened := fun h => nomatch h })
  else if s.inFragment then
    ([], { s with fragment := s.fragment ++ bytes })
  else
    ([], { s with init := s.init ++ bytes })

/-- The parsing loop.  A box takes at least its header, so the number of
bytes bounds the turns. -/
def parse : Nat → Mp4Segmenter → List EncodedSegment × Mp4Segmenter
  | 0, s => ([], s)
  | fuel + 1, s =>
      match front s.pending with
      | .incomplete => ([], s)
      | .unparseable => s.enterOpaque
      | .box kind bytes rest =>
          let (out, s) := { s with pending := rest }.takeBox kind bytes
          let (more, s) := parse fuel s
          (out ++ more, s)

/-- The segments completed by a chunk. -/
def feed (s : Mp4Segmenter) (chunk : List Byte) : List EncodedSegment × Mp4Segmenter :=
  if s.isOpaque then
    ([.fragment chunk], s)
  else
    let pending := s.pending ++ chunk
    parse pending.length { s with pending := pending }

/-- The end of the output.  A fragment that was not completed is dropped. -/
def finish (s : Mp4Segmenter) : List EncodedSegment :=
  if s.isOpaque || s.initEmitted then
    []
  else
    let init := s.init ++ s.pending
    if init.isEmpty then [] else [.init init]

/-! ## The initialization leads -/

/-- Whether the initialization has been handed out, or will never be. -/
def InitSettled (s : Mp4Segmenter) : Prop := s.initEmitted = true ∨ s.isOpaque = true

end Mp4Segmenter

/-- Only the first segment may be an initialization. -/
def InitFirst (segments : List EncodedSegment) : Prop :=
  segments.Pairwise fun _ later => later.isFragment = true

theorem initFirst_nil : InitFirst [] := List.Pairwise.nil

/-- Fragments behind anything that keeps the rule. -/
theorem InitFirst.append {segments more : List EncodedSegment} (h : InitFirst segments)
    (hMore : ∀ segment ∈ more, segment.isFragment = true) : InitFirst (segments ++ more) := by
  refine List.pairwise_append.mpr ⟨h, ?_, fun _ _ segment hMem => hMore segment hMem⟩
  exact List.Pairwise.imp_of_mem (fun _ hMem _ => hMore _ hMem)
    (List.pairwise_of_forall (R := fun _ _ => True) fun _ _ => trivial)

namespace Mp4Segmenter

variable {s : Mp4Segmenter}

theorem pendingInit_of_emitted (h : s.initEmitted = true) : s.pendingInit = [] := by
  unfold pendingInit
  rw [h]
  rfl

theorem initFirst_pendingInit : InitFirst s.pendingInit := by
  unfold pendingInit
  split
  · exact List.pairwise_singleton _ _
  · exact initFirst_nil

/-- What a box can yield once the initialization is handed out. -/
theorem takeBox_fragments (hSettled : s.initEmitted = true) (kind bytes : List Byte) :
    (∀ segment ∈ (s.takeBox kind bytes).1, segment.isFragment = true) ∧
      (s.takeBox kind bytes).2.initEmitted = true := by
  unfold takeBox
  split
  · rw [pendingInit_of_emitted hSettled]
    refine ⟨?_, rfl⟩
    split
    · simp [EncodedSegment.isFragment]
    · simp
  · split
    · exact ⟨by simp [EncodedSegment.isFragment], hSettled⟩
    · split
      · exact ⟨by simp, hSettled⟩
      · exact ⟨by simp, hSettled⟩

/-- A box that yields something settles the initialization. -/
theorem takeBox_initFirst (kind bytes : List Byte) :
    InitFirst (s.takeBox kind bytes).1 ∧
      ((s.takeBox kind bytes).1 ≠ [] → (s.takeBox kind bytes).2.initEmitted = true) := by
  have hOpened := s.hOpened
  unfold takeBox
  split
  · refine ⟨initFirst_pendingInit.append ?_, fun _ => rfl⟩
    split
    · simp [EncodedSegment.isFragment]
    · simp
  · split
    · rename_i hMdat
      rw [Bool.and_eq_true] at hMdat
      exact ⟨List.pairwise_singleton _ _, fun _ => hOpened hMdat.2⟩
    · split
      · exact ⟨initFirst_nil, fun h => absurd rfl h⟩
      · exact ⟨initFirst_nil, fun h => absurd rfl h⟩

theorem parse_fragments (fuel : Nat) (hSettled : s.initEmitted = true) :
    (∀ segment ∈ (parse fuel s).1, segment.isFragment = true) ∧
      (parse fuel s).2.initEmitted = true := by
  induction fuel generalizing s with
  | zero => exact ⟨by simp [parse], hSettled⟩
  | succ fuel ih =>
      unfold parse
      split
      · exact ⟨by simp, hSettled⟩
      · refine ⟨?_, hSettled⟩
        unfold enterOpaque
        rw [pendingInit_of_emitted hSettled]
        simp
      · rename_i kind bytes rest hFront
        obtain ⟨hHere, hEmitted⟩ :=
          @takeBox_fragments { s with pending := rest } hSettled kind bytes
        obtain ⟨hMore, hStill⟩ := ih hEmitted
        refine ⟨?_, hStill⟩
        intro segment hMem
        rcases List.mem_append.mp hMem with hMem | hMem
        · exact hHere segment hMem
        · exact hMore segment hMem

theorem parse_initFirst (fuel : Nat) :
    InitFirst (parse fuel s).1 ∧ ((parse fuel s).1 ≠ [] → (parse fuel s).2.InitSettled) := by
  induction fuel generalizing s with
  | zero => exact ⟨initFirst_nil, fun h => absurd rfl h⟩
  | succ fuel ih =>
      unfold parse
      split
      · exact ⟨initFirst_nil, fun h => absurd rfl h⟩
      · exact ⟨initFirst_pendingInit, fun _ => .inr rfl⟩
      · rename_i kind bytes rest hFront
        obtain ⟨hHere, hEmitted⟩ := @takeBox_initFirst { s with pending := rest } kind bytes
        by_cases hNone : ({ s with pending := rest }.takeBox kind bytes).1 = []
        · obtain ⟨hMore, hSettled⟩ := @ih ({ s with pending := rest }.takeBox kind bytes).2
          simp only [hNone, List.nil_append]
          exact ⟨hMore, hSettled⟩
        · obtain ⟨hMore, hStill⟩ := parse_fragments fuel (hEmitted hNone)
          exact ⟨hHere.append hMore, fun _ => .inl hStill⟩

/-- Once the initialization is settled a chunk yields fragments only. -/
theorem feed_fragments (hSettled : s.InitSettled) (chunk : List Byte) :
    (∀ segment ∈ (s.feed chunk).1, segment.isFragment = true) ∧
      (s.feed chunk).2.InitSettled := by
  unfold feed
  split
  · rename_i hOpaque
    exact ⟨by simp [EncodedSegment.isFragment], .inr hOpaque⟩
  · rename_i hOpaque
    obtain ⟨hFragments, hEmitted⟩ := parse_fragments (s.pending ++ chunk).length
      (s := { s with pending := s.pending ++ chunk }) (hSettled.resolve_right hOpaque)
    exact ⟨hFragments, .inl hEmitted⟩

/-- A chunk yields an initialization first or not at all, and whatever it
yields settles it. -/
theorem feed_initFirst (chunk : List Byte) :
    InitFirst (s.feed chunk).1 ∧ ((s.feed chunk).1 ≠ [] → (s.feed chunk).2.InitSettled) := by
  unfold feed
  split
  · rename_i hOpaque
    exact ⟨List.pairwise_singleton _ _, fun _ => .inr hOpaque⟩
  · exact parse_initFirst _

theorem finish_fragments (hSettled : s.InitSettled) : s.finish = [] := by
  unfold finish
  rw [if_pos]
  rcases hSettled with h | h
  · rw [h, Bool.or_true]
  · rw [h, Bool.true_or]

theorem finish_initFirst : InitFirst s.finish := by
  unfold finish
  split
  · exact initFirst_nil
  · by_cases hEmpty : (s.init ++ s.pending).isEmpty
    · rw [if_pos hEmpty]
      exact initFirst_nil
    · rw [if_neg hEmpty]
      exact List.pairwise_singleton _ _

end Mp4Segmenter

end CastApp.Screen.Segments
