import CastApp.Screen.Segments

/-!
# Segmentation of a box stream

What the segmenter makes of a stream that is a sequence of well-formed boxes,
possibly with one more under way, however the stream is cut into reads.  The
reads do not matter: the segmenter takes exactly the boxes, one after another.
So the question is what becomes of each box.  Before the first `moof` it is
part of the initialization, from a `moof` to its `mdat` it is part of the
fragment, and anywhere else it joins the initialization that has already been
handed out.

* `segments_boxes` — the reads do not matter.
* `bytes_takeBoxes` — what a sequence of boxes yields, by length: every box
  but the strays.
* `segments_lossless` — without strays, nothing of the stream is lost but the
  part that was never completed.
-/

namespace CastApp.Screen.Segments

open CastApp.State
open CastApp.Cast.Framing (fromBeBytes)

/-! ## Boxes -/

/-- A box of a kind, with its size in 32 or in 64 bits. -/
inductive IsBox (kind bytes : List Byte) : Prop
  | size32 (hKind : (bytes.drop 4).take 4 = kind) (hHeader : 8 ≤ bytes.length)
      (hSize : fromBeBytes (bytes.take 4) = bytes.length) (hMax : bytes.length ≤ maxBoxBytes)
  | size64 (hKind : (bytes.drop 4).take 4 = kind) (hHeader : 16 ≤ bytes.length)
      (hExtended : fromBeBytes (bytes.take 4) = 1)
      (hSize : fromBeBytes ((bytes.drop 8).take 8) = bytes.length)
      (hMax : bytes.length ≤ maxBoxBytes)

/-- A well-formed box. -/
structure Mp4Box where
  kind : List Byte
  bytes : List Byte
  hBox : IsBox kind bytes

theorem IsBox.header {kind bytes : List Byte} (h : IsBox kind bytes) : 8 ≤ bytes.length := by
  cases h with
  | size32 _ hHeader => exact hHeader
  | size64 _ hHeader => omega

/-- The kind is read from the header, whatever follows it. -/
theorem kind_append {bytes rest : List Byte} (h : 8 ≤ bytes.length) :
    ((bytes ++ rest).drop 4).take 4 = (bytes.drop 4).take 4 := by
  rw [List.drop_append_of_le_length (by omega), List.take_append_of_le_length]
  simp
  omega

theorem large_append {bytes rest : List Byte} (h : 16 ≤ bytes.length) :
    ((bytes ++ rest).drop 8).take 8 = (bytes.drop 8).take 8 := by
  rw [List.drop_append_of_le_length (by omega), List.take_append_of_le_length]
  simp
  omega

theorem boxFront_append {bytes rest kind : List Byte} {headerLen : Nat}
    (hHeader : headerLen ≤ bytes.length) (hMax : bytes.length ≤ maxBoxBytes) :
    boxFront (bytes ++ rest) kind headerLen bytes.length = .box kind bytes rest := by
  unfold boxFront
  rw [if_neg (by omega), if_neg (by simp)]
  simp

/-- A box at the front is found. -/
theorem IsBox.front {kind bytes : List Byte} (h : IsBox kind bytes) (rest : List Byte) :
    front (bytes ++ rest) = .box kind bytes rest := by
  have hLength : ¬ (bytes ++ rest).length < 8 := by
    have := h.header
    simp only [List.length_append]
    omega
  unfold Segments.front
  rw [if_neg hLength]
  cases h with
  | size32 hKind hHeader hSize hMax =>
      have hField : (bytes ++ rest).take 4 = bytes.take 4 :=
        List.take_append_of_le_length (by omega)
      simp only [hField, hSize, kind_append hHeader, hKind]
      rw [if_neg (by omega), if_neg (by omega), if_neg (by omega)]
      exact boxFront_append hHeader hMax
  | size64 hKind hHeader hExtended hSize hMax =>
      have hField : (bytes ++ rest).take 4 = bytes.take 4 :=
        List.take_append_of_le_length (by omega)
      have hLarge : ¬ (bytes ++ rest).length < 16 := by
        simp only [List.length_append]
        omega
      have hKindAppend : ((bytes ++ rest).drop 4).take 4 = (bytes.drop 4).take 4 :=
        kind_append (by omega)
      simp only [hField, hExtended, hKindAppend, hKind, large_append hHeader, hSize]
      rw [if_neg (by omega), if_pos trivial, if_neg hLarge]
      exact boxFront_append hHeader hMax

/-- The first bytes of a box, short of all of it. -/
def Incomplete (bytes : List Byte) : Prop :=
  ∃ (box : Mp4Box) (missing : List Byte), missing ≠ [] ∧ box.bytes = bytes ++ missing

theorem boxFront_incomplete {bytes missing kind : List Byte} {headerLen : Nat}
    (hMissing : missing ≠ []) (hHeader : headerLen ≤ (bytes ++ missing).length)
    (hMax : (bytes ++ missing).length ≤ maxBoxBytes) :
    boxFront bytes kind headerLen (bytes ++ missing).length = .incomplete := by
  have hPos : 0 < missing.length := List.length_pos_iff.mpr hMissing
  simp only [List.length_append] at hHeader hMax ⊢
  unfold boxFront
  rw [if_neg (by omega), if_pos (by omega)]

theorem Incomplete.front {bytes : List Byte} (h : Incomplete bytes) :
    front bytes = .incomplete := by
  obtain ⟨⟨kind, whole, hBox⟩, missing, hMissing, rfl⟩ := h
  unfold Segments.front
  by_cases hShort : bytes.length < 8
  · rw [if_pos hShort]
  · rw [if_neg hShort]
    cases hBox with
    | size32 hKind hHeader hSize hMax =>
        rw [List.take_append_of_le_length (by omega)] at hSize
        simp only [hSize]
        rw [if_neg (by omega), if_neg (by omega), if_neg (by omega)]
        exact boxFront_incomplete hMissing hHeader hMax
    | size64 hKind hHeader hExtended hSize hMax =>
        rw [List.take_append_of_le_length (by omega)] at hExtended
        simp only [hExtended]
        rw [if_neg (by omega), if_pos trivial]
        by_cases hLarge : bytes.length < 16
        · rw [if_pos hLarge]
        · rw [if_neg hLarge]
          rw [large_append (by omega)] at hSize
          rw [hSize]
          exact boxFront_incomplete hMissing hHeader hMax

namespace Mp4Segmenter

variable {s : Mp4Segmenter}

/-! ## The reads do not matter -/

/-- The segmenter with other bytes left to parse. -/
def withPending (s : Mp4Segmenter) (pending : List Byte) : Mp4Segmenter :=
  { s with pending := pending }

@[simp] theorem withPending_pending (pending : List Byte) :
    (s.withPending pending).pending = pending := rfl

@[simp] theorem withPending_isOpaque (pending : List Byte) :
    (s.withPending pending).isOpaque = s.isOpaque := rfl

@[simp] theorem withPending_withPending (first pending : List Byte) :
    (s.withPending first).withPending pending = s.withPending pending := rfl

@[simp] theorem withPending_self : s.withPending s.pending = s := rfl

theorem takeBox_moof (bytes : List Byte) :
    s.takeBox moof bytes =
      (s.pendingInit ++ (if s.inFragment then [.fragment s.fragment] else []),
        { s with
          init := if s.initEmitted then s.init else []
          initEmitted := true
          fragment := bytes
          inFragment := true
          hOpened := fun _ => rfl }) := if_pos rfl

/-- The end of a fragment. -/
theorem takeBox_mdat (bytes : List Byte) (hInside : s.inFragment = true) :
    s.takeBox mdat bytes =
      ([.fragment (s.fragment ++ bytes)],
        { s with fragment := [], inFragment := false, hOpened := fun h => nomatch h }) := by
  unfold takeBox
  rw [if_neg (by decide), if_pos (by simp [hInside])]

/-- A box within a fragment. -/
theorem takeBox_inside {kind : List Byte} (bytes : List Byte) (hMoof : kind ≠ moof)
    (hMdat : kind ≠ mdat) (hInside : s.inFragment = true) :
    s.takeBox kind bytes = ([], { s with fragment := s.fragment ++ bytes }) := by
  unfold takeBox
  rw [if_neg hMoof, if_neg (by simp [hMdat]), if_pos hInside]

/-- A box outside any fragment. -/
theorem takeBox_outside {kind : List Byte} (bytes : List Byte) (hMoof : kind ≠ moof)
    (hOutside : s.inFragment = false) :
    s.takeBox kind bytes = ([], { s with init := s.init ++ bytes }) := by
  unfold takeBox
  rw [if_neg hMoof, if_neg (by simp [hOutside]), if_neg (by simp [hOutside])]

/-- What is left unparsed is of no concern to a box. -/
@[simp] theorem takeBox_withPending (kind bytes pending : List Byte) :
    (s.withPending pending).takeBox kind bytes =
      ((s.takeBox kind bytes).1, (s.takeBox kind bytes).2.withPending pending) := by
  by_cases hMoof : kind = moof
  · subst hMoof
    rw [takeBox_moof (s := s.withPending pending), takeBox_moof]
    rfl
  · cases hInside : s.inFragment with
    | false =>
        rw [takeBox_outside (s := s.withPending pending) bytes hMoof hInside,
          takeBox_outside bytes hMoof hInside]
        rfl
    | true =>
        by_cases hMdat : kind = mdat
        · subst hMdat
          rw [takeBox_mdat (s := s.withPending pending) bytes hInside, takeBox_mdat bytes hInside]
          rfl
        · rw [takeBox_inside (s := s.withPending pending) bytes hMoof hMdat hInside,
            takeBox_inside bytes hMoof hMdat hInside]
          rfl

/-- A turn of the parsing loop that finds a box. -/
theorem parse_box {kind bytes rest : List Byte} (hFront : front s.pending = .box kind bytes rest)
    (fuel : Nat) :
    parse (fuel + 1) s =
      ((s.takeBox kind bytes).1 ++ (parse fuel ((s.takeBox kind bytes).2.withPending rest)).1,
        (parse fuel ((s.takeBox kind bytes).2.withPending rest)).2) := by
  rw [parse, hFront]
  have hTake := takeBox_withPending (s := s) kind bytes rest
  unfold withPending at hTake
  simp only [hTake]
  rfl

theorem parse_incomplete (hFront : front s.pending = .incomplete) (fuel : Nat) :
    parse fuel s = ([], s) := by
  cases fuel with
  | zero => rfl
  | succ fuel => simp [parse, hFront]

/-- One box after another. -/
def takeBoxes (s : Mp4Segmenter) : List Mp4Box → List EncodedSegment × Mp4Segmenter
  | [] => ([], s)
  | box :: boxes =>
      let (out, s) := s.takeBox box.kind box.bytes
      let (more, s) := s.takeBoxes boxes
      (out ++ more, s)

@[simp] theorem takeBoxes_withPending (boxes : List Mp4Box) (pending : List Byte) :
    (s.withPending pending).takeBoxes boxes =
      ((s.takeBoxes boxes).1, (s.takeBoxes boxes).2.withPending pending) := by
  induction boxes generalizing s with
  | nil => rfl
  | cons box boxes ih => simp [takeBoxes, ih]

theorem takeBoxes_append (boxes more : List Mp4Box) :
    s.takeBoxes (boxes ++ more) =
      ((s.takeBoxes boxes).1 ++ ((s.takeBoxes boxes).2.takeBoxes more).1,
        ((s.takeBoxes boxes).2.takeBoxes more).2) := by
  induction boxes generalizing s with
  | nil => simp [takeBoxes]
  | cons box boxes ih => simp [takeBoxes, ih]

/-- The reads of a stream, one after another. -/
def feedAll (s : Mp4Segmenter) : List (List Byte) → List EncodedSegment × Mp4Segmenter
  | [] => ([], s)
  | chunk :: chunks =>
      let (out, s) := s.feed chunk
      let (more, s) := s.feedAll chunks
      (out ++ more, s)

/-- Everything a segmenter hands out for a stream read in these chunks. -/
def segments (chunks : List (List Byte)) : List EncodedSegment :=
  (new.feedAll chunks).1 ++ (new.feedAll chunks).2.finish

end Mp4Segmenter

/-- The bytes of a sequence of boxes. -/
def boxBytes (boxes : List Mp4Box) : List Byte := boxes.flatMap Mp4Box.bytes

/-- The bytes of a sequence of segments. -/
def segmentBytes (segments : List EncodedSegment) : List Byte :=
  segments.flatMap EncodedSegment.bytes

@[simp] theorem boxBytes_nil : boxBytes [] = [] := rfl

@[simp] theorem boxBytes_cons (box : Mp4Box) (boxes : List Mp4Box) :
    boxBytes (box :: boxes) = box.bytes ++ boxBytes boxes := rfl

@[simp] theorem boxBytes_append (boxes more : List Mp4Box) :
    boxBytes (boxes ++ more) = boxBytes boxes ++ boxBytes more := List.flatMap_append

@[simp] theorem segmentBytes_nil : segmentBytes [] = [] := rfl

@[simp] theorem segmentBytes_cons (segment : EncodedSegment) (segments : List EncodedSegment) :
    segmentBytes (segment :: segments) = segment.bytes ++ segmentBytes segments := rfl

@[simp] theorem segmentBytes_append (segments more : List EncodedSegment) :
    segmentBytes (segments ++ more) = segmentBytes segments ++ segmentBytes more :=
  List.flatMap_append

namespace Mp4Segmenter

variable {s : Mp4Segmenter}

/-- A list short of the first part of another that goes on like it. -/
theorem short_of_append {read later whole more : List Byte} (h : read ++ later = whole ++ more)
    (hShort : read.length < whole.length) : ∃ missing, missing ≠ [] ∧ whole = read ++ missing := by
  refine ⟨whole.drop read.length, ?_, ?_⟩
  · simp only [ne_eq, List.drop_eq_nil_iff]
    omega
  · have hTake := congrArg (List.take read.length) h
    rw [List.take_left, List.take_append_of_le_length (by omega)] at hTake
    conv => rhs; lhs; rw [hTake]
    exact (List.take_append_drop _ _).symm

/-- A list that has all of the first part. -/
theorem full_of_append {read later whole more : List Byte} (h : read ++ later = whole ++ more)
    (hFull : whole.length ≤ read.length) :
    ∃ pending, read = whole ++ pending ∧ pending ++ later = more := by
  have hTake := congrArg (List.take whole.length) h
  rw [List.take_left, List.take_append_of_le_length hFull] at hTake
  have hRead : read = whole ++ read.drop whole.length := by
    conv => rhs; lhs; rw [← hTake]
    exact (List.take_append_drop _ _).symm
  refine ⟨read.drop whole.length, hRead, ?_⟩
  rw [hRead, List.append_assoc] at h
  exact List.append_cancel_left h

/-- The parsing loop takes the boxes that are complete and stops at the one
that is not.  `later` is what has not been read. -/
theorem parse_boxes {tail : List Byte} (hTail : Incomplete tail) (boxes : List Mp4Box)
    (later : List Byte) (fuel : Nat) (hStream : s.pending ++ later = boxBytes boxes ++ tail)
    (hFuel : s.pending.length ≤ fuel) :
    ∃ done rest pending, boxes = done ++ rest ∧ pending ++ later = boxBytes rest ++ tail ∧
      front pending = .incomplete ∧
      parse fuel s = ((s.takeBoxes done).1, (s.takeBoxes done).2.withPending pending) := by
  induction boxes generalizing s fuel with
  | nil =>
      -- all that is left is the start of the tail
      have hFront : front s.pending = .incomplete := by
        obtain ⟨box, missing, hMissing, hBox⟩ := hTail
        simp only [boxBytes_nil, List.nil_append] at hStream
        refine Incomplete.front ⟨box, later ++ missing, by simp [hMissing], ?_⟩
        rw [hBox, ← hStream, List.append_assoc]
      exact ⟨[], [], s.pending, rfl, hStream, hFront, parse_incomplete hFront fuel⟩
  | cons box boxes ih =>
      rw [boxBytes_cons, List.append_assoc] at hStream
      by_cases hShort : s.pending.length < box.bytes.length
      · -- the box is not complete
        obtain ⟨missing, hMissing, hWhole⟩ := short_of_append hStream hShort
        have hFront : front s.pending = .incomplete :=
          Incomplete.front ⟨box, missing, hMissing, hWhole⟩
        refine ⟨[], box :: boxes, s.pending, rfl, ?_, hFront, parse_incomplete hFront fuel⟩
        rw [hStream, boxBytes_cons, List.append_assoc]
      · -- it is, and is taken
        obtain ⟨pending, hPending, hRest⟩ := full_of_append hStream (by omega)
        have hHeader := box.hBox.header
        have hLength : s.pending.length = box.bytes.length + pending.length := by simp [hPending]
        obtain ⟨fuel, rfl⟩ : ∃ turns, fuel = turns + 1 := ⟨fuel - 1, by omega⟩
        obtain ⟨done, rest, left, rfl, hLeft, hFront, hParse⟩ :=
          ih (s := (s.takeBox box.kind box.bytes).2.withPending pending) fuel hRest
            (by simp only [withPending_pending]; omega)
        refine ⟨box :: done, rest, left, rfl, hLeft, hFront, ?_⟩
        rw [parse_box (hPending ▸ box.hBox.front pending), hParse]
        simp [takeBoxes]

theorem takeBox_isOpaque (kind bytes : List Byte) :
    (s.takeBox kind bytes).2.isOpaque = s.isOpaque := by
  unfold takeBox
  split
  · rfl
  · split
    · rfl
    · split
      · rfl
      · rfl

theorem takeBoxes_isOpaque (boxes : List Mp4Box) : (s.takeBoxes boxes).2.isOpaque = s.isOpaque := by
  induction boxes generalizing s with
  | nil => rfl
  | cons box boxes ih => simp only [takeBoxes, ih, takeBox_isOpaque]

/-- Whatever the reads, the segmenter takes the boxes of the stream. -/
theorem feedAll_boxes {tail : List Byte} (hTail : Incomplete tail) (chunks : List (List Byte))
    (boxes : List Mp4Box) (hOpaque : s.isOpaque = false) (hFront : front s.pending = .incomplete)
    (hStream : s.pending ++ chunks.flatten = boxBytes boxes ++ tail) :
    s.feedAll chunks = ((s.takeBoxes boxes).1, (s.takeBoxes boxes).2.withPending tail) := by
  induction chunks generalizing s boxes with
  | nil =>
      simp only [List.flatten_nil, List.append_nil] at hStream
      cases boxes with
      | nil =>
          simp only [boxBytes_nil, List.nil_append] at hStream
          simp [feedAll, takeBoxes, ← hStream]
      | cons box boxes =>
          rw [hStream, boxBytes_cons, List.append_assoc, box.hBox.front] at hFront
          cases hFront
  | cons chunk chunks ih =>
      rw [List.flatten_cons, ← List.append_assoc] at hStream
      obtain ⟨done, rest, pending, rfl, hRest, hLeft, hParse⟩ :=
        parse_boxes (s := s.withPending (s.pending ++ chunk)) hTail boxes chunks.flatten
          (s.pending ++ chunk).length hStream (Nat.le_refl _)
      have hFeed : s.feed chunk = ((s.takeBoxes done).1, (s.takeBoxes done).2.withPending pending) := by
        unfold feed
        rw [if_neg (by simp [hOpaque])]
        exact hParse.trans (by simp)
      have hMore := ih (s := (s.takeBoxes done).2.withPending pending) rest
        (by simp [takeBoxes_isOpaque, hOpaque]) hLeft hRest
      simp [feedAll, hFeed, hMore, takeBoxes_append]

/-- **The reads of a box stream do not matter.** -/
theorem segments_boxes {tail : List Byte} (hTail : Incomplete tail) {chunks : List (List Byte)}
    {boxes : List Mp4Box} (hStream : chunks.flatten = boxBytes boxes ++ tail) :
    segments chunks =
      (new.takeBoxes boxes).1 ++ ((new.takeBoxes boxes).2.withPending tail).finish := by
  unfold segments
  rw [feedAll_boxes (s := new) hTail chunks boxes rfl rfl hStream]

/-! ## What becomes of each box -/

end Mp4Segmenter

/-- No box ends an open fragment. -/
def StaysOpen (boxes : List Mp4Box) : Prop := ∀ b ∈ boxes, b.kind ≠ moof ∧ b.kind ≠ mdat

instance (boxes : List Mp4Box) : Decidable (StaysOpen boxes) :=
  inferInstanceAs (Decidable (∀ b ∈ boxes, b.kind ≠ moof ∧ b.kind ≠ mdat))

/-- The boxes ahead of the last `moof`, where its `mdat` has not come. -/
def settled : List Mp4Box → List Mp4Box
  | [] => []
  | box :: boxes =>
      if box.kind = moof ∧ StaysOpen boxes then [] else box :: settled boxes

theorem settled_open {box : Mp4Box} {boxes : List Mp4Box} (hMoof : box.kind = moof)
    (hOpen : StaysOpen boxes) : settled (box :: boxes) = [] := if_pos ⟨hMoof, hOpen⟩

theorem settled_cons {box : Mp4Box} {boxes : List Mp4Box}
    (h : ¬ (box.kind = moof ∧ StaysOpen boxes)) : settled (box :: boxes) = box :: settled boxes :=
  if_neg h

/-- The boxes outside a fragment, of those behind the first `moof`. -/
def strays (inFragment : Bool) : List Mp4Box → List Mp4Box
  | [] => []
  | box :: boxes =>
      if inFragment then strays (box.kind ≠ mdat) boxes
      else if box.kind = moof then strays true boxes
      else box :: strays false boxes

/-- The boxes within a fragment, of those behind the first `moof`. -/
def kept (inFragment : Bool) : List Mp4Box → List Mp4Box
  | [] => []
  | box :: boxes =>
      if inFragment then box :: kept (box.kind ≠ mdat) boxes
      else if box.kind = moof then box :: kept true boxes
      else kept false boxes

section Routing

variable {box : Mp4Box} {boxes : List Mp4Box} {inFragment : Bool}

theorem opens_of_moof (hMoof : box.kind = moof) : decide (box.kind ≠ mdat) = true := by
  rw [hMoof]
  decide

theorem strays_moof (hMoof : box.kind = moof) :
    strays inFragment (box :: boxes) = strays true boxes := by
  cases inFragment with
  | false => simp [strays, hMoof]
  | true => rw [strays, if_pos rfl, opens_of_moof hMoof]

theorem strays_inside : strays true (box :: boxes) = strays (box.kind ≠ mdat) boxes := rfl

theorem strays_outside (hMoof : box.kind ≠ moof) :
    strays false (box :: boxes) = box :: strays false boxes := by simp [strays, hMoof]

theorem kept_moof (hMoof : box.kind = moof) :
    kept inFragment (box :: boxes) = box :: kept true boxes := by
  cases inFragment with
  | false => simp [kept, hMoof]
  | true => rw [kept, if_pos rfl, opens_of_moof hMoof]

theorem kept_inside : kept true (box :: boxes) = box :: kept (box.kind ≠ mdat) boxes := rfl

theorem kept_outside (hMoof : box.kind ≠ moof) : kept false (box :: boxes) = kept false boxes := by
  simp [kept, hMoof]

/-- An open fragment has no strays behind it. -/
theorem strays_staysOpen (hOpen : StaysOpen boxes) : strays true boxes = [] := by
  induction boxes with
  | nil => rfl
  | cons box boxes ih =>
      obtain ⟨⟨-, hMdat⟩, hRest⟩ := List.forall_mem_cons.mp hOpen
      rw [strays_inside, decide_eq_true hMdat, ih hRest]

/-- No stray is behind a last `moof` without its `mdat`. -/
theorem strays_settled (inFragment : Bool) (boxes : List Mp4Box) :
    strays inFragment (settled boxes) = strays inFragment boxes := by
  induction boxes generalizing inFragment with
  | nil => rfl
  | cons box boxes ih =>
      by_cases hCut : box.kind = moof ∧ StaysOpen boxes
      · rw [settled_open hCut.1 hCut.2, strays_moof hCut.1, strays_staysOpen hCut.2]
        rfl
      · rw [settled_cons hCut]
        simp only [strays, ih]

/-- Every box is kept or a stray. -/
theorem length_kept_strays (inFragment : Bool) (boxes : List Mp4Box) :
    (boxBytes (kept inFragment boxes)).length + (boxBytes (strays inFragment boxes)).length =
      (boxBytes boxes).length := by
  induction boxes generalizing inFragment with
  | nil => rfl
  | cons box boxes ih =>
      by_cases hMoof : box.kind = moof
      · rw [kept_moof hMoof, strays_moof hMoof]
        simp only [boxBytes_cons, List.length_append, ← ih true]
        omega
      · cases inFragment with
        | true =>
            rw [kept_inside, strays_inside]
            simp only [boxBytes_cons, List.length_append, ← ih (box.kind ≠ mdat)]
            omega
        | false =>
            rw [kept_outside hMoof, strays_outside hMoof]
            simp only [boxBytes_cons, List.length_append, ← ih false]
            omega

theorem kept_of_no_strays (hStrays : strays inFragment boxes = []) :
    kept inFragment boxes = boxes := by
  induction boxes generalizing inFragment with
  | nil => rfl
  | cons box boxes ih =>
      by_cases hMoof : box.kind = moof
      · rw [strays_moof hMoof] at hStrays
        rw [kept_moof hMoof, ih hStrays]
      · cases inFragment with
        | true => rw [kept_inside, ih hStrays]
        | false =>
            rw [strays_outside hMoof] at hStrays
            cases hStrays

theorem boxBytes_eq_nil : boxBytes boxes = [] ↔ boxes = [] := by
  cases boxes with
  | nil => simp
  | cons box boxes =>
      have hHeader := box.hBox.header
      have hBytes : box.bytes ≠ [] := by
        intro h
        simp [h] at hHeader
      simp [hBytes]

/-- Only strays are missing from what is kept. -/
theorem boxBytes_kept_iff :
    boxBytes (kept inFragment boxes) = boxBytes boxes ↔ strays inFragment boxes = [] := by
  constructor
  · intro h
    have hLength := length_kept_strays inFragment boxes
    rw [h] at hLength
    exact boxBytes_eq_nil.mp (List.length_eq_zero_iff.mp (by omega))
  · intro h
    rw [kept_of_no_strays h]

end Routing

/-- The boxes from the first `moof` on. -/
def fromMoof : List Mp4Box → List Mp4Box
  | [] => []
  | box :: boxes => if box.kind = moof then box :: boxes else fromMoof boxes

namespace Mp4Segmenter

variable {s : Mp4Segmenter}

/-- An open fragment that no box ends yields nothing. -/
theorem takeBoxes_open {boxes : List Mp4Box} (hInside : s.inFragment = true)
    (hOpen : StaysOpen boxes) : (s.takeBoxes boxes).1 = [] := by
  induction boxes generalizing s with
  | nil => rfl
  | cons box boxes ih =>
      obtain ⟨⟨hMoof, hMdat⟩, hRest⟩ := List.forall_mem_cons.mp hOpen
      simp only [takeBoxes, takeBox_inside box.bytes hMoof hMdat hInside, List.nil_append]
      exact ih hInside hRest

/-- A fragment a `moof` opens, with the boxes behind it. -/
theorem takeBoxes_opened {bytes : List Byte} {boxes : List Mp4Box} (hBox : IsBox moof bytes)
    (hRest : ¬ StaysOpen boxes → segmentBytes ((s.takeBox moof bytes).2.takeBoxes boxes).1 =
      bytes ++ boxBytes (kept true (settled boxes))) (inFragment : Bool) :
    segmentBytes ((s.takeBox moof bytes).2.takeBoxes boxes).1 =
      boxBytes (kept inFragment (settled (⟨moof, bytes, hBox⟩ :: boxes))) := by
  by_cases hOpen : StaysOpen boxes
  · rw [settled_open rfl hOpen, takeBoxes_open (by rw [takeBox_moof]) hOpen]
    rfl
  · rw [settled_cons (fun h => hOpen h.2), kept_moof rfl, hRest hOpen]
    rfl

/-- What an open fragment yields with the boxes behind it once one ends it,
and what those outside a fragment yield: every box but the strays, up to a
last `moof` without its `mdat`. -/
theorem takeBoxes_kept (boxes : List Mp4Box) (s : Mp4Segmenter) (hEmitted : s.initEmitted = true) :
    (s.inFragment = true → ¬ StaysOpen boxes →
      segmentBytes (s.takeBoxes boxes).1 = s.fragment ++ boxBytes (kept true (settled boxes))) ∧
    (s.inFragment = false →
      segmentBytes (s.takeBoxes boxes).1 = boxBytes (kept false (settled boxes))) := by
  induction boxes generalizing s with
  | nil =>
      refine ⟨fun _ hEnds => ?_, fun _ => rfl⟩
      simp [StaysOpen] at hEnds
  | cons box boxes ih =>
      obtain ⟨kind, bytes, hBox⟩ := box
      by_cases hMoof : kind = moof
      · subst hMoof
        have hInit : s.pendingInit = [] := pendingInit_of_emitted hEmitted
        have hOpened := fun inFragment =>
          takeBoxes_opened (s := s) hBox ((ih (s.takeBox moof bytes).2 rfl).1 rfl) inFragment
        simp only [takeBoxes, segmentBytes_append]
        constructor
        · intro hInside _
          rw [hOpened true, takeBox_moof, hInit]
          simp [hInside, EncodedSegment.bytes]
        · intro hOutside
          rw [hOpened false, takeBox_moof, hInit]
          simp [hOutside]
      · rw [settled_cons (fun h => hMoof h.1)]
        simp only [takeBoxes, segmentBytes_append]
        cases hInside : s.inFragment with
        | false =>
            -- a stray, which the initialization swallows
            have hTake := takeBox_outside (s := s) bytes hMoof hInside
            have hRest := (ih (s.takeBox kind bytes).2 (by rw [hTake]; exact hEmitted)).2
              (by rw [hTake]; exact hInside)
            refine ⟨nofun, fun _ => ?_⟩
            rw [hRest, kept_outside hMoof, hTake]
            rfl
        | true =>
            refine ⟨fun _ hEnds => ?_, nofun⟩
            rw [kept_inside, boxBytes_cons]
            by_cases hMdat : kind = mdat
            · subst hMdat
              have hTake := takeBox_mdat (s := s) bytes hInside
              have hRest := (ih (s.takeBox mdat bytes).2 (by rw [hTake]; exact hEmitted)).2
                (by rw [hTake])
              rw [hRest, hTake]
              simp [EncodedSegment.bytes]
            · have hOpen : ¬ StaysOpen boxes := by
                simpa [StaysOpen, hMoof, hMdat] using hEnds
              have hTake := takeBox_inside (s := s) bytes hMoof hMdat hInside
              have hRest := (ih (s.takeBox kind bytes).2 (by rw [hTake]; exact hEmitted)).1
                (by rw [hTake]; exact hInside) hOpen
              rw [hRest, hTake]
              simp [hMdat]

/-- Boxes before any `moof` are collected. -/
theorem takeBoxes_init {boxes : List Mp4Box} (hNone : ∀ b ∈ boxes, b.kind ≠ moof)
    (hOutside : s.inFragment = false) :
    s.takeBoxes boxes = ([], { s with init := s.init ++ boxBytes boxes }) := by
  induction boxes generalizing s with
  | nil => simp [takeBoxes]
  | cons box boxes ih =>
      obtain ⟨hMoof, hRest⟩ := List.forall_mem_cons.mp hNone
      have hTake := takeBox_outside (s := s) box.bytes hMoof hOutside
      have hMore := ih (s := { s with init := s.init ++ box.bytes }) hRest hOutside
      simp [takeBoxes, hTake, hMore]

/-- What is collected of a stream without a `moof` is all of it. -/
theorem segmentBytes_init {tail : List Byte} (hTail : Incomplete tail) {chunks : List (List Byte)}
    {boxes : List Mp4Box} (hStream : chunks.flatten = boxBytes boxes ++ tail)
    (hNone : ∀ b ∈ boxes, b.kind ≠ moof) :
    segmentBytes (segments chunks) = boxBytes boxes ++ tail := by
  rw [segments_boxes hTail hStream, takeBoxes_init hNone rfl]
  by_cases hEmpty : boxBytes boxes ++ tail = []
  · simp [finish, withPending, new, hEmpty]
  · have hFinish : ({ new with init := new.init ++ boxBytes boxes }.withPending tail).finish =
        [.init (boxBytes boxes ++ tail)] := by
      unfold finish
      rw [if_neg (by simp [withPending, new])]
      exact if_neg (by simpa [withPending, new] using hEmpty)
    simp [hFinish, EncodedSegment.bytes]

theorem segmentBytes_pendingInit (h : s.initEmitted = false) : segmentBytes s.pendingInit = s.init := by
  unfold pendingInit
  by_cases hEmpty : s.init = []
  · simp [h, hEmpty]
  · simp [h, hEmpty, EncodedSegment.bytes]

theorem takeBoxes_emitted {boxes : List Mp4Box} (hEmitted : s.initEmitted = true) :
    (s.takeBoxes boxes).2.initEmitted = true := by
  induction boxes generalizing s with
  | nil => exact hEmitted
  | cons box boxes ih =>
      simp only [takeBoxes]
      exact ih (takeBox_fragments hEmitted box.kind box.bytes).2

/-- What a stream with a `moof` yields: all before the `moof`, and behind it
every box but the strays, up to a last `moof` without its `mdat`. -/
theorem segmentBytes_moof {tail : List Byte} (hTail : Incomplete tail) {chunks : List (List Byte)}
    {first boxes : List Mp4Box} {bytes : List Byte} {hBox : IsBox moof bytes}
    (hStream : chunks.flatten = boxBytes (first ++ ⟨moof, bytes, hBox⟩ :: boxes) ++ tail)
    (hNone : ∀ b ∈ first, b.kind ≠ moof) :
    segmentBytes (segments chunks) =
      boxBytes first ++ boxBytes (kept false (settled (⟨moof, bytes, hBox⟩ :: boxes))) := by
  rw [segments_boxes hTail hStream, takeBoxes_append, takeBoxes_init hNone rfl]
  generalize hState : ({ new with init := new.init ++ boxBytes first } : Mp4Segmenter) = s
  have hFirst : s.init = boxBytes first := by simp [← hState, new]
  have hEmitted : s.initEmitted = false := by simp [← hState, new]
  have hOutside : s.inFragment = false := by simp [← hState, new]
  have hOpened := takeBoxes_opened (s := s) hBox
    ((takeBoxes_kept boxes (s.takeBox moof bytes).2 rfl).1 rfl) false
  have hFinish : ((s.takeBoxes (⟨moof, bytes, hBox⟩ :: boxes)).2.withPending tail).finish = [] := by
    apply finish_fragments
    left
    exact takeBoxes_emitted (s := (s.takeBox moof bytes).2) rfl
  rw [hFinish]
  simp only [takeBoxes, List.nil_append, List.append_nil, segmentBytes_append, hOpened]
  rw [takeBox_moof]
  simp [hOutside, segmentBytes_pendingInit hEmitted, hFirst]

end Mp4Segmenter

/-! ## Losslessness -/

/-- The stream ahead of a last `moof` without its `mdat`, and that `moof`. -/
theorem settled_spec (boxes : List Mp4Box) :
    (settled boxes = boxes ∧
      ∀ first box after, boxes = first ++ box :: after → box.kind = moof → ¬ StaysOpen after) ∨
    ∃ box after, boxes = settled boxes ++ box :: after ∧ box.kind = moof ∧ StaysOpen after := by
  induction boxes with
  | nil =>
      left
      refine ⟨rfl, fun first box after hSplit => ?_⟩
      simp at hSplit
  | cons box boxes ih =>
      by_cases hCut : box.kind = moof ∧ StaysOpen boxes
      · right
        exact ⟨box, boxes, by rw [settled_open hCut.1 hCut.2]; rfl, hCut.1, hCut.2⟩
      · rw [settled_cons hCut]
        rcases ih with ⟨hAll, hNone⟩ | ⟨cut, after, hSplit, hMoof, hOpen⟩
        · left
          refine ⟨by rw [hAll], fun first b after hSplit hMoof hOpen => ?_⟩
          cases first with
          | nil =>
              obtain ⟨rfl, rfl⟩ := List.cons.inj hSplit
              exact hCut ⟨hMoof, hOpen⟩
          | cons b' first =>
              obtain ⟨rfl, hRest⟩ := List.cons.inj hSplit
              exact hNone first b after hRest hMoof hOpen
        · right
          exact ⟨cut, after, by rw [List.cons_append, ← hSplit], hMoof, hOpen⟩

theorem split_fromMoof {boxes : List Mp4Box} (hMoof : ∃ b ∈ boxes, b.kind = moof) :
    ∃ first bytes rest, ∃ hBox : IsBox moof bytes, (∀ b ∈ first, b.kind ≠ moof) ∧
      boxes = first ++ ⟨moof, bytes, hBox⟩ :: rest ∧ fromMoof boxes = ⟨moof, bytes, hBox⟩ :: rest := by
  induction boxes with
  | nil => simp at hMoof
  | cons box boxes ih =>
      by_cases hHead : box.kind = moof
      · obtain ⟨kind, bytes, hBox⟩ := box
        subst hHead
        exact ⟨[], bytes, boxes, hBox, by simp, rfl, if_pos rfl⟩
      · obtain ⟨first, bytes, rest, hBox, hNone, hSplit, hFrom⟩ := ih (by simpa [hHead] using hMoof)
        refine ⟨box :: first, bytes, rest, hBox, ?_, by rw [hSplit]; rfl, ?_⟩
        · simpa [hHead] using hNone
        · rw [fromMoof, if_neg hHead, hFrom]

theorem settled_append {first boxes : List Mp4Box} (hNone : ∀ b ∈ first, b.kind ≠ moof) :
    settled (first ++ boxes) = first ++ settled boxes := by
  induction first with
  | nil => rfl
  | cons box first ih =>
      obtain ⟨hMoof, hRest⟩ := List.forall_mem_cons.mp hNone
      rw [List.cons_append, settled_cons (fun h => hMoof h.1), ih hRest, List.cons_append]

namespace Mp4Segmenter

/-- With a `moof` in the stream, nothing but the part that was never completed
is missing exactly when there are no strays. -/
theorem settled_handed_out_iff {tail : List Byte} (hTail : Incomplete tail)
    {chunks : List (List Byte)} {boxes : List Mp4Box}
    (hStream : chunks.flatten = boxBytes boxes ++ tail) (hMoof : ∃ b ∈ boxes, b.kind = moof) :
    segmentBytes (segments chunks) = boxBytes (settled boxes) ↔
      strays false (fromMoof boxes) = [] := by
  obtain ⟨first, bytes, rest, hBox, hNone, rfl, hFrom⟩ := split_fromMoof hMoof
  rw [hFrom, segmentBytes_moof hTail hStream hNone, settled_append hNone, boxBytes_append,
    List.append_cancel_left_eq, boxBytes_kept_iff, strays_settled]

/-- **Segmentation loses nothing that was completed.**  For a sequence of
well-formed boxes, with or without one more under way, and any way the reads
cut it: with no `moof` all that was received is handed out; with one, and each
box behind the first within a fragment, all but a last `moof` without its
`mdat`, with what follows it, and the box under way. -/
theorem segments_lossless {tail : List Byte} (hTail : Incomplete tail)
    {chunks : List (List Byte)} {boxes : List Mp4Box}
    (hStream : chunks.flatten = boxBytes boxes ++ tail) :
    ((∀ b ∈ boxes, b.kind ≠ moof) →
      segmentBytes (segments chunks) = boxBytes boxes ++ tail) ∧
    ((∃ b ∈ boxes, b.kind = moof) → strays false (fromMoof boxes) = [] →
      segmentBytes (segments chunks) = boxBytes (settled boxes)) :=
  ⟨segmentBytes_init hTail hStream, fun hMoof => (settled_handed_out_iff hTail hStream hMoof).mpr⟩

/-- A box that is all header. -/
def emptyBox (a b c d : Byte) : Mp4Box :=
  ⟨[a, b, c, d], [0, 0, 0, 8, a, b, c, d], .size32 rfl (by simp) (by simp [fromBeBytes])
    (by simp [maxBoxBytes])⟩

def ftypBox : Mp4Box := emptyBox 0x66 0x74 0x79 0x70

def moofBox : Mp4Box := emptyBox 0x6D 0x6F 0x6F 0x66

def mdatBox : Mp4Box := emptyBox 0x6D 0x64 0x61 0x74

def freeBox : Mp4Box := emptyBox 0x66 0x72 0x65 0x65

/-- Three bytes of a box. -/
theorem incomplete_three : Incomplete [0, 0, 0] :=
  ⟨ftypBox, [8, 0x66, 0x74, 0x79, 0x70], by simp, rfl⟩

/-- A stream that ends before any `moof` is handed out whole, with the three
bytes of a box that never completed. -/
theorem short_stream_handed_out :
    segments [[0, 0, 0, 8, 0x66, 0x74, 0x79, 0x70, 0, 0, 0]] =
        [.init [0, 0, 0, 8, 0x66, 0x74, 0x79, 0x70, 0, 0, 0]] ∧
      ¬ ∀ (boxes : List Mp4Box) (tail : List Byte) (chunks : List (List Byte)),
        Incomplete tail → chunks.flatten = boxBytes boxes ++ tail →
          segmentBytes (segments chunks) = boxBytes (settled boxes) := by
  have hOut : segments [[0, 0, 0, 8, 0x66, 0x74, 0x79, 0x70, 0, 0, 0]] =
      [.init [0, 0, 0, 8, 0x66, 0x74, 0x79, 0x70, 0, 0, 0]] := by decide +kernel
  refine ⟨hOut, fun hAll => ?_⟩
  have hClaim := hAll [ftypBox] [0, 0, 0] [[0, 0, 0, 8, 0x66, 0x74, 0x79, 0x70, 0, 0, 0]]
    incomplete_three rfl
  rw [hOut] at hClaim
  exact absurd hClaim (by decide)

/-- Two fragments behind an initialization, read byte by byte. -/
theorem two_fragments_handed_out :
    segmentBytes (segments ((boxBytes [ftypBox, moofBox, freeBox, mdatBox, moofBox, mdatBox] ++
        [0, 0, 0]).map fun byte => [byte])) =
      boxBytes [ftypBox, moofBox, freeBox, mdatBox, moofBox, mdatBox] :=
  have hStream : ((boxBytes [ftypBox, moofBox, freeBox, mdatBox, moofBox, mdatBox] ++
      [0, 0, 0]).map fun byte => [byte]).flatten =
        boxBytes [ftypBox, moofBox, freeBox, mdatBox, moofBox, mdatBox] ++ [0, 0, 0] := rfl
  (segments_lossless incomplete_three hStream).2 ⟨moofBox, by simp, rfl⟩ rfl

/-- A box between two fragments is handed out with neither. -/
example : segmentBytes (segments [boxBytes [moofBox, mdatBox, freeBox, moofBox, mdatBox]]) =
    boxBytes [moofBox, mdatBox, moofBox, mdatBox] := by decide +kernel

end Mp4Segmenter

end CastApp.Screen.Segments
