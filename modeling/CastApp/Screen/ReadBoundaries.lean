import CastApp.Screen.BoxStream

/-!
# Segmentation and the reads

The encoder's output arrives in reads of any length, and nothing says that a
read ends where a box does.  For any bytes at all, boxes or not, the segmenter
makes the same of them however they were cut, up to the read that shows them
not to be boxes.  What a prefix of the output shows at its front is not
changed by what comes behind it (`front_append`), so a chunk and the next are
as good as both at once (`feed_append`).

* `structured_flatten` — the reads are as good as one.
* `structured_moofLed` — a fragment is whole boxes, the first of them its only
  `moof`.
* `feedAll_initFirst` — the initialization leads, whatever the switch.
* `segments_structured` — what is handed out up to the switch leads all that
  is handed out.
-/

namespace CastApp.Screen.Segments

open CastApp.State
open CastApp.Cast.Framing (fromBeBytes)

/-! ## The front of the stream -/

theorem boxFront_box {pending kind bytes rest found : List Byte} {headerLen total : Nat}
    (h : boxFront pending kind headerLen total = .box found bytes rest) :
    found = kind ∧ headerLen ≤ total ∧ total ≤ maxBoxBytes ∧ bytes.length = total ∧
      pending = bytes ++ rest := by
  unfold boxFront at h
  by_cases hBad : total < headerLen ∨ total > maxBoxBytes
  · simp [hBad] at h
  · rw [if_neg hBad] at h
    by_cases hShort : pending.length < total
    · simp [hShort] at h
    · rw [if_neg hShort] at h
      simp only [Front.box.injEq] at h
      obtain ⟨hKind, hBytes, hRest⟩ := h
      refine ⟨hKind.symm, by omega, by omega, ?_, ?_⟩
      · rw [← hBytes, List.length_take]
        omega
      · rw [← hBytes, ← hRest, List.take_append_drop]

/-- What is found at the front is a box, and the rest is what follows it. -/
theorem front_box {pending kind bytes rest : List Byte}
    (h : front pending = .box kind bytes rest) : IsBox kind bytes ∧ pending = bytes ++ rest := by
  unfold front at h
  by_cases hHeader : pending.length < 8
  · simp [hHeader] at h
  · rw [if_neg hHeader] at h
    simp only at h
    by_cases hZero : fromBeBytes (pending.take 4) = 0
    · simp [hZero] at h
    · rw [if_neg hZero] at h
      by_cases hOne : fromBeBytes (pending.take 4) = 1
      · rw [if_pos hOne] at h
        by_cases hLarge : pending.length < 16
        · simp [hLarge] at h
        · rw [if_neg hLarge] at h
          obtain ⟨hKind, hFits, hMax, hLength, hPending⟩ := boxFront_box h
          have hSixteen : 16 ≤ bytes.length := by omega
          have hField : pending.take 4 = bytes.take 4 := by
            rw [hPending, List.take_append_of_le_length (by omega)]
          rw [hPending, large_append hSixteen] at hLength
          rw [hPending, kind_append (by omega)] at hKind
          rw [hField] at hOne
          exact ⟨.size64 hKind.symm hSixteen hOne hLength.symm
            (by rw [hPending, large_append hSixteen] at hMax; omega), hPending⟩
      · rw [if_neg hOne] at h
        by_cases hSmall : fromBeBytes (pending.take 4) < 8
        · simp [hSmall] at h
        · rw [if_neg hSmall] at h
          obtain ⟨hKind, hFits, hMax, hLength, hPending⟩ := boxFront_box h
          have hEight : 8 ≤ bytes.length := by omega
          have hField : pending.take 4 = bytes.take 4 := by
            rw [hPending, List.take_append_of_le_length (by omega)]
          rw [hPending, kind_append hEight] at hKind
          rw [hField] at hLength hMax
          exact ⟨.size32 hKind.symm hEight hLength.symm (by omega), hPending⟩

/-- A header no box can have is seen whatever follows it. -/
theorem boxFront_unparseable {pending kind : List Byte} {headerLen total : Nat}
    (h : boxFront pending kind headerLen total = .unparseable) :
    total < headerLen ∨ total > maxBoxBytes := by
  unfold boxFront at h
  by_cases hBad : total < headerLen ∨ total > maxBoxBytes
  · exact hBad
  · rw [if_neg hBad] at h
    by_cases hShort : pending.length < total <;> simp [hShort] at h

theorem front_unparseable {pending : List Byte} (h : front pending = .unparseable)
    (later : List Byte) : front (pending ++ later) = .unparseable := by
  unfold front at h ⊢
  by_cases hHeader : pending.length < 8
  · simp [hHeader] at h
  · have hField : (pending ++ later).take 4 = pending.take 4 :=
      List.take_append_of_le_length (by omega)
    rw [if_neg hHeader] at h
    rw [if_neg (by simp only [List.length_append]; omega)]
    simp only [hField] at h ⊢
    by_cases hZero : fromBeBytes (pending.take 4) = 0
    · rw [if_pos hZero]
    · rw [if_neg hZero] at h ⊢
      by_cases hOne : fromBeBytes (pending.take 4) = 1
      · rw [if_pos hOne] at h ⊢
        by_cases hLarge : pending.length < 16
        · simp [hLarge] at h
        · rw [if_neg hLarge] at h
          rw [if_neg (by simp only [List.length_append]; omega), large_append (by omega)]
          unfold boxFront
          rw [if_pos (boxFront_unparseable h)]
      · rw [if_neg hOne] at h ⊢
        by_cases hSmall : fromBeBytes (pending.take 4) < 8
        · rw [if_pos hSmall]
        · rw [if_neg hSmall] at h ⊢
          unfold boxFront
          rw [if_pos (boxFront_unparseable h)]

/-- What a prefix shows at its front is what any continuation of it shows. -/
theorem front_append {pending kind bytes rest : List Byte}
    (h : front pending = .box kind bytes rest) (later : List Byte) :
    front (pending ++ later) = .box kind bytes (rest ++ later) := by
  obtain ⟨hBox, hPending⟩ := front_box h
  rw [hPending, List.append_assoc]
  exact hBox.front (rest ++ later)

/-- A box takes at least a header off the front. -/
theorem front_shorter {pending kind bytes rest : List Byte}
    (h : front pending = .box kind bytes rest) : rest.length + 8 ≤ pending.length := by
  obtain ⟨hBox, hPending⟩ := front_box h
  have hHeader := hBox.header
  rw [hPending, List.length_append]
  omega

namespace Mp4Segmenter

variable {s : Mp4Segmenter}

/-! ## A chunk and the next -/

theorem parse_unparseable (hFront : front s.pending = .unparseable) (fuel : Nat) :
    parse (fuel + 1) s = s.enterOpaque := by
  simp [parse, hFront]

/-- Enough turns are as good as more. -/
theorem parse_fuel (fuel more : Nat) (hFuel : s.pending.length ≤ fuel)
    (hMore : s.pending.length ≤ more) : parse fuel s = parse more s := by
  induction fuel generalizing s more with
  | zero =>
      have hFront : front s.pending = .incomplete := by
        unfold front
        rw [if_pos (by omega)]
      rw [parse_incomplete hFront, parse_incomplete hFront]
  | succ fuel ih =>
      cases hFront : front s.pending with
      | incomplete => rw [parse_incomplete hFront, parse_incomplete hFront]
      | unparseable =>
          cases more with
          | zero =>
              have hNone : s.pending = [] := List.length_eq_zero_iff.mp (by omega)
              simp [hNone, front] at hFront
          | succ more => rw [parse_unparseable hFront, parse_unparseable hFront]
      | box kind bytes rest =>
          have hShorter := front_shorter hFront
          cases more with
          | zero => omega
          | succ more =>
              rw [parse_box hFront, parse_box hFront,
                ih (s := (s.takeBox kind bytes).2.withPending rest) more
                  (by simp only [withPending_pending]; omega)
                  (by simp only [withPending_pending]; omega)]

/-- All that can be parsed of what has arrived. -/
def parsed (s : Mp4Segmenter) : List EncodedSegment × Mp4Segmenter := parse s.pending.length s

theorem parsed_incomplete (hFront : front s.pending = .incomplete) : s.parsed = ([], s) :=
  parse_incomplete hFront _

theorem parsed_unparseable (hFront : front s.pending = .unparseable) :
    s.parsed = s.enterOpaque := by
  unfold parsed
  cases hPending : s.pending with
  | nil => simp [hPending, front] at hFront
  | cons byte pending => exact parse_unparseable hFront pending.length

theorem parsed_box {kind bytes rest : List Byte} (hFront : front s.pending = .box kind bytes rest) :
    s.parsed =
      ((s.takeBox kind bytes).1 ++ ((s.takeBox kind bytes).2.withPending rest).parsed.1,
        ((s.takeBox kind bytes).2.withPending rest).parsed.2) := by
  have hShorter := front_shorter hFront
  obtain ⟨turns, hTurns⟩ : ∃ turns, s.pending.length = turns + 1 :=
    ⟨s.pending.length - 1, by omega⟩
  have hFuel := parse_fuel (s := (s.takeBox kind bytes).2.withPending rest) turns rest.length
    (by simp only [withPending_pending]; omega) (by simp)
  unfold parsed
  rw [hTurns, parse_box hFront, hFuel]
  rfl

/-- What shows that these are no boxes shows it whatever follows. -/
theorem parsed_append_switched (later : List Byte) (fuel : Nat) (hFuel : s.pending.length ≤ fuel)
    (hOpaque : s.isOpaque = false) (hSwitched : s.parsed.2.isOpaque = true) :
    (s.withPending (s.pending ++ later)).parsed = s.parsed := by
  induction fuel generalizing s with
  | zero =>
      have hFront : front s.pending = .incomplete := by
        unfold front
        rw [if_pos (by omega)]
      rw [parsed_incomplete hFront, hOpaque] at hSwitched
      cases hSwitched
  | succ fuel ih =>
      cases hFront : front s.pending with
      | incomplete =>
          rw [parsed_incomplete hFront, hOpaque] at hSwitched
          cases hSwitched
      | unparseable =>
          rw [parsed_unparseable hFront,
            parsed_unparseable (s := s.withPending (s.pending ++ later))
              (front_unparseable hFront later)]
          rfl
      | box kind bytes rest =>
          have hShorter := front_shorter hFront
          rw [parsed_box hFront] at hSwitched
          have hRest := ih (s := (s.takeBox kind bytes).2.withPending rest)
            (by simp only [withPending_pending]; omega)
            (by simp [takeBox_isOpaque, hOpaque]) hSwitched
          simp only [withPending_pending, withPending_withPending] at hRest
          rw [parsed_box hFront,
            parsed_box (s := s.withPending (s.pending ++ later)) (front_append hFront later)]
          simp only [takeBox_withPending, withPending_withPending, hRest]

/-- Otherwise what follows goes on where the parsing stopped. -/
theorem parsed_append (later : List Byte) (fuel : Nat) (hFuel : s.pending.length ≤ fuel)
    (hStructured : s.parsed.2.isOpaque = false) :
    (s.withPending (s.pending ++ later)).parsed =
      (s.parsed.1 ++ (s.parsed.2.withPending (s.parsed.2.pending ++ later)).parsed.1,
        (s.parsed.2.withPending (s.parsed.2.pending ++ later)).parsed.2) := by
  induction fuel generalizing s with
  | zero =>
      have hFront : front s.pending = .incomplete := by
        unfold front
        rw [if_pos (by omega)]
      simp [parsed_incomplete hFront]
  | succ fuel ih =>
      cases hFront : front s.pending with
      | incomplete => simp [parsed_incomplete hFront]
      | unparseable =>
          rw [parsed_unparseable hFront] at hStructured
          cases hStructured
      | box kind bytes rest =>
          have hShorter := front_shorter hFront
          rw [parsed_box hFront] at hStructured
          have hRest := ih (s := (s.takeBox kind bytes).2.withPending rest)
            (by simp only [withPending_pending]; omega) hStructured
          simp only [withPending_pending, withPending_withPending] at hRest
          rw [parsed_box hFront,
            parsed_box (s := s.withPending (s.pending ++ later)) (front_append hFront later)]
          simp only [takeBox_withPending, withPending_withPending, hRest, List.append_assoc]

theorem feed_parsed (hOpaque : s.isOpaque = false) (chunk : List Byte) :
    s.feed chunk = (s.withPending (s.pending ++ chunk)).parsed := by
  unfold feed
  rw [if_neg (by simp [hOpaque])]
  rfl

/-- The chunk that shows that these are no boxes, with more behind it. -/
theorem feed_append_switched {chunk : List Byte} (later : List Byte) (hOpaque : s.isOpaque = false)
    (hSwitched : (s.feed chunk).2.isOpaque = true) : s.feed (chunk ++ later) = s.feed chunk := by
  rw [feed_parsed hOpaque] at hSwitched ⊢
  rw [feed_parsed hOpaque, ← List.append_assoc]
  exact parsed_append_switched (s := s.withPending (s.pending ++ chunk)) later _ (Nat.le_refl _)
    hOpaque hSwitched

/-- **A chunk and the next are as good as both at once.** -/
theorem feed_append {chunk : List Byte} (later : List Byte) (hOpaque : s.isOpaque = false)
    (hStructured : (s.feed chunk).2.isOpaque = false) :
    s.feed (chunk ++ later) =
      ((s.feed chunk).1 ++ ((s.feed chunk).2.feed later).1, ((s.feed chunk).2.feed later).2) := by
  rw [feed_parsed hStructured later]
  rw [feed_parsed hOpaque] at hStructured ⊢
  rw [feed_parsed hOpaque, ← List.append_assoc]
  exact parsed_append (s := s.withPending (s.pending ++ chunk)) later _ (Nat.le_refl _) hStructured

/-! ## Up to the switch -/

/-- What is handed out by the reads up to the one that switches to cutting at
the reads; with no such read, by all of them and the end of output. -/
def structured (s : Mp4Segmenter) : List (List Byte) → List EncodedSegment
  | [] => s.finish
  | chunk :: chunks =>
      let (out, s) := s.feed chunk
      if s.isOpaque then out else out ++ s.structured chunks

theorem structured_cons (chunk : List Byte) (chunks : List (List Byte)) :
    s.structured (chunk :: chunks) =
      if (s.feed chunk).2.isOpaque then (s.feed chunk).1
      else (s.feed chunk).1 ++ (s.feed chunk).2.structured chunks := rfl

/-- Two reads in one. -/
theorem structured_merge (hOpaque : s.isOpaque = false) (chunk next : List Byte)
    (chunks : List (List Byte)) :
    s.structured (chunk :: next :: chunks) = s.structured ((chunk ++ next) :: chunks) := by
  cases hSwitched : (s.feed chunk).2.isOpaque with
  | true =>
      have hMerged := feed_append_switched next hOpaque hSwitched
      rw [structured_cons, structured_cons (chunk ++ next), hMerged, hSwitched]
      rfl
  | false =>
      have hMerged := feed_append next hOpaque hSwitched
      rw [structured_cons, structured_cons next, structured_cons (chunk ++ next), hMerged, hSwitched]
      simp only [Bool.false_eq_true, if_false, List.append_assoc]
      by_cases hNext : ((s.feed chunk).2.feed next).2.isOpaque
      · rw [if_pos hNext, if_pos hNext]
      · rw [if_neg hNext, if_neg hNext]

/-- A read of nothing. -/
theorem structured_empty (hOpaque : s.isOpaque = false) (hFront : front s.pending = .incomplete)
    (chunks : List (List Byte)) : s.structured ([] :: chunks) = s.structured chunks := by
  have hFeed : s.feed [] = ([], s) := by
    rw [feed_parsed hOpaque, List.append_nil]
    exact parsed_incomplete hFront
  rw [structured_cons, hFeed]
  simp [hOpaque]

theorem structured_flatten_cons (hOpaque : s.isOpaque = false) (chunk : List Byte)
    (chunks : List (List Byte)) :
    s.structured (chunk :: chunks) = s.structured [chunk ++ chunks.flatten] := by
  induction chunks generalizing chunk with
  | nil => simp
  | cons next chunks ih =>
      rw [structured_merge hOpaque, ih (chunk ++ next), List.flatten_cons, List.append_assoc]

/-- **The reads are as good as one**: any stream, cut in any way, yields up to
the switch what it yields in one piece. -/
theorem structured_flatten (hOpaque : s.isOpaque = false) (hFront : front s.pending = .incomplete)
    (chunks : List (List Byte)) : s.structured chunks = s.structured [chunks.flatten] := by
  cases chunks with
  | nil => exact (structured_empty hOpaque hFront []).symm
  | cons chunk chunks => exact structured_flatten_cons hOpaque chunk chunks

/-! ## What a fragment is made of -/

end Mp4Segmenter

/-- Whole boxes, the first of them a `moof` and the only one. -/
def MoofLed (bytes : List Byte) : Prop :=
  ∃ (box : Mp4Box) (boxes : List Mp4Box), bytes = boxBytes (box :: boxes) ∧ box.kind = moof ∧
    ∀ b ∈ boxes, b.kind ≠ moof

theorem moofLed_moof {bytes : List Byte} (hBox : IsBox moof bytes) : MoofLed bytes :=
  ⟨⟨moof, bytes, hBox⟩, [], by simp, rfl, by simp⟩

/-- One more box, which opens no other fragment. -/
theorem MoofLed.append {fragment kind bytes : List Byte} (h : MoofLed fragment)
    (hBox : IsBox kind bytes) (hMoof : kind ≠ moof) : MoofLed (fragment ++ bytes) := by
  obtain ⟨box, boxes, rfl, hLead, hNone⟩ := h
  refine ⟨box, boxes ++ [⟨kind, bytes, hBox⟩], by simp, hLead, ?_⟩
  intro b hMem
  rcases List.mem_append.mp hMem with hMem | hMem
  · exact hNone b hMem
  · rw [List.mem_singleton.mp hMem]
    exact hMoof

/-- Every fragment among the segments is whole boxes behind one `moof`. -/
def FragmentsMoofLed (segments : List EncodedSegment) : Prop :=
  ∀ bytes, .fragment bytes ∈ segments → MoofLed bytes

theorem FragmentsMoofLed.append {segments more : List EncodedSegment}
    (h : FragmentsMoofLed segments) (hMore : FragmentsMoofLed more) :
    FragmentsMoofLed (segments ++ more) := by
  intro bytes hMem
  rcases List.mem_append.mp hMem with hMem | hMem
  · exact h bytes hMem
  · exact hMore bytes hMem

namespace Mp4Segmenter

variable {s : Mp4Segmenter}

/-- The fragment being assembled is whole boxes behind one `moof`. -/
def Assembling (s : Mp4Segmenter) : Prop := s.inFragment = true → MoofLed s.fragment

theorem pendingInit_moofLed : FragmentsMoofLed s.pendingInit := by
  intro bytes hMem
  unfold pendingInit at hMem
  split at hMem
  · simp at hMem
  · simp at hMem

theorem finish_moofLed : FragmentsMoofLed s.finish := by
  intro bytes hMem
  unfold finish at hMem
  split at hMem
  · simp at hMem
  · by_cases hEmpty : (s.init ++ s.pending).isEmpty
    · simp [hEmpty] at hMem
    · simp [hEmpty] at hMem

theorem takeBox_moofLed {kind bytes : List Byte} (hBox : IsBox kind bytes) (h : s.Assembling) :
    FragmentsMoofLed (s.takeBox kind bytes).1 ∧ (s.takeBox kind bytes).2.Assembling := by
  by_cases hMoof : kind = moof
  · subst hMoof
    rw [takeBox_moof]
    refine ⟨pendingInit_moofLed.append ?_, fun _ => moofLed_moof hBox⟩
    intro found hMem
    by_cases hInside : s.inFragment = true
    · rw [if_pos hInside, List.mem_singleton] at hMem
      cases hMem
      exact h hInside
    · rw [if_neg hInside] at hMem
      cases hMem
  · cases hInside : s.inFragment with
    | false =>
        rw [takeBox_outside bytes hMoof hInside]
        refine ⟨by simp [FragmentsMoofLed], fun hNow => ?_⟩
        rw [hInside] at hNow
        cases hNow
    | true =>
        have hGrown := (h hInside).append hBox hMoof
        by_cases hMdat : kind = mdat
        · subst hMdat
          rw [takeBox_mdat bytes hInside]
          refine ⟨fun found hMem => ?_, nofun⟩
          rw [List.mem_singleton] at hMem
          cases hMem
          exact hGrown
        · rw [takeBox_inside bytes hMoof hMdat hInside]
          exact ⟨by simp [FragmentsMoofLed], fun _ => hGrown⟩

theorem parse_moofLed (fuel : Nat) (h : s.Assembling) :
    FragmentsMoofLed (parse fuel s).1 ∧ (parse fuel s).2.Assembling := by
  induction fuel generalizing s with
  | zero => exact ⟨by simp [parse, FragmentsMoofLed], h⟩
  | succ fuel ih =>
      cases hFront : front s.pending with
      | incomplete =>
          rw [parse_incomplete hFront]
          exact ⟨by simp [FragmentsMoofLed], h⟩
      | unparseable =>
          rw [parse_unparseable hFront]
          refine ⟨pendingInit_moofLed, ?_⟩
          intro hInside
          cases hInside
      | box kind bytes rest =>
          rw [parse_box hFront]
          obtain ⟨hHere, hTaken⟩ := takeBox_moofLed (front_box hFront).1 h
          obtain ⟨hMore, hThen⟩ := ih (s := (s.takeBox kind bytes).2.withPending rest) hTaken
          exact ⟨hHere.append hMore, hThen⟩

/-- No fragment is cut within a box up to the switch. -/
theorem structured_moofLed (hOpaque : s.isOpaque = false) (h : s.Assembling)
    (chunks : List (List Byte)) : FragmentsMoofLed (s.structured chunks) := by
  induction chunks generalizing s with
  | nil => exact finish_moofLed
  | cons chunk chunks ih =>
      have hFeed : FragmentsMoofLed (s.feed chunk).1 ∧ (s.feed chunk).2.Assembling := by
        rw [feed_parsed hOpaque]
        exact parse_moofLed _ h
      rw [structured_cons]
      cases hSwitched : (s.feed chunk).2.isOpaque with
      | true => exact hFeed.1
      | false => exact hFeed.1.append (ih hSwitched hFeed.2)

/-! ## The initialization -/

/-- Once the initialization is settled reads yield fragments only, and the end
of output nothing. -/
theorem feedAll_fragments (hSettled : s.InitSettled) (chunks : List (List Byte)) :
    ∀ segment ∈ (s.feedAll chunks).1 ++ (s.feedAll chunks).2.finish, segment.isFragment = true := by
  induction chunks generalizing s with
  | nil => simp [feedAll, finish_fragments hSettled]
  | cons chunk chunks ih =>
      obtain ⟨hHere, hStill⟩ := feed_fragments hSettled chunk
      intro segment hMem
      simp only [feedAll, List.append_assoc] at hMem
      rcases List.mem_append.mp hMem with hMem | hMem
      · exact hHere segment hMem
      · exact ih hStill segment hMem

theorem feedAll_initFirst (chunks : List (List Byte)) :
    InitFirst ((s.feedAll chunks).1 ++ (s.feedAll chunks).2.finish) := by
  induction chunks generalizing s with
  | nil => exact finish_initFirst
  | cons chunk chunks ih =>
      obtain ⟨hHere, hSettled⟩ := feed_initFirst (s := s) chunk
      simp only [feedAll, List.append_assoc]
      by_cases hNone : (s.feed chunk).1 = []
      · rw [hNone, List.nil_append]
        exact ih
      · exact hHere.append (feedAll_fragments (hSettled hNone) chunks)

theorem feedAll_isOpaque (hOpaque : s.isOpaque = true) (chunks : List (List Byte)) :
    (s.feedAll chunks).2.isOpaque = true := by
  induction chunks generalizing s with
  | nil => exact hOpaque
  | cons chunk chunks ih =>
      have hStays : (s.feed chunk).2.isOpaque = true := by
        unfold feed
        rw [if_pos hOpaque]
        exact hOpaque
      exact ih hStays

/-- What is handed out up to the switch leads all that is handed out; without
a switch it is all of it. -/
theorem feedAll_structured (chunks : List (List Byte)) :
    ∃ cut, (s.feedAll chunks).1 ++ (s.feedAll chunks).2.finish = s.structured chunks ++ cut ∧
      ((s.feedAll chunks).2.isOpaque = false → cut = []) := by
  induction chunks generalizing s with
  | nil => exact ⟨[], by simp [feedAll, structured], fun _ => rfl⟩
  | cons chunk chunks ih =>
      rw [structured_cons]
      simp only [feedAll, List.append_assoc]
      cases hSwitched : (s.feed chunk).2.isOpaque with
      | true =>
          refine ⟨_, rfl, fun hNever => ?_⟩
          rw [feedAll_isOpaque hSwitched] at hNever
          cases hNever
      | false =>
          obtain ⟨cut, hCut, hNever⟩ := ih (s := (s.feed chunk).2)
          exact ⟨cut, by simp [hCut], hNever⟩

theorem segments_structured (chunks : List (List Byte)) :
    ∃ cut, segments chunks = new.structured chunks ++ cut ∧
      ((new.feedAll chunks).2.isOpaque = false → cut = []) := feedAll_structured chunks

/-- **Segmentation follows the content, not the reads.**  Two ways to cut one
stream yield the same up to the switch; no more than one initialization is
handed out, ahead of every fragment; and up to the switch each fragment is
whole boxes behind its one `moof`. -/
theorem segmentation_by_content {chunks others : List (List Byte)}
    (hStream : chunks.flatten = others.flatten) :
    new.structured chunks = new.structured others ∧ InitFirst (segments chunks) ∧
      FragmentsMoofLed (new.structured chunks) := by
  have hNew : new.Assembling := fun hInside => absurd hInside (by decide)
  refine ⟨?_, feedAll_initFirst chunks, structured_moofLed rfl hNew chunks⟩
  rw [structured_flatten rfl rfl chunks, hStream]
  exact (structured_flatten rfl rfl others).symm

/-- A fragment behind an initialization, and then what cannot be a box: in one
read, and byte by byte. -/
theorem fragment_then_noise_by_content :
    new.structured [boxBytes [ftypBox, moofBox, mdatBox] ++ [0, 0, 0, 0, 1, 2, 3, 4, 5]] =
        new.structured ((boxBytes [ftypBox, moofBox, mdatBox] ++
          [0, 0, 0, 0, 1, 2, 3, 4, 5]).map fun byte => [byte]) ∧
      InitFirst (segments [boxBytes [ftypBox, moofBox, mdatBox] ++ [0, 0, 0, 0, 1, 2, 3, 4, 5]]) ∧
      FragmentsMoofLed
        (new.structured [boxBytes [ftypBox, moofBox, mdatBox] ++ [0, 0, 0, 0, 1, 2, 3, 4, 5]]) :=
  segmentation_by_content rfl

example :
    new.structured [boxBytes [ftypBox, moofBox, mdatBox] ++ [0, 0, 0, 0, 1, 2, 3, 4, 5], [6]] =
      [.init (boxBytes [ftypBox]), .fragment (boxBytes [moofBox, mdatBox])] := by decide +kernel

end Mp4Segmenter

end CastApp.Screen.Segments
