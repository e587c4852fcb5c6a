import CastApp.Cast.Reader

/-!
# Frames in a byte stream

What a stream of bytes says, before any code looks at it: a sequence of
complete frames, and after them either a frame that has not arrived
completely or a length prefix over the limit.  The accumulator is then
measured against that, however the stream is cut.

* `Deframes` — the frames of a stream and the bytes after the last one;
  `exists_deframes` and `Deframes.unique` make it a function.
* `pushBytes_frames`, `pushBytes_overLimit` — what one call of `push_bytes`
  returns and leaves buffered.
* **`feed_frames`** — whatever the chunks, feeding a stream of frames and the
  beginning of one more returns the payloads and keeps the beginning.
-/

namespace CastApp.Cast.FrameStream

open CastApp.State
open CastApp.Cast.Framing
open CastApp.Cast.Reader

/-! ## Headers -/

theorem fromBeBytes_toBeBytes (n : UInt32) : fromBeBytes (toBeBytes n) = n.toNat := by
  have hLt := n.toNat_lt
  simp only [fromBeBytes, toBeBytes, List.foldl_cons, List.foldl_nil, UInt32.toNat_toUInt8,
    UInt32.toNat_shiftRight, Nat.shiftRight_eq_div_pow]
  simp
  omega

theorem toBeBytes_fromBeBytes (a b c d : Byte) :
    toBeBytes (fromBeBytes [a, b, c, d]).toUInt32 = [a, b, c, d] := by
  have ha := a.toNat_lt
  have hb := b.toNat_lt
  have hc := c.toNat_lt
  have hd := d.toNat_lt
  simp only [fromBeBytes, toBeBytes, List.foldl_cons, List.foldl_nil, List.cons.injEq,
    ← UInt8.toNat_inj, UInt32.toNat_toUInt8, UInt32.toNat_shiftRight,
    Nat.shiftRight_eq_div_pow, Nat.toUInt32, UInt32.toNat_ofNat]
  simp
  omega

/-- The length announced by the first four bytes. -/
def announced (bytes : List Byte) : Nat := fromBeBytes (bytes.take 4)

theorem announced_append {bytes : List Byte} (hHeader : 4 ≤ bytes.length) (more : List Byte) :
    announced (bytes ++ more) = announced bytes := by
  unfold announced
  rw [List.take_append_of_le_length hHeader]

@[simp] theorem length_toBeBytes (n : UInt32) : (toBeBytes n).length = 4 := rfl

theorem length_encodeFrame (payload : List Byte) :
    (encodeFrame payload).length = 4 + payload.length := by
  simp [encodeFrame]

theorem announced_encodeFrame {payload : List Byte} (hSize : payload.length ≤ maxFrameSize)
    (after : List Byte) : announced (encodeFrame payload ++ after) = payload.length := by
  have hLt : payload.length < UInt32.size := by
    unfold maxFrameSize at hSize
    show payload.length < 4294967296
    omega
  unfold announced encodeFrame
  rw [List.append_assoc, List.take_left' (length_toBeBytes _), fromBeBytes_toBeBytes]
  exact Nat.mod_eq_of_lt hLt

/-! ## What a stream says -/

/-- The beginning of a frame that has not arrived completely. -/
def Incomplete (bytes : List Byte) : Prop :=
  bytes.length < 4 ∨ (announced bytes ≤ maxFrameSize ∧ bytes.length < 4 + announced bytes)

/-- A length prefix over the limit. -/
def OverLimit (bytes : List Byte) : Prop :=
  4 ≤ bytes.length ∧ maxFrameSize < announced bytes

/-- The complete frames of a stream, in order, and what follows them. -/
inductive Deframes : List Byte → List (List Byte) → List Byte → Prop
  | incomplete {rest : List Byte} (hRest : Incomplete rest) : Deframes rest [] rest
  | overLimit {rest : List Byte} (hRest : OverLimit rest) : Deframes rest [] rest
  | frame {payload after rest : List Byte} {frames : List (List Byte)}
      (hSize : payload.length ≤ maxFrameSize) (hAfter : Deframes after frames rest) :
      Deframes (encodeFrame payload ++ after) (payload :: frames) rest

theorem overLimit_append {bytes : List Byte} (h : OverLimit bytes) (more : List Byte) :
    OverLimit (bytes ++ more) := by
  obtain ⟨hHeader, hOver⟩ := h
  refine ⟨?_, by rw [announced_append hHeader]; exact hOver⟩
  rw [List.length_append]
  omega

theorem not_incomplete_of_overLimit {bytes : List Byte} (h : OverLimit bytes) :
    ¬ Incomplete bytes := by
  unfold OverLimit at h
  unfold Incomplete
  omega

theorem not_incomplete_encode {payload : List Byte} (hSize : payload.length ≤ maxFrameSize)
    (after : List Byte) : ¬ Incomplete (encodeFrame payload ++ after) := by
  unfold Incomplete
  rw [announced_encodeFrame hSize, List.length_append, length_encodeFrame]
  omega

theorem not_overLimit_encode {payload : List Byte} (hSize : payload.length ≤ maxFrameSize)
    (after : List Byte) : ¬ OverLimit (encodeFrame payload ++ after) := by
  unfold OverLimit
  rw [announced_encodeFrame hSize]
  omega

/-- Four bytes are the header of the length they announce. -/
theorem toBeBytes_announced {bytes : List Byte} (hHeader : 4 ≤ bytes.length) :
    bytes = toBeBytes (announced bytes).toUInt32 ++ bytes.drop 4 := by
  match bytes, hHeader with
  | a :: b :: c :: d :: rest, _ =>
      show _ = toBeBytes (fromBeBytes [a, b, c, d]).toUInt32 ++ rest
      rw [toBeBytes_fromBeBytes]
      rfl

/-- Bytes that hold what they announce begin with a frame. -/
theorem eq_encodeFrame {bytes : List Byte} (hLength : 4 + announced bytes ≤ bytes.length) :
    bytes = encodeFrame ((bytes.drop 4).take (announced bytes)) ++
      (bytes.drop 4).drop (announced bytes) := by
  have hTaken : ((bytes.drop 4).take (announced bytes)).length = announced bytes := by
    rw [List.length_take, List.length_drop]
    omega
  have hHeader := @toBeBytes_announced bytes (by omega)
  unfold encodeFrame
  rw [hTaken, List.append_assoc, List.take_append_drop]
  exact hHeader

/-- Every stream begins in one of three ways. -/
theorem stream_cases (bytes : List Byte) :
    Incomplete bytes ∨ OverLimit bytes ∨
      ∃ payload after, payload.length ≤ maxFrameSize ∧ bytes = encodeFrame payload ++ after := by
  by_cases hHeader : bytes.length < 4
  · exact .inl (.inl hHeader)
  · by_cases hOver : maxFrameSize < announced bytes
    · exact .inr (.inl ⟨by omega, hOver⟩)
    · by_cases hShort : bytes.length < 4 + announced bytes
      · exact .inl (.inr ⟨by omega, hShort⟩)
      · refine .inr (.inr ⟨_, _, ?_, eq_encodeFrame (by omega)⟩)
        rw [List.length_take]
        omega

theorem exists_deframes (bytes : List Byte) : ∃ frames rest, Deframes bytes frames rest := by
  induction hLength : bytes.length using Nat.strongRecOn generalizing bytes with
  | _ n ih =>
      rcases stream_cases bytes with hRest | hRest | ⟨payload, after, hSize, rfl⟩
      · exact ⟨[], bytes, .incomplete hRest⟩
      · exact ⟨[], bytes, .overLimit hRest⟩
      · have hShorter : after.length < n := by
          rw [← hLength, List.length_append, length_encodeFrame]
          omega
        obtain ⟨frames, rest, hAfter⟩ := ih after.length hShorter after rfl
        exact ⟨payload :: frames, rest, .frame hSize hAfter⟩

/-- Two encoded frames at the front of one stream are the same frame. -/
theorem encodeFrame_inj {payload payload' after after' : List Byte}
    (hSize : payload.length ≤ maxFrameSize) (hSize' : payload'.length ≤ maxFrameSize)
    (h : encodeFrame payload ++ after = encodeFrame payload' ++ after') :
    payload = payload' ∧ after = after' := by
  have hLength : payload.length = payload'.length := by
    have hAnnounced := announced_encodeFrame hSize after
    rw [h, announced_encodeFrame hSize' after'] at hAnnounced
    exact hAnnounced.symm
  have hFrames : (encodeFrame payload).length = (encodeFrame payload').length := by
    rw [length_encodeFrame, length_encodeFrame, hLength]
  obtain ⟨hFrame, hAfter⟩ := List.append_inj h hFrames
  unfold encodeFrame at hFrame
  exact ⟨(List.append_inj hFrame rfl).2, hAfter⟩

theorem Deframes.unique {bytes rest rest' : List Byte} {frames frames' : List (List Byte)}
    (h : Deframes bytes frames rest) (h' : Deframes bytes frames' rest') :
    frames = frames' ∧ rest = rest' := by
  induction h generalizing frames' with
  | incomplete hRest =>
      cases h' with
      | incomplete => exact ⟨rfl, rfl⟩
      | overLimit hRest' => exact absurd hRest (not_incomplete_of_overLimit hRest')
      | frame hSize => exact absurd hRest (not_incomplete_encode hSize _)
  | overLimit hRest =>
      cases h' with
      | incomplete hRest' => exact absurd hRest' (not_incomplete_of_overLimit hRest)
      | overLimit => exact ⟨rfl, rfl⟩
      | frame hSize => exact absurd hRest (not_overLimit_encode hSize _)
  | @frame payload after rest frames hSize hAfter ih =>
      generalize hStream : encodeFrame payload ++ after = stream at h'
      cases h' with
      | incomplete hRest' =>
          rw [← hStream] at hRest'
          exact absurd hRest' (not_incomplete_encode hSize _)
      | overLimit hRest' =>
          rw [← hStream] at hRest'
          exact absurd hRest' (not_overLimit_encode hSize _)
      | frame hSize' hAfter' =>
          obtain ⟨rfl, rfl⟩ := encodeFrame_inj hSize hSize' hStream
          obtain ⟨rfl, rfl⟩ := ih hAfter'
          exact ⟨rfl, rfl⟩

/-- The bytes of a stream, put together again. -/
theorem Deframes.bytes {bytes rest : List Byte} {frames : List (List Byte)}
    (h : Deframes bytes frames rest) : bytes = (frames.map encodeFrame).flatten ++ rest := by
  induction h with
  | incomplete => rfl
  | overLimit => rfl
  | frame hSize hAfter ih => rw [ih]; simp

theorem Deframes.sizes {bytes rest : List Byte} {frames : List (List Byte)}
    (h : Deframes bytes frames rest) : ∀ payload ∈ frames, payload.length ≤ maxFrameSize := by
  induction h with
  | incomplete => simp
  | overLimit => simp
  | frame hSize _ ih =>
      intro payload hMem
      rcases List.mem_cons.mp hMem with rfl | hMem
      · exact hSize
      · exact ih payload hMem

/-- More bytes only concern what follows the frames so far. -/
theorem Deframes.append {bytes rest more rest' : List Byte} {frames frames' : List (List Byte)}
    (h : Deframes bytes frames rest) (hMore : Deframes (rest ++ more) frames' rest') :
    Deframes (bytes ++ more) (frames ++ frames') rest' := by
  induction h with
  | incomplete => exact hMore
  | overLimit => exact hMore
  | frame hSize hAfter ih =>
      rw [List.append_assoc]
      exact .frame hSize (ih hMore)

/-- Once a length prefix is over the limit, no later byte changes the
frames. -/
theorem Deframes.append_overLimit {bytes rest : List Byte} {frames : List (List Byte)}
    (h : Deframes bytes frames rest) (hOver : OverLimit rest) (more : List Byte) :
    Deframes (bytes ++ more) frames (rest ++ more) := by
  have hAll := h.append (.overLimit (overLimit_append hOver more))
  rwa [List.append_nil] at hAll

/-- What follows the frames is one of two things. -/
theorem Deframes.rest_cases {bytes rest : List Byte} {frames : List (List Byte)}
    (h : Deframes bytes frames rest) : Incomplete rest ∨ OverLimit rest := by
  induction h with
  | incomplete hRest => exact .inl hRest
  | overLimit hRest => exact .inr hRest
  | frame _ _ ih => exact ih

/-! ## What `read_frame` finds -/

theorem readFrame_encode {payload : List Byte} (hSize : payload.length ≤ maxFrameSize)
    (after : List Byte) :
    readFrame (encodeFrame payload ++ after) = .ok (some (payload, after)) := by
  have hAnnounced := announced_encodeFrame hSize after
  unfold announced at hAnnounced
  have hLength : 4 ≤ (encodeFrame payload ++ after).length := by
    rw [List.length_append, length_encodeFrame]
    omega
  have hDrop : (encodeFrame payload ++ after).drop 4 = payload ++ after := rfl
  unfold readFrame
  rw [if_neg (by omega)]
  simp only [hAnnounced, hDrop]
  rw [if_neg (by omega), if_neg (by simp)]
  simp

theorem readFrame_overLimit {bytes : List Byte} (h : OverLimit bytes) :
    readFrame bytes = .error (.frameTooLarge (announced bytes)) := by
  obtain ⟨hHeader, hOver⟩ := h
  unfold announced at hOver ⊢
  unfold readFrame
  rw [if_neg (by omega)]
  simp only [gt_iff_lt]
  rw [if_pos hOver]

/-- The two ways `read_frame` says that a frame is not complete. -/
theorem readFrame_incomplete {bytes : List Byte} (h : Incomplete bytes) :
    readFrame bytes = .ok none ∨
      ∃ expected got, readFrame bytes = .error (.truncated expected got) := by
  unfold Incomplete announced at h
  unfold readFrame
  by_cases hHeader : bytes.length < 4
  · rw [if_pos hHeader]
    by_cases hEmpty : bytes.length = 0
    · exact .inl (if_pos hEmpty)
    · exact .inr ⟨4, bytes.length, if_neg hEmpty⟩
  · rw [if_neg hHeader]
    refine .inr ⟨fromBeBytes (bytes.take 4), (bytes.drop 4).length, ?_⟩
    simp only [gt_iff_lt]
    rw [if_neg (by omega), if_pos (by rw [List.length_drop]; omega)]

/-! ## The accumulator -/

/-- The extraction loop finds the frames of the buffered bytes. -/
theorem extract_frames {bytes rest : List Byte} {frames : List (List Byte)}
    (h : Deframes bytes frames rest) (hRest : Incomplete rest) {fuel : Nat}
    (hFuel : bytes.length ≤ fuel) :
    FrameAccumulator.extract fuel bytes = .ok (frames, rest) := by
  induction h generalizing fuel with
  | incomplete =>
      cases fuel with
      | zero => rfl
      | succ fuel =>
          unfold FrameAccumulator.extract
          rcases readFrame_incomplete hRest with hRead | ⟨expected, got, hRead⟩
          · rw [hRead]
          · rw [hRead]
  | overLimit hOver => exact absurd hRest (not_incomplete_of_overLimit hOver)
  | frame hSize hAfter ih =>
      rw [List.length_append, length_encodeFrame] at hFuel
      cases fuel with
      | zero => omega
      | succ fuel =>
          unfold FrameAccumulator.extract
          rw [readFrame_encode hSize]
          simp only [ih hRest (by omega : _ ≤ fuel)]
          rfl

/-- A length prefix over the limit fails the whole extraction. -/
theorem extract_overLimit {bytes rest : List Byte} {frames : List (List Byte)}
    (h : Deframes bytes frames rest) (hRest : OverLimit rest) {fuel : Nat}
    (hFuel : bytes.length ≤ fuel) :
    FrameAccumulator.extract fuel bytes = .error (.frameTooLarge (announced rest)) := by
  induction h generalizing fuel with
  | incomplete hIncomplete => exact absurd hIncomplete (not_incomplete_of_overLimit hRest)
  | overLimit =>
      cases fuel with
      | zero =>
          have hHeader := hRest.1
          omega
      | succ fuel =>
          unfold FrameAccumulator.extract
          rw [readFrame_overLimit hRest]
  | frame hSize hAfter ih =>
      rw [List.length_append, length_encodeFrame] at hFuel
      cases fuel with
      | zero => omega
      | succ fuel =>
          unfold FrameAccumulator.extract
          rw [readFrame_encode hSize]
          simp only [ih hRest (by omega : _ ≤ fuel)]
          rfl

theorem pushBytes_frames {a : FrameAccumulator} {chunk rest : List Byte}
    {frames : List (List Byte)} (h : Deframes (a.buf ++ chunk) frames rest)
    (hRest : Incomplete rest) : a.pushBytes chunk = (.ok frames, ⟨rest⟩) := by
  unfold FrameAccumulator.pushBytes
  simp only [extract_frames h hRest (Nat.le_refl _)]

theorem pushBytes_overLimit {a : FrameAccumulator} {chunk rest : List Byte}
    {frames : List (List Byte)} (h : Deframes (a.buf ++ chunk) frames rest)
    (hRest : OverLimit rest) :
    a.pushBytes chunk = (.error (.frameTooLarge (announced rest)), ⟨a.buf ++ chunk⟩) := by
  unfold FrameAccumulator.pushBytes
  simp only [extract_overLimit h hRest (Nat.le_refl _)]

/-- Push chunks in order, up to the first error; the frames of all calls. -/
def feed : FrameAccumulator → List (List Byte) →
    Except FrameError (List (List Byte)) × FrameAccumulator
  | a, [] => (.ok [], a)
  | a, chunk :: chunks =>
      match a.pushBytes chunk with
      | (.error error, a) => (.error error, a)
      | (.ok frames, a) =>
          match feed a chunks with
          | (.error error, a) => (.error error, a)
          | (.ok later, a) => (.ok (frames ++ later), a)

/-- One frame decomposition decides what all chunks together return. -/
theorem feed_deframes {a : FrameAccumulator} {chunks : List (List Byte)} {rest : List Byte}
    {frames : List (List Byte)} (h : Deframes (a.buf ++ chunks.flatten) frames rest)
    (hRest : Incomplete rest) (hBuffered : Incomplete a.buf) :
    feed a chunks = (.ok frames, ⟨rest⟩) := by
  induction chunks generalizing a frames with
  | nil =>
      rw [List.flatten_nil, List.append_nil] at h
      obtain ⟨rfl, rfl⟩ := h.unique (.incomplete hBuffered)
      rfl
  | cons chunk chunks ih =>
      rw [List.flatten_cons, ← List.append_assoc] at h
      obtain ⟨first, held, hFirst⟩ := exists_deframes (a.buf ++ chunk)
      have hHeld : Incomplete held := by
        rcases hFirst.rest_cases with hHeld | hOver
        · exact hHeld
        · -- An over-limit prefix would still be there after the last chunk.
          obtain ⟨-, rfl⟩ := h.unique (hFirst.append_overLimit hOver chunks.flatten)
          exact absurd hRest (not_incomplete_of_overLimit (overLimit_append hOver _))
      obtain ⟨later, rest', hLater⟩ := exists_deframes (held ++ chunks.flatten)
      obtain ⟨rfl, rfl⟩ := h.unique (hFirst.append hLater)
      unfold feed
      rw [pushBytes_frames hFirst hHeld]
      simp only [ih (a := ⟨held⟩) hLater hHeld]

/-- Encoded payloads, followed by an incomplete frame. -/
theorem deframes_encoded {payloads : List (List Byte)} {suffix : List Byte}
    (hSizes : ∀ payload ∈ payloads, payload.length ≤ maxFrameSize) (hSuffix : Incomplete suffix) :
    Deframes ((payloads.map encodeFrame).flatten ++ suffix) payloads suffix := by
  induction payloads with
  | nil => exact .incomplete hSuffix
  | cons payload payloads ih =>
      rw [List.map_cons, List.flatten_cons, List.append_assoc]
      exact .frame (hSizes payload (by simp)) (ih fun p hp => hSizes p (by simp [hp]))

/-- A strict prefix of a frame is incomplete. -/
theorem incomplete_of_prefix {next suffix : List Byte} (hNext : next.length ≤ maxFrameSize)
    (hPrefix : suffix <+: encodeFrame next) (hStrict : suffix ≠ encodeFrame next) :
    Incomplete suffix := by
  obtain ⟨missing, hFrame⟩ := hPrefix
  have hMissing : missing.length ≠ 0 := by
    intro hNone
    rw [List.length_eq_zero_iff.mp hNone, List.append_nil] at hFrame
    exact hStrict hFrame
  have hLength := congrArg List.length hFrame
  rw [List.length_append, length_encodeFrame] at hLength
  by_cases hHeader : suffix.length < 4
  · exact .inl hHeader
  · have hAnnounced := announced_encodeFrame hNext []
    rw [List.append_nil, ← hFrame, announced_append (by omega)] at hAnnounced
    exact .inr ⟨by omega, by omega⟩

/-- **Frame stream round trip.**  However the encodings of the payloads and
the beginning of one more frame are cut into chunks, feeding them never
errors, returns the payloads in order, and leaves that beginning buffered. -/
theorem feed_frames {payloads chunks : List (List Byte)} {next suffix : List Byte}
    (hSizes : ∀ payload ∈ payloads, payload.length ≤ maxFrameSize)
    (hNext : next.length ≤ maxFrameSize)
    (hPrefix : suffix <+: encodeFrame next) (hStrict : suffix ≠ encodeFrame next)
    (hChunks : chunks.flatten = (payloads.map encodeFrame).flatten ++ suffix) :
    feed .new chunks = (.ok payloads, ⟨suffix⟩) := by
  have hSuffix := incomplete_of_prefix hNext hPrefix hStrict
  have hStream : Deframes (FrameAccumulator.new.buf ++ chunks.flatten) payloads suffix := by
    show Deframes chunks.flatten payloads suffix
    rw [hChunks]
    exact deframes_encoded hSizes hSuffix
  exact feed_deframes hStream hSuffix (.inl (by decide))

/-- Two frames and one byte of a third, cut in the middle of the first
header and with an empty chunk. -/
theorem feed_two_frames :
    feed .new [[0, 0], [], [0, 1, 7, 0, 0, 0, 0], [0]] = (.ok [[7], []], ⟨[0]⟩) :=
  @feed_frames _ _ [] _ (by decide) (by decide) ⟨[0, 0, 0], by decide⟩ (by decide) (by decide)

end CastApp.Cast.FrameStream
