import CastApp.Cast.Codec

/-!
# What a varint is

The bytes in front of the first clear high bit denote a number, seven bits
each, least significant first.  The decoder accepts exactly the strings in
which that number fits 64 bits, and no string denotes its value in fewer
bytes than the encoder writes.

* `varintDecodeFrom_ok_iff`, `varintDecodeFrom_unexpectedEnd_iff` — the
  decoder at any byte, with any groups read before it.
* `le_length_encodeGroups` — the encoder stops as early as it can.
* **`varint_exact`** — all of the decoder's answers, and the round trip.
-/

namespace CastApp.Cast.VarintExact

open CastApp.State
open CastApp.Cast.Proto
open CastApp.Cast.Codec

/-- The high bit: another byte follows. -/
def Continues (b : Byte) : Prop := b &&& 0x80 ≠ 0

instance (b : Byte) : Decidable (Continues b) := inferInstanceAs (Decidable (b &&& 0x80 ≠ 0))

/-- The low seven bits. -/
def group (b : Byte) : Nat := (b &&& 0x7F).toNat

/-- The number that groups denote, least significant first. -/
def denote : List Byte → Nat
  | [] => 0
  | b :: rest => group b + 128 * denote rest

/-- A varint may end with the byte before index `n`. -/
def EndsAt (bytes : List Byte) (n : Nat) : Prop :=
  0 < n ∧ ∃ b, bytes[n - 1]? = some b ∧ ¬ Continues b

/-- `n` is the first such index, at most ten, and the groups before it denote
`value`. -/
structure Denotes (bytes : List Byte) (value n : Nat) : Prop where
  hTen : n ≤ 10
  hEnd : EndsAt bytes n
  hLeast : ∀ m, EndsAt bytes m → n ≤ m
  hValue : denote (bytes.take n) = value

/-- The bytes break off inside a varint that could still fit. -/
structure Unfinished (bytes : List Byte) : Prop where
  hTen : bytes.length ≤ 10
  hContinues : ∀ b ∈ bytes, Continues b
  hTenth : ∀ b, bytes[9]? = some b → group b ≤ 1

/-! ## Groups -/

theorem group_lt (b : Byte) : group b < 128 := by
  unfold group
  rw [UInt8.toNat_and]
  have hMask : (0x7F : UInt8).toNat = 2 ^ 7 - 1 := rfl
  rw [hMask, Nat.and_two_pow_sub_one_eq_mod]
  omega

theorem denote_lt (bytes : List Byte) : denote bytes < 2 ^ (7 * bytes.length) := by
  induction bytes with
  | nil => decide
  | cons b rest ih =>
      have hGroup := group_lt b
      have hPow : 2 ^ (7 * (rest.length + 1)) = 2 ^ (7 * rest.length) * 128 := by
        rw [Nat.mul_add, Nat.pow_add]
      rw [List.length_cons, hPow]
      show group b + 128 * denote rest < _
      omega

theorem tenth_iff (b : Byte) : b &&& 0x7F > 0x01 ↔ 1 < group b := Iff.rfl

/-- The accumulator behind one more group. -/
theorem toNat_or_next {acc : UInt64} {b : Byte} {index : Nat} (hIndex : index < 10)
    (hLow : acc.toNat < 2 ^ (7 * index)) (hTenth : index = 9 → group b ≤ 1) :
    (acc ||| ((b &&& 0x7F).toUInt64 <<< (7 * index).toUInt64)).toNat =
      acc.toNat + group b * 2 ^ (7 * index) := by
  have hGroup := group_lt b
  apply toNat_or_group hIndex hLow
  show group b * 2 ^ (7 * index) < 2 ^ 64
  by_cases hNine : index = 9
  · have hOne := hTenth hNine
    rw [hNine]
    omega
  · have hPow : 2 ^ (7 * index) ≤ 2 ^ 56 := Nat.pow_le_pow_right (by decide) (by omega)
    have hMul : group b * 2 ^ (7 * index) ≤ 127 * 2 ^ 56 := Nat.mul_le_mul (by omega) hPow
    omega

theorem next_lt {acc : UInt64} {b : Byte} {index : Nat} (hIndex : index < 9)
    (hLow : acc.toNat < 2 ^ (7 * index)) :
    (acc ||| ((b &&& 0x7F).toUInt64 <<< (7 * index).toUInt64)).toNat < 2 ^ (7 * (index + 1)) := by
  have hGroup := group_lt b
  have hPow : 2 ^ (7 * (index + 1)) = 2 ^ (7 * index) * 128 := by
    rw [Nat.mul_add, Nat.pow_add]
  have hMul : group b * 2 ^ (7 * index) ≤ 127 * 2 ^ (7 * index) :=
    Nat.mul_le_mul_right _ (by omega)
  rw [toNat_or_next (by omega) hLow (by omega), hPow]
  omega

/-! ## One turn of the loop -/

variable {index k m : Nat} {acc value : UInt64} {b : Byte} {rest bytes : List Byte}

theorem decodeFrom_long (h : 10 ≤ index) :
    varintDecodeFrom index acc (b :: rest) = .error .varintOverflow := by
  unfold varintDecodeFrom
  rw [if_pos h]

theorem decodeFrom_tenth (hTenth : 1 < group b) :
    varintDecodeFrom 9 acc (b :: rest) = .error .varintOverflow := by
  unfold varintDecodeFrom
  rw [if_neg (by decide), if_pos ⟨rfl, hTenth⟩]

theorem decodeFrom_last (hIndex : index < 10) (hTenth : index = 9 → group b ≤ 1)
    (hLast : ¬ Continues b) :
    varintDecodeFrom index acc (b :: rest) =
      .ok (acc ||| ((b &&& 0x7F).toUInt64 <<< (7 * index).toUInt64), index + 1) := by
  unfold varintDecodeFrom
  have hFits : ¬ (index = 9 ∧ b &&& 0x7F > 0x01) := by
    rw [tenth_iff]
    omega
  rw [if_neg (by omega), if_neg hFits]
  exact if_pos (Decidable.not_not.mp hLast)

theorem decodeFrom_more (hIndex : index < 10) (hTenth : index = 9 → group b ≤ 1)
    (hMore : Continues b) :
    varintDecodeFrom index acc (b :: rest) =
      varintDecodeFrom (index + 1)
        (acc ||| ((b &&& 0x7F).toUInt64 <<< (7 * index).toUInt64)) rest := by
  conv => lhs; unfold varintDecodeFrom
  have hFits : ¬ (index = 9 ∧ b &&& 0x7F > 0x01) := by
    rw [tenth_iff]
    omega
  rw [if_neg (by omega), if_neg hFits]
  exact if_neg hMore

/-! ## The whole loop -/

/-- Behind `index` groups, the decoder accepts what continues up to a last
byte, before the tenth, as long as the sum fits. -/
theorem varintDecodeFrom_ok_iff (hLow : index < 10 → acc.toNat < 2 ^ (7 * index)) :
    varintDecodeFrom index acc bytes = .ok (value, m) ↔
      ∃ init last rest, bytes = init ++ last :: rest ∧ (∀ b ∈ init, Continues b) ∧
        ¬ Continues last ∧ m = index + init.length + 1 ∧ m ≤ 10 ∧
        acc.toNat + 2 ^ (7 * index) * denote (init ++ [last]) = value.toNat := by
  induction bytes generalizing index acc with
  | nil =>
      constructor
      · intro h
        cases h
      · rintro ⟨init, last, rest, hBytes, -⟩
        simp at hBytes
  | cons b bytes ih =>
      by_cases hLong : 10 ≤ index
      · rw [decodeFrom_long hLong]
        constructor
        · intro h
          cases h
        · rintro ⟨init, last, rest, -, -, -, hLength, hTen, -⟩
          omega
      have hIndex : index < 10 := by omega
      by_cases hOver : index = 9 ∧ 1 < group b
      · obtain ⟨rfl, hOver⟩ := hOver
        rw [decodeFrom_tenth hOver]
        constructor
        · intro h
          cases h
        · rintro ⟨init, last, rest, hBytes, -, -, hLength, hTen, hSum⟩
          obtain rfl : init = [] := List.eq_nil_of_length_eq_zero (by omega)
          obtain ⟨rfl, rfl⟩ := List.cons_eq_cons.mp hBytes
          have hFits := value.toNat_lt
          simp only [List.nil_append, denote] at hSum
          omega
      have hTenth : index = 9 → group b ≤ 1 := by omega
      have hNext := toNat_or_next hIndex (hLow hIndex) hTenth
      by_cases hMore : Continues b
      · rw [decodeFrom_more hIndex hTenth hMore, ih (fun h => next_lt (by omega) (hLow hIndex))]
        have hPow : 2 ^ (7 * (index + 1)) = 2 ^ (7 * index) * 128 := by
          rw [Nat.mul_add, Nat.pow_add]
        -- The group joins the accumulator on one side, the number on the other.
        have hStep : ∀ tail : List Byte,
            (acc ||| ((b &&& 0x7F).toUInt64 <<< (7 * index).toUInt64)).toNat +
                2 ^ (7 * (index + 1)) * denote tail =
              acc.toNat + 2 ^ (7 * index) * denote (b :: tail) := by
          intro tail
          rw [hNext, hPow, Nat.mul_assoc, Nat.mul_comm (group b), Nat.add_assoc, ← Nat.mul_add]
          rfl
        constructor
        · rintro ⟨init, last, rest, rfl, hInit, hLast, rfl, hTen, hSum⟩
          refine ⟨b :: init, last, rest, rfl, List.forall_mem_cons.mpr ⟨hMore, hInit⟩, hLast,
            by rw [List.length_cons]; omega, hTen, ?_⟩
          rw [← hSum, hStep]
          rfl
        · rintro ⟨init, last, rest, hBytes, hInit, hLast, rfl, hTen, hSum⟩
          cases init with
          | nil =>
              obtain ⟨rfl, -⟩ := List.cons_eq_cons.mp hBytes
              exact absurd hMore hLast
          | cons b' init =>
              obtain ⟨rfl, rfl⟩ := List.cons_eq_cons.mp hBytes
              refine ⟨init, last, rest, rfl, (List.forall_mem_cons.mp hInit).2, hLast,
                by rw [List.length_cons]; omega, hTen, ?_⟩
              rw [← hSum, hStep]
              rfl
      · rw [decodeFrom_last hIndex hTenth hMore]
        constructor
        · intro h
          cases h
          refine ⟨[], b, bytes, rfl, by simp, hMore, rfl, by omega, ?_⟩
          rw [hNext, Nat.mul_comm (group b)]
          simp [denote]
        · rintro ⟨init, last, rest, hBytes, hInit, -, rfl, -, hSum⟩
          cases init with
          | nil =>
              obtain ⟨rfl, rfl⟩ := List.cons_eq_cons.mp hBytes
              have hValue : acc ||| ((b &&& 0x7F).toUInt64 <<< (7 * index).toUInt64) = value := by
                apply UInt64.toNat_inj.mp
                rw [hNext, ← hSum, Nat.mul_comm (group b)]
                simp [denote]
              rw [hValue]
              rfl
          | cons b' init =>
              obtain ⟨rfl, -⟩ := List.cons_eq_cons.mp hBytes
              exact absurd (hInit b (by simp)) hMore

/-- Behind `index` groups, the decoder runs out of bytes when all of them
continue and the tenth could still fit. -/
theorem varintDecodeFrom_unexpectedEnd_iff (hIndex : index ≤ 10) :
    varintDecodeFrom index acc bytes = .error (.unexpectedEnd k) ↔
      k = index + bytes.length ∧ k ≤ 10 ∧ (∀ b ∈ bytes, Continues b) ∧
        (index ≤ 9 → ∀ b, bytes[9 - index]? = some b → group b ≤ 1) := by
  induction bytes generalizing index acc with
  | nil =>
      constructor
      · intro h
        cases h
        exact ⟨rfl, hIndex, by simp, by simp⟩
      · rintro ⟨rfl, -, -, -⟩
        rfl
  | cons b bytes ih =>
      by_cases hLong : 10 ≤ index
      · rw [decodeFrom_long hLong]
        constructor
        · intro h
          cases h
        · rintro ⟨rfl, hTen, -, -⟩
          rw [List.length_cons] at hTen
          omega
      by_cases hOver : index = 9 ∧ 1 < group b
      · obtain ⟨rfl, hOver⟩ := hOver
        rw [decodeFrom_tenth hOver]
        constructor
        · intro h
          cases h
        · rintro ⟨-, -, -, hTenth⟩
          have hLe := hTenth (by decide) b rfl
          omega
      have hTenth : index = 9 → group b ≤ 1 := by omega
      by_cases hMore : Continues b
      · rw [decodeFrom_more (by omega) hTenth hMore, ih (by omega), List.length_cons,
          List.forall_mem_cons]
        have hHere : (index ≤ 9 → ∀ b', (b :: bytes)[9 - index]? = some b' → group b' ≤ 1) ↔
            (index + 1 ≤ 9 → ∀ b', bytes[9 - (index + 1)]? = some b' → group b' ≤ 1) := by
          by_cases hNine : index = 9
          · subst hNine
            simpa using hTenth rfl
          · have hAt : 9 - index = 9 - (index + 1) + 1 := by omega
            rw [hAt, List.getElem?_cons_succ]
            exact ⟨fun h _ => h (by omega), fun h _ => h (by omega)⟩
        rw [hHere, Nat.add_assoc, Nat.add_comm 1]
        simp only [hMore, true_and]
      · rw [decodeFrom_last (by omega) hTenth hMore]
        constructor
        · intro h
          cases h
        · rintro ⟨-, -, hAll, -⟩
          exact absurd (hAll b (by simp)) hMore

/-- There are no other errors. -/
theorem varintDecodeFrom_error {e : ProtoError}
    (h : varintDecodeFrom index acc bytes = .error e) :
    e = .varintOverflow ∨ ∃ k, e = .unexpectedEnd k := by
  induction bytes generalizing index acc with
  | nil =>
      cases h
      exact .inr ⟨index, rfl⟩
  | cons b bytes ih =>
      unfold varintDecodeFrom at h
      split at h
      · cases h
        exact .inl rfl
      split at h
      · cases h
        exact .inl rfl
      dsimp only at h
      split at h
      · cases h
      · exact ih h

/-! ## The decoder's answers -/

theorem endsAt_iff {n : Nat} :
    EndsAt bytes (n + 1) ↔ ∃ b, bytes[n]? = some b ∧ ¬ Continues b := by
  unfold EndsAt
  simp

/-- The first byte that does not continue splits the bytes. -/
theorem denotes_iff_split {v n : Nat} :
    Denotes bytes v n ↔
      ∃ init last rest, bytes = init ++ last :: rest ∧ (∀ b ∈ init, Continues b) ∧
        ¬ Continues last ∧ n = init.length + 1 ∧ n ≤ 10 ∧ denote (init ++ [last]) = v := by
  constructor
  · intro h
    obtain ⟨hPos, last, hLast, hClear⟩ := h.hEnd
    obtain ⟨hLt, hAt⟩ := List.getElem?_eq_some_iff.mp hLast
    have hTake : bytes.take n = bytes.take (n - 1) ++ [last] := by
      have hSucc : n = (n - 1) + 1 := by omega
      conv => lhs; rw [hSucc]
      rw [List.take_succ_eq_append_getElem hLt, hAt]
    refine ⟨bytes.take (n - 1), last, bytes.drop n, ?_, ?_, hClear, ?_, h.hTen, ?_⟩
    · have hWhole := List.take_append_drop n bytes
      rw [hTake, List.append_assoc] at hWhole
      exact hWhole.symm
    · intro b hb
      obtain ⟨i, hi, rfl⟩ := List.mem_take_iff_getElem.mp hb
      apply Classical.byContradiction
      intro hStop
      have hLe := h.hLeast (i + 1) (endsAt_iff.mpr
        ⟨_, List.getElem?_eq_getElem (by omega), hStop⟩)
      omega
    · rw [List.length_take]
      omega
    · rw [← hTake]
      exact h.hValue
  · rintro ⟨init, last, rest, rfl, hInit, hClear, rfl, hTen, rfl⟩
    refine ⟨hTen, endsAt_iff.mpr ⟨last, by simp, hClear⟩, ?_, ?_⟩
    · intro m hEnd
      apply Classical.byContradiction
      intro hEarly
      obtain ⟨hPos, b, hb, hStop⟩ := hEnd
      rw [List.getElem?_append_left (by omega)] at hb
      exact hStop (hInit b (List.mem_of_getElem? hb))
    · have hTake : (init ++ last :: rest).take (init.length + 1) = init ++ [last] := by
        rw [List.take_length_add_append]
        rfl
      rw [hTake]

theorem varintDecode_ok_iff {n : Nat} :
    varintDecode bytes = .ok (value, n) ↔ Denotes bytes value.toNat n := by
  unfold varintDecode
  rw [varintDecodeFrom_ok_iff (by decide), denotes_iff_split]
  simp

theorem varintDecode_unexpectedEnd_iff :
    varintDecode bytes = .error (.unexpectedEnd k) ↔ k = bytes.length ∧ Unfinished bytes := by
  unfold varintDecode
  rw [varintDecodeFrom_unexpectedEnd_iff (by decide), Nat.zero_add]
  constructor
  · rintro ⟨rfl, hTen, hAll, hTenth⟩
    exact ⟨rfl, hTen, hAll, hTenth (by decide)⟩
  · rintro ⟨rfl, hTen, hAll, hTenth⟩
    exact ⟨rfl, hTen, hAll, fun _ => hTenth⟩

/-- All that is left is an overflow. -/
theorem varintDecode_overflow_iff :
    varintDecode bytes = .error .varintOverflow ↔
      ¬ (∃ value n, value < 2 ^ 64 ∧ Denotes bytes value n) ∧ ¬ Unfinished bytes := by
  constructor
  · intro h
    constructor
    · rintro ⟨value, n, hFits, hDenotes⟩
      have hValue : (UInt64.ofNat value).toNat = value := by
        rw [UInt64.toNat_ofNat']
        exact Nat.mod_eq_of_lt hFits
      rw [← hValue] at hDenotes
      rw [varintDecode_ok_iff.mpr hDenotes] at h
      cases h
    · intro hUnfinished
      rw [varintDecode_unexpectedEnd_iff.mpr ⟨rfl, hUnfinished⟩] at h
      cases h
  · rintro ⟨hNone, hFinished⟩
    cases hRead : varintDecode bytes with
    | ok read =>
        obtain ⟨value, n⟩ := read
        exact absurd ⟨_, n, value.toNat_lt, varintDecode_ok_iff.mp hRead⟩ hNone
    | error e =>
        rcases varintDecodeFrom_error hRead with rfl | ⟨k, rfl⟩
        · rfl
        · exact absurd (varintDecode_unexpectedEnd_iff.mp hRead).2 hFinished

/-! ## The shortest string -/

/-- The encoder goes on only while there is something left to write. -/
theorem length_encodeGroups_le (groups : Nat) (value : UInt64) :
    (varintEncodeGroups groups value).length ≤ 1 ∨
      2 ^ (7 * ((varintEncodeGroups groups value).length - 1)) ≤ value.toNat := by
  induction groups generalizing value with
  | zero => exact .inl (Nat.zero_le 1)
  | succ groups ih =>
      unfold varintEncodeGroups
      dsimp only
      by_cases hRest : value >>> 7 = 0
      · rw [if_pos hRest]
        exact .inl (Nat.le_refl 1)
      · rw [if_neg hRest, List.length_cons, Nat.add_sub_cancel]
        right
        have hMore := ih (value >>> 7)
        rw [toNat_shift_group] at hMore
        have hSome : 0 < value.toNat / 128 := by
          rw [← toNat_shift_group]
          apply Nat.pos_of_ne_zero
          intro hZero
          exact hRest (UInt64.toNat_inj.mp hZero)
        generalize (varintEncodeGroups groups (value >>> 7)).length = length at hMore
        cases length with
        | zero =>
            show 1 ≤ value.toNat
            omega
        | succ length =>
            have hPow : 2 ^ (7 * (length + 1)) = 2 ^ (7 * length) * 128 := by
              rw [Nat.mul_add, Nat.pow_add]
            have hPrev : 2 ^ (7 * length) ≤ value.toNat / 128 := by
              rcases hMore with hOne | hMore
              · obtain rfl : length = 0 := by omega
                exact hSome
              · exact hMore
            omega

/-- What is read as a value takes at least the bytes the encoder writes. -/
theorem le_length_encode {n : Nat} (h : varintDecode bytes = .ok (value, n)) :
    (varintEncode value).length ≤ n := by
  have hDenotes := varintDecode_ok_iff.mp h
  have hBound := denote_lt (bytes.take n)
  rw [hDenotes.hValue, List.length_take] at hBound
  have hPow : 2 ^ (7 * min n bytes.length) ≤ 2 ^ (7 * n) :=
    Nat.pow_le_pow_right (by decide) (by omega)
  have hPos := hDenotes.hEnd.1
  rcases length_encodeGroups_le 10 value with hOne | hMore
  · show (varintEncodeGroups 10 value).length ≤ n
    omega
  · have hExp := (Nat.pow_lt_pow_iff_right (by decide)).mp
      (Nat.lt_of_le_of_lt hMore (Nat.lt_of_lt_of_le hBound hPow))
    show (varintEncodeGroups 10 value).length ≤ n
    omega

/-- A decoded varint lies within the bytes. -/
theorem consumed_le_length {n : Nat} (h : varintDecode bytes = .ok (value, n)) :
    n ≤ bytes.length := by
  obtain ⟨init, last, rest, rfl, -, -, rfl, -⟩ :=
    denotes_iff_split.mp (varintDecode_ok_iff.mp h)
  rw [List.length_append, List.length_cons]
  omega

/-! ## The codec -/

/-- The decoder's answer is decided by the bytes alone, as stated; what the
encoder writes is read back whatever follows it, and nothing shorter is. -/
theorem varint_exact :
    (∀ (bytes : List Byte) (value : UInt64) (n : Nat),
      varintDecode bytes = .ok (value, n) ↔ Denotes bytes value.toNat n) ∧
    (∀ (bytes : List Byte) (k : Nat),
      varintDecode bytes = .error (.unexpectedEnd k) ↔ k = bytes.length ∧ Unfinished bytes) ∧
    (∀ bytes : List Byte,
      varintDecode bytes = .error .varintOverflow ↔
        ¬ (∃ value n, value < 2 ^ 64 ∧ Denotes bytes value n) ∧ ¬ Unfinished bytes) ∧
    (∀ (bytes : List Byte) (e : ProtoError), varintDecode bytes = .error e →
      e = .varintOverflow ∨ ∃ k, e = .unexpectedEnd k) ∧
    (∀ (value : UInt64) (rest : List Byte),
      varintDecode (varintEncode value ++ rest) = .ok (value, (varintEncode value).length)) ∧
    ∀ (bytes : List Byte) (value : UInt64) (n : Nat),
      varintDecode bytes = .ok (value, n) → (varintEncode value).length ≤ bytes.length := by
  refine ⟨fun _ _ _ => varintDecode_ok_iff, fun _ _ => varintDecode_unexpectedEnd_iff,
    fun _ => varintDecode_overflow_iff, fun _ _ => varintDecodeFrom_error,
    varintDecode_encode, ?_⟩
  intro bytes value n h
  have hEncoded := le_length_encode h
  have hWithin := consumed_le_length h
  omega

end CastApp.Cast.VarintExact
