import CastApp.State

/-!
# Strings and their bytes

`str::as_bytes` and `String::from_utf8_lossy`.  The lossy decoder replaces
each maximal invalid prefix by one U+FFFD, and gives back every string that
really was encoded (`fromUtf8Lossy_asBytes`).  Whatever stands in front of an
ASCII byte, valid or not, is decoded for itself (`fromUtf8Lossy_append_ascii`).
-/

namespace CastApp.Util.Utf8

open CastApp.State

/-- `str::as_bytes`. -/
def asBytes (s : String) : List Byte := s.toList.flatMap String.utf8EncodeChar

theorem asBytes_append (s t : String) : asBytes (s ++ t) = asBytes s ++ asBytes t := by
  simp [asBytes]

/-- `10xxxxxx`. -/
def isContinuation (b : Byte) : Bool := b &&& 0xC0 == 0x80

/-- The first two bytes of a three-byte character. -/
def opensThree (first second : Byte) : Bool :=
  (first == 0xE0 && 0xA0 ≤ second && second ≤ 0xBF) ||
    (0xE1 ≤ first && first ≤ 0xEC && isContinuation second) ||
    (first == 0xED && 0x80 ≤ second && second ≤ 0x9F) ||
    (0xEE ≤ first && first ≤ 0xEF && isContinuation second)

/-- The first two bytes of a four-byte character. -/
def opensFour (first second : Byte) : Bool :=
  (first == 0xF0 && 0x90 ≤ second && second ≤ 0xBF) ||
    (0xF1 ≤ first && first ≤ 0xF3 && isContinuation second) ||
    (first == 0xF4 && 0x80 ≤ second && second ≤ 0x8F)

/-- How many bytes one replacement character stands for, at the start of
bytes that begin no character. -/
def invalidPrefix : List Byte → Nat
  | first :: second :: rest =>
      if opensThree first second then
        2
      else if opensFour first second then
        match rest with
        | third :: _ => if isContinuation third then 3 else 2
        | [] => 2
      else
        1
  | _ => 1

def lossyChars : Nat → List Byte → List Char
  | 0, _ => []
  | _ + 1, [] => []
  | fuel + 1, bytes =>
      match bytes.toByteArray.utf8DecodeChar? 0 with
      | some c => c :: lossyChars fuel (bytes.drop c.utf8Size)
      | none => '\uFFFD' :: lossyChars fuel (bytes.drop (invalidPrefix bytes))

/-- `String::from_utf8_lossy`; every step consumes at least one byte. -/
def fromUtf8Lossy (bytes : List Byte) : String :=
  String.ofList (lossyChars bytes.length bytes)

/-- More fuel than bytes changes nothing: the decoder stops at the end. -/
theorem lossyChars_nil (fuel : Nat) : lossyChars fuel [] = [] := by
  cases fuel <;> rfl

/-- An encoded character is decoded as itself. -/
theorem lossyChars_utf8EncodeChar (fuel : Nat) (c : Char) (rest : List Byte) :
    lossyChars (fuel + 1) (String.utf8EncodeChar c ++ rest) =
      c :: lossyChars fuel rest := by
  have hDecode :
      (String.utf8EncodeChar c ++ rest).toByteArray.utf8DecodeChar? 0 = some c := by
    rw [List.toByteArray_append]
    exact ByteArray.utf8DecodeChar?_utf8EncodeChar_append
  have hLength := String.length_utf8EncodeChar c
  obtain ⟨b, bytes, hBytes⟩ :
      ∃ b bytes, String.utf8EncodeChar c ++ rest = b :: bytes := by
    cases hChar : String.utf8EncodeChar c with
    | nil =>
        rw [hChar] at hLength
        have := c.utf8Size_pos
        simp at hLength
        omega
    | cons b bytes => exact ⟨b, bytes ++ rest, rfl⟩
  rw [hBytes, lossyChars, ← hBytes, hDecode]
  · show c :: lossyChars fuel ((String.utf8EncodeChar c ++ rest).drop c.utf8Size) = _
    rw [← hLength, List.drop_left]
  · simp

theorem lossyChars_flatMap (cs : List Char) (fuel : Nat) (hFuel : cs.length ≤ fuel) :
    lossyChars fuel (cs.flatMap String.utf8EncodeChar) = cs := by
  induction cs generalizing fuel with
  | nil => exact lossyChars_nil fuel
  | cons c cs ih =>
      cases fuel with
      | zero => simp at hFuel
      | succ fuel =>
          rw [List.flatMap_cons, lossyChars_utf8EncodeChar, ih fuel]
          simpa using hFuel

theorem length_le_flatMap_utf8EncodeChar (cs : List Char) :
    cs.length ≤ (cs.flatMap String.utf8EncodeChar).length := by
  induction cs with
  | nil => exact Nat.le_refl 0
  | cons c cs ih =>
      rw [List.flatMap_cons, List.length_append, String.length_utf8EncodeChar]
      have := c.utf8Size_pos
      simp only [List.length_cons]
      omega

/-- Decoding what was encoded gives the string back. -/
theorem fromUtf8Lossy_asBytes (s : String) : fromUtf8Lossy (asBytes s) = s := by
  unfold fromUtf8Lossy asBytes
  rw [lossyChars_flatMap _ _ (length_le_flatMap_utf8EncodeChar _)]
  exact String.ofList_toList

/-! ## One step of the lossy decoder -/

/-- The first character and the number of bytes it stands for. -/
def lossyHead (bytes : List Byte) : Char × Nat :=
  match bytes.toByteArray.utf8DecodeChar? 0 with
  | some c => (c, c.utf8Size)
  | none => ('\uFFFD', invalidPrefix bytes)

theorem lossyChars_succ {bytes : List Byte} (h : bytes ≠ []) (fuel : Nat) :
    lossyChars (fuel + 1) bytes =
      (lossyHead bytes).1 :: lossyChars fuel (bytes.drop (lossyHead bytes).2) := by
  unfold lossyHead
  cases bytes with
  | nil => exact absurd rfl h
  | cons byte bytes =>
      rw [lossyChars]
      · cases (byte :: bytes).toByteArray.utf8DecodeChar? 0 <;> rfl
      · simp

theorem invalidPrefix_pos (bytes : List Byte) : 0 < invalidPrefix bytes := by
  fun_cases invalidPrefix bytes <;> omega

theorem invalidPrefix_le {bytes : List Byte} (h : bytes ≠ []) :
    invalidPrefix bytes ≤ bytes.length := by
  have hPos := List.length_pos_iff.mpr h
  fun_cases invalidPrefix bytes <;> grind

theorem lossyHead_pos (bytes : List Byte) : 0 < (lossyHead bytes).2 := by
  unfold lossyHead
  cases bytes.toByteArray.utf8DecodeChar? 0 with
  | some c => exact c.utf8Size_pos
  | none => exact invalidPrefix_pos bytes

/-- Fuel for every byte is enough. -/
theorem lossyChars_fuel {bytes : List Byte} {fuel fuel' : Nat} (h : bytes.length ≤ fuel)
    (h' : bytes.length ≤ fuel') : lossyChars fuel bytes = lossyChars fuel' bytes := by
  induction fuel generalizing fuel' bytes with
  | zero =>
      obtain rfl := List.length_eq_zero_iff.mp (Nat.le_zero.mp h)
      rw [lossyChars_nil, lossyChars_nil]
  | succ fuel ih =>
      by_cases hNil : bytes = []
      · subst hNil
        rw [lossyChars_nil, lossyChars_nil]
      · have hSome := List.length_pos_iff.mpr hNil
        have hPos := lossyHead_pos bytes
        obtain ⟨fuel', rfl⟩ : ∃ n, fuel' = n + 1 := ⟨fuel' - 1, by omega⟩
        rw [lossyChars_succ hNil, lossyChars_succ hNil]
        congr 1
        apply ih <;> rw [List.length_drop] <;> omega

/-! ## An ASCII byte begins a character -/

theorem ascii_starts {b : Byte} (h : b < 0x80) :
    b.IsUTF8FirstByte ∧ isContinuation b = false := by
  have hAll : ∀ n < 128,
      (UInt8.ofNat n).IsUTF8FirstByte ∧ isContinuation (UInt8.ofNat n) = false := by decide
  have hByte := hAll b.toNat h
  rwa [UInt8.ofNat_toNat] at hByte

/-- An ASCII byte stands for nothing but its character. -/
theorem eq_of_mem_utf8EncodeChar {c d : Char} {b : Byte} (hAscii : b < 0x80)
    (hChar : String.utf8EncodeChar d = [b]) (h : b ∈ String.utf8EncodeChar c) : c = d := by
  obtain ⟨i, hi, hByte⟩ := List.getElem_of_mem h
  have hFirst := (ascii_starts hAscii).1
  rw [← hByte, UInt8.isUTF8FirstByte_getElem_utf8EncodeChar] at hFirst
  subst hFirst
  obtain ⟨rest, hRest⟩ : ∃ rest, String.utf8EncodeChar c = String.utf8EncodeChar d ++ rest := by
    cases hBytes : String.utf8EncodeChar c with
    | nil => exact absurd hBytes String.utf8EncodeChar_ne_nil
    | cons first rest =>
        simp only [hBytes, List.getElem_cons_zero] at hByte
        exact ⟨rest, by rw [hChar, hByte]; rfl⟩
  have hDecode : (String.utf8EncodeChar c).toByteArray.utf8DecodeChar? 0 = some c := by
    have hSelf := ByteArray.utf8DecodeChar?_utf8EncodeChar_append (b := .empty) (c := c)
    simpa using hSelf
  rw [hRest, List.toByteArray_append, ByteArray.utf8DecodeChar?_utf8EncodeChar_append] at hDecode
  exact (Option.some.inj hDecode).symm

theorem not_mem_asBytes {d : Char} {b : Byte} {text : String} (hAscii : b < 0x80)
    (hChar : String.utf8EncodeChar d = [b]) (h : d ∉ text.toList) : b ∉ asBytes text := by
  intro hMem
  obtain ⟨c, hText, hByte⟩ := List.mem_flatMap.mp hMem
  obtain rfl := eq_of_mem_utf8EncodeChar hAscii hChar hByte
  exact h hText

theorem opensThree_ascii {b : Byte} (h : b < 0x80) (first : Byte) :
    opensThree first b = false := by
  have hContinuation := (ascii_starts h).2
  have hLow : ¬ (0xA0 : Byte) ≤ b := by grind
  have hLow' : ¬ (0x80 : Byte) ≤ b := by grind
  simp [opensThree, hContinuation, hLow, hLow']

theorem opensFour_ascii {b : Byte} (h : b < 0x80) (first : Byte) :
    opensFour first b = false := by
  have hContinuation := (ascii_starts h).2
  have hLow : ¬ (0x90 : Byte) ≤ b := by grind
  have hLow' : ¬ (0x80 : Byte) ≤ b := by grind
  simp [opensFour, hContinuation, hLow, hLow']

variable {xs ys : List Byte} {b : Byte}

theorem invalidPrefix_append_ascii (hFront : xs ≠ []) (hAscii : b < 0x80) :
    invalidPrefix (xs ++ b :: ys) = invalidPrefix xs := by
  match xs, hFront with
  | [first], _ => simp [invalidPrefix, opensThree_ascii hAscii, opensFour_ascii hAscii]
  | [first, second], _ => simp [invalidPrefix, (ascii_starts hAscii).2]
  | first :: second :: third :: rest, _ => simp [invalidPrefix]

/-- A character that begins in front of an ASCII byte ends there. -/
theorem utf8Size_le_of_ascii {c : Char} {rest : List Byte} (hFront : xs ≠ [])
    (hAscii : b < 0x80) (h : xs ++ b :: ys = String.utf8EncodeChar c ++ rest) :
    c.utf8Size ≤ xs.length := by
  apply Nat.le_of_not_lt
  intro hLong
  rw [← String.length_utf8EncodeChar] at hLong
  have hByte : (String.utf8EncodeChar c)[xs.length] = b := by
    have hGet := congrArg (fun bytes => bytes[xs.length]?) h
    rw [List.getElem?_append_left hLong, List.getElem?_eq_getElem hLong] at hGet
    simpa using hGet.symm
  have hFirst := (ascii_starts hAscii).1
  rw [← hByte, UInt8.isUTF8FirstByte_getElem_utf8EncodeChar] at hFirst
  exact hFront (List.length_eq_zero_iff.mp hFirst)

theorem utf8DecodeChar?_append_ascii (hFront : xs ≠ []) (hAscii : b < 0x80) :
    (xs ++ b :: ys).toByteArray.utf8DecodeChar? 0 = xs.toByteArray.utf8DecodeChar? 0 := by
  cases hHere : xs.toByteArray.utf8DecodeChar? 0 with
  | some c =>
      rw [List.toByteArray_append]
      exact ByteArray.utf8DecodeChar?_append_eq_some hHere _
  | none =>
      cases hBoth : (xs ++ b :: ys).toByteArray.utf8DecodeChar? 0 with
      | none => rfl
      | some c =>
          -- The character would be whole in front of the byte.
          obtain ⟨rest, hRest⟩ := ByteArray.exists_of_utf8DecodeChar?_eq_some hBoth
          have hList : xs ++ b :: ys = String.utf8EncodeChar c ++ rest.data.toList := by
            have hData := congrArg (fun bytes => bytes.data.toList) hRest
            simpa using hData
          have hSize := utf8Size_le_of_ascii hFront hAscii hList
          rw [← String.length_utf8EncodeChar] at hSize
          obtain ⟨behind, rfl⟩ : ∃ behind, xs = String.utf8EncodeChar c ++ behind := by
            have hTake := congrArg (List.take (String.utf8EncodeChar c).length) hList
            rw [List.take_left, List.take_append_of_le_length hSize] at hTake
            exact ⟨_, by rw [← hTake, List.take_append_drop]⟩
          rw [List.toByteArray_append, ByteArray.utf8DecodeChar?_utf8EncodeChar_append] at hHere
          cases hHere

theorem lossyHead_append_ascii (hFront : xs ≠ []) (hAscii : b < 0x80) :
    lossyHead (xs ++ b :: ys) = lossyHead xs := by
  unfold lossyHead
  rw [utf8DecodeChar?_append_ascii hFront hAscii, invalidPrefix_append_ascii hFront hAscii]

theorem lossyHead_le (h : xs ≠ []) : (lossyHead xs).2 ≤ xs.length := by
  unfold lossyHead
  cases hChar : xs.toByteArray.utf8DecodeChar? 0 with
  | some c =>
      have hSize := ByteArray.le_size_of_utf8DecodeChar?_eq_some hChar
      simpa using hSize
  | none => exact invalidPrefix_le h

/-- What stands in front of an ASCII byte is decoded for itself. -/
theorem fromUtf8Lossy_append_ascii (xs ys : List Byte) (hAscii : b < 0x80) :
    fromUtf8Lossy (xs ++ b :: ys) = fromUtf8Lossy xs ++ fromUtf8Lossy (b :: ys) := by
  have hChars : ∀ fuel : Nat, xs.length + (b :: ys).length ≤ fuel →
      lossyChars fuel (xs ++ b :: ys) =
        lossyChars fuel xs ++ lossyChars (b :: ys).length (b :: ys) := by
    intro fuel hFuel
    induction fuel generalizing xs with
    | zero => simp at hFuel
    | succ fuel ih =>
        by_cases hNil : xs = []
        · subst hNil
          rw [List.nil_append, lossyChars_nil, List.nil_append]
          exact lossyChars_fuel (by simpa using hFuel) (Nat.le_refl _)
        · have hPos := lossyHead_pos xs
          have hLe := lossyHead_le hNil
          rw [lossyChars_succ (by simp), lossyChars_succ hNil,
            lossyHead_append_ascii hNil hAscii, List.drop_append_of_le_length hLe,
            ih, List.cons_append]
          rw [List.length_drop]
          omega
  unfold fromUtf8Lossy
  rw [← String.ofList_append, hChars _ (by simp)]
  congr 2
  exact lossyChars_fuel (by simp) (Nat.le_refl _)

end CastApp.Util.Utf8
