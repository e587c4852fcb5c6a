import Mathlib.Data.List.TakeWhile
import CastApp.Util.Utf8

/-!
# Pieces of `str`

The string functions the URL and header parsers use, on lists of characters.
-/

namespace CastApp.Util.Text

open CastApp.State
open CastApp.Util.Utf8

/-- `char::is_whitespace`. -/
def isWhitespace (c : Char) : Bool :=
  (0x9 ≤ c.toNat && c.toNat ≤ 0xD) || c.toNat == 0x20 || c.toNat == 0x85 || c.toNat == 0xA0 ||
    c.toNat == 0x1680 || (0x2000 ≤ c.toNat && c.toNat ≤ 0x200A) || c.toNat == 0x2028 ||
    c.toNat == 0x2029 || c.toNat == 0x202F || c.toNat == 0x205F || c.toNat == 0x3000

/-- `str::trim`. -/
def trim (text : List Char) : List Char :=
  ((text.dropWhile isWhitespace).reverse.dropWhile isWhitespace).reverse

/-- `str::strip_prefix`. -/
def stripStart : List Char → List Char → Option (List Char)
  | [], text => some text
  | _ :: _, [] => none
  | c :: start, d :: text => if c = d then stripStart start text else none

/-- `str::split_once`. -/
def splitOnce (separator : Char) : List Char → Option (List Char × List Char)
  | [] => none
  | c :: text =>
      if c = separator then
        some ([], text)
      else
        (splitOnce separator text).map fun parts => (c :: parts.1, parts.2)

/-- `str::split`; a text without the separator is one part. -/
def split (separator : Char) : List Char → List (List Char)
  | [] => [[]]
  | c :: text =>
      if c = separator then
        [] :: split separator text
      else
        match split separator text with
        | [] => [[c]]
        | first :: rest => (c :: first) :: rest

/-- Only capital letters have another lower case. -/
theorem toLower_eq_self {c : Char} (h : ¬ (65 ≤ c.toNat ∧ c.toNat ≤ 90)) : c.toLower = c := by
  unfold Char.toLower
  rw [dif_neg]
  intro hUpper
  exact h ⟨UInt32.le_iff_toNat_le.mp hUpper.1, UInt32.le_iff_toNat_le.mp hUpper.2⟩

theorem toNat_toLower {c : Char} (h : 65 ≤ c.toNat ∧ c.toNat ≤ 90) :
    c.toLower.toNat = c.toNat + 32 := by
  have hUpper : c.val ≥ 'A'.val ∧ c.val ≤ 'Z'.val :=
    ⟨UInt32.le_iff_toNat_le.mpr h.1, UInt32.le_iff_toNat_le.mpr h.2⟩
  have hDiff : ('a'.val - 'A'.val).toNat = 32 := rfl
  have hVal : c.val.toNat = c.toNat := rfl
  unfold Char.toLower
  rw [dif_pos hUpper]
  show (c.val + ('a'.val - 'A'.val)).toNat = c.toNat + 32
  rw [UInt32.toNat_add]
  omega

theorem toLower_toLower (c : Char) : c.toLower.toLower = c.toLower := by
  by_cases h : 65 ≤ c.toNat ∧ c.toNat ≤ 90
  · have hLower := toNat_toLower h
    exact toLower_eq_self (by omega)
  · rw [toLower_eq_self h, toLower_eq_self h]

theorem toList_toLower (text : String) : text.toLower.toList = text.toList.map Char.toLower :=
  String.toList_map

/-- A character that is no small letter is the lower case of itself only. -/
theorem eq_of_toLower {c d : Char} (hOther : ¬ (97 ≤ d.toNat ∧ d.toNat ≤ 122))
    (h : c.toLower = d) : c = d := by
  by_cases hUpper : 65 ≤ c.toNat ∧ c.toNat ≤ 90
  · have hLower := toNat_toLower hUpper
    rw [h] at hLower
    omega
  · rw [← h, toLower_eq_self hUpper]

/-- A class of characters without capital letters tells a character by its
lower case. -/
theorem false_of_toLower {p : Char → Bool}
    (hClass : ∀ c, p c = true → ¬ (65 ≤ c.toNat ∧ c.toNat ≤ 90)) {c : Char}
    (h : p c.toLower = false) : p c = false := by
  cases hSome : p c with
  | false => rfl
  | true =>
      rw [toLower_eq_self (hClass c hSome), hSome] at h
      exact h

/-- What is trimmed begins with no white space. -/
theorem trim_head {text rest : List Char} {c : Char} (h : trim text = c :: rest) :
    isWhitespace c = false := by
  have hFront := List.takeWhile_append_dropWhile (p := isWhitespace)
    (l := (text.dropWhile isWhitespace).reverse)
  rw [← List.reverse_inj, List.reverse_append, List.reverse_reverse] at hFront
  unfold trim at h
  rw [h] at hFront
  have hHead := List.head?_dropWhile_not isWhitespace text
  rw [← hFront] at hHead
  exact hHead

/-- What is dropped at the end stands behind a front that ends otherwise. -/
theorem dropEnd_append {p : Char → Bool} {front : List Char} {c : Char}
    (hLast : front.getLast? = some c) (hKept : p c = false) (rest : List Char) :
    ((front ++ rest).reverse.dropWhile p).reverse =
      front ++ (rest.reverse.dropWhile p).reverse := by
  have hFront : front.reverse.dropWhile p = front.reverse := by
    cases hReverse : front.reverse with
    | nil => rfl
    | cons d later =>
        have hHead : front.reverse.head? = some c := by
          rw [List.head?_reverse, hLast]
        rw [hReverse] at hHead
        cases hHead
        exact List.dropWhile_cons_of_neg (by rw [hKept]; exact Bool.false_ne_true)
  rw [List.reverse_append, List.dropWhile_append, hFront]
  split
  · next hNone =>
    rw [List.isEmpty_iff.mp hNone]
    simp
  · rw [List.reverse_append, List.reverse_reverse]

theorem splitOnce_append {separator : Char} {before : List Char} (h : separator ∉ before)
    (after : List Char) :
    splitOnce separator (before ++ separator :: after) = some (before, after) := by
  induction before with
  | nil => simp [splitOnce]
  | cons c before ih =>
      have hHead : c ≠ separator := fun hEq => h (by simp [hEq])
      have hRest : separator ∉ before := fun hMem => h (by simp [hMem])
      simp [splitOnce, hHead, ih hRest]

theorem splitOnce_of_not_mem {separator : Char} {text : List Char} (h : separator ∉ text) :
    splitOnce separator text = none := by
  induction text with
  | nil => rfl
  | cons c text ih =>
      have hHead : c ≠ separator := fun hEq => h (by simp [hEq])
      have hRest : separator ∉ text := fun hMem => h (by simp [hMem])
      simp [splitOnce, hHead, ih hRest]

/-- A text up to its first separator, if it has one. -/
theorem splitOnce_eq_some {separator : Char} {text before after : List Char}
    (h : splitOnce separator text = some (before, after)) :
    text = before ++ separator :: after ∧ separator ∉ before := by
  by_cases hMem : separator ∈ text
  · obtain ⟨first, later, rfl, hFirst⟩ := List.eq_append_cons_of_mem hMem
    rw [splitOnce_append hFirst] at h
    cases h
    exact ⟨rfl, hFirst⟩
  · rw [splitOnce_of_not_mem hMem] at h
    cases h

theorem split_of_not_mem {separator : Char} {text : List Char} (h : separator ∉ text) :
    split separator text = [text] := by
  induction text with
  | nil => rfl
  | cons c text ih =>
      have hHead : c ≠ separator := fun hEq => h (by simp [hEq])
      have hRest : separator ∉ text := fun hMem => h (by simp [hMem])
      simp [split, hHead, ih hRest]

theorem split_append {separator : Char} {before : List Char} (h : separator ∉ before)
    (after : List Char) :
    split separator (before ++ separator :: after) = before :: split separator after := by
  induction before with
  | nil => simp [split]
  | cons c before ih =>
      have hHead : c ≠ separator := fun hEq => h (by simp [hEq])
      have hRest : separator ∉ before := fun hMem => h (by simp [hMem])
      simp [split, hHead, ih hRest]

theorem split_ne_nil (separator : Char) (text : List Char) : split separator text ≠ [] := by
  cases text with
  | nil => simp [split]
  | cons c text =>
      unfold split
      split
      · simp
      · cases split separator text <;> simp

theorem two_le_length_split {separator : Char} {text : List Char} (h : separator ∈ text) :
    2 ≤ (split separator text).length := by
  obtain ⟨before, after, rfl, hBefore⟩ := List.eq_append_cons_of_mem h
  have hAfter := List.length_pos_iff.mpr (split_ne_nil separator after)
  rw [split_append hBefore, List.length_cons]
  omega

/-- The characters of the parts are those of the text, less the separators. -/
theorem forall_mem_split_iff {separator : Char} {P : Char → Prop} {text : List Char} :
    (∀ part ∈ split separator text, ∀ c ∈ part, P c) ↔ ∀ c ∈ text, c = separator ∨ P c := by
  induction text with
  | nil => simp [split]
  | cons c text ih =>
      unfold split
      by_cases hSeparator : c = separator
      · simp [hSeparator, ih]
      · rw [if_neg hSeparator]
        cases hParts : split separator text with
        | nil => exact absurd hParts (split_ne_nil separator text)
        | cons first rest =>
            rw [hParts] at ih
            simp only [List.forall_mem_cons] at ih ⊢
            rw [← ih, and_assoc, or_iff_right hSeparator]

theorem split_append_last {separator : Char} {after : List Char} (h : separator ∉ after)
    (before : List Char) :
    split separator (before ++ separator :: after) = split separator before ++ [after] := by
  induction before with
  | nil => simp [split, split_of_not_mem h]
  | cons c before ih =>
      rw [List.cons_append, split, split, ih]
      by_cases hSeparator : c = separator
      · rw [if_pos hSeparator, if_pos hSeparator, List.cons_append]
      · rw [if_neg hSeparator, if_neg hSeparator]
        cases hParts : split separator before with
        | nil => exact absurd hParts (split_ne_nil separator before)
        | cons first rest => rfl

/-- The parts, joined, are the text. -/
theorem intercalate_split (separator : Char) (text : List Char) :
    [separator].intercalate (split separator text) = text := by
  induction text with
  | nil => rfl
  | cons c text ih =>
      unfold split
      cases hParts : split separator text with
      | nil => exact absurd hParts (split_ne_nil separator text)
      | cons first rest =>
          rw [hParts] at ih
          by_cases hSeparator : c = separator
          · rw [if_pos hSeparator, List.intercalate_cons_cons, ih, hSeparator]
            rfl
          · rw [if_neg hSeparator]
            show [separator].intercalate ((c :: first) :: rest) = c :: text
            rw [← ih]
            cases rest with
            | nil => simp
            | cons => simp [List.intercalate_cons_cons]

/-- A text from its last separator on, if it has one. -/
theorem exists_last {separator : Char} {text : List Char} (h : separator ∈ text) :
    ∃ before after, text = before ++ separator :: after ∧ separator ∉ after := by
  obtain ⟨after, before, hText, hAfter⟩ := List.eq_append_cons_of_mem (List.mem_reverse.mpr h)
  refine ⟨before.reverse, after.reverse, ?_, by simpa using hAfter⟩
  simpa using congrArg List.reverse hText

/-- `rsplit(separator).next()`. -/
def lastPart (separator : Char) (text : List Char) : List Char :=
  ((split separator text).getLast?).getD []

theorem lastPart_append {separator : Char} {after : List Char} (h : separator ∉ after)
    (before : List Char) : lastPart separator (before ++ separator :: after) = after := by
  simp [lastPart, split_append_last h]

theorem lastPart_of_not_mem {separator : Char} {text : List Char} (h : separator ∉ text) :
    lastPart separator text = text := by
  simp [lastPart, split_of_not_mem h]

theorem stripStart_eq_some_iff {start text rest : List Char} :
    stripStart start text = some rest ↔ text = start ++ rest := by
  induction start generalizing text with
  | nil => simp [stripStart]
  | cons c start ih =>
      cases text with
      | nil => simp [stripStart]
      | cons d text =>
          unfold stripStart
          by_cases hHead : c = d
          · simp [hHead, ih]
          · simp [hHead, Ne.symm hHead]

/-- Nothing but white space is left of a text that is trimmed away. -/
theorem trim_eq_nil_iff {text : List Char} :
    trim text = [] ↔ ∀ c ∈ text, isWhitespace c = true := by
  unfold trim
  rw [List.reverse_eq_nil_iff, List.dropWhile_eq_nil_iff]
  constructor
  · intro h c hMem
    rw [← List.takeWhile_append_dropWhile (p := isWhitespace) (l := text)] at hMem
    rcases List.mem_append.mp hMem with hFront | hRest
    · exact List.mem_takeWhile_imp hFront
    · exact h c (List.mem_reverse.mpr hRest)
  · intro h c hMem
    exact h c ((List.dropWhile_sublist _).subset (List.mem_reverse.mp hMem))

/-- `str::parse::<u64>`: digits, behind a plus sign or not. -/
def parseU64 (text : List Char) : Option Nat :=
  let digits :=
    match text with
    | '+' :: digits => digits
    | digits => digits
  if digits.isEmpty || !digits.all Char.isDigit then
    none
  else
    let value := Nat.ofDigitChars 10 digits 0
    if value < 2 ^ 64 then some value else none

/-- The value of a hexadecimal digit. -/
def hexValue (c : Byte) : Option Byte :=
  if 0x30 ≤ c ∧ c ≤ 0x39 then some (c - 0x30)
  else if 0x41 ≤ c ∧ c ≤ 0x46 then some (c - 0x41 + 10)
  else if 0x61 ≤ c ∧ c ≤ 0x66 then some (c - 0x61 + 10)
  else none

/-- `percent_decode`: what is no escape stays. -/
def percentDecode : List Byte → List Byte
  | 0x25 :: high :: low :: rest =>
      match hexValue high, hexValue low with
      | some high, some low => (high * 16 + low) :: percentDecode rest
      | _, _ => 0x25 :: percentDecode (high :: low :: rest)
  | byte :: rest => byte :: percentDecode rest
  | [] => []

/-- `percent_decode_str` and `decode_utf8_lossy`. -/
def percentDecodeLossy (text : String) : String := fromUtf8Lossy (percentDecode (asBytes text))

example : percentDecodeLossy "a%20b%2" = "a b%2" := by decide +kernel

/-- A byte that is no part of an escape. -/
def Plain (b : Byte) : Prop := b ≠ 0x25 ∧ hexValue b = none

instance (b : Byte) : Decidable (Plain b) :=
  inferInstanceAs (Decidable (b ≠ 0x25 ∧ hexValue b = none))

theorem percentDecode_cons {b : Byte} (h : b ≠ 0x25) (bytes : List Byte) :
    percentDecode (b :: bytes) = b :: percentDecode bytes := by
  rw [percentDecode]
  intro _ _ _ hPercent
  exact absurd hPercent h

theorem percentDecode_of_not_mem {bytes : List Byte} (h : 0x25 ∉ bytes) :
    percentDecode bytes = bytes := by
  induction bytes with
  | nil => rfl
  | cons b bytes ih =>
      have hHead : b ≠ 0x25 := fun hEq => h (by simp [hEq])
      have hRest : 0x25 ∉ bytes := fun hMem => h (by simp [hMem])
      rw [percentDecode_cons hHead, ih hRest]

/-- A percent sign that opens no escape stays. -/
theorem percentDecode_percent {bytes : List Byte}
    (h : ∀ high low rest, bytes = high :: low :: rest →
      hexValue high = none ∨ hexValue low = none) :
    percentDecode (0x25 :: bytes) = 0x25 :: percentDecode bytes := by
  match bytes with
  | [] => rfl
  | [_] => rfl
  | high :: low :: rest =>
      rw [percentDecode]
      rcases h high low rest rfl with hHex | hHex
      · rw [hHex]
      · rw [hHex]
        cases hexValue high <;> rfl

/-- A plain byte ends what stands in front of it. -/
theorem percentDecode_append {b : Byte} (hPlain : Plain b) (xs ys : List Byte) :
    percentDecode (xs ++ b :: ys) = percentDecode xs ++ b :: percentDecode ys := by
  have hHere := percentDecode_cons hPlain.1 ys
  fun_induction percentDecode xs with
  | case1 high low rest h l hLow hHigh ih =>
      simp only [List.cons_append, percentDecode, hHigh, hLow, ih]
  | case2 high low rest hHex ih =>
      rw [List.cons_append, percentDecode_percent, ih, List.cons_append]
      intro high' low' rest' hEq
      cases hEq
      cases hHigh : hexValue high with
      | none => exact .inl rfl
      | some => exact .inr (Option.eq_none_iff_forall_ne_some.mpr (hHex _ · hHigh))
  | case3 byte rest hShort ih =>
      by_cases hByte : byte = 0x25
      · subst hByte
        rw [List.cons_append, percentDecode_percent, ih, List.cons_append]
        intro high low behind hEq
        match rest with
        | [] => exact .inl (by cases hEq; exact hPlain.2)
        | [_] => exact .inr (by cases hEq; exact hPlain.2)
        | _ :: _ :: _ => exact (hShort _ _ _ rfl rfl).elim
      · rw [List.cons_append, percentDecode_cons hByte, ih, List.cons_append]
  | case4 => exact hHere

/-- A text without escapes stays. -/
theorem percentDecodeLossy_of_not_mem {text : String} (h : '%' ∉ text.toList) :
    percentDecodeLossy text = text := by
  have hBytes : 0x25 ∉ asBytes text := not_mem_asBytes (d := '%') (by decide) (by decide) h
  rw [percentDecodeLossy, percentDecode_of_not_mem hBytes, fromUtf8Lossy_asBytes]

/-- An extension without an escape stays at the end. -/
theorem percentDecodeLossy_append_dot (front : String) {extension : String}
    (h : '%' ∉ extension.toList) :
    percentDecodeLossy (front ++ "." ++ extension) =
      percentDecodeLossy front ++ "." ++ extension := by
  have hDot : asBytes "." = [0x2E] := by decide
  have hPlain : Plain 0x2E := by decide
  have hBytes : asBytes (front ++ "." ++ extension) =
      asBytes front ++ 0x2E :: asBytes extension := by
    rw [asBytes_append, asBytes_append, hDot, List.append_assoc]
    rfl
  have hExtension : percentDecode (asBytes extension) = asBytes extension :=
    percentDecode_of_not_mem (not_mem_asBytes (d := '%') (by decide) (by decide) h)
  have hRest : 0x2E :: asBytes extension = asBytes ("." ++ extension) := by
    rw [asBytes_append, hDot]
    rfl
  unfold percentDecodeLossy
  rw [hBytes, percentDecode_append hPlain, fromUtf8Lossy_append_ascii _ _ (by decide),
    hExtension, hRest, fromUtf8Lossy_asBytes, String.append_assoc]

end CastApp.Util.Text
