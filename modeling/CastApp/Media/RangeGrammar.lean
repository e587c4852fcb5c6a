import CastApp.Media.Range

/-!
# The grammar of range headers

What a `Range` header should be resolved to, by its grammar alone: numbers are
digits of any length, and a range that can be satisfied is clamped to the
resource.  The code reads its numbers as 64-bit integers, and with the leading
plus sign that the integer parser of the standard library takes.

* **`parse_range_grammar`** — the code resolves a header by the grammar exactly
  when no number of it is misread, subtracts nothing from less, and every slice
  it names is inside the resource.
* `Resolves.unique` — the grammar resolves a header one way.
* `clamped_stop_refused` — an end of 2 ^ 64 is refused where it should be
  clamped.
-/

namespace CastApp.Media.RangeGrammar

open CastApp.Media.Range
open CastApp.Util.Text

/-! ## Ranges -/

/-- One range, its numbers unbounded. -/
inductive Spec : Type
  /-- `a-b` -/
  | closed (first last : Nat)
  /-- `a-` -/
  | openEnded (first : Nat)
  /-- `-n` -/
  | suffix (count : Nat)
  deriving DecidableEq, Repr

namespace Spec

def numbers : Spec → List Nat
  | .closed first last => [first, last]
  | .openEnded first => [first]
  | .suffix count => [count]

def Satisfiable (size : Nat) : Spec → Prop
  | .closed first last => first ≤ last ∧ first < size
  | .openEnded first => first < size
  | .suffix count => 0 < count ∧ 0 < size

instance (size : Nat) : (spec : Spec) → Decidable (spec.Satisfiable size)
  | .closed first last => inferInstanceAs (Decidable (first ≤ last ∧ first < size))
  | .openEnded first => inferInstanceAs (Decidable (first < size))
  | .suffix count => inferInstanceAs (Decidable (0 < count ∧ 0 < size))

/-- The bytes a satisfiable range names. -/
def slice (size : Nat) : Spec → RangeDecision
  | .closed first last => .slice first (min last (size - 1))
  | .openEnded first => .slice first (size - 1)
  | .suffix count => .slice (size - min count size) (size - 1)

def decision (spec : Spec) (size : Nat) : RangeDecision :=
  if spec.Satisfiable size then spec.slice size else .unsatisfiable

theorem decision_pos {spec : Spec} {size : Nat} (h : spec.Satisfiable size) :
    spec.decision size = spec.slice size := if_pos h

theorem decision_neg {spec : Spec} {size : Nat} (h : ¬ spec.Satisfiable size) :
    spec.decision size = .unsatisfiable := if_neg h

theorem decision_eq_unsatisfiable_iff {spec : Spec} {size : Nat} :
    spec.decision size = .unsatisfiable ↔ ¬ spec.Satisfiable size := by
  constructor
  · intro h hSat
    rw [decision_pos hSat] at h
    cases spec <;> cases h
  · exact decision_neg

end Spec

/-- The texts around the dash of a range, with numerals as `Numeral` says. -/
inductive Parts (Numeral : List Char → Nat → Prop) : List Char → List Char → Spec → Prop
  | closed {s t : List Char} {first last : Nat} (hFirst : Numeral (trim s) first)
      (hLast : Numeral (trim t) last) : Parts Numeral s t (.closed first last)
  | openEnded {s : List Char} {first : Nat} (hFirst : Numeral (trim s) first) :
      Parts Numeral s [] (.openEnded first)
  | suffix {t : List Char} {count : Nat} (hCount : Numeral (trim t) count) :
      Parts Numeral [] t (.suffix count)

/-- The text is a range around its first dash. -/
def SpecText (Numeral : List Char → Nat → Prop) (text : List Char) (spec : Spec) : Prop :=
  ∃ s t, text = s ++ '-' :: t ∧ '-' ∉ s ∧ Parts Numeral s t spec

/-! ## Numerals -/

/-- Decimal digits, any number of them but none. -/
def Digits (text : List Char) (n : Nat) : Prop :=
  text ≠ [] ∧ (∀ c ∈ text, c.isDigit = true) ∧ Nat.ofDigitChars 10 text 0 = n

/-- Digits, behind a plus sign or not. -/
def Signed (text : List Char) (n : Nat) : Prop :=
  Digits text n ∨ ∃ digits, text = '+' :: digits ∧ Digits digits n

/-- What the parser of the code reads. -/
def ReadU64 (text : List Char) (n : Nat) : Prop := parseU64 text = some n

theorem Digits.unique {text : List Char} {n m : Nat} (h : Digits text n) (h' : Digits text m) :
    n = m := by
  obtain ⟨-, -, rfl⟩ := h
  obtain ⟨-, -, rfl⟩ := h'
  rfl

theorem not_digits_plus {digits : List Char} {n : Nat} : ¬ Digits ('+' :: digits) n := by
  rintro ⟨-, hDigits, -⟩
  have hPlus := hDigits '+' (by simp)
  revert hPlus
  decide

theorem Signed.unique {text : List Char} {n m : Nat} (h : Signed text n) (h' : Signed text m) :
    n = m := by
  rcases h with h | ⟨digits, rfl, h⟩
  · rcases h' with h' | ⟨digits, rfl, -⟩
    · exact h.unique h'
    · exact absurd h not_digits_plus
  · rcases h' with h' | ⟨digits', hText, h'⟩
    · exact absurd h' not_digits_plus
    · cases hText
      exact h.unique h'

theorem readDigits_iff {digits : List Char} {n : Nat} :
    (if (digits.isEmpty || !digits.all Char.isDigit) = true then none
      else if Nat.ofDigitChars 10 digits 0 < 2 ^ 64 then
        some (Nat.ofDigitChars 10 digits 0) else none) = some n ↔
      Digits digits n ∧ n < 2 ^ 64 := by
  unfold Digits
  by_cases hBad : (digits.isEmpty || !digits.all Char.isDigit) = true
  · rw [if_pos hBad]
    apply iff_of_false
    · intro h
      cases h
    · rintro ⟨⟨hSome, hAll, -⟩, -⟩
      simp [hSome, List.all_eq_true.mpr hAll] at hBad
  · have hGood : digits ≠ [] ∧ ∀ c ∈ digits, c.isDigit = true := by
      simpa using hBad
    rw [if_neg hBad]
    by_cases hFits : Nat.ofDigitChars 10 digits 0 < 2 ^ 64
    · rw [if_pos hFits, Option.some.injEq]
      constructor
      · rintro rfl
        exact ⟨⟨hGood.1, hGood.2, rfl⟩, hFits⟩
      · rintro ⟨⟨-, -, hValue⟩, -⟩
        exact hValue
    · rw [if_neg hFits]
      apply iff_of_false
      · intro h
        cases h
      · rintro ⟨⟨-, -, rfl⟩, hSmall⟩
        exact hFits hSmall

/-- The parser reads digits below 2 ^ 64, behind a plus sign or not. -/
theorem readU64_iff {text : List Char} {n : Nat} :
    ReadU64 text n ↔ Signed text n ∧ n < 2 ^ 64 := by
  unfold ReadU64 Signed parseU64
  split
  · next digits =>
      rw [readDigits_iff]
      constructor
      · rintro ⟨h, hFits⟩
        exact ⟨.inr ⟨digits, rfl, h⟩, hFits⟩
      · rintro ⟨h | ⟨digits', hText, h⟩, hFits⟩
        · exact absurd h not_digits_plus
        · cases hText
          exact ⟨h, hFits⟩
  · next hPlain =>
      rw [readDigits_iff]
      constructor
      · rintro ⟨h, hFits⟩
        exact ⟨.inl h, hFits⟩
      · rintro ⟨h | ⟨digits, rfl, -⟩, hFits⟩
        · exact ⟨h, hFits⟩
        · exact absurd rfl (hPlain digits)

theorem not_signed_nil {n : Nat} : ¬ Signed [] n := by
  rintro (⟨hSome, -⟩ | ⟨digits, hText, -⟩)
  · exact hSome rfl
  · cases hText

/-! ## Ranges with other numerals -/

theorem Parts.unique {s t : List Char} {spec spec' : Spec} (h : Parts Signed s t spec)
    (h' : Parts Signed s t spec') : spec = spec' := by
  cases h with
  | closed hFirst hLast =>
      cases h' with
      | closed hFirst' hLast' => rw [hFirst.unique hFirst', hLast.unique hLast']
      | openEnded => exact absurd hLast not_signed_nil
      | suffix => exact absurd hFirst not_signed_nil
  | openEnded hFirst =>
      cases h' with
      | closed _ hLast' => exact absurd hLast' not_signed_nil
      | openEnded hFirst' => rw [hFirst.unique hFirst']
      | suffix => exact absurd hFirst not_signed_nil
  | suffix hCount =>
      cases h' with
      | closed hFirst' => exact absurd hFirst' not_signed_nil
      | openEnded hFirst' => exact absurd hFirst' not_signed_nil
      | suffix hCount' => rw [hCount.unique hCount']

/-- Every number of the range is below 2 ^ 64. -/
def Spec.Fits (spec : Spec) : Prop := ∀ n ∈ spec.numbers, n < 2 ^ 64

theorem parts_readU64_iff {s t : List Char} {spec : Spec} :
    Parts ReadU64 s t spec ↔ Parts Signed s t spec ∧ spec.Fits := by
  unfold Spec.Fits
  constructor
  · intro h
    cases h with
    | closed hFirst hLast =>
        obtain ⟨hFirst, hSmall⟩ := readU64_iff.mp hFirst
        obtain ⟨hLast, hSmall'⟩ := readU64_iff.mp hLast
        exact ⟨.closed hFirst hLast,
          List.forall_mem_cons.mpr ⟨hSmall, List.forall_mem_singleton.mpr hSmall'⟩⟩
    | openEnded hFirst =>
        obtain ⟨hFirst, hSmall⟩ := readU64_iff.mp hFirst
        exact ⟨.openEnded hFirst, List.forall_mem_singleton.mpr hSmall⟩
    | suffix hCount =>
        obtain ⟨hCount, hSmall⟩ := readU64_iff.mp hCount
        exact ⟨.suffix hCount, List.forall_mem_singleton.mpr hSmall⟩
  · rintro ⟨h, hFits⟩
    cases h with
    | closed hFirst hLast =>
        exact .closed (readU64_iff.mpr ⟨hFirst, hFits _ (by simp [Spec.numbers])⟩)
          (readU64_iff.mpr ⟨hLast, hFits _ (by simp [Spec.numbers])⟩)
    | openEnded hFirst =>
        exact .openEnded (readU64_iff.mpr ⟨hFirst, hFits _ (by simp [Spec.numbers])⟩)
    | suffix hCount =>
        exact .suffix (readU64_iff.mpr ⟨hCount, hFits _ (by simp [Spec.numbers])⟩)

theorem Parts.signed {s t : List Char} {spec : Spec} (h : Parts Digits s t spec) :
    Parts Signed s t spec := by
  cases h with
  | closed hFirst hLast => exact .closed (.inl hFirst) (.inl hLast)
  | openEnded hFirst => exact .openEnded (.inl hFirst)
  | suffix hCount => exact .suffix (.inl hCount)

/-- The parts of a range text are those around its first dash. -/
theorem specText_append {Numeral : List Char → Nat → Prop} {s t : List Char} {spec : Spec}
    (hDash : '-' ∉ s) : SpecText Numeral (s ++ '-' :: t) spec ↔ Parts Numeral s t spec := by
  constructor
  · rintro ⟨s', t', hText, hDash', hParts⟩
    have hSplit := splitOnce_append hDash t
    rw [hText, splitOnce_append hDash' t'] at hSplit
    cases hSplit
    exact hParts
  · intro hParts
    exact ⟨s, t, rfl, hDash, hParts⟩

theorem SpecText.signed {text : List Char} {spec : Spec} (h : SpecText Digits text spec) :
    SpecText Signed text spec := by
  obtain ⟨s, t, rfl, hDash, hParts⟩ := h
  exact ⟨s, t, rfl, hDash, hParts.signed⟩

theorem SpecText.unique {text : List Char} {spec spec' : Spec} (h : SpecText Signed text spec)
    (h' : SpecText Signed text spec') : spec = spec' := by
  obtain ⟨s, t, rfl, hDash, hParts⟩ := h
  exact hParts.unique ((specText_append hDash).mp h')

theorem specText_readU64_iff {text : List Char} {spec : Spec} :
    SpecText ReadU64 text spec ↔ SpecText Signed text spec ∧ spec.Fits := by
  unfold SpecText
  simp only [parts_readU64_iff]
  constructor
  · rintro ⟨s, t, hText, hDash, hParts, hFits⟩
    exact ⟨⟨s, t, hText, hDash, hParts⟩, hFits⟩
  · rintro ⟨⟨s, t, hText, hDash, hParts⟩, hFits⟩
    exact ⟨s, t, hText, hDash, hParts, hFits⟩

/-! ## What the code makes of one range -/

theorem suffixRange_eq {t : List Char} {count : Nat} (h : ReadU64 (trim t) count) (size : Nat) :
    suffixRange t size = (Spec.suffix count).decision size := by
  unfold ReadU64 at h
  simp only [suffixRange, h]
  by_cases hNone : count = 0 ∨ size = 0
  · have hNot : ¬ (Spec.suffix count).Satisfiable size := by
      show ¬ (0 < count ∧ 0 < size)
      omega
    rw [if_pos hNone, Spec.decision_neg hNot]
  · have hSome : (Spec.suffix count).Satisfiable size := by
      show 0 < count ∧ 0 < size
      omega
    rw [if_neg hNone, Spec.decision_pos hSome]
    show _ = RangeDecision.slice (size - min count size) (size - 1)
    by_cases hAll : size ≤ count
    · rw [if_pos hAll, Nat.min_eq_right hAll, Nat.sub_self]
    · rw [if_neg hAll, Nat.min_eq_left (by omega)]

theorem closed_eq (first last size : Nat) :
    (if last < first then RangeDecision.unsatisfiable
      else if size ≤ first then .unsatisfiable else .slice first (min last (size - 1))) =
      (Spec.closed first last).decision size := by
  by_cases hRange : first ≤ last ∧ first < size
  · have hSome : (Spec.closed first last).Satisfiable size := hRange
    rw [Spec.decision_pos hSome, if_neg (by omega), if_neg (by omega)]
    rfl
  · have hNot : ¬ (Spec.closed first last).Satisfiable size := hRange
    rw [Spec.decision_neg hNot]
    by_cases hOrder : last < first
    · rw [if_pos hOrder]
    · rw [if_neg hOrder, if_pos (by omega)]

theorem openEnded_eq (first size : Nat) :
    (if size = 0 ∨ size ≤ first then RangeDecision.unsatisfiable else .slice first (size - 1)) =
      (Spec.openEnded first).decision size := by
  by_cases hRange : first < size
  · have hSome : (Spec.openEnded first).Satisfiable size := hRange
    rw [Spec.decision_pos hSome, if_neg (by omega)]
    rfl
  · have hNot : ¬ (Spec.openEnded first).Satisfiable size := hRange
    rw [Spec.decision_neg hNot, if_pos (by omega)]

theorem parseU64_trim_nil : parseU64 (trim []) = none := by decide

/-- A range that is read is resolved as its numbers say. -/
theorem parseSingleRange_of_read {text : List Char} {spec : Spec}
    (h : SpecText ReadU64 text spec) (size : Nat) :
    parseSingleRange text size = spec.decision size := by
  obtain ⟨s, t, rfl, hDash, hParts⟩ := h
  unfold parseSingleRange
  rw [splitOnce_append hDash t]
  have hNil : ∀ n, ¬ ReadU64 (trim []) n := by
    intro n hRead
    unfold ReadU64 at hRead
    rw [parseU64_trim_nil] at hRead
    cases hRead
  cases hParts with
  | suffix hCount => exact suffixRange_eq hCount size
  | openEnded hFirst =>
      cases s with
      | nil => exact absurd hFirst (hNil _)
      | cons c s =>
          unfold ReadU64 at hFirst
          simp only [hFirst]
          exact openEnded_eq _ size
  | closed hFirst hLast =>
      cases s with
      | nil => exact absurd hFirst (hNil _)
      | cons c s =>
          cases t with
          | nil => exact absurd hLast (hNil _)
          | cons d t =>
              unfold ReadU64 at hFirst hLast
              simp only [hFirst, hLast]
              exact closed_eq _ _ size

/-- A text that is not read as a range is refused. -/
theorem parseSingleRange_of_unread {text : List Char}
    (h : ∀ spec, ¬ SpecText ReadU64 text spec) (size : Nat) :
    parseSingleRange text size = .unsatisfiable := by
  unfold parseSingleRange
  cases hSplit : splitOnce '-' text with
  | none => rfl
  | some parts =>
      obtain ⟨s, t⟩ := parts
      obtain ⟨rfl, hDash⟩ := splitOnce_eq_some hSplit
      have hParts : ∀ spec, ¬ Parts ReadU64 s t spec := fun spec hParts =>
        h spec ((specText_append hDash).mpr hParts)
      cases s with
      | nil =>
          show suffixRange t size = .unsatisfiable
          unfold suffixRange
          cases hCount : parseU64 (trim t) with
          | none => rfl
          | some count => exact absurd (.suffix hCount) (hParts _)
      | cons c s =>
          cases hFirst : parseU64 (trim (c :: s)) with
          | none => simp only [hFirst]
          | some first =>
              cases t with
              | nil => exact absurd (.openEnded hFirst) (hParts _)
              | cons d t =>
                  cases hLast : parseU64 (trim (d :: t)) with
                  | none => simp [hFirst, hLast]
                  | some last => exact absurd (.closed hFirst hLast) (hParts _)

/-! ## Headers -/

/-- The header lists ranges of bytes. -/
def ByteRanges (header : String) (ranges : List Char) : Prop :=
  trim header.toList = "bytes=".toList ++ ranges

/-- How the grammar resolves a header. -/
inductive Resolves : Option String → Nat → RangeDecision → Prop
  | absent {size : Nat} : Resolves none size .full
  | otherUnit {header : String} {size : Nat} (hUnit : ∀ ranges, ¬ ByteRanges header ranges) :
      Resolves (some header) size .full
  | single {header : String} {size : Nat} {range : List Char} {spec : Spec}
      (hBytes : ByteRanges header range) (hOne : ',' ∉ range)
      (hSpec : SpecText Digits (trim range) spec) :
      Resolves (some header) size (spec.decision size)
  | malformed {header : String} {size : Nat} {range : List Char}
      (hBytes : ByteRanges header range) (hOne : ',' ∉ range)
      (hNone : ∀ spec, ¬ SpecText Digits (trim range) spec) :
      Resolves (some header) size .unsatisfiable
  | empty {header : String} {size : Nat} {ranges : List Char}
      (hBytes : ByteRanges header ranges) (hEmpty : ∀ c ∈ ranges, c = ',' ∨ isWhitespace c = true) :
      Resolves (some header) size .unsatisfiable
  | several {header : String} {size : Nat} {ranges : List Char}
      (hBytes : ByteRanges header ranges) (hMore : ',' ∈ ranges)
      (hSome : ¬ ∀ c ∈ ranges, c = ',' ∨ isWhitespace c = true) :
      Resolves (some header) size .full

/-- The header is one satisfiable range of signed numbers or of numbers from
2 ^ 64 on, but not of both. -/
def Misread (header : Option String) (size : Nat) : Prop :=
  ∃ text range spec, header = some text ∧ ByteRanges text range ∧ ',' ∉ range ∧
    SpecText Signed (trim range) spec ∧ spec.Satisfiable size ∧
      ¬ (SpecText Digits (trim range) spec ↔ spec.Fits)

theorem parseRange_otherUnit {header : String} (h : ∀ ranges, ¬ ByteRanges header ranges)
    (size : Nat) : parseRange (some header) size = .full := by
  unfold parseRange
  cases hStrip : stripStart "bytes=".toList (trim header.toList) with
  | none => simp only [hStrip]
  | some ranges => exact absurd (stripStart_eq_some_iff.mp hStrip) (h ranges)

theorem all_trimmed_iff {ranges : List Char} :
    ((split ',' ranges).map trim).all List.isEmpty = true ↔
      ∀ c ∈ ranges, c = ',' ∨ isWhitespace c = true := by
  rw [← forall_mem_split_iff]
  simp only [List.all_map, List.all_eq_true, Function.comp_apply, List.isEmpty_iff,
    trim_eq_nil_iff]

theorem parseRange_single {header : String} {range : List Char}
    (hBytes : ByteRanges header range) (hOne : ',' ∉ range) (size : Nat) :
    parseRange (some header) size = parseSingleRange (trim range) size := by
  unfold parseRange
  simp only [stripStart_eq_some_iff.mpr hBytes, split_of_not_mem hOne, List.map_cons,
    List.map_nil, List.all_cons, List.all_nil, Bool.and_true, List.isEmpty_iff]
  by_cases hEmpty : trim range = []
  · rw [if_pos hEmpty, hEmpty]
    rfl
  · rw [if_neg hEmpty]

theorem parseRange_empty {header : String} {ranges : List Char}
    (hBytes : ByteRanges header ranges) (hEmpty : ∀ c ∈ ranges, c = ',' ∨ isWhitespace c = true)
    (size : Nat) : parseRange (some header) size = .unsatisfiable := by
  unfold parseRange
  simp only [stripStart_eq_some_iff.mpr hBytes]
  rw [if_pos (all_trimmed_iff.mpr hEmpty)]

theorem parseRange_several {header : String} {ranges : List Char}
    (hBytes : ByteRanges header ranges) (hMore : ',' ∈ ranges)
    (hSome : ¬ ∀ c ∈ ranges, c = ',' ∨ isWhitespace c = true) (size : Nat) :
    parseRange (some header) size = .full := by
  unfold parseRange
  simp only [stripStart_eq_some_iff.mpr hBytes]
  rw [if_neg (fun h => hSome (all_trimmed_iff.mp h))]
  have hLength := two_le_length_split hMore
  split
  · next range hRanges =>
      have hOne := congrArg List.length hRanges
      rw [List.length_map, List.length_singleton] at hOne
      omega
  · rfl

/-! ## The grammar, header by header -/

section Header

variable {header : String} {ranges : List Char} {size : Nat} {d : RangeDecision}

theorem ByteRanges.unique {ranges' : List Char} (h : ByteRanges header ranges)
    (h' : ByteRanges header ranges') : ranges = ranges' :=
  List.append_cancel_left (h.symm.trans h')

/-- How the grammar resolves one range. -/
def SingleResolves (text : List Char) (size : Nat) (d : RangeDecision) : Prop :=
  (∃ spec, SpecText Digits text spec ∧ d = spec.decision size) ∨
    (∀ spec, ¬ SpecText Digits text spec) ∧ d = .unsatisfiable

theorem SingleResolves.unique {text : List Char} {d' : RangeDecision}
    (h : SingleResolves text size d) (h' : SingleResolves text size d') : d = d' := by
  rcases h with ⟨spec, hSpec, rfl⟩ | ⟨hNone, rfl⟩
  · rcases h' with ⟨spec', hSpec', rfl⟩ | ⟨hNone', -⟩
    · rw [hSpec.signed.unique hSpec'.signed]
    · exact absurd hSpec (hNone' spec)
  · rcases h' with ⟨spec', hSpec', -⟩ | ⟨-, rfl⟩
    · exact absurd hSpec' (hNone spec')
    · rfl

theorem resolves_otherUnit_iff (h : ∀ ranges, ¬ ByteRanges header ranges) :
    Resolves (some header) size d ↔ d = .full := by
  constructor
  · intro hResolves
    cases hResolves with
    | otherUnit => rfl
    | single hBytes | malformed hBytes | empty hBytes | several hBytes =>
        exact absurd hBytes (h _)
  · rintro rfl
    exact .otherUnit h

theorem resolves_single_iff (hBytes : ByteRanges header ranges) (hOne : ',' ∉ ranges) :
    Resolves (some header) size d ↔ SingleResolves (trim ranges) size d := by
  constructor
  · intro hResolves
    cases hResolves with
    | otherUnit hUnit => exact absurd hBytes (hUnit ranges)
    | single hBytes' _ hSpec =>
        rw [hBytes'.unique hBytes] at hSpec
        exact .inl ⟨_, hSpec, rfl⟩
    | malformed hBytes' _ hNone =>
        rw [hBytes'.unique hBytes] at hNone
        exact .inr ⟨hNone, rfl⟩
    | empty hBytes' hEmpty =>
        rw [hBytes'.unique hBytes] at hEmpty
        refine .inr ⟨?_, rfl⟩
        have hBlank : trim ranges = [] := by
          apply trim_eq_nil_iff.mpr
          intro c hMem
          rcases hEmpty c hMem with rfl | hSpace
          · exact absurd hMem hOne
          · exact hSpace
        rw [hBlank]
        rintro spec ⟨s, t, hText, -⟩
        simp at hText
    | several hBytes' hMore =>
        rw [hBytes'.unique hBytes] at hMore
        exact absurd hMore hOne
  · rintro (⟨spec, hSpec, rfl⟩ | ⟨hNone, rfl⟩)
    · exact .single hBytes hOne hSpec
    · exact .malformed hBytes hOne hNone

theorem resolves_empty_iff (hBytes : ByteRanges header ranges) (hMore : ',' ∈ ranges)
    (hEmpty : ∀ c ∈ ranges, c = ',' ∨ isWhitespace c = true) :
    Resolves (some header) size d ↔ d = .unsatisfiable := by
  constructor
  · intro hResolves
    cases hResolves with
    | otherUnit hUnit => exact absurd hBytes (hUnit ranges)
    | single hBytes' hOne =>
        rw [hBytes'.unique hBytes] at hOne
        exact absurd hMore hOne
    | malformed | empty => rfl
    | several hBytes' _ hSome =>
        rw [hBytes'.unique hBytes] at hSome
        exact absurd hEmpty hSome
  · rintro rfl
    exact .empty hBytes hEmpty

theorem resolves_several_iff (hBytes : ByteRanges header ranges) (hMore : ',' ∈ ranges)
    (hSome : ¬ ∀ c ∈ ranges, c = ',' ∨ isWhitespace c = true) :
    Resolves (some header) size d ↔ d = .full := by
  constructor
  · intro hResolves
    cases hResolves with
    | otherUnit => rfl
    | single hBytes' hOne | malformed hBytes' hOne =>
        rw [hBytes'.unique hBytes] at hOne
        exact absurd hMore hOne
    | empty hBytes' hEmpty =>
        rw [hBytes'.unique hBytes] at hEmpty
        exact absurd hEmpty hSome
    | several => rfl
  · rintro rfl
    exact .several hBytes hMore hSome

theorem singleResolves_of_range {text : List Char} {spec : Spec}
    (hSpec : SpecText Digits text spec) : SingleResolves text size d ↔ d = spec.decision size := by
  constructor
  · rintro (⟨spec', hSpec', rfl⟩ | ⟨hNone, -⟩)
    · rw [hSpec.signed.unique hSpec'.signed]
    · exact absurd hSpec (hNone spec)
  · rintro rfl
    exact .inl ⟨spec, hSpec, rfl⟩

theorem singleResolves_of_none {text : List Char} (hNone : ∀ spec, ¬ SpecText Digits text spec) :
    SingleResolves text size d ↔ d = .unsatisfiable := by
  constructor
  · rintro (⟨spec, hSpec, -⟩ | ⟨-, rfl⟩)
    · exact absurd hSpec (hNone spec)
    · rfl
  · rintro rfl
    exact .inr ⟨hNone, rfl⟩

/-- A range with signed or unbounded numbers is resolved by the grammar unless
it is satisfiable and either signed or too large, but not both. -/
theorem signed_single_iff {text : List Char} {spec : Spec} (hSpec : SpecText Signed text spec)
    (size : Nat) : SingleResolves text size (parseSingleRange text size) ↔
      (spec.Satisfiable size → (SpecText Digits text spec ↔ spec.Fits)) := by
  have hCode : spec.Fits → parseSingleRange text size = spec.decision size := fun hFits =>
    parseSingleRange_of_read (specText_readU64_iff.mpr ⟨hSpec, hFits⟩) size
  have hLarge : ¬ spec.Fits → parseSingleRange text size = .unsatisfiable := by
    intro hLarge
    apply parseSingleRange_of_unread
    intro spec' hRead
    obtain ⟨hSpec', hFits⟩ := specText_readU64_iff.mp hRead
    rw [← hSpec.unique hSpec'] at hFits
    exact hLarge hFits
  by_cases hDigits : SpecText Digits text spec
  · rw [singleResolves_of_range hDigits]
    by_cases hFits : spec.Fits
    · exact iff_of_true (hCode hFits) fun _ => iff_of_true hDigits hFits
    · rw [hLarge hFits, eq_comm, Spec.decision_eq_unsatisfiable_iff]
      simp only [hDigits, hFits, iff_false, not_true_eq_false, imp_false]
  · have hNone : ∀ spec, ¬ SpecText Digits text spec := by
      intro spec' hSpec'
      rw [← hSpec.unique hSpec'.signed] at hSpec'
      exact hDigits hSpec'
    rw [singleResolves_of_none hNone]
    by_cases hFits : spec.Fits
    · rw [hCode hFits, Spec.decision_eq_unsatisfiable_iff]
      simp only [hDigits, hFits, iff_true, imp_false]
    · exact iff_of_true (hLarge hFits) fun _ => iff_of_false hDigits hFits

theorem single_iff (text : List Char) (size : Nat) :
    SingleResolves text size (parseSingleRange text size) ↔
      ¬ ∃ spec, SpecText Signed text spec ∧ spec.Satisfiable size ∧
        ¬ (SpecText Digits text spec ↔ spec.Fits) := by
  by_cases hSigned : ∃ spec, SpecText Signed text spec
  · obtain ⟨spec, hSpec⟩ := hSigned
    rw [signed_single_iff hSpec]
    constructor
    · rintro hFine ⟨spec', hSpec', hSat, hBad⟩
      obtain rfl := hSpec.unique hSpec'
      exact hBad (hFine hSat)
    · intro hNone hSat
      exact Classical.byContradiction fun hBad => hNone ⟨spec, hSpec, hSat, hBad⟩
  · have hNone : ∀ spec, ¬ SpecText Digits text spec := fun spec hSpec =>
      hSigned ⟨spec, hSpec.signed⟩
    have hUnread : ∀ spec, ¬ SpecText ReadU64 text spec := fun spec hRead =>
      hSigned ⟨spec, (specText_readU64_iff.mp hRead).1⟩
    rw [singleResolves_of_none hNone]
    apply iff_of_true (parseSingleRange_of_unread hUnread size)
    rintro ⟨spec, hSpec, -⟩
    exact hSigned ⟨spec, hSpec⟩

theorem parseRange_resolves_iff (header : Option String) (size : Nat) :
    Resolves header size (parseRange header size) ↔ ¬ Misread header size := by
  cases header with
  | none =>
      apply iff_of_true .absent
      rintro ⟨text, _, _, hText, -⟩
      cases hText
  | some header =>
      by_cases hBytes : ∃ ranges, ByteRanges header ranges
      · obtain ⟨ranges, hBytes⟩ := hBytes
        by_cases hMore : ',' ∈ ranges
        · have hNot : ¬ Misread (some header) size := by
            rintro ⟨text, range, spec, hText, hBytes', hOne, -⟩
            cases hText
            rw [hBytes'.unique hBytes] at hOne
            exact hOne hMore
          refine iff_of_true ?_ hNot
          by_cases hEmpty : ∀ c ∈ ranges, c = ',' ∨ isWhitespace c = true
          · rw [parseRange_empty hBytes hEmpty]
            exact .empty hBytes hEmpty
          · rw [parseRange_several hBytes hMore hEmpty]
            exact .several hBytes hMore hEmpty
        · rw [parseRange_single hBytes hMore, resolves_single_iff hBytes hMore, single_iff]
          apply not_congr
          constructor
          · rintro ⟨spec, hSpec⟩
            exact ⟨header, ranges, spec, rfl, hBytes, hMore, hSpec⟩
          · rintro ⟨text, range, spec, hText, hBytes', -, hSpec⟩
            cases hText
            rw [hBytes'.unique hBytes] at hSpec
            exact ⟨spec, hSpec⟩
      · have hUnit : ∀ ranges, ¬ ByteRanges header ranges := fun ranges h => hBytes ⟨ranges, h⟩
        rw [parseRange_otherUnit hUnit]
        apply iff_of_true (.otherUnit hUnit)
        rintro ⟨text, range, _, hText, hBytes', -⟩
        cases hText
        exact hUnit range hBytes'

/-- The grammar resolves a header one way. -/
theorem Resolves.unique {header : Option String} {d' : RangeDecision}
    (h : Resolves header size d) (h' : Resolves header size d') : d = d' := by
  cases header with
  | none =>
      cases h
      cases h'
      rfl
  | some header =>
      by_cases hBytes : ∃ ranges, ByteRanges header ranges
      · obtain ⟨ranges, hBytes⟩ := hBytes
        by_cases hMore : ',' ∈ ranges
        · by_cases hEmpty : ∀ c ∈ ranges, c = ',' ∨ isWhitespace c = true
          · exact ((resolves_empty_iff hBytes hMore hEmpty).mp h).trans
              ((resolves_empty_iff hBytes hMore hEmpty).mp h').symm
          · exact ((resolves_several_iff hBytes hMore hEmpty).mp h).trans
              ((resolves_several_iff hBytes hMore hEmpty).mp h').symm
        · exact ((resolves_single_iff hBytes hMore).mp h).unique
            ((resolves_single_iff hBytes hMore).mp h')
      · have hUnit : ∀ ranges, ¬ ByteRanges header ranges := fun ranges h => hBytes ⟨ranges, h⟩
        exact ((resolves_otherUnit_iff hUnit).mp h).trans ((resolves_otherUnit_iff hUnit).mp h').symm

end Header

/-! ## Subtractions and bounds -/

/-- A `u64` subtraction; `none` is its underflow. -/
def checkedSub (a b : Nat) : Option Nat := if b ≤ a then some (a - b) else none

theorem checkedSub_eq {a b : Nat} (h : b ≤ a) : checkedSub a b = some (a - b) := if_pos h

/-- `suffixRange`, its subtractions checked. -/
def suffixRangeChecked (endText : List Char) (size : Nat) : Option RangeDecision :=
  match parseU64 (trim endText) with
  | none => some .unsatisfiable
  | some suffix =>
      if suffix = 0 ∨ size = 0 then some .unsatisfiable
      else if size ≤ suffix then
        (checkedSub size 1).map (.slice 0)
      else
        (checkedSub size suffix).bind fun start => (checkedSub size 1).map (.slice start)

/-- `parseSingleRange`, its subtractions checked. -/
def parseSingleRangeChecked (spec : List Char) (size : Nat) : Option RangeDecision :=
  match splitOnce '-' spec with
  | none => some .unsatisfiable
  | some ([], endText) => suffixRangeChecked endText size
  | some (startText, endText) =>
      match parseU64 (trim startText) with
      | none => some .unsatisfiable
      | some start =>
          if endText.isEmpty then
            if size = 0 ∨ size ≤ start then some .unsatisfiable
            else (checkedSub size 1).map (.slice start)
          else
            match parseU64 (trim endText) with
            | none => some .unsatisfiable
            | some stop =>
                if stop < start then some .unsatisfiable
                else if size ≤ start then some .unsatisfiable
                else (checkedSub size 1).map fun last => .slice start (min stop last)

/-- `parseRange`, its subtractions checked. -/
def parseRangeChecked (header : Option String) (size : Nat) : Option RangeDecision :=
  match header with
  | none => some .full
  | some header =>
      match stripStart "bytes=".toList (trim header.toList) with
      | none => some .full
      | some rest =>
          let ranges := (split ',' rest).map trim
          if ranges.all List.isEmpty then some .unsatisfiable
          else
            match ranges with
            | [range] => parseSingleRangeChecked range size
            | _ => some .full

theorem suffixRangeChecked_eq (endText : List Char) (size : Nat) :
    suffixRangeChecked endText size = some (suffixRange endText size) := by
  unfold suffixRangeChecked suffixRange
  cases parseU64 (trim endText) with
  | none => rfl
  | some suffix =>
      dsimp only
      by_cases hNone : suffix = 0 ∨ size = 0
      · rw [if_pos hNone, if_pos hNone]
      · rw [if_neg hNone, if_neg hNone, checkedSub_eq (show 1 ≤ size by omega)]
        by_cases hAll : size ≤ suffix
        · rw [if_pos hAll, if_pos hAll]
          rfl
        · rw [if_neg hAll, if_neg hAll, checkedSub_eq (show suffix ≤ size by omega)]
          rfl

theorem parseSingleRangeChecked_eq (spec : List Char) (size : Nat) :
    parseSingleRangeChecked spec size = some (parseSingleRange spec size) := by
  unfold parseSingleRangeChecked parseSingleRange
  cases splitOnce '-' spec with
  | none => rfl
  | some parts =>
      obtain ⟨startText, endText⟩ := parts
      cases startText with
      | nil => exact suffixRangeChecked_eq endText size
      | cons c startText =>
          dsimp only
          cases parseU64 (trim (c :: startText)) with
          | none => rfl
          | some start =>
              dsimp only
              by_cases hOpen : endText.isEmpty = true
              · rw [if_pos hOpen, if_pos hOpen]
                by_cases hBeyond : size = 0 ∨ size ≤ start
                · rw [if_pos hBeyond, if_pos hBeyond]
                · rw [if_neg hBeyond, if_neg hBeyond, checkedSub_eq (show 1 ≤ size by omega)]
                  rfl
              · rw [if_neg hOpen, if_neg hOpen]
                cases parseU64 (trim endText) with
                | none => rfl
                | some stop =>
                    dsimp only
                    by_cases hOrder : stop < start
                    · rw [if_pos hOrder, if_pos hOrder]
                    · by_cases hBeyond : size ≤ start
                      · rw [if_neg hOrder, if_neg hOrder, if_pos hBeyond, if_pos hBeyond]
                      · rw [if_neg hOrder, if_neg hOrder, if_neg hBeyond, if_neg hBeyond,
                          checkedSub_eq (show 1 ≤ size by omega)]
                        rfl

/-- No subtraction underflows. -/
theorem parseRangeChecked_eq (header : Option String) (size : Nat) :
    parseRangeChecked header size = some (parseRange header size) := by
  unfold parseRangeChecked parseRange
  cases header with
  | none => rfl
  | some header =>
      dsimp only
      cases stripStart "bytes=".toList (trim header.toList) with
      | none => rfl
      | some rest =>
          dsimp only
          by_cases hEmpty : ((split ',' rest).map trim).all List.isEmpty = true
          · rw [if_pos hEmpty, if_pos hEmpty]
          · rw [if_neg hEmpty, if_neg hEmpty]
            cases hRanges : (split ',' rest).map trim with
            | nil => rfl
            | cons range ranges =>
                cases ranges with
                | nil => exact parseSingleRangeChecked_eq range size
                | cons => rfl

/-- A range resolves to bytes of the resource. -/
theorem decision_bounds {spec : Spec} {size start stop : Nat}
    (h : spec.decision size = .slice start stop) : start ≤ stop ∧ stop < size := by
  have hSat : spec.Satisfiable size := by
    apply Classical.byContradiction
    intro hNot
    rw [Spec.decision_neg hNot] at h
    cases h
  rw [Spec.decision_pos hSat] at h
  cases spec with
  | closed first last =>
      obtain ⟨hOrder, hBelow⟩ : first ≤ last ∧ first < size := hSat
      cases h
      omega
  | openEnded first =>
      have hBelow : first < size := hSat
      cases h
      omega
  | suffix count =>
      obtain ⟨hSome, hSize⟩ : 0 < count ∧ 0 < size := hSat
      cases h
      omega

theorem parseSingleRange_bounds {text : List Char} {size start stop : Nat}
    (h : parseSingleRange text size = .slice start stop) : start ≤ stop ∧ stop < size := by
  by_cases hRead : ∃ spec, SpecText ReadU64 text spec
  · obtain ⟨spec, hSpec⟩ := hRead
    rw [parseSingleRange_of_read hSpec] at h
    exact decision_bounds h
  · rw [parseSingleRange_of_unread (fun spec hSpec => hRead ⟨spec, hSpec⟩)] at h
    cases h

theorem parseRange_bounds {header : Option String} {size start stop : Nat}
    (h : parseRange header size = .slice start stop) : start ≤ stop ∧ stop < size := by
  unfold parseRange at h
  split at h
  · cases h
  · split at h
    · cases h
    · dsimp only at h
      split at h
      · cases h
      · split at h
        · exact parseSingleRange_bounds h
        · cases h

/-- **Range headers.**  A header is resolved by the grammar exactly when it is
not misread; no subtraction underflows; and a slice is inside the resource. -/
theorem parse_range_grammar (header : Option String) (size : Nat) :
    (Resolves header size (parseRange header size) ↔ ¬ Misread header size) ∧
      parseRangeChecked header size = some (parseRange header size) ∧
        ∀ start stop, parseRange header size = .slice start stop → start ≤ stop ∧ stop < size :=
  ⟨parseRange_resolves_iff header size, parseRangeChecked_eq header size,
    fun _ _ => parseRange_bounds⟩

/-! ### An end beyond 64 bits -/

/-- The range `0-18446744073709551616`, up to 2 ^ 64. -/
def farRange : List Char := "0-18446744073709551616".toList

theorem specText_far : SpecText Digits (trim farRange) (.closed 0 18446744073709551616) := by
  refine ⟨['0'], "18446744073709551616".toList, by decide +kernel, by decide, .closed ?_ ?_⟩
  · exact ⟨by decide, List.all_eq_true.mp (by decide), by decide⟩
  · exact ⟨by decide, List.all_eq_true.mp (by decide), by decide +kernel⟩

/-- Of 1000 bytes, it is refused. -/
theorem clamped_stop_refused :
    ¬ Resolves (some "bytes=0-18446744073709551616") 1000
      (parseRange (some "bytes=0-18446744073709551616") 1000) := by
  rw [parseRange_resolves_iff]
  intro hRead
  apply hRead
  refine ⟨_, farRange, _, rfl, ?_, by decide, specText_far.signed, by decide, ?_⟩
  · show trim _ = _
    decide +kernel
  · intro hIff
    have hSmall := hIff.mp specText_far 18446744073709551616 (by simp [Spec.numbers])
    omega

end CastApp.Media.RangeGrammar
