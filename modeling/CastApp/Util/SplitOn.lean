import Mathlib.Data.String.Basic
import CastApp.Util.Text

/-!
# Splitting strings and lists

`String.splitOn` with a separator of one character works on positions in the
text; its parts are those of `split` on the list of characters.
-/

namespace CastApp.Util.Text

/-- The first part goes on with what stands in front of it. -/
def glue (front : List Char) : List (List Char) → List (List Char)
  | [] => [front]
  | first :: rest => (front ++ first) :: rest

theorem glue_nil (separator : Char) (text : List Char) :
    glue [] (split separator text) = split separator text := by
  cases hParts : split separator text with
  | nil => exact absurd hParts (split_ne_nil separator text)
  | cons => rfl

theorem glue_cons {separator c : Char} (h : c ≠ separator) (front text : List Char) :
    glue front (split separator (c :: text)) = glue (front ++ [c]) (split separator text) := by
  rw [split, if_neg h]
  cases hParts : split separator text with
  | nil => exact absurd hParts (split_ne_nil separator text)
  | cons => simp [glue]

section Positions

open String

/-- The separator is one character, so it is read whole or not at all. -/
theorem separator_whole (separator : Char) :
    Pos.Raw.get (ofList [separator]) 0 = separator ∧
      Pos.Raw.next (ofList [separator]) 0 = ⟨separator.utf8Size⟩ ∧
      Pos.Raw.atEnd (ofList [separator]) ⟨separator.utf8Size⟩ = true := by
  have hGet : Pos.Raw.get (ofList [separator]) 0 = separator := get_of_valid [] [separator]
  have hNext := next_of_valid [] separator []
  refine ⟨hGet, by simpa using hNext, ?_⟩
  rw [atEnd_iff, rawEndPos_ofList]
  simp

/-- What is found at a character of the text. -/
theorem position_inside (before part rest : List Char) (c : Char) :
    ¬ Pos.Raw.atEnd (ofList (before ++ part ++ c :: rest))
        ⟨utf8Len before + utf8Len part⟩ = true ∧
      Pos.Raw.get (ofList (before ++ part ++ c :: rest))
        ⟨utf8Len before + utf8Len part⟩ = c ∧
      Pos.Raw.next (ofList (before ++ part ++ c :: rest))
        ⟨utf8Len before + utf8Len part⟩ = ⟨utf8Len before + utf8Len part + c.utf8Size⟩ := by
  have hGet := get_of_valid (before ++ part) (c :: rest)
  have hNext := next_of_valid (before ++ part) c rest
  rw [utf8Len_append] at hGet hNext
  refine ⟨?_, hGet, hNext⟩
  have hSize := c.utf8Size_pos
  rw [atEnd_iff, rawEndPos_ofList]
  simp
  omega

/-- The position is behind `before ++ part`, and `part` is the part that is
being read. -/
theorem splitOnAux_singleton (separator : Char) (before part rest : List Char)
    (done : List String) :
    splitOnAux (ofList (before ++ part ++ rest)) (ofList [separator]) ⟨utf8Len before⟩
        ⟨utf8Len before + utf8Len part⟩ 0 done =
      done.reverse ++ (glue part (split separator rest)).map ofList := by
  induction rest generalizing before part done with
  | nil =>
      have hExtract := extract_of_valid before part []
      have hEnd : Pos.Raw.atEnd (ofList (before ++ part ++ []))
          ⟨utf8Len before + utf8Len part⟩ = true := by
        rw [atEnd_iff, rawEndPos_ofList]
        simp
      unfold splitOnAux
      rw [if_pos hEnd, hExtract]
      simp [split, glue]
  | cons c rest ih =>
      obtain ⟨hEnd, hGet, hNext⟩ := position_inside before part rest c
      obtain ⟨hSepGet, hSepNext, hSepEnd⟩ := separator_whole separator
      unfold splitOnAux
      rw [if_neg hEnd, hGet, hSepGet]
      dsimp only
      rw [hNext, hSepNext, if_pos hSepEnd]
      by_cases hSeparator : c = separator
      · -- The part is complete, and the next one is empty so far.
        subst hSeparator
        have hBack : Pos.Raw.unoffsetBy ⟨utf8Len before + utf8Len part + c.utf8Size⟩
            ⟨c.utf8Size⟩ = ⟨utf8Len before + utf8Len part⟩ := by
          simp [Pos.Raw.unoffsetBy]
        rw [if_pos (by simp), hBack, extract_of_valid before part (c :: rest)]
        have hRest := ih (before ++ part ++ [c]) [] (ofList part :: done)
        have hText : before ++ part ++ [c] ++ [] ++ rest = before ++ part ++ c :: rest := by
          simp
        have hLen : utf8Len (before ++ part ++ [c]) =
            utf8Len before + utf8Len part + c.utf8Size := by
          simp [Nat.add_assoc]
        rw [hText, hLen, utf8Len_nil, Nat.add_zero, glue_nil] at hRest
        rw [hRest]
        simp [split, glue]
      · -- The part goes on.
        have hRest := ih before (part ++ [c]) done
        have hText : before ++ (part ++ [c]) ++ rest = before ++ part ++ c :: rest := by
          simp
        have hLen : utf8Len before + utf8Len (part ++ [c]) =
            utf8Len before + utf8Len part + c.utf8Size := by
          simp [Nat.add_assoc]
        have hBack : Pos.Raw.unoffsetBy ⟨utf8Len before + utf8Len part⟩ 0 =
            ⟨utf8Len before + utf8Len part⟩ := rfl
        rw [hText, hLen] at hRest
        rw [if_neg (by simpa using hSeparator), hBack, hNext, hRest, glue_cons hSeparator]

end Positions

theorem splitOn_singleton (separator : Char) (text : String) :
    text.splitOn (String.ofList [separator]) =
      (split separator text.toList).map String.ofList := by
  have hParts := splitOnAux_singleton separator [] [] text.toList []
  have hSeparator : (String.ofList [separator] == "") = false := by
    simp [beq_eq_false_iff_ne]
  unfold String.splitOn
  rw [hSeparator]
  simpa [glue_nil] using hParts

end CastApp.Util.Text
