import CastApp.State

/-!
# What a displayed address says

Numbers are displayed as digits and joined by separators that are no digits,
so the text of an IPv4 address, and of an address with its port, can be read
back in one way only.
-/

namespace CastApp.Util.Display

open CastApp.State

/-! ## Numbers and separators -/

theorem toList_toString (n : Nat) : (toString n).toList = Nat.toDigits 10 n :=
  Nat.toList_repr

theorem toDigits_inj {m n : Nat} (h : Nat.toDigits 10 m = Nat.toDigits 10 n) : m = n := by
  have hParsed := congrArg (fun digits => Nat.ofDigitChars 10 digits 0) h
  simpa using hParsed

/-- No separator is a digit. -/
theorem not_mem_toDigits {c : Char} (hSeparator : c.isDigit = false) (n : Nat) :
    c ∉ Nat.toDigits 10 n := by
  intro hMem
  have hDigit := Nat.isDigit_of_mem_toDigits (by decide) (by decide) hMem
  rw [hSeparator] at hDigit
  cases hDigit

/-- A text is cut at its first separator in one way only. -/
theorem cut_unique {c : Char} {left left' right right' : List Char}
    (hLeft : c ∉ left) (hLeft' : c ∉ left')
    (h : left ++ c :: right = left' ++ c :: right') : left = left' ∧ right = right' := by
  induction left generalizing left' with
  | nil =>
      cases left' with
      | nil => exact ⟨rfl, (List.cons.inj h).2⟩
      | cons d left' =>
          obtain ⟨rfl, -⟩ := List.cons.inj h
          exact absurd (List.mem_cons_self ..) hLeft'
  | cons b left ih =>
      cases left' with
      | nil =>
          obtain ⟨rfl, -⟩ := List.cons.inj h
          exact absurd (List.mem_cons_self ..) hLeft
      | cons d left' =>
          obtain ⟨rfl, hRest⟩ := List.cons.inj h
          obtain ⟨rfl, rfl⟩ := ih (fun hMem => hLeft (List.mem_cons_of_mem _ hMem))
            (fun hMem => hLeft' (List.mem_cons_of_mem _ hMem)) hRest
          exact ⟨rfl, rfl⟩

/-! ## Addresses -/

/-- The octet above the lowest `shift` bits. -/
def octet (bits : BitVec 32) (shift : Nat) : Nat := bits.toNat >>> shift % 256

theorem ipv4Text_toList (bits : BitVec 32) :
    (ipv4Text bits).toList =
      Nat.toDigits 10 (octet bits 24) ++ '.' :: (Nat.toDigits 10 (octet bits 16) ++
        '.' :: (Nat.toDigits 10 (octet bits 8) ++ '.' :: Nat.toDigits 10 (octet bits 0))) := by
  have hText : ipv4Text bits = toString (octet bits 24) ++ "." ++ toString (octet bits 16) ++
      "." ++ toString (octet bits 8) ++ "." ++ toString (octet bits 0) := rfl
  rw [hText]
  simp

theorem ipv4Text_inj {a b : BitVec 32} (h : ipv4Text a = ipv4Text b) : a = b := by
  have hList := congrArg String.toList h
  rw [ipv4Text_toList, ipv4Text_toList] at hList
  have hDot := fun n => not_mem_toDigits (c := '.') (by decide) n
  obtain ⟨h24, hList⟩ := cut_unique (hDot _) (hDot _) hList
  obtain ⟨h16, hList⟩ := cut_unique (hDot _) (hDot _) hList
  obtain ⟨h8, h0⟩ := cut_unique (hDot _) (hDot _) hList
  have h24 := toDigits_inj h24
  have h16 := toDigits_inj h16
  have h8 := toDigits_inj h8
  have h0 := toDigits_inj h0
  simp only [octet, Nat.shiftRight_eq_div_pow] at h24 h16 h8 h0
  have ha := a.isLt
  have hb := b.isLt
  apply BitVec.eq_of_toNat_eq
  omega

theorem colon_not_mem_ipv4Text (bits : BitVec 32) : ':' ∉ (ipv4Text bits).toList := by
  rw [ipv4Text_toList]
  have hColon := fun n => not_mem_toDigits (c := ':') (by decide) n
  simp [hColon]

/-- `ip:port` names its address and its port. -/
theorem endpointText_inj {a b : BitVec 32} {m n : Nat}
    (h : ipv4Text a ++ ":" ++ toString m = ipv4Text b ++ ":" ++ toString n) : a = b ∧ m = n := by
  have hList := congrArg String.toList h
  simp only [String.toList_append, toList_toString, List.append_assoc] at hList
  obtain ⟨hIp, hPort⟩ := cut_unique (colon_not_mem_ipv4Text a) (colon_not_mem_ipv4Text b) hList
  exact ⟨ipv4Text_inj (String.ext hIp), toDigits_inj hPort⟩

end CastApp.Util.Display
