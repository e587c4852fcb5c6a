import Mathlib.Logic.Function.Basic

/-!
# Last write wins

Registers that are written one after another: a register holds what the last
write to it left there.

* `writeAll_of_written`, `writeAll_of_unwritten` — what was there before a
  sequence of writes matters exactly for the registers it leaves alone.
* `writeAll_insert_iff` — one more write between others changes nothing exactly
  when a later one overwrites it, or it writes what was there.
-/

namespace CastApp.Verified.LastWrite

variable {K V : Type} [DecidableEq K]

/-- The registers after a sequence of writes. -/
def writeAll (state : K → V) : List (K × V) → K → V
  | [] => state
  | write :: writes => writeAll (Function.update state write.1 write.2) writes

@[simp] theorem writeAll_nil (state : K → V) : writeAll state [] = state := rfl

@[simp] theorem writeAll_cons (state : K → V) (write : K × V) (writes : List (K × V)) :
    writeAll state (write :: writes) =
      writeAll (Function.update state write.1 write.2) writes := rfl

theorem writeAll_append (state : K → V) (first later : List (K × V)) :
    writeAll state (first ++ later) = writeAll (writeAll state first) later := by
  induction first generalizing state with
  | nil => rfl
  | cons write first ih => exact ih _

theorem writeAll_of_unwritten {state : K → V} {writes : List (K × V)} {key : K}
    (h : ∀ write ∈ writes, write.1 ≠ key) : writeAll state writes key = state key := by
  induction writes generalizing state with
  | nil => rfl
  | cons write writes ih =>
      have hHead : write.1 ≠ key := h write (by simp)
      have hRest : ∀ write ∈ writes, write.1 ≠ key := fun w hw => h w (by simp [hw])
      rw [writeAll_cons, ih hRest]
      exact Function.update_of_ne hHead.symm write.2 state

theorem writeAll_of_written {state state' : K → V} {writes : List (K × V)} {key : K}
    (h : ∃ write ∈ writes, write.1 = key) :
    writeAll state writes key = writeAll state' writes key := by
  induction writes generalizing state state' with
  | nil =>
      obtain ⟨write, hMem, -⟩ := h
      cases hMem
  | cons write writes ih =>
      by_cases hRest : ∃ write ∈ writes, write.1 = key
      · exact ih hRest
      · have hNone : ∀ write ∈ writes, write.1 ≠ key := fun w hw hKey => hRest ⟨w, hw, hKey⟩
        have hHead : write.1 = key := by
          obtain ⟨w, hMem, hKey⟩ := h
          rcases List.mem_cons.mp hMem with rfl | hMem
          · exact hKey
          · exact absurd hKey (hNone w hMem)
        subst hHead
        rw [writeAll_cons, writeAll_cons, writeAll_of_unwritten hNone,
          writeAll_of_unwritten hNone, Function.update_self, Function.update_self]

/-- One more write is not seen exactly when a later one covers it or it writes
what is there. -/
theorem writeAll_insert_iff (state : K → V) (first later : List (K × V)) (write : K × V) :
    writeAll state (first ++ write :: later) = writeAll state (first ++ later) ↔
      (∃ other ∈ later, other.1 = write.1) ∨ writeAll state first write.1 = write.2 := by
  rw [writeAll_append, writeAll_append, writeAll_cons]
  constructor
  · intro hSame
    by_cases hCovered : ∃ other ∈ later, other.1 = write.1
    · exact .inl hCovered
    · right
      have hNone : ∀ other ∈ later, other.1 ≠ write.1 := fun w hw hKey => hCovered ⟨w, hw, hKey⟩
      have hHere := congrFun hSame write.1
      rw [writeAll_of_unwritten hNone, writeAll_of_unwritten hNone, Function.update_self] at hHere
      exact hHere.symm
  · rintro (hCovered | hThere)
    · funext key
      by_cases hKey : ∃ other ∈ later, other.1 = key
      · exact writeAll_of_written hKey
      · have hNone : ∀ other ∈ later, other.1 ≠ key := fun w hw h => hKey ⟨w, hw, h⟩
        have hOther : key ≠ write.1 := by
          rintro rfl
          exact hKey hCovered
        rw [writeAll_of_unwritten hNone, writeAll_of_unwritten hNone]
        exact Function.update_of_ne hOther ..
    · rw [← hThere, Function.update_eq_self]

end CastApp.Verified.LastWrite
