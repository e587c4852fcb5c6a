import Mathlib.Data.List.DropRight

/-!
# Monitors of a trace

A monitor says of an event whether it is allowed after the events before it.
A trace is accepted when each of its events is allowed.  Most rules look back
to some marked event only: `since` is the part of a history after the last
one.

* `accepts_append` — a trace is accepted piece by piece.
* `accepts_iff` — what acceptance says of a single event.
-/

namespace CastApp.Verified.Monitor

variable {α : Type}

/-- `ok` allows every event after `history` and the events before it. -/
def Accepts (ok : List α → α → Prop) (history : List α) : List α → Prop
  | [] => True
  | x :: xs => ok history x ∧ Accepts ok (history ++ [x]) xs

instance decidableAccepts (ok : List α → α → Prop)
    [hOk : ∀ history x, Decidable (ok history x)] :
    ∀ history xs, Decidable (Accepts ok history xs)
  | _, [] => inferInstanceAs (Decidable True)
  | history, x :: xs =>
      @instDecidableAnd _ _ (hOk history x) (decidableAccepts ok (history ++ [x]) xs)

section Accepts

variable {ok : List α → α → Prop} {history xs ys : List α}

theorem accepts_append :
    Accepts ok history (xs ++ ys) ↔ Accepts ok history xs ∧ Accepts ok (history ++ xs) ys := by
  induction xs generalizing history with
  | nil => simp [Accepts]
  | cons x xs ih => simp [Accepts, ih, and_assoc]

/-- Events that are allowed after anything. -/
theorem accepts_of_forall (h : ∀ x ∈ xs, ∀ history, ok history x) : Accepts ok history xs := by
  induction xs generalizing history with
  | nil => trivial
  | cons x xs ih =>
      have hFirst := h x List.mem_cons_self history
      exact ⟨hFirst, ih fun y hy => h y (List.mem_cons_of_mem x hy)⟩

theorem accepts_iff :
    Accepts ok history xs ↔
      ∀ before x after, xs = before ++ x :: after → ok (history ++ before) x := by
  induction xs generalizing history with
  | nil => simp [Accepts]
  | cons y ys ih =>
      rw [Accepts, ih]
      constructor
      · rintro ⟨hFirst, hRest⟩ before x after hSplit
        cases before with
        | nil =>
            cases hSplit
            rwa [List.append_nil]
        | cons z before =>
            cases hSplit
            have hLater := hRest before x after rfl
            rwa [List.append_assoc] at hLater
      · intro h
        constructor
        · have hFirst := h [] y ys rfl
          rwa [List.append_nil] at hFirst
        · intro before x after hSplit
          have hLater := h (y :: before) x after (by rw [hSplit]; rfl)
          rwa [List.append_assoc]

end Accepts

/-! ## Since the last marked event -/

/-- The events after the last one that `mark` holds of. -/
def since (mark : α → Bool) (history : List α) : List α :=
  history.rtakeWhile fun x => !mark x

section Since

variable {mark : α → Bool} {x : α} (history : List α)

theorem since_concat_of_mark (h : mark x = true) : since mark (history ++ [x]) = [] :=
  List.rtakeWhile_concat_neg _ _ _ (by simp [h])

theorem since_concat (h : mark x = false) :
    since mark (history ++ [x]) = since mark history ++ [x] :=
  List.rtakeWhile_concat_pos _ _ _ (by simp [h])

theorem since_append {xs : List α} (h : xs.any mark = false) :
    since mark (history ++ xs) = since mark history ++ xs := by
  induction xs generalizing history with
  | nil => simp
  | cons x xs ih =>
      rw [List.any_cons, Bool.or_eq_false_iff] at h
      have hStep := ih (history ++ [x]) h.2
      rwa [since_concat history h.1, List.append_assoc, List.append_assoc] at hStep

/-- What came before a marked event does not matter. -/
theorem since_append_of_any {xs : List α} (h : xs.any mark = true) :
    since mark (history ++ xs) = since mark xs := by
  induction xs using List.reverseRecOn with
  | nil => cases h
  | append_singleton xs x ih =>
      rw [← List.append_assoc]
      cases hMark : mark x with
      | true => rw [since_concat_of_mark _ hMark, since_concat_of_mark _ hMark]
      | false =>
          rw [List.any_append, List.any_cons, hMark, List.any_nil, Bool.or_false,
            Bool.or_false] at h
          rw [since_concat _ hMark, since_concat _ hMark, ih h]

theorem since_subset {history : List α} (h : x ∈ since mark history) : x ∈ history :=
  (List.rtakeWhile_suffix _ _).subset h

end Since

end CastApp.Verified.Monitor
