/-!
# Counting in a row

A counter that goes up with each event of a kind and back to zero with each
other one says how many of the last events were of that kind.

* `Streak.more`, `Streak.broken` — the counter behind one more event.
* `Streak.le_iff` — what it means that the counter has reached a number.
-/

namespace CastApp.Verified.Streak

/-- Of the first `n` events, the last `count` are as `p` says and the one
before them is not. -/
structure Streak (p : Nat → Prop) (n count : Nat) : Prop where
  hLe : count ≤ n
  hAll : ∀ j, j < count → p (n - 1 - j)
  hBefore : count < n → ¬ p (n - 1 - count)

variable {p : Nat → Prop} {n count m : Nat}

theorem Streak.start : Streak p 0 0 :=
  ⟨Nat.le_refl 0, fun _ h => absurd h (Nat.not_lt_zero _), fun h => absurd h (Nat.not_lt_zero _)⟩

/-- One more. -/
theorem Streak.more (h : Streak p n count) (hp : p n) : Streak p (n + 1) (count + 1) := by
  obtain ⟨hLe, hAll, hBefore⟩ := h
  refine ⟨by omega, ?_, ?_⟩
  · intro j hj
    by_cases hFirst : j = 0
    · subst hFirst
      exact hp
    · have hEarlier := hAll (j - 1) (by omega)
      rw [show n + 1 - 1 - j = n - 1 - (j - 1) by omega]
      exact hEarlier
  · intro hLt
    rw [show n + 1 - 1 - (count + 1) = n - 1 - count by omega]
    exact hBefore (by omega)

/-- One of another kind. -/
theorem Streak.broken (hp : ¬ p n) : Streak p (n + 1) 0 :=
  ⟨Nat.zero_le _, fun _ h => absurd h (Nat.not_lt_zero _), fun _ => hp⟩

/-- The counter has reached `m` when the last `m` events are of the kind. -/
theorem Streak.le_iff (h : Streak p n count) :
    m ≤ count ↔ m ≤ n ∧ ∀ j, j < m → p (n - 1 - j) := by
  obtain ⟨hLe, hAll, hBefore⟩ := h
  constructor
  · intro hReached
    exact ⟨by omega, fun j hj => hAll j (by omega)⟩
  · rintro ⟨hMany, hLast⟩
    apply Classical.byContradiction
    intro hShort
    exact hBefore (by omega) (hLast count (by omega))

end CastApp.Verified.Streak
