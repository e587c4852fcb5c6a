/-!
# Runs of an automaton

An automaton over a list of events, by the events it allows in a state and the
state each leads to.  `Accepts ok next s xs s'` says that from `s` each of `xs`
is allowed where it comes, and that the last state is `s'`.

* `Accepts.append`, `Accepts.split` — a list is accepted piece by piece.
* `accepts_of_still` — events that are allowed and change nothing.
* `Accepts.eq_of_still` — events that change nothing leave the state as it was.
-/

namespace CastApp.Verified.Automaton

variable {σ α : Type} {ok : σ → α → Prop} {next : σ → α → σ}

def Accepts (ok : σ → α → Prop) (next : σ → α → σ) : σ → List α → σ → Prop
  | s, [], s' => s = s'
  | s, x :: xs, s' => ok s x ∧ Accepts ok next (next s x) xs s'

variable {s s' s'' : σ} {xs ys : List α}

theorem Accepts.nil : Accepts ok next s [] s := rfl

theorem Accepts.append (hFirst : Accepts ok next s xs s') (hRest : Accepts ok next s' ys s'') :
    Accepts ok next s (xs ++ ys) s'' := by
  induction xs generalizing s with
  | nil =>
      subst hFirst
      exact hRest
  | cons x xs ih => exact ⟨hFirst.1, ih hFirst.2⟩

theorem Accepts.split (h : Accepts ok next s (xs ++ ys) s'') :
    ∃ s', Accepts ok next s xs s' ∧ Accepts ok next s' ys s'' := by
  induction xs generalizing s with
  | nil => exact ⟨s, .nil, h⟩
  | cons x xs ih =>
      obtain ⟨s', hFirst, hRest⟩ := ih h.2
      exact ⟨s', ⟨h.1, hFirst⟩, hRest⟩

theorem accepts_of_still (h : ∀ x ∈ xs, ok s x ∧ next s x = s) : Accepts ok next s xs s := by
  induction xs with
  | nil => exact .nil
  | cons x xs ih =>
      simp only [List.forall_mem_cons] at h
      refine ⟨h.1.1, ?_⟩
      rw [h.1.2]
      exact ih h.2

theorem Accepts.eq_of_still (hAccepts : Accepts ok next s xs s')
    (h : ∀ x ∈ xs, ∀ s, next s x = s) : s = s' := by
  induction xs generalizing s with
  | nil => exact hAccepts
  | cons x xs ih =>
      simp only [List.forall_mem_cons] at h
      rw [← ih hAccepts.2 h.2, h.1]

end CastApp.Verified.Automaton
