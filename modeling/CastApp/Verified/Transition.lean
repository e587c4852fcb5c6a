/-!
# Labelled transition systems and their runs

The bottom of the package: a transition system, its finite runs with every
step recorded, and the induction rules all later invariants are proved
through.  A run keeps the state before and after each step, so a property of
a run can speak about *when* something happened and not only about the state
it ended in.

* `Run.invariant` — what holds initially and survives every step holds at
  the end of every run.
* `Run.traceInvariant` — the same for a property that reads the recorded
  steps as well.
* `Run.step_run` — each recorded step was taken from a state that the run
  before it reached.
* `Run.forall_post_iff` — a run keeps to the good states exactly when it takes
  no faulty step.
* `Run.invariantAfter` — the invariant rule for what follows a recorded step.
* `Path.traceInvariant` — the invariant rule for what follows a given state.
-/

namespace CastApp.Verified.Transition

/-- A labelled transition system: where a run may start and which steps it
may take. -/
structure System (σ ι : Type) where
  init : σ → Prop
  step : σ → ι → σ → Prop

/-- One recorded step, with the states around it. -/
structure Move (σ ι : Type) where
  pre : σ
  label : ι
  post : σ

variable {σ ι : Type}

/-- `Run M trace s`: from an initial state, `M` takes the steps of `trace` in
order and ends in `s`. -/
inductive Run (M : System σ ι) : List (Move σ ι) → σ → Prop
  | start {s : σ} (hInit : M.init s) : Run M [] s
  | step {trace : List (Move σ ι)} {s s' : σ} {l : ι}
      (hRun : Run M trace s) (hStep : M.step s l s') :
      Run M (trace ++ [⟨s, l, s'⟩]) s'

/-- A state some run ends in. -/
def Reachable (M : System σ ι) (s : σ) : Prop := ∃ trace, Run M trace s

namespace Run

variable {M : System σ ι} {trace : List (Move σ ι)} {s : σ}

/-- The invariant rule. -/
theorem invariant {I : σ → Prop} (hRun : Run M trace s)
    (hInit : ∀ s, M.init s → I s)
    (hStep : ∀ s l s', I s → M.step s l s' → I s') : I s := by
  induction hRun with
  | start h => exact hInit _ h
  | step _ h ih => exact hStep _ _ _ ih h

/-- The invariant rule for a property of the state and of the steps taken
so far. -/
theorem traceInvariant {I : List (Move σ ι) → σ → Prop} (hRun : Run M trace s)
    (hInit : ∀ s, M.init s → I [] s)
    (hStep : ∀ trace s l s', Run M trace s → I trace s → M.step s l s' →
      I (trace ++ [⟨s, l, s'⟩]) s') : I trace s := by
  induction hRun with
  | start h => exact hInit _ h
  | step hRun h ih => exact hStep _ _ _ _ hRun ih h

/-- A run split in two: the first part is a run of its own. -/
theorem prefix_run {first rest : List (Move σ ι)}
    (hRun : Run M (first ++ rest) s) : ∃ s₁, Run M first s₁ := by
  generalize hTrace : first ++ rest = trace at hRun
  induction hRun generalizing rest with
  | start h =>
      obtain ⟨rfl, rfl⟩ := List.append_eq_nil_iff.mp hTrace
      exact ⟨_, .start h⟩
  | step hRun h ih =>
      rcases List.eq_nil_or_concat rest with rfl | ⟨rest', last, rfl⟩
      · rw [List.append_nil] at hTrace
        subst hTrace
        exact ⟨_, Run.step hRun h⟩
      · rw [List.concat_eq_append, ← List.append_assoc] at hTrace
        exact ih (List.append_inj' hTrace rfl).1

/-- Each recorded step starts where the steps before it end, and is a step of
the system. -/
theorem step_run {first rest : List (Move σ ι)} {m : Move σ ι}
    (hRun : Run M (first ++ m :: rest) s) :
    Run M first m.pre ∧ M.step m.pre m.label m.post := by
  rw [show first ++ m :: rest = (first ++ [m]) ++ rest by simp] at hRun
  obtain ⟨s₁, hPrefix⟩ := hRun.prefix_run
  generalize hTrace : first ++ [m] = trace at hPrefix
  cases hPrefix with
  | start => simp at hTrace
  | step hFirst hStep =>
      obtain ⟨rfl, hm⟩ := List.append_inj' hTrace rfl
      obtain rfl := List.singleton_inj.mp hm
      exact ⟨hFirst, hStep⟩

/-- The invariant rule from a recorded step on. -/
theorem invariantAfter {I : List (Move σ ι) → σ → Prop} {first rest : List (Move σ ι)}
    {m : Move σ ι} (hRun : Run M (first ++ m :: rest) s) (hStart : I [] m.post)
    (hStep : ∀ between s₁ l s₂, Run M (first ++ m :: between) s₁ → I between s₁ →
      M.step s₁ l s₂ → I (between ++ [⟨s₁, l, s₂⟩]) s₂) : I rest s := by
  generalize hTrace : first ++ m :: rest = trace at hRun
  induction hRun generalizing rest with
  | start => simp at hTrace
  | step hRun h ih =>
      rcases List.eq_nil_or_concat rest with rfl | ⟨rest', last, rfl⟩
      · obtain ⟨-, hLast⟩ := List.append_inj' hTrace rfl
        obtain rfl := List.singleton_inj.mp hLast
        exact hStart
      · rw [List.concat_eq_append, ← List.cons_append, ← List.append_assoc] at hTrace
        obtain ⟨rfl, hLast⟩ := List.append_inj' hTrace rfl
        obtain rfl := List.singleton_inj.mp hLast
        rw [List.concat_eq_append]
        exact hStep _ _ _ _ hRun (ih rfl) h

/-- Where a step from a good state leads to a good one unless it is a fault,
the states of a run are all good exactly when none of its steps is a fault. -/
theorem forall_post_iff {I : σ → Prop} {Fault : σ → ι → Prop} (hRun : Run M trace s)
    (hInit : ∀ s, M.init s → I s)
    (hStep : ∀ s l s', I s → M.step s l s' → (I s' ↔ ¬ Fault s l)) :
    (∀ m ∈ trace, I m.post) ↔ ∀ m ∈ trace, ¬ Fault m.pre m.label := by
  suffices h : ((∀ m ∈ trace, I m.post) ↔ ∀ m ∈ trace, ¬ Fault m.pre m.label) ∧
      ((∀ m ∈ trace, I m.post) → I s) from h.1
  induction hRun with
  | start h => exact ⟨by simp, fun _ => hInit _ h⟩
  | step _ h ih =>
      obtain ⟨hIff, hLast⟩ := ih
      simp only [List.forall_mem_append, List.forall_mem_singleton]
      rw [← hIff]
      exact ⟨and_congr_right fun hAll => hStep _ _ _ (hLast hAll) h, fun hAll => hAll.2⟩

end Run

/-! ## What follows a state -/

/-- From `s`, `M` takes the steps recorded and ends in the last argument. -/
inductive Path (M : System σ ι) (s : σ) : List (Move σ ι) → σ → Prop
  | nil : Path M s [] s
  | step {trace : List (Move σ ι)} {s₁ s₂ : σ} {l : ι}
      (hPath : Path M s trace s₁) (hStep : M.step s₁ l s₂) :
      Path M s (trace ++ [⟨s₁, l, s₂⟩]) s₂

variable {M : System σ ι} {trace : List (Move σ ι)} {s s' : σ}

/-- A run goes on along a path. -/
theorem Run.extend {later : List (Move σ ι)} (hRun : Run M trace s) (hPath : Path M s later s') :
    Run M (trace ++ later) s' := by
  induction hPath with
  | nil =>
      rw [List.append_nil]
      exact hRun
  | step _ hStep ih =>
      rw [← List.append_assoc]
      exact ih.step hStep

/-- The invariant rule along a path. -/
theorem Path.traceInvariant {I : List (Move σ ι) → σ → Prop} (hPath : Path M s trace s')
    (hStart : I [] s)
    (hStep : ∀ trace s₁ l s₂, I trace s₁ → M.step s₁ l s₂ → I (trace ++ [⟨s₁, l, s₂⟩]) s₂) :
    I trace s' := by
  induction hPath with
  | nil => exact hStart
  | step _ h ih => exact hStep _ _ _ _ ih h

end CastApp.Verified.Transition
