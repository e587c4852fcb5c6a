import CastApp.Verified.Coroutine

/-!
# Dropping a coroutine

A future that is not polled any more is dropped at the `await` it has come to:
what it awaits has been begun, and nothing behind it runs.  `Halts` are the
executions of a coroutine with these ends among them.

`Upholds rely h p Q` says that `p`, begun after the operations `h`, halts as `Q`
says, wherever it is dropped, as long as every answer is one of `rely`.

* `upholds_bind` — sequencing.
* **`Upholds.halts`** — what it means for executions.
-/

namespace CastApp.Verified.Droppable

open CastApp.Verified.Coroutine

variable {S : Signature} {α β : Type}

/-- How a coroutine halts: it ends, or it is dropped while it awaits. -/
inductive Ending (S : Signature) (α : Type) : Type
  | ended (outcome : Outcome S α)
  | dropped (pending : S.Op)

/-- Answered as in the list, the coroutine asks exactly its operations and
halts so. -/
def Halts : Coro S α → List (Entry S) → Ending S α → Prop
  | .done a, tr, e => tr = [] ∧ e = .ended (.value a)
  | .fault reason, tr, e => tr = [] ∧ e = .ended (.fault reason)
  | .await op resume, tr, e =>
      (tr = [] ∧ e = .dropped op) ∨ ∃ r tr', tr = ⟨op, r⟩ :: tr' ∧ Halts (resume r) tr' e

/-- An execution halts where it ends. -/
theorem halts_of_exec {p : Coro S α} {tr : List (Entry S)} {o : Outcome S α}
    (h : Exec p tr o) : Halts p tr (.ended o) := by
  induction p generalizing tr with
  | done a => exact ⟨h.1, congrArg _ h.2⟩
  | fault reason => exact ⟨h.1, congrArg _ h.2⟩
  | await op resume ih =>
      obtain ⟨r, tr', hEntry, hRest⟩ := h
      exact .inr ⟨r, tr', hEntry, ih r hRest⟩

/-- However `p` halts after `h`, `Q` holds. -/
def Upholds (rely : (op : S.Op) → S.Ans op → Prop) (h : List (Entry S)) :
    Coro S α → (List (Entry S) → Ending S α → Prop) → Prop
  | .done a, Q => Q h (.ended (.value a))
  | .fault reason, Q => Q h (.ended (.fault reason))
  | .await op resume, Q =>
      Q h (.dropped op) ∧ ∀ r, rely op r → Upholds rely (h ++ [⟨op, r⟩]) (resume r) Q

variable {rely : (op : S.Op) → S.Ans op → Prop} {h : List (Entry S)}

/-- What the first part of a sequence has to come to. -/
def Continues (rely : (op : S.Op) → S.Ans op → Prop) (f : α → Coro S β)
    (Q : List (Entry S) → Ending S β → Prop) : List (Entry S) → Ending S α → Prop
  | h, .ended (.value a) => Upholds rely h (f a) Q
  | h, .ended (.fault reason) => Q h (.ended (.fault reason))
  | h, .dropped op => Q h (.dropped op)

/-- Sequencing: the rest begins after what the first part has done. -/
theorem upholds_bind {p : Coro S α} {f : α → Coro S β} {Q : List (Entry S) → Ending S β → Prop}
    (hp : Upholds rely h p (Continues rely f Q)) : Upholds rely h (p >>= f) Q := by
  show Upholds rely h (Coro.bind p f) Q
  induction p generalizing h with
  | done a => exact hp
  | fault reason => exact hp
  | await op resume ih => exact ⟨hp.1, fun r hr => ih r (hp.2 r hr)⟩

theorem Upholds.mono {p : Coro S α} {Q R : List (Entry S) → Ending S α → Prop}
    (hp : Upholds rely h p Q) (hQR : ∀ h' e, Q h' e → R h' e) : Upholds rely h p R := by
  induction p generalizing h with
  | done a => exact hQR _ _ hp
  | fault reason => exact hQR _ _ hp
  | await op resume ih => exact ⟨hQR _ _ hp.1, fun r hr => ih r (hp.2 r hr)⟩

/-- **However it halts**, the operations before it and its own satisfy the
postcondition. -/
theorem Upholds.halts {p : Coro S α} {Q : List (Entry S) → Ending S α → Prop}
    {tr : List (Entry S)} {e : Ending S α} (hp : Upholds rely h p Q) (hHalts : Halts p tr e)
    (hRely : ∀ entry ∈ tr, rely entry.1 entry.2) : Q (h ++ tr) e := by
  induction p generalizing h tr with
  | done a | fault reason =>
      obtain ⟨rfl, rfl⟩ := hHalts
      rw [List.append_nil]
      exact hp
  | await op resume ih =>
      rcases hHalts with ⟨rfl, rfl⟩ | ⟨r, tr', rfl, hRest⟩
      · rw [List.append_nil]
        exact hp.1
      · have hAnswer := hRely ⟨op, r⟩ List.mem_cons_self
        have hNext := ih r (hp.2 r hAnswer) hRest
          fun entry hMem => hRely entry (List.mem_cons_of_mem _ hMem)
        rw [List.append_assoc] at hNext
        exact hNext

end CastApp.Verified.Droppable
