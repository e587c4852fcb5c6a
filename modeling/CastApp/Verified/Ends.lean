import CastApp.Verified.Coroutine

/-!
# Ending against surroundings with a state

Total correctness of a coroutine whose surroundings have a state of their own:
each answer may depend on it and may change it.  `Ends answers e p post` says
that `p`, begun with the surroundings in `e`, meets no fault, always gets an
answer, and whatever the answers are ends with a state and a value that satisfy
`post`.

* `Ends.bind`, `Ends.perform`, `Ends.mono` — sequencing, one operation, and a
  weaker postcondition.
* **`Ends.exec`**, `Ends.exists_exec` — what it means for executions: every
  one that is answered so ends as `post` says, and there is one.
-/

namespace CastApp.Verified.Ends

open CastApp.Verified.Coroutine

variable {S : Signature} {ε α γ : Type}

/-- The answers of surroundings with a state, and their state behind each. -/
abbrev Answers (S : Signature) (ε : Type) : Type := ε → (op : S.Op) → S.Ans op → ε → Prop

/-- `p`, begun with the surroundings in a state, ends as `post` says. -/
def Ends (answers : Answers S ε) : ε → Coro S α → (ε → α → Prop) → Prop
  | e, .done a, post => post e a
  | _, .fault _, _ => False
  | e, .await op resume, post =>
      (∃ r e', answers e op r e') ∧ ∀ r e', answers e op r e' → Ends answers e' (resume r) post

/-- Operations answered one after another. -/
def Answered (answers : Answers S ε) : ε → List (Entry S) → ε → Prop
  | e, [], e' => e = e'
  | e, ⟨op, r⟩ :: tr, e' => ∃ e'', answers e op r e'' ∧ Answered answers e'' tr e'

variable {answers : Answers S ε} {e : ε}

/-- Sequencing: the rest begins wherever the first part may end. -/
theorem Ends.bind {p : Coro S γ} {f : γ → Coro S α} {mid : ε → γ → Prop} {post : ε → α → Prop}
    (hp : Ends answers e p mid) (hf : ∀ e' a, mid e' a → Ends answers e' (f a) post) :
    Ends answers e (p >>= f) post := by
  show Ends answers e (Coro.bind p f) post
  induction p generalizing e with
  | done a => exact hf e a hp
  | fault reason => exact hp.elim
  | await op resume ih => exact ⟨hp.1, fun r e' hAnswer => ih r (hp.2 r e' hAnswer)⟩

/-- Awaiting one operation, then the rest. -/
theorem Ends.perform {op : S.Op} {f : S.Ans op → Coro S α} {post : ε → α → Prop}
    (hSome : ∃ r e', answers e op r e')
    (hf : ∀ r e', answers e op r e' → Ends answers e' (f r) post) :
    Ends answers e (Coroutine.perform op >>= f) post := ⟨hSome, hf⟩

theorem Ends.mono {p : Coro S α} {post post' : ε → α → Prop} (hp : Ends answers e p post)
    (hPost : ∀ e' a, post e' a → post' e' a) : Ends answers e p post' := by
  induction p generalizing e with
  | done a => exact hPost e a hp
  | fault reason => exact hp
  | await op resume ih => exact ⟨hp.1, fun r e' hAnswer => ih r (hp.2 r e' hAnswer)⟩

/-- **Every execution that is answered so** ends as the postcondition says. -/
theorem Ends.exec {p : Coro S α} {post : ε → α → Prop} {tr : List (Entry S)} {o : Outcome S α}
    {e' : ε} (hp : Ends answers e p post) (hExec : Exec p tr o)
    (hAnswered : Answered answers e tr e') : ∃ a, o = .value a ∧ post e' a := by
  induction p generalizing e tr with
  | done a =>
      obtain ⟨rfl, rfl⟩ := hExec
      obtain rfl : e = e' := hAnswered
      exact ⟨a, rfl, hp⟩
  | fault reason => exact hp.elim
  | await op resume ih =>
      obtain ⟨r, tr', rfl, hRest⟩ := hExec
      obtain ⟨e'', hAnswer, hAnswered⟩ := hAnswered
      exact ih r (hp.2 r e'' hAnswer) hRest hAnswered

/-- There is such an execution. -/
theorem Ends.exists_exec {p : Coro S α} {post : ε → α → Prop} (hp : Ends answers e p post) :
    ∃ tr a e', Exec p tr (.value a) ∧ Answered answers e tr e' ∧ post e' a := by
  induction p generalizing e with
  | done a => exact ⟨[], a, e, ⟨rfl, rfl⟩, rfl, hp⟩
  | fault reason => exact hp.elim
  | await op resume ih =>
      obtain ⟨⟨r, e', hAnswer⟩, hRest⟩ := hp
      obtain ⟨tr, a, e'', hExec, hAnswered, hPost⟩ := ih r (hRest r e' hAnswer)
      exact ⟨⟨op, r⟩ :: tr, a, e'', ⟨r, tr, rfl, hExec⟩, ⟨e', hAnswer, hAnswered⟩, hPost⟩

end CastApp.Verified.Ends
