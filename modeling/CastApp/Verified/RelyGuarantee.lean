import CastApp.Verified.EventLoop

/-!
# Rely and guarantee

A coroutine relies on its surroundings to give acceptable answers and in
return guarantees which operations it asks for.  `Abides rely guar p post`
says that `p` asks only for operations of `guar` and returns only values of
`post`, as long as every answer it gets is one of `rely`.

* `Abides.bind` — the sequencing rule.
* `Abides.exec` — what it means for a finished execution.
* **`LoopAbides.step`** — if the prelude and every body of a loop abide, with
  an invariant between the turns, every small step does.
-/

namespace CastApp.Verified.RelyGuarantee

open CastApp.Verified.Coroutine
open CastApp.Verified.EventLoop

variable {S : Signature} {α γ : Type}

/-- `p` asks only for what `guar` allows and returns only values of `post`,
while the answers are those of `rely`. -/
def Abides (rely : (op : S.Op) → S.Ans op → Prop) (guar : S.Op → Prop) :
    Coro S α → (α → Prop) → Prop
  | .done a, post => post a
  | .fault _, _ => True
  | .await op resume, post => guar op ∧ ∀ r, rely op r → Abides rely guar (resume r) post

variable {rely rely' : (op : S.Op) → S.Ans op → Prop} {guar guar' : S.Op → Prop}

/-- Sequencing: the rest may start from any value the first part returns. -/
theorem Abides.bind {p : Coro S γ} {f : γ → Coro S α} {mid : γ → Prop} {post : α → Prop}
    (hp : Abides rely guar p mid) (hf : ∀ a, mid a → Abides rely guar (f a) post) :
    Abides rely guar (p >>= f) post := by
  show Abides rely guar (Coro.bind p f) post
  induction p with
  | done a => exact hf a hp
  | fault reason => trivial
  | await op resume ih => exact ⟨hp.1, fun r hr => ih r (hp.2 r hr)⟩

/-- Awaiting one operation, then the rest. -/
theorem Abides.perform {op : S.Op} {f : S.Ans op → Coro S α} {post : α → Prop}
    (hOp : guar op) (hf : ∀ r, rely op r → Abides rely guar (f r) post) :
    Abides rely guar (Coroutine.perform op >>= f) post :=
  ⟨hOp, hf⟩

theorem Abides.mono {p : Coro S α} {post post' : α → Prop} (hp : Abides rely guar p post)
    (hRely : ∀ op r, rely' op r → rely op r) (hGuar : ∀ op, guar op → guar' op)
    (hPost : ∀ a, post a → post' a) : Abides rely' guar' p post' := by
  induction p with
  | done a => exact hPost a hp
  | fault reason => trivial
  | await op resume ih => exact ⟨hGuar op hp.1, fun r hr => ih r (hp.2 r (hRely op r hr))⟩

/-- A finished execution whose answers are acceptable. -/
theorem Abides.exec {p : Coro S α} {post : α → Prop} {tr : List (Entry S)} {o : Outcome S α}
    (hp : Abides rely guar p post) (hExec : Exec p tr o) (hRely : ∀ e ∈ tr, rely e.1 e.2) :
    (∀ e ∈ tr, guar e.1) ∧ ∀ a, o = .value a → post a := by
  induction p generalizing tr with
  | done a =>
      obtain ⟨rfl, rfl⟩ := hExec
      refine ⟨by simp, ?_⟩
      rintro _ ⟨⟩
      exact hp
  | fault reason =>
      obtain ⟨rfl, rfl⟩ := hExec
      exact ⟨by simp, nofun⟩
  | await op resume ih =>
      obtain ⟨r, rest, rfl, hRest⟩ := hExec
      simp only [List.forall_mem_cons] at hRely ⊢
      have hNext := ih r (hp.2 r hRely.1) hRest hRely.2
      exact ⟨⟨hp.1, hNext.1⟩, hNext.2⟩

/-! ## Loops -/

variable {σ β ε ι : Type}

/-- The control of a loop that abides: a body on its way to a state of `inv`,
or a loop parked in one. -/
def LoopAbides (rely : (op : S.Op) → S.Ans op → Prop) (guar : S.Op → Prop) (inv : σ → Prop) :
    Control S σ → Prop
  | .running p => Abides rely guar p fun flow => ∀ s, flow = .park s → inv s
  | .parked s => inv s
  | .exited _ => True
  | .faulted _ => True

/-- What is asked for, if the label is that of an answer. -/
def Label.Satisfies (φ : (op : S.Op) → S.Ans op → Prop) : Label S β ι → Prop
  | .answer entry => φ entry.1 entry.2
  | _ => True

theorem LoopAbides.mono {inv inv' : σ → Prop} {c : Control S σ} (h : LoopAbides rely guar inv c)
    (hGuar : ∀ op, guar op → guar' op) (hInv : ∀ s, inv s → inv' s) :
    LoopAbides rely guar' inv' c := by
  cases c with
  | running p =>
      exact Abides.mono h (fun _ _ => id) hGuar fun _ hFlow s hPark => hInv s (hFlow s hPark)
  | parked s => exact hInv s h
  | exited | faulted => trivial

/-- **A small step abides**, if the body it may enter does. -/
theorem LoopAbides.step {L : EventLoop S σ β} {V : Environment S σ β ε ι} {inv : σ → Prop}
    {c c' : Control S σ} {e e' : ε} {label : Label S β ι}
    (hBody : ∀ s b, label = .fire b → inv s → LoopAbides rely guar inv (.running (L.body s b)))
    (hRely : Label.Satisfies rely label) (hStep : SmallStep L V (c, e) label (c', e'))
    (h : LoopAbides rely guar inv c) :
    Label.Satisfies (fun op _ => guar op) label ∧ LoopAbides rely guar inv c' := by
  cases hStep with
  | @answer op r resume _ _ _ => exact ⟨h.1, h.2 r hRely⟩
  | @park s => exact ⟨trivial, h s rfl⟩
  | @fire s b => exact ⟨trivial, hBody s b rfl h⟩
  | exit | fault => exact ⟨trivial, trivial⟩
  | move => exact ⟨trivial, h⟩

end CastApp.Verified.RelyGuarantee
