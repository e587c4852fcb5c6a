import CastApp.Verified.EventLoop

/-!
# Coroutines that keep to a protocol

A protocol is an automaton over operations: in which phase an operation may
be asked, and the phase it leads to.  `Keeps next ph p post` says that `p`,
begun in phase `ph`, asks only what the protocol allows, whatever the answers
are, and returns in a phase and with a value that satisfy `post`.

* `Keeps.bind` — the sequencing rule.
* **`InPhase.step`** — if the prelude and every body of a loop keep to the
  protocol between its phases `home`, every small step does.
-/

namespace CastApp.Verified.Typestate

open CastApp.Verified.Coroutine
open CastApp.Verified.EventLoop

variable {S : Signature} {φ α γ : Type}

/-- `p` keeps to the protocol. -/
def Keeps (next : φ → S.Op → φ → Prop) : φ → Coro S α → (φ → α → Prop) → Prop
  | ph, .done a, post => post ph a
  | _, .fault _, _ => True
  | ph, .await op resume, post =>
      ∃ ph', next ph op ph' ∧ ∀ r, Keeps next ph' (resume r) post

variable {next : φ → S.Op → φ → Prop}

/-- Sequencing: the rest starts in whatever phase the first part returns in. -/
theorem Keeps.bind {ph : φ} {p : Coro S γ} {f : γ → Coro S α} {mid : φ → γ → Prop}
    {post : φ → α → Prop} (hp : Keeps next ph p mid)
    (hf : ∀ ph' a, mid ph' a → Keeps next ph' (f a) post) : Keeps next ph (p >>= f) post := by
  show Keeps next ph (Coro.bind p f) post
  induction p generalizing ph with
  | done a => exact hf ph a hp
  | fault reason => exact trivial
  | await op resume ih =>
      obtain ⟨ph', hNext, hResume⟩ := hp
      exact ⟨ph', hNext, fun r => ih r (hResume r)⟩

/-- Awaiting one operation, then the rest. -/
theorem Keeps.perform {ph ph' : φ} {op : S.Op} {f : S.Ans op → Coro S α} {post : φ → α → Prop}
    (hNext : next ph op ph') (hf : ∀ r, Keeps next ph' (f r) post) :
    Keeps next ph (Coroutine.perform op >>= f) post :=
  ⟨ph', hNext, hf⟩

/-! ## Loops -/

variable {σ β ε ι : Type}

/-- The control of a loop that is in phase `ph`: a body that keeps to the
protocol on its way back to a phase of `home`, or a loop parked in one. -/
def InPhase (next : φ → S.Op → φ → Prop) (home : φ → Prop) (ph : φ) : Control S σ → Prop
  | .running p => Keeps next ph p fun ph' flow => (∃ s, flow = .park s) → home ph'
  | .parked _ => home ph
  | .exited _ => True
  | .faulted _ => True

/-- The phase after a step: that of the operation asked, or the same. -/
def Label.Leads (next : φ → S.Op → φ → Prop) (ph : φ) : Label S β ι → φ → Prop
  | .answer entry, ph' => next ph entry.1 ph'
  | _, ph' => ph' = ph

/-- **A small step follows the protocol.** -/
theorem InPhase.step {L : EventLoop S σ β} {V : Environment S σ β ε ι} {home : φ → Prop} {ph : φ}
    {c c' : Control S σ} {e e' : ε} {label : Label S β ι}
    (hBody : ∀ ph s b, home ph → InPhase (σ := σ) next home ph (.running (L.body s b)))
    (hStep : SmallStep L V (c, e) label (c', e')) (h : InPhase next home ph c) :
    ∃ ph', Label.Leads next ph label ph' ∧ InPhase next home ph' c' := by
  cases hStep with
  | @answer op r resume _ _ _ =>
      obtain ⟨ph', hNext, hResume⟩ := h
      exact ⟨ph', hNext, hResume r⟩
  | @park s => exact ⟨ph, rfl, h ⟨s, rfl⟩⟩
  | @fire s b => exact ⟨ph, rfl, hBody ph s b h⟩
  | exit | fault => exact ⟨ph, rfl, trivial⟩
  | move => exact ⟨ph, rfl, h⟩

end CastApp.Verified.Typestate
