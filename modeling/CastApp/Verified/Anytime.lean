import CastApp.Verified.Ends
import CastApp.Verified.EventLoop

/-!
# Dropped at any await point

An `async` computation may be dropped wherever it waits: by a `select!` that
picked another branch, by a timeout, by the end of its task.  `Stays answers
inv e p post` says that `p`, begun with its surroundings in `e`, leaves them in
a state that satisfies `inv` wherever it is dropped, and that they and its
value satisfy `post` if it comes to its end.  Nothing is said of whether it
does, or of whether it is always answered.

* `Stays.bind`, `Stays.perform`, `Stays.mono`, `Stays.and` — sequencing, one
  operation, a weaker postcondition, and two at once.
* **`turnsStay`**, `loopStays` — a loop whose prelude and bodies stay stays.
* `exists_run_of_recorded` — records beside the surroundings do not count.
* `run_exec`, `run_oracle`, `run_exit` — what a computation can do, a run can.
-/

namespace CastApp.Verified.Anytime

open CastApp.Verified.Coroutine
open CastApp.Verified.Ends
open CastApp.Verified.EventLoop
open CastApp.Verified.Transition

variable {S : Signature} {ε α γ : Type}

/-- Wherever `p` is dropped the surroundings satisfy `inv`, and where it ends
they satisfy `post`. -/
def Stays (answers : Answers S ε) (inv : ε → Prop) : ε → Coro S α → (ε → α → Prop) → Prop
  | e, .done a, post => inv e ∧ post e a
  | e, .fault _, _ => inv e
  | e, .await op resume, post =>
      inv e ∧ ∀ r e', answers e op r e' → Stays answers inv e' (resume r) post

variable {answers : Answers S ε} {inv : ε → Prop} {e : ε}

/-- What is dropped before it begins has done nothing. -/
theorem Stays.start {p : Coro S α} {post : ε → α → Prop} (hp : Stays answers inv e p post) :
    inv e := by
  cases p with
  | done a => exact hp.1
  | fault reason => exact hp
  | await op resume => exact hp.1

/-- Sequencing: the rest begins wherever the first part may end. -/
theorem Stays.bind {p : Coro S γ} {f : γ → Coro S α} {mid : ε → γ → Prop} {post : ε → α → Prop}
    (hp : Stays answers inv e p mid) (hf : ∀ e' a, mid e' a → Stays answers inv e' (f a) post) :
    Stays answers inv e (p >>= f) post := by
  show Stays answers inv e (Coro.bind p f) post
  induction p generalizing e with
  | done a => exact hf e a hp.2
  | fault reason => exact hp
  | await op resume ih => exact ⟨hp.1, fun r e' hAnswer => ih r (hp.2 r e' hAnswer)⟩

/-- Awaiting one operation, then the rest. -/
theorem Stays.perform {op : S.Op} {f : S.Ans op → Coro S α} {post : ε → α → Prop} (hInv : inv e)
    (hf : ∀ r e', answers e op r e' → Stays answers inv e' (f r) post) :
    Stays answers inv e (Coroutine.perform op >>= f) post := ⟨hInv, hf⟩

theorem Stays.mono {p : Coro S α} {post post' : ε → α → Prop} (hp : Stays answers inv e p post)
    (hPost : ∀ e' a, post e' a → post' e' a) : Stays answers inv e p post' := by
  induction p generalizing e with
  | done a => exact ⟨hp.1, hPost e a hp.2⟩
  | fault reason => exact hp
  | await op resume ih => exact ⟨hp.1, fun r e' hAnswer => ih r (hp.2 r e' hAnswer)⟩

/-- Two postconditions at once. -/
theorem Stays.and {p : Coro S α} {post post' : ε → α → Prop} (hp : Stays answers inv e p post)
    (hp' : Stays answers inv e p post') :
    Stays answers inv e p fun e' a => post e' a ∧ post' e' a := by
  induction p generalizing e with
  | done a => exact ⟨hp.1, hp.2, hp'.2⟩
  | fault reason => exact hp
  | await op resume ih =>
      exact ⟨hp.1, fun r e' hAnswer => ih r (hp.2 r e' hAnswer) (hp'.2 r e' hAnswer)⟩

/-! ## Loops -/

variable {σ β : Type}

/-- Surroundings with a state that changes with the answers and when a branch is
picked. -/
def surroundings (init : ε → Prop) (answers : Answers S ε) (fires : ε → σ → β → ε → Prop) :
    Environment S σ β ε Empty where
  init := init
  answers := answers
  parks e _ e' := e' = e
  fires := fires
  moves _ _ _ := False

/-- A loop in such surroundings, one operation per step. -/
abbrev around (init : ε → Prop) (answers : Answers S ε) (fires : ε → σ → β → ε → Prop)
    (L : EventLoop S σ β) : System (Control S σ × ε) (Label S β Empty) :=
  L.small (surroundings init answers fires)

/-- Picking a branch changes nothing. -/
def still (e : ε) (_ : σ) (_ : β) (e' : ε) : Prop := e' = e

/-- A loop in surroundings that change with the answers only. -/
abbrev within (init : ε → Prop) (answers : Answers S ε) (L : EventLoop S σ β) :
    System (Control S σ × ε) (Label S β Empty) :=
  around init answers still L

/-- A prelude or a body that stays, and leaves `home` at the next turn. -/
def StaysLoop (answers : Answers S ε) (inv : ε → Prop) (home : ε → σ → Prop) (out : ε → Prop)
    (e : ε) (p : Coro S (Flow σ)) : Prop :=
  Stays answers inv e p fun e' flow =>
    match flow with
    | .park s => home e' s
    | .exit _ => out e'

/-- The control of a loop, with what holds around it. -/
def AtAnytime (answers : Answers S ε) (inv : ε → Prop) (home : ε → σ → Prop) (out : ε → Prop)
    (e : ε) : Control S σ → Prop
  | .running p => StaysLoop answers inv home out e p
  | .parked s => inv e ∧ home e s
  | .exited _ => inv e ∧ out e
  | .faulted _ => inv e

theorem AtAnytime.holds {home : ε → σ → Prop} {out : ε → Prop} {c : Control S σ}
    (h : AtAnytime answers inv home out e c) : inv e := by
  cases c with
  | running p => exact Stays.start h
  | parked s | exited s => exact h.1
  | faulted reason => exact h

/-- The same, with what each turn ends in. -/
def AtTurns (answers : Answers S ε) (inv : ε → Prop) (post : ε → Flow σ → Prop) (e : ε) :
    Control S σ → Prop
  | .running p => Stays answers inv e p post
  | .parked s => inv e ∧ post e (.park s)
  | .exited s => inv e ∧ post e (.exit s)
  | .faulted _ => inv e

theorem AtTurns.holds {post : ε → Flow σ → Prop} {c : Control S σ}
    (h : AtTurns answers inv post e c) : inv e := by
  cases c with
  | running p => exact Stays.start h
  | parked s | exited s => exact h.1
  | faulted reason => exact h

/-- **At every moment of every run.** -/
theorem turnsStay {L : EventLoop S σ β} {init : ε → Prop} {fires : ε → σ → β → ε → Prop}
    {post : ε → Flow σ → Prop} {trace : List (Move (Control S σ × ε) (Label S β Empty))}
    {c : Control S σ × ε} (hRun : Run (around init answers fires L) trace c)
    (hPrelude : ∀ e, init e → Stays answers inv e L.prelude post)
    (hBody : ∀ e s b e', inv e → post e (.park s) → L.guard s b → fires e s b e' →
      Stays answers inv e' (L.body s b) post) :
    AtTurns answers inv post c.2 c.1 := by
  refine hRun.invariant (I := fun c => AtTurns answers inv post c.2 c.1) ?_ ?_
  · rintro ⟨c, e⟩ ⟨rfl, hInit⟩
    exact hPrelude e hInit
  · intro c label c' hc hStep
    cases hStep with
    | @answer op r resume e e' hAnswer => exact hc.2 r e' hAnswer
    | park hParks =>
        cases hParks
        exact hc
    | fire hGuard hFires => exact hBody _ _ _ _ hc.1 hc.2 hGuard hFires
    | exit => exact hc
    | fault => exact hc
    | move hMove => exact hMove.elim

/-- The same, where it does not count what the loop is left with. -/
theorem loopStays {L : EventLoop S σ β} {init : ε → Prop} {fires : ε → σ → β → ε → Prop}
    {home : ε → σ → Prop} {out : ε → Prop}
    {trace : List (Move (Control S σ × ε) (Label S β Empty))} {c : Control S σ × ε}
    (hRun : Run (around init answers fires L) trace c)
    (hPrelude : ∀ e, init e → StaysLoop answers inv home out e L.prelude)
    (hBody : ∀ e s b e', home e s → L.guard s b → fires e s b e' →
      StaysLoop answers inv home out e' (L.body s b)) :
    AtAnytime answers inv home out c.2 c.1 := by
  have hStays := turnsStay hRun hPrelude fun e s b e' _ => hBody e s b e'
  obtain ⟨c, e⟩ := c
  cases c with
  | running p | parked s | exited s | faulted reason => exact hStays

/-- What can be executed can be run. -/
theorem run_exec {L : EventLoop S σ β} {init : ε → Prop} {fires : ε → σ → β → ε → Prop}
    {p : Coro S (Flow σ)} {tr : List (Entry S)} {o : Outcome S (Flow σ)} {e' : ε}
    {trace : List (Move (Control S σ × ε) (Label S β Empty))}
    (hRun : Run (around init answers fires L) trace (.running p, e)) (hExec : Exec p tr o)
    (hAnswered : Answered answers e tr e') :
    ∃ trace, Run (around init answers fires L) trace (.running (ended o), e') := by
  induction p generalizing e tr trace with
  | done a =>
      obtain ⟨rfl, rfl⟩ := hExec
      obtain rfl : e = e' := hAnswered
      exact ⟨trace, hRun⟩
  | fault reason =>
      obtain ⟨rfl, rfl⟩ := hExec
      obtain rfl : e = e' := hAnswered
      exact ⟨trace, hRun⟩
  | await op resume ih =>
      obtain ⟨r, tr', rfl, hRest⟩ := hExec
      obtain ⟨e'', hAnswer, hAnswered⟩ := hAnswered
      exact ih r (hRun.step (.answer hAnswer)) hRest hAnswered

/-- Answers that leave the surroundings as they are. -/
theorem answered_answerWith {oracle : Oracle S} (hOracle : ∀ op, answers e op (oracle op) e)
    (p : Coro S α) : Answered answers e (p.answerWith oracle).1 e := by
  induction p with
  | done a => rfl
  | fault reason => rfl
  | await op resume ih => exact ⟨e, hOracle op, ih (oracle op)⟩

/-- The same, with such answers. -/
theorem run_oracle {L : EventLoop S σ β} {init : ε → Prop} {fires : ε → σ → β → ε → Prop}
    {p : Coro S (Flow σ)} {oracle : Oracle S} (hOracle : ∀ op, answers e op (oracle op) e)
    {trace : List (Move (Control S σ × ε) (Label S β Empty))}
    (hRun : Run (around init answers fires L) trace (.running p, e)) :
    ∃ trace, Run (around init answers fires L) trace
      (.running (ended (p.answerWith oracle).2), e) :=
  run_exec hRun (exec_answerWith oracle p) (answered_answerWith hOracle p)

/-- A prelude that leaves the loop. -/
theorem run_exit {L : EventLoop S σ β} (init : ε → Prop) {s : σ} {tr : List (Entry S)} {e' : ε}
    (hInit : init e) (hExec : Exec L.prelude tr (.value (.exit s)))
    (hAnswered : Answered answers e tr e') :
    ∃ trace, Run (within init answers L) trace (.exited s, e') := by
  obtain ⟨trace, hRun⟩ := run_exec (L := L) (.start ⟨rfl, hInit⟩) hExec hAnswered
  exact ⟨_, hRun.step .exit⟩

end CastApp.Verified.Anytime
