import CastApp.Verified.EventLoop

/-!
# What has been done so far

A coroutine verified against the whole list of operations awaited before it.
`Leaves rely h p post` says that `p`, begun after the operations `h`, leaves a
list of operations and a value that satisfy `post`, as long as every answer it
gets is one of `rely`.

* `Leaves.bind` — the sequencing rule.
* **`loopLeaves`** — if the prelude and every body of a loop leave what the
  loop is supposed to leave, so does every run with such answers.
* `run_prelude`, `run_turn` — runs against an oracle.
-/

namespace CastApp.Verified.History

open CastApp.Verified.Coroutine
open CastApp.Verified.EventLoop
open CastApp.Verified.Transition

variable {S : Signature} {α γ : Type}

/-- `p`, begun after `h`, ends with what `post` says. -/
def Leaves (rely : (op : S.Op) → S.Ans op → Prop) :
    List (Entry S) → Coro S α → (List (Entry S) → α → Prop) → Prop
  | h, .done a, post => post h a
  | _, .fault _, _ => True
  | h, .await op resume, post => ∀ r, rely op r → Leaves rely (h ++ [⟨op, r⟩]) (resume r) post

variable {rely : (op : S.Op) → S.Ans op → Prop} {h : List (Entry S)}

/-- Sequencing: the rest begins after what the first part has done. -/
theorem Leaves.bind {p : Coro S γ} {f : γ → Coro S α} {mid : List (Entry S) → γ → Prop}
    {post : List (Entry S) → α → Prop} (hp : Leaves rely h p mid)
    (hf : ∀ h' a, mid h' a → Leaves rely h' (f a) post) : Leaves rely h (p >>= f) post := by
  show Leaves rely h (Coro.bind p f) post
  induction p generalizing h with
  | done a => exact hf h a hp
  | fault reason => trivial
  | await op resume ih => exact fun r hr => ih r (hp r hr)

/-- Awaiting one operation, then the rest. -/
theorem Leaves.perform {op : S.Op} {f : S.Ans op → Coro S α} {post : List (Entry S) → α → Prop}
    (hf : ∀ r, rely op r → Leaves rely (h ++ [⟨op, r⟩]) (f r) post) :
    Leaves rely h (Coroutine.perform op >>= f) post := hf

/-! ## Loops -/

variable {σ β : Type}

/-- What a body leaves: `inv` at the next turn, or `out` behind the loop. -/
def LeavesLoop (rely : (op : S.Op) → S.Ans op → Prop) (inv out : List (Entry S) → σ → Prop)
    (h : List (Entry S)) (p : Coro S (Flow σ)) : Prop :=
  Leaves rely h p fun h' flow =>
    match flow with
    | .park s => inv h' s
    | .exit s => out h' s

/-- The control of a loop after the operations `h`. -/
def AtHistory (rely : (op : S.Op) → S.Ans op → Prop) (inv out : List (Entry S) → σ → Prop)
    (h : List (Entry S)) : Control S σ → Prop
  | .running p => LeavesLoop rely inv out h p
  | .parked s => inv h s
  | .exited s => out h s
  | .faulted _ => True

/-- Surroundings that answer as in `rely` and do nothing. -/
def answering (rely : (op : S.Op) → S.Ans op → Prop) (σ β : Type) :
    Environment S σ β Unit Empty where
  init _ := True
  answers _ op r _ := rely op r
  parks _ _ _ := True
  fires _ _ _ _ := True
  moves _ _ _ := False

/-- A loop on its own, one operation per step. -/
abbrev alone (rely : (op : S.Op) → S.Ans op → Prop) (L : EventLoop S σ β) :
    System (Control S σ × Unit) (Label S β Empty) :=
  L.small (answering rely σ β)

/-- The steps of a loop on its own. -/
abbrev Solo (S : Signature) (σ β : Type) : Type :=
  Move (Control S σ × Unit) (Label S β Empty)

/-- **What every run leaves.** -/
theorem loopLeaves {L : EventLoop S σ β} {inv out : List (Entry S) → σ → Prop}
    {trace : List (Solo S σ β)} {c : Control S σ × Unit}
    (hRun : Run (alone rely L) trace c) (hPrelude : LeavesLoop rely inv out [] L.prelude)
    (hBody : ∀ h s b, inv h s → LeavesLoop rely inv out h (L.body s b)) :
    AtHistory rely inv out (answered trace) c.1 := by
  refine hRun.traceInvariant (I := fun trace c => AtHistory rely inv out (answered trace) c.1) ?_ ?_
  · rintro ⟨c, e⟩ ⟨rfl, -⟩
    exact hPrelude
  · intro trace c label c' _ hc hStep
    rw [answered_append]
    cases hStep with
    | @answer op r resume _ _ hAnswer => exact hc r hAnswer
    | park | exit =>
        rw [show answered [_] = [] from rfl, List.append_nil]
        exact hc
    | fire =>
        rw [show answered [_] = [] from rfl, List.append_nil]
        exact hBody _ _ _ hc
    | fault => trivial
    | move hMove => exact hMove.elim

/-! ## Playing a loop -/

/-- Let an oracle answer what a body awaits. -/
theorem run_answerWith {L : EventLoop S σ β} {oracle : Oracle S} (hOracle : ∀ op, rely op (oracle op))
    {trace : List (Solo S σ β)} {p : Coro S (Flow σ)}
    (hRun : Run (alone rely L) trace (.running p, ())) :
    ∃ more, Run (alone rely L) (trace ++ more)
        (.running (ended (p.answerWith oracle).2), ()) ∧
      answered more = (p.answerWith oracle).1 := by
  induction p generalizing trace with
  | done a | fault reason =>
      refine ⟨[], ?_, rfl⟩
      rw [List.append_nil]
      exact hRun
  | await op resume ih =>
      have hNext : Run (alone rely L) _ (.running (resume (oracle op)), ()) :=
        hRun.step (.answer (hOracle op))
      obtain ⟨more, hMore, hAnswered⟩ := ih (oracle op) hNext
      rw [List.append_assoc] at hMore
      refine ⟨_, hMore, ?_⟩
      rw [answered_append, hAnswered]
      rfl

/-- Where a body ends. -/
def settled : Outcome S (Flow σ) → Control S σ
  | .value (.park s) => .parked s
  | .value (.exit s) => .exited s
  | .fault reason => .faulted reason

theorem run_settled {L : EventLoop S σ β} {oracle : Oracle S} (hOracle : ∀ op, rely op (oracle op))
    {trace : List (Solo S σ β)} {p : Coro S (Flow σ)}
    (hRun : Run (alone rely L) trace (.running p, ())) :
    ∃ more, Run (alone rely L) (trace ++ more) (settled (p.answerWith oracle).2, ()) ∧
      answered more = (p.answerWith oracle).1 := by
  obtain ⟨more, hEnded, hAnswered⟩ := run_answerWith hOracle hRun
  cases hOutcome : (p.answerWith oracle).2 with
  | value flow =>
      rw [hOutcome] at hEnded
      cases flow with
      | park s =>
          have hParked : Run (alone rely L) _ (.parked s, ()) := hEnded.step (.park trivial)
          rw [List.append_assoc] at hParked
          exact ⟨_, hParked, by rw [answered_append, hAnswered]; exact List.append_nil _⟩
      | exit s =>
          have hExited := hEnded.step .exit
          rw [List.append_assoc] at hExited
          exact ⟨_, hExited, by rw [answered_append, hAnswered]; exact List.append_nil _⟩
  | fault reason =>
      rw [hOutcome] at hEnded
      have hFaulted := hEnded.step .fault
      rw [List.append_assoc] at hFaulted
      exact ⟨_, hFaulted, by rw [answered_append, hAnswered]; exact List.append_nil _⟩

/-- The prelude of a loop, answered by an oracle. -/
theorem run_prelude (L : EventLoop S σ β) {oracle : Oracle S}
    (hOracle : ∀ op, rely op (oracle op)) :
    ∃ trace, Run (alone rely L) trace (settled (L.prelude.answerWith oracle).2, ()) ∧
      answered trace = (L.prelude.answerWith oracle).1 :=
  run_settled hOracle (.start ⟨rfl, trivial⟩)

/-- One turn of a loop, answered by an oracle. -/
theorem run_turn {L : EventLoop S σ β} {oracle : Oracle S} (hOracle : ∀ op, rely op (oracle op))
    {s : σ} {b : β} (hGuard : L.guard s b) {trace : List (Solo S σ β)}
    (hRun : Run (alone rely L) trace (.parked s, ())) :
    ∃ more, Run (alone rely L) more (settled ((L.body s b).answerWith oracle).2, ()) ∧
      answered more = answered trace ++ ((L.body s b).answerWith oracle).1 := by
  have hFired : Run (alone rely L) _ (.running (L.body s b), ()) :=
    hRun.step (.fire hGuard trivial)
  obtain ⟨more, hTurn, hAnswered⟩ := run_settled hOracle hFired
  refine ⟨_, hTurn, ?_⟩
  rw [answered_append, answered_append, hAnswered]
  exact congrArg (· ++ _) (List.append_nil _)

end CastApp.Verified.History
