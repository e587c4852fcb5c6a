import CastApp.Verified.Coroutine
import CastApp.Verified.Transition

/-!
# Event loops over coroutines

A long-running `async` task is a prelude followed by a loop around one
`select!`: the task parks, one enabled branch is picked, its body runs (with
await points of its own), and the task parks again or leaves the loop.

The module gives that shape two semantics.

1. `EventLoop.turns` takes one whole turn of the loop per step and says
   nothing about the surroundings: any enabled branch may be picked and every
   awaited operation may be answered in any way its type allows.
2. `EventLoop.small` takes one await point per step and runs the loop inside
   an `Environment`, which decides what the answers are, which branch is
   ready, and which steps of its own it takes in between.

A script of branches and answers can be played (`EventLoop.play`), and what
was played is a run (`play_run`).

`small_parked` connects the two semantics: whenever the small-step run finds the loop
parked, the turns completed so far are a run of `turns` to the same state.
An invariant of the turns is therefore an invariant of every interleaving,
and only properties of the interleaving itself need the small steps.
-/

namespace CastApp.Verified.EventLoop

open CastApp.Verified.Coroutine
open CastApp.Verified.Transition

/-- Where a body leaves the loop state: back at the `select!`, or out of the
loop. -/
inductive Flow (σ : Type) : Type
  | park (s : σ)
  | exit (s : σ)

/-- A task over the loop state `σ` with branches `β`. -/
structure EventLoop (S : Signature) (σ β : Type) where
  prelude : Coro S (Flow σ)
  /-- The `if` preconditions of the branches. -/
  guard : σ → β → Prop
  body : σ → β → Coro S (Flow σ)

variable {S : Signature} {σ β ε ι : Type}

/-! ## Turns -/

/-- Where a turn leaves the task: parked at the `select!`, out of the loop,
or stopped by one of its own faults. -/
inductive Stage (S : Signature) (σ : Type) : Type
  | parked (s : σ)
  | exited (s : σ)
  | faulted (reason : S.Fault)

/-- The stage a prelude or a body ends in. -/
def stageOf : Outcome S (Flow σ) → Stage S σ
  | .value (.park s) => .parked s
  | .value (.exit s) => .exited s
  | .fault reason => .faulted reason

/-- One turn of the loop: the branch picked and the operations its body
awaited. -/
structure Turn (S : Signature) (β : Type) where
  branch : β
  ops : List (Entry S)

/-- `L` takes the turn `t` from the loop state `s` and is left at `c`. -/
def EventLoop.TakesTurn (L : EventLoop S σ β) (s : σ) (t : Turn S β)
    (c : Stage S σ) : Prop :=
  L.guard s t.branch ∧ ∃ o, Exec (L.body s t.branch) t.ops o ∧ c = stageOf o

/-- The loop at one step per turn. -/
def EventLoop.turns (L : EventLoop S σ β) : System (Stage S σ) (Turn S β) where
  init c := ∃ ops o, Exec L.prelude ops o ∧ c = stageOf o
  step c t c' := ∃ s, c = .parked s ∧ L.TakesTurn s t c'

/-- The operations awaited over a list of turns, in order. -/
def opsOf (turns : List (Move (Stage S σ) (Turn S β))) : List (Entry S) :=
  turns.flatMap fun m => m.label.ops

@[simp] theorem opsOf_nil : opsOf ([] : List (Move (Stage S σ) (Turn S β))) = [] := rfl

@[simp] theorem opsOf_append (xs ys : List (Move (Stage S σ) (Turn S β))) :
    opsOf (xs ++ ys) = opsOf xs ++ opsOf ys := by
  simp [opsOf]

@[simp] theorem opsOf_singleton (m : Move (Stage S σ) (Turn S β)) :
    opsOf [m] = m.label.ops := by
  simp [opsOf]

/-! ## Playing a loop -/

/-- One scripted turn: the branch to pick and the answers its body gets. -/
abbrev Scene (S : Signature) (β : Type) : Type := β × Oracle S

/-- Play a script from a stage; it stops early once the loop is left. -/
def EventLoop.play (L : EventLoop S σ β) :
    Stage S σ → List (Scene S β) →
      List (Move (Stage S σ) (Turn S β)) × Stage S σ
  | .parked s, (b, oracle) :: script =>
      let played := (L.body s b).answerWith oracle
      let rest := L.play (stageOf played.2) script
      (⟨.parked s, ⟨b, played.1⟩, stageOf played.2⟩ :: rest.1, rest.2)
  | c, _ => ([], c)

/-- Every scripted branch is enabled where it is picked. -/
def EventLoop.Admits (L : EventLoop S σ β) :
    Stage S σ → List (Scene S β) → Prop
  | .parked s, (b, oracle) :: script =>
      L.guard s b ∧ L.Admits (stageOf ((L.body s b).answerWith oracle).2) script
  | _, _ => True

instance decidableAdmits (L : EventLoop S σ β) [∀ s, DecidablePred (L.guard s)] :
    ∀ c script, Decidable (L.Admits c script)
  | .parked s, (b, oracle) :: script =>
      @instDecidableAnd _ _ (inferInstance : Decidable (L.guard s b))
        (decidableAdmits L (stageOf ((L.body s b).answerWith oracle).2) script)
  | .exited _, _ :: _ => .isTrue trivial
  | .faulted _, _ :: _ => .isTrue trivial
  | .parked _, [] => .isTrue trivial
  | .exited _, [] => .isTrue trivial
  | .faulted _, [] => .isTrue trivial

/-- A turn played against fixed answers is a turn. -/
theorem takesTurn_answerWith (L : EventLoop S σ β) (s : σ) (b : β) (oracle : Oracle S)
    (hGuard : L.guard s b) :
    L.TakesTurn s ⟨b, ((L.body s b).answerWith oracle).1⟩
      (stageOf ((L.body s b).answerWith oracle).2) :=
  ⟨hGuard, _, exec_answerWith oracle (L.body s b), rfl⟩

/-- A played script extends a run. -/
theorem play_run {L : EventLoop S σ β} {script : List (Scene S β)}
    {turns : List (Move (Stage S σ) (Turn S β))} {c : Stage S σ}
    (hRun : Run L.turns turns c) (hAdmits : L.Admits c script) :
    Run L.turns (turns ++ (L.play c script).1) (L.play c script).2 := by
  induction script generalizing turns c with
  | nil =>
      have hPlay : L.play c [] = ([], c) := by cases c <;> rfl
      rw [hPlay, List.append_nil]
      exact hRun
  | cons scene script ih =>
      obtain ⟨b, oracle⟩ := scene
      cases c with
      | parked s =>
          obtain ⟨hGuard, hRest⟩ := hAdmits
          have hTurn := takesTurn_answerWith L s b oracle hGuard
          have hLonger := ih (hRun.step ⟨s, rfl, hTurn⟩) hRest
          rw [List.append_assoc] at hLonger
          exact hLonger
      | exited s | faulted reason =>
          show Run L.turns (turns ++ []) _
          rw [List.append_nil]
          exact hRun

/-! ## Small steps -/

/-- What surrounds a task: how its operations are answered, what happens
when it parks, which branches are ready, and the moves of everybody else. -/
structure Environment (S : Signature) (σ β ε ι : Type) where
  init : ε → Prop
  answers : ε → (op : S.Op) → S.Ans op → ε → Prop
  parks : ε → σ → ε → Prop
  fires : ε → σ → β → ε → Prop
  moves : ε → ι → ε → Prop

/-- Where the task stands. -/
inductive Control (S : Signature) (σ : Type) : Type
  | running (p : Coro S (Flow σ))
  | parked (s : σ)
  | exited (s : σ)
  | faulted (reason : S.Fault)

/-- The label of a small step. -/
inductive Label (S : Signature) (β ι : Type) : Type
  | answer (entry : Entry S)
  | park
  | fire (branch : β)
  | leave
  | move (i : ι)

/-- One small step of the task in its environment. -/
inductive SmallStep (L : EventLoop S σ β) (V : Environment S σ β ε ι) :
    Control S σ × ε → Label S β ι → Control S σ × ε → Prop
  | answer {op : S.Op} {r : S.Ans op} {resume : S.Ans op → Coro S (Flow σ)}
      {e e' : ε} (h : V.answers e op r e') :
      SmallStep L V (.running (.await op resume), e) (.answer ⟨op, r⟩)
        (.running (resume r), e')
  | park {s : σ} {e e' : ε} (h : V.parks e s e') :
      SmallStep L V (.running (.done (.park s)), e) .park (.parked s, e')
  | fire {s : σ} {b : β} {e e' : ε} (hGuard : L.guard s b)
      (h : V.fires e s b e') :
      SmallStep L V (.parked s, e) (.fire b) (.running (L.body s b), e')
  | exit {s : σ} {e : ε} :
      SmallStep L V (.running (.done (.exit s)), e) .leave (.exited s, e)
  | fault {reason : S.Fault} {e : ε} :
      SmallStep L V (.running (.fault reason), e) .leave (.faulted reason, e)
  | move {c : Control S σ} {i : ι} {e e' : ε} (h : V.moves e i e') :
      SmallStep L V (c, e) (.move i) (c, e')

/-- The task and its environment, one await point per step. -/
def EventLoop.small (L : EventLoop S σ β) (V : Environment S σ β ε ι) :
    System (Control S σ × ε) (Label S β ι) where
  init c := c.1 = .running L.prelude ∧ V.init c.2
  step := SmallStep L V

/-- A coroutine that has ended. -/
def ended {α : Type} : Outcome S α → Coro S α
  | .value a => .done a
  | .fault reason => .fault reason

/-- Let the surroundings answer everything a coroutine awaits. -/
def reactTo {α : Type} (react : ε → (op : S.Op) → S.Ans op × ε) :
    Coro S α → ε → Outcome S α × ε
  | .done a, e => (.value a, e)
  | .fault reason, e => (.fault reason, e)
  | .await op resume, e => reactTo react (resume (react e op).1) (react e op).2

/-- A running body can be run to its end. -/
theorem small_reactTo {L : EventLoop S σ β} {V : Environment S σ β ε ι}
    {react : ε → (op : S.Op) → S.Ans op × ε}
    (hReact : ∀ e op, V.answers e op (react e op).1 (react e op).2)
    {trace : List (Move (Control S σ × ε) (Label S β ι))} {p : Coro S (Flow σ)} {e : ε}
    (hRun : Run (L.small V) trace (.running p, e)) :
    ∃ more, Run (L.small V) (trace ++ more)
      (.running (ended (reactTo react p e).1), (reactTo react p e).2) := by
  induction p generalizing trace e with
  | done a | fault reason =>
      refine ⟨[], ?_⟩
      rw [List.append_nil]
      exact hRun
  | await op resume ih =>
      obtain ⟨more, hMore⟩ := ih (react e op).1 (hRun.step (.answer (hReact e op)))
      rw [List.append_assoc] at hMore
      exact ⟨_, hMore⟩

/-- The operations a small-step run has answered, in order. -/
def answered (trace : List (Move (Control S σ × ε) (Label S β ι))) :
    List (Entry S) :=
  trace.filterMap fun m =>
    match m.label with
    | .answer entry => some entry
    | _ => none

@[simp] theorem answered_append
    (xs ys : List (Move (Control S σ × ε) (Label S β ι))) :
    answered (xs ++ ys) = answered xs ++ answered ys :=
  List.filterMap_append

/-! ## The small steps refine the turns -/

/-- `c` is reached by turns that awaited `ops`, after the prelude's own. -/
def Turned (L : EventLoop S σ β) (c : Stage S σ) (ops : List (Entry S)) : Prop :=
  ∃ first o turns, Exec L.prelude first o ∧ Run L.turns turns c ∧ ops = first ++ opsOf turns

/-- `p` is what is left of the prelude or of a body after the operations
`ops`: finishing `p` finishes the prelude or a turn, in the same way. -/
def Pending (L : EventLoop S σ β) (p : Coro S (Flow σ))
    (ops : List (Entry S)) : Prop :=
  (∀ rest o, Exec p rest o → Exec L.prelude (ops ++ rest) o) ∨
    ∃ earlier s b before, Turned L (.parked s) earlier ∧ L.guard s b ∧
      ops = earlier ++ before ∧
      ∀ rest o, Exec p rest o → Exec (L.body s b) (before ++ rest) o

/-- Answering an operation leaves the rest of the same prelude or body. -/
theorem Pending.answer {L : EventLoop S σ β} {op : S.Op} {r : S.Ans op}
    {resume : S.Ans op → Coro S (Flow σ)} {ops : List (Entry S)}
    (h : Pending L (.await op resume) ops) :
    Pending L (resume r) (ops ++ [⟨op, r⟩]) := by
  rcases h with h | ⟨earlier, s, b, before, hTurned, hGuard, rfl, h⟩
  · refine .inl fun rest o hExec => ?_
    simpa using h (⟨op, r⟩ :: rest) o ⟨r, rest, rfl, hExec⟩
  · refine .inr ⟨earlier, s, b, before ++ [⟨op, r⟩], hTurned, hGuard,
      by simp, fun rest o hExec => ?_⟩
    simpa using h (⟨op, r⟩ :: rest) o ⟨r, rest, rfl, hExec⟩

/-- A prelude or body with nothing left to await completes a turn. -/
theorem Pending.finish {L : EventLoop S σ β} {p : Coro S (Flow σ)}
    {o : Outcome S (Flow σ)} {ops : List (Entry S)} (h : Pending L p ops)
    (hDone : Exec p [] o) : Turned L (stageOf o) ops := by
  rcases h with h | ⟨_, s, b, before, ⟨first, o', turns, hPrelude, hRun, rfl⟩, hGuard, rfl, h⟩
  · have hPrelude : Exec L.prelude (ops ++ []) o := h [] o hDone
    rw [List.append_nil] at hPrelude
    exact ⟨ops, o, [], hPrelude, .start ⟨_, o, hPrelude, rfl⟩, by simp⟩
  · have hBody : Exec (L.body s b) (before ++ []) o := h [] o hDone
    refine ⟨first, o', _, hPrelude, hRun.step (l := ⟨b, before ++ []⟩)
      ⟨s, rfl, hGuard, o, hBody, rfl⟩, ?_⟩
    simp

/-- What the small steps keep of the turns: a task that is not running is at
a stage the turns reach, a running one is inside a turn. -/
def FollowsTurns (L : EventLoop S σ β) (ops : List (Entry S)) :
    Control S σ → Prop
  | .running p => Pending L p ops
  | .parked s => Turned L (.parked s) ops
  | .exited s => Turned L (.exited s) ops
  | .faulted reason => Turned L (.faulted reason) ops

/-- Every interleaving follows the turns. -/
theorem small_followsTurns {L : EventLoop S σ β} {V : Environment S σ β ε ι}
    {trace : List (Move (Control S σ × ε) (Label S β ι))}
    {c : Control S σ × ε} (hRun : Run (L.small V) trace c) :
    FollowsTurns L (answered trace) c.1 := by
  refine hRun.traceInvariant
    (I := fun trace c => FollowsTurns L (answered trace) c.1) ?_ ?_
  · rintro ⟨c, e⟩ ⟨rfl, -⟩
    exact .inl fun rest o h => h
  · rintro trace c l c' - hc hStep
    rw [answered_append]
    cases hStep with
    | answer h => exact Pending.answer hc
    | park h =>
        show Turned L _ (answered trace ++ [])
        rw [List.append_nil]
        exact Pending.finish hc ⟨rfl, rfl⟩
    | fire hGuard h =>
        exact .inr ⟨answered trace, _, _, [], hc, hGuard, rfl, fun rest o h => h⟩
    | exit =>
        show Turned L _ (answered trace ++ [])
        rw [List.append_nil]
        exact Pending.finish hc ⟨rfl, rfl⟩
    | fault =>
        show Turned L _ (answered trace ++ [])
        rw [List.append_nil]
        exact Pending.finish hc ⟨rfl, rfl⟩
    | move h =>
        show FollowsTurns L (answered trace ++ []) _
        rw [List.append_nil]
        exact hc

/-- A turn that is played to its end is a turn. -/
theorem Pending.play {L : EventLoop S σ β} {p : Coro S (Flow σ)} {ops : List (Entry S)}
    (oracle : Oracle S) (h : Pending L p ops) :
    Turned L (stageOf (p.answerWith oracle).2) (ops ++ (p.answerWith oracle).1) := by
  induction p generalizing ops with
  | done a =>
      rw [show (Coro.answerWith oracle (.done a)).1 = [] from rfl, List.append_nil]
      exact h.finish ⟨rfl, rfl⟩
  | fault reason =>
      rw [show (Coro.answerWith oracle (.fault reason)).1 = [] from rfl, List.append_nil]
      exact h.finish ⟨rfl, rfl⟩
  | await op resume ih =>
      have hRest := ih (oracle op) h.answer
      rw [List.append_assoc] at hRest
      exact hRest

/-- **Wherever an interleaving stands**, the turn it is in can be played to its
end: what was answered so far is the beginning of what turns await. -/
theorem small_played {L : EventLoop S σ β} {V : Environment S σ β ε ι}
    {trace : List (Move (Control S σ × ε) (Label S β ι))} {c : Control S σ × ε}
    (oracle : Oracle S) (hRun : Run (L.small V) trace c) :
    ∃ stage more, (∀ entry ∈ more, entry.2 = oracle entry.1) ∧
      Turned L stage (answered trace ++ more) := by
  have hFollows := small_followsTurns hRun
  obtain ⟨control, e⟩ := c
  cases control with
  | running p => exact ⟨_, _, answerWith_entries oracle p, hFollows.play oracle⟩
  | parked s | exited s | faulted reason =>
      have hTurned : Turned L _ (answered trace) := hFollows
      rw [← List.append_nil (answered trace)] at hTurned
      exact ⟨_, [], nofun, hTurned⟩

/-- **A parked task is at a state the turns reach**, whatever its
surroundings did in between, and the operations answered on the way are
those of the prelude and of the turns. -/
theorem small_parked {L : EventLoop S σ β} {V : Environment S σ β ε ι}
    {trace : List (Move (Control S σ × ε) (Label S β ι))} {s : σ} {e : ε}
    (hRun : Run (L.small V) trace (.parked s, e)) :
    ∃ first o turns, Exec L.prelude first o ∧ Run L.turns turns (.parked s) ∧
      answered trace = first ++ opsOf turns :=
  small_followsTurns hRun

end CastApp.Verified.EventLoop
