/-!
# Coroutines: straight-line code with await points

An `async` function runs without interruption between two `await`s and hands
control to its surroundings at each of them.  A `Coro` is that shape and
nothing else: a finite tree that either is done, or has hit one of the
program's own faults, or waits for the answer to one operation.  Written in
`do` notation it reads like the source it models.

What the operations *mean* is left to whoever answers them.  `Exec p tr o`
says that `p`, given the answers recorded in `tr`, asks exactly the
operations of `tr` and ends with outcome `o`; the answers are unconstrained,
so a statement about every `Exec` holds for every environment.

* `exec_bind` — an execution of `p >>= f` is one of `p` followed by one of
  `f`, or one of `p` that faults.
* `Coro.answerWith` — a coroutine run against fixed answers.
* `Ensures` and its rules — the postcondition form of the same fact, for
  reading a body forward operation by operation.
-/

namespace CastApp.Verified.Coroutine

/-- The operations a family of coroutines may await, the type of the answer
to each, and the ways the code itself can fail. -/
structure Signature where
  Op : Type
  Ans : Op → Type
  Fault : Type

/-- One answered operation. -/
abbrev Entry (S : Signature) : Type := Sigma S.Ans

/-- A suspended computation over the operations of `S`. -/
inductive Coro (S : Signature) (α : Type) : Type
  | done (value : α)
  | fault (reason : S.Fault)
  | await (op : S.Op) (resume : S.Ans op → Coro S α)

/-- How a coroutine ends. -/
inductive Outcome (S : Signature) (α : Type) : Type
  | value (a : α)
  | fault (reason : S.Fault)

variable {S : Signature} {α β : Type}

/-! ## Sequencing -/

/-- Run `p`, then continue with its value. -/
def Coro.bind : Coro S α → (α → Coro S β) → Coro S β
  | .done a, f => f a
  | .fault e, _ => .fault e
  | .await op resume, f => .await op fun r => (resume r).bind f

instance : Monad (Coro S) where
  pure := .done
  bind := Coro.bind

/-- Await one operation. -/
def perform (op : S.Op) : Coro S (S.Ans op) := .await op .done

/-! ## Executions -/

/-- `Exec p tr o`: answered as recorded in `tr`, the coroutine `p` ends
with `o`. -/
def Exec : Coro S α → List (Entry S) → Outcome S α → Prop
  | .done a, tr, o => tr = [] ∧ o = .value a
  | .fault e, tr, o => tr = [] ∧ o = .fault e
  | .await op resume, tr, o =>
      ∃ r tr', tr = ⟨op, r⟩ :: tr' ∧ Exec (resume r) tr' o

variable {tr : List (Entry S)} {o : Outcome S α}

@[simp] theorem exec_pure {a : α} :
    Exec (pure a : Coro S α) tr o ↔ tr = [] ∧ o = .value a := Iff.rfl

@[simp] theorem exec_fault {e : S.Fault} :
    Exec (.fault e : Coro S α) tr o ↔ tr = [] ∧ o = .fault e := Iff.rfl

/-- Awaiting records the answer and resumes. -/
theorem exec_perform_bind {op : S.Op} {f : S.Ans op → Coro S α} :
    Exec (perform op >>= f) tr o ↔
      ∃ r tr', tr = ⟨op, r⟩ :: tr' ∧ Exec (f r) tr' o := Iff.rfl

theorem exec_perform {op : S.Op} {o : Outcome S (S.Ans op)} :
    Exec (perform op) tr o ↔ ∃ r, tr = [⟨op, r⟩] ∧ o = .value r := by
  simp only [perform, Exec]
  constructor
  · rintro ⟨r, _, rfl, rfl, rfl⟩
    exact ⟨r, rfl, rfl⟩
  · rintro ⟨r, rfl, rfl⟩
    exact ⟨r, [], rfl, rfl, rfl⟩

/-- An execution of `p >>= f` is one of `p` followed by one of `f` at its
value, or one of `p` that ends in a fault. -/
theorem exec_bind {p : Coro S β} {f : β → Coro S α} :
    Exec (p >>= f) tr o ↔
      (∃ b tr₁ tr₂, tr = tr₁ ++ tr₂ ∧ Exec p tr₁ (.value b) ∧ Exec (f b) tr₂ o) ∨
        (∃ e, o = .fault e ∧ Exec p tr (.fault e)) := by
  show Exec (Coro.bind p f) tr o ↔ _
  induction p generalizing tr with
  | done b =>
      constructor
      · intro h
        exact .inl ⟨b, [], tr, rfl, ⟨rfl, rfl⟩, h⟩
      · rintro (⟨b', tr₁, tr₂, rfl, ⟨rfl, hb⟩, h⟩ | ⟨e, rfl, _, he⟩)
        · cases hb
          exact h
        · cases he
  | fault e =>
      constructor
      · rintro ⟨rfl, rfl⟩
        exact .inr ⟨e, rfl, rfl, rfl⟩
      · rintro (⟨b', tr₁, tr₂, rfl, ⟨_, hb⟩, _⟩ | ⟨e', rfl, rfl, he⟩)
        · cases hb
        · cases he
          exact ⟨rfl, rfl⟩
  | await op resume ih =>
      constructor
      · rintro ⟨r, tr', rfl, h⟩
        rcases (ih r).mp h with ⟨b, tr₁, tr₂, rfl, hp, hf⟩ | ⟨e, rfl, hp⟩
        · exact .inl ⟨b, ⟨op, r⟩ :: tr₁, tr₂, rfl, ⟨r, tr₁, rfl, hp⟩, hf⟩
        · exact .inr ⟨e, rfl, r, tr', rfl, hp⟩
      · rintro (⟨b, _, tr₂, rfl, ⟨r, tr₁, rfl, hp⟩, hf⟩ | ⟨e, rfl, r, tr', rfl, hp⟩)
        · exact ⟨r, tr₁ ++ tr₂, rfl, (ih r).mpr (.inl ⟨b, tr₁, tr₂, rfl, hp, hf⟩)⟩
        · exact ⟨r, tr', rfl, (ih r).mpr (.inr ⟨e, rfl, hp⟩)⟩

/-! ## Playing a coroutine -/

/-- A fixed answer to every operation. -/
abbrev Oracle (S : Signature) : Type := (op : S.Op) → S.Ans op

/-- What `p` awaits and how it ends when `oracle` answers. -/
def Coro.answerWith (oracle : Oracle S) : Coro S α → List (Entry S) × Outcome S α
  | .done a => ([], .value a)
  | .fault e => ([], .fault e)
  | .await op resume =>
      let rest := (resume (oracle op)).answerWith oracle
      (⟨op, oracle op⟩ :: rest.1, rest.2)

/-- A played coroutine is an execution of it. -/
theorem exec_answerWith (oracle : Oracle S) (p : Coro S α) :
    Exec p (p.answerWith oracle).1 (p.answerWith oracle).2 := by
  induction p with
  | done a => exact ⟨rfl, rfl⟩
  | fault e => exact ⟨rfl, rfl⟩
  | await op resume ih => exact ⟨oracle op, _, rfl, ih (oracle op)⟩

/-- What is answered is what the fixed answers say. -/
theorem answerWith_entries (oracle : Oracle S) (p : Coro S α) :
    ∀ entry ∈ (p.answerWith oracle).1, entry.2 = oracle entry.1 := by
  induction p with
  | done a => nofun
  | fault e => nofun
  | await op resume ih =>
      intro entry hEntry
      rcases List.mem_cons.mp hEntry with rfl | hLater
      · rfl
      · exact ih (oracle op) entry hLater

/-- Every execution of `p` satisfies `Q`. -/
def Ensures (p : Coro S α) (Q : List (Entry S) → Outcome S α → Prop) : Prop :=
  ∀ tr o, Exec p tr o → Q tr o

variable {p : Coro S β} {Q R : List (Entry S) → Outcome S α → Prop}

theorem Ensures.mono {p : Coro S α} (h : Ensures p Q)
    (hQR : ∀ tr o, Q tr o → R tr o) : Ensures p R :=
  fun tr o hp => hQR tr o (h tr o hp)

@[simp] theorem ensures_pure {a : α} :
    Ensures (pure a) Q ↔ Q [] (.value a) := by
  simp [Ensures]

@[simp] theorem ensures_fault {e : S.Fault} :
    Ensures (.fault e) Q ↔ Q [] (.fault e) := by
  simp [Ensures]

theorem ensures_perform_bind {op : S.Op} {f : S.Ans op → Coro S α} :
    Ensures (perform op >>= f) Q ↔
      ∀ r, Ensures (f r) fun tr o => Q (⟨op, r⟩ :: tr) o := by
  constructor
  · intro h r tr o hf
    exact h _ o (exec_perform_bind.mpr ⟨r, tr, rfl, hf⟩)
  · intro h tr o hp
    obtain ⟨r, tr', rfl, hf⟩ := exec_perform_bind.mp hp
    exact h r tr' o hf

/-- The sequencing rule: give `p` a postcondition, then verify the rest from
each value `p` may end with; a fault of `p` is a fault of the whole. -/
theorem Ensures.bind {P : List (Entry S) → Outcome S β → Prop}
    {f : β → Coro S α} (hp : Ensures p P)
    (hf : ∀ tr₁ b, P tr₁ (.value b) →
      Ensures (f b) fun tr₂ o => Q (tr₁ ++ tr₂) o)
    (he : ∀ tr e, P tr (.fault e) → Q tr (.fault e)) :
    Ensures (p >>= f) Q := by
  intro tr o h
  rcases exec_bind.mp h with ⟨b, tr₁, tr₂, rfl, h₁, h₂⟩ | ⟨e, rfl, h₁⟩
  · exact hf tr₁ b (hp _ _ h₁) tr₂ o h₂
  · exact he tr e (hp _ _ h₁)

end CastApp.Verified.Coroutine
