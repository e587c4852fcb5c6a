import CastApp.Verified.EventLoop
import CastApp.Verified.WatchChannel

/-!
# Loops that listen to a watch channel

A task that is to see a change of a watch channel has to subscribe before
the change.  Here the task is an event loop that subscribes in its prelude by
one of its operations, and whose branches for the change leave the loop.

* **`Listens.step`** — one small step keeps a task listening, provided that it
  subscribes only while nothing was published yet.
* `Listens.parked` — a listening task that is parked holds a receiver that has
  seen nothing.

The rule speaks about one step in one environment, so it also applies to a
loop that runs as a part of somebody else's surroundings.
-/

namespace CastApp.Verified.Subscription

open CastApp.Verified.Coroutine
open CastApp.Verified.EventLoop
open CastApp.Verified.WatchChannel

variable {S : Signature} {σ β ε ι : Type}

/-! ## What is left of a body -/

/-- Whatever is answered, `p` awaits `sub` before it parks. -/
def Awaits (sub : S.Op) (p : Coro S (Flow σ)) : Prop :=
  ∀ ops s, Exec p ops (.value (.park s)) → ∃ entry ∈ ops, entry.1 = sub

/-- Whatever is answered, `p` returns nothing bad. -/
def Avoids {α : Type} (bad : α → Prop) (p : Coro S α) : Prop :=
  ∀ ops a, Exec p ops (.value a) → ¬ bad a

def Parks (flow : Flow σ) : Prop := ∃ s, flow = .park s

def Exits (flow : Flow σ) : Prop := ∃ s, flow = .exit s

abbrev NeverParks (p : Coro S (Flow σ)) : Prop := Avoids Parks p

abbrev NeverExits (p : Coro S (Flow σ)) : Prop := Avoids Exits p

theorem Awaits.answer {sub op : S.Op} {resume : S.Ans op → Coro S (Flow σ)}
    (h : Awaits sub (.await op resume)) (hOther : op ≠ sub) (r : S.Ans op) :
    Awaits sub (resume r) := by
  intro ops s hExec
  obtain ⟨entry, hMem, hEntry⟩ := h (⟨op, r⟩ :: ops) s ⟨r, ops, rfl, hExec⟩
  rcases List.mem_cons.mp hMem with rfl | hMem
  · exact absurd hEntry hOther
  · exact ⟨entry, hMem, hEntry⟩

theorem Awaits.not_park {sub : S.Op} {s : σ} (h : Awaits sub (.done (.park s))) : False := by
  obtain ⟨entry, hMem, -⟩ := h [] s ⟨rfl, rfl⟩
  exact absurd hMem List.not_mem_nil

theorem Avoids.answer {α : Type} {bad : α → Prop} {op : S.Op} {resume : S.Ans op → Coro S α}
    (h : Avoids bad (.await op resume)) (r : S.Ans op) : Avoids bad (resume r) :=
  fun ops a hExec => h (⟨op, r⟩ :: ops) a ⟨r, ops, rfl, hExec⟩

theorem Avoids.done {α : Type} {bad : α → Prop} {a : α} (h : Avoids (S := S) bad (.done a)) :
    ¬ bad a :=
  h [] a ⟨rfl, rfl⟩

theorem avoids_pure {α : Type} {bad : α → Prop} {a : α} (h : ¬ bad a) :
    Avoids (S := S) bad (pure a) := by
  rintro ops a' ⟨-, hSame⟩
  cases hSame
  exact h

/-- Whatever is answered, `p` awaits `sub` before it returns. -/
def Reaches {α : Type} (sub : S.Op) (p : Coro S α) : Prop :=
  ∀ ops a, Exec p ops (.value a) → ∃ entry ∈ ops, entry.1 = sub

section Rules

variable {α γ : Type} {sub : S.Op}

theorem reaches_perform : Reaches sub (perform sub) := by
  intro ops a hExec
  obtain ⟨r, rfl, -⟩ := exec_perform.mp hExec
  exact ⟨⟨sub, r⟩, List.mem_singleton.mpr rfl, rfl⟩

theorem Reaches.bind_left {p : Coro S γ} (h : Reaches sub p) (f : γ → Coro S α) :
    Reaches sub (p >>= f) := by
  intro ops a hExec
  rcases exec_bind.mp hExec with ⟨b, first, rest, rfl, hFirst, -⟩ | ⟨e, hFault, -⟩
  · obtain ⟨entry, hMem, hEntry⟩ := h first b hFirst
    exact ⟨entry, List.mem_append_left _ hMem, hEntry⟩
  · cases hFault

theorem Reaches.bind_right (p : Coro S γ) {f : γ → Coro S α} (h : ∀ b, Reaches sub (f b)) :
    Reaches sub (p >>= f) := by
  intro ops a hExec
  rcases exec_bind.mp hExec with ⟨b, first, rest, rfl, -, hRest⟩ | ⟨e, hFault, -⟩
  · obtain ⟨entry, hMem, hEntry⟩ := h b rest a hRest
    exact ⟨entry, List.mem_append_right _ hMem, hEntry⟩
  · cases hFault

theorem Reaches.awaits {p : Coro S (Flow σ)} (h : Reaches sub p) : Awaits sub p :=
  fun ops s hExec => h ops (.park s) hExec

theorem Avoids.bind {bad : α → Prop} (p : Coro S γ) {f : γ → Coro S α}
    (h : ∀ b, Avoids bad (f b)) : Avoids bad (p >>= f) := by
  intro ops a hExec
  rcases exec_bind.mp hExec with ⟨b, first, rest, rfl, -, hRest⟩ | ⟨e, hFault, -⟩
  · exact h b rest a hRest
  · cases hFault

theorem neverParks_exit (s : σ) : NeverParks (S := S) (pure (.exit s)) :=
  avoids_pure fun ⟨_, h⟩ => by cases h

theorem neverExits_park (s : σ) : NeverExits (S := S) (pure (.park s)) :=
  avoids_pure fun ⟨_, h⟩ => by cases h

/-- What is answered and has no faults either parks or exits. -/
theorem parks_or_exits (oracle : Oracle S) (hFault : S.Fault → False) {p : Coro S (Flow σ)}
    (hParks : NeverParks p) (hExits : NeverExits p) : False := by
  have hExec := exec_answerWith oracle p
  cases hEnd : (p.answerWith oracle).2 with
  | fault reason => exact hFault reason
  | value flow =>
      rw [hEnd] at hExec
      cases flow with
      | park s => exact hParks _ _ hExec ⟨s, rfl⟩
      | exit s => exact hExits _ _ hExec ⟨s, rfl⟩

end Rules

/-! ## Subscribing loops -/

/-- The loop subscribes by `sub` before it first parks, and does not park
again after a branch of `last`. -/
structure Subscribes (L : EventLoop S σ β) (sub : S.Op) (last : β → Prop) : Prop where
  first : Awaits sub L.prelude
  leaves : ∀ s b, last b → NeverParks (L.body s b)

/-- The environment keeps the receiver of the task, and replaces it only when
the task subscribes or takes a branch of `last`. -/
structure KeepsReceiver (V : Environment S σ β ε ι) (sub : S.Op) (last : β → Prop)
    (receiver : ε → Option Receiver) : Prop where
  answers : ∀ {e op r e'}, V.answers e op r e' → op ≠ sub → receiver e' = receiver e
  parks : ∀ {e s e'}, V.parks e s e' → receiver e' = receiver e
  fires : ∀ {e s b e' r}, V.fires e s b e' → receiver e = some r → r.seen = 0 →
    receiver e' = receiver e ∨ last b
  moves : ∀ {e i e'}, V.moves e i e' → receiver e' = receiver e

/-- A task that will see the first change there is: it has yet to subscribe,
or has seen nothing, or is on its way out. -/
inductive Listens (sub : S.Op) : Control S σ → Option Receiver → Prop
  | unsubscribed {p : Coro S (Flow σ)} (h : Awaits sub p) : Listens sub (.running p) none
  | fresh {c : Control S σ} {r : Receiver} (h : r.seen = 0) : Listens sub c (some r)
  | leaving {p : Coro S (Flow σ)} {receiver : Option Receiver} (h : NeverParks p) :
      Listens sub (.running p) receiver
  | exited {s : σ} {receiver : Option Receiver} : Listens sub (.exited s) receiver
  | faulted {reason : S.Fault} {receiver : Option Receiver} :
      Listens sub (.faulted reason) receiver

/-- A listening task that is parked has a receiver that has seen nothing. -/
theorem Listens.parked {sub : S.Op} {s : σ} {receiver : Option Receiver}
    (h : Listens sub (.parked s) receiver) : ∃ r, receiver = some r ∧ r.seen = 0 := by
  cases h with
  | fresh hSeen => exact ⟨_, rfl, hSeen⟩

variable {L : EventLoop S σ β} {V : Environment S σ β ε ι} {sub : S.Op} {last : β → Prop}
variable {receiver : ε → Option Receiver}

/-- **One step keeps a task listening**, if a subscription it makes finds
nothing published yet. -/
theorem Listens.step {c c' : Control S σ} {e e' : ε} {label : Label S β ι}
    (hLoop : Subscribes L sub last) (hKeeps : KeepsReceiver V sub last receiver)
    (hStep : SmallStep L V (c, e) label (c', e')) (h : Listens sub c (receiver e))
    (hSubscribes : ∀ r, label = .answer ⟨sub, r⟩ → ∃ new, receiver e' = some new ∧ new.seen = 0) :
    Listens sub c' (receiver e') := by
  cases hStep with
  | @answer op r resume e e' hAnswer =>
      by_cases hSub : op = sub
      · subst hSub
        obtain ⟨new, hNew, hSeen⟩ := hSubscribes r rfl
        rw [hNew]
        exact .fresh hSeen
      · rw [hKeeps.answers hAnswer hSub]
        cases hOld : receiver e with
        | none =>
            rw [hOld] at h
            cases h with
            | unsubscribed hAwaits => exact .unsubscribed (hAwaits.answer hSub r)
            | leaving hNever => exact .leaving (hNever.answer r)
        | some old =>
            rw [hOld] at h
            cases h with
            | fresh hSeen => exact .fresh hSeen
            | leaving hNever => exact .leaving (hNever.answer r)
  | @park s e e' hPark =>
      rw [hKeeps.parks hPark]
      cases hOld : receiver e with
      | none =>
          rw [hOld] at h
          cases h with
          | unsubscribed hAwaits => exact hAwaits.not_park.elim
          | leaving hNever => exact (hNever.done ⟨_, rfl⟩).elim
      | some old =>
          rw [hOld] at h
          cases h with
          | fresh hSeen => exact .fresh hSeen
          | leaving hNever => exact (hNever.done ⟨_, rfl⟩).elim
  | @fire s b e e' _ hFire =>
      obtain ⟨old, hOld, hSeen⟩ := h.parked
      rcases hKeeps.fires hFire hOld hSeen with hSame | hLast
      · rw [hSame, hOld]
        exact .fresh hSeen
      · exact .leaving (hLoop.leaves s b hLast)
  | exit => exact .exited
  | fault => exact .faulted
  | move hMove =>
      rw [hKeeps.moves hMove]
      exact h

/-- A task that has not started listens. -/
theorem Subscribes.listens (hLoop : Subscribes L sub last) :
    Listens sub (.running L.prelude) none :=
  .unsubscribed hLoop.first

end CastApp.Verified.Subscription
