import CastApp.Util.Backpressure

/-!
# What becomes of the items of a bounded queue

Every item that went in came out, was evicted, was cleared away or is still
there, and no item overtakes another.  `Ledger` is a queue with an account of
its items; each operation is the queue's own.

* `pushOr_pushedOr` — one `pushOr`, on any queue.
* `apply_kept`, `after_kept` — the account balances behind every operation and
  every history of them.
* **`drop_oldest_history`** — both, and `push`.
-/

namespace CastApp.Util.QueueHistory

open CastApp.Util.Backpressure

variable {α : Type}

/-- What the threads on either side may do. -/
inductive Op (α : Type) : Type
  | insert (item : α)
  | tryPop
  | clear

/-! ## One insertion -/

/-- A `pushOr` from `q` to `q'`, with what it hands back. -/
structure PushedOr (q : BoundedDropOldest α) (item : α) (evictable : α → Bool)
    (back : Option α) (q' : BoundedDropOldest α) : Prop where
  hHandedBack : back.isSome = true ↔
    q.items.length = q.capacity ∧ ∀ other ∈ q.items, evictable other = false
  hSame : ∀ other, back = some other → other = item ∧ q' = q
  hRoom : back = none → q.items.length < q.capacity → q'.items = q.items ++ [item]
  hEvict : back = none → q.items.length = q.capacity →
    ∃ before victim after, q.items = before ++ victim :: after ∧ evictable victim = true ∧
      (∀ other ∈ before, evictable other = false) ∧ q'.items = before ++ after ++ [item]
  hKept : back = none →
    q'.items.filter (fun x => !evictable x) = (q.items ++ [item]).filter (fun x => !evictable x)

theorem pushOr_pushedOr {q q' : BoundedDropOldest α} {item : α} {evictable : α → Bool}
    {back : Option α} (h : q.pushOr item evictable = (back, q')) :
    PushedOr q item evictable back q' := by
  rcases BoundedDropOldest.pushOr_cases h with
    ⟨rfl, hItems, -⟩ | ⟨before, victim, after, rfl, hFull, hBefore, hVictim, hFirst, hItems, -⟩ |
    ⟨rfl, rfl, hFull, hNone⟩
  · have hRoom : q.items.length < q.capacity := by
      have hBound := q'.hLength
      rw [hItems, List.length_append, List.length_singleton] at hBound
      have hCapacity := BoundedDropOldest.pushOr_capacity h
      omega
    exact
      { hHandedBack := ⟨(nomatch ·), fun hFull => absurd hFull.1 (by omega)⟩
        hSame := fun _ => (nomatch ·)
        hRoom := fun _ _ => hItems
        hEvict := fun _ hFull => absurd hFull (by omega)
        hKept := fun _ => by rw [hItems] }
  · have hThere : victim ∈ q.items := by
      rw [hBefore]
      exact List.mem_append_right _ (List.mem_cons_self ..)
    exact
      { hHandedBack := ⟨(nomatch ·), fun hNone => by simp [hNone.2 victim hThere] at hVictim⟩
        hSame := fun _ => (nomatch ·)
        hRoom := fun _ hRoom => absurd hFull (by omega)
        hEvict := fun _ _ => ⟨before, victim, after, hBefore, hVictim, hFirst, hItems⟩
        hKept := fun _ => by rw [hItems, hBefore]; simp [hVictim] }
  · exact
      { hHandedBack := ⟨fun _ => ⟨hFull, hNone⟩, fun _ => rfl⟩
        hSame := fun other hBack => ⟨(Option.some.inj hBack).symm, rfl⟩
        hRoom := (nomatch ·)
        hEvict := (nomatch ·)
        hKept := (nomatch ·) }

/-! ## The account -/

structure Ledger (α : Type) where
  queue : BoundedDropOldest α
  inserted : List α
  popped : List α
  evicted : List α
  cleared : List α

/-- The item that gives way when there is no room. -/
def victim (q : BoundedDropOldest α) (evictable : α → Bool) : List α :=
  if q.items.length < q.capacity then [] else (q.items.find? evictable).toList

namespace Ledger

def new (capacity : Nat) (hCapacity : 0 < capacity) : Ledger α :=
  ⟨.new capacity hCapacity, [], [], [], []⟩

/-- One operation, with `pushOr` for an insertion. -/
def apply (evictable : α → Bool) (l : Ledger α) : Op α → Ledger α
  | .insert item =>
      match l.queue.pushOr item evictable with
      | (none, queue) =>
          { l with
            queue := queue
            inserted := l.inserted ++ [item]
            evicted := l.evicted ++ victim l.queue evictable }
      | (some _, queue) => { l with queue := queue }
  | .tryPop =>
      match l.queue.tryPop with
      | (some item, queue) => { l with queue := queue, popped := l.popped ++ [item] }
      | (none, queue) => { l with queue := queue }
  | .clear => { l with queue := l.queue.clear, cleared := l.cleared ++ l.queue.items }

def after (evictable : α → Bool) (l : Ledger α) : List (Op α) → Ledger α
  | [] => l
  | op :: ops => after evictable (l.apply evictable op) ops

/-- What holds of the account at all times. -/
structure Kept (evictable : α → Bool) (capacity : Nat) (l : Ledger α) : Prop where
  hCapacity : l.queue.capacity = capacity
  hLength : l.queue.items.length ≤ capacity
  /-- What was popped and what is buffered, in order, went in in that order. -/
  hOrder : (l.popped ++ l.queue.items).Sublist l.inserted
  hEvicted : ∀ item ∈ l.evicted, evictable item = true
  hAccount : l.inserted.Perm (l.popped ++ l.evicted ++ l.cleared ++ l.queue.items)

variable {evictable : α → Bool} {capacity : Nat} {l : Ledger α}

theorem new_kept (hCapacity : 0 < capacity) :
    (new capacity hCapacity : Ledger α).Kept evictable capacity :=
  ⟨rfl, Nat.zero_le _, List.Sublist.refl _, fun _ h => (nomatch h), List.Perm.refl _⟩

/-- The victim is the item that is missing afterwards. -/
theorem victim_of_split {q : BoundedDropOldest α} {before after : List α} {item : α}
    (hFull : q.items.length = q.capacity) (hItems : q.items = before ++ item :: after)
    (hItem : evictable item = true) (hFirst : ∀ other ∈ before, evictable other = false) :
    victim q evictable = [item] := by
  unfold victim
  rw [if_neg (by omega)]
  have hFind : q.items.find? evictable = some item := by
    rw [List.find?_eq_some_iff_append]
    refine ⟨hItem, before, after, hItems, fun other hOther => ?_⟩
    rw [hFirst other hOther]
    rfl
  rw [hFind]
  rfl

theorem insert_kept (hKept : l.Kept evictable capacity) (item : α) :
    (l.apply evictable (.insert item)).Kept evictable capacity := by
  obtain ⟨hCapacity, hLength, hOrder, hEvicted, hAccount⟩ := hKept
  unfold apply
  dsimp only
  split
  · next queue hPush =>
    have hBound := queue.hLength
    rcases BoundedDropOldest.pushOr_cases hPush with
      ⟨-, hItems, hSame⟩ |
      ⟨before, item', after, -, hFull, hBefore, hItem, hFirst, hItems, hSame⟩ | ⟨hBack, -⟩
    · have hRoom : victim l.queue evictable = [] := by
        rw [hItems, List.length_append, List.length_singleton] at hBound
        exact if_pos (by omega)
      refine ⟨hSame.trans hCapacity, by show queue.items.length ≤ capacity; omega, ?_, ?_, ?_⟩
      · show (l.popped ++ queue.items).Sublist (l.inserted ++ [item])
        rw [hItems, ← List.append_assoc]
        exact hOrder.append_right [item]
      · show ∀ x ∈ l.evicted ++ victim l.queue evictable, evictable x = true
        rw [hRoom, List.append_nil]
        exact hEvicted
      · show (l.inserted ++ [item]).Perm
          (l.popped ++ (l.evicted ++ victim l.queue evictable) ++ l.cleared ++ queue.items)
        rw [hRoom, List.append_nil, hItems, ← List.append_assoc]
        exact hAccount.append_right [item]
    · have hVictim := victim_of_split hFull hBefore hItem hFirst
      refine ⟨hSame.trans hCapacity, by show queue.items.length ≤ capacity; omega, ?_, ?_, ?_⟩
      · show (l.popped ++ queue.items).Sublist (l.inserted ++ [item])
        have hFewer : (l.popped ++ (before ++ after)).Sublist (l.popped ++ l.queue.items) := by
          rw [hBefore]
          exact ((List.sublist_cons_self item' after).append_left before).append_left l.popped
        rw [hItems, ← List.append_assoc]
        exact (hFewer.trans hOrder).append_right [item]
      · show ∀ x ∈ l.evicted ++ victim l.queue evictable, evictable x = true
        rw [hVictim]
        intro x hx
        rcases List.mem_append.mp hx with hx | hx
        · exact hEvicted x hx
        · rw [List.mem_singleton.mp hx]
          exact hItem
      · show (l.inserted ++ [item]).Perm
          (l.popped ++ (l.evicted ++ victim l.queue evictable) ++ l.cleared ++ queue.items)
        rw [hVictim, hItems]
        -- The victim changes from the buffered items to the evicted ones.
        have hMoved : (l.popped ++ l.evicted ++ l.cleared ++ l.queue.items).Perm
            (l.popped ++ (l.evicted ++ [item']) ++ l.cleared ++ (before ++ after)) := by
          rw [hBefore]
          simp only [List.append_assoc]
          apply List.Perm.append_left
          apply List.Perm.append_left
          have hFront : (l.cleared ++ (before ++ item' :: after)).Perm
              (item' :: (l.cleared ++ (before ++ after))) := by
            rw [← List.append_assoc, ← List.append_assoc]
            exact List.perm_middle
          exact hFront
        have hAll := (hAccount.trans hMoved).append_right [item]
        simp only [List.append_assoc] at hAll ⊢
        exact hAll
    · cases hBack
  · next other queue hPush =>
    obtain ⟨-, rfl⟩ := (pushOr_pushedOr hPush).hSame other rfl
    exact ⟨hCapacity, hLength, hOrder, hEvicted, hAccount⟩

theorem tryPop_kept (hKept : l.Kept evictable capacity) :
    (l.apply evictable .tryPop).Kept evictable capacity := by
  obtain ⟨hCapacity, hLength, hOrder, hEvicted, hAccount⟩ := hKept
  unfold apply
  dsimp only
  split
  · next item queue hPop =>
    obtain ⟨hItems, hSame⟩ := BoundedDropOldest.tryPop_some hPop
    rw [hItems] at hLength hOrder hAccount
    rw [List.length_cons] at hLength
    refine ⟨hSame.trans hCapacity, by show queue.items.length ≤ capacity; omega, ?_, hEvicted, ?_⟩
    · show (l.popped ++ [item] ++ queue.items).Sublist l.inserted
      rw [List.append_assoc]
      exact hOrder
    · show l.inserted.Perm (l.popped ++ [item] ++ l.evicted ++ l.cleared ++ queue.items)
      refine hAccount.trans ?_
      simp only [List.append_assoc]
      apply List.Perm.append_left
      have hFront : (l.evicted ++ (l.cleared ++ item :: queue.items)).Perm
          (item :: (l.evicted ++ (l.cleared ++ queue.items))) := by
        rw [← List.append_assoc, ← List.append_assoc]
        exact List.perm_middle
      exact hFront
  · next queue hPop =>
    have hSame : queue = l.queue := by
      unfold BoundedDropOldest.tryPop at hPop
      split at hPop
      · cases hPop
        rfl
      · cases hPop
    rw [hSame]
    exact ⟨hCapacity, hLength, hOrder, hEvicted, hAccount⟩

theorem clear_kept (hKept : l.Kept evictable capacity) :
    (l.apply evictable .clear).Kept evictable capacity := by
  obtain ⟨hCapacity, hLength, hOrder, hEvicted, hAccount⟩ := hKept
  refine ⟨hCapacity, Nat.zero_le _, ?_, hEvicted, ?_⟩
  · show (l.popped ++ []).Sublist l.inserted
    exact ((List.nil_sublist _).append_left l.popped).trans hOrder
  · show l.inserted.Perm (l.popped ++ l.evicted ++ (l.cleared ++ l.queue.items) ++ [])
    rw [List.append_nil, ← List.append_assoc]
    exact hAccount

theorem apply_kept (hKept : l.Kept evictable capacity) (op : Op α) :
    (l.apply evictable op).Kept evictable capacity := by
  cases op with
  | insert item => exact insert_kept hKept item
  | tryPop => exact tryPop_kept hKept
  | clear => exact clear_kept hKept

theorem after_kept (hKept : l.Kept evictable capacity) (ops : List (Op α)) :
    (l.after evictable ops).Kept evictable capacity := by
  induction ops generalizing l with
  | nil => exact hKept
  | cons op ops ih => exact ih (apply_kept hKept op)

end Ledger

/-! ## Insertions that always succeed -/

/-- One operation, with `push` for an insertion, and what was pushed so far. -/
def pushStep (s : BoundedDropOldest α × List α) : Op α → BoundedDropOldest α × List α
  | .insert item => (s.1.push item, s.2 ++ [item])
  | .tryPop => (s.1.tryPop.2, s.2)
  | .clear => (s.1.clear, s.2)

def pushSteps (s : BoundedDropOldest α × List α) (ops : List (Op α)) :
    BoundedDropOldest α × List α :=
  ops.foldl pushStep s

/-- The buffer is the newest part of what was pushed. -/
theorem pushStep_suffix {s : BoundedDropOldest α × List α} (h : s.1.items <:+ s.2) (op : Op α) :
    (pushStep s op).1.items <:+ (pushStep s op).2 := by
  cases op with
  | insert item =>
      have hRest : (if s.1.capacity ≤ s.1.items.length then s.1.items.drop 1 else s.1.items) <:+
          s.2 := by
        split
        · exact (List.drop_suffix 1 s.1.items).trans h
        · exact h
      obtain ⟨older, hOlder⟩ := hRest
      refine ⟨older, ?_⟩
      show older ++ ((if _ then _ else _) ++ [item]) = s.2 ++ [item]
      rw [← List.append_assoc, hOlder]
  | tryPop =>
      show s.1.tryPop.2.items <:+ s.2
      unfold BoundedDropOldest.tryPop
      split
      · exact h
      · next item rest hItems =>
        rw [hItems] at h
        exact (List.suffix_cons item rest).trans h
  | clear => exact List.nil_suffix

theorem pushStep_capacity (s : BoundedDropOldest α × List α) (op : Op α) :
    (pushStep s op).1.capacity = s.1.capacity := by
  cases op with
  | insert item => rfl
  | clear => rfl
  | tryPop =>
      show s.1.tryPop.2.capacity = s.1.capacity
      unfold BoundedDropOldest.tryPop
      split <;> rfl

theorem pushSteps_suffix {s : BoundedDropOldest α × List α} (h : s.1.items <:+ s.2)
    (ops : List (Op α)) :
    (pushSteps s ops).1.items <:+ (pushSteps s ops).2 ∧
      (pushSteps s ops).1.capacity = s.1.capacity := by
  induction ops generalizing s with
  | nil => exact ⟨h, rfl⟩
  | cons op ops ih =>
      obtain ⟨hSuffix, hCapacity⟩ := ih (pushStep_suffix h op)
      exact ⟨hSuffix, hCapacity.trans (pushStep_capacity s op)⟩

/-! ## All histories -/

/-- From an empty queue of any capacity, behind every history: the account of
`Ledger.Kept` balances and the next `pushOr` is as `PushedOr` says; with
`push`, the buffer is the newest part of what was pushed. -/
theorem drop_oldest_history (evictable : α → Bool) (capacity : Nat) (hCapacity : 0 < capacity)
    (ops : List (Op α)) :
    ((Ledger.new capacity hCapacity).after evictable ops).Kept evictable capacity ∧
    (∀ item back q', ((Ledger.new capacity hCapacity).after evictable ops).queue.pushOr item
      evictable = (back, q') →
        PushedOr ((Ledger.new capacity hCapacity).after evictable ops).queue item evictable back
          q') ∧
    (pushSteps (.new capacity hCapacity, []) ops).1.items <:+
      (pushSteps (.new capacity hCapacity, []) ops).2 ∧
    (pushSteps (.new capacity hCapacity, []) ops).1.items.length ≤ capacity := by
  refine ⟨Ledger.after_kept (Ledger.new_kept hCapacity) ops, fun _ _ _ => pushOr_pushedOr, ?_⟩
  obtain ⟨hSuffix, hSame⟩ := pushSteps_suffix
    (s := (BoundedDropOldest.new capacity hCapacity, [])) (List.suffix_refl []) ops
  refine ⟨hSuffix, ?_⟩
  have hLength := (pushSteps (.new capacity hCapacity, []) ops).1.hLength
  rw [hSame] at hLength
  exact hLength

/-- Two protected items and one that gives way, in a queue of three. -/
theorem drop_oldest_three :
    0 < 3 ∧ ((Ledger.new 3 (by decide)).after (fun n => decide (1 < n))
      [.insert 0, .insert 5, .insert 1, .insert 6, .tryPop]).Kept (fun n => decide (1 < n)) 3 :=
  ⟨by decide, (drop_oldest_history (fun n => decide (1 < n)) 3 (by decide)
    [.insert 0, .insert 5, .insert 1, .insert 6, .tryPop]).1⟩

end CastApp.Util.QueueHistory
