import Mathlib.Data.List.Basic

/-!
# A bounded queue that drops the oldest

The queue between two threads of which neither may wait for the other.  On
overflow it gives something up: `push` always the oldest item, `pushOr` the
oldest item that may be evicted, or else the new item itself.

* `pushOr_cases` — everything a `pushOr` can do.
* `pushOr_length`, `sublist_pushOr` — it keeps the bound and the order.
* `mem_pushOr_of_kept` — an item that may not be evicted stays.
-/

namespace CastApp.Util.Backpressure

/-- A queue with its bound. -/
structure BoundedDropOldest (α : Type) where
  items : List α
  capacity : Nat
  hCapacity : 0 < capacity
  hLength : items.length ≤ capacity

namespace BoundedDropOldest

variable {α : Type}

/-- An empty queue.  The program panics on capacity zero. -/
def new (capacity : Nat) (hCapacity : 0 < capacity) : BoundedDropOldest α :=
  ⟨[], capacity, hCapacity, Nat.zero_le _⟩

theorem length_push_le {items : List α} {capacity : Nat} (hCapacity : 0 < capacity)
    (hLength : items.length ≤ capacity) (item : α) :
    ((if capacity ≤ items.length then items.drop 1 else items) ++ [item]).length ≤ capacity := by
  split
  · rw [List.length_append, List.length_drop, List.length_singleton]
    omega
  · rw [List.length_append, List.length_singleton]
    omega

/-- Drop the oldest item if there is no room. -/
def push (q : BoundedDropOldest α) (item : α) : BoundedDropOldest α :=
  { q with
    items := (if q.capacity ≤ q.items.length then q.items.drop 1 else q.items) ++ [item]
    hLength := length_push_le q.hCapacity q.hLength item }

theorem length_evict_le {items : List α} {capacity index : Nat} {evictable : α → Bool}
    (hLength : items.length ≤ capacity) (hIndex : items.findIdx? evictable = some index)
    (item : α) : (items.eraseIdx index ++ [item]).length ≤ capacity := by
  have hLt : index < items.length := (List.findIdx?_eq_some_iff_getElem.mp hIndex).1
  rw [List.length_append, List.length_eraseIdx_of_lt hLt, List.length_singleton]
  omega

/-- Drop the oldest evictable item if there is no room.  With the queue comes
the new item if it was handed back. -/
def pushOr (q : BoundedDropOldest α) (item : α) (evictable : α → Bool) :
    Option α × BoundedDropOldest α :=
  if hRoom : q.items.length < q.capacity then
    (none,
      { q with
        items := q.items ++ [item]
        hLength := by rw [List.length_append]; exact hRoom })
  else
    match hIndex : q.items.findIdx? evictable with
    | some index =>
        (none,
          { q with
            items := q.items.eraseIdx index ++ [item]
            hLength := length_evict_le q.hLength hIndex item })
    | none => (some item, q)

def clear (q : BoundedDropOldest α) : BoundedDropOldest α :=
  { q with items := [], hLength := Nat.zero_le _ }

def tryPop (q : BoundedDropOldest α) : Option α × BoundedDropOldest α :=
  match hItems : q.items with
  | [] => (none, q)
  | item :: rest =>
      (some item,
        { q with
          items := rest
          hLength := by
            have hLength := q.hLength
            rw [hItems, List.length_cons] at hLength
            omega })

/-! ## What the operations do -/

variable {q q' : BoundedDropOldest α} {item : α} {evictable : α → Bool}

@[simp] theorem new_items {capacity : Nat} {hCapacity : 0 < capacity} :
    (new capacity hCapacity : BoundedDropOldest α).items = [] := rfl

/-- What is buffered after a `push` was buffered before, or is the new item. -/
theorem mem_push {other : α} (h : other ∈ (q.push item).items) :
    other ∈ q.items ∨ other = item := by
  rcases List.mem_append.mp h with h | h
  · left
    split at h
    · exact List.mem_of_mem_drop h
    · exact h
  · exact .inr (List.mem_singleton.mp h)

/-- An item that is popped was the oldest. -/
theorem tryPop_some (h : q.tryPop = (some item, q')) :
    q.items = item :: q'.items ∧ q'.capacity = q.capacity := by
  unfold tryPop at h
  split at h
  · cases h
  · rename_i hItems
    cases h
    exact ⟨hItems, rfl⟩

/-- There was room, an evictable item made room, or nothing could. -/
theorem pushOr_cases (h : q.pushOr item evictable = (back, q')) :
    (back = none ∧ q'.items = q.items ++ [item] ∧ q'.capacity = q.capacity) ∨
    (∃ before victim after, back = none ∧ q.items.length = q.capacity ∧
      q.items = before ++ victim :: after ∧ evictable victim = true ∧
      (∀ other ∈ before, evictable other = false) ∧
      q'.items = before ++ after ++ [item] ∧ q'.capacity = q.capacity) ∨
    (back = some item ∧ q' = q ∧ q.items.length = q.capacity ∧
      ∀ other ∈ q.items, evictable other = false) := by
  have hBound := q.hLength
  unfold pushOr at h
  split at h
  · cases h
    exact .inl ⟨rfl, rfl, rfl⟩
  · have hFull : q.items.length = q.capacity := by omega
    split at h
    · rename_i index hIndex
      cases h
      obtain ⟨hLt, hVictim, hBefore⟩ := List.findIdx?_eq_some_iff_getElem.mp hIndex
      refine .inr (.inl ⟨q.items.take index, q.items[index], q.items.drop (index + 1), rfl, hFull,
        ?_, hVictim, ?_, ?_, rfl⟩)
      · rw [List.getElem_cons_drop, List.take_append_drop]
      · intro other hOther
        obtain ⟨i, hi, rfl⟩ := List.mem_take_iff_getElem.mp hOther
        exact Bool.eq_false_iff.mpr (hBefore i (by omega))
      · rw [← List.eraseIdx_eq_take_drop_succ]
    · rename_i hIndex
      cases h
      exact .inr (.inr ⟨rfl, rfl, hFull, List.findIdx?_eq_none_iff.mp hIndex⟩)

/-- What is buffered after a `pushOr`, in order, is what was buffered or
pushed, in order. -/
theorem sublist_pushOr (h : q.pushOr item evictable = (none, q')) :
    q'.items.Sublist (q.items ++ [item]) := by
  rcases pushOr_cases h with
    ⟨-, hItems, -⟩ | ⟨before, victim, after, -, -, hBefore, -, -, hItems, -⟩ | ⟨hBack, -⟩
  · rw [hItems]
  · rw [hItems, hBefore]
    exact ((List.sublist_cons_self victim after).append_left before).append_right [item]
  · cases hBack

theorem mem_pushOr {other : α} (h : q.pushOr item evictable = (back, q'))
    (hMem : other ∈ q'.items) : other ∈ q.items ∨ other = item := by
  rcases pushOr_cases h with
    ⟨-, hItems, -⟩ | ⟨before, victim, after, -, -, hBefore, -, -, hItems, -⟩ | ⟨-, rfl, -⟩
  · rw [hItems] at hMem
    simpa using hMem
  · rw [hItems] at hMem
    rw [hBefore]
    simp only [List.mem_append, List.mem_cons] at hMem ⊢
    tauto
  · exact .inl hMem

/-- An item that may not be evicted survives every `pushOr`. -/
theorem mem_pushOr_of_kept {other : α} (h : q.pushOr item evictable = (back, q'))
    (hKept : evictable other = false) (hMem : other ∈ q.items) : other ∈ q'.items := by
  rcases pushOr_cases h with
    ⟨-, hItems, -⟩ | ⟨before, victim, after, -, -, hBefore, hVictim, -, hItems, -⟩ | ⟨-, rfl, -⟩
  · rw [hItems]
    exact List.mem_append_left _ hMem
  · have hNot : other ≠ victim := by
      rintro rfl
      rw [hKept] at hVictim
      cases hVictim
    rw [hBefore] at hMem
    rw [hItems]
    simp only [List.mem_append, List.mem_cons, hNot, false_or] at hMem ⊢
    exact .inl hMem
  · exact hMem

/-- An item that is not handed back is buffered. -/
theorem mem_pushOr_self (h : q.pushOr item evictable = (none, q')) : item ∈ q'.items := by
  rcases pushOr_cases h with
    ⟨-, hItems, -⟩ | ⟨before, victim, after, -, -, -, -, -, hItems, -⟩ | ⟨hBack, -⟩
  · rw [hItems]
    exact List.mem_append_right _ (List.mem_singleton.mpr rfl)
  · rw [hItems]
    exact List.mem_append_right _ (List.mem_singleton.mpr rfl)
  · cases hBack

theorem pushOr_capacity (h : q.pushOr item evictable = (back, q')) :
    q'.capacity = q.capacity := by
  rcases pushOr_cases h with
    ⟨-, -, hCapacity⟩ | ⟨_, _, _, -, -, -, -, -, -, hCapacity⟩ | ⟨-, rfl, -⟩
  · exact hCapacity
  · exact hCapacity
  · rfl

end BoundedDropOldest

end CastApp.Util.Backpressure
