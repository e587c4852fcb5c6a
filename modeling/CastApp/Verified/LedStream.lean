import Mathlib.Data.List.Basic

/-!
# Lossy streams in groups

What is sent over a lossy channel comes in groups, and an item may lead its
group: the others of the group mean nothing without it.  `HeadsFirst` says
that a leading item is sent ahead of its group, `Led` that a stream which lost
some of what was sent did not lose the lead of anything it kept.

* `Led.send`, `Led.lose`, `Led.stop` — a stream stays led when an item is
  added, when items that lead nothing are lost, and when it is cut short.
* `Led.lead_before` — in a led stream the lead comes first.
-/

namespace CastApp.Verified.LedStream

variable {α ι : Type} {group : α → ι} {lead : α → Prop} {sent stream : List α}

/-- A leading item is the first of its group. -/
def HeadsFirst (group : α → ι) (lead : α → Prop) (sent : List α) : Prop :=
  sent.Pairwise fun x y => group x = group y → ¬ lead y

/-- Nothing in the stream lacks the lead that was sent for it. -/
def Led (group : α → ι) (lead : α → Prop) (sent stream : List α) : Prop :=
  ∀ x ∈ stream, ¬ lead x → ∀ y ∈ sent, group y = group x → lead y → y ∈ stream

theorem headsFirst_nil : HeadsFirst group lead ([] : List α) := List.Pairwise.nil

theorem led_nil : Led group lead sent [] := by
  intro x hMem
  cases hMem

theorem HeadsFirst.send {x : α} (h : HeadsFirst group lead sent)
    (hFirst : lead x → ∀ y ∈ sent, group y ≠ group x) : HeadsFirst group lead (sent ++ [x]) := by
  refine List.pairwise_append.mpr ⟨h, List.pairwise_singleton _ _, ?_⟩
  intro y hy z hz hGroup hLead
  rw [List.mem_singleton.mp hz] at hGroup hLead
  exact hFirst hLead y hy hGroup

/-- In what arrived of a stream, a lead is not behind one of its group. -/
theorem HeadsFirst.not_behind {first rest : List α} {x y : α} (h : HeadsFirst group lead sent)
    (hSublist : (first ++ rest).Sublist sent) (hx : x ∈ first) (hy : y ∈ rest)
    (hGroup : group y = group x) : ¬ lead y :=
  (List.pairwise_append.mp (h.sublist hSublist)).2.2 x hx y hy hGroup.symm

/-- A stream that is cut short stays led. -/
theorem Led.stop {first rest : List α} (h : Led group lead sent (first ++ rest))
    (hHeads : HeadsFirst group lead sent) (hSublist : (first ++ rest).Sublist sent) :
    Led group lead sent first := by
  intro x hx hNot y hy hGroup hLead
  rcases List.mem_append.mp (h x (List.mem_append_left _ hx) hNot y hy hGroup hLead) with
    hMem | hMem
  · exact hMem
  · exact absurd hLead (hHeads.not_behind hSublist hx hMem hGroup)

/-- A stream stays led when it loses items that lead nothing. -/
theorem Led.lose {stream' : List α} (h : Led group lead sent stream)
    (hOld : ∀ x ∈ stream', x ∈ stream) (hKept : ∀ x ∈ stream, lead x → x ∈ stream') :
    Led group lead sent stream' := by
  intro x hx hNot y hy hGroup hLead
  exact hKept y (h x (hOld x hx) hNot y hy hGroup hLead) hLead

/-- One more item is sent: a lead, or one whose lead is in the stream. -/
theorem Led.send {x : α} (h : Led group lead sent stream)
    (hLed : ∀ y ∈ sent, group y = group x → lead y → y ∈ stream) :
    Led group lead (sent ++ [x]) (stream ++ [x]) := by
  intro z hz hNot y hy hGroup hLead
  rcases List.mem_append.mp hy with hy | hy
  · rcases List.mem_append.mp hz with hz | hz
    · exact List.mem_append_left _ (h z hz hNot y hy hGroup hLead)
    · rw [List.mem_singleton.mp hz] at hGroup
      exact List.mem_append_left _ (hLed y hy hGroup hLead)
  · exact List.mem_append_right _ hy

/-- What arrived stays led while more is sent. -/
theorem Led.later {x : α} (h : Led group lead sent stream)
    (hHeads : HeadsFirst group lead (sent ++ [x])) (hSublist : stream.Sublist sent) :
    Led group lead (sent ++ [x]) stream := by
  intro z hz hNot y hy hGroup hLead
  rcases List.mem_append.mp hy with hy | hy
  · exact h z hz hNot y hy hGroup hLead
  · have hBehind := hHeads.not_behind (List.Sublist.refl _) (hSublist.subset hz) hy hGroup
    exact absurd hLead hBehind

/-- The lead comes before anything it leads. -/
theorem Led.lead_before {before after : List α} {x y : α}
    (h : Led group lead sent (before ++ x :: after)) (hHeads : HeadsFirst group lead sent)
    (hSublist : (before ++ x :: after).Sublist sent) (hNot : ¬ lead x) (hy : y ∈ sent)
    (hGroup : group y = group x) (hLead : lead y) : y ∈ before := by
  have hMem := h x (by simp) hNot y hy hGroup hLead
  rcases List.mem_append.mp hMem with hMem | hMem
  · exact hMem
  · rcases List.mem_cons.mp hMem with rfl | hMem
    · exact absurd hLead hNot
    · rw [List.append_cons] at hSublist
      exact absurd hLead (hHeads.not_behind hSublist (by simp) hMem hGroup)

end CastApp.Verified.LedStream
