import CastApp.Cast.RunLoop
import CastApp.Verified.Transition
import Mathlib.Data.List.Nodup
import Mathlib.Data.List.Perm.Subperm
import Mathlib.Data.Nat.ModEq

/-!
# The cycle of request ids

Every request of a session takes the next id that has no response
outstanding.  The ids are numbered here by their *position* in the unending
sequence `1, 2, …, u32::MAX, 1, 2, …`; the cursor of the allocator is always
at one position, and a request moves it past pending ids only.

* `allocate_first` — as long as one id of the cycle is free, the loop of
  `allocate` returns the first free one at or after the cursor.
* `HandsOut` — a trace in which each request got the first free id after the
  one before it.
* **`run_hands_out`** — every run of requests, responses and expiries, of any
  length, is such a trace, and no request finds the ids exhausted.
-/

namespace CastApp.Cast.RequestCycle

open CastApp.State
open CastApp.Cast.RequestId
open CastApp.Cast.RunLoop (livingRoom)
open CastApp.Cast.Session
open CastApp.Verified.Coroutine
open CastApp.Verified.Transition

/-! ## Positions in the cycle -/

/-- How many ids a full cycle has. -/
def cycleLength : Nat := 0xFFFFFFFF

/-- The id at a position of `1, 2, …, u32::MAX, 1, 2, …`. -/
def cyclic (position : Nat) : UInt32 := UInt32.ofNat (position % cycleLength + 1)

theorem cyclic_toNat (position : Nat) :
    (cyclic position).toNat = position % cycleLength + 1 := by
  have hLt : position % cycleLength < cycleLength := Nat.mod_lt _ (by decide)
  unfold cyclic
  rw [UInt32.toNat_ofNat_of_lt']
  unfold cycleLength at hLt ⊢
  show position % 0xFFFFFFFF + 1 < 4294967296
  omega

/-- An id of the cycle is a non-zero `u32`. -/
theorem cyclic_range (position : Nat) :
    1 ≤ (cyclic position).toNat ∧ (cyclic position).toNat ≤ 2 ^ 32 - 1 := by
  have hLt : position % cycleLength < cycleLength := Nat.mod_lt _ (by decide)
  rw [cyclic_toNat]
  unfold cycleLength at hLt ⊢
  omega

/-- `advance` goes to the next position. -/
theorem advance_cyclic (position : Nat) :
    RequestId.advance (cyclic position) = cyclic (position + 1) := by
  have hLt : position % cycleLength < cycleLength := Nat.mod_lt _ (by decide)
  have hHere := cyclic_toNat position
  have hNext := cyclic_toNat (position + 1)
  unfold RequestId.advance
  apply UInt32.toNat_inj.mp
  rw [hNext]
  unfold cycleLength at *
  by_cases hWrap : cyclic position = 0xFFFFFFFF
  · rw [if_pos hWrap]
    rw [hWrap] at hHere
    have hMax : (0xFFFFFFFF : UInt32).toNat = 4294967295 := rfl
    have hOne : (1 : UInt32).toNat = 1 := rfl
    omega
  · rw [if_neg hWrap]
    have hNe : (cyclic position).toNat ≠ 4294967295 := by
      intro hEq
      exact hWrap (UInt32.toNat_inj.mp hEq)
    rw [UInt32.toNat_add]
    have hOne : (1 : UInt32).toNat = 1 := rfl
    omega

/-- Less than a cycle apart, two positions carry different ids. -/
theorem cyclic_ne {p q : Nat} (hLt : p < q) (hNear : q < p + cycleLength) :
    cyclic q ≠ cyclic p := by
  intro hEq
  have hMod : q % cycleLength = p % cycleLength := by
    have hNat := congrArg UInt32.toNat hEq
    rw [cyclic_toNat, cyclic_toNat] at hNat
    omega
  have hDvd : cycleLength ∣ q - p := (Nat.modEq_iff_dvd' (Nat.le_of_lt hLt)).mp hMod.symm
  have hLe := Nat.le_of_dvd (by omega) hDvd
  omega

/-! ## One allocation -/

namespace PendingMap

/-- The outstanding ids. -/
def ids (m : PendingMap) : List UInt32 := m.pending.map (·.1)

/-- `PendingMap::len`. -/
def len (m : PendingMap) : Nat := m.pending.length

/-- What `insert` returns: whether the id was new. -/
def insertReturns (m : PendingMap) (id : UInt32) : Bool := !m.isPending id

end PendingMap

/-- A free id is registered. -/
theorem insert_free {m : PendingMap} {id : UInt32} {sentAt : Instant}
    (hFree : m.isPending id = false) :
    m.insert id sentAt = { m with pending := (id, sentAt) :: m.pending } := by
  unfold PendingMap.insert
  rw [if_neg (by simp [hFree])]

theorem isPending_iff {m : PendingMap} {id : UInt32} :
    m.isPending id = true ↔ id ∈ PendingMap.ids m := by
  simp [PendingMap.isPending, PendingMap.ids]

/-- Among one more id than there are pending ones, one is free. -/
theorem exists_free {m : PendingMap} (p : Nat) (hRoom : PendingMap.len m < cycleLength) :
    ∃ q, p ≤ q ∧ q < p + (PendingMap.len m + 1) ∧ m.isPending (cyclic q) = false := by
  by_contra hAll
  push Not at hAll
  let window := (List.range (PendingMap.len m + 1)).map fun k => cyclic (p + k)
  have hNodup : window.Nodup := by
    apply List.Nodup.map_on _ List.nodup_range
    intro i hi j hj hEq
    rw [List.mem_range] at hi hj
    by_contra hNe
    rcases Nat.lt_or_gt_of_ne hNe with hLt | hLt
    · exact cyclic_ne (by omega) (by omega) hEq.symm
    · exact cyclic_ne (by omega) (by omega) hEq
  have hSubset : window ⊆ PendingMap.ids m := by
    intro id hMem
    obtain ⟨k, hk, rfl⟩ := List.mem_map.mp hMem
    rw [List.mem_range] at hk
    apply isPending_iff.mp
    have hPending := hAll (p + k) (by omega) (by omega)
    simpa using hPending
  have hLe := (List.subperm_of_subset hNodup hSubset).length_le
  simp only [window, List.length_map, List.length_range, PendingMap.ids, PendingMap.len] at hLe
  omega

/-- Where the ids from position `p` on are pending up to a free one, `q` is
the position of that one. -/
structure FirstFree (m : PendingMap) (p q : Nat) : Prop where
  le : p ≤ q
  skipped : ∀ k, p ≤ k → k < q → m.isPending (cyclic k) = true
  free : m.isPending (cyclic q) = false

/-- The loop finds the first free id within its turns, unless it comes back
to the id it started from. -/
theorem allocateFrom_first {m : PendingMap} {start : UInt32} {turns p : Nat}
    (hFree : ∃ q, p ≤ q ∧ q < p + turns ∧ m.isPending (cyclic q) = false)
    (hAway : ∀ k, p < k → k < p + turns → cyclic k ≠ start) :
    ∃ q, FirstFree m p q ∧
      RequestId.allocateFrom m start turns (cyclic p) = some (cyclic q, ⟨cyclic (q + 1)⟩) := by
  induction turns generalizing p with
  | zero =>
      obtain ⟨q, hLe, hLt, -⟩ := hFree
      omega
  | succ turns ih =>
      unfold RequestId.allocateFrom
      rw [advance_cyclic]
      by_cases hPending : m.isPending (cyclic p) = true
      · obtain ⟨q, hLe, hLt, hq⟩ := hFree
        have hNe : q ≠ p := by
          intro hEq
          rw [hEq, hPending] at hq
          cases hq
        have hNotBack : cyclic (p + 1) ≠ start := hAway (p + 1) (by omega) (by omega)
        obtain ⟨q', hFirst, hLoop⟩ := ih (p := p + 1)
          ⟨q, by omega, by omega, hq⟩ (fun k hk hk' => hAway k (by omega) (by omega))
        refine ⟨q', ⟨by have := hFirst.le; omega, ?_, hFirst.free⟩, ?_⟩
        · intro k hk hk'
          by_cases hHere : k = p
          · rw [hHere]
            exact hPending
          · exact hFirst.skipped k (by omega) hk'
        · simp only [hPending, Bool.not_true, Bool.false_eq_true, if_false, hNotBack, hLoop]
      · have hFreeHere : m.isPending (cyclic p) = false := by simpa using hPending
        refine ⟨p, ⟨Nat.le_refl p, fun k hk hk' => by omega, hFreeHere⟩, ?_⟩
        simp only [hFreeHere, Bool.not_false, if_true]

/-- With an id of the cycle free, `allocate` returns the first free one at or
after the cursor, and leaves the cursor behind it. -/
theorem allocate_first {m : PendingMap} (p : Nat) (hRoom : PendingMap.len m < cycleLength) :
    ∃ q, FirstFree m p q ∧
      RequestId.allocate ⟨cyclic p⟩ m = some (cyclic q, ⟨cyclic (q + 1)⟩) := by
  apply allocateFrom_first (exists_free p hRoom)
  intro k hk hk'
  have hLen : PendingMap.len m = m.pending.length := rfl
  exact cyclic_ne hk (by omega)

/-! ## Runs -/

/-- What is done to the ids of a session. -/
inductive Label : Type
  /-- `next_request`, with the id it returns. -/
  | request (id : UInt32)
  /-- `next_request` panics. -/
  | exhausted
  /-- `PendingMap::resolve`. -/
  | resolve (id : UInt32)
  /-- `PendingMap::expire`. -/
  | expire (now : Instant)

inductive Step : Session → Label → Session → Prop
  | request {session session' : Session} {ops : List (Entry castSig)} {id : UInt32}
      (hExec : Exec session.nextRequest ops (.value (id, session'))) :
      Step session (.request id) session'
  | exhausted {session : Session} {ops : List (Entry castSig)} {reason : Fault}
      (hExec : Exec session.nextRequest ops (.fault reason)) :
      Step session .exhausted session
  | resolve {session : Session} (id : UInt32) :
      Step session (.resolve id)
        { session with pending := (session.pending.resolve id).2 }
  | expire {session : Session} (now : Instant) :
      Step session (.expire now)
        { session with pending := (session.pending.expire now).2 }

/-- Requests, responses and expiries in any order, from a fresh session. -/
def requests : System Session Label where
  init session := ∃ device transport timeout, session = Session.new device transport timeout
  step := Step

/-- At each request of the trace, some id of the cycle has no response
outstanding. -/
def HasRoom (trace : List (Move Session Label)) : Prop :=
  ∀ m ∈ trace, (∃ id, m.label = .request id) ∨ m.label = .exhausted →
    PendingMap.len m.pre.pending < 2 ^ 32 - 1

/-- The session after a request that got `id` at `now`. -/
def requested (session : Session) (id : UInt32) (cursor : RequestId) (now : Instant) : Session :=
  { session with requestId := cursor, pending := session.pending.insert id now }

/-- `HandsOut trace p`: the requests of the trace were given ids in cyclic
order, each the first free one, and the next one is looked for from position
`p` on. -/
inductive HandsOut : List (Move Session Label) → Nat → Prop
  | nil : HandsOut [] 0
  | request {trace : List (Move Session Label)} {p q : Nat} {session : Session} {now : Instant}
      (hBefore : HandsOut trace p) (hFirst : FirstFree session.pending p q) :
      HandsOut
        (trace ++ [⟨session, .request (cyclic q), requested session (cyclic q) ⟨cyclic (q + 1)⟩ now⟩])
        (q + 1)
  | resolve {trace : List (Move Session Label)} {p : Nat} {session session' : Session}
      {id : UInt32} (hBefore : HandsOut trace p) :
      HandsOut (trace ++ [⟨session, .resolve id, session'⟩]) p
  | expire {trace : List (Move Session Label)} {p : Nat} {session session' : Session}
      {now : Instant} (hBefore : HandsOut trace p) :
      HandsOut (trace ++ [⟨session, .expire now, session'⟩]) p

theorem nextRequest_exec {session : Session} {id : UInt32} {cursor : RequestId}
    (hAllocate : session.requestId.allocate session.pending = some (id, cursor)) (now : Instant) :
    Exec session.nextRequest [⟨.now, now⟩] (.value (id, requested session id cursor now)) := by
  unfold Session.nextRequest
  rw [hAllocate]
  exact exec_perform_bind.mpr ⟨now, [], rfl, exec_pure.mpr ⟨rfl, rfl⟩⟩

/-- What `next_request` does with room left. -/
theorem nextRequest_first {session : Session} {p : Nat} {ops : List (Entry castSig)}
    {o : Outcome castSig (UInt32 × Session)}
    (hCursor : session.requestId = ⟨cyclic p⟩)
    (hRoom : PendingMap.len session.pending < 2 ^ 32 - 1)
    (hExec : Exec session.nextRequest ops o) :
    ∃ q now, FirstFree session.pending p q ∧
      o = .value (cyclic q, requested session (cyclic q) ⟨cyclic (q + 1)⟩ now) := by
  obtain ⟨q, hFirst, hAllocate⟩ := allocate_first (m := session.pending) p hRoom
  unfold Session.nextRequest at hExec
  rw [hCursor, hAllocate] at hExec
  obtain ⟨now, tr, -, hRest⟩ := exec_perform_bind.mp hExec
  obtain ⟨-, rfl⟩ := exec_pure.mp hRest
  exact ⟨q, now, hFirst, rfl⟩

/-- The run lemma: the cursor stands at the position the trace leads to. -/
theorem run_cursor {trace : List (Move Session Label)} {session : Session}
    (hRun : Run requests trace session) (hRoom : HasRoom trace) :
    ∃ p, HandsOut trace p ∧ session.requestId = ⟨cyclic p⟩ := by
  induction hRun with
  | start hInit =>
      obtain ⟨device, transport, timeout, rfl⟩ := hInit
      exact ⟨0, .nil, rfl⟩
  | @step trace session session' label hRun hStep ih =>
      have hRoomBefore : HasRoom trace := fun m hMem => hRoom m (List.mem_append_left _ hMem)
      have hRoomHere := hRoom ⟨session, label, session'⟩ (by simp)
      obtain ⟨p, hBefore, hCursor⟩ := ih hRoomBefore
      cases hStep with
      | request hExec =>
          obtain ⟨q, now, hFirst, hOutcome⟩ :=
            nextRequest_first hCursor (hRoomHere (.inl ⟨_, rfl⟩)) hExec
          cases hOutcome
          exact ⟨q + 1, .request hBefore hFirst, rfl⟩
      | exhausted hExec =>
          obtain ⟨q, now, -, hOutcome⟩ :=
            nextRequest_first hCursor (hRoomHere (.inr rfl)) hExec
          cases hOutcome
      | resolve id => exact ⟨p, .resolve hBefore, hCursor⟩
      | expire now => exact ⟨p, .expire hBefore, hCursor⟩

/-- No id is registered twice, so `len` counts the outstanding ids. -/
theorem run_ids_nodup {trace : List (Move Session Label)} {session : Session}
    (hRun : Run requests trace session) : (PendingMap.ids session.pending).Nodup := by
  apply hRun.invariant
  · rintro _ ⟨device, transport, timeout, rfl⟩
    exact List.nodup_nil
  · intro session label session' hNodup hStep
    cases hStep with
    | @request _ _ fresh hExec =>
        unfold Session.nextRequest at hExec
        cases hAllocate : session.requestId.allocate session.pending with
        | none =>
            rw [hAllocate] at hExec
            cases hExec.2
        | some found =>
            obtain ⟨id, cursor⟩ := found
            rw [hAllocate] at hExec
            obtain ⟨now, tr, -, hRest⟩ := exec_perform_bind.mp hExec
            obtain ⟨-, hOutcome⟩ := exec_pure.mp hRest
            cases hOutcome
            have hFree := RequestId.allocate_not_pending hAllocate
            have hNew : fresh ∉ PendingMap.ids session.pending := by
              intro hMem
              rw [isPending_iff.mpr hMem] at hFree
              cases hFree
            show (PendingMap.ids (session.pending.insert fresh now)).Nodup
            rw [insert_free hFree]
            exact List.nodup_cons.mpr ⟨hNew, hNodup⟩
    | exhausted hExec => exact hNodup
    | resolve id => exact hNodup.sublist (List.filter_sublist.map _)
    | expire now => exact hNodup.sublist (List.filter_sublist.map _)

/-- What an allocation leaves alone, and what it hands out. -/
structure FreshRequest (m : Move Session Label) (id : UInt32) : Prop where
  range : 1 ≤ id.toNat ∧ id.toNat ≤ 2 ^ 32 - 1
  free : m.pre.pending.isPending id = false
  inserted : PendingMap.insertReturns m.pre.pending id = true
  outstanding : ∀ entry ∈ m.pre.pending.pending, entry ∈ m.post.pending.pending

theorem HandsOut.fresh {trace : List (Move Session Label)} {p : Nat} (h : HandsOut trace p) :
    ∀ m ∈ trace, m.label ≠ .exhausted ∧
      ∀ id, m.label = .request id → FreshRequest m id := by
  induction h with
  | nil => simp
  | @request trace p q session now hBefore hFirst ih =>
      intro m hMem
      rcases List.mem_append.mp hMem with hMem | hMem
      · exact ih m hMem
      · obtain rfl := List.mem_singleton.mp hMem
        refine ⟨by simp, fun id hLabel => ?_⟩
        cases hLabel
        have hFree := hFirst.free
        refine ⟨cyclic_range q, hFree, by simp [PendingMap.insertReturns, hFree], ?_⟩
        intro entry hEntry
        show entry ∈ (session.pending.insert (cyclic q) now).pending
        rw [insert_free hFree]
        exact List.mem_cons_of_mem _ hEntry
  | resolve hBefore ih =>
      intro m hMem
      rcases List.mem_append.mp hMem with hMem | hMem
      · exact ih m hMem
      · obtain rfl := List.mem_singleton.mp hMem
        simp
  | expire hBefore ih =>
      intro m hMem
      rcases List.mem_append.mp hMem with hMem | hMem
      · exact ih m hMem
      · obtain rfl := List.mem_singleton.mp hMem
        simp

/-- **Request ids.**  In every run that leaves room in the cycle, ids are
handed out in cyclic order skipping exactly the pending ones, each is a fresh
non-zero `u32`, no outstanding request is touched, and the allocation loop
never reaches its panic. -/
theorem run_hands_out {trace : List (Move Session Label)} {session : Session}
    (hRun : Run requests trace session) (hRoom : HasRoom trace) :
    (∃ p, HandsOut trace p) ∧
      (∀ m ∈ trace, m.label ≠ .exhausted ∧ ∀ id, m.label = .request id → FreshRequest m id) ∧
      (PendingMap.ids session.pending).Nodup := by
  obtain ⟨p, hHandsOut, -⟩ := run_cursor hRun hRoom
  exact ⟨⟨p, hHandsOut⟩, hHandsOut.fresh, run_ids_nodup hRun⟩

/-- The first request of a session. -/
def firstRequest : Move Session Label :=
  let session := Session.new livingRoom ⟨0⟩ 5000
  ⟨session, .request 1, requested session 1 ⟨2⟩ 0⟩

theorem firstRequest_run : Run requests [firstRequest] firstRequest.post := by
  have hAllocate : firstRequest.pre.requestId.allocate firstRequest.pre.pending = some (1, ⟨2⟩) := by
    decide
  have hInit : requests.init firstRequest.pre := ⟨livingRoom, ⟨0⟩, 5000, rfl⟩
  exact Run.step (.start hInit) (.request (nextRequest_exec hAllocate 0))

theorem firstRequest_handed_out :
    (∃ p, HandsOut [firstRequest] p) ∧
      (∀ m ∈ [firstRequest],
        m.label ≠ .exhausted ∧ ∀ id, m.label = .request id → FreshRequest m id) ∧
      (PendingMap.ids firstRequest.post.pending).Nodup := by
  apply run_hands_out firstRequest_run
  intro m hMem _
  obtain rfl := List.mem_singleton.mp hMem
  decide

end CastApp.Cast.RequestCycle
