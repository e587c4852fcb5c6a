import CastApp.Cast.DiscoverySnapshots
import Mathlib.Data.List.Induction

/-!
# The expiry of devices

When the discovery loop drops a device, against what it is to drop one for:
three query cycles in a row without an announcement, a cycle being what lies
between two ticks.  The loop counts ticks, and the tick that ends the cycle of
the announcement counts like any other.  So the third tick behind an
announcement drops the device, two missed cycles behind it.

* `tableAfter` — the table a turn leaves.
* `since` — the ticks since a device was last announced.
* `run_missedCycles` — the table lists who was announced fewer than three
  ticks ago, and counts those ticks.
* `expiry_law_iff` — the law holds of a run exactly if no device stays silent
  over two ticks.
-/

namespace CastApp.Cast.DiscoveryExpiry

open CastApp.State
open CastApp.Cast.Mdns
open CastApp.Cast.DiscoverySnapshots
open CastApp.Verified.Coroutine
open CastApp.Verified.EventLoop
open CastApp.Verified.Transition

/-! ## Ticks and announcements -/

abbrev LoopTurn : Type := Move (Stage mdnsSig DeviceTable) (Turn mdnsSig Branch)

def isTick (m : LoopTurn) : Bool :=
  match m.label.branch with
  | .tick => true
  | _ => false

def keyOf (device : DiscoveredDevice) : DeviceKey := (device.ip, device.port)

section Parsing

variable (parsePacket : List Byte → Except DnsError (List DiscoveredDevice))

/-- The devices a branch announces. -/
def announced : Branch → List DiscoveredDevice
  | .recv (.ok data) =>
      match parsePacket data with
      | .ok found => found
      | .error _ => []
  | _ => []

def announces (key : DeviceKey) (m : LoopTurn) : Bool :=
  (announced parsePacket m.label.branch).any fun device => keyOf device == key

/-- A device that a stage of the loop lists. -/
def Listed (c : Stage mdnsSig DeviceTable) (key : DeviceKey) : Prop :=
  ∃ devices, At c devices ∧ key ∈ devices.map (·.1)

/-- At a tick behind `past`, each of the query cycles that make a device
expire, the last of them ending now, has gone by without an announcement. -/
def MissedCycles (past : List LoopTurn) (key : DeviceKey) : Prop :=
  ∃ before tick after, past = before ++ tick :: after ∧ isTick tick = true ∧
    after.countP isTick + 1 = missedCyclesToExpire.toNat ∧
    ∀ m ∈ after, announces parsePacket key m = false

/-- At a tick behind `past`, the device has been announced during one of the
last `cycles` query cycles. -/
def AnnouncedWithin (cycles : Nat) (past : List LoopTurn) (key : DeviceKey) : Prop :=
  ∃ before m after, past = before ++ m :: after ∧ announces parsePacket key m = true ∧
    after.countP isTick < cycles

/-- What a tick behind `past` is to do: drop a listed device exactly if it
missed the cycles, and keep whoever was announced during one of them. -/
def ExpiresAsMissed (past : List LoopTurn) (m : LoopTurn) : Prop :=
  ∀ key,
    (Listed m.pre key → (¬ Listed m.post key ↔ MissedCycles parsePacket past key)) ∧
    (AnnouncedWithin parsePacket missedCyclesToExpire.toNat past key → Listed m.post key)

/-- Every tick of a run does. -/
def ExpiryLaw (turns : List LoopTurn) : Prop :=
  ∀ past m later, turns = past ++ m :: later → isTick m = true →
    ExpiresAsMissed parsePacket past m

/-- At every tick of a run, whoever was announced at all was announced during
one of the last two query cycles. -/
def NeverSilent (turns : List LoopTurn) : Prop :=
  ∀ past m later, turns = past ++ m :: later → isTick m = true → ∀ key,
    (∃ a ∈ past, announces parsePacket key a = true) → AnnouncedWithin parsePacket 2 past key

/-! ## The ticks since an announcement -/

/-- One more turn. -/
def sinceStep (key : DeviceKey) (n : Option Nat) (m : LoopTurn) : Option Nat :=
  if announces parsePacket key m then some 0
  else if isTick m then n.map (· + 1)
  else n

/-- The ticks since the last announcement, if there was one. -/
def since (key : DeviceKey) (past : List LoopTurn) : Option Nat :=
  past.foldl (sinceStep parsePacket key) none

variable {parsePacket} {key : DeviceKey}

theorem since_concat (past : List LoopTurn) (m : LoopTurn) :
    since parsePacket key (past ++ [m]) =
      sinceStep parsePacket key (since parsePacket key past) m := by
  simp [since]

/-- A tick announces nothing. -/
theorem announces_tick {m : LoopTurn} (h : isTick m = true) :
    announces parsePacket key m = false := by
  unfold isTick at h
  unfold announces announced
  cases hBranch : m.label.branch with
  | tick => rfl
  | shutdown closed value => simp [hBranch] at h
  | rescan closed => simp [hBranch] at h
  | recv result => simp [hBranch] at h

/-- Turns without an announcement. -/
theorem since_silent (past after : List LoopTurn)
    (hSilent : ∀ m ∈ after, announces parsePacket key m = false) :
    since parsePacket key (past ++ after) =
      (since parsePacket key past).map (· + after.countP isTick) := by
  induction after generalizing past with
  | nil => simp
  | cons m after ih =>
      obtain ⟨hHere, hRest⟩ := List.forall_mem_cons.mp hSilent
      have hMore := ih (past ++ [m]) hRest
      rw [since_concat, List.append_assoc] at hMore
      rw [List.singleton_append] at hMore
      rw [hMore, sinceStep, hHere]
      cases hTick : isTick m with
      | true =>
          cases since parsePacket key past with
          | none => simp
          | some n =>
              simp [hTick]
              omega
      | false => simp [hTick]

/-- Turns that may announce the device again. -/
theorem since_le (past after : List LoopTurn) {n : Nat} (h : since parsePacket key past = some n) :
    ∃ k, since parsePacket key (past ++ after) = some k ∧ k ≤ n + after.countP isTick := by
  induction after generalizing past n with
  | nil => exact ⟨n, by simpa using h, by simp⟩
  | cons m after ih =>
      obtain ⟨k, hHere, hLe⟩ : ∃ k, since parsePacket key (past ++ [m]) = some k ∧
          k ≤ n + [m].countP isTick := by
        rw [since_concat, h, sinceStep]
        cases hAnnounces : announces parsePacket key m with
        | true => exact ⟨0, by simp, by omega⟩
        | false =>
            cases hTick : isTick m with
            | true => exact ⟨n + 1, by simp, by simp [hTick]⟩
            | false => exact ⟨n, by simp, by omega⟩
      obtain ⟨j, hThen, hLe'⟩ := ih (past ++ [m]) hHere
      refine ⟨j, by simpa using hThen, ?_⟩
      rw [← List.singleton_append, List.countP_append]
      omega

/-- The last announcement, and the turns since. -/
theorem since_eq_some {past : List LoopTurn} {n : Nat} (h : since parsePacket key past = some n) :
    ∃ before m after, past = before ++ m :: after ∧ announces parsePacket key m = true ∧
      (∀ a ∈ after, announces parsePacket key a = false) ∧ after.countP isTick = n := by
  induction past using List.reverseRecOn generalizing n with
  | nil => cases h
  | append_singleton past m ih =>
      rw [since_concat, sinceStep] at h
      cases hAnnounces : announces parsePacket key m with
      | true =>
          rw [if_pos hAnnounces] at h
          cases h
          exact ⟨past, m, [], rfl, hAnnounces, by simp, rfl⟩
      | false =>
          rw [if_neg (by simp [hAnnounces])] at h
          obtain ⟨k, hPast, hCount⟩ : ∃ k, since parsePacket key past = some k ∧
              k + [m].countP isTick = n := by
            cases hTick : isTick m with
            | true =>
                rw [if_pos hTick] at h
                obtain ⟨k, hPast, hNext⟩ := Option.map_eq_some_iff.mp h
                exact ⟨k, hPast, by simpa [hTick] using hNext⟩
            | false =>
                rw [if_neg (by simp [hTick])] at h
                exact ⟨n, h, by simp [hTick]⟩
          obtain ⟨before, a, after, rfl, hLast, hSilent, hTicks⟩ := ih hPast
          refine ⟨before, a, after ++ [m], by simp, hLast, ?_, ?_⟩
          · intro other hMem
            rcases List.mem_append.mp hMem with hMem | hMem
            · exact hSilent other hMem
            · rw [List.mem_singleton.mp hMem]
              exact hAnnounces
          · rw [List.countP_append]
            omega

/-- The first elements that hold, up to the next one. -/
theorem exists_split_countP {α : Type} {holds : α → Bool} (l : List α) {k : Nat}
    (h : k < l.countP holds) :
    ∃ before a after, l = before ++ a :: after ∧ holds a = true ∧ before.countP holds = k := by
  induction l generalizing k with
  | nil => simp at h
  | cons b l ih =>
      cases hHolds : holds b with
      | true =>
          cases k with
          | zero => exact ⟨[], b, l, rfl, hHolds, rfl⟩
          | succ k =>
              rw [List.countP_cons_of_pos hHolds] at h
              obtain ⟨before, a, after, rfl, hA, hCount⟩ := ih (k := k) (by omega)
              refine ⟨b :: before, a, after, rfl, hA, ?_⟩
              rw [List.countP_cons_of_pos hHolds, hCount]
      | false =>
          rw [List.countP_cons_of_neg (by simp [hHolds])] at h
          obtain ⟨before, a, after, rfl, hA, hCount⟩ := ih h
          refine ⟨b :: before, a, after, rfl, hA, ?_⟩
          rw [List.countP_cons_of_neg (by simp [hHolds]), hCount]

theorem announcedWithin_iff {cycles : Nat} {past : List LoopTurn} :
    AnnouncedWithin parsePacket cycles past key ↔
      ∃ n, since parsePacket key past = some n ∧ n < cycles := by
  constructor
  · rintro ⟨before, m, after, rfl, hAnnounces, hFew⟩
    have hHere : since parsePacket key (before ++ [m]) = some 0 := by
      rw [since_concat, sinceStep, if_pos hAnnounces]
    obtain ⟨n, hSince, hLe⟩ := since_le (before ++ [m]) after hHere
    exact ⟨n, by simpa using hSince, by omega⟩
  · rintro ⟨n, hSince, hFew⟩
    obtain ⟨before, m, after, hSplit, hAnnounces, _, hCount⟩ := since_eq_some hSince
    exact ⟨before, m, after, hSplit, hAnnounces, by omega⟩

theorem missedCycles_iff {past : List LoopTurn} {n : Nat}
    (hSince : since parsePacket key past = some n) : MissedCycles parsePacket past key ↔ 3 ≤ n := by
  constructor
  · rintro ⟨before, tick, after, rfl, hTick, hCount, hSilent⟩
    rw [since_silent before (tick :: after) (List.forall_mem_cons.mpr
      ⟨announces_tick hTick, hSilent⟩), List.countP_cons_of_pos hTick] at hSince
    obtain ⟨k, _, hN⟩ := Option.map_eq_some_iff.mp hSince
    have hThree : missedCyclesToExpire.toNat = 3 := rfl
    omega
  · intro hMany
    obtain ⟨before, m, after, rfl, hAnnounces, hSilent, hCount⟩ := since_eq_some hSince
    have hSome : n - 3 < after.countP isTick := by omega
    obtain ⟨first, tick, last, rfl, hTick, hFirst⟩ := exists_split_countP after hSome
    refine ⟨before ++ m :: first, tick, last, by simp, hTick, ?_, ?_⟩
    · have hThree : missedCyclesToExpire.toNat = 3 := rfl
      rw [List.countP_append, List.countP_cons_of_pos hTick] at hCount
      omega
    · exact fun a hMem => hSilent a (by simp [hMem])

/-! ## The table -/

variable (parsePacket) in
/-- The table a turn leaves. -/
def tableAfter (devices : DeviceTable) : Branch → DeviceTable
  | .tick => (expireCycle devices).1
  | .recv (.ok data) =>
      match parsePacket data with
      | .ok found => (upsertAll devices found).1
      | .error _ => devices
  | _ => devices

theorem branchBody_table (devices : DeviceTable) (b : Branch) :
    Ensures (branchBody parsePacket devices b)
      fun _ o => At (stageOf o) (tableAfter parsePacket devices b) := by
  cases b with
  | shutdown closed value =>
      unfold branchBody
      cases hEnds : closed || value with
      | false =>
          simp only [hEnds]
          exact ensures_pure.mpr (.inl rfl)
      | true =>
          simp only [hEnds]
          exact ensures_pure.mpr (.inr rfl)
  | tick =>
      simp only [branchBody]
      refine ensures_perform_bind.mpr fun _ => ?_
      cases hChanged : (expireCycle devices).2 with
      | false => exact ensures_pure.mpr (.inl rfl)
      | true =>
          show Ensures (ask (.emit (snapshot (expireCycle devices).1)) >>= fun _ =>
            pure (Flow.park (expireCycle devices).1)) _
          refine ensures_perform_bind.mpr fun _ => ?_
          exact ensures_pure.mpr (.inl rfl)
  | rescan closed =>
      simp only [branchBody]
      cases closed with
      | true => exact ensures_pure.mpr (.inr rfl)
      | false =>
          refine ensures_perform_bind.mpr fun _ => ?_
          exact ensures_pure.mpr (.inl rfl)
  | recv result =>
      cases result with
      | error error => exact ensures_pure.mpr (.inl rfl)
      | ok data =>
          simp only [branchBody, tableAfter]
          unfold receive
          cases hParsed : parsePacket data with
          | error error =>
              simp only [hParsed]
              exact ensures_pure.mpr (.inl rfl)
          | ok found =>
              simp only [hParsed]
              cases hChanged : (upsertAll devices found).2 with
              | false => exact ensures_pure.mpr (.inl rfl)
              | true =>
                  show Ensures (ask (.emit (snapshot (upsertAll devices found).1)) >>= fun _ =>
                    pure (Flow.park (upsertAll devices found).1)) _
                  refine ensures_perform_bind.mpr fun _ => ?_
                  exact ensures_pure.mpr (.inl rfl)

theorem tableAfter_kept {devices : DeviceTable} (hKept : WellKept devices) (b : Branch) :
    WellKept (tableAfter parsePacket devices b) := by
  cases b with
  | shutdown closed value => exact hKept
  | tick => exact expireCycle_kept hKept
  | rescan closed => exact hKept
  | recv result =>
      cases result with
      | error error => exact hKept
      | ok data =>
          simp only [tableAfter]
          cases parsePacket data with
          | error error => exact hKept
          | ok found => exact (upsertAll_kept hKept found).1

/-- The missed cycles of a device, if it is listed. -/
def missed (devices : DeviceTable) (key : DeviceKey) : Option Nat :=
  (devices.lookup key).map fun entry => entry.missedCycles.toNat

theorem lookup_isSome {devices : DeviceTable} :
    key ∈ devices.map (·.1) ↔ (missed devices key).isSome = true := by
  unfold missed
  rw [Option.isSome_map]
  cases hLookup : devices.lookup key with
  | none => simp [not_mem_of_lookup hLookup]
  | some entry =>
      simp only [Option.isSome_some, iff_true]
      exact List.mem_map.mpr ⟨_, mem_of_lookup hLookup, rfl⟩

/-- In a table that names every device once, a row is found under its key. -/
theorem lookup_of_mem {devices : DeviceTable} (hKeys : (devices.map (·.1)).Nodup)
    {entry : DeviceEntry} (hMem : (key, entry) ∈ devices) : devices.lookup key = some entry := by
  cases hLookup : devices.lookup key with
  | none => exact absurd (List.mem_map.mpr ⟨_, hMem, rfl⟩) (not_mem_of_lookup hLookup)
  | some found =>
      have hSame : (key, found) = (key, entry) :=
        List.inj_on_of_nodup_map hKeys (mem_of_lookup hLookup) hMem rfl
      rw [(Prod.mk.inj hSame).2]

/-- The row of one device set anew. -/
theorem lookup_refresh (devices : DeviceTable) (fresh : DeviceKey) (entry : DeviceEntry) :
    (devices.map fun row => if row.1 = fresh then (fresh, entry) else row).lookup key =
      if fresh = key then (devices.lookup key).map fun _ => entry else devices.lookup key := by
  induction devices with
  | nil => simp
  | cons row devices ih =>
      obtain ⟨rowKey, rowEntry⟩ := row
      simp only [List.map_cons]
      by_cases hFresh : rowKey = fresh
      · subst hFresh
        rw [if_pos rfl]
        by_cases hKey : rowKey = key
        · subst hKey
          simp
        · have hOther : (key == rowKey) = false := by simpa using fun h => hKey h.symm
          simp only [List.lookup_cons, hOther, ih, if_neg hKey]
      · rw [if_neg hFresh]
        by_cases hKey : rowKey = key
        · subst hKey
          simp [Ne.symm hFresh]
        · have hOther : (key == rowKey) = false := by simpa using fun h => hKey h.symm
          simp only [List.lookup_cons, hOther, ih]

theorem missed_upsertDevice (devices : DeviceTable) (device : DiscoveredDevice) :
    missed (upsertDevice devices device).1 key =
      if keyOf device = key then some 0 else missed devices key := by
  unfold upsertDevice missed keyOf
  cases hLookup : devices.lookup ((device.ip, device.port) : DeviceKey) with
  | some entry =>
      simp only [hLookup]
      rw [lookup_refresh]
      by_cases hHere : ((device.ip, device.port) : DeviceKey) = key
      · subst hHere
        simp [hLookup]
      · simp [hHere]
  | none =>
      simp only [hLookup]
      rw [List.lookup_append]
      by_cases hHere : ((device.ip, device.port) : DeviceKey) = key
      · subst hHere
        simp [hLookup]
      · have hOther : (key == ((device.ip, device.port) : DeviceKey)) = false := by
          simpa using fun h => hHere h.symm
        simp [List.lookup_cons, hOther, hHere]

theorem missed_upsertAll (devices : DeviceTable) (found : List DiscoveredDevice) :
    missed (upsertAll devices found).1 key =
      if found.any (fun device => keyOf device == key) then some 0 else missed devices key := by
  induction found generalizing devices with
  | nil => rfl
  | cons device found ih =>
      have hRest := ih (upsertDevice devices device).1
      show missed (upsertAll (upsertDevice devices device).1 found).1 key = _
      rw [hRest, missed_upsertDevice, List.any_cons]
      by_cases hHere : keyOf device = key
      · simp [hHere]
      · simp [hHere]

theorem lookup_filter {devices : DeviceTable} (hKeys : (devices.map (·.1)).Nodup)
    (keeps : DeviceKey × DeviceEntry → Bool) :
    (devices.filter keeps).lookup key =
      (devices.lookup key).filter fun entry => keeps (key, entry) := by
  have hKept : ((devices.filter keeps).map (·.1)).Nodup :=
    hKeys.sublist (List.filter_sublist.map _)
  cases hLookup : devices.lookup key with
  | none =>
      have hNone : key ∉ (devices.filter keeps).map (·.1) := fun hMem =>
        not_mem_of_lookup hLookup ((List.filter_sublist.map _).subset hMem)
      cases hFound : (devices.filter keeps).lookup key with
      | none => rfl
      | some entry => exact absurd (List.mem_map.mpr ⟨_, mem_of_lookup hFound, rfl⟩) hNone
  | some entry =>
      have hMem := mem_of_lookup hLookup
      cases hKeeps : keeps (key, entry) with
      | true =>
          rw [lookup_of_mem hKept (List.mem_filter.mpr ⟨hMem, hKeeps⟩)]
          exact (Option.filter_some_pos (p := fun entry => keeps (key, entry)) hKeeps).symm
      | false =>
          cases hFound : (devices.filter keeps).lookup key with
          | none => exact (Option.filter_some_neg (by simp [hKeeps])).symm
          | some other =>
              obtain ⟨hThere, hHolds⟩ := List.mem_filter.mp (mem_of_lookup hFound)
              have hSame := lookup_of_mem hKeys hThere
              rw [hLookup] at hSame
              cases hSame
              rw [hKeeps] at hHolds
              cases hHolds

theorem lookup_aged (devices : DeviceTable) :
    (aged devices).lookup key =
      (devices.lookup key).map fun entry =>
        { entry with missedCycles := entry.missedCycles + 1 } := by
  induction devices with
  | nil => rfl
  | cons row devices ih =>
      have hAged : aged (row :: devices) =
          (row.1, { row.2 with missedCycles := row.2.missedCycles + 1 }) :: aged devices := rfl
      rw [hAged, List.lookup_cons, List.lookup_cons, ih]
      cases key == row.1 with
      | true => rfl
      | false => rfl

theorem missed_expireCycle {devices : DeviceTable} (hKept : WellKept devices) :
    missed (expireCycle devices).1 key =
      ((missed devices key).map (· + 1)).filter fun n => decide (n < 3) := by
  have hKeys : ((aged devices).map (·.1)).Nodup := by
    have hSame : (aged devices).map (·.1) = devices.map (·.1) := by
      unfold aged
      rw [List.map_map]
      rfl
    rw [hSame]
    exact hKept.keys
  rw [expireCycle_eq]
  unfold missed
  rw [lookup_filter hKeys, lookup_aged]
  cases hLookup : devices.lookup key with
  | none => rfl
  | some entry =>
      have hNext := missedCycles_succ (hKept.fresh _ (mem_of_lookup hLookup))
      have hBound : entry.missedCycles + 1 < missedCyclesToExpire ↔
          entry.missedCycles.toNat + 1 < 3 := by
        rw [UInt8.lt_iff_toNat_lt, hNext]
        rfl
      by_cases hFew : entry.missedCycles + 1 < missedCyclesToExpire
      · rw [Option.map_some, Option.filter_some_pos (by simpa using hFew), Option.map_some,
          Option.map_some, Option.map_some, Option.filter_some_pos (by simpa using hBound.mp hFew)]
        exact congrArg some hNext
      · have hMany : ¬ entry.missedCycles.toNat + 1 < 3 := fun h => hFew (hBound.mpr h)
        rw [Option.map_some, Option.filter_some_neg (by simpa using hFew), Option.map_some,
          Option.map_some, Option.filter_some_neg (by simpa using hMany)]
        rfl

theorem missed_tableAfter {devices : DeviceTable} (hKept : WellKept devices) (m : LoopTurn) :
    missed (tableAfter parsePacket devices m.label.branch) key =
      if announces parsePacket key m then some 0
      else if isTick m then ((missed devices key).map (· + 1)).filter fun n => decide (n < 3)
      else missed devices key := by
  unfold announces isTick
  cases m.label.branch with
  | tick => exact missed_expireCycle hKept
  | shutdown closed value => rfl
  | rescan closed => rfl
  | recv result =>
      cases result with
      | error error => rfl
      | ok data =>
          cases hParsed : parsePacket data with
          | error error =>
              simp only [tableAfter, announced, hParsed]
              rfl
          | ok found =>
              simp only [tableAfter, announced, hParsed]
              exact missed_upsertAll devices found

/-! ## Runs -/

/-- The step lemma: the count kept in the table goes with the ticks. -/
theorem filter_sinceStep (n : Option Nat) (m : LoopTurn) :
    (sinceStep parsePacket key n m).filter (fun k => decide (k < 3)) =
      if announces parsePacket key m then some 0
      else if isTick m then
        ((n.filter fun k => decide (k < 3)).map (· + 1)).filter fun k => decide (k < 3)
      else n.filter fun k => decide (k < 3) := by
  unfold sinceStep
  cases announces parsePacket key m with
  | true => rfl
  | false =>
      cases isTick m with
      | false => rfl
      | true =>
          cases n with
          | none => rfl
          | some k =>
              by_cases hFew : k < 3
              · simp [Option.filter_some, hFew]
              · have hMany : ¬ k + 1 < 3 := by omega
                simp [Option.filter_some, hFew, hMany]

/-- **The table lists who was announced fewer than three ticks ago**, with
that many missed cycles. -/
theorem run_missedCycles {turns : List LoopTurn} {c : Stage mdnsSig DeviceTable}
    (hRun : Run (runWithDest parsePacket).turns turns c) :
    ∃ devices, At c devices ∧ WellKept devices ∧ ∀ key,
      missed devices key = (since parsePacket key turns).filter fun n => decide (n < 3) := by
  apply hRun.traceInvariant
  · rintro c ⟨ops, o, hExec, rfl⟩
    obtain ⟨_, hAt⟩ := startUp_current ops o hExec
    exact ⟨[], hAt, wellKept_nil, fun key => rfl⟩
  · rintro turns c turn c' - ⟨devices, hAt, hKept, hMissed⟩ ⟨s, rfl, -, o, hExec, rfl⟩
    obtain rfl : s = devices := by
      rcases hAt with hAt | hAt
      · cases hAt
        rfl
      · cases hAt
    refine ⟨_, branchBody_table s turn.branch _ _ hExec, tableAfter_kept hKept turn.branch, ?_⟩
    intro key
    rw [since_concat, filter_sinceStep, ← hMissed]
    exact missed_tableAfter hKept ⟨.parked s, turn, stageOf o⟩

theorem at_unique {c : Stage mdnsSig DeviceTable} {devices devices' : DeviceTable}
    (h : At c devices) (h' : At c devices') : devices = devices' := by
  rcases h with rfl | rfl
  · rcases h' with h' | h'
    · cases h'
      rfl
    · cases h'
  · rcases h' with h' | h'
    · cases h'
    · cases h'
      rfl

theorem listed_iff {turns : List LoopTurn} {c : Stage mdnsSig DeviceTable}
    (hRun : Run (runWithDest parsePacket).turns turns c) :
    Listed c key ↔ ∃ n, since parsePacket key turns = some n ∧ n < 3 := by
  obtain ⟨devices, hAt, _, hMissed⟩ := run_missedCycles hRun
  have hSome : Listed c key ↔ (missed devices key).isSome = true := by
    rw [← lookup_isSome]
    constructor
    · rintro ⟨others, hOthers, hMem⟩
      rw [at_unique hAt hOthers]
      exact hMem
    · exact fun hMem => ⟨devices, hAt, hMem⟩
  rw [hSome, hMissed, Option.isSome_iff_exists]
  simp

/-- At a tick, the law asks for one thing: that nobody's last announcement
lies two ticks back. -/
theorem expiresAsMissed_iff {past : List LoopTurn} {m : LoopTurn} {c : Stage mdnsSig DeviceTable}
    (hPre : Run (runWithDest parsePacket).turns past m.pre)
    (hPost : Run (runWithDest parsePacket).turns (past ++ [m]) c) (hEnd : c = m.post)
    (hTick : isTick m = true) :
    ExpiresAsMissed parsePacket past m ↔ ∀ key, since parsePacket key past ≠ some 2 := by
  subst hEnd
  have hBefore : ∀ key, Listed m.pre key ↔ ∃ n, since parsePacket key past = some n ∧ n < 3 :=
    fun key => listed_iff hPre
  have hAfter : ∀ key, Listed m.post key ↔ ∃ n, since parsePacket key past = some n ∧ n < 2 := by
    intro key
    rw [listed_iff hPost, since_concat, sinceStep, announces_tick hTick, hTick]
    simp only [Bool.false_eq_true, if_false, if_true, Option.map_eq_some_iff]
    constructor
    · rintro ⟨_, ⟨n, hSince, rfl⟩, hFew⟩
      exact ⟨n, hSince, by omega⟩
    · rintro ⟨n, hSince, hFew⟩
      exact ⟨n + 1, ⟨n, hSince, rfl⟩, by omega⟩
  unfold ExpiresAsMissed
  constructor
  · intro hLaw key hTwo
    have hKept := (hLaw key).2 (announcedWithin_iff.mpr ⟨2, hTwo, by decide⟩)
    obtain ⟨n, hSince, hFew⟩ := (hAfter key).mp hKept
    rw [hTwo] at hSince
    cases hSince
    omega
  · intro hNever key
    constructor
    · intro hListed
      obtain ⟨n, hSince, hFew⟩ := (hBefore key).mp hListed
      have hTwo : n ≠ 2 := fun h => hNever key (h ▸ hSince)
      rw [missedCycles_iff hSince, hAfter]
      simp only [hSince, Option.some.injEq, exists_eq_left']
      omega
    · intro hWithin
      obtain ⟨n, hSince, hFew⟩ := announcedWithin_iff.mp hWithin
      have hTwo : n ≠ 2 := fun h => hNever key (h ▸ hSince)
      have hThree : missedCyclesToExpire.toNat = 3 := rfl
      exact (hAfter key).mpr ⟨n, hSince, by omega⟩

/-- Whoever has not been announced for longer was not for two ticks first. -/
theorem exists_two_back {past : List LoopTurn} {n : Nat} (hSince : since parsePacket key past = some n)
    (hMany : 2 < n) :
    ∃ first tick rest, past = first ++ tick :: rest ∧ isTick tick = true ∧
      since parsePacket key first = some 2 := by
  obtain ⟨before, a, after, rfl, hAnnounces, hSilent, hCount⟩ := since_eq_some hSince
  have hSome : 2 < after.countP isTick := by omega
  obtain ⟨first, tick, rest, rfl, hTick, hTwo⟩ := exists_split_countP after hSome
  refine ⟨before ++ a :: first, tick, rest, by simp, hTick, ?_⟩
  have hHere : since parsePacket key (before ++ [a]) = some 0 := by
    rw [since_concat, sinceStep, if_pos hAnnounces]
  have hFirst := since_silent (before ++ [a]) first fun m hMem => hSilent m (by simp [hMem])
  rw [hHere, hTwo] at hFirst
  simpa using hFirst

theorem since_isSome {past : List LoopTurn}
    (hSome : ∃ a ∈ past, announces parsePacket key a = true) :
    ∃ n, since parsePacket key past = some n := by
  obtain ⟨a, hMem, hAnnounces⟩ := hSome
  obtain ⟨before, after, rfl⟩ := List.append_of_mem hMem
  have hHere : since parsePacket key (before ++ [a]) = some 0 := by
    rw [since_concat, sinceStep, if_pos hAnnounces]
  obtain ⟨n, hSince, _⟩ := since_le (before ++ [a]) after hHere
  exact ⟨n, by simpa using hSince⟩

variable (parsePacket) in
/-- **When the expiry law holds.**  In every interleaving of ticks, packets
and rescans, every tick drops exactly who missed three query cycles in a row,
if and only if whoever was announced is announced again during one of the
last two cycles before every tick. -/
theorem expiry_law_iff {turns : List LoopTurn} {c : Stage mdnsSig DeviceTable}
    (hRun : Run (runWithDest parsePacket).turns turns c) :
    ExpiryLaw parsePacket turns ↔ NeverSilent parsePacket turns := by
  have hTicks : ∀ past m later, turns = past ++ m :: later → isTick m = true →
      (ExpiresAsMissed parsePacket past m ↔ ∀ key, since parsePacket key past ≠ some 2) := by
    intro past m later hSplit hTick
    subst hSplit
    have hPre := hRun.step_run.1
    have hPost := hPre.step hRun.step_run.2
    exact expiresAsMissed_iff hPre hPost rfl hTick
  constructor
  · intro hLaw past m later hSplit hTick key hSome
    obtain ⟨n, hSince⟩ := since_isSome hSome
    refine announcedWithin_iff.mpr ⟨n, hSince, ?_⟩
    refine Classical.byContradiction fun hLate => ?_
    by_cases hTwo : n = 2
    · exact (hTicks past m later hSplit hTick).mp (hLaw past m later hSplit hTick) key (hTwo ▸ hSince)
    · -- then an earlier tick was the one that dropped the device
      obtain ⟨first, tick, rest, rfl, hEarlier, hBack⟩ := exists_two_back hSince (by omega)
      have hSplit' : turns = first ++ tick :: (rest ++ m :: later) := by simpa using hSplit
      exact (hTicks first tick _ hSplit' hEarlier).mp (hLaw first tick _ hSplit' hEarlier) key hBack
  · intro hNever past m later hSplit hTick
    refine (hTicks past m later hSplit hTick).mpr fun key hTwo => ?_
    obtain ⟨before, a, after, hPast, hAnnounces, _⟩ := since_eq_some hTwo
    obtain ⟨n, hSince, hFew⟩ := announcedWithin_iff.mp
      (hNever past m later hSplit hTick key ⟨a, by simp [hPast], hAnnounces⟩)
    rw [hTwo] at hSince
    cases hSince
    omega

end Parsing

/-! ## One receiver -/

/-- Every packet announces the one receiver. -/
def oneReceiver : List Byte → Except DnsError (List DiscoveredDevice) :=
  fun _ => .ok [⟨0x0A000002, 8009, "Living Room", none⟩]

def willing : Oracle mdnsSig
  | .fromStd | .sendTo _ => .ok ()
  | .subscribe | .emit _ => ()

/-- The turns of a loop that is given these branches one after another. -/
def turnsOf (branches : List Branch) : List LoopTurn :=
  ((runWithDest oneReceiver).play (.parked []) (branches.map fun b => (b, willing))).1

theorem turnsOf_run (branches : List Branch) :
    ∃ c, Run (runWithDest oneReceiver).turns (turnsOf branches) c := by
  have hInit : (runWithDest oneReceiver).turns.init (.parked []) :=
    ⟨_, _, exec_answerWith willing startUp, rfl⟩
  have hAdmits : ∀ c, (runWithDest oneReceiver).Admits c
      (branches.map fun b => (b, willing)) := by
    induction branches with
    | nil => intro c; cases c <;> trivial
    | cons b branches ih =>
        intro c
        cases c with
        | parked devices => exact ⟨trivial, ih _⟩
        | exited devices => trivial
        | faulted reason => trivial
  exact ⟨_, play_run (.start hInit) (hAdmits (.parked []))⟩

/-- A receiver announced during the first of three cycles is dropped at their
end, two missed cycles later. -/
theorem announced_receiver_dropped :
    ¬ ∀ (parse : List Byte → Except DnsError (List DiscoveredDevice)) (turns : List LoopTurn)
      (c : Stage mdnsSig DeviceTable), Run (runWithDest parse).turns turns c →
        ExpiryLaw parse turns := by
  intro hAll
  obtain ⟨c, hRun⟩ := turnsOf_run [.tick, .recv (.ok []), .tick, .tick, .tick]
  have hLaw := hAll oneReceiver _ c hRun
  have hSplit : turnsOf [.tick, .recv (.ok []), .tick, .tick, .tick] =
      turnsOf [.tick, .recv (.ok []), .tick, .tick] ++
        ⟨.parked [((0x0A000002, 8009), ⟨"Living Room", none, 2⟩)],
          ⟨.tick, [⟨.sendTo buildPtrQuery, .ok ()⟩, ⟨.emit (snapshot []), ()⟩]⟩,
          .parked []⟩ :: [] := rfl
  have hKept := (hLaw _ _ _ hSplit rfl (0x0A000002, 8009)).2
    (announcedWithin_iff.mpr ⟨2, rfl, by decide⟩)
  obtain ⟨devices, hAt, hMem⟩ := hKept
  rcases hAt with hAt | hAt
  · cases hAt
    cases hMem
  · cases hAt

/-- A receiver that answers every query. -/
theorem answering_receiver_expiry :
    ExpiryLaw oneReceiver (turnsOf [.tick, .recv (.ok []), .tick, .recv (.ok []), .tick]) ↔
      NeverSilent oneReceiver (turnsOf [.tick, .recv (.ok []), .tick, .recv (.ok []), .tick]) :=
  have ⟨_, hRun⟩ := turnsOf_run [.tick, .recv (.ok []), .tick, .recv (.ok []), .tick]
  expiry_law_iff oneReceiver hRun

end CastApp.Cast.DiscoveryExpiry
