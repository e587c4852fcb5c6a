import CastApp.Cast.Mdns
import CastApp.Util.Display
import Mathlib.Data.List.Nodup

/-!
# Discovery snapshots

What the GUI was last told about the receivers, compared with the table the
discovery loop keeps.  Every operation on the table either leaves all
rendered devices as they were or says that it changed them, and then the
whole table is sent.

* `WellKept` — the table names every device once and keeps none that missed
  too many cycles.
* `Renders` — a list of devices is the table, sorted by identifier.
* `branchBody_announces` — one turn of the loop, for every branch.
* **`run_shown`** — in every interleaving, whenever the loop is parked or has
  been left, the last snapshot sent renders the table as it is.
-/

namespace CastApp.Cast.DiscoverySnapshots

open CastApp.State
open CastApp.Cast.Mdns
open CastApp.Util.Display
open CastApp.Verified.Coroutine
open CastApp.Verified.EventLoop
open CastApp.Verified.Transition

/-! ## The table and its rendering -/

structure WellKept (devices : DeviceTable) : Prop where
  keys : (devices.map (·.1)).Nodup
  fresh : ∀ row ∈ devices, row.2.missedCycles < missedCyclesToExpire

/-- The table as the GUI sees it. -/
structure Renders (devices : DeviceTable) (shown : List CastDevice) : Prop where
  devices : shown.Perm (devices.map deviceOf)
  sorted : shown.Pairwise fun a b => a.id ≤ b.id
  distinct : (shown.map (·.id)).Nodup

theorem wellKept_nil : WellKept [] := ⟨List.nodup_nil, by simp⟩

theorem renders_nil : Renders [] [] := ⟨.refl _, .nil, List.nodup_nil⟩

/-- Identifiers name the key of a row. -/
theorem deviceOf_id_inj {row row' : DeviceKey × DeviceEntry}
    (h : (deviceOf row).id = (deviceOf row').id) : row.1 = row'.1 := by
  obtain ⟨hIp, hPort⟩ := endpointText_inj h
  exact Prod.ext hIp (UInt16.toNat_inj.mp hPort)

theorem nodup_ids {devices : DeviceTable} (hKeys : (devices.map (·.1)).Nodup) :
    ((devices.map deviceOf).map (·.id)).Nodup := by
  rw [List.map_map]
  apply List.Nodup.map_on _ hKeys.of_map
  intro row hRow row' hRow' hId
  have hKey : row.1 = row'.1 := deviceOf_id_inj hId
  exact List.inj_on_of_nodup_map hKeys hRow hRow' hKey

/-- The rendered devices, sorted by identifier. -/
def sortedDevices (devices : DeviceTable) : List CastDevice :=
  (devices.map deviceOf).mergeSort fun a b => a.id ≤ b.id

/-- What `push_snapshot` sends renders the table. -/
theorem renders_sortedDevices {devices : DeviceTable} (hKept : WellKept devices) :
    Renders devices (sortedDevices devices) := by
  have hPerm : (sortedDevices devices).Perm (devices.map deviceOf) := List.mergeSort_perm _ _
  refine ⟨hPerm, ?_, ?_⟩
  · have hSorted := @List.pairwise_mergeSort _ (fun a b : CastDevice => decide (a.id ≤ b.id))
      (fun a b c hab hbc => by simpa using String.le_trans (by simpa using hab) (by simpa using hbc))
      (fun a b => by simpa using String.le_total a.id b.id) (devices.map deviceOf)
    simpa [sortedDevices] using hSorted
  · exact (hPerm.map (·.id)).nodup_iff.mpr (nodup_ids hKept.keys)

/-! ## Operations on the table -/

/-- A turn sent the table, or left everything it renders as it was. -/
def Announces (devices : DeviceTable) (changed : Bool) (devices' : DeviceTable) : Prop :=
  changed = false → devices'.map deviceOf = devices.map deviceOf

theorem mem_of_lookup {devices : DeviceTable} {key : DeviceKey} {entry : DeviceEntry}
    (h : devices.lookup key = some entry) : (key, entry) ∈ devices := by
  obtain ⟨before, after, rfl, -⟩ := List.lookup_eq_some_iff.mp h
  simp

theorem not_mem_of_lookup {devices : DeviceTable} {key : DeviceKey}
    (h : devices.lookup key = none) : key ∉ devices.map (·.1) := by
  intro hMem
  obtain ⟨row, hRow, rfl⟩ := List.mem_map.mp hMem
  have hNe := List.lookup_eq_none_iff.mp h row hRow
  simp at hNe

theorem upsertDevice_kept {devices : DeviceTable} (hKept : WellKept devices)
    (device : DiscoveredDevice) : WellKept (upsertDevice devices device).1 := by
  unfold upsertDevice
  cases hLookup : devices.lookup ((device.ip, device.port) : DeviceKey) with
  | none =>
      simp only [hLookup]
      have hNew := not_mem_of_lookup hLookup
      refine ⟨?_, fun row hRow => ?_⟩
      · rw [List.map_append]
        exact List.Nodup.append hKept.keys (List.nodup_singleton _) (by simpa using hNew)
      · rcases List.mem_append.mp hRow with hRow | hRow
        · exact hKept.fresh row hRow
        · obtain rfl := List.mem_singleton.mp hRow
          show (0 : UInt8) < missedCyclesToExpire
          decide
  | some entry =>
      simp only [hLookup]
      refine ⟨?_, fun row hRow => ?_⟩
      · have hSame : (devices.map fun row => if row.1 = (device.ip, device.port) then
            ((device.ip, device.port), ⟨device.name, device.deviceId, 0⟩) else row).map
            (·.1) = devices.map (·.1) := by
          rw [List.map_map]
          apply List.map_congr_left
          intro row _
          show (if row.1 = (device.ip, device.port) then _ else row : DeviceKey × DeviceEntry).1 = _
          split
          · next hKey => exact hKey.symm
          · rfl
        rw [hSame]
        exact hKept.keys
      · obtain ⟨old, hOld, rfl⟩ := List.mem_map.mp hRow
        split
        · show (0 : UInt8) < missedCyclesToExpire
          decide
        · exact hKept.fresh old hOld

/-- An unchanged device is rendered as before. -/
theorem upsertDevice_announces {devices : DeviceTable} (hKept : WellKept devices)
    (device : DiscoveredDevice) :
    Announces devices (upsertDevice devices device).2 (upsertDevice devices device).1 := by
  unfold upsertDevice Announces
  cases hLookup : devices.lookup ((device.ip, device.port) : DeviceKey) with
  | none =>
      simp only [hLookup]
      intro hFalse
      cases hFalse
  | some entry =>
      simp only [hLookup]
      intro hSame
      obtain ⟨hName, hId⟩ : entry.name = device.name ∧ entry.deviceId = device.deviceId := by
        simpa using hSame
      rw [List.map_map]
      apply List.map_congr_left
      intro row hRow
      show deviceOf (if row.1 = (device.ip, device.port) then _ else row) = deviceOf row
      split
      · next hKey =>
          have hEntry : row = ((device.ip, device.port), entry) :=
            List.inj_on_of_nodup_map hKept.keys hRow (mem_of_lookup hLookup) hKey
          rw [hEntry]
          simp only [deviceOf, hName, hId]
      · rfl

theorem upsertAll_kept {devices : DeviceTable} (hKept : WellKept devices)
    (found : List DiscoveredDevice) :
    WellKept (upsertAll devices found).1 ∧
      Announces devices (upsertAll devices found).2 (upsertAll devices found).1 := by
  induction found generalizing devices with
  | nil => exact ⟨hKept, fun _ => rfl⟩
  | cons device found ih =>
      have hFirst := upsertDevice_announces hKept device
      obtain ⟨hAll, hRest⟩ := ih (upsertDevice_kept hKept device)
      refine ⟨hAll, fun hUnchanged => ?_⟩
      have hFlags : (upsertDevice devices device).2 = false ∧
          (upsertAll (upsertDevice devices device).1 found).2 = false := by
        simpa [upsertAll] using hUnchanged
      exact (hRest hFlags.2).trans (hFirst hFlags.1)

/-- The counter of a kept entry does not overflow. -/
theorem missedCycles_succ {n : UInt8} (h : n < missedCyclesToExpire) :
    (n + 1).toNat = n.toNat + 1 := by
  have hNat : n.toNat < 3 := h
  rw [UInt8.toNat_add]
  have hOne : (1 : UInt8).toNat = 1 := rfl
  omega

/-- Every entry with one more missed cycle. -/
def aged (devices : DeviceTable) : DeviceTable :=
  devices.map fun row => (row.1, { row.2 with missedCycles := row.2.missedCycles + 1 })

theorem expireCycle_eq (devices : DeviceTable) :
    expireCycle devices =
      ((aged devices).filter fun row => row.2.missedCycles < missedCyclesToExpire,
        (aged devices).any fun row => missedCyclesToExpire ≤ row.2.missedCycles) := rfl

theorem expireCycle_kept {devices : DeviceTable} (hKept : WellKept devices) :
    WellKept (expireCycle devices).1 := by
  rw [expireCycle_eq]
  refine ⟨?_, fun row hRow => ?_⟩
  · have hKeys : (aged devices).map (·.1) = devices.map (·.1) := by
      unfold aged
      rw [List.map_map]
      rfl
    have hNodup := hKept.keys
    rw [← hKeys] at hNodup
    exact hNodup.sublist (List.filter_sublist.map _)
  · simpa using (List.mem_filter.mp hRow).2

/-- Without an expiry only counters move, and they are not rendered. -/
theorem expireCycle_announces (devices : DeviceTable) :
    Announces devices (expireCycle devices).2 (expireCycle devices).1 := by
  rw [expireCycle_eq]
  intro hNone
  have hAll : ((aged devices).filter fun row => decide (row.2.missedCycles < missedCyclesToExpire)) =
      aged devices := by
    apply List.filter_eq_self.mpr
    intro row hRow
    have hKeeps := List.any_eq_false.mp hNone row hRow
    simpa using hKeeps
  show ((aged devices).filter _).map deviceOf = _
  rw [hAll]
  unfold aged
  rw [List.map_map]
  rfl

/-! ## Turns -/

/-- The snapshots among the operations of the loop, in order. -/
def snapshots (ops : List (Entry mdnsSig)) : List (List CastDevice) :=
  ops.filterMap fun entry =>
    match entry.1 with
    | .emit (.receiversUpdated devices) => some devices
    | _ => none

theorem snapshots_append (first later : List (Entry mdnsSig)) :
    snapshots (first ++ later) = snapshots first ++ snapshots later := List.filterMap_append

/-- The last snapshot sent; nothing is shown before the first. -/
def shown (ops : List (Entry mdnsSig)) : List CastDevice := (snapshots ops).getLast?.getD []

/-- What a turn does: the table it leaves is sent at its end, or renders
what it rendered before. -/
inductive TableTurn (devices : DeviceTable) :
    List (Entry mdnsSig) → Outcome mdnsSig (Flow DeviceTable) → Prop
  | sent {ops : List (Entry mdnsSig)} {devices' : DeviceTable}
      {o : Outcome mdnsSig (Flow DeviceTable)} (hKept : WellKept devices')
      (hSent : snapshots ops = [sortedDevices devices'])
      (hOutcome : stageOf o = .parked devices' ∨ stageOf o = .exited devices') :
      TableTurn devices ops o
  | unchanged {ops : List (Entry mdnsSig)} {devices' : DeviceTable}
      {o : Outcome mdnsSig (Flow DeviceTable)} (hKept : WellKept devices')
      (hSilent : snapshots ops = []) (hSame : devices'.map deviceOf = devices.map deviceOf)
      (hOutcome : stageOf o = .parked devices' ∨ stageOf o = .exited devices') :
      TableTurn devices ops o

variable (parsePacket : List Byte → Except DnsError (List DiscoveredDevice))

theorem receive_announces {devices : DeviceTable} (hKept : WellKept devices)
    (result : Except IoError (List Byte)) :
    Ensures (do return Flow.park (← receive parsePacket devices result)) (TableTurn devices) := by
  cases result with
  | error error => exact ensures_pure.mpr (.unchanged hKept rfl rfl (.inl rfl))
  | ok data =>
      unfold receive
      cases hParsed : parsePacket data with
      | error error =>
          simp only [hParsed]
          exact ensures_pure.mpr (.unchanged hKept rfl rfl (.inl rfl))
      | ok found =>
          obtain ⟨hAll, hSame⟩ := upsertAll_kept hKept found
          simp only [hParsed]
          cases hChanged : (upsertAll devices found).2 with
          | false =>
              exact ensures_pure.mpr (.unchanged hAll rfl (hSame hChanged) (.inl rfl))
          | true =>
              show Ensures (ask (.emit (snapshot (upsertAll devices found).1)) >>= fun _ =>
                pure (Flow.park (upsertAll devices found).1)) _
              refine ensures_perform_bind.mpr fun _ => ?_
              exact ensures_pure.mpr (.sent hAll rfl (.inl rfl))

/-- One turn of the loop. -/
theorem branchBody_announces {devices : DeviceTable} (hKept : WellKept devices) (b : Branch) :
    Ensures (branchBody parsePacket devices b) (TableTurn devices) := by
  cases b with
  | shutdown closed value =>
      unfold branchBody
      cases hEnds : closed || value with
      | false =>
          simp only [hEnds]
          exact ensures_pure.mpr (.unchanged hKept rfl rfl (.inl rfl))
      | true =>
          simp only [hEnds]
          exact ensures_pure.mpr (.unchanged hKept rfl rfl (.inr rfl))
  | tick =>
      simp only [branchBody]
      refine ensures_perform_bind.mpr fun _ => ?_
      have hAged := expireCycle_kept hKept
      cases hChanged : (expireCycle devices).2 with
      | false =>
          exact ensures_pure.mpr
            (.unchanged hAged rfl (expireCycle_announces devices hChanged) (.inl rfl))
      | true =>
          show Ensures (ask (.emit (snapshot (expireCycle devices).1)) >>= fun _ =>
            pure (Flow.park (expireCycle devices).1)) _
          refine ensures_perform_bind.mpr fun _ => ?_
          exact ensures_pure.mpr (.sent hAged rfl (.inl rfl))
  | rescan closed =>
      simp only [branchBody]
      cases closed with
      | true => exact ensures_pure.mpr (.unchanged hKept rfl rfl (.inr rfl))
      | false =>
          refine ensures_perform_bind.mpr fun _ => ?_
          exact ensures_pure.mpr (.unchanged hKept rfl rfl (.inl rfl))
  | recv result => exact receive_announces parsePacket hKept result

/-! ## Runs -/

/-- Where the loop stands with its table. -/
def At (c : Stage mdnsSig DeviceTable) (devices : DeviceTable) : Prop :=
  c = .parked devices ∨ c = .exited devices

/-- The table is in order, and what was last sent renders it. -/
def Current (ops : List (Entry mdnsSig)) (c : Stage mdnsSig DeviceTable) : Prop :=
  ∃ devices, At c devices ∧ WellKept devices ∧ Renders devices (shown ops)

theorem startUp_current :
    Ensures startUp fun ops o => snapshots ops = [] ∧ At (stageOf o) [] := by
  unfold startUp
  refine ensures_perform_bind.mpr fun result => ?_
  cases result with
  | error error => exact ensures_pure.mpr ⟨rfl, .inr rfl⟩
  | ok _ =>
      refine ensures_perform_bind.mpr fun _ => ?_
      exact ensures_pure.mpr ⟨rfl, .inl rfl⟩

/-- A turn keeps the snapshots current. -/
theorem TableTurn.current {ops later : List (Entry mdnsSig)} {devices : DeviceTable}
    {o : Outcome mdnsSig (Flow DeviceTable)} (hShown : Renders devices (shown ops))
    (hTurned : TableTurn devices later o) : Current (ops ++ later) (stageOf o) := by
  cases hTurned with
  | sent hKept hSent hOutcome =>
      refine ⟨_, hOutcome, hKept, ?_⟩
      unfold shown
      rw [snapshots_append, hSent, List.getLast?_concat]
      exact renders_sortedDevices hKept
  | unchanged hKept hSilent hSame hOutcome =>
      refine ⟨_, hOutcome, hKept, ?_⟩
      unfold shown
      rw [snapshots_append, hSilent, List.append_nil]
      exact ⟨hSame ▸ hShown.devices, hShown.sorted, hShown.distinct⟩

/-- The run lemma, one turn per step. -/
theorem turns_current {turns : List (Move (Stage mdnsSig DeviceTable) (Turn mdnsSig Branch))}
    {c : Stage mdnsSig DeviceTable} (hRun : Run (runWithDest parsePacket).turns turns c) :
    Current (opsOf turns) c := by
  apply hRun.traceInvariant
  · rintro c ⟨ops, o, hExec, rfl⟩
    obtain ⟨-, hAt⟩ := startUp_current ops o hExec
    exact ⟨[], hAt, wellKept_nil, renders_nil⟩
  · rintro turns c turn c' - ⟨devices, hAt, hKept, hShown⟩ ⟨s, rfl, -, o, hExec, rfl⟩
    obtain rfl : s = devices := by
      rcases hAt with hAt | hAt
      · cases hAt
        rfl
      · cases hAt
    rw [opsOf_append, opsOf_singleton]
    exact (branchBody_announces parsePacket hKept turn.branch _ _ hExec).current hShown

/-- Nothing is sent before the first turn. -/
theorem turned_current {c : Stage mdnsSig DeviceTable} {ops : List (Entry mdnsSig)}
    (h : Turned (runWithDest parsePacket) c ops) : Current ops c := by
  obtain ⟨first, o, turns, hPrelude, hRun, rfl⟩ := h
  obtain ⟨devices, hAt, hKept, hShown⟩ := turns_current parsePacket hRun
  obtain ⟨hSilent, -⟩ := startUp_current first o hPrelude
  refine ⟨devices, hAt, hKept, ?_⟩
  unfold shown
  rw [snapshots_append, hSilent]
  exact hShown

/-- **Discovery snapshots are current.**  In every interleaving of packets,
ticks and rescans, whatever the packets say and whatever else happens around
the loop, whenever it is parked or has been left, the last snapshot sent is
the table rendered and sorted, with distinct identifiers, and no kept entry
has missed so many cycles that it should have expired. -/
theorem run_shown {ε ι : Type} {V : Environment mdnsSig DeviceTable Branch ε ι}
    {trace : List (Move (Control mdnsSig DeviceTable × ε) (Label mdnsSig Branch ι))}
    {c : Control mdnsSig DeviceTable} {e : ε} {devices : DeviceTable}
    (hRun : Run ((runWithDest parsePacket).small V) trace (c, e))
    (hAt : c = .parked devices ∨ c = .exited devices) :
    Renders devices (shown (answered trace)) ∧
      ∀ row ∈ devices, row.2.missedCycles < missedCyclesToExpire ∧
        (row.2.missedCycles + 1).toNat = row.2.missedCycles.toNat + 1 := by
  have hFollows := small_followsTurns hRun
  have hCurrent : ∃ stage, At stage devices ∧ Current (answered trace) stage := by
    rcases hAt with rfl | rfl
    · exact ⟨_, .inl rfl, turned_current parsePacket hFollows⟩
    · exact ⟨_, .inr rfl, turned_current parsePacket hFollows⟩
  obtain ⟨stage, hStage, devices', hAt', hKept, hShown⟩ := hCurrent
  obtain rfl : devices' = devices := by
    rcases hStage with rfl | rfl
    · rcases hAt' with h | h
      · cases h
        rfl
      · cases h
    · rcases hAt' with h | h
      · cases h
      · cases h
        rfl
  exact ⟨hShown, fun row hRow => ⟨hKept.fresh row hRow, missedCycles_succ (hKept.fresh row hRow)⟩⟩

/-- A loop that hears of one receiver. -/
theorem oneDevice_shown : ∃ trace e,
    Run ((runWithDest fun _ => .ok [⟨0x0A000002, 8009, "Living Room", none⟩]).small
        (surroundings .new true)) trace
      (.parked [((0x0A000002, 8009), ⟨"Living Room", none, 0⟩)], e) ∧
      Renders [((0x0A000002, 8009), ⟨"Living Room", none, 0⟩)] (shown (answered trace)) := by
  let parse : List Byte → Except DnsError (List DiscoveredDevice) :=
    fun _ => .ok [⟨0x0A000002, 8009, "Living Room", none⟩]
  let V := surroundings .new true
  have hStart : Run ((runWithDest parse).small V) [] (.running startUp, none) := .start ⟨rfl, rfl⟩
  have hIdle := ((hStart.step (.answer (.fromStd (.ok ())))).step (.answer .subscribe)).step
    (.park rfl)
  have hHeard := (hIdle.step (.fire trivial (.recv (.ok [])))).step (.answer .emit)
  have hParked := hHeard.step (.park rfl)
  exact ⟨_, _, hParked, (run_shown parse hParked (.inl rfl)).1⟩

end CastApp.Cast.DiscoverySnapshots
