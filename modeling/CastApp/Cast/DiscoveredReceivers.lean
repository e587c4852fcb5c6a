import CastApp.Cast.DiscoveryExpiry
import CastApp.Cast.Responder
import CastApp.Util.SplitOn
import Mathlib.Tactic.FinCases

/-!
# The receivers the GUI is shown

The discovery loop on real packets.  What the GUI is shown is a function of
what was announced: the receivers whose latest announcement lies fewer than
three ticks back, each under the name and the identifier of that announcement.
And nobody is announced but by a datagram that starts with a message whose
records describe a device.

* `lastAnnounced` — the latest announcement of an address and port.
* `run_named` — the table has everybody's name from there.
* `query_announces_nobody` — the loop's own queries change nothing.
* **`receivers_follow_announcements`** — what is shown, behind every run.
-/

namespace CastApp.Cast.DiscoveredReceivers

open CastApp.State
open CastApp.Cast.Mdns
open CastApp.Cast.Dns
open CastApp.Cast.Correlate (correlate)
open CastApp.Cast.Responder
open CastApp.Util.Text (splitOn_singleton)
open CastApp.Util.Utf8
open CastApp.Cast.DiscoverySnapshots
open CastApp.Cast.DiscoveryExpiry
open CastApp.Verified.Coroutine
open CastApp.Verified.EventLoop
open CastApp.Verified.Transition

/-! ## What was announced -/

section Parsing

variable (parsePacket : List Byte → Except DnsError (List DiscoveredDevice))

/-- Everything announced, in order. -/
def announcements (past : List LoopTurn) : List DiscoveredDevice :=
  past.flatMap fun m => announced parsePacket m.label.branch

def lastOf (key : DeviceKey) (found : List DiscoveredDevice) : Option DiscoveredDevice :=
  (found.filter fun device => keyOf device == key).getLast?

/-- The latest announcement of an address and port. -/
def lastAnnounced (key : DeviceKey) (past : List LoopTurn) : Option DiscoveredDevice :=
  lastOf key (announcements parsePacket past)

/-- A device as it was announced last, fewer than three ticks ago. -/
def Recent (past : List LoopTurn) (device : DiscoveredDevice) : Prop :=
  lastAnnounced parsePacket (keyOf device) past = some device ∧
    ∃ n, since parsePacket (keyOf device) past = some n ∧ n < missedCyclesToExpire.toNat

end Parsing

/-- What the GUI is told of a device. -/
def receiverOf (device : DiscoveredDevice) : CastDevice where
  id := ipv4Text device.ip ++ ":" ++ toString device.port.toNat
  name := device.name
  addr := ⟨.v4 device.ip, device.port⟩
  tofuKey := receiverKey device.deviceId device.name device.ip

variable {parsePacket : List Byte → Except DnsError (List DiscoveredDevice)} {key : DeviceKey}

theorem lastOf_append (first later : List DiscoveredDevice) :
    lastOf key (first ++ later) = (lastOf key later).or (lastOf key first) := by
  unfold lastOf
  rw [List.filter_append, List.getLast?_append]

theorem lastAnnounced_concat (past : List LoopTurn) (m : LoopTurn) :
    lastAnnounced parsePacket key (past ++ [m]) =
      (lastOf key (announced parsePacket m.label.branch)).or
        (lastAnnounced parsePacket key past) := by
  unfold lastAnnounced announcements
  rw [List.flatMap_append, lastOf_append]
  simp

theorem lastOf_some {found : List DiscoveredDevice} {device : DiscoveredDevice}
    (h : lastOf key found = some device) : device ∈ found ∧ keyOf device = key := by
  obtain ⟨hMem, hKey⟩ := List.mem_filter.mp (List.mem_of_getLast? h)
  exact ⟨hMem, by simpa using hKey⟩

theorem lastOf_none {found : List DiscoveredDevice} (h : lastOf key found = none) :
    (found.any fun device => keyOf device == key) = false := by
  have hNone := List.getLast?_eq_none_iff.mp h
  rw [List.any_eq_false]
  intro device hMem hKey
  have hIn : device ∈ found.filter fun device => keyOf device == key :=
    List.mem_filter.mpr ⟨hMem, hKey⟩
  rw [hNone] at hIn
  cases hIn

/-! ## Names in the table -/

/-- The name and the identifier a device is listed with. -/
def named (devices : DeviceTable) (key : DeviceKey) : Option (String × Option String) :=
  (devices.lookup key).map fun entry => (entry.name, entry.deviceId)

def factsOf (device : DiscoveredDevice) : String × Option String := (device.name, device.deviceId)

theorem named_upsertDevice (devices : DeviceTable) (device : DiscoveredDevice) :
    named (upsertDevice devices device).1 key =
      if keyOf device = key then some (factsOf device) else named devices key := by
  unfold upsertDevice named keyOf
  cases hLookup : devices.lookup ((device.ip, device.port) : DeviceKey) with
  | some entry =>
      simp only [hLookup]
      rw [lookup_refresh]
      by_cases hHere : ((device.ip, device.port) : DeviceKey) = key
      · subst hHere
        simp [hLookup, factsOf]
      · simp [hHere]
  | none =>
      simp only [hLookup]
      rw [List.lookup_append]
      by_cases hHere : ((device.ip, device.port) : DeviceKey) = key
      · subst hHere
        simp [hLookup, factsOf]
      · have hOther : (key == ((device.ip, device.port) : DeviceKey)) = false := by
          simpa using fun h => hHere h.symm
        simp [List.lookup_cons, hOther, hHere]

theorem named_upsertAll (devices : DeviceTable) (found : List DiscoveredDevice) :
    named (upsertAll devices found).1 key =
      ((lastOf key found).map factsOf).or (named devices key) := by
  induction found generalizing devices with
  | nil => rfl
  | cons device found ih =>
      show named (upsertAll (upsertDevice devices device).1 found).1 key = _
      rw [ih, named_upsertDevice, ← List.singleton_append, lastOf_append]
      cases hLater : lastOf key found with
      | some later => rfl
      | none =>
          by_cases hHere : keyOf device = key
          · simp [lastOf, hHere]
          · simp [lastOf, hHere]

/-- Who is still listed is listed as before. -/
theorem named_expireCycle {devices : DeviceTable} (hKept : WellKept devices)
    {facts : String × Option String} (h : named (expireCycle devices).1 key = some facts) :
    named devices key = some facts := by
  have hKeys : ((aged devices).map (·.1)).Nodup := by
    have hSame : (aged devices).map (·.1) = devices.map (·.1) := by
      unfold aged
      rw [List.map_map]
      rfl
    rw [hSame]
    exact hKept.keys
  rw [expireCycle_eq] at h
  unfold named at h ⊢
  rw [lookup_filter hKeys, lookup_aged] at h
  cases hLookup : devices.lookup key with
  | none =>
      rw [hLookup] at h
      cases h
  | some entry =>
      rw [hLookup] at h
      obtain ⟨found, hFound, hFacts⟩ := Option.map_eq_some_iff.mp h
      obtain ⟨hSame, -⟩ := Option.filter_eq_some_iff.mp hFound
      cases hSame
      exact congrArg some hFacts

/-- One turn: whoever is listed is named as announced. -/
theorem named_tableAfter {devices : DeviceTable} (hKept : WellKept devices) {past : List LoopTurn}
    {m : LoopTurn}
    (hNamed : ∀ facts, named devices key = some facts →
      (lastAnnounced parsePacket key past).map factsOf = some facts)
    {facts : String × Option String}
    (h : named (tableAfter parsePacket devices m.label.branch) key = some facts) :
    (lastAnnounced parsePacket key (past ++ [m])).map factsOf = some facts := by
  rw [lastAnnounced_concat]
  cases hBranch : m.label.branch with
  | shutdown closed value =>
      rw [hBranch] at h
      exact hNamed facts h
  | tick =>
      rw [hBranch] at h
      exact hNamed facts (named_expireCycle hKept h)
  | rescan closed =>
      rw [hBranch] at h
      exact hNamed facts h
  | recv result =>
      rw [hBranch] at h
      cases result with
      | error error => exact hNamed facts h
      | ok data =>
          simp only [tableAfter] at h
          simp only [announced]
          cases hParsed : parsePacket data with
          | error error =>
              simp only [hParsed] at h ⊢
              exact hNamed facts h
          | ok found =>
              simp only [hParsed] at h ⊢
              rw [named_upsertAll] at h
              cases hLast : lastOf key found with
              | none =>
                  rw [hLast] at h
                  exact hNamed facts h
              | some device =>
                  rw [hLast] at h
                  exact h

/-- Behind every run, whoever is listed is named as announced last. -/
theorem run_named {turns : List LoopTurn} {c : Stage mdnsSig DeviceTable}
    (hRun : Run (runWithDest parsePacket).turns turns c) :
    ∃ devices, At c devices ∧ WellKept devices ∧ ∀ key facts, named devices key = some facts →
      (lastAnnounced parsePacket key turns).map factsOf = some facts := by
  apply hRun.traceInvariant
  · rintro c ⟨ops, o, hExec, rfl⟩
    obtain ⟨_, hAt⟩ := startUp_current ops o hExec
    exact ⟨[], hAt, wellKept_nil, fun key facts h => by cases h⟩
  · rintro turns c turn c' - ⟨devices, hAt, hKept, hNamed⟩ ⟨s, rfl, -, o, hExec, rfl⟩
    obtain rfl : s = devices := by
      rcases hAt with hAt | hAt
      · cases hAt
        rfl
      · cases hAt
    refine ⟨_, branchBody_table s turn.branch _ _ hExec, tableAfter_kept hKept turn.branch, ?_⟩
    exact fun key facts h => named_tableAfter (m := ⟨.parked s, turn, stageOf o⟩) hKept
      (hNamed key) h

/-! ## What is shown -/

theorem mem_announcements {past : List LoopTurn} {device : DiscoveredDevice} :
    device ∈ announcements packetParser past ↔
      ∃ m ∈ past, ∃ data records stop, m.label.branch = .recv (.ok data) ∧
        MessageAt data records stop ∧ device ∈ correlate records := by
  unfold announcements
  rw [List.mem_flatMap]
  constructor
  · rintro ⟨m, hMem, hDevice⟩
    refine ⟨m, hMem, ?_⟩
    cases hBranch : m.label.branch with
    | shutdown closed value => simp [hBranch, announced] at hDevice
    | tick => simp [hBranch, announced] at hDevice
    | rescan closed => simp [hBranch, announced] at hDevice
    | recv result =>
        cases result with
        | error error => simp [hBranch, announced] at hDevice
        | ok data =>
            simp only [hBranch, announced] at hDevice
            cases hParsed : packetParser data with
            | error error => simp [hParsed] at hDevice
            | ok found =>
                simp only [hParsed] at hDevice
                obtain ⟨records, stop, hMessage, rfl⟩ :=
                  parsePacket_iff.mp (packetParser_ok.mp hParsed)
                exact ⟨data, records, stop, rfl, hMessage, hDevice⟩
  · rintro ⟨m, hMem, data, records, stop, hBranch, hMessage, hDevice⟩
    have hParsed := packetParser_ok.mpr (parsePacket_iff.mpr ⟨records, stop, hMessage, rfl⟩)
    refine ⟨m, hMem, ?_⟩
    simp only [hBranch, announced, hParsed]
    exact hDevice

theorem deviceOf_eq {device : DiscoveredDevice} {entry : DeviceEntry}
    (h : factsOf device = (entry.name, entry.deviceId)) :
    deviceOf (keyOf device, entry) = receiverOf device := by
  obtain ⟨hName, hId⟩ := Prod.ext_iff.mp h
  simp only [factsOf] at hName hId
  simp only [deviceOf, receiverOf, keyOf, hName, hId]

/-- A row of the table is a device that was announced recently, and the other
way round. -/
theorem mem_table_iff {turns : List LoopTurn} {c : Stage mdnsSig DeviceTable}
    {devices : DeviceTable} (hRun : Run (runWithDest parsePacket).turns turns c)
    (hAt : At c devices) (receiver : CastDevice) :
    receiver ∈ devices.map deviceOf ↔
      ∃ device, Recent parsePacket turns device ∧ receiver = receiverOf device := by
  obtain ⟨others, hOthers, hKept, hMissed⟩ := run_missedCycles hRun
  obtain rfl := at_unique hAt hOthers
  obtain ⟨others, hOthers, -, hNamed⟩ := run_named hRun
  obtain rfl := at_unique hAt hOthers
  constructor
  · intro hReceiver
    obtain ⟨⟨key, entry⟩, hRow, rfl⟩ := List.mem_map.mp hReceiver
    have hLookup := lookup_of_mem hKept.keys hRow
    have hFacts : named devices key = some (entry.name, entry.deviceId) := by
      unfold named
      rw [hLookup]
      rfl
    obtain ⟨device, hLast, hSame⟩ := Option.map_eq_some_iff.mp (hNamed key _ hFacts)
    obtain ⟨-, rfl⟩ := lastOf_some hLast
    have hCount : missed devices (keyOf device) = some entry.missedCycles.toNat := by
      unfold missed
      rw [hLookup]
      rfl
    rw [hMissed] at hCount
    obtain ⟨hSince, hFew⟩ := Option.filter_eq_some_iff.mp hCount
    exact ⟨device, ⟨hLast, _, hSince, of_decide_eq_true hFew⟩, deviceOf_eq hSame⟩
  · rintro ⟨device, ⟨hLast, n, hSince, hFew⟩, rfl⟩
    have hCount : missed devices (keyOf device) = some n := by
      rw [hMissed, hSince]
      exact Option.filter_some_pos (decide_eq_true hFew)
    obtain ⟨entry, hLookup, -⟩ := Option.map_eq_some_iff.mp hCount
    have hFacts := hNamed (keyOf device) (entry.name, entry.deviceId) (by
      unfold named
      rw [hLookup]
      rfl)
    rw [hLast] at hFacts
    exact List.mem_map.mpr ⟨_, mem_of_lookup hLookup, deviceOf_eq (Option.some.inj hFacts)⟩

def serviceLabels : List (List Byte) :=
  [ [95, 103, 111, 111, 103, 108, 101, 99, 97, 115, 116], [95, 116, 99, 112]
  , [108, 111, 99, 97, 108] ]

theorem nameBytes_service : nameBytes googlecastService = labelBytes serviceLabels := by
  have hSplit := splitOn_singleton '.' googlecastService
  have hDot : String.ofList ['.'] = "." := rfl
  have hLabels : googlecastService.splitOn "." = ["_googlecast", "_tcp", "local"] := by
    rw [hDot] at hSplit
    rw [hSplit]
    rfl
  unfold nameBytes
  rw [hLabels]
  decide +kernel

/-- The query of the loop, which the network may hand back to it, announces
nobody. -/
theorem query_announces_nobody : packetParser buildPtrQuery = .ok [] := by
  have hBytes : buildPtrQuery = [0, 0, 0, 0, 0, 1, 0, 0, 0, 0, 0, 0] ++
      (labelBytes serviceLabels ++ [0, 12, 0, 1]) := by
    unfold buildPtrQuery
    rw [nameBytes_service, List.append_assoc]
  have hValid : ValidLabels serviceLabels := by
    intro label hMem
    fin_cases hMem
    · decide
    · decide
    · decide
  have hName : NameAt buildPtrQuery 12 (".".intercalate (serviceLabels.map fromUtf8Lossy)) 36 := by
    rw [hBytes]
    exact ⟨serviceLabels, [], resolves_labelBytes hValid rfl, List.nodup_nil, Nat.zero_le _, rfl⟩
  have hU16 : ∀ pos value, U16At ([0, 0, 0, 0, 0, 1, 0, 0, 0, 0, 0, 0] ++
      (labelBytes serviceLabels ++ [0, 12, 0, 1])) pos value → U16At buildPtrQuery pos value := by
    intro pos value h
    rw [hBytes]
    exact h
  have hQuestion : QuestionsAt buildPtrQuery 12 1 40 :=
    .cons hName (hU16 36 12 ⟨_, _, rfl, rfl⟩) (hU16 38 1 ⟨_, _, rfl, rfl⟩) .nil
  have hMessage : MessageAt buildPtrQuery [] 40 :=
    .mk (hU16 0 0 ⟨_, _, rfl, rfl⟩) (hU16 2 0 ⟨_, _, rfl, rfl⟩) (hU16 4 1 ⟨_, _, rfl, rfl⟩)
      (hU16 6 0 ⟨_, _, rfl, rfl⟩) (hU16 8 0 ⟨_, _, rfl, rfl⟩) (hU16 10 0 ⟨_, _, rfl, rfl⟩)
      hQuestion .nil rfl
  exact packetParser_ok.mpr (parsePacket_iff.mpr ⟨[], 40, hMessage, rfl⟩)

/-- **The receivers shown are those announced.**  In every interleaving of
packets, ticks and rescans, whatever the packets say, the snapshot shown last
consists of the devices whose latest announcement is fewer than three ticks
old, under the name and the identifier announced then; and each of them was
described, as a whole, by the message one of the packets starts with. -/
theorem receivers_follow_announcements {turns : List LoopTurn} {c : Stage mdnsSig DeviceTable}
    (hRun : Run (runWithDest packetParser).turns turns c) :
    (∀ receiver, receiver ∈ shown (opsOf turns) ↔
      ∃ device, Recent packetParser turns device ∧ receiver = receiverOf device) ∧
    ∀ device, Recent packetParser turns device → ∃ m ∈ turns, ∃ data records stop,
      m.label.branch = .recv (.ok data) ∧ MessageAt data records stop ∧
        device ∈ correlate records := by
  constructor
  · intro receiver
    obtain ⟨devices, hAt, -, hShown⟩ := turns_current packetParser hRun
    rw [hShown.devices.mem_iff]
    exact mem_table_iff hRun hAt receiver
  · rintro device ⟨hLast, -⟩
    exact mem_announcements.mp (lastOf_some hLast).1

/-! ## A television -/

/-- The answer of a television called TV, its names abbreviated. -/
def service : Labels :=
  [ ⟨[95, 103, 111, 111, 103, 108, 101, 99, 97, 115, 116], by decide, by decide⟩
  , ⟨[95, 116, 99, 112], by decide, by decide⟩
  , ⟨[108, 111, 99, 97, 108], by decide, by decide⟩ ]

def television : WireName := .under [⟨[84, 86], by decide, by decide⟩]

def televisionAnswer : Response where
  id := 0
  flags := 0x8400
  ancount := 1
  nscount := 0
  arcount := 3
  service := service
  first := ⟨.whole service, 1, 120, .ptr television, by decide⟩
  rest :=
    [ ⟨television, 1, 120, .srv 0 0 8009 television, by decide⟩
    , ⟨television, 1, 120, .txt [⟨[102, 110, 61, 84, 86], by decide⟩], by decide⟩
    , ⟨television, 1, 120, .a 0x0A000002, by decide⟩ ]
  hFirst := rfl
  hCount := rfl

def televisionDevice : DiscoveredDevice := ⟨0x0A000002, 8009, "TV", none⟩

theorem television_described :
    Dns.parsePacket televisionAnswer.bytes = .ok [televisionDevice] := by
  have hText : nameText service = googlecastService := by decide +kernel
  have hFn : Correlate.txtValue Correlate.fnKey [[102, 110, 61, 84, 86]] = some "TV" := by
    decide +kernel
  have hId : Correlate.txtValue Correlate.idKey [[102, 110, 61, 84, 86]] = none := by
    decide +kernel
  have hAll : ∀ inst : String,
      correlate
        [ ⟨googlecastService, typePtr, 120, .ptr inst⟩
        , ⟨inst, typeSrv, 120, .srv 0 0 8009 inst⟩
        , ⟨inst, typeTxt, 120, .txt [[102, 110, 61, 84, 86]]⟩
        , ⟨inst, typeA, 120, .a 0x0A000002⟩ ] = [televisionDevice] := by
    intro inst
    simp [Correlate.correlate_eq, Correlate.castInstances, Media.Mime.eqIgnoreAsciiCase,
      Correlate.describe, Correlate.found, Correlate.ofKind, Correlate.kindOf,
      Correlate.friendlyNameFromTxt, Correlate.idFromTxt, Correlate.valueFromTxt, hFn, hId,
      televisionDevice]
  have hRecords := hAll (nameText (television.labels service))
  rw [← hText] at hRecords
  obtain ⟨stop, hMessage⟩ := messageAt_bytes televisionAnswer []
  rw [List.append_nil] at hMessage
  exact parsePacket_iff.mpr ⟨televisionAnswer.records, stop, hMessage, hRecords.symm⟩

/-- A loop that hears a packet about a single device has heard of it recently. -/
theorem recent_of_parsed {data : List Byte} {device : DiscoveredDevice}
    (hParsed : packetParser data = .ok [device]) :
    ∃ turns c, Run (runWithDest packetParser).turns turns c ∧ Recent packetParser turns device := by
  have hInit : (runWithDest packetParser).turns.init (.parked []) :=
    ⟨_, _, exec_answerWith willing startUp, rfl⟩
  have hTurn := takesTurn_answerWith (runWithDest packetParser) [] (.recv (.ok data)) willing
    trivial
  have hRun := (Run.start hInit).step ⟨[], rfl, hTurn⟩
  have hAnnounced : announced packetParser (.recv (.ok data)) = [device] := by
    simp only [announced, hParsed]
  refine ⟨_, _, hRun, ?_, 0, ?_, by decide⟩
  · simp only [lastAnnounced, announcements, List.nil_append, List.flatMap_cons, List.flatMap_nil,
      hAnnounced]
    simp [lastOf]
  · simp [since, sinceStep, announces, hAnnounced]

/-- A loop that hears the answer shows the television. -/
theorem television_shown : ∃ turns c, Run (runWithDest packetParser).turns turns c ∧
    receiverOf televisionDevice ∈ shown (opsOf turns) := by
  obtain ⟨turns, c, hRun, hRecent⟩ :=
    recent_of_parsed (packetParser_ok.mpr television_described)
  exact ⟨turns, c, hRun, ((receivers_follow_announcements hRun).1 _).mpr ⟨_, hRecent, rfl⟩⟩

end CastApp.Cast.DiscoveredReceivers
