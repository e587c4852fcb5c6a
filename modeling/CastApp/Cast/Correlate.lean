import CastApp.Cast.Dns
import CastApp.Media.Mime
import CastApp.Verified.HashMap
import Mathlib.Data.List.Forall2
import Mathlib.Data.List.Nodup

/-!
# Record correlation

How the records of one response become devices: a PTR record names an
instance, the SRV record of the instance gives the port and a target, the A
record of the target (or of the instance) the address, and the TXT record of
the instance the name and the identifier.  Owners are compared without regard
to ASCII case, by filing the records under their owners in lower case.

* `get_file` — what is filed: the last record of its kind.
* `describe_iff` — a device is what the records say of its instance.
* `correlation` — one device for each described instance, whatever the order
  of the records and the case of the names.
-/

namespace CastApp.Cast.Correlate

open CastApp.State
open CastApp.Util.Utf8
open CastApp.Verified
open CastApp.Cast.Mdns (DiscoveredDevice googlecastService)
open CastApp.Cast.Dns
open CastApp.Media.Mime (eqIgnoreAsciiCase)

/-! ## Text records -/

def lowerByte (b : Byte) : Byte := if 0x41 ≤ b ∧ b ≤ 0x5A then b + 0x20 else b

/-- `<[u8]>::eq_ignore_ascii_case`. -/
def eqIgnoreAsciiCaseBytes (a b : List Byte) : Bool := a.map lowerByte == b.map lowerByte

def equals : Byte := 0x3D

/-- The value of the first `key=` among the strings. -/
def txtValue (key : List Byte) : List (List Byte) → Option String
  | [] => none
  | entry :: strings =>
      match entry.findIdx? (· == equals) with
      | none => txtValue key strings
      | some i =>
          if eqIgnoreAsciiCaseBytes (entry.take i) key then
            some (fromUtf8Lossy (entry.drop (i + 1)))
          else
            txtValue key strings

def valueFromTxt (key : List Byte) (record : DnsRecord) : Option String :=
  match record.rdata with
  | .txt strings => txtValue key strings
  | _ => none

/-- `fn`. -/
def fnKey : List Byte := [0x66, 0x6E]

/-- `id`. -/
def idKey : List Byte := [0x69, 0x64]

def friendlyNameFromTxt (record : DnsRecord) : Option String := valueFromTxt fnKey record

def idFromTxt (record : DnsRecord) : Option String := valueFromTxt idKey record

/-- The first label of an instance name. -/
def instanceLabel (inst : String) : String := (inst.splitOn ".").headD inst

/-! ## Correlation -/

structure Filed where
  instances : List String
  srvByInstance : HashMap String DnsRecord
  txtByInstance : HashMap String DnsRecord
  aByHost : HashMap String DnsRecord

def Filed.empty : Filed := ⟨[], .empty, .empty, .empty⟩

def file (filed : Filed) (record : DnsRecord) : Filed :=
  match record.rdata with
  | .ptr inst =>
      if eqIgnoreAsciiCase record.owner googlecastService then
        { filed with instances := filed.instances ++ [inst] }
      else filed
  | .srv _ _ _ _ =>
      { filed with srvByInstance := filed.srvByInstance.insert record.owner.toLower record }
  | .txt _ =>
      { filed with txtByInstance := filed.txtByInstance.insert record.owner.toLower record }
  | .a _ => { filed with aByHost := filed.aByHost.insert record.owner.toLower record }
  | .other => filed

/-- The device of an instance, unless a record of it is missing. -/
def describe (srvOf txtOf aOf : String → Option DnsRecord) (inst : String) :
    Option DiscoveredDevice :=
  match srvOf inst.toLower with
  | none => none
  | some srv =>
      match srv.rdata with
      | .srv _ _ port target =>
          match (aOf target.toLower).or (aOf inst.toLower) with
          | none => none
          | some a =>
              match a.rdata with
              | .a ip =>
                  some
                    { ip := ip
                      port := port
                      name := ((txtOf inst.toLower).bind friendlyNameFromTxt).getD
                        (instanceLabel inst)
                      deviceId := (txtOf inst.toLower).bind idFromTxt }
              | _ => none
      | _ => none

def correlate (records : List DnsRecord) : List DiscoveredDevice :=
  let filed := records.foldl file .empty
  filed.instances.filterMap
    (describe filed.srvByInstance.get filed.txtByInstance.get filed.aByHost.get)

/-! ## What the records say -/

/-- The same name up to ASCII case. -/
def SameName (a b : String) : Prop := a.toLower = b.toLower

inductive Kind : Type
  | srv
  | txt
  | a
  deriving DecidableEq, Repr

def kindOf : RecordData → Option Kind
  | .srv _ _ _ _ => some .srv
  | .txt _ => some .txt
  | .a _ => some .a
  | .ptr _ | .other => none

/-- The records of a kind. -/
def ofKind (kind : Kind) (records : List DnsRecord) : List DnsRecord :=
  records.filter fun record => kindOf record.rdata == some kind

/-- No two records of a kind have the same owner. -/
def UniqueOwners (records : List DnsRecord) : Prop :=
  ∀ kind, ((ofKind kind records).map fun record => record.owner.toLower).Nodup

/-- The instances of the Cast service. -/
def castInstances (records : List DnsRecord) : List String :=
  records.filterMap fun record =>
    match record.rdata with
    | .ptr inst => if eqIgnoreAsciiCase record.owner googlecastService then some inst else none
    | _ => none

/-- An entry `key=value`, the key up to the first `=`. -/
def Carries (key entry value : List Byte) : Prop :=
  ∃ k, entry = k ++ equals :: value ∧ equals ∉ k ∧ k.map lowerByte = key.map lowerByte

/-- The value of the first entry with the key. -/
def FirstValue (key : List Byte) (strings : List (List Byte)) (value : String) : Prop :=
  ∃ before entry after bytes, strings = before ++ entry :: after ∧
    (∀ other ∈ before, ∀ v, ¬ Carries key other v) ∧ Carries key entry bytes ∧
    value = fromUtf8Lossy bytes

/-- What the TXT record of an instance has under a key. -/
def TxtOf (records : List DnsRecord) (inst : String) (key : List Byte) (value : String) : Prop :=
  ∃ record ∈ records, SameName record.owner inst ∧
    ∃ strings, record.rdata = .txt strings ∧ FirstValue key strings value

/-- The address of a host. -/
def AddressOf (records : List DnsRecord) (host : String) (ip : BitVec 32) : Prop :=
  ∃ record ∈ records, SameName record.owner host ∧ record.rdata = .a ip

/-- The records describe an instance as this device. -/
structure Described (records : List DnsRecord) (inst : String) (device : DiscoveredDevice) :
    Prop where
  service : ∃ record ∈ records, SameName record.owner inst ∧ ∃ priority weight target,
    record.rdata = .srv priority weight device.port target ∧
      (AddressOf records target device.ip ∨
        (∀ ip, ¬ AddressOf records target ip) ∧ AddressOf records inst device.ip)
  name : TxtOf records inst fnKey device.name ∨
    (∀ value, ¬ TxtOf records inst fnKey value) ∧ device.name = instanceLabel inst
  deviceId : ∀ value, device.deviceId = some value ↔ TxtOf records inst idKey value

/-! ## Text records, read -/

theorem findIdx_equals {k value : List Byte} (hKey : equals ∉ k) :
    (k ++ equals :: value).findIdx? (· == equals) = some k.length := by
  induction k with
  | nil => simp [List.findIdx?_cons]
  | cons b k ih =>
      have hHead : b ≠ equals := fun h => hKey (by simp [h])
      have hRest : equals ∉ k := fun h => hKey (by simp [h])
      rw [List.cons_append, List.findIdx?_cons, beq_false_of_ne hHead]
      simp [ih hRest]

theorem carries_iff {key entry value : List Byte} :
    Carries key entry value ↔ ∃ i, entry.findIdx? (· == equals) = some i ∧
      eqIgnoreAsciiCaseBytes (entry.take i) key = true ∧ value = entry.drop (i + 1) := by
  constructor
  · rintro ⟨k, rfl, hKey, hSame⟩
    exact ⟨k.length, findIdx_equals hKey, by simp [eqIgnoreAsciiCaseBytes, hSame], by simp⟩
  · rintro ⟨i, hFind, hSame, rfl⟩
    obtain ⟨hInside, hEquals, hBefore⟩ := List.findIdx?_eq_some_iff_getElem.mp hFind
    have hHere : entry[i] = equals := by simpa using hEquals
    refine ⟨entry.take i, ?_, ?_, by simpa [eqIgnoreAsciiCaseBytes] using hSame⟩
    · rw [← hHere, ← List.drop_eq_getElem_cons hInside, List.take_append_drop]
    · intro hMem
      obtain ⟨j, hj, hFound⟩ := List.mem_iff_getElem.mp hMem
      rw [List.length_take] at hj
      rw [List.getElem_take] at hFound
      exact hBefore j (by omega) (by simp [hFound])

theorem txtValue_carries {key entry value : List Byte} (h : Carries key entry value)
    (strings : List (List Byte)) :
    txtValue key (entry :: strings) = some (fromUtf8Lossy value) := by
  obtain ⟨i, hFind, hSame, rfl⟩ := carries_iff.mp h
  simp only [txtValue, hFind]
  rw [if_pos hSame]

theorem txtValue_other {key entry : List Byte} (h : ∀ value, ¬ Carries key entry value)
    (strings : List (List Byte)) : txtValue key (entry :: strings) = txtValue key strings := by
  cases hFind : entry.findIdx? (· == equals) with
  | none => simp only [txtValue, hFind]
  | some i =>
      simp only [txtValue, hFind]
      rw [if_neg fun hSame => h _ (carries_iff.mpr ⟨i, hFind, hSame, rfl⟩)]

theorem txtValue_iff {key : List Byte} {strings : List (List Byte)} {value : String} :
    txtValue key strings = some value ↔ FirstValue key strings value := by
  induction strings with
  | nil =>
      constructor
      · exact fun h => nomatch h
      · rintro ⟨before, entry, after, bytes, hSplit, _⟩
        simp at hSplit
  | cons entry strings ih =>
      by_cases hCarries : ∃ bytes, Carries key entry bytes
      · obtain ⟨bytes, hCarries⟩ := hCarries
        rw [txtValue_carries hCarries]
        constructor
        · intro h
          cases h
          exact ⟨[], entry, strings, bytes, rfl, by simp, hCarries, rfl⟩
        · rintro ⟨before, first, after, found, hSplit, hBefore, hFound, rfl⟩
          cases before with
          | nil =>
              obtain ⟨rfl, rfl⟩ := List.cons.inj hSplit
              have hValue := txtValue_carries hCarries strings
              rw [txtValue_carries hFound strings] at hValue
              exact hValue.symm
          | cons other before =>
              obtain ⟨rfl, _⟩ := List.cons.inj hSplit
              exact absurd hCarries (hBefore entry (by simp) bytes)
      · have hOther : ∀ bytes, ¬ Carries key entry bytes := fun bytes h => hCarries ⟨bytes, h⟩
        rw [txtValue_other hOther, ih]
        constructor
        · rintro ⟨before, first, after, found, rfl, hBefore, hFound, rfl⟩
          refine ⟨entry :: before, first, after, found, rfl, ?_, hFound, rfl⟩
          exact List.forall_mem_cons.mpr ⟨hOther, hBefore⟩
        · rintro ⟨before, first, after, found, hSplit, hBefore, hFound, rfl⟩
          cases before with
          | nil =>
              obtain ⟨rfl, rfl⟩ := List.cons.inj hSplit
              exact absurd hFound (hOther found)
          | cons other before =>
              obtain ⟨rfl, rfl⟩ := List.cons.inj hSplit
              exact ⟨before, first, after, found, rfl, (List.forall_mem_cons.mp hBefore).2,
                hFound, rfl⟩

/-! ## Records, filed -/

def Filed.held (filed : Filed) : Kind → String → Option DnsRecord
  | .srv => filed.srvByInstance.get
  | .txt => filed.txtByInstance.get
  | .a => filed.aByHost.get

/-- The last record of a kind with an owner. -/
def found (records : List DnsRecord) (kind : Kind) (key : String) : Option DnsRecord :=
  ((ofKind kind records).filter fun record => record.owner.toLower == key).getLast?

theorem held_file (filed : Filed) (record : DnsRecord) (kind : Kind) (key : String) :
    (file filed record).held kind key =
      if kindOf record.rdata = some kind ∧ record.owner.toLower = key then some record
      else filed.held kind key := by
  unfold file
  cases hData : record.rdata with
  | ptr inst =>
      simp only [kindOf]
      by_cases hCast : eqIgnoreAsciiCase record.owner googlecastService = true
      · simp only [if_pos hCast]
        cases kind <;> simp [Filed.held]
      · simp only [if_neg hCast]
        simp
  | other => simp [kindOf]
  | srv priority weight port target =>
      cases kind with
      | srv => simp [Filed.held, kindOf, HashMap.get_insert, eq_comm]
      | txt => simp [Filed.held, kindOf]
      | a => simp [Filed.held, kindOf]
  | txt strings =>
      cases kind with
      | srv => simp [Filed.held, kindOf]
      | txt => simp [Filed.held, kindOf, HashMap.get_insert, eq_comm]
      | a => simp [Filed.held, kindOf]
  | a ip =>
      cases kind with
      | srv => simp [Filed.held, kindOf]
      | txt => simp [Filed.held, kindOf]
      | a => simp [Filed.held, kindOf, HashMap.get_insert, eq_comm]

theorem found_cons (record : DnsRecord) (records : List DnsRecord) (kind : Kind) (key : String) :
    found (record :: records) kind key =
      (found records kind key).or
        (if kindOf record.rdata = some kind ∧ record.owner.toLower = key then some record
          else none) := by
  unfold found ofKind
  by_cases hKind : kindOf record.rdata = some kind
  · by_cases hKey : record.owner.toLower = key
    · simp only [List.filter_cons, hKind, hKey, beq_self_eq_true, if_true, and_self,
        List.getLast?_cons]
      cases (List.filter _ (List.filter _ records)).getLast? <;> rfl
    · simp [hKind, hKey]
  · simp [hKind]

/-- What is filed is the last record of its kind. -/
theorem get_file (records : List DnsRecord) (filed : Filed) (kind : Kind) (key : String) :
    (records.foldl file filed).held kind key =
      (found records kind key).or (filed.held kind key) := by
  induction records generalizing filed with
  | nil => simp [found, ofKind]
  | cons record records ih =>
      rw [List.foldl_cons, ih, held_file, found_cons]
      by_cases hHere : kindOf record.rdata = some kind ∧ record.owner.toLower = key
      · rw [if_pos hHere, if_pos hHere]
        cases found records kind key <;> rfl
      · rw [if_neg hHere, if_neg hHere]
        cases found records kind key <;> rfl

theorem instances_file (records : List DnsRecord) (filed : Filed) :
    (records.foldl file filed).instances = filed.instances ++ castInstances records := by
  induction records generalizing filed with
  | nil => simp [castInstances]
  | cons record records ih =>
      rw [List.foldl_cons, ih]
      unfold file castInstances
      rw [List.filterMap_cons]
      cases record.rdata with
      | ptr inst =>
          by_cases hCast : eqIgnoreAsciiCase record.owner googlecastService = true
          · simp [hCast]
          · simp [hCast]
      | srv priority weight port target => rfl
      | txt strings => rfl
      | a ip => rfl
      | other => rfl

theorem correlate_eq (records : List DnsRecord) :
    correlate records =
      (castInstances records).filterMap
        (describe (found records .srv) (found records .txt) (found records .a)) := by
  have hHeld : ∀ kind, (records.foldl file .empty).held kind = found records kind := by
    intro kind
    funext key
    rw [get_file]
    cases kind <;> simp [Filed.held, Filed.empty]
  unfold correlate
  simp only
  rw [instances_file, ← hHeld .srv, ← hHeld .txt, ← hHeld .a]
  rfl

/-- Where owners are unique, the record filed is the record there is. -/
theorem found_iff {records : List DnsRecord} (hUnique : UniqueOwners records) {kind : Kind}
    {key : String} {record : DnsRecord} :
    found records kind key = some record ↔
      record ∈ records ∧ kindOf record.rdata = some kind ∧ record.owner.toLower = key := by
  have hOnly : ∀ r, r ∈ (ofKind kind records).filter (fun r => r.owner.toLower == key) ↔
      r ∈ records ∧ kindOf r.rdata = some kind ∧ r.owner.toLower = key := by
    intro r
    simp only [ofKind, List.mem_filter, beq_iff_eq, and_assoc]
  unfold found
  constructor
  · exact fun h => (hOnly record).mp (List.mem_of_getLast? h)
  · intro h
    have hMem := (hOnly record).mpr h
    cases hLast : ((ofKind kind records).filter fun r => r.owner.toLower == key).getLast? with
    | none =>
        rw [List.getLast?_eq_none_iff.mp hLast] at hMem
        cases hMem
    | some other =>
        have hOther := List.mem_of_getLast? hLast
        have hSame : other.owner.toLower = record.owner.toLower := by
          rw [((hOnly other).mp hOther).2.2, h.2.2]
        rw [List.inj_on_of_nodup_map (hUnique kind) (List.mem_of_mem_filter hOther)
          (List.mem_of_mem_filter hMem) hSame]

/-! ## A device is what the records say -/

theorem describe_eq_some {srvOf txtOf aOf : String → Option DnsRecord} {inst : String}
    {device : DiscoveredDevice} :
    describe srvOf txtOf aOf inst = some device ↔
      (∃ srv priority weight target a, srvOf inst.toLower = some srv ∧
        srv.rdata = .srv priority weight device.port target ∧
        (aOf target.toLower).or (aOf inst.toLower) = some a ∧ a.rdata = .a device.ip) ∧
      device.name =
        ((txtOf inst.toLower).bind friendlyNameFromTxt).getD (instanceLabel inst) ∧
      device.deviceId = (txtOf inst.toLower).bind idFromTxt := by
  obtain ⟨ip, port, name, deviceId⟩ := device
  unfold describe
  constructor
  · intro h
    cases hSrv : srvOf inst.toLower with
    | none => simp [hSrv] at h
    | some srv =>
        simp only [hSrv] at h
        cases hData : srv.rdata with
        | srv priority weight found target =>
            simp only [hData] at h
            cases hA : (aOf target.toLower).or (aOf inst.toLower) with
            | none => simp [hA] at h
            | some a =>
                simp only [hA] at h
                cases hAddress : a.rdata with
                | a address =>
                    simp only [hAddress] at h
                    cases h
                    exact ⟨⟨srv, priority, weight, target, a, rfl, hData, hA, hAddress⟩, rfl, rfl⟩
                | ptr _ | srv _ _ _ _ | txt _ | other => simp [hAddress] at h
        | ptr _ | txt _ | a _ | other => simp [hData] at h
  · rintro ⟨⟨srv, priority, weight, target, a, hSrv, hData, hA, hAddress⟩, hName, hId⟩
    simp only at hData hAddress hName hId
    simp only [hSrv, hData, hA, hAddress]
    rw [hName, hId]

section Unique

variable {records : List DnsRecord} (hUnique : UniqueOwners records)

include hUnique

theorem txtOf_iff {inst : String} {key : List Byte} {value : String} :
    TxtOf records inst key value ↔
      (found records .txt inst.toLower).bind (valueFromTxt key) = some value := by
  constructor
  · rintro ⟨record, hMem, hOwner, strings, hData, hValue⟩
    have hFound := (found_iff hUnique).mpr ⟨hMem, by rw [hData]; rfl, hOwner⟩
    rw [hFound]
    simp only [Option.bind_some, valueFromTxt, hData]
    exact txtValue_iff.mpr hValue
  · intro h
    obtain ⟨record, hFound, hValue⟩ := Option.bind_eq_some_iff.mp h
    obtain ⟨hMem, _, hOwner⟩ := (found_iff hUnique).mp hFound
    unfold valueFromTxt at hValue
    cases hData : record.rdata with
    | txt strings =>
        simp only [hData] at hValue
        exact ⟨record, hMem, hOwner, strings, hData, txtValue_iff.mp hValue⟩
    | ptr _ | srv _ _ _ _ | a _ | other => simp [hData] at hValue

theorem addressOf_iff {host : String} {ip : BitVec 32} :
    AddressOf records host ip ↔
      ∃ record, found records .a host.toLower = some record ∧ record.rdata = .a ip := by
  constructor
  · rintro ⟨record, hMem, hOwner, hData⟩
    exact ⟨record, (found_iff hUnique).mpr ⟨hMem, by rw [hData]; rfl, hOwner⟩, hData⟩
  · rintro ⟨record, hFound, hData⟩
    obtain ⟨hMem, _, hOwner⟩ := (found_iff hUnique).mp hFound
    exact ⟨record, hMem, hOwner, hData⟩

/-- Without an address record there is nothing filed under the host. -/
theorem no_address_iff {host : String} :
    (∀ ip, ¬ AddressOf records host ip) ↔ found records .a host.toLower = none := by
  constructor
  · intro hNone
    cases hFound : found records .a host.toLower with
    | none => rfl
    | some record =>
        obtain ⟨_, hKind, _⟩ := (found_iff hUnique).mp hFound
        cases hData : record.rdata with
        | a ip => exact absurd ((addressOf_iff hUnique).mpr ⟨record, hFound, hData⟩) (hNone ip)
        | ptr _ | srv _ _ _ _ | txt _ | other => simp [hData, kindOf] at hKind
  · intro hNone ip hAddress
    obtain ⟨record, hFound, _⟩ := (addressOf_iff hUnique).mp hAddress
    rw [hNone] at hFound
    cases hFound

/-- The address that is taken: the target's, or else the instance's. -/
theorem address_iff {target inst : String} {ip : BitVec 32} :
    (∃ a, (found records .a target.toLower).or (found records .a inst.toLower) = some a ∧
        a.rdata = .a ip) ↔
      AddressOf records target ip ∨
        (∀ other, ¬ AddressOf records target other) ∧ AddressOf records inst ip := by
  rw [no_address_iff hUnique, addressOf_iff hUnique, addressOf_iff hUnique]
  cases found records .a target.toLower with
  | none => simp
  | some record => simp

theorem describe_iff {inst : String} {device : DiscoveredDevice} :
    describe (found records .srv) (found records .txt) (found records .a) inst = some device ↔
      Described records inst device := by
  have hName : device.name = ((found records .txt inst.toLower).bind friendlyNameFromTxt).getD
        (instanceLabel inst) ↔
      TxtOf records inst fnKey device.name ∨
        (∀ value, ¬ TxtOf records inst fnKey value) ∧ device.name = instanceLabel inst := by
    simp only [txtOf_iff hUnique]
    show device.name = ((found records .txt inst.toLower).bind (valueFromTxt fnKey)).getD _ ↔ _
    cases (found records .txt inst.toLower).bind (valueFromTxt fnKey) with
    | none => simp
    | some name => simp [eq_comm]
  have hId : device.deviceId = (found records .txt inst.toLower).bind idFromTxt ↔
      ∀ value, device.deviceId = some value ↔ TxtOf records inst idKey value := by
    simp only [txtOf_iff hUnique]
    show device.deviceId = (found records .txt inst.toLower).bind (valueFromTxt idKey) ↔ _
    exact Option.ext_iff
  rw [describe_eq_some, hName, hId]
  constructor
  · rintro ⟨⟨srv, priority, weight, target, a, hSrv, hData, hA, hAddress⟩, hNamed, hIdentified⟩
    obtain ⟨hMem, _, hOwner⟩ := (found_iff hUnique).mp hSrv
    exact ⟨⟨srv, hMem, hOwner, priority, weight, target, hData,
      (address_iff hUnique).mp ⟨a, hA, hAddress⟩⟩, hNamed, hIdentified⟩
  · rintro ⟨⟨srv, hMem, hOwner, priority, weight, target, hData, hAddress⟩, hNamed, hIdentified⟩
    obtain ⟨a, hA, hIp⟩ := (address_iff hUnique).mpr hAddress
    exact ⟨⟨srv, priority, weight, target, a,
      (found_iff hUnique).mpr ⟨hMem, by rw [hData]; rfl, hOwner⟩, hData, hA, hIp⟩, hNamed,
      hIdentified⟩

end Unique

/-! ## Order and case -/

theorem UniqueOwners.perm {records others : List DnsRecord} (h : records.Perm others)
    (hUnique : UniqueOwners records) : UniqueOwners others := fun kind =>
  ((h.filter _).map _).nodup_iff.mp (hUnique kind)

/-- In another order the same records are filed. -/
theorem found_perm {records others : List DnsRecord} (h : records.Perm others)
    (hUnique : UniqueOwners records) (kind : Kind) : found records kind = found others kind := by
  funext key
  refine Option.ext fun record => ?_
  rw [found_iff hUnique, found_iff (hUnique.perm h), h.mem_iff]

theorem correlate_perm {records others : List DnsRecord} (h : records.Perm others)
    (hUnique : UniqueOwners records) : (correlate records).Perm (correlate others) := by
  rw [correlate_eq, correlate_eq, found_perm h hUnique .srv, found_perm h hUnique .txt,
    found_perm h hUnique .a]
  exact (h.filterMap _).filterMap _

/-- Data that differs in the case of names only. -/
inductive SameData : RecordData → RecordData → Prop
  | ptr {inst other : String} (h : SameName inst other) : SameData (.ptr inst) (.ptr other)
  | srv {priority weight port : UInt16} {target other : String} (h : SameName target other) :
      SameData (.srv priority weight port target) (.srv priority weight port other)
  | txt {strings : List (List Byte)} : SameData (.txt strings) (.txt strings)
  | a {ip : BitVec 32} : SameData (.a ip) (.a ip)
  | other : SameData .other .other

/-- Records that differ in the case of names only. -/
structure SameRecord (record other : DnsRecord) : Prop where
  owner : SameName record.owner other.owner
  recordType : record.recordType = other.recordType
  ttl : record.ttl = other.ttl
  rdata : SameData record.rdata other.rdata

/-- Devices that differ in nothing but a name that both take from the labels
of their instances, which differ in case only. -/
structure SameDevice (records others : List DnsRecord) (device other : DiscoveredDevice) :
    Prop where
  ip : device.ip = other.ip
  port : device.port = other.port
  deviceId : device.deviceId = other.deviceId
  name : ∃ inst inst', SameName inst inst' ∧ Described records inst device ∧
    Described others inst' other ∧
    (device.name = other.name ∨ (∀ value, ¬ TxtOf records inst fnKey value) ∧
      device.name = instanceLabel inst ∧ other.name = instanceLabel inst')

theorem SameData.symm {data data' : RecordData} (h : SameData data data') : SameData data' data := by
  cases h with
  | ptr h => exact .ptr (Eq.symm h)
  | srv h => exact .srv (Eq.symm h)
  | txt => exact .txt
  | a => exact .a
  | other => exact .other

theorem SameData.kindOf_eq {data data' : RecordData} (h : SameData data data') :
    kindOf data = kindOf data' := by
  cases h <;> rfl

theorem SameRecord.symm {record other : DnsRecord} (h : SameRecord record other) :
    SameRecord other record :=
  ⟨Eq.symm h.owner, h.recordType.symm, h.ttl.symm, h.rdata.symm⟩

section Case

variable {records others : List DnsRecord} (hSame : List.Forall₂ SameRecord records others)

include hSame

theorem others_same : List.Forall₂ SameRecord others records :=
  (hSame.imp fun _ _ h => h.symm).flip

theorem exists_same {record : DnsRecord} (hMem : record ∈ records) :
    ∃ other ∈ others, SameRecord record other := by
  induction hSame with
  | nil => cases hMem
  | cons hHead hTail ih =>
      rcases List.mem_cons.mp hMem with rfl | hMem
      · exact ⟨_, by simp, hHead⟩
      · obtain ⟨other, hOther, hRecord⟩ := ih hMem
        exact ⟨other, by simp [hOther], hRecord⟩

theorem UniqueOwners.same (hUnique : UniqueOwners records) : UniqueOwners others := by
  intro kind
  have hOwners : (ofKind kind others).map (fun record => record.owner.toLower) =
      (ofKind kind records).map (fun record => record.owner.toLower) := by
    unfold ofKind
    clear hUnique
    induction hSame with
    | nil => rfl
    | cons hHead hTail ih =>
        have hKind := hHead.rdata.kindOf_eq
        have hOwner : _ = _ := hHead.owner
        rw [List.filter_cons, List.filter_cons, hKind]
        cases kindOf _ == some kind with
        | true => simp [hOwner, ih]
        | false => simpa using ih
  rw [hOwners]
  exact hUnique kind

theorem TxtOf.same {inst inst' : String} {key : List Byte} {value : String}
    (hInst : SameName inst inst') (h : TxtOf records inst key value) :
    TxtOf others inst' key value := by
  obtain ⟨record, hMem, hOwner, strings, hData, hValue⟩ := h
  obtain ⟨other, hOther, hRecord⟩ := exists_same hSame hMem
  have hRdata := hRecord.rdata
  rw [hData] at hRdata
  cases hOtherData : other.rdata with
  | txt strings' =>
      rw [hOtherData] at hRdata
      cases hRdata
      exact ⟨other, hOther, hRecord.owner.symm.trans (hOwner.trans hInst), strings, hOtherData,
        hValue⟩
  | ptr _ | srv _ _ _ _ | a _ | other =>
      rw [hOtherData] at hRdata
      cases hRdata

theorem AddressOf.same {host host' : String} {ip : BitVec 32} (hHost : SameName host host')
    (h : AddressOf records host ip) : AddressOf others host' ip := by
  obtain ⟨record, hMem, hOwner, hData⟩ := h
  obtain ⟨other, hOther, hRecord⟩ := exists_same hSame hMem
  have hRdata := hRecord.rdata
  rw [hData] at hRdata
  cases hOtherData : other.rdata with
  | a ip' =>
      rw [hOtherData] at hRdata
      cases hRdata
      exact ⟨other, hOther, hRecord.owner.symm.trans (hOwner.trans hHost), hOtherData⟩
  | ptr _ | srv _ _ _ _ | txt _ | other =>
      rw [hOtherData] at hRdata
      cases hRdata

/-- Records in another case describe the same device. -/
theorem Described.same {inst inst' : String} {device : DiscoveredDevice}
    (hInst : SameName inst inst') (h : Described records inst device) :
    ∃ other, Described others inst' other ∧ SameDevice records others device other := by
  have hBack := others_same hSame
  have hNone : ∀ key, (∀ value, ¬ TxtOf records inst key value) →
      ∀ value, ¬ TxtOf others inst' key value := fun key hNone value hThere =>
    hNone value (hThere.same hBack hInst.symm)
  have hService : ∀ name, ∃ record ∈ others, SameName record.owner inst' ∧
      ∃ priority weight target, record.rdata = .srv priority weight
        ({ device with name := name } : DiscoveredDevice).port target ∧
        (AddressOf others target device.ip ∨
          (∀ ip, ¬ AddressOf others target ip) ∧ AddressOf others inst' device.ip) := by
    intro name
    obtain ⟨record, hMem, hOwner, priority, weight, target, hData, hAddress⟩ := h.service
    obtain ⟨other, hOther, hRecord⟩ := exists_same hSame hMem
    have hRdata := hRecord.rdata
    rw [hData] at hRdata
    cases hOtherData : other.rdata with
    | srv priority' weight' port' target' =>
        rw [hOtherData] at hRdata
        obtain ⟨rfl, rfl, rfl, hTarget⟩ : priority = priority' ∧ weight = weight' ∧
            device.port = port' ∧ SameName target target' := by
          cases hRdata with
          | srv hTarget => exact ⟨rfl, rfl, rfl, hTarget⟩
        refine ⟨other, hOther, hRecord.owner.symm.trans (hOwner.trans hInst), priority, weight,
          target', hOtherData, ?_⟩
        rcases hAddress with hTargets | ⟨hNoTarget, hInstance⟩
        · exact .inl (hTargets.same hSame hTarget)
        · exact .inr ⟨fun ip hThere => hNoTarget ip (hThere.same hBack hTarget.symm),
            hInstance.same hSame hInst⟩
    | ptr _ | txt _ | a _ | other =>
        rw [hOtherData] at hRdata
        cases hRdata
  have hId : ∀ value, device.deviceId = some value ↔ TxtOf others inst' idKey value :=
    fun value => (h.deviceId value).trans
      ⟨fun hThere => hThere.same hSame hInst, fun hThere => hThere.same hBack hInst.symm⟩
  rcases h.name with hNamed | ⟨hUnnamed, hLabel⟩
  · have hOther : Described others inst' device :=
      ⟨hService device.name, .inl (hNamed.same hSame hInst), hId⟩
    exact ⟨device, hOther, rfl, rfl, rfl, inst, inst', hInst, h, hOther, .inl rfl⟩
  · have hOther : Described others inst' { device with name := instanceLabel inst' } :=
      ⟨hService _, .inr ⟨hNone fnKey hUnnamed, rfl⟩, hId⟩
    exact ⟨_, hOther, rfl, rfl, rfl, inst, inst', hInst, h, hOther, .inr ⟨hUnnamed, hLabel, rfl⟩⟩

theorem castInstances_same :
    List.Forall₂ SameName (castInstances records) (castInstances others) := by
  refine List.rel_filterMap ?_ hSame
  intro record record' hRecord
  obtain ⟨owner, recordType, ttl, data⟩ := record
  obtain ⟨owner', recordType', ttl', data'⟩ := record'
  have hCast : eqIgnoreAsciiCase owner googlecastService =
      eqIgnoreAsciiCase owner' googlecastService := by
    have hOwner : owner.toLower = owner'.toLower := hRecord.owner
    unfold eqIgnoreAsciiCase
    rw [hOwner]
  have hData : SameData data data' := hRecord.rdata
  cases hData with
  | ptr hInst =>
      simp only [hCast]
      by_cases hHere : eqIgnoreAsciiCase owner' googlecastService = true
      · rw [if_pos hHere, if_pos hHere]
        exact .some hInst
      · rw [if_neg hHere, if_neg hHere]
        exact .none
  | srv _ => exact .none
  | txt => exact .none
  | a => exact .none
  | other => exact .none

theorem correlate_same (hUnique : UniqueOwners records) :
    List.Forall₂ (SameDevice records others) (correlate records) (correlate others) := by
  have hOthers := hUnique.same hSame
  rw [correlate_eq, correlate_eq]
  refine List.rel_filterMap ?_ (castInstances_same hSame)
  intro inst inst' hInst
  cases hHere : describe (found records .srv) (found records .txt) (found records .a) inst with
  | some device =>
      obtain ⟨device', hThere, hDevice⟩ :=
        ((describe_iff hUnique).mp hHere).same hSame hInst
      rw [(describe_iff hOthers).mpr hThere]
      exact .some hDevice
  | none =>
      cases hThere : describe (found others .srv) (found others .txt) (found others .a) inst' with
      | none => exact .none
      | some device' =>
          obtain ⟨device, hDevice, _⟩ :=
            ((describe_iff hOthers).mp hThere).same (others_same hSame) (Eq.symm hInst)
          rw [(describe_iff hUnique).mpr hDevice] at hHere
          cases hHere

end Case

/-- **Record correlation.**  Where no two SRV, TXT or A records have the same
owner up to case, one device is returned for each instance of the Cast service
that the records describe; the order of the records makes no difference but to
the order of the devices, and the case of the names none but to the names
taken from the instances. -/
theorem correlation {records : List DnsRecord} (hUnique : UniqueOwners records) :
    (∃ deviceOf : String → Option DiscoveredDevice,
      (∀ inst device, deviceOf inst = some device ↔ Described records inst device) ∧
        correlate records = (castInstances records).filterMap deviceOf) ∧
    (∀ others, records.Perm others → (correlate records).Perm (correlate others)) ∧
    (∀ others, List.Forall₂ SameRecord records others →
      List.Forall₂ (SameDevice records others) (correlate records) (correlate others)) :=
  ⟨⟨_, fun _ _ => describe_iff hUnique, correlate_eq records⟩,
    fun _ hPerm => correlate_perm hPerm hUnique, fun _ hSame => correlate_same hSame hUnique⟩

/-- A receiver that answers with all four records, its names in two cases. -/
def livingRoom : List DnsRecord :=
  [ ⟨"_googlecast._tcp.local", typePtr, 120, .ptr "Living Room._googlecast._tcp.local"⟩
  , ⟨"living room._googlecast._tcp.local", typeSrv, 120, .srv 0 0 8009 "cast.local"⟩
  , ⟨"CAST.local", typeA, 120, .a 0x0A000002⟩ ]

theorem livingRoom_unique : UniqueOwners livingRoom := by
  intro kind
  cases kind with
  | srv => simp [ofKind, livingRoom, kindOf]
  | txt => simp [ofKind, livingRoom, kindOf]
  | a => simp [ofKind, livingRoom, kindOf]

theorem livingRoom_correlation :
    (∃ deviceOf : String → Option DiscoveredDevice,
      (∀ inst device, deviceOf inst = some device ↔ Described livingRoom inst device) ∧
        correlate livingRoom = (castInstances livingRoom).filterMap deviceOf) ∧
    (∀ others, livingRoom.Perm others → (correlate livingRoom).Perm (correlate others)) ∧
    (∀ others, List.Forall₂ SameRecord livingRoom others →
      List.Forall₂ (SameDevice livingRoom others) (correlate livingRoom) (correlate others)) :=
  correlation livingRoom_unique

end CastApp.Cast.Correlate
