import CastApp.Runtime.Supervisor
import CastApp.Util.Utf8
import CastApp.Verified.HashMap
import CastApp.Verified.Transition

/-!
# Trust on first use

The first certificate a receiver presents is pinned under its key, and the pin
is saved; later ones are compared with it, and a mismatch leaves it as it is.
The file holds each pin in hex.

The JSON library and the file system are the surroundings: a `PinCodec` writes
and reads the contents of the file, and a save succeeds or fails.

* `hexToFingerprint_fingerprintToHex` — a pin reads back as it was written.
* `tofu_history` — over any checks and restarts, what a check comes to is
  decided by the first fingerprint ever checked under the key.
-/

namespace CastApp.Cast.Tofu

open CastApp.State
open CastApp.Cast.Session (Fingerprint PinCheck)
open CastApp.Runtime.Supervisor (fingerprintToHex)
open CastApp.Util.Json
open CastApp.Util.Utf8
open CastApp.Verified
open CastApp.Verified.Transition

/-! ## Hex -/

def hexNibble (byte : Byte) : Option Byte :=
  if 0x30 ≤ byte ∧ byte ≤ 0x39 then some (byte - 0x30)
  else if 0x61 ≤ byte ∧ byte ≤ 0x66 then some (byte - 0x61 + 10)
  else none

/-- The bytes of pairs of digits. -/
def hexPairs : List Byte → Option (List Byte)
  | [] => some []
  | [_] => none
  | hi :: lo :: rest => do
      let high ← hexNibble hi
      let low ← hexNibble lo
      let bytes ← hexPairs rest
      return ((high <<< 4) ||| low) :: bytes

def hexToFingerprint (hex : String) : Option Fingerprint :=
  if (asBytes hex).length ≠ 64 then none
  else
    match hexPairs (asBytes hex) with
    | none => none
    | some bytes => if hLength : bytes.length = 32 then some ⟨bytes.toArray, hLength⟩ else none

/-- The digits a byte is written as. -/
def hexDigits (byte : Byte) : List Byte :=
  ((Nat.toDigits 16 (256 + byte.toNat)).drop 1).flatMap String.utf8EncodeChar

/-- A byte is written as the digit of its high half and that of its low. -/
theorem hexDigits_halves (byte : Byte) :
    ∃ hi lo, hexDigits byte = [hi, lo] ∧ hexNibble hi = some (byte >>> 4) ∧
      hexNibble lo = some (byte &&& 15) ∧ ((byte >>> 4) <<< 4) ||| (byte &&& 15) = byte := by
  have hAll : ∀ n : Fin 256,
      hexDigits (UInt8.ofNat n.val) = [(hexDigits (UInt8.ofNat n.val)).getD 0 0,
          (hexDigits (UInt8.ofNat n.val)).getD 1 0] ∧
        hexNibble ((hexDigits (UInt8.ofNat n.val)).getD 0 0) = some (UInt8.ofNat n.val >>> 4) ∧
        hexNibble ((hexDigits (UInt8.ofNat n.val)).getD 1 0) = some (UInt8.ofNat n.val &&& 15) ∧
        ((UInt8.ofNat n.val >>> 4) <<< 4) ||| (UInt8.ofNat n.val &&& 15) = UInt8.ofNat n.val := by
    decide +kernel
  have hByte := hAll ⟨byte.toNat, byte.toNat_lt⟩
  simp only [UInt8.ofNat_toNat] at hByte
  exact ⟨_, _, hByte⟩

theorem length_hexDigits (byte : Byte) : (hexDigits byte).length = 2 := by
  obtain ⟨hi, lo, hDigits, -⟩ := hexDigits_halves byte
  rw [hDigits]
  rfl

theorem hexPairs_hexDigits (byte : Byte) (rest : List Byte) :
    hexPairs (hexDigits byte ++ rest) = (hexPairs rest).map (byte :: ·) := by
  obtain ⟨hi, lo, hDigits, hHigh, hLow, hByte⟩ := hexDigits_halves byte
  rw [hDigits]
  cases hRest : hexPairs rest <;> simp [hexPairs, hHigh, hLow, hByte, hRest]

theorem hexPairs_flatMap (bytes : List Byte) : hexPairs (bytes.flatMap hexDigits) = some bytes := by
  induction bytes with
  | nil => rfl
  | cons byte bytes ih => simp [hexPairs_hexDigits, ih]

theorem length_flatMap_hexDigits (bytes : List Byte) :
    (bytes.flatMap hexDigits).length = 2 * bytes.length := by
  induction bytes with
  | nil => rfl
  | cons byte bytes ih =>
      simp only [List.flatMap_cons, List.length_append, List.length_cons, length_hexDigits, ih]
      omega

theorem toList_intercalate_empty (texts : List String) :
    ("".intercalate texts).toList = texts.flatMap String.toList := by
  induction texts with
  | nil => simp
  | cons text texts ih =>
      cases texts with
      | nil => simp
      | cons next texts => simp [String.intercalate_cons_cons, ih]

theorem asBytes_fingerprintToHex (fingerprint : Fingerprint) :
    asBytes (fingerprintToHex fingerprint) = fingerprint.toList.flatMap hexDigits := by
  unfold asBytes fingerprintToHex
  rw [toList_intercalate_empty, show hexDigits = fun byte =>
    ((Nat.toDigits 16 (256 + byte.toNat)).drop 1).flatMap String.utf8EncodeChar from rfl]
  simp [List.flatMap_map, List.flatMap_assoc]

/-- A pin reads back as it was written. -/
theorem hexToFingerprint_fingerprintToHex (fingerprint : Fingerprint) :
    hexToFingerprint (fingerprintToHex fingerprint) = some fingerprint := by
  unfold hexToFingerprint
  rw [asBytes_fingerprintToHex, length_flatMap_hexDigits, hexPairs_flatMap]
  simp [Vector.toList]

/-! ## The store -/

/-- The JSON wrapper of the pins, in hex. -/
structure PinsFile where
  pins : HashMap String String

/-- The JSON library on the contents of a file. -/
structure PinCodec (Content : Type) where
  toVecPretty : PinsFile → Except String Content
  fromSlice : Content → Except String PinsFile

/-- The pins that are read are those that were written. -/
def PinCodec.RoundTrips {Content : Type} (codec : PinCodec Content) : Prop :=
  ∀ file, ∃ content read, codec.toVecPretty file = .ok content ∧
    codec.fromSlice content = .ok read ∧ ∀ key, read.pins.get key = file.pins.get key

structure TofuStore where
  pins : HashMap String Fingerprint
  path : Option String

/-- What the file system answers to the steps of a save. -/
structure SaveAnswers where
  createDirAll : Except IoError Unit
  write : Except IoError Unit
  rename : Except IoError Unit

/-- A save that succeeds. -/
def SaveAnswers.done : SaveAnswers := ⟨.ok (), .ok (), .ok ()⟩

namespace TofuStore

variable {Content : Type}

/-- Load a store; a file that is missing, unreadable or no JSON gives an empty
one, and an entry that is no fingerprint is skipped. -/
def load (codec : PinCodec Content) (path : String) (file : Except IoError Content) : TofuStore :=
  match file with
  | .ok bytes =>
      match codec.fromSlice bytes with
      | .ok file => ⟨file.pins.collect hexToFingerprint, some path⟩
      | .error _ => ⟨.empty, some path⟩
  | .error _ => ⟨.empty, some path⟩

/-- What is in the file after a save: a sibling is written and moved into
place. -/
def save (codec : PinCodec Content) (store : TofuStore) (answers : SaveAnswers)
    (file : Option Content) : Option Content :=
  match store.path with
  | none => file
  | some _ =>
      match codec.toVecPretty ⟨store.pins.mapValues fingerprintToHex⟩ with
      | .error _ => file
      | .ok bytes =>
          match answers.createDirAll, answers.write, answers.rename with
          | .ok (), .ok (), .ok () => some bytes
          | _, _, _ => file

/-- What a check comes to, the store after it, and whether it saves. -/
def check (store : TofuStore) (key : String) (fingerprint : Fingerprint) :
    PinCheck × TofuStore × Bool :=
  match store.pins.get key with
  | none => (.pinned, { store with pins := store.pins.insert key fingerprint }, true)
  | some previous =>
      if previous = fingerprint then (.matched, store, false)
      else (.mismatch previous fingerprint, store, false)

theorem check_mismatch {store : TofuStore} {key : String} {previous fingerprint : Fingerprint}
    (hFirst : store.pins.get key = some previous) (hOther : previous ≠ fingerprint) :
    store.check key fingerprint = (.mismatch previous fingerprint, store, false) := by
  simp [check, hFirst, hOther]

end TofuStore

/-! ## Histories -/

/-- The store in memory and the contents of its file. -/
structure Machine (Content : Type) where
  store : TofuStore
  file : Option Content

inductive Event : Type
  | check (key : String) (fingerprint : Fingerprint) (result : PinCheck)
  | restart

/-- What reading the file gives. -/
def readFile {Content : Type} : Option Content → Except IoError Content
  | some content => .ok content
  | none => .error ⟨.other, "No such file or directory (os error 2)"⟩

inductive Step {Content : Type} (codec : PinCodec Content) (path : String) (m : Machine Content) :
    Event → Machine Content → Prop
  /-- A check, with a save that succeeds if it has something to save. -/
  | check (key : String) (fingerprint : Fingerprint) {result : PinCheck} {store : TofuStore}
      {saves : Bool} (hCheck : m.store.check key fingerprint = (result, store, saves)) :
      Step codec path m (.check key fingerprint result)
        ⟨store, if saves then store.save codec .done m.file else m.file⟩
  /-- The store is discarded and loaded again. -/
  | restart : Step codec path m .restart ⟨.load codec path (readFile m.file), m.file⟩

/-- Checks and restarts, from the first start. -/
def histories {Content : Type} (codec : PinCodec Content) (path : String) :
    System (Machine Content) Event where
  init m := m = ⟨.load codec path (readFile none), none⟩
  step := Step codec path

/-- The first fingerprint checked under a key. -/
def firstChecked (past : List Event) (key : String) : Option Fingerprint :=
  past.findSome? fun event =>
    match event with
    | .check k fingerprint _ => if k = key then some fingerprint else none
    | .restart => none

/-- What a check comes to after that history. -/
def decided (first : Option Fingerprint) (fingerprint : Fingerprint) : PinCheck :=
  match first with
  | none => .pinned
  | some previous =>
      if fingerprint = previous then .matched else .mismatch previous fingerprint

/-- The pins and the file that holds them are as they were. -/
def SamePins {Content : Type} (m : Move (Machine Content) Event) : Prop :=
  (∀ key, m.post.store.pins.get key = m.pre.store.pins.get key) ∧ m.post.file = m.pre.file

/-- What trust on first use comes to for one event after a
history. -/
def Lawful {Content : Type} (past : List Event) (m : Move (Machine Content) Event) : Prop :=
  match m.label with
  | .check key fingerprint result =>
      result = decided (firstChecked past key) fingerprint ∧ (result ≠ .pinned → SamePins m) ∧
        ∀ other, other ≠ key → m.post.store.pins.get other = m.pre.store.pins.get other
  | .restart => SamePins m

section History

variable {Content : Type} {codec : PinCodec Content} {path : String} {m m' : Machine Content}
  {trace : List (Move (Machine Content) Event)} {past : List Event}

theorem firstChecked_snoc_check (past : List Event) (key other : String)
    (fingerprint : Fingerprint) (result : PinCheck) :
    firstChecked (past ++ [.check key fingerprint result]) other =
      (firstChecked past other).or (if key = other then some fingerprint else none) := by
  simp [firstChecked, List.findSome?_append]

theorem firstChecked_snoc_restart (past : List Event) (key : String) :
    firstChecked (past ++ [.restart]) key = firstChecked past key := by
  simp [firstChecked, List.findSome?_append]

/-- A store loads with the pins it was saved with. -/
theorem load_save (hCodec : codec.RoundTrips) {store : TofuStore} (hPath : store.path = some path)
    (file : Option Content) (key : String) :
    (TofuStore.load codec path (readFile (store.save codec .done file))).pins.get key =
      store.pins.get key := by
  obtain ⟨content, read, hWrite, hRead, hPins⟩ :=
    hCodec ⟨store.pins.mapValues fingerprintToHex⟩
  have hSave : store.save codec .done file = some content := by
    simp [TofuStore.save, hPath, hWrite, SaveAnswers.done]
  simp only [hSave, readFile, TofuStore.load, hRead, HashMap.get_collect, hPins,
    HashMap.get_mapValues]
  cases store.pins.get key with
  | none => rfl
  | some fingerprint => exact hexToFingerprint_fingerprintToHex fingerprint

/-- The store holds the first fingerprint checked under each key, and so does
its file. -/
structure Held (codec : PinCodec Content) (path : String) (past : List Event)
    (m : Machine Content) : Prop where
  located : m.store.path = some path
  pins : ∀ key, m.store.pins.get key = firstChecked past key
  saved : ∀ key, (TofuStore.load codec path (readFile m.file)).pins.get key = m.store.pins.get key

theorem load_path (codec : PinCodec Content) (path : String) (file : Except IoError Content) :
    (TofuStore.load codec path file).path = some path := by
  unfold TofuStore.load
  split
  · split
    · rfl
    · rfl
  · rfl

/-- A first check pins and saves. -/
theorem Held.pinned (hCodec : codec.RoundTrips) (h : Held codec path past m) {key : String}
    {fingerprint : Fingerprint} (hFirst : m.store.pins.get key = none) (result : PinCheck) :
    Held codec path (past ++ [.check key fingerprint result])
      ⟨{ m.store with pins := m.store.pins.insert key fingerprint },
        { m.store with pins := m.store.pins.insert key fingerprint }.save codec .done m.file⟩ where
  located := h.located
  pins other := by
    rw [firstChecked_snoc_check, ← h.pins other, HashMap.get_insert]
    by_cases hKey : other = key
    · subst hKey
      simp [hFirst]
    · simp [hKey, Ne.symm hKey]
  saved := by
    have hPath : { m.store with pins := m.store.pins.insert key fingerprint }.path = some path :=
      h.located
    exact load_save hCodec hPath m.file

/-- A later check changes nothing. -/
theorem Held.later (h : Held codec path past m) {key : String} {previous : Fingerprint}
    (hFirst : m.store.pins.get key = some previous) (fingerprint : Fingerprint)
    (result : PinCheck) : Held codec path (past ++ [.check key fingerprint result]) m where
  located := h.located
  pins other := by
    rw [firstChecked_snoc_check, ← h.pins other]
    by_cases hKey : key = other
    · subst hKey
      simp [hFirst]
    · simp [hKey]
  saved := h.saved

theorem Held.restart (h : Held codec path past m) :
    Held codec path (past ++ [.restart])
      ⟨TofuStore.load codec path (readFile m.file), m.file⟩ where
  located := load_path codec path _
  pins key := by rw [h.saved, h.pins, firstChecked_snoc_restart]
  saved _ := rfl

/-- One event after a history that is held: it is lawful, and held with it. -/
theorem Held.step (hCodec : codec.RoundTrips) (h : Held codec path past m) {event : Event}
    (hStep : Step codec path m event m') :
    Lawful past ⟨m, event, m'⟩ ∧ Held codec path (past ++ [event]) m' := by
  cases hStep with
  | restart => exact ⟨⟨h.saved, rfl⟩, h.restart⟩
  | check key fingerprint hCheck =>
      have hDecided := h.pins key
      unfold TofuStore.check at hCheck
      cases hFirst : m.store.pins.get key with
      | none =>
          simp only [hFirst, Prod.mk.injEq] at hCheck
          obtain ⟨rfl, rfl, rfl⟩ := hCheck
          refine ⟨⟨?_, fun hNot => absurd rfl hNot, fun other hOther => ?_⟩,
            h.pinned hCodec hFirst .pinned⟩
          · rw [← hDecided, hFirst]
            rfl
          · exact (HashMap.get_insert _ _ _ _).trans (if_neg hOther)
      | some previous =>
          rw [hFirst] at hDecided
          simp only [hFirst] at hCheck
          by_cases hSame : previous = fingerprint
          · simp only [hSame, if_true, Prod.mk.injEq] at hCheck
            obtain ⟨rfl, rfl, rfl⟩ := hCheck
            refine ⟨⟨?_, fun _ => ⟨fun _ => rfl, rfl⟩, fun _ _ => rfl⟩,
              h.later hFirst fingerprint .matched⟩
            simp [← hDecided, decided, hSame]
          · simp only [hSame, if_false, Prod.mk.injEq] at hCheck
            obtain ⟨rfl, rfl, rfl⟩ := hCheck
            refine ⟨⟨?_, fun _ => ⟨fun _ => rfl, rfl⟩, fun _ _ => rfl⟩,
              h.later hFirst fingerprint (.mismatch previous fingerprint)⟩
            simp [← hDecided, decided, Ne.symm hSame]

/-- The events of a history. -/
abbrev events (trace : List (Move (Machine Content) Event)) : List Event := trace.map Move.label

theorem run_held (hCodec : codec.RoundTrips) (hRun : Run (histories codec path) trace m) :
    Held codec path (events trace) m := by
  induction hRun with
  | start hInit =>
      cases hInit
      exact ⟨rfl, fun _ => rfl, fun _ => rfl⟩
  | step _ hStep ih =>
      simp only [events, List.map_append, List.map_cons, List.map_nil]
      exact (ih.step hCodec hStep).2

/-- **Trust on first use, over restarts.**  Whatever is checked and however
often the store is loaded again, a check comes to what the first fingerprint
ever checked under its key decides; a mismatch, a match or a restart changes
no pin, and a check no pin of another key. -/
theorem tofu_history (hCodec : codec.RoundTrips) (hRun : Run (histories codec path) trace m) :
    ∀ before event after, trace = before ++ event :: after → Lawful (events before) event := by
  rintro before event after rfl
  obtain ⟨hBefore, hStep⟩ := hRun.step_run
  exact ((run_held hCodec hBefore).step hCodec hStep).1

end History

/-! ## The pins as a JSON value -/

/-- The value the pins are written as. -/
def PinsFile.toJson (file : PinsFile) : Json :=
  .object [("pins", .object (file.pins.entries.map fun entry => (entry.1, .string entry.2)))]

def memberText : String × Json → Option (String × String)
  | (key, .string text) => some (key, text)
  | _ => none

/-- The pins a value is read as. -/
def PinsFile.ofJson (value : Json) : Except String PinsFile :=
  match value.get "pins" with
  | some (.object members) =>
      match members.mapM memberText with
      | none => .error "invalid type: expected a string"
      | some entries =>
          if hKeys : (entries.map Prod.fst).Nodup then .ok ⟨⟨entries, hKeys⟩⟩
          else .error "duplicate key"
  | _ => .error "missing field pins"

/-- A file that holds the value, however it is printed. -/
def valueCodec : PinCodec Json := ⟨fun file => .ok file.toJson, PinsFile.ofJson⟩

theorem mapM_memberText (entries : List (String × String)) :
    (entries.map fun entry => (entry.1, Json.string entry.2)).mapM memberText = some entries := by
  induction entries with
  | nil => rfl
  | cons entry entries ih => simp [List.mapM_cons, memberText, ih]

theorem valueCodec_roundTrips : valueCodec.RoundTrips := by
  intro file
  refine ⟨file.toJson, file, rfl, ?_, fun _ => rfl⟩
  have hPins : file.toJson.get "pins" =
      some (.object (file.pins.entries.map fun entry => (entry.1, .string entry.2))) := rfl
  show PinsFile.ofJson file.toJson = .ok file
  unfold PinsFile.ofJson
  rw [hPins]
  simp only [mapM_memberText]
  rw [dif_pos file.pins.hKeys]

/-- A receiver is pinned, the application restarts, and another certificate
under the same key is a mismatch with the first. -/
theorem pin_survives_restart :
    ∃ before event m, Run (histories valueCodec "known_hosts.json") (before ++ [event]) m ∧
      events before = [.check "tv" (Vector.replicate 32 1) .pinned, .restart] ∧
      event.label = .check "tv" (Vector.replicate 32 2)
        (.mismatch (Vector.replicate 32 1) (Vector.replicate 32 2)) ∧
      Lawful (events before) event := by
  have hStart : Run (histories valueCodec "known_hosts.json") [] _ := .start rfl
  have hPinned := hStart.step (.check "tv" (Vector.replicate 32 1) rfl)
  have hRestarted := hPinned.step .restart
  have hFirst := ((run_held valueCodec_roundTrips hRestarted).pins "tv").trans
    (show _ = some (Vector.replicate 32 1) from rfl)
  have hMismatch := hRestarted.step
    (.check "tv" (Vector.replicate 32 2) (TofuStore.check_mismatch hFirst (by decide)))
  exact ⟨_, _, _, hMismatch, rfl, rfl, tofu_history valueCodec_roundTrips hMismatch _ _ [] rfl⟩

end CastApp.Cast.Tofu
