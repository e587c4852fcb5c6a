import CastApp.Util.Json
import CastApp.Util.Utf8

/-!
# Cast namespaces

Addresses, message builders and response parsers of the four namespaces.
The builders give the JSON value of a message; its rendering is the
library's.

`mediaDestinationId` is where a `transportId` becomes a destination:
`mediaDestinationId_injective` and `mediaDestinationId_ne_receiver` say that
it keeps transports apart and never yields the platform receiver.
-/

namespace CastApp.Cast.Namespaces

open CastApp.State
open CastApp.Util.Json
open CastApp.Util.Utf8

/-! ## Addressing -/

def sourceId : String := "source-0"

def transportId : String := "transport-0"

def receiverId : String := "receiver-0"

def defaultMediaReceiverAppId : String := "CC1AD845"

def connectionNs : String := "urn:x-cast:com.google.cast.tp.connection"

def heartbeatNs : String := "urn:x-cast:com.google.cast.tp.heartbeat"

def receiverNs : String := "urn:x-cast:com.google.cast.receiver"

def mediaNs : String := "urn:x-cast:com.google.cast.media"

/-- `u8::is_ascii_hexdigit`. -/
def isAsciiHexdigit (b : Byte) : Bool :=
  (0x30 ≤ b && b ≤ 0x39) || (0x41 ≤ b && b ≤ 0x46) || (0x61 ≤ b && b ≤ 0x66)

/-- Where a UUID has its dashes. -/
def isDashIndex (i : Nat) : Bool := i == 8 || i == 13 || i == 18 || i == 23

def isUuidTransportId (id : String) : Bool :=
  let bytes := asBytes id
  if bytes.length != 36 then
    false
  else if bytes[8]? != some 0x2D || bytes[13]? != some 0x2D ||
      bytes[18]? != some 0x2D || bytes[23]? != some 0x2D then
    false
  else
    bytes.zipIdx.all fun (b, i) => isDashIndex i || isAsciiHexdigit b

/-- The raw id of a UUID-shaped transport, the prefixed form otherwise. -/
def mediaDestinationId (transportId : String) : String :=
  if isUuidTransportId transportId then
    transportId
  else
    "transport-" ++ transportId

/-- A prefixed id is not UUID-shaped: it starts with a `t`. -/
theorem isUuidTransportId_prefixed (id : String) :
    isUuidTransportId ("transport-" ++ id) = false := by
  obtain ⟨rest, hBytes⟩ : ∃ rest, asBytes ("transport-" ++ id) = 0x74 :: rest := by
    rw [asBytes_append]
    exact ⟨_, rfl⟩
  unfold isUuidTransportId
  rw [hBytes]
  simp only [List.zipIdx_cons, List.all_cons]
  rw [show (isDashIndex 0 || isAsciiHexdigit 0x74) = false by decide]
  simp

/-- Distinct transports have distinct media destinations. -/
theorem mediaDestinationId_injective {a b : String}
    (h : mediaDestinationId a = mediaDestinationId b) : a = b := by
  unfold mediaDestinationId at h
  by_cases hA : isUuidTransportId a = true
  · by_cases hB : isUuidTransportId b = true
    · rwa [if_pos hA, if_pos hB] at h
    · rw [if_pos hA, if_neg hB] at h
      rw [h, isUuidTransportId_prefixed] at hA
      cases hA
  · by_cases hB : isUuidTransportId b = true
    · rw [if_neg hA, if_pos hB] at h
      rw [← h, isUuidTransportId_prefixed] at hB
      cases hB
    · rw [if_neg hA, if_neg hB] at h
      exact (String.append_right_inj _).mp h

/-- The media destination is never the platform receiver. -/
theorem mediaDestinationId_ne_receiver (id : String) :
    mediaDestinationId id ≠ receiverId := by
  unfold mediaDestinationId
  by_cases hId : isUuidTransportId id = true
  · rw [if_pos hId]
    rintro rfl
    exact absurd hId (by decide)
  · rw [if_neg hId]
    intro h
    have hChars := congrArg String.toList h
    rw [String.toList_append] at hChars
    exact absurd (List.cons.inj hChars).1 (by decide)

/-! ## Builders -/

inductive StreamType : Type
  | buffered
  | live
  deriving DecidableEq, Repr

def StreamType.asStr : StreamType → String
  | .buffered => "BUFFERED"
  | .live => "LIVE"

def cargoPkgVersion : String := "0.1.0"

def connect : Json :=
  .object
    [ ("type", .string "CONNECT")
    , ("origin", .object [])
    , ("userAgent", .string ("cast-app/" ++ cargoPkgVersion))
    , ("connType", .nat 0)
    , ("senderInfo", .object
        [ ("sdkType", .nat 2)
        , ("version", .string cargoPkgVersion)
        , ("browserVersion", .string cargoPkgVersion)
        , ("platform", .nat 6)
        , ("connectionType", .nat 1) ]) ]

def ping : Json := .object [("type", .string "PING")]

/-- The first two fields of every request. -/
def requestFields (type : String) (requestId : UInt32) : List (String × Json) :=
  [("type", .string type), ("requestId", .number (.posInt requestId.toUInt64))]

def launch (requestId : UInt32) : Json :=
  .object (requestFields "LAUNCH" requestId ++
    [("appId", .string defaultMediaReceiverAppId)])

def getStatus (requestId : UInt32) : Json :=
  .object (requestFields "GET_STATUS" requestId)

/-- `f32::clamp`. -/
def clamp (x lo hi : Float32) : Float32 :=
  if x < lo then lo else if hi < x then hi else x

def setVolume (requestId : UInt32) (level : Float32) (muted : Bool) : Json :=
  let level := if level.isFinite then (clamp level 0.0 1.0).toFloat else 0.0
  .object (requestFields "SET_VOLUME" requestId ++
    [("volume", .object [("level", .number (.float level)), ("muted", .bool muted)])])

def stopApp (requestId : UInt32) (sessionId : String) : Json :=
  .object (requestFields "STOP_APP" requestId ++ [("sessionId", .string sessionId)])

def load (requestId : UInt32) (sessionId contentId contentType : String)
    (streamType : StreamType) : Json :=
  .object (requestFields "LOAD" requestId ++
    [ ("media", .object
        [ ("contentId", .string contentId)
        , ("contentType", .string contentType)
        , ("streamType", .string streamType.asStr) ])
    , ("autoplay", .bool true)
    , ("currentTime", .nat 0)
    , ("sessionId", .string sessionId) ])

def play (requestId : UInt32) : Json := .object (requestFields "PLAY" requestId)

def pause (requestId : UInt32) : Json := .object (requestFields "PAUSE" requestId)

def stop (requestId : UInt32) : Json := .object (requestFields "STOP" requestId)

/-! ## Parsers -/

structure VolumeInfo where
  level : Float32
  muted : Bool

/-- The ids of the application entry a `RECEIVER_STATUS` was read for, and
the volume; omitted fields are `none`. -/
structure ReceiverStatus where
  transportId : Option String
  sessionId : Option String
  volume : Option VolumeInfo

inductive PlayerState : Type
  | idle
  | playing
  | paused
  | buffering
  | other (value : String)
  deriving DecidableEq, Repr

def PlayerState.parse (value : String) : PlayerState :=
  if value = "IDLE" then .idle
  else if value = "PLAYING" then .playing
  else if value = "PAUSED" then .paused
  else if value = "BUFFERING" then .buffering
  else .other value

structure MediaStatusInfo where
  playerState : PlayerState
  idleReason : Option String

/-- The volume object of a status; what it omits defaults to full and
unmuted. -/
def parseVolume (volume : List (String × Json)) : VolumeInfo where
  level := (((Json.getField volume "level").bind Json.asF64).map Float.toFloat32).getD 1.0
  muted := ((Json.getField volume "muted").bind Json.asBool).getD false

/-- The entry carries the Default Media Receiver's application id. -/
def isDefaultMediaReceiver (application : Json) : Bool :=
  (application.get "appId").bind Json.asStr == some defaultMediaReceiverAppId

/-- The entry a status is read for: the first of the Default Media Receiver,
else the first of all. -/
def selectApplication (applications : List Json) : Option Json :=
  (applications.find? isDefaultMediaReceiver).or applications.head?

/-- The application entry a `status` object is read for. -/
def selectedApplication (status : List (String × Json)) : Option Json :=
  ((Json.getField status "applications").bind Json.asArray).bind selectApplication

/-- `parse_receiver_status` on the `status` object of the message. -/
def receiverStatusOf (status : List (String × Json)) : ReceiverStatus :=
  let application := selectedApplication status
  { transportId := (application.bind (Json.get · "transportId")).bind Json.asStr
    sessionId := (application.bind (Json.get · "sessionId")).bind Json.asStr
    volume := ((Json.getField status "volume").bind Json.asObject).map parseVolume }

/-- The selected entry is one of those listed. -/
theorem selectedApplication_mem {status : List (String × Json)} {application : Json}
    (h : selectedApplication status = some application) :
    ∃ applications, (Json.getField status "applications").bind Json.asArray =
      some applications ∧ application ∈ applications := by
  obtain ⟨applications, hListed, hSelected⟩ := Option.bind_eq_some_iff.mp h
  refine ⟨applications, hListed, ?_⟩
  unfold selectApplication at hSelected
  cases hFind : applications.find? isDefaultMediaReceiver with
  | some found =>
      rw [hFind] at hSelected
      cases hSelected
      exact List.mem_of_find?_eq_some hFind
  | none =>
      rw [hFind] at hSelected
      exact List.mem_of_mem_head? hSelected

variable (fromStr : String → Option Json)

/-- The `status` object of a `RECEIVER_STATUS` message. -/
def receiverStatusObject (payload : String) : Option (List (String × Json)) := do
  let value ← fromStr payload
  let type ← value.get "type"
  if type.asStr ≠ some "RECEIVER_STATUS" then
    none
  else
    (← value.get "status").asObject

def parseReceiverStatus (payload : String) : Option ReceiverStatus :=
  (receiverStatusObject fromStr payload).map receiverStatusOf

def parseMediaStatus (payload : String) : Option MediaStatusInfo := do
  let value ← fromStr payload
  let type ← value.get "type"
  if type.asStr ≠ some "MEDIA_STATUS" then
    none
  else
    let status ← (← (← (← value.get "status").asArray).head?).asObject
    let playerState ← (Json.getField status "playerState").bind Json.asStr
    return {
      playerState := PlayerState.parse playerState
      idleReason := (Json.getField status "idleReason").bind Json.asStr }

end CastApp.Cast.Namespaces
