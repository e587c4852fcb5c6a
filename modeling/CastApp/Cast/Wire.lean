import CastApp.Cast.Codec
import CastApp.Cast.FrameStream
import CastApp.Cast.SessionIsolation
import CastApp.Verified.Automaton

/-!
# What a receiver hears

The bytes the connection task puts on a transport, and what comes out of them
at the other end.  A frame whose write failed may have been written in part.

* `Line` — a transport as the task may use it: `CONNECT` first, after a failed
  write farewells at most, and nothing once it is closed.
* `run_lines` — the task uses every transport so, in every interleaving.
* **`receivers_hear`** — what a receiver reads are the messages written, one by
  one and in their order, up to the first write that failed.
-/

namespace CastApp.Cast.Wire

open CastApp.State
open CastApp.Cast.Codec
open CastApp.Cast.ConnectionTask
open CastApp.Cast.Framing
open CastApp.Cast.FrameStream
open CastApp.Cast.Journal
open CastApp.Cast.Namespaces
open CastApp.Cast.Proto
open CastApp.Cast.Reader
open CastApp.Cast.RunEffect
open CastApp.Cast.RunInvariant
open CastApp.Cast.RunLoop
open CastApp.Cast.Session
open CastApp.Cast.SessionEffect
open CastApp.Cast.SessionIsolation
open CastApp.Cast.SessionTurn
open CastApp.Util.Json
open CastApp.Util.Utf8
open CastApp.Verified.Automaton
open CastApp.Verified.Coroutine
open CastApp.Verified.EventLoop
open CastApp.Verified.Transition

/-! ## The use of a transport -/

/-- What the task does with a transport. -/
inductive Use : Type
  | write (message : Outgoing) (result : Except IoError Unit)
  | close

def useOf (transport : Transport) : Entry castSig → Option Use
  | ⟨.write used message, result⟩ =>
      if used = transport then some (.write message result) else none
  | ⟨.close used, _⟩ => if used = transport then some .close else none
  | _ => none

def usesOf (transport : Transport) (ops : Ops) : List Use := ops.filterMap (useOf transport)

@[simp] theorem usesOf_append (transport : Transport) (xs ys : Ops) :
    usesOf transport (xs ++ ys) = usesOf transport xs ++ usesOf transport ys :=
  List.filterMap_append

/-- The write failed, wholly or after some of the frame. -/
def Use.fails : Use → Bool
  | .write _ (.error _) => true
  | _ => false

/-- The messages written before anything else. -/
def heard : List Use → List Outgoing
  | .write message (.ok ()) :: uses => message :: heard uses
  | _ => []

/-! ### The bytes -/

section Bytes

-- `render` is `Value::to_string`.
variable (render : Json → String)

/-- `encode_cast_message` of a message. -/
def payloadOf (message : Outgoing) : List Byte :=
  encodeCastMessage message.source message.destination message.namespaceUrn
    (render message.payload)

/-- The message as it is decoded. -/
def asRead (message : Outgoing) : CastMessage where
  protocolVersion := 0
  sourceId := message.source
  destinationId := message.destination
  namespaceUrn := message.namespaceUrn
  payloadType := .string
  payloadUtf8 := render message.payload

/-- The message fits into a frame. -/
def Fits (message : Outgoing) : Prop := (payloadOf render message).length ≤ maxFrameSize

/-- What a transport that is used so may have carried. -/
def Carries : List Use → List Byte → Prop
  | [], bytes => bytes = []
  | .write message (.ok ()) :: uses, bytes =>
      ∃ rest, bytes = encodeFrame (payloadOf render message) ++ rest ∧ Carries uses rest
  | .write message (.error _) :: uses, bytes =>
      ∃ part rest, part <+: encodeFrame (payloadOf render message) ∧ bytes = part ++ rest ∧
        Carries uses rest
  | .close :: uses, bytes => Carries uses bytes

/-- What somebody makes of the bytes who takes frames apart as the reader does. -/
def readsBack (chunks : List (List Byte)) :
    Except FrameError (List (Except ProtoError CastMessage)) :=
  (feed .new chunks).1.map fun frames => frames.map decodeCastMessage

/-- The frames of some messages. -/
def framesOf (messages : List Outgoing) : List Byte :=
  ((messages.map (payloadOf render)).map encodeFrame).flatten

end Bytes

/-! ### The rules -/

/-- Where a transport stands. -/
inductive Line : Type
  /-- Connected, and nothing written yet. -/
  | fresh
  | open
  /-- A write failed. -/
  | broken
  | closed
  deriving DecidableEq

/-- The last messages of a session: a media `STOP`, and `STOP_APP`. -/
inductive Farewell : Outgoing → Prop
  | media (destination : String) (id : UInt32) : Farewell (.toMedia destination (stop id))
  | application (id : UInt32) (sessionId : String) :
      Farewell (.toReceiver (stopApp id sessionId))

def Line.Allows : Line → Use → Prop
  | .fresh, .write message _ => message = .connectTo receiverId
  | .open, _ => True
  | .broken, .write message _ => Farewell message
  | .broken, .close => True
  | .fresh, .close | .closed, _ => False

/-- A first message that is refused closes the transport. -/
def Line.next : Line → Use → Line
  | .fresh, .write _ (.error _) => .closed
  | .fresh, .write _ (.ok _) | .open, .write _ (.ok _) => .open
  | .open, .write _ (.error _) | .broken, .write _ _ => .broken
  | .closed, .write _ _ => .closed
  | _, .close => .closed

/-- The line from one state to another. -/
abbrev Follows (line : Line) (uses : List Use) (line' : Line) : Prop :=
  Accepts Line.Allows Line.next line uses line'

/-! ## What is read of the bytes -/

variable {render : Json → String} {message : Outgoing} {messages : List Outgoing}
variable {uses : List Use} {bytes received : List Byte}

theorem length_le_lengthDelimited (field : UInt64) (data : List Byte) :
    data.length ≤ (lengthDelimited field data).length := by
  unfold lengthDelimited
  simp only [List.length_append]
  omega

/-- What fits into a frame is decoded again. -/
theorem decode_payloadOf (h : Fits render message) :
    decodeCastMessage (payloadOf render message) = .ok (asRead render message) := by
  have hLimit : maxFrameSize = maxFieldSize := rfl
  have hSource := length_le_lengthDelimited 2 (asBytes message.source)
  have hDest := length_le_lengthDelimited 3 (asBytes message.destination)
  have hNamespace := length_le_lengthDelimited 4 (asBytes message.namespaceUrn)
  have hPayload := length_le_lengthDelimited 6 (asBytes (render message.payload))
  unfold Fits payloadOf encodeCastMessage at h
  simp only [List.length_append] at h
  exact decode_encode (by omega) (by omega) (by omega) (by omega)

theorem decode_messages (h : ∀ message ∈ messages, Fits render message) :
    (messages.map (payloadOf render)).map decodeCastMessage =
      (messages.map (asRead render)).map .ok := by
  rw [List.map_map, List.map_map]
  exact List.map_congr_left fun message hMessage => decode_payloadOf (h message hMessage)

/-- The frames of what was heard come first. -/
theorem Carries.split (h : Carries render uses bytes) :
    ∃ rest, bytes = framesOf render (heard uses) ++ rest := by
  induction uses generalizing bytes with
  | nil => exact ⟨bytes, rfl⟩
  | cons use uses ih =>
      match use with
      | .write message (.ok ()) =>
          obtain ⟨rest, rfl, hRest⟩ := h
          obtain ⟨rest', rfl⟩ := ih hRest
          exact ⟨rest', (List.append_assoc ..).symm⟩
      | .write message (.error _) => exact ⟨bytes, rfl⟩
      | .close => exact ⟨bytes, rfl⟩

/-- Nothing is done with a closed transport. -/
theorem eq_nil_of_closed {line : Line} (h : Follows .closed uses line) : uses = [] := by
  cases uses with
  | nil => rfl
  | cons use uses => exact h.1.elim

/-- While no write fails nothing else is carried. -/
theorem Carries.whole {line line' : Line} (h : Carries render uses bytes)
    (hFollows : Follows line uses line') (hWritten : uses.any Use.fails = false) :
    bytes = framesOf render (heard uses) := by
  induction uses generalizing bytes line with
  | nil => exact h
  | cons use uses ih =>
      rw [List.any_cons, Bool.or_eq_false_iff] at hWritten
      match use with
      | .write message (.ok ()) =>
          obtain ⟨rest, rfl, hRest⟩ := h
          rw [ih hRest hFollows.2 hWritten.2]
          rfl
      | .write message (.error _) => cases hWritten.1
      | .close =>
          have hClosed : line.next .close = .closed := by cases line <;> rfl
          have hLater := hFollows.2
          rw [hClosed] at hLater
          obtain rfl := eq_nil_of_closed hLater
          exact h

/-- Of the beginning of some frames, the first ones are read. -/
theorem deframes_prefix (hFits : ∀ message ∈ messages, Fits render message)
    (hReceived : received <+: framesOf render messages) :
    ∃ said held, Deframes received (said.map (payloadOf render)) held ∧ Incomplete held ∧
      said <+: messages ∧ (received = framesOf render messages → said = messages) := by
  induction messages generalizing received with
  | nil =>
      obtain rfl := List.prefix_nil.mp hReceived
      have hNone : Incomplete [] := .inl (by decide)
      exact ⟨[], [], .incomplete hNone, hNone, List.nil_prefix, fun _ => rfl⟩
  | cons message messages ih =>
      obtain ⟨hMessage, hMessages⟩ := List.forall_mem_cons.mp hFits
      have hCons : framesOf render (message :: messages) =
          encodeFrame (payloadOf render message) ++ framesOf render messages := rfl
      rw [hCons] at hReceived ⊢
      by_cases hWhole : encodeFrame (payloadOf render message) <+: received
      · obtain ⟨rest, rfl⟩ := hWhole
        rw [List.prefix_append_right_inj] at hReceived
        obtain ⟨said, held, hFrames, hHeld, hSaid, hAll⟩ := ih hMessages hReceived
        refine ⟨message :: said, held, .frame hMessage hFrames, hHeld, ?_, fun hSame => ?_⟩
        · exact List.cons_prefix_cons.mpr ⟨rfl, hSaid⟩
        · rw [hAll (List.append_cancel_left hSame)]
      · have hPart : received <+: encodeFrame (payloadOf render message) := by
          rcases List.prefix_or_prefix_of_prefix hReceived (List.prefix_append _ _) with h | h
          · exact h
          · exact absurd h hWhole
        have hHeld : Incomplete received := by
          refine incomplete_of_prefix hMessage hPart ?_
          rintro rfl
          exact hWhole (List.prefix_refl _)
        refine ⟨[], received, .incomplete hHeld, hHeld, List.nil_prefix, ?_⟩
        rintro rfl
        exact absurd (List.prefix_append _ _) hWhole

/-- However they are cut. -/
theorem readsBack_prefix {chunks : List (List Byte)}
    (hFits : ∀ message ∈ messages, Fits render message)
    (hReceived : chunks.flatten <+: framesOf render messages) :
    ∃ said, readsBack chunks = .ok ((said.map (asRead render)).map .ok) ∧ said <+: messages ∧
      (chunks.flatten = framesOf render messages → said = messages) := by
  obtain ⟨said, held, hFrames, hHeld, hSaid, hAll⟩ := deframes_prefix hFits hReceived
  have hStream : Deframes (FrameAccumulator.new.buf ++ chunks.flatten)
      (said.map (payloadOf render)) held := hFrames
  refine ⟨said, ?_, hSaid, hAll⟩
  unfold readsBack
  rw [feed_deframes hStream hHeld (.inl (by decide))]
  show Except.ok ((said.map (payloadOf render)).map decodeCastMessage) = _
  rw [decode_messages fun message hMessage => hFits message (hSaid.subset hMessage)]

/-- What follows the frames changes nothing in what is read of them. -/
theorem deframes_behind (hFits : ∀ message ∈ messages, Fits render message) (rest : List Byte) :
    ∃ more held, Deframes (framesOf render messages ++ rest)
      (messages.map (payloadOf render) ++ more) held := by
  obtain ⟨more, held, hMore⟩ := exists_deframes rest
  have hFrames : Deframes (framesOf render messages) (messages.map (payloadOf render)) [] := by
    have hAll := @deframes_encoded (messages.map (payloadOf render)) []
      (List.forall_mem_map.mpr hFits) (.inl (by decide))
    rwa [List.append_nil] at hAll
  exact ⟨more, held, hFrames.append hMore⟩

/-! ## How the task uses its transports -/

theorem Follows.append {line line' line'' : Line} {first later : List Use}
    (hFirst : Follows line first line') (hLater : Follows line' later line'') :
    Follows line (first ++ later) line'' := Accepts.append hFirst hLater

/-- Operations that use one transport at most, and connect none. -/
structure Talks (transport : Transport) (line : Line) (ops : Ops) (line' : Line) : Prop where
  follows : Follows line (usesOf transport ops) line'
  only : ∀ other, other ≠ transport → usesOf other ops = []
  connects : transportsOf ops = []

/-- Operations that use none. -/
structure Silent (ops : Ops) : Prop where
  uses : ∀ transport, usesOf transport ops = []
  connects : transportsOf ops = []

variable {transport other : Transport} {line line' line'' : Line} {ops ops' : Ops}

theorem Talks.append (h : Talks transport line ops line') (h' : Talks transport line' ops' line'') :
    Talks transport line (ops ++ ops') line'' where
  follows := by
    rw [usesOf_append]
    exact h.follows.append h'.follows
  only other hOther := by rw [usesOf_append, h.only other hOther, h'.only other hOther]; rfl
  connects := by
    have hFirst := h.connects
    have hLater := h'.connects
    unfold transportsOf at hFirst hLater ⊢
    rw [List.filterMap_append, hFirst, hLater]
    rfl

theorem Silent.talks (h : Silent ops) (transport : Transport) (line : Line) :
    Talks transport line ops line where
  follows := by
    rw [h.uses]
    exact .nil
  only other _ := h.uses other
  connects := h.connects

theorem silent_nil : Silent [] := ⟨fun _ => rfl, rfl⟩

theorem silent_cons {entry : Entry castSig} (hUse : ∀ transport, useOf transport entry = none)
    (hConnect : connectedOf entry = none) (h : Silent ops) : Silent (entry :: ops) where
  uses transport := by
    have hLater := h.uses transport
    unfold usesOf at hLater ⊢
    rw [List.filterMap_cons_none (hUse transport), hLater]
  connects := by
    have hLater := h.connects
    unfold transportsOf at hLater ⊢
    rw [List.filterMap_cons_none hConnect, hLater]

theorem silent_now (now : Instant) (h : Silent ops) : Silent (⟨.now, now⟩ :: ops) :=
  silent_cons (fun _ => rfl) rfl h

theorem silent_emit (event : ConnectionEvent) (h : Silent ops) :
    Silent (⟨.emit event, ()⟩ :: ops) := silent_cons (fun _ => rfl) rfl h

theorem Quiet.silent (h : Quiet ops) : Silent ops := by
  induction ops with
  | nil => exact silent_nil
  | cons entry ops ih =>
      obtain ⟨hEntry, hLater⟩ := List.forall_mem_cons.mp h
      obtain ⟨now, rfl⟩ := hEntry
      exact silent_now now (ih hLater)

theorem silent_emitted (events : List ConnectionEvent) : Silent (emitted events) := by
  induction events with
  | nil => exact silent_nil
  | cons event events ih => exact silent_emit event ih

theorem Hears.silent {action : InboundAction} (h : Hears action ops) : Silent ops := by
  cases h with
  | reset now => exact silent_now now silent_nil
  | events events => exact silent_emitted events
  | unarmed | ignored => exact silent_nil

theorem silent_mismatchOps (device : CastDevice) (pin : PinCheck) :
    Silent (mismatchOps device pin) := by
  cases pin with
  | mismatch previous current => exact silent_emit _ silent_nil
  | disabled | pinned | matched => exact silent_nil

/-- One write. -/
theorem talks_write {message : Outgoing} {result : Except IoError Unit}
    (hAllows : line.Allows (.write message result)) :
    Talks transport line [⟨.write transport message, result⟩]
      (line.next (.write message result)) where
  follows := by
    simp only [usesOf, useOf, List.filterMap_cons, List.filterMap_nil, if_true]
    exact ⟨hAllows, rfl⟩
  only other hOther := by
    simp only [usesOf, useOf, List.filterMap_cons, List.filterMap_nil, if_neg hOther.symm]
  connects := rfl

/-- Reading the clock first. -/
theorem Talks.now (h : Talks transport line ops line') (now : Instant) :
    Talks transport line (⟨.now, now⟩ :: ops) line' :=
  ((silent_now now silent_nil).talks transport line).append h

/-! ### The handlers -/

/-- The line a handler leaves. -/
def lineOf : Outcome castSig Handled → Line
  | .value (.error _, _) => .broken
  | .value (.ok _, _) | .fault _ => .open

theorem talks_open (message : Outgoing) (result : Except IoError Unit) (session : Session) :
    Talks transport .open [⟨.write transport message, result⟩]
      (lineOf (.value (result, session))) := by
  have hTalks : Talks transport .open [⟨.write transport message, result⟩] _ :=
    talks_write trivial
  cases result <;> exact hTalks

theorem Requests.talks {session : Session} {outgoing : UInt32 → Outgoing} {phase : Phase}
    {o : Outcome castSig Handled} (h : Requests session outgoing phase ops o) :
    Talks session.transport .open ops (lineOf o) := by
  cases h with
  | exhausted => exact silent_nil.talks _ _
  | written id now r p result => exact (talks_open (outgoing id) result _).now now

theorem Loads.talks {session : Session} {request : LoadRequest} {o : Outcome castSig Handled}
    (h : Loads session request ops o) : Talks session.transport .open ops (lineOf o) := by
  have hConnect : Talks session.transport .open
      [⟨.write session.transport (.connectTo session.mediaDestination), .ok ()⟩] .open :=
    talks_open _ (.ok ()) session
  cases h with
  | refused error => exact talks_open _ (.error error) session
  | exhausted => exact hConnect
  | unlaunched now => exact hConnect.append ((silent_now now silent_nil).talks _ _)
  | written id now r p sessionId hSession result =>
      exact hConnect.append ((talks_open _ result _).now now)

variable {config : ConnectionConfig} {fromStr : String → Option Json}

/-- A handler writes on an open line, and finds out when it breaks. -/
theorem Acts.talks {session : Session} {b : Branch} {o : Outcome castSig Handled}
    (h : Acts fromStr session b ops o) : Talks session.transport .open ops (lineOf o) := by
  cases h with
  | command _ _ h =>
      cases h with
      | ignored _ hOps hOutcome =>
          rw [hOps, hOutcome]
          exact silent_nil.talks _ _
      | asked _ hEffect =>
          have hTalks := Requests.talks hEffect
          exact hTalks
      | played _ _ hEffect => exact Requests.talks hEffect
      | loaded _ _ hEffect => exact Loads.talks hEffect
      | unreachable _ hOps hOutcome =>
          rw [hOps, hOutcome]
          exact silent_nil.talks _ _
  | routed _ hHears => exact (Hears.silent hHears).talks _ _
  | dispatched hRoute hHears _ _ h =>
      refine ((Hears.silent hHears).talks _ _).append ?_
      have hTalks := Loads.talks h
      rw [← (RouteEffect.device hRoute).2]
      exact hTalks
  | pinged result => exact talks_open .heartbeat result session

/-- What is still written before the end. -/
def Parting (line : Line) : Prop := line = .open ∨ line = .broken

theorem talks_farewell {message : Outgoing} (result : Except IoError Unit) (hLine : Parting line)
    (hFarewell : Farewell message) :
    ∃ line', Parting line' ∧ Talks transport line [⟨.write transport message, result⟩] line' := by
  refine ⟨_, ?_, talks_write ?_⟩
  · rcases hLine with rfl | rfl
    · cases result
      · exact .inr rfl
      · exact .inl rfl
    · exact .inr rfl
  · rcases hLine with rfl | rfl
    · trivial
    · exact hFarewell

theorem Goodbye.talks {session : Session} {o : Outcome castSig Session}
    (h : Goodbye session ops o) (hLine : Parting line) :
    ∃ line', Parting line' ∧ Talks session.transport line ops line' := by
  cases h with
  | silent | exhausted => exact ⟨line, hLine, silent_nil.talks _ _⟩
  | @application sessionId _ _ id now r p result =>
      obtain ⟨line', hParting, hTalks⟩ := talks_farewell result hLine (.application id sessionId)
      exact ⟨line', hParting, hTalks.now now⟩
  | media _ _ id now result =>
      obtain ⟨line', hParting, hTalks⟩ :=
        talks_farewell result hLine (.media session.mediaDestination id)
      exact ⟨line', hParting, hTalks.now now⟩
  | @both sessionId _ _ id id' now now' r p result result' =>
      obtain ⟨line', hParting, hTalks⟩ :=
        talks_farewell result hLine (.media session.mediaDestination id)
      obtain ⟨line'', hParting', hTalks'⟩ :=
        talks_farewell result' hParting (.application id' sessionId)
      exact ⟨line'', hParting', (hTalks.now now).append (hTalks'.now now')⟩

theorem talks_close (hLine : Parting line) :
    Talks transport line [⟨.close transport, ()⟩] .closed where
  follows := by
    simp only [usesOf, useOf, List.filterMap_cons, List.filterMap_nil, if_true]
    rcases hLine with rfl | rfl <;> exact ⟨trivial, rfl⟩
  only other hOther := by
    simp only [usesOf, useOf, List.filterMap_cons, List.filterMap_nil, if_neg hOther.symm]
  connects := rfl

/-- A teardown uses the transport of the session only. -/
theorem Teardown.talks {state : RunState} {session : Session} {o : Outcome castSig RunState}
    (h : Teardown state ops o) (hSession : state.session = some session) (hLine : Parting line) :
    ∃ line', Talks session.transport line ops line' := by
  cases h with
  | idle hNone =>
      rw [hSession] at hNone
      cases hNone
  | faulted hLive hGoodbye =>
      cases hSession.symm.trans hLive
      obtain ⟨line', -, hTalks⟩ := Goodbye.talks hGoodbye hLine
      exact ⟨line', hTalks⟩
  | ended hLive hGoodbye =>
      cases hSession.symm.trans hLive
      obtain ⟨line', hParting, hTalks⟩ := Goodbye.talks hGoodbye hLine
      exact ⟨.closed, hTalks.append ((talks_close hParting).append
        ((silent_emit _ silent_nil).talks _ _))⟩

theorem Lost.talks {state : RunState} {session : Session} {o : Outcome castSig RunState}
    (h : Lost config state ops o) (hSession : state.session = some session)
    (hLine : Parting line) : ∃ line', Talks session.transport line ops line' := by
  cases h with
  | faulted h | undesired h => exact Teardown.talks h hSession hLine
  | retry h _ _ now =>
      obtain ⟨line', hTalks⟩ := Teardown.talks h hSession hLine
      exact ⟨line', hTalks.append ((silent_now now silent_nil).talks _ _)⟩
  | exhausted h =>
      obtain ⟨line', hTalks⟩ := Teardown.talks h hSession hLine
      exact ⟨line', hTalks.append ((silent_emit _ silent_nil).talks _ _)⟩

/-! ### Whole runs -/

/-- Every transport was used by the rules, the current one is open, and none
was used that was not connected. -/
structure LinesInv (ops : Ops) (current : Option Transport) : Prop where
  follows : ∀ transport, ∃ line, Follows .fresh (usesOf transport ops) line ∧
    (current = some transport → line = .open)
  connected : ∀ transport, usesOf transport ops ≠ [] → transport ∈ transportsOf ops

variable {current next : Option Transport}

theorem LinesInv.hangUp (h : LinesInv ops current) : LinesInv ops none where
  follows transport := by
    obtain ⟨line, hFollows, -⟩ := h.follows transport
    exact ⟨line, hFollows, nofun⟩
  connected := h.connected

/-- The current transport is used. -/
theorem LinesInv.talks (h : LinesInv ops (some transport))
    (hTalks : Talks transport .open ops' line)
    (hNext : ∀ kept, next = some kept → kept = transport ∧ line = .open) :
    LinesInv (ops ++ ops') next where
  follows other := by
    obtain ⟨before, hFollows, hOpen⟩ := h.follows other
    rw [usesOf_append]
    by_cases hOther : other = transport
    · subst hOther
      rw [hOpen rfl] at hFollows
      exact ⟨line, hFollows.append hTalks.follows, fun hKept => (hNext other hKept).2⟩
    · rw [hTalks.only other hOther, List.append_nil]
      exact ⟨before, hFollows, fun hKept => absurd (hNext other hKept).1 hOther⟩
  connected other hUses := by
    unfold transportsOf
    rw [List.filterMap_append]
    refine List.mem_append_left _ (h.connected other fun hNone => ?_)
    rw [usesOf_append, hNone, List.nil_append] at hUses
    by_cases hOther : other = transport
    · -- It has been used before: it is open.
      obtain ⟨before, hFollows, hOpen⟩ := h.follows other
      rw [hNone, hOpen (congrArg some hOther.symm)] at hFollows
      cases hFollows
    · exact hUses (hTalks.only other hOther)

theorem LinesInv.silent (h : LinesInv ops current) (hSilent : Silent ops') :
    LinesInv (ops ++ ops') current where
  follows other := by
    rw [usesOf_append, hSilent.uses, List.append_nil]
    exact h.follows other
  connected other hUses := by
    rw [usesOf_append, hSilent.uses, List.append_nil] at hUses
    unfold transportsOf
    rw [List.filterMap_append]
    exact List.mem_append_left _ (h.connected other hUses)

/-- What an attempt to connect does. -/
inductive Opens (ops : Ops) : Option Transport → Prop
  | unreachable (h : Silent ops) : Opens ops none
  | opened {transport : Transport} {line : Line} {kept : Option Transport}
      (hConnects : transportsOf ops = [transport])
      (hFollows : Follows .fresh (usesOf transport ops) line)
      (hOnly : ∀ other, other ≠ transport → usesOf other ops = [])
      (hKept : ∀ other, kept = some other → other = transport ∧ line = .open) : Opens ops kept

theorem LinesInv.opens (h : LinesInv ops none) (hOpens : Opens ops' next)
    (hNodup : (transportsOf (ops ++ ops')).Nodup) : LinesInv (ops ++ ops') next := by
  cases hOpens with
  | unreachable hSilent => exact h.silent hSilent
  | @opened transport line _ hConnects hFollows hOnly hKept =>
      have hAll : transportsOf (ops ++ ops') = transportsOf ops ++ [transport] := by
        rw [← hConnects]
        exact List.filterMap_append
      -- It is a new one: nothing has been done with it.
      have hUnused : usesOf transport ops = [] := by
        by_contra hUsed
        rw [hAll, List.nodup_append] at hNodup
        exact hNodup.2.2 transport (h.connected transport hUsed) transport
          (List.mem_singleton.mpr rfl) rfl
      refine ⟨fun other => ?_, fun other hUses => ?_⟩
      · rw [usesOf_append]
        by_cases hOther : other = transport
        · subst hOther
          rw [hUnused, List.nil_append]
          exact ⟨line, hFollows, fun hNext => (hKept other hNext).2⟩
        · rw [hOnly other hOther, List.append_nil]
          obtain ⟨before, hBefore, -⟩ := h.follows other
          exact ⟨before, hBefore, fun hNext => absurd (hKept other hNext).1 hOther⟩
      · rw [hAll]
        by_cases hOther : other = transport
        · rw [hOther]
          exact List.mem_append_right _ (List.mem_singleton.mpr rfl)
        · rw [usesOf_append, hOnly other hOther, List.append_nil] at hUses
          exact List.mem_append_left _ (h.connected other hUses)

/-- The transport of the live session. -/
def currentOf (state : RunState) : Option Transport := state.session.map (·.transport)

/-- A transport that is connected, and greeted. -/
theorem opens_greeted (device : CastDevice) (pin : PinCheck) {result : Except IoError Unit}
    {later : Ops} (hLater : Silent later)
    (hKept : ∀ other, next = some other →
      other = transport ∧ Line.next .fresh (.write (.connectTo receiverId) result) = .open) :
    Opens (⟨.connect device, .ok (transport, pin)⟩ :: (mismatchOps device pin ++
      ⟨.write transport (.connectTo receiverId), result⟩ :: later)) next := by
  have hGreets : Talks transport .fresh [⟨.write transport (.connectTo receiverId), result⟩] _ :=
    talks_write rfl
  have hTalks := ((silent_mismatchOps device pin).talks transport .fresh).append
    (hGreets.append (hLater.talks _ _))
  exact .opened (congrArg (transport :: ·) hTalks.connects) hTalks.follows hTalks.only hKept

theorem Establishes.opens {state state' : RunState} {device : CastDevice}
    {result : Except ConnectionError Unit}
    (h : Establishes config state device ops (.value (result, state'))) :
    Opens ops (if result.isOk then currentOf state' else none) := by
  have hUnused : ∀ {entry : Entry castSig}, (∀ t, useOf t entry = none) →
      connectedOf entry = none → Silent [entry] := fun hUse hConnect =>
    silent_cons hUse hConnect silent_nil
  cases h with
  | unreachable source => exact .unreachable (hUnused (fun _ => rfl) rfl)
  | refused transport pin error => exact opens_greeted device pin silent_nil nofun
  | unread transport pin channel source =>
      refine opens_greeted device pin ?_ nofun
      exact silent_cons (fun _ => rfl) rfl (silent_cons (fun _ => rfl) rfl silent_nil)
  | opened transport pin channel heartbeat watchdog =>
      refine opens_greeted device pin ?_ ?_
      · refine silent_cons (fun _ => rfl) rfl (silent_cons (fun _ => rfl) rfl ?_)
        exact silent_now _ (silent_now _ (silent_emit _ silent_nil))
      · rintro other ⟨⟩
        exact ⟨rfl, rfl⟩

/-- An attempt that fails, and what is done about it. -/
theorem LinesInv.attempted {state state' : RunState} {device : CastDevice}
    {error : ConnectionError} {later : Ops} (h : LinesInv ops none)
    (hFailed : Establishes config state device ops' (.value (.error error, state')))
    (hLater : Silent later) (hNodup : (transportsOf (ops ++ (ops' ++ later))).Nodup) :
    LinesInv (ops ++ (ops' ++ later)) none := by
  rw [← List.append_assoc] at hNodup ⊢
  unfold transportsOf at hNodup
  rw [List.filterMap_append] at hNodup
  exact (h.opens (Establishes.opens hFailed) (List.Nodup.of_append_left hNodup)).silent hLater

theorem Teardown.lines {state : RunState} {o : Outcome castSig RunState}
    (h : Teardown state ops' o) (hLines : LinesInv ops (currentOf state)) :
    LinesInv (ops ++ ops') none := by
  cases hSession : state.session with
  | none =>
      cases h with
      | idle => exact hLines.hangUp.silent silent_nil
      | faulted hSome | ended hSome =>
          rw [hSession] at hSome
          cases hSome
  | some session =>
      obtain ⟨line', hTalks⟩ := Teardown.talks h hSession (.inl rfl)
      rw [currentOf, hSession] at hLines
      exact hLines.talks hTalks nofun

theorem Lost.lines {state : RunState} {session : Session} {o : Outcome castSig RunState}
    (h : Lost config state ops' o) (hSession : state.session = some session)
    (hLines : LinesInv ops (currentOf state)) : LinesInv (ops ++ ops') none := by
  obtain ⟨line', hTalks⟩ := Lost.talks h hSession (.inl rfl)
  rw [currentOf, hSession] at hLines
  exact hLines.talks hTalks nofun

/-- A handler that finds the line broken. -/
theorem failed_lines {state state' : RunState} {session session' : Session} {b : Branch}
    {ops₁ ops₂ : Ops} {error : IoError} {o : Outcome castSig RunState}
    (hSession : state.session = some session)
    (h : Acts fromStr session b ops₁ (.value (.error error, session')))
    (hRearmed : Rearmed state session' state') (hLost : Lost config state' ops₂ o)
    (hLines : LinesInv ops (currentOf state)) : LinesInv (ops ++ (ops₁ ++ ops₂)) none := by
  obtain ⟨line', hTalks⟩ := Lost.talks hLost hRearmed.session (.inr rfl)
  rw [(Acts.device h).2] at hTalks
  rw [currentOf, hSession] at hLines
  exact hLines.talks ((Acts.talks h).append hTalks) nofun

/-- Where a turn or a branch leaves the task. -/
def keptOf : Outcome castSig (Flow RunState) → Option Transport
  | .value (.park state) => currentOf state
  | .value (.exit _) | .fault _ => none

theorem LinesInv.parked {state : RunState} (h : LinesInv ops none)
    (hSession : state.session = none) : LinesInv ops (keptOf (.value (.park state))) := by
  have hKept : keptOf (.value (.park state)) = none := by
    rw [keptOf, currentOf, hSession]
    rfl
  rw [hKept]
  exact h

theorem BranchEffect.lines {state : RunState} {b : Branch} {o : Outcome castSig (Flow RunState)}
    (h : BranchEffect config fromStr state b ops' o) (hInv : RunInv state)
    (hLines : LinesInv ops (currentOf state)) (hNodup : (transportsOf (ops ++ ops')).Nodup) :
    LinesInv (ops ++ ops') (keptOf o) := by
  have hReady : ∀ {attempt : Reconnect}, state.reconnect = some attempt →
      state.session = none ∧ LinesInv ops none := by
    intro attempt hReconnect
    exact ⟨hInv.single.resolve_right (by simp [hReconnect]), hLines.hangUp⟩
  cases h with
  | closed => exact hLines.hangUp.silent silent_nil
  | left _ h => exact Teardown.lines h hLines
  | faulted h =>
      cases h with
      | leaving _ h | selecting h => exact Teardown.lines h hLines
      | handling hSession h =>
          rw [currentOf, hSession] at hLines
          exact hLines.talks (Acts.talks h) nofun
      | failing hSession h hRearmed hLost => exact failed_lines hSession h hRearmed hLost hLines
      | losing hSession _ h => exact Lost.lines h hSession hLines
  | idle hSession h =>
      have hStill : LinesInv (ops ++ []) none := hLines.hangUp.silent silent_nil
      cases h <;> exact hStill.parked hSession
  | acted hSession h hRearmed hQuiet =>
      rw [currentOf, hSession] at hLines
      refine hLines.talks ((Acts.talks h).append ((Quiet.silent hQuiet).talks _ _)) ?_
      intro kept hKept
      rw [keptOf, currentOf, hRearmed.session] at hKept
      cases hKept
      exact ⟨(Acts.device h).2, rfl⟩
  | failed hSession h hRearmed hLost =>
      have hReconnect : _ = none := hRearmed.reconnect.trans
        (hInv.single.resolve_left (by simp [hSession]))
      have hDetached := (Lost.runInv hLost (by simp [hRearmed.session]) hReconnect).2
      exact (failed_lines hSession h hRearmed hLost hLines).parked hDetached.session
  | gone hSession _ hLost =>
      have hReconnect := hInv.single.resolve_left (by simp [hSession])
      have hDetached := (Lost.runInv hLost (by simp [hSession]) hReconnect).2
      exact (Lost.lines hLost hSession hLines).parked hDetached.session
  | selected h hEstablishes =>
      have hTorn := Teardown.lines h hLines
      rw [← List.append_assoc] at hNodup ⊢
      exact hTorn.opens (Establishes.opens hEstablishes) hNodup
  | selectFailed h hEstablishes =>
      obtain rfl := Establishes.error_eq hEstablishes
      have hSession := (Teardown.tornFrom h hInv.detached).detached.session
      have hTorn := Teardown.lines h hLines
      rw [← List.append_assoc] at hNodup ⊢
      exact (hTorn.attempted hEstablishes (silent_emit _ silent_nil) hNodup).parked hSession
  | reconnected hReconnect h => exact (hReady hReconnect).2.opens (Establishes.opens h) hNodup
  | retried hReconnect h _ now =>
      obtain rfl := Establishes.error_eq h
      obtain ⟨hSession, hNone⟩ := hReady hReconnect
      exact (hNone.attempted h (silent_now now silent_nil) hNodup).parked hSession
  | abandoned hReconnect h =>
      obtain rfl := Establishes.error_eq h
      obtain ⟨hSession, hNone⟩ := hReady hReconnect
      exact (hNone.attempted h (silent_emit _ silent_nil) hNodup).parked hSession

/-- The transport of the session a turn leaves. -/
def stageKept : Stage castSig RunState → Option Transport
  | .parked state => currentOf state
  | .exited _ | .faulted _ => none

theorem TurnEffect.lines {state : RunState} {b : Branch} {stage : Stage castSig RunState}
    (h : TurnEffect config fromStr state b ops' stage) (hInv : RunInv state)
    (hLines : LinesInv ops (currentOf state)) (hNodup : (transportsOf (ops ++ ops')).Nodup) :
    LinesInv (ops ++ ops') (stageKept stage) := by
  cases h with
  | parked h hReaped =>
      rw [← List.append_assoc] at hNodup ⊢
      unfold transportsOf at hNodup
      rw [List.filterMap_append] at hNodup
      have hBranch := BranchEffect.lines h hInv hLines (List.Nodup.of_append_left hNodup)
      cases hReaped with
      | idle => exact hBranch.silent silent_nil
      | live hSession now p =>
          rw [keptOf, currentOf, hSession] at hBranch
          exact hBranch.silent (silent_now now silent_nil)
  | exited h => exact BranchEffect.lines h hInv hLines hNodup
  | faulted h => exact BranchEffect.lines h hInv hLines hNodup

theorem linesInv_nil : LinesInv [] none where
  follows _ := ⟨.fresh, .nil, nofun⟩
  connected _ hUses := absurd rfl hUses

/-- The run lemma: if every connection is a new one. -/
theorem turns_lines {turns : List TurnOf} {stage : Stage castSig RunState}
    (hRun : Run (run config fromStr).turns turns stage)
    (hNodup : (transportsOf (opsOf turns)).Nodup) : LinesInv (opsOf turns) (stageKept stage) := by
  revert hNodup
  refine hRun.traceInvariant
    (I := fun turns stage => (transportsOf (opsOf turns)).Nodup →
      LinesInv (opsOf turns) (stageKept stage)) ?_ ?_
  · intro stage hInit _
    cases run_init config fromStr hInit
    exact linesInv_nil
  · rintro turns stage turn stage' hBefore hPrevious ⟨state, rfl, hTurn⟩ hNodup
    rw [opsOf_append, opsOf_singleton] at hNodup ⊢
    have hEarlier := hNodup
    unfold transportsOf at hEarlier
    rw [List.filterMap_append] at hEarlier
    exact TurnEffect.lines (run_turnEffect config fromStr hTurn) (run_invariant hBefore).1
      (hPrevious (List.Nodup.of_append_left hEarlier)) hNodup

/-- Nothing can be connected, and everything else is done. -/
def unreachable : Oracle castSig
  | .connect _ => .error .workerPanicked
  | .write _ _ | .spawnReader _ _ => .ok ()
  | .channel => ⟨0⟩
  | .now => (0 : Nat)
  | .subscribe | .close _ | .emit _ => ()

/-- **The rules of a transport**, at every moment of every interleaving. -/
theorem run_lines {trace : List TaskMove} {c : TaskState}
    (hRun : Run (connectionTask config fromStr) trace c) (transport : Transport) :
    ∃ line, Follows .fresh (usesOf transport (answered trace)) line := by
  obtain ⟨stage, more, hMore, first, o, turns, hPrelude, hTurns, hOps⟩ :=
    small_played unreachable hRun
  have hFirst : usesOf transport first = [] ∧ transportsOf first = [] := by
    obtain ⟨r, rest, rfl, hDone⟩ := exec_perform_bind.mp hPrelude
    obtain ⟨rfl, -⟩ := exec_pure.mp hDone
    exact ⟨rfl, rfl⟩
  -- The turn is played to its end without another connection.
  have hConnects : transportsOf more = [] := by
    refine List.filterMap_eq_nil_iff.mpr fun ⟨op, r⟩ hEntry => ?_
    obtain rfl : r = unreachable op := hMore _ hEntry
    cases op <;> rfl
  have hNodup : (transportsOf (opsOf turns)).Nodup := by
    have hSame := congrArg transportsOf hOps
    unfold transportsOf at hSame hFirst hConnects ⊢
    rw [List.filterMap_append, List.filterMap_append, hConnects, hFirst.2, List.append_nil,
      List.nil_append] at hSame
    rw [← hSame]
    exact List.Nodup.of_map _ (run_worldInv hRun).transports.nodup
  obtain ⟨line, hFollows, -⟩ := (turns_lines hTurns hNodup).follows transport
  have hUses := congrArg (usesOf transport) hOps
  rw [usesOf_append, usesOf_append, hFirst.1, List.nil_append] at hUses
  rw [← hUses] at hFollows
  obtain ⟨line', hBefore, -⟩ := Accepts.split hFollows
  exact ⟨line', hBefore⟩

/-! ## The result -/

/-- **What a receiver hears is what it was told.**  In every interleaving of the
task, the shutdown token and the reader threads, each transport is greeted
first, gets farewells at most once a write on it has failed, and nothing once it
is closed.  Whoever has received any part of what it carried reads, however it
was cut, the messages written on it, each as it was, none left out and none
twice, as far as they arrived.  When a write fails this is still so for what
was written before, whatever is left of that frame and comes behind it. -/
theorem receivers_hear {trace : List TaskMove} {c : TaskState}
    (hRun : Run (connectionTask config fromStr) trace c) (transport : Transport)
    (hCarries : Carries render (usesOf transport (answered trace)) bytes)
    (hFits : ∀ message ∈ heard (usesOf transport (answered trace)), Fits render message) :
    (∃ line, Follows .fresh (usesOf transport (answered trace)) line) ∧
    (∀ chunks, (usesOf transport (answered trace)).any Use.fails = false →
      chunks.flatten <+: bytes →
      ∃ said, readsBack chunks = .ok ((said.map (asRead render)).map .ok) ∧
        said <+: heard (usesOf transport (answered trace)) ∧
        (chunks.flatten = bytes → said = heard (usesOf transport (answered trace)))) ∧
    ∀ received, received <+: bytes → ∃ frames held, Deframes received frames held ∧
      (frames <+: (heard (usesOf transport (answered trace))).map (payloadOf render) ∨
        (heard (usesOf transport (answered trace))).map (payloadOf render) <+: frames) := by
  obtain ⟨line, hFollows⟩ := run_lines hRun transport
  refine ⟨⟨line, hFollows⟩, fun chunks hWritten hChunks => ?_, fun received hReceived => ?_⟩
  · rw [hCarries.whole hFollows hWritten] at hChunks ⊢
    exact readsBack_prefix hFits hChunks
  · obtain ⟨rest, hBytes⟩ := hCarries.split
    rw [hBytes] at hReceived
    rcases List.prefix_or_prefix_of_prefix hReceived (List.prefix_append _ _) with hShort | hLong
    · obtain ⟨said, held, hFrames, -, hSaid, -⟩ := deframes_prefix hFits hShort
      exact ⟨_, held, hFrames, .inl (hSaid.map _)⟩
    · obtain ⟨behind, rfl⟩ := hLong
      obtain ⟨more, held, hFrames⟩ := deframes_behind hFits behind
      exact ⟨_, held, hFrames, .inr (List.prefix_append _ _)⟩

/-- The text of `CONNECT`. -/
def connectText (_ : Json) : String :=
  "\x7b\"type\":\"CONNECT\",\"origin\":\x7b\x7d,\"userAgent\":\"cast-app/0.1.0\",\"connType\":0," ++
    "\"senderInfo\":\x7b\"sdkType\":2,\"version\":\"0.1.0\",\"browserVersion\":\"0.1.0\"," ++
    "\"platform\":6,\"connectionType\":1\x7d\x7d"

def greeting : List Byte := encodeFrame (payloadOf connectText (.connectTo receiverId))

/-- A receiver that was just connected hears the greeting. -/
theorem greeting_heard :
    ∃ trace c, Run (connectionTask .default fun _ => none) trace c ∧
      readsBack [greeting] = .ok [.ok (asRead connectText (.connectTo receiverId))] := by
  have hStart : Run (connectionTask .default fun _ => none) []
      (.running (run .default fun _ => none).prelude, .new) := .start ⟨rfl, rfl⟩
  have hListening := run_park (hStart.step (.answer .subscribe))
  have hSelected := run_fire (.command (some (.select livingRoom))) hListening trivial (.command _)
  have hConnected := hSelected.step (.answer (.connected .disabled))
  have hGreeted := hConnected.step (.answer (.write (.ok ())))
  have hFits : Fits connectText (.connectTo receiverId) := by
    unfold Fits
    decide +kernel
  have hCarries : Carries connectText [.write (.connectTo receiverId) (.ok ())] greeting :=
    ⟨[], (List.append_nil _).symm, rfl⟩
  obtain ⟨-, hReads, -⟩ := receivers_hear hGreeted ⟨0⟩ hCarries
    (List.forall_mem_singleton.mpr hFits)
  have hOne : [greeting].flatten = greeting := List.flatten_singleton
  have hWhole : [greeting].flatten <+: greeting := ⟨[], by rw [hOne, List.append_nil]⟩
  obtain ⟨said, hSaid, -, hAll⟩ := hReads [greeting] rfl hWhole
  obtain rfl := hAll hOne
  exact ⟨_, _, hGreeted, hSaid⟩

end CastApp.Cast.Wire
