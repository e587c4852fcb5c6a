import CastApp.Cast.SessionPhase

/-!
# The ids of a launched application

A session becomes ready with a pair of ids gathered from whatever
`RECEIVER_STATUS` messages it has seen.  `ReadyIdsSound` is what the pair
should be: carried by one entry of the launched application in a status
received after the `LAUNCH`.  `CompletesSoundly` is when it is: the status
that completes the pair selects such an entry itself.

* **`run_ready_ids`** — in a run whose turns complete soundly, every session
  becomes ready, and loads, with the ids of the application it launched.
* `foreign_ids_ready` — without that, the ids of an application that ran
  before the launch are taken.
-/

namespace CastApp.Cast.LaunchIds

open CastApp.State
open CastApp.Cast.Journal
open CastApp.Cast.Namespaces
open CastApp.Cast.Proto
open CastApp.Cast.RequestId
open CastApp.Cast.RunEffect
open CastApp.Cast.RunInvariant
open CastApp.Cast.RunLoop
open CastApp.Cast.Session
open CastApp.Cast.SessionEffect
open CastApp.Cast.SessionPhase
open CastApp.Cast.SessionTurn
open CastApp.Util.Json
open CastApp.Verified.Coroutine
open CastApp.Verified.EventLoop
open CastApp.Verified.Transition

/-! ## Application entries -/

/-- The entry carries both ids. -/
structure CarriesIds (application : Json) (transportId sessionId : String) : Prop where
  transportId : (application.get "transportId").bind Json.asStr = some transportId
  sessionId : (application.get "sessionId").bind Json.asStr = some sessionId

/-- The entry is the Default Media Receiver's, or does not say whose it is. -/
def OfDefaultReceiver (application : Json) : Prop :=
  isDefaultMediaReceiver application = true ∨ application.get "appId" = none

variable (fromStr : String → Option Json)

/-- The `status` object of the `RECEIVER_STATUS` a payload carries. -/
def statusObjectIn (payload : List Byte) : Option (List (String × Json)) :=
  match decodeCastMessage payload with
  | .error _ => none
  | .ok message => receiverStatusObject fromStr message.payloadUtf8

theorem receiverStatusIn_eq (payload : List Byte) :
    receiverStatusIn fromStr payload =
      (statusObjectIn fromStr payload).map receiverStatusOf := by
  unfold receiverStatusIn statusObjectIn
  cases decodeCastMessage payload <;> rfl

/-- The turn receives a `RECEIVER_STATUS` that lists `application`. -/
def Lists (turn : TurnOf) (application : Json) : Prop :=
  ∃ payload status applications,
    turn.label.branch = .inbound (some (some payload)) ∧
      statusObjectIn fromStr payload = some status ∧
      (Json.getField status "applications").bind Json.asArray = some applications ∧
      application ∈ applications

/-- `LAUNCH` was written in the turn. -/
def Launches (turn : TurnOf) : Prop :=
  ∃ sent ∈ writesOf turn.label.ops, ∃ id, sent.message = .toReceiver (launch id)

def isLoad (message : Outgoing) : Bool :=
  (message.payload.get "type").bind Json.asStr == some "LOAD"

/-- A session that becomes ready in `turn`, after `turns`, does so with ids
carried together by one entry of the launched application, in a status
received after its `LAUNCH`; and a `LOAD` of the turn uses these ids. -/
def ReadyIdsSound (turns : List TurnOf) (turn : TurnOf) : Prop :=
  ∀ transportId sessionId, .ready transportId sessionId ∈ eventsOf turn.label.ops →
    (∃ before launching between, sessionTurns turns = before ++ launching :: between ∧
      Launches launching ∧
      ∃ statusTurn ∈ between ++ [turn], ∃ application, Lists fromStr statusTurn application ∧
        CarriesIds application transportId sessionId ∧ OfDefaultReceiver application) ∧
    ∀ sent ∈ writesOf turn.label.ops, isLoad sent.message = true →
      ∃ id request, sent.message =
        .toMedia (mediaDestinationId transportId) (loadMessage id sessionId request)

/-- A status handled while launching after which both ids are known selects
an entry that carries both and is of the launched application. -/
def CompletesSoundly (turn : TurnOf) : Prop :=
  ∀ state session payload status, turn.pre = .parked state →
    state.session = some session → session.phase = .launching →
    turn.label.branch = .inbound (some (some payload)) →
    statusObjectIn fromStr payload = some status →
    ((receiverStatusOf status).transportId.or session.transportId).isSome →
    ((receiverStatusOf status).sessionId.or session.sessionId).isSome →
    ∃ application transportId sessionId, selectedApplication status = some application ∧
      CarriesIds application transportId sessionId ∧ OfDefaultReceiver application

/-! ## Where readiness comes from -/

/-- Operations that neither announce readiness nor load. -/
structure Plain (ops : Ops) : Prop where
  ready : ∀ transportId sessionId, .ready transportId sessionId ∉ eventsOf ops
  load : ∀ sent ∈ writesOf ops, isLoad sent.message = false

theorem plain_nil : Plain [] := ⟨nofun, nofun⟩

theorem Plain.append {xs ys : Ops} (hxs : Plain xs) (hys : Plain ys) : Plain (xs ++ ys) where
  ready := by
    intro transportId sessionId h
    rw [eventsOf_append] at h
    rcases List.mem_append.mp h with h | h
    · exact hxs.ready _ _ h
    · exact hys.ready _ _ h
  load := by
    intro sent h
    rw [writesOf_append] at h
    rcases List.mem_append.mp h with h | h
    · exact hxs.load sent h
    · exact hys.load sent h

theorem Quiet.plain {ops : Ops} (h : Quiet ops) : Plain ops where
  ready := by
    intro transportId sessionId hReady
    rw [quiet_eventsOf h] at hReady
    cases hReady
  load := by
    intro sent hSent
    rw [quiet_writesOf h] at hSent
    cases hSent

/-- One emitted event other than `Ready`. -/
theorem plain_emit {event : ConnectionEvent}
    (h : ∀ transportId sessionId, event ≠ .ready transportId sessionId) :
    Plain [⟨.emit event, ()⟩] where
  ready := by
    intro transportId sessionId hReady
    exact h _ _ (List.mem_singleton.mp hReady).symm
  load := nofun

theorem plain_error {error : ConnectionError} : Plain [⟨.emit (.error error), ()⟩] :=
  plain_emit fun _ _ h => by cases h

theorem Goodbye.plain {session : Session} {ops : Ops} {o : Outcome castSig Session}
    (h : Goodbye session ops o) : Plain ops where
  ready := by
    intro transportId sessionId hReady
    rw [Goodbye.eventsOf_eq h] at hReady
    cases hReady
  load := by
    intro sent hSent
    cases h with
    | silent | exhausted => cases hSent
    | application => obtain rfl := List.mem_singleton.mp hSent; rfl
    | media => obtain rfl := List.mem_singleton.mp hSent; rfl
    | both =>
        rcases List.mem_cons.mp hSent with rfl | hSent
        · rfl
        · obtain rfl := List.mem_singleton.mp hSent
          rfl

theorem Teardown.plain {state : RunState} {ops : Ops} {o : Outcome castSig RunState}
    (h : Teardown state ops o) : Plain ops := by
  cases h with
  | idle => exact plain_nil
  | faulted _ hGoodbye => exact Goodbye.plain hGoodbye
  | ended _ hGoodbye =>
      refine (Goodbye.plain hGoodbye).append ⟨?_, nofun⟩
      intro transportId sessionId hReady
      cases List.mem_singleton.mp hReady

variable {config : ConnectionConfig}

theorem Lost.plain {state : RunState} {ops : Ops} {o : Outcome castSig RunState}
    (h : Lost config state ops o) : Plain ops := by
  cases h with
  | faulted h => exact Teardown.plain h
  | undesired h => exact Teardown.plain h
  | retry h => exact (Teardown.plain h).append (Quiet.plain (quiet_now _))
  | exhausted h => exact (Teardown.plain h).append plain_error

theorem plain_mismatchOps (device : CastDevice) (pin : PinCheck) :
    Plain (mismatchOps device pin) := by
  cases pin with
  | mismatch previous current => exact plain_emit (fun _ _ h => by cases h)
  | disabled | pinned | matched => exact plain_nil

theorem Establishes.plain {state : RunState} {device : CastDevice} {ops : Ops}
    {o : Outcome castSig (Except ConnectionError Unit × RunState)}
    (h : Establishes config state device ops o) : Plain ops := by
  have hConnect : ∀ answer, Plain [⟨.connect device, answer⟩] := fun _ => ⟨nofun, nofun⟩
  have hRest : ∀ (pin : PinCheck) (transport : Transport) (result : Except IoError Unit)
      (rest : Ops), Plain rest →
      Plain (mismatchOps device pin ++
        (⟨.write transport (.connectTo receiverId), result⟩ :: rest)) := by
    intro pin transport result rest hPlain
    have hWrite : Plain [⟨.write transport (.connectTo receiverId), result⟩] := by
      refine ⟨nofun, fun sent hSent => ?_⟩
      obtain rfl := List.mem_singleton.mp hSent
      rfl
    exact (plain_mismatchOps device pin).append (hWrite.append hPlain)
  cases h with
  | unreachable source => exact hConnect _
  | refused transport pin error => exact (hConnect _).append (hRest pin _ _ _ plain_nil)
  | unread transport pin channel source =>
      exact (hConnect _).append (hRest pin _ _ _ ⟨nofun, nofun⟩)
  | opened transport pin channel heartbeat watchdog =>
      refine (hConnect _).append (hRest pin _ _ _ ⟨?_, nofun⟩)
      intro transportId sessionId hReady
      cases List.mem_singleton.mp hReady

theorem Reaped.plain {state state' : RunState} {ops : Ops} (h : Reaped state ops state') :
    Plain ops := by
  cases h with
  | idle => exact plain_nil
  | live => exact Quiet.plain (quiet_now _)

/-- What a turn does besides the session's own action is plain. -/
theorem turnEffect_plain_or_acts {state : RunState} {b : Branch} {ops : Ops}
    {c : Stage castSig RunState} (h : TurnEffect config fromStr state b ops c) :
    Plain ops ∨ ∃ session opsActs rest o, state.session = some session ∧
      Acts fromStr session b opsActs o ∧ ops = opsActs ++ rest ∧ Plain rest := by
  cases h with
  | parked h hReaped =>
      have hClean := Reaped.plain hReaped
      cases h with
      | idle => exact .inl (plain_nil.append hClean)
      | acted hSession h _ hQuiet =>
          exact .inr ⟨_, _, _, _, hSession, h, List.append_assoc ..,
            (Quiet.plain hQuiet).append hClean⟩
      | failed hSession h _ hLost =>
          exact .inr ⟨_, _, _, _, hSession, h, List.append_assoc ..,
            (Lost.plain hLost).append hClean⟩
      | gone _ _ hLost => exact .inl ((Lost.plain hLost).append hClean)
      | selected h hEstablishes =>
          exact .inl (((Teardown.plain h).append (Establishes.plain hEstablishes)).append
            hClean)
      | selectFailed h hEstablishes =>
          exact .inl (((Teardown.plain h).append
            ((Establishes.plain hEstablishes).append plain_error)).append hClean)
      | reconnected _ h => exact .inl ((Establishes.plain h).append hClean)
      | retried _ h =>
          exact .inl (((Establishes.plain h).append (Quiet.plain (quiet_now _))).append
            hClean)
      | abandoned _ h =>
          exact .inl (((Establishes.plain h).append plain_error).append hClean)
  | exited h =>
      cases h with
      | closed => exact .inl plain_nil
      | left _ h => exact .inl (Teardown.plain h)
  | faulted h =>
      cases h with
      | faulted h =>
          cases h with
          | leaving _ h => exact .inl (Teardown.plain h)
          | selecting h => exact .inl (Teardown.plain h)
          | handling hSession h =>
              exact .inr ⟨_, _, _, _, hSession, h, (List.append_nil _).symm, plain_nil⟩
          | failing hSession h _ hLost =>
              exact .inr ⟨_, _, _, _, hSession, h, rfl, Lost.plain hLost⟩
          | losing _ _ h => exact .inl (Lost.plain h)

theorem becomeReady_ready {session : Session} {transportId sessionId : String}
    (h : .ready transportId sessionId ∈ session.becomeReady.1) :
    session.phase = .launching ∧ session.transportId = some transportId ∧
      session.sessionId = some sessionId ∧
      session.becomeReady.2 = { session with phase := .ready } := by
  unfold Session.becomeReady at h ⊢
  by_cases hPhase : session.phase = .launching
  · rw [if_pos hPhase] at h ⊢
    cases hTransport : session.transportId with
    | none =>
        rw [hTransport] at h
        cases h
    | some t =>
        cases hSession : session.sessionId with
        | none =>
            rw [hTransport, hSession] at h
            cases h
        | some s =>
            rw [hTransport, hSession] at h
            cases List.mem_singleton.mp h
            exact ⟨hPhase, rfl, rfl, rfl⟩
  · rw [if_neg hPhase] at h
    cases h

/-- A `Ready` event of a routed payload: the session was launching, and the
status in the payload completed the pair. -/
structure Completes (session session' : Session) (payload : List Byte)
    (transportId sessionId : String) : Prop where
  launching : session.phase = .launching
  status : ∃ status, statusObjectIn fromStr payload = some status ∧
    (receiverStatusOf status).transportId.or session.transportId = some transportId ∧
    (receiverStatusOf status).sessionId.or session.sessionId = some sessionId
  transportId : session'.transportId = some transportId
  sessionId : session'.sessionId = some sessionId

theorem RouteEffect.completes {session session' : Session} {payload : List Byte}
    {action : InboundAction} {ops : Ops} {transportId sessionId : String}
    (h : RouteEffect fromStr session payload (action, session')) (hHears : Hears action ops)
    (hReady : .ready transportId sessionId ∈ eventsOf ops) :
    Completes fromStr session session' payload transportId sessionId := by
  cases h with
  | @status status p hStatus =>
      cases hHears
      rw [eventsOf_emitted] at hReady
      have hSplit : .ready transportId sessionId ∈
          ((renumber session session.requestId p).adoptIds status).becomeReady.1 := by
        rcases List.mem_append.mp hReady with h | h
        · exact h
        · unfold Session.volumeEvents at h
          split at h
          · cases List.mem_singleton.mp h
          · cases h
      obtain ⟨hPhase, hTransport, hSession, hAfter⟩ := becomeReady_ready hSplit
      rw [receiverStatusIn_eq] at hStatus
      obtain ⟨object, hObject, rfl⟩ := Option.map_eq_some_iff.mp hStatus
      refine ⟨hPhase, ⟨object, hObject, hTransport, hSession⟩, ?_, ?_⟩
      · show (Session.becomeReady _).2.transportId = _
        rw [hAfter]
        exact hTransport
      · show (Session.becomeReady _).2.sessionId = _
        rw [hAfter]
        exact hSession
  | media p =>
      cases hHears
      rw [eventsOf_emitted] at hReady
      cases List.mem_singleton.mp hReady
  | pong => cases hHears <;> cases hReady
  | ignored => cases hHears; cases hReady

theorem RouteEffect.writesOf_eq {session session' : Session} {payload : List Byte}
    {action : InboundAction} {ops : Ops}
    (_ : RouteEffect fromStr session payload (action, session')) (hHears : Hears action ops) :
    writesOf ops = [] := by
  cases hHears with
  | events events => exact writesOf_emitted events
  | reset | unarmed | ignored => rfl

/-- What a session that becomes ready sends: the queued `LOAD`, under the ids
it became ready with. -/
theorem Acts.completes {session : Session} {b : Branch} {ops : Ops}
    {o : Outcome castSig Handled} {transportId sessionId : String}
    (h : Acts fromStr session b ops o)
    (hReady : .ready transportId sessionId ∈ eventsOf ops) :
    ∃ payload session', b = .inbound (some (some payload)) ∧
      Completes fromStr session session' payload transportId sessionId ∧
      ∀ sent ∈ writesOf ops, isLoad sent.message = true →
        ∃ id request, sent.message =
          .toMedia (mediaDestinationId transportId) (loadMessage id sessionId request) := by
  cases h with
  | command _ _ h =>
      rw [CommandEffect.eventsOf_eq h] at hReady
      cases hReady
  | routed hRoute hHears =>
      refine ⟨_, _, rfl, RouteEffect.completes fromStr hRoute hHears hReady, ?_⟩
      intro sent hSent
      rw [RouteEffect.writesOf_eq fromStr hRoute hHears] at hSent
      cases hSent
  | @dispatched payload action session' request _ _ _ hRoute hHears _ _ h =>
      rw [eventsOf_append, Loads.eventsOf_eq h, List.append_nil] at hReady
      have hCompletes := RouteEffect.completes fromStr hRoute hHears hReady
      have hDestination : ({ session' with pendingCommand := none } : Session).mediaDestination =
          mediaDestinationId transportId := by
        unfold Session.mediaDestination
        dsimp only
        rw [hCompletes.transportId]
      refine ⟨payload, session', rfl, hCompletes, ?_⟩
      intro sent hSent hLoad
      rw [writesOf_append, RouteEffect.writesOf_eq fromStr hRoute hHears] at hSent
      cases h with
      | refused | exhausted | unlaunched =>
          obtain rfl := List.mem_singleton.mp hSent
          cases hLoad
      | written id now r p sid hSid result =>
          rcases List.mem_cons.mp hSent with rfl | hSent
          · cases hLoad
          · obtain rfl := List.mem_singleton.mp hSent
            have hSame : some sid = some sessionId :=
              hSid.symm.trans hCompletes.sessionId
            cases hSame
            exact ⟨id, request, by rw [hDestination]⟩
  | pinged => cases hReady

/-! ## The launch before it -/

/-- The `LAUNCH` of a session that is launching was written in one of its
turns. -/
def LaunchRecorded (turns : List TurnOf) (session : Session) : Prop :=
  session.phase = .launching → ∃ turn ∈ sessionTurns turns, Launches turn

/-- A session that starts launching writes the `LAUNCH`. -/
theorem Acts.launches {session session' : Session} {b : Branch} {ops : Ops}
    {result : Except IoError Unit}
    (h : Acts fromStr session b ops (.value (result, session'))) (hInv : SessionInv session)
    (hBefore : session.phase ≠ .launching) (hAfter : session'.phase = .launching) :
    ∃ sent ∈ writesOf ops, ∃ id, sent.message = .toReceiver (launch id) := by
  cases h with
  | command _ _ h =>
      cases h with
      | ignored _ _ hOutcome => cases hOutcome; exact absurd hAfter hBefore
      | asked h hEffect =>
          cases hEffect with
          | written id now r p result =>
              cases h with
              | launch | load => exact ⟨_, List.mem_singleton.mpr rfl, id, rfl⟩
              | setVolume | getStatus => exact absurd hAfter hBefore
      | played hPhase h hEffect =>
          cases hEffect
          rcases Plays.launched h hPhase with hReady | hStreaming
          · cases hReady.symm.trans hAfter
          · cases hStreaming.symm.trans hAfter
      | loaded _ hPhase hEffect =>
          cases hEffect with
          | refused => exact absurd hAfter hBefore
          | written => cases hAfter
      | unreachable _ _ hOutcome => cases hOutcome
  | routed hRoute =>
      obtain ⟨-, -, hMoved⟩ := RouteEffect.phaseInv hRoute hInv.toPhaseInv
      rcases hMoved with hSame | ⟨hPhase, -⟩
      · exact absurd (hSame.symm.trans hAfter) hBefore
      · exact absurd hPhase hBefore
  | dispatched _ _ hPhase _ h =>
      cases h with
      | refused =>
          have hReady : Phase.ready = Phase.launching := hPhase.symm.trans hAfter
          cases hReady
      | written => cases hAfter
  | pinged => exact absurd hAfter hBefore

theorem run_launchRecorded {turns : List TurnOf} {state : RunState}
    (hRun : Run (run config fromStr).turns turns (.parked state)) :
    ∀ session, state.session = some session → LaunchRecorded turns session := by
  refine hRun.traceInvariant
    (I := fun turns c => ∀ state, c = .parked state →
      ∀ session, state.session = some session → LaunchRecorded turns session) ?_ ?_ state rfl
  · rintro c hInit state rfl session hSession
    cases run_init config fromStr hInit
    cases hSession
  · rintro turns c turn c' hBefore hPrevious ⟨state₀, rfl, hTurn⟩ state rfl after hAfter hPhase
    have hEffect := run_turnEffect config fromStr hTurn
    cases turnEffect_session (run_invariant hBefore).1 hEffect hAfter with
    | opened h hSession hOps hQuiet hBefore hEq =>
        rw [hEq] at hPhase
        cases hPhase
    | @continued session session' ops₁ quiet p hSession h hOps hQuiet hEq =>
        have hNoConnect : connects ⟨.parked state₀, turn, .parked state⟩ = false := by
          show turn.ops.any isConnect = false
          rw [hOps, List.any_append, Acts.no_connect h, Quiet.no_connect hQuiet]
          rfl
        rw [sessionTurns_concat _ hNoConnect]
        rw [hEq] at hPhase
        by_cases hLaunching : session.phase = .launching
        · obtain ⟨launching, hMem, hLaunches⟩ :=
            hPrevious state₀ rfl session hSession hLaunching
          exact ⟨launching, List.mem_append_left _ hMem, hLaunches⟩
        · obtain ⟨sent, hSent, hLaunch⟩ := Acts.launches fromStr h
            (run_sessionInv hBefore session hSession) hLaunching hPhase
          refine ⟨_, List.mem_append_right _ (List.mem_singleton.mpr rfl), sent, ?_, hLaunch⟩
          show sent ∈ writesOf turn.ops
          rw [hOps, writesOf_append]
          exact List.mem_append_left _ hSent

/-! ## Runs -/

/-- **In a run whose turns complete soundly**, whenever a session becomes
ready its ids are carried together by one entry of the launched application,
in a status received after the `LAUNCH`, and the `LOAD` sent then uses
them. -/
theorem run_ready_ids {turns : List TurnOf} {c : Stage castSig RunState}
    (hRun : Run (run config fromStr).turns turns c)
    (hCompletes : ∀ turn ∈ turns, CompletesSoundly fromStr turn) :
    ∀ first turn rest, turns = first ++ turn :: rest → ReadyIdsSound fromStr first turn := by
  rintro first turn rest rfl transportId sessionId hReady
  obtain ⟨hFirst, state, hPre, hTurn⟩ := hRun.step_run
  rw [hPre] at hFirst
  rcases turnEffect_plain_or_acts fromStr (run_turnEffect config fromStr hTurn) with
    hPlain | ⟨session, opsActs, after, o, hSession, hActs, hOps, hPlain⟩
  · exact absurd hReady (hPlain.ready _ _)
  rw [hOps, eventsOf_append] at hReady
  have hReadyActs := (List.mem_append.mp hReady).resolve_right (hPlain.ready _ _)
  obtain ⟨payload, session', hBranch, hDone, hLoads⟩ :=
    Acts.completes fromStr hActs hReadyActs
  refine ⟨?_, ?_⟩
  · obtain ⟨status, hStatus, hTransport, hSessionId⟩ := hDone.status
    obtain ⟨application, t, s, hSelected, hCarries, hOwn⟩ :=
      hCompletes turn (by simp) state session payload status hPre hSession hDone.launching
        hBranch hStatus (by simp [hTransport]) (by simp [hSessionId])
    have hT : (receiverStatusOf status).transportId = some t := by
      show ((selectedApplication status).bind _).bind _ = _
      rw [hSelected]
      exact hCarries.transportId
    have hS : (receiverStatusOf status).sessionId = some s := by
      show ((selectedApplication status).bind _).bind _ = _
      rw [hSelected]
      exact hCarries.sessionId
    rw [hT] at hTransport
    rw [hS] at hSessionId
    cases hTransport
    cases hSessionId
    obtain ⟨launching, hMem, hLaunches⟩ :=
      run_launchRecorded fromStr hFirst session hSession hDone.launching
    obtain ⟨before, between, hSplit⟩ := List.append_of_mem hMem
    obtain ⟨applications, hListed, hIn⟩ := selectedApplication_mem hSelected
    exact ⟨before, launching, between, hSplit, hLaunches, turn, by simp, application,
      ⟨payload, status, applications, hBranch, hStatus, hListed, hIn⟩, hCarries, hOwn⟩
  · intro sent hSent hLoad
    rw [hOps, writesOf_append] at hSent
    rcases List.mem_append.mp hSent with hSent | hSent
    · exact hLoads sent hSent hLoad
    · rw [hPlain.load sent hSent] at hLoad
      cases hLoad

/-! ## Two applications -/

/-- A status that lists one application, with the id `appId`. -/
def statusText (appId : String) : String :=
  "\x7b\"type\":\"RECEIVER_STATUS\",\"status\":\x7b\"applications\":[\x7b\"appId\":\"" ++
    appId ++ "\",\"transportId\":\"web-9\",\"sessionId\":\"s-1\"\x7d]\x7d\x7d"

def application (appId : String) : Json :=
  .object
    [ ("appId", .string appId)
    , ("transportId", .string "web-9")
    , ("sessionId", .string "s-1") ]

def statusOf (appId : String) : List (String × Json) :=
  [("applications", .array [application appId])]

/-- A parser that knows the status of one application. -/
def parserOf (appId text : String) : Option Json :=
  if text = statusText appId then
    some (.object
      [("type", .string "RECEIVER_STATUS"), ("status", .object (statusOf appId))])
  else
    none

def payloadOf (appId : String) : List Byte :=
  encodeCastMessage receiverId sourceId receiverNs (statusText appId)

/-- An application that is not the Default Media Receiver. -/
def foreignAppId : String := "233637DE"

theorem payloadOf_status {appId : String}
    (hDecoded : (decodeCastMessage (payloadOf appId)).toOption.map (·.payloadUtf8) =
      some (statusText appId)) :
    statusObjectIn (parserOf appId) (payloadOf appId) = some (statusOf appId) := by
  unfold statusObjectIn
  cases hResult : decodeCastMessage (payloadOf appId) with
  | error error => rw [hResult] at hDecoded; cases hDecoded
  | ok message =>
      rw [hResult] at hDecoded
      have hText : message.payloadUtf8 = statusText appId := Option.some.inj hDecoded
      show receiverStatusObject (parserOf appId) message.payloadUtf8 = _
      rw [hText]
      unfold receiverStatusObject parserOf
      rw [if_pos rfl]
      rfl

def launchedState (appId : String) : RunState :=
  match ((run .default (parserOf appId)).play (.parked .new) launchScript).2 with
  | .parked state => state
  | _ => .new

/-- The turn that receives the status of one application. -/
def heardOps (appId : String) : Ops :=
  (((run .default (parserOf appId)).body (launchedState appId)
    (.inbound (some (some (payloadOf appId))))).answerWith (obliging 2)).1

def isReadyWith (transportId sessionId : String) : ConnectionEvent → Bool
  | .ready t s => t == transportId && s == sessionId
  | _ => false

theorem ready_of_any {events : List ConnectionEvent} {transportId sessionId : String}
    (hAny : events.any (isReadyWith transportId sessionId) = true) :
    .ready transportId sessionId ∈ events := by
  obtain ⟨event, hEvent, hIs⟩ := List.any_eq_true.mp hAny
  cases event with
  | ready t s =>
      simp only [isReadyWith, Bool.and_eq_true, beq_iff_eq] at hIs
      rwa [hIs.1, hIs.2] at hEvent
  | connected | disconnected | error | mediaStatus | volume | certificateMismatch =>
      cases hIs

/-- The launch, then the status: a run of three turns, of which only the
last one receives. -/
theorem heard_run (appId : String)
    (hLaunched : ((run .default (parserOf appId)).play (.parked .new) launchScript).2 =
      .parked (launchedState appId)) :
    ∃ first turn c, Run (run .default (parserOf appId)).turns (first ++ [turn]) c ∧
      turn.label.branch = .inbound (some (some (payloadOf appId))) ∧
      turn.label.ops = heardOps appId ∧
      ∀ earlier ∈ first, ∀ payload,
        earlier.label.branch ≠ .inbound (some (some payload)) := by
  have hRun := play_run (.start (run_start _ _))
    (show (run .default (parserOf appId)).Admits (.parked .new) launchScript from
      ⟨trivial, trivial, trivial⟩)
  rw [hLaunched] at hRun
  have hTurn := takesTurn_answerWith (run .default (parserOf appId)) (launchedState appId)
    (.inbound (some (some (payloadOf appId)))) (obliging 2) rfl
  refine ⟨_, _, _, hRun.step ⟨_, rfl, hTurn⟩, rfl, rfl, ?_⟩
  intro earlier hEarlier payload hBranch
  change earlier ∈ [_, _] at hEarlier
  rcases List.mem_cons.mp hEarlier with rfl | hEarlier
  · cases hBranch
  · obtain rfl := List.mem_singleton.mp hEarlier
    cases hBranch

/-- The status decodes, and makes a session that is launching ready. -/
def Heard (appId : String) : Prop :=
  (decodeCastMessage (payloadOf appId)).toOption.map (·.payloadUtf8) = some (statusText appId) ∧
    (eventsOf (heardOps appId)).any (isReadyWith "web-9" "s-1") = true

instance (appId : String) : Decidable (Heard appId) := inferInstanceAs (Decidable (_ ∧ _))

theorem own_heard : Heard defaultMediaReceiverAppId := by decide +kernel

theorem foreign_heard : Heard foreignAppId := by decide +kernel

/-- The answer to the launch makes the session ready soundly. -/
theorem answered_ready_ids :
    ∃ first turn, .ready "web-9" "s-1" ∈ eventsOf turn.label.ops ∧
      ReadyIdsSound (parserOf defaultMediaReceiverAppId) first turn := by
  obtain ⟨first, turn, c, hRun, hHears, hOps, hFirst⟩ :=
    heard_run defaultMediaReceiverAppId rfl
  refine ⟨first, turn, hOps ▸ ready_of_any own_heard.2,
    run_ready_ids _ hRun ?_ first turn [] rfl⟩
  intro turn' hTurn state session payload status hPre hSession hPhase hBranch hStatus
  rcases List.mem_append.mp hTurn with hTurn | hTurn
  · exact absurd hBranch (hFirst turn' hTurn payload)
  · obtain rfl := List.mem_singleton.mp hTurn
    rw [hHears] at hBranch
    cases hBranch
    rw [payloadOf_status own_heard.1] at hStatus
    cases hStatus
    intro _ _
    exact ⟨application defaultMediaReceiverAppId, "web-9", "s-1", rfl, ⟨rfl, rfl⟩, .inl rfl⟩

/-- A launching session takes the ids of whatever application runs: the
status of another one, sent before the launch is answered, makes it ready. -/
theorem foreign_ids_ready :
    ¬ ∀ turns c, Run (run .default (parserOf foreignAppId)).turns turns c →
      ∀ first turn rest, turns = first ++ turn :: rest →
        ReadyIdsSound (parserOf foreignAppId) first turn := by
  intro hAll
  obtain ⟨first, turn, c, hRun, hHears, hOps, hFirst⟩ := heard_run foreignAppId rfl
  have hReady : .ready "web-9" "s-1" ∈ eventsOf turn.label.ops := by
    rw [hOps]
    exact ready_of_any foreign_heard.2
  obtain ⟨⟨before, launching, between, hSplit, -, statusTurn, hMem, entry,
    ⟨payload, status, applications, hBranch, hStatus, hListed, hIn⟩, -, hOwn⟩, -⟩ :=
    hAll _ _ hRun first turn [] rfl "web-9" "s-1" hReady
  rcases List.mem_append.mp hMem with hMem | hMem
  · -- No status arrived before that turn.
    have hEarlier := sessionTurns_subset (hSplit ▸
      List.mem_append_right before (List.mem_cons_of_mem launching hMem))
    exact absurd hBranch (hFirst statusTurn hEarlier payload)
  · -- The status of that turn lists the foreign application only.
    obtain rfl := List.mem_singleton.mp hMem
    rw [hHears] at hBranch
    cases hBranch
    rw [payloadOf_status foreign_heard.1] at hStatus
    cases hStatus
    cases hListed
    obtain rfl := List.mem_singleton.mp hIn
    rcases hOwn with hOwn | hOwn
    · exact absurd hOwn (by decide)
    · cases hOwn

end CastApp.Cast.LaunchIds
