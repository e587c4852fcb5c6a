import CastApp.Cast.Session

/-!
# Which pending request a response resolves

A status should resolve the pending request whose id is the integer in its
`requestId`, and no other.  The code reads that integer at 64 bits, narrows it
to 32, and resolves it while it collects the fields of a `debug!` event, that
is only when the event is enabled.  `Exact` is what should happen, `Misread`
when it does not.

* **`response_exact_iff`** — for every payload, `Exact` holds unless the
  response is misread.
* `aliased_response` — 4294967297 resolves the request 1.
-/

namespace CastApp.Cast.Responses

open CastApp.State
open CastApp.Cast.Namespaces
open CastApp.Cast.Proto
open CastApp.Cast.RequestId
open CastApp.Cast.Session
open CastApp.Util.Json

/-! ## Routing, with the event enabled or not -/

/-- `correlate`, where `debug` says that its `debug!` event is enabled: a field
of an event that is not enabled is never evaluated. -/
def correlateAt (debug : Bool) (session : Session) (value : Json) : Session :=
  if debug then session.correlate value else session

/-- `route_inbound`, with the event of `correlate` enabled or not. -/
def routeInboundAt (debug : Bool) (fromStr : String → Option Json) (session : Session)
    (payload : List Byte) : InboundAction × Session :=
  match decodeCastMessage payload with
  | .error _ => (.ignore, session)
  | .ok message =>
      match fromStr message.payloadUtf8 with
      | none => (.ignore, session)
      | some value =>
          match (value.get "type").bind Json.asStr with
          | none => (.ignore, session)
          | some msgType =>
              if msgType = "PONG" then
                (.pong, session)
              else if msgType = "RECEIVER_STATUS" then
                let session := correlateAt debug session value
                match parseReceiverStatus fromStr message.payloadUtf8 with
                | some status =>
                    let (events, session) := session.applyReceiverStatus status
                    (.events events, session)
                | none => (.ignore, session)
              else if msgType = "MEDIA_STATUS" then
                let session := correlateAt debug session value
                match parseMediaStatus fromStr message.payloadUtf8 with
                | some info => (.events (Session.applyMediaStatus info), session)
                | none => (.ignore, session)
              else
                (.ignore, session)

variable {fromStr : String → Option Json} {session : Session} {payload : List Byte}

/-- With the event enabled this is the routing of the other modules. -/
theorem routeInboundAt_true :
    routeInboundAt true fromStr session payload = session.routeInbound fromStr payload :=
  rfl

/-! ## What a response answers -/

/-- The `requestId` of the `RECEIVER_STATUS` or `MEDIA_STATUS` a payload
carries. -/
def statusRequestId (fromStr : String → Option Json) (payload : List Byte) : Option Json :=
  match decodeCastMessage payload with
  | .error _ => none
  | .ok message =>
      (fromStr message.payloadUtf8).bind fun value =>
        if (value.get "type").bind Json.asStr = some "RECEIVER_STATUS" ∨
            (value.get "type").bind Json.asStr = some "MEDIA_STATUS" then
          value.get "requestId"
        else
          none

/-- The value is the integer `id`, and ids start at 1. -/
def answers : Option Json → UInt32 → Bool
  | some (.number (.posInt n)), id => n.toNat == id.toNat && 1 ≤ id.toNat
  | _, _ => false

/-- A payload removes the pending request it answers, and nothing else. -/
def Exact (debug : Bool) (fromStr : String → Option Json) (session : Session)
    (payload : List Byte) : Prop :=
  (routeInboundAt debug fromStr session payload).2.pending =
    { session.pending with
      pending := session.pending.pending.filter
        fun entry => !answers (statusRequestId fromStr payload) entry.1 }

/-- The integers that are request ids. -/
def IsRequestId (n : UInt64) : Prop := 1 ≤ n.toNat ∧ n.toNat < 2 ^ 32

/-- The low 32 bits of the integer are pending, and either it is no request id
and the event is enabled, or it is one and the event is not. -/
def Misread (debug : Bool) (pending : PendingMap) (requestId : Option Json) : Prop :=
  ∃ n : UInt64, requestId = some (.number (.posInt n)) ∧
    pending.isPending n.toUInt32 = true ∧ ¬ (debug = true ↔ IsRequestId n)

/-! ## What the code does -/

/-- The pending requests after a response with the given `requestId`. -/
def pendingAfter (debug : Bool) (pending : PendingMap) (requestId : Option Json) :
    PendingMap :=
  match requestId.bind Json.asU64 with
  | some n => if debug then (pending.resolve n.toUInt32).2 else pending
  | none => pending

theorem correlateAt_pending (debug : Bool) (value : Json) :
    (correlateAt debug session value).pending =
      pendingAfter debug session.pending (value.get "requestId") := by
  unfold correlateAt pendingAfter Session.correlate
  cases debug <;> cases (value.get "requestId").bind Json.asU64 <;> rfl

theorem applyReceiverStatus_pending (session : Session) (status : ReceiverStatus) :
    (session.applyReceiverStatus status).2.pending = session.pending := by
  have hReady : ∀ s : Session, s.becomeReady.2.pending = s.pending := by
    intro s
    unfold Session.becomeReady
    split
    · split <;> rfl
    · rfl
  exact hReady (session.adoptIds status)

theorem routeInboundAt_pending (debug : Bool) :
    (routeInboundAt debug fromStr session payload).2.pending =
      pendingAfter debug session.pending (statusRequestId fromStr payload) := by
  unfold routeInboundAt statusRequestId
  cases decodeCastMessage payload with
  | error error => rfl
  | ok message =>
      cases hValue : fromStr message.payloadUtf8 with
      | none => simp only [hValue]; rfl
      | some value =>
          simp only [hValue, Option.bind_some]
          cases (value.get "type").bind Json.asStr with
          | none => rfl
          | some msgType =>
              have hOther : msgType ≠ "RECEIVER_STATUS" → msgType ≠ "MEDIA_STATUS" →
                  ¬ (some msgType = some "RECEIVER_STATUS" ∨
                    some msgType = some "MEDIA_STATUS") := by
                intro hReceiver hMedia h
                exact h.elim (fun h => hReceiver (Option.some.inj h))
                  (fun h => hMedia (Option.some.inj h))
              by_cases hPong : msgType = "PONG"
              · subst hPong
                rfl
              · by_cases hReceiver : msgType = "RECEIVER_STATUS"
                · subst hReceiver
                  rw [if_pos (Or.inl rfl), ← correlateAt_pending]
                  simp only [if_neg hPong, if_true]
                  cases parseReceiverStatus fromStr message.payloadUtf8 with
                  | none => rfl
                  | some status => exact applyReceiverStatus_pending _ status
                · by_cases hMedia : msgType = "MEDIA_STATUS"
                  · subst hMedia
                    rw [if_pos (Or.inr rfl), ← correlateAt_pending]
                    simp only [if_neg hPong, if_neg hReceiver, if_true]
                    cases parseMediaStatus fromStr message.payloadUtf8 <;> rfl
                  · rw [if_neg (hOther hReceiver hMedia)]
                    simp only [if_neg hPong, if_neg hReceiver, if_neg hMedia]
                    rfl

/-! ## Exactness -/

/-- Two filters of one list agree when their conditions do on its elements. -/
theorem filter_eq_filter_iff {α : Type} {l : List α} {p q : α → Bool} :
    l.filter p = l.filter q ↔ ∀ x ∈ l, p x = q x := by
  constructor
  · intro h x hx
    apply Bool.eq_iff_iff.mpr
    constructor
    · intro hp
      have hMem : x ∈ l.filter q := h ▸ List.mem_filter.mpr ⟨hx, hp⟩
      exact (List.mem_filter.mp hMem).2
    · intro hq
      have hMem : x ∈ l.filter p := h ▸ List.mem_filter.mpr ⟨hx, hq⟩
      exact (List.mem_filter.mp hMem).2
  · exact List.filter_congr

/-- An integer answers one id at most: its low 32 bits. -/
theorem answers_posInt (n : UInt64) (id : UInt32) :
    answers (some (.number (.posInt n))) id = true ↔ IsRequestId n ∧ id = n.toUInt32 := by
  have hId : id.toNat < 2 ^ 32 := id.toNat_lt
  have hLow : n.toUInt32.toNat = n.toNat % 2 ^ 32 := n.toNat_toUInt32
  have hUnfold : answers (some (.number (.posInt n))) id = true ↔
      n.toNat = id.toNat ∧ 1 ≤ id.toNat := by
    simp [answers]
  rw [hUnfold, ← UInt32.toNat_inj, hLow]
  unfold IsRequestId
  omega

/-- An id is removed when it is the low 32 bits and the event is enabled. -/
theorem pendingAfter_posInt (debug : Bool) (pending : PendingMap) (n : UInt64) :
    pendingAfter debug pending (some (.number (.posInt n))) =
      { pending with
        pending := pending.pending.filter fun entry => !(debug && entry.1 == n.toUInt32) } := by
  cases debug with
  | true => rfl
  | false =>
      have hAll : pending.pending.filter (fun _ => true) = pending.pending :=
        List.filter_eq_self.mpr fun _ _ => rfl
      exact congrArg (PendingMap.mk · pending.timeout) hAll.symm

/-- What is no non-negative integer answers nothing. -/
theorem answers_eq_false {requestId : Option Json} (h : requestId.bind Json.asU64 = none)
    (id : UInt32) : answers requestId id = false := by
  unfold answers
  split
  · cases h
  · rfl

theorem eq_posInt_of_asU64 {requestId : Option Json} {n : UInt64}
    (h : requestId.bind Json.asU64 = some n) : requestId = some (.number (.posInt n)) := by
  obtain ⟨value, rfl, hValue⟩ := Option.bind_eq_some_iff.mp h
  unfold Json.asU64 at hValue
  split at hValue
  · exact Option.some.inj hValue ▸ rfl
  · cases hValue

/-- Both filters of `response_exact_iff` agree on an entry unless it is the
one that is misread. -/
theorem entry_agrees_iff (debug : Bool) (n : UInt64) (id : UInt32) :
    (!(debug && id == n.toUInt32)) = (!answers (some (.number (.posInt n))) id) ↔
      (id = n.toUInt32 → (debug = true ↔ IsRequestId n)) := by
  rw [Bool.not_inj_iff, Bool.eq_iff_iff, answers_posInt, Bool.and_eq_true, beq_iff_eq]
  constructor
  · intro h hId
    have hIff := h
    simp only [hId, and_true] at hIff
    exact hIff
  · intro h
    constructor
    · rintro ⟨hDebug, hId⟩
      exact ⟨(h hId).mp hDebug, hId⟩
    · rintro ⟨hRequest, hId⟩
      exact ⟨(h hId).mpr hRequest, hId⟩

theorem isPending_iff {pending : PendingMap} {id : UInt32} :
    pending.isPending id = true ↔ ∃ entry ∈ pending.pending, entry.1 = id := by
  unfold PendingMap.isPending
  simp only [List.any_eq_true, beq_iff_eq]

/-- A response resolves the pending request it answers and nothing else exactly
when its id is not misread. -/
theorem response_exact_iff (debug : Bool) (fromStr : String → Option Json)
    (session : Session) (payload : List Byte) :
    Exact debug fromStr session payload ↔
      ¬ Misread debug session.pending (statusRequestId fromStr payload) := by
  unfold Exact
  rw [routeInboundAt_pending]
  cases hId : (statusRequestId fromStr payload).bind Json.asU64 with
  | none =>
      have hNot : ¬ Misread debug session.pending (statusRequestId fromStr payload) := by
        rintro ⟨n, hNumber, -⟩
        rw [hNumber] at hId
        cases hId
      have hKept : session.pending.pending.filter
          (fun entry => !answers (statusRequestId fromStr payload) entry.1) =
            session.pending.pending := by
        apply List.filter_eq_self.mpr
        intro entry _
        rw [answers_eq_false hId entry.1]
        rfl
      apply iff_of_true _ hNot
      rw [hKept]
      simp only [pendingAfter, hId]
  | some n =>
      rw [eq_posInt_of_asU64 hId, pendingAfter_posInt]
      have hEntries : session.pending.pending.filter
          (fun entry => !(debug && entry.1 == n.toUInt32)) =
            session.pending.pending.filter
              (fun entry => !answers (some (.number (.posInt n))) entry.1) ↔
          ∀ entry ∈ session.pending.pending, entry.1 = n.toUInt32 →
            (debug = true ↔ IsRequestId n) := by
        simp only [filter_eq_filter_iff, entry_agrees_iff]
      constructor
      · rintro hExact ⟨n', hNumber, hPending, hBad⟩
        obtain rfl : n = n' := by
          cases hNumber
          rfl
        obtain ⟨entry, hMem, hEntry⟩ := isPending_iff.mp hPending
        exact hBad (hEntries.mp (congrArg (·.pending) hExact) entry hMem hEntry)
      · intro hRead
        have hAgree := hEntries.mpr fun entry hMem hEntry =>
          Classical.byContradiction fun hBad =>
            hRead ⟨n, rfl, isPending_iff.mpr ⟨entry, hMem, hEntry⟩, hBad⟩
        rw [hAgree]

/-! ### A response that answers another request -/

/-- A status whose `requestId` is written with the given digits. -/
def statusText (digits : String) : String :=
  "\x7b\"type\":\"RECEIVER_STATUS\",\"requestId\":" ++ digits ++ "\x7d"

/-- A parser that knows one status. -/
def parserOf (digits : String) (n : UInt64) (text : String) : Option Json :=
  if text = statusText digits then
    some (.object [("type", .string "RECEIVER_STATUS"), ("requestId", .number (.posInt n))])
  else
    none

def payloadOf (digits : String) : List Byte :=
  encodeCastMessage receiverId sourceId receiverNs (statusText digits)

theorem payloadOf_requestId {digits : String} {n : UInt64}
    (hDecoded : (decodeCastMessage (payloadOf digits)).toOption.map (·.payloadUtf8) =
      some (statusText digits)) :
    statusRequestId (parserOf digits n) (payloadOf digits) = some (.number (.posInt n)) := by
  unfold statusRequestId
  cases hResult : decodeCastMessage (payloadOf digits) with
  | error error => rw [hResult] at hDecoded; cases hDecoded
  | ok message =>
      rw [hResult] at hDecoded
      have hText : message.payloadUtf8 = statusText digits := Option.some.inj hDecoded
      show (parserOf digits n message.payloadUtf8).bind _ = _
      rw [hText]
      unfold parserOf
      rw [if_pos rfl]
      rfl

/-- A session whose request 1 waits for its response. -/
def waitingSession : Session :=
  let session := Session.new (.fromManualAddr ⟨.v4 0xC0A80114, 8009⟩) ⟨0⟩ 5000
  { session with pending := session.pending.insert 1 0 }

/-- The response 4294967297 removes the request 1, and with the event disabled
the response 1 does not. -/
theorem aliased_response :
    ¬ Exact true (parserOf "4294967297" 4294967297) waitingSession
        (payloadOf "4294967297") ∧
      ¬ Exact false (parserOf "1" 1) waitingSession (payloadOf "1") := by
  constructor
  · unfold Exact
    rw [routeInboundAt_pending, payloadOf_requestId (by decide +kernel)]
    decide
  · unfold Exact
    rw [routeInboundAt_pending, payloadOf_requestId (by decide +kernel)]
    decide

end CastApp.Cast.Responses
