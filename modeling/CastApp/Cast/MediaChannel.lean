import CastApp.Cast.LaunchIds

/-!
# `CONNECT` before media

A receiver answers media messages only on a channel opened with `CONNECT`.
`Introduced` is the rule for one write: a message on the media namespace
follows, in the same session, an accepted `CONNECT` to its destination.  The
two `LOAD` paths obey it by themselves; `PLAY`, `PAUSE`, `STOP` and the
farewell go to the media destination of the moment, so they obey it when that
destination has been loaded before.

* **`run_media_introduced`** — when every turn that would write one of these
  finds its destination loaded, every media message of the run is introduced.
* `play_not_introduced` — a `Play` before the first `LOAD` is not.
-/

namespace CastApp.Cast.MediaChannel

open CastApp.State
open CastApp.Cast.Journal
open CastApp.Cast.LaunchIds
open CastApp.Cast.Namespaces
open CastApp.Cast.RequestId
open CastApp.Cast.RunEffect
open CastApp.Cast.RunInvariant
open CastApp.Cast.RunLoop
open CastApp.Cast.Session
open CastApp.Cast.SessionEffect
open CastApp.Cast.SessionPhase
open CastApp.Cast.SessionTurn
open CastApp.Util.Json
open CastApp.Verified.Coroutine
open CastApp.Verified.EventLoop
open CastApp.Verified.Monitor
open CastApp.Verified.Transition

/-! ## The rule -/

/-- `CONNECT` to `destination` was accepted in the current session. -/
def Opened (history : Ops) (transport : Transport) (destination : String) : Prop :=
  (⟨.write transport (.connectTo destination), .ok ()⟩ : Entry castSig) ∈
    since isConnect history

/-- A write on the media namespace goes where `CONNECT` went before. -/
def Introduced (history : Ops) (entry : Entry castSig) : Prop :=
  ∀ sent, sentOf entry = some sent → sent.message.namespaceUrn = mediaNs →
    Opened history sent.transport sent.message.destination

/-! ## The condition -/

/-- The message loads media at `destination`. -/
def loadsAt (destination : String) (sent : Sent) : Bool :=
  isLoad sent.message && sent.message.namespaceUrn == mediaNs &&
    sent.message.destination == destination

/-- A `LOAD` was sent to `destination` in the current session. -/
def LoadedAt (history : Ops) (destination : String) : Prop :=
  (writesOf (since isConnect history)).any (loadsAt destination) = true

/-- In this phase, the command is passed on to the media channel. -/
def speaks (phase : Phase) : Branch → Bool
  | .command (some .play) | .command (some .pause) | .command (some .stop) =>
      phase = .ready || phase = .streaming
  | _ => false

/-- The transport refused the first message. -/
def refused (ops : Ops) : Bool :=
  match writesOf ops with
  | ⟨_, _, .error _⟩ :: _ => true
  | _ => false

/-- The branches that end the session they find. -/
def endsSession : Branch → Bool
  | .shutdown | .command (some .shutdown) | .command (some (.select _)) => true
  | .inbound none | .inbound (some none) | .watchdog => true
  | _ => false

/-- The session found by the turn does not survive it. -/
def ends (turn : Turn castSig Branch) : Bool :=
  endsSession turn.branch || refused turn.ops

def sessionAt : Stage castSig RunState → Option Session
  | .parked state => state.session
  | _ => none

/-- A turn that passes a command on, or ends a session that is streaming,
finds a `LOAD` sent to the present media destination. -/
def FollowsLoad (turns : List TurnOf) (turn : TurnOf) : Prop :=
  ∀ session ∈ sessionAt turn.pre,
    (speaks session.phase turn.label.branch ∨
      session.phase = .streaming ∧ ends turn.label) →
    LoadedAt (opsOf turns) session.mediaDestination

instance (turns : List TurnOf) (turn : TurnOf) : Decidable (FollowsLoad turns turn) := by
  unfold FollowsLoad LoadedAt
  infer_instance

/-! ## Writes off the media channel -/

/-- Operations that write nothing on the media namespace. -/
def MediaFree (ops : Ops) : Prop :=
  ∀ entry ∈ ops, ∀ sent, sentOf entry = some sent → sent.message.namespaceUrn ≠ mediaNs

theorem MediaFree.introduced {ops : Ops} (h : MediaFree ops) (history : Ops) :
    Accepts Introduced history ops := by
  refine accepts_of_forall fun entry hEntry history sent hSent hMedia => ?_
  exact absurd hMedia (h entry hEntry sent hSent)

theorem mediaFree_nil : MediaFree [] := nofun

theorem MediaFree.append {xs ys : Ops} (hxs : MediaFree xs) (hys : MediaFree ys) :
    MediaFree (xs ++ ys) := by
  intro entry hEntry
  rcases List.mem_append.mp hEntry with h | h
  · exact hxs entry h
  · exact hys entry h

theorem mediaFree_cons {entry : Entry castSig} {ops : Ops} (hOps : MediaFree ops)
    (hEntry : ∀ sent, sentOf entry = some sent → sent.message.namespaceUrn ≠ mediaNs) :
    MediaFree (entry :: ops) := by
  intro entry' h
  rcases List.mem_cons.mp h with rfl | h
  · exact hEntry
  · exact hOps entry' h

/-- An entry that is not a write. -/
theorem mediaFree_other {entry : Entry castSig} {ops : Ops} (hOps : MediaFree ops)
    (hEntry : sentOf entry = none) : MediaFree (entry :: ops) := by
  refine mediaFree_cons hOps fun sent hSent => ?_
  rw [hEntry] at hSent
  cases hSent

/-- A write on another namespace. -/
theorem mediaFree_write {transport : Transport} {message : Outgoing}
    {result : Except IoError Unit} {ops : Ops} (hOps : MediaFree ops)
    (hMessage : message.namespaceUrn ≠ mediaNs) :
    MediaFree (⟨.write transport message, result⟩ :: ops) := by
  refine mediaFree_cons hOps fun sent hSent => ?_
  cases hSent
  exact hMessage

theorem receiver_ne_media (payload : Json) :
    (Outgoing.toReceiver payload).namespaceUrn ≠ mediaNs := by
  show receiverNs ≠ mediaNs
  decide

theorem connection_ne_media (destination : String) :
    (Outgoing.connectTo destination).namespaceUrn ≠ mediaNs := by
  show connectionNs ≠ mediaNs
  decide

theorem heartbeat_ne_media : Outgoing.heartbeat.namespaceUrn ≠ mediaNs := by
  show heartbeatNs ≠ mediaNs
  decide

theorem Quiet.mediaFree {ops : Ops} (h : Quiet ops) : MediaFree ops := by
  intro entry hEntry sent hSent
  obtain ⟨now, rfl⟩ := h entry hEntry
  cases hSent

theorem Hears.mediaFree {action : InboundAction} {ops : Ops} (h : Hears action ops) :
    MediaFree ops := by
  cases h with
  | events events => induction events with
    | nil => exact mediaFree_nil
    | cons event events ih => exact mediaFree_other ih rfl
  | reset now => exact Quiet.mediaFree (quiet_now now)
  | unarmed | ignored => exact mediaFree_nil

theorem Establishes.mediaFree {config : ConnectionConfig} {state : RunState}
    {device : CastDevice} {ops : Ops}
    {o : Outcome castSig (Except ConnectionError Unit × RunState)}
    (h : Establishes config state device ops o) : MediaFree ops := by
  have hPin : ∀ pin, MediaFree (mismatchOps device pin) := by
    intro pin
    cases pin with
    | mismatch previous current => exact mediaFree_other mediaFree_nil rfl
    | disabled | pinned | matched => exact mediaFree_nil
  cases h with
  | unreachable => exact mediaFree_other mediaFree_nil rfl
  | refused transport pin =>
      refine mediaFree_other ((hPin pin).append ?_) rfl
      exact mediaFree_write mediaFree_nil (connection_ne_media _)
  | unread transport pin =>
      refine mediaFree_other ((hPin pin).append ?_) rfl
      refine mediaFree_write ?_ (connection_ne_media _)
      exact mediaFree_other (mediaFree_other mediaFree_nil rfl) rfl
  | opened transport pin channel heartbeat watchdog =>
      refine mediaFree_other ((hPin pin).append ?_) rfl
      refine mediaFree_write ?_ (connection_ne_media _)
      refine mediaFree_other (mediaFree_other ?_ rfl) rfl
      exact mediaFree_other (mediaFree_other (mediaFree_other mediaFree_nil rfl) rfl) rfl

/-! ## Writes on the media channel -/

theorem Opened.append {history : Ops} {transport : Transport} {destination : String}
    (h : Opened history transport destination) (ops : Ops)
    (hNoConnect : ops.any isConnect = false) :
    Opened (history ++ ops) transport destination := by
  unfold Opened
  rw [since_append history hNoConnect]
  exact List.mem_append_left _ h

theorem opened_connect (history : Ops) (transport : Transport) (destination : String) :
    Opened (history ++ [⟨.write transport (.connectTo destination), .ok ()⟩]) transport
      destination := by
  unfold Opened
  rw [since_append history rfl]
  exact List.mem_append_right _ (List.mem_singleton.mpr rfl)

theorem introduced_media {history : Ops} {transport : Transport} {destination : String}
    (payload : Json) (result : Except IoError Unit)
    (h : Opened history transport destination) :
    Introduced history ⟨.write transport (.toMedia destination payload), result⟩ := by
  intro sent hSent _
  cases hSent
  exact h

theorem introduced_write {transport : Transport} {message : Outgoing}
    {result : Except IoError Unit} (history : Ops)
    (hMessage : message.namespaceUrn ≠ mediaNs) :
    Introduced history ⟨.write transport message, result⟩ := by
  intro sent hSent hMedia
  cases hSent
  exact absurd hMedia hMessage

theorem introduced_other {history : Ops} {entry : Entry castSig}
    (h : sentOf entry = none) : Introduced history entry := by
  intro sent hSent
  rw [h] at hSent
  cases hSent

/-- The media channel of the session is open. -/
def ChannelOpen (history : Ops) (session : Session) : Prop :=
  Opened history session.transport session.mediaDestination

theorem Requests.receiver_mediaFree {session : Session} {message : UInt32 → Json}
    {phase : Phase} {ops : Ops} {o : Outcome castSig Handled}
    (h : Requests session (fun id => .toReceiver (message id)) phase ops o) :
    MediaFree ops := by
  cases h with
  | exhausted => exact mediaFree_nil
  | written =>
      exact mediaFree_other (mediaFree_write mediaFree_nil (receiver_ne_media _)) rfl

theorem Requests.introduced {session : Session} {message : UInt32 → Json} {phase : Phase}
    {history ops : Ops} {o : Outcome castSig Handled}
    (h : Requests session (fun id => .toMedia session.mediaDestination (message id)) phase
      ops o) (hOpen : ChannelOpen history session) : Accepts Introduced history ops := by
  cases h with
  | exhausted => trivial
  | written id now r p result =>
      have hStill := hOpen.append [⟨.now, now⟩] rfl
      exact ⟨introduced_other rfl, introduced_media _ result hStill, trivial⟩

/-- A `LOAD` introduces itself. -/
theorem Loads.introduced {session : Session} {request : LoadRequest} {ops : Ops}
    {o : Outcome castSig Handled} (h : Loads session request ops o) (history : Ops) :
    Accepts Introduced history ops := by
  have hConnect : ∀ result, Introduced history
      ⟨.write session.transport (.connectTo session.mediaDestination), result⟩ :=
    fun _ => introduced_write history (connection_ne_media _)
  cases h with
  | refused => exact ⟨hConnect _, trivial⟩
  | exhausted => exact ⟨hConnect _, trivial⟩
  | unlaunched => exact ⟨hConnect _, introduced_other rfl, trivial⟩
  | written id now r p sessionId hSession result =>
      have hOpen := (opened_connect history session.transport session.mediaDestination).append
        [⟨.now, now⟩] rfl
      exact ⟨hConnect _, introduced_other rfl, introduced_media _ result hOpen, trivial⟩

/-- A `LOAD` opens the channel, unless its `CONNECT` is refused. -/
theorem Loads.channelOpen {session session' : Session} {request : LoadRequest} {ops : Ops}
    {result : Except IoError Unit} (h : Loads session request ops (.value (result, session')))
    (history : Ops) :
    ChannelOpen (history ++ ops) session' ∨ session' = session ∧ refused ops = true := by
  cases h with
  | refused => exact .inr ⟨rfl, rfl⟩
  | written id now r p sessionId hSession =>
      have hStill := (opened_connect history session.transport session.mediaDestination).append
        [⟨.now, now⟩, ⟨.write session.transport
          (.toMedia session.mediaDestination (loadMessage id sessionId request)), result⟩] rfl
      rw [List.append_assoc] at hStill
      exact .inl hStill

/-- The farewell of a session that is not streaming stays off the media
channel; that of one that is needs the channel open. -/
theorem Goodbye.introduced {session : Session} {history ops : Ops}
    {o : Outcome castSig Session} (h : Goodbye session ops o)
    (hOpen : session.phase = .streaming → ChannelOpen history session) :
    Accepts Introduced history ops := by
  cases h with
  | silent | exhausted => trivial
  | application =>
      exact ⟨introduced_other rfl, introduced_write _ (receiver_ne_media _), trivial⟩
  | media _ hPhase id now result =>
      have hStill := (hOpen hPhase).append [⟨.now, now⟩] rfl
      exact ⟨introduced_other rfl, introduced_media _ result hStill, trivial⟩
  | both _ hPhase id id' now now' r p result result' =>
      have hStill := (hOpen hPhase).append [⟨.now, now⟩] rfl
      exact ⟨introduced_other rfl, introduced_media _ result hStill, introduced_other rfl,
        introduced_write _ (receiver_ne_media _), trivial⟩

/-- The session of `state` may say goodbye after `history`. -/
def MayEnd (history : Ops) (state : RunState) : Prop :=
  ∀ session, state.session = some session → session.phase = .streaming →
    ChannelOpen history session

theorem Teardown.introduced {state : RunState} {history ops : Ops}
    {o : Outcome castSig RunState} (h : Teardown state ops o) (hEnd : MayEnd history state) :
    Accepts Introduced history ops := by
  cases h with
  | idle => trivial
  | faulted hSession hGoodbye => exact Goodbye.introduced hGoodbye (hEnd _ hSession)
  | ended hSession hGoodbye =>
      refine accepts_append.mpr ⟨Goodbye.introduced hGoodbye (hEnd _ hSession), ?_⟩
      exact ⟨introduced_other rfl, introduced_other rfl, trivial⟩

theorem Lost.introduced {config : ConnectionConfig} {state : RunState} {history ops : Ops}
    {o : Outcome castSig RunState} (h : Lost config state ops o)
    (hEnd : MayEnd history state) : Accepts Introduced history ops := by
  cases h with
  | faulted h | undesired h => exact Teardown.introduced h hEnd
  | retry h | exhausted h =>
      refine accepts_append.mpr ⟨Teardown.introduced h hEnd, ?_⟩
      exact ⟨introduced_other rfl, trivial⟩

/-! ## One turn -/

variable {config : ConnectionConfig} {fromStr : String → Option Json}

theorem Plays.speaks {phase phase' : Phase} {c : Command} {message : UInt32 → Json}
    (h : Plays phase c message phase') (hPhase : Launched phase) :
    speaks phase (.command (some c)) = true := by
  rcases hPhase with rfl | rfl <;> cases h <;> rfl

/-- What a session does itself is introduced, if it speaks on an open
channel. -/
theorem Acts.introduced {session : Session} {b : Branch} {history ops : Ops}
    {o : Outcome castSig Handled} (h : Acts fromStr session b ops o)
    (hOpen : speaks session.phase b = true → ChannelOpen history session) :
    Accepts Introduced history ops := by
  cases h with
  | command _ _ h =>
      cases h with
      | ignored _ hOps => rw [hOps]; trivial
      | asked _ hEffect => exact (Requests.receiver_mediaFree hEffect).introduced history
      | played hPhase h hEffect =>
          exact Requests.introduced hEffect (hOpen (Plays.speaks h hPhase))
      | loaded _ _ hEffect => exact Loads.introduced hEffect history
      | unreachable _ hOps => rw [hOps]; trivial
  | routed _ hHears => exact (Hears.mediaFree hHears).introduced history
  | dispatched _ hHears _ _ h =>
      exact accepts_append.mpr
        ⟨(Hears.mediaFree hHears).introduced history, Loads.introduced h _⟩
  | pinged => exact ⟨introduced_write history heartbeat_ne_media, trivial⟩

/-- A session that loses its transport while acting may say goodbye: either
it was streaming and its first message was refused, or it has just opened
the channel. -/
theorem Acts.mayEnd {session session' : Session} {b : Branch} {history ops : Ops}
    {error : IoError} (h : Acts fromStr session b ops (.value (.error error, session')))
    (hOpen : speaks session.phase b = true → ChannelOpen history session)
    (hRefused : session.phase = .streaming → refused ops = true → ChannelOpen history session)
    (hPhase' : session'.phase = .streaming) : ChannelOpen (history ++ ops) session' := by
  have hNoConnect := Acts.no_connect h
  cases h with
  | command _ _ h =>
      cases h with
      | ignored _ _ hOutcome => cases hOutcome
      | asked h hEffect =>
          cases hEffect with
          | written id now r p =>
              have hPhase : session.phase = .streaming := by
                cases h with
                | launch | load => cases hPhase'
                | setVolume | getStatus => exact hPhase'
              exact (hRefused hPhase rfl).append _ hNoConnect
      | played hPhase h hEffect =>
          cases hEffect with
          | written id now r p =>
              exact (hOpen (Plays.speaks h hPhase)).append _ hNoConnect
      | loaded _ _ hEffect =>
          rcases Loads.channelOpen hEffect history with hOpened | ⟨rfl, hRefusal⟩
          · exact hOpened
          · exact (hRefused hPhase' hRefusal).append _ hNoConnect
      | unreachable _ _ hOutcome => cases hOutcome
  | dispatched _ _ hPhase _ h =>
      rcases Loads.channelOpen h (history ++ _) with hOpened | ⟨rfl, -⟩
      · rwa [List.append_assoc] at hOpened
      · cases hPhase.symm.trans hPhase'
  | pinged => exact (hRefused hPhase' rfl).append _ hNoConnect

theorem refused_append {xs : Ops} (ys : Ops) (h : refused xs = true) :
    refused (xs ++ ys) = true := by
  unfold refused at h ⊢
  rw [writesOf_append]
  split at h
  · next hWrites => rw [hWrites]; rfl
  · cases h

theorem ends_of_refused {turn : Turn castSig Branch} (h : refused turn.ops = true) :
    ends turn = true := by
  rw [ends, h, Bool.or_true]

theorem ends_append {b : Branch} {xs : Ops} (ys : Ops) (h : ends ⟨b, xs⟩ = true) :
    ends ⟨b, xs ++ ys⟩ = true := by
  rcases (Bool.or_eq_true _ _).mp h with hBranch | hRefused
  · show (endsSession b || refused (xs ++ ys)) = true
    rw [show endsSession b = true from hBranch, Bool.true_or]
  · exact ends_of_refused (refused_append ys hRefused)

theorem ends_of_leaves {b : Branch} (h : Leaves b) (ops : Ops) : ends ⟨b, ops⟩ = true := by
  cases h <;> rfl

theorem ends_of_gone {b : Branch} (h : Gone b) (ops : Ops) : ends ⟨b, ops⟩ = true := by
  cases h <;> rfl

section Turn

variable {state : RunState} {b : Branch} {history ops : Ops}

/-- A turn that finds the channel open where it needs it. -/
structure FindsOpen (history : Ops) (state : RunState) (b : Branch) (ops : Ops) : Prop where
  speaks : ∀ session, state.session = some session → speaks session.phase b = true →
    ChannelOpen history session
  ends : ∀ session, state.session = some session → session.phase = .streaming →
    ends ⟨b, ops⟩ = true → ChannelOpen history session

theorem FindsOpen.mayEnd (h : FindsOpen history state b ops)
    (hEnds : MediaChannel.ends ⟨b, ops⟩ = true) : MayEnd history state :=
  fun session hSession hPhase => h.ends session hSession hPhase hEnds

/-- The farewell after a failed action. -/
theorem FindsOpen.lost {session session' : Session} {state' : RunState} {ops' : Ops}
    {error : IoError} {o : Outcome castSig RunState}
    (h : FindsOpen history state b (ops ++ ops')) (hSession : state.session = some session)
    (hActs : Acts fromStr session b ops (.value (.error error, session')))
    (hRearmed : Rearmed state session' state') (hLost : Lost config state' ops' o) :
    Accepts Introduced history (ops ++ ops') := by
  have hSpeaks := h.speaks session hSession
  refine accepts_append.mpr ⟨Acts.introduced hActs hSpeaks, Lost.introduced hLost ?_⟩
  intro session'' hSession'' hPhase
  rw [hRearmed.session] at hSession''
  cases hSession''
  refine Acts.mayEnd hActs hSpeaks (fun hStreaming hRefused => ?_) hPhase
  exact h.ends session hSession hStreaming (ends_of_refused (refused_append ops' hRefused))

theorem Faults.introduced {e : Fault} (h : Faults config fromStr state b ops e)
    (hOpen : FindsOpen history state b ops) : Accepts Introduced history ops := by
  cases h with
  | leaving hLeaves h =>
      exact Teardown.introduced h (hOpen.mayEnd (ends_of_leaves hLeaves _))
  | selecting h => exact Teardown.introduced h (hOpen.mayEnd rfl)
  | handling hSession h => exact Acts.introduced h (hOpen.speaks _ hSession)
  | failing hSession h hRearmed hLost => exact hOpen.lost hSession h hRearmed hLost
  | losing _ hGone h => exact Lost.introduced h (hOpen.mayEnd (ends_of_gone hGone _))

theorem BranchEffect.introduced {o : Outcome castSig (Flow RunState)}
    (h : BranchEffect config fromStr state b ops o) (hOpen : FindsOpen history state b ops) :
    Accepts Introduced history ops := by
  cases h with
  | closed | idle => trivial
  | left hLeaves h => exact Teardown.introduced h (hOpen.mayEnd (ends_of_leaves hLeaves _))
  | faulted h => exact Faults.introduced h hOpen
  | acted hSession h _ hQuiet =>
      have hActs := Acts.introduced h (hOpen.speaks _ hSession)
      exact accepts_append.mpr ⟨hActs, (Quiet.mediaFree hQuiet).introduced _⟩
  | failed hSession h hRearmed hLost => exact hOpen.lost hSession h hRearmed hLost
  | gone _ hGone hLost =>
      exact Lost.introduced hLost (hOpen.mayEnd (ends_of_gone hGone _))
  | selected h hEstablishes =>
      have hTorn := Teardown.introduced h (hOpen.mayEnd rfl)
      exact accepts_append.mpr ⟨hTorn, (Establishes.mediaFree hEstablishes).introduced _⟩
  | selectFailed h hEstablishes =>
      have hTorn := Teardown.introduced h (hOpen.mayEnd rfl)
      refine accepts_append.mpr ⟨hTorn, MediaFree.introduced ?_ _⟩
      exact (Establishes.mediaFree hEstablishes).append (mediaFree_other mediaFree_nil rfl)
  | reconnected _ h => exact (Establishes.mediaFree h).introduced _
  | retried _ h _ now =>
      exact ((Establishes.mediaFree h).append (mediaFree_other mediaFree_nil rfl)).introduced _
  | abandoned _ h =>
      exact ((Establishes.mediaFree h).append (mediaFree_other mediaFree_nil rfl)).introduced _

theorem Reaped.quiet {state' : RunState} (h : Reaped state ops state') : Quiet ops := by
  cases h with
  | idle => exact quiet_nil
  | live _ now => exact quiet_now now

theorem TurnEffect.introduced {c : Stage castSig RunState}
    (h : TurnEffect config fromStr state b ops c) (hOpen : FindsOpen history state b ops) :
    Accepts Introduced history ops := by
  cases h with
  | parked h hReaped =>
      have hBranch : FindsOpen history state b _ :=
        ⟨hOpen.speaks, fun session hSession hPhase hEnds =>
          hOpen.ends session hSession hPhase (ends_append _ hEnds)⟩
      have hQuiet := Quiet.mediaFree (Reaped.quiet hReaped)
      exact accepts_append.mpr ⟨BranchEffect.introduced h hBranch, hQuiet.introduced _⟩
  | exited h | faulted h => exact BranchEffect.introduced h hOpen

end Turn

/-! ## What a `LOAD` leaves behind -/

/-- Wherever the session has loaded, the channel is open. -/
def LoadsOpened (history : Ops) (session : Session) : Prop :=
  ∀ destination, LoadedAt history destination →
    Opened history session.transport destination

theorem MediaFree.not_loads {ops : Ops} (h : MediaFree ops) (destination : String) :
    (writesOf ops).any (loadsAt destination) = false := by
  refine List.any_eq_false.mpr fun sent hSent hLoads => ?_
  obtain ⟨entry, hEntry, hSentOf⟩ := List.mem_filterMap.mp hSent
  simp only [loadsAt, Bool.and_eq_true, beq_iff_eq] at hLoads
  exact h entry hEntry sent hSentOf hLoads.1.2

theorem Plays.not_load {phase phase' : Phase} {c : Command} {message : UInt32 → Json}
    (h : Plays phase c message phase') (destination : String) (id : UInt32) :
    isLoad (.toMedia destination (message id)) = false := by
  cases h <;> rfl

theorem Requests.not_loads {session : Session} {message : UInt32 → Json} {phase : Phase}
    {ops : Ops} {o : Outcome castSig Handled}
    (h : Requests session (fun id => .toMedia session.mediaDestination (message id)) phase
      ops o)
    (hPlain : ∀ id, isLoad (.toMedia session.mediaDestination (message id)) = false)
    (destination : String) : (writesOf ops).any (loadsAt destination) = false := by
  cases h with
  | exhausted => rfl
  | written id now r p result =>
      show ((isLoad _ && _ && _) || false) = false
      rw [hPlain id]
      rfl

/-- The only `LOAD` of the `LOAD` path goes to the channel it opens. -/
theorem Loads.opens {session session' : Session} {request : LoadRequest} {ops : Ops}
    {result : Except IoError Unit} (h : Loads session request ops (.value (result, session')))
    {destination : String} (hLoads : (writesOf ops).any (loadsAt destination) = true)
    (history : Ops) : Opened (history ++ ops) session'.transport destination := by
  obtain ⟨sent, hSent, hAt⟩ := List.any_eq_true.mp hLoads
  simp only [loadsAt, Bool.and_eq_true, beq_iff_eq] at hAt
  obtain ⟨⟨-, hMedia⟩, rfl⟩ := hAt
  have hOpened := Loads.channelOpen h history
  cases h with
  | refused =>
      obtain rfl := List.mem_singleton.mp hSent
      exact absurd hMedia (connection_ne_media _)
  | written =>
      rcases List.mem_cons.mp hSent with rfl | hSent
      · exact absurd hMedia (connection_ne_media _)
      · obtain rfl := List.mem_singleton.mp hSent
        exact hOpened.resolve_right fun hRefused => Bool.false_ne_true hRefused.2

theorem loadedAt_append {history ops : Ops} {destination : String}
    (hNoConnect : ops.any isConnect = false) :
    LoadedAt (history ++ ops) destination ↔
      LoadedAt history destination ∨ (writesOf ops).any (loadsAt destination) = true := by
  unfold LoadedAt
  rw [since_append history hNoConnect, writesOf_append, List.any_append, Bool.or_eq_true]

theorem LoadsOpened.append {history ops : Ops} {session session' : Session}
    (h : LoadsOpened history session) (hTransport : session'.transport = session.transport)
    (hNoConnect : ops.any isConnect = false)
    (hOps : ∀ destination, (writesOf ops).any (loadsAt destination) = true →
      Opened (history ++ ops) session'.transport destination) :
    LoadsOpened (history ++ ops) session' := by
  intro destination hLoaded
  rcases (loadedAt_append hNoConnect).mp hLoaded with hBefore | hNow
  · rw [hTransport]
    exact (h destination hBefore).append _ hNoConnect
  · exact hOps destination hNow

/-- Whatever a session loads, it opens. -/
theorem Acts.opens {session session' : Session} {b : Branch} {ops : Ops}
    {result : Except IoError Unit}
    (h : Acts fromStr session b ops (.value (result, session'))) {destination : String}
    (hLoads : (writesOf ops).any (loadsAt destination) = true) (history : Ops) :
    Opened (history ++ ops) session'.transport destination := by
  have hFree : MediaFree ops → False := by
    intro hFree
    rw [hFree.not_loads destination] at hLoads
    cases hLoads
  cases h with
  | command _ _ h =>
      cases h with
      | ignored _ hOps => exact (hFree (hOps ▸ mediaFree_nil)).elim
      | asked _ hEffect => exact (hFree (Requests.receiver_mediaFree hEffect)).elim
      | played _ h hEffect =>
          rw [Requests.not_loads hEffect (Plays.not_load h _)] at hLoads
          cases hLoads
      | loaded _ _ hEffect => exact Loads.opens hEffect hLoads history
      | unreachable _ _ hOutcome => cases hOutcome
  | routed _ hHears => exact (hFree (Hears.mediaFree hHears)).elim
  | @dispatched payload action session₁ request ops₁ ops₂ _ hRoute hHears _ _ h =>
      rw [writesOf_append, List.any_append, (Hears.mediaFree hHears).not_loads] at hLoads
      have hOpened := Loads.opens h hLoads (history ++ ops₁)
      rwa [List.append_assoc] at hOpened
  | pinged => exact (hFree (mediaFree_write mediaFree_nil heartbeat_ne_media)).elim

/-- A new session has loaded nothing. -/
theorem loadsOpened_connected {history before ops quiet : Ops} {session : Session}
    (hConnect : ops.any isConnect = true) (hFree : MediaFree ops) (hQuiet : Quiet quiet) :
    LoadsOpened (history ++ (before ++ ops ++ quiet)) session := by
  intro destination hLoaded
  have hFree' := hFree.append (Quiet.mediaFree hQuiet)
  have hAny : (ops ++ quiet).any isConnect = true := by
    rw [List.any_append, hConnect, Bool.true_or]
  unfold LoadedAt at hLoaded
  rw [List.append_assoc, ← List.append_assoc, since_append_of_any _ hAny] at hLoaded
  rw [MediaFree.not_loads (fun entry h => hFree' entry (since_subset h))] at hLoaded
  cases hLoaded

/-! ## Runs -/

/-- The invariant: all media messages so far were introduced, and the live
session has opened whatever it has loaded. -/
structure ChannelInv (turns : List TurnOf) (c : Stage castSig RunState) : Prop where
  introduced : Accepts Introduced [] (opsOf turns)
  opened : ∀ session ∈ sessionAt c, LoadsOpened (opsOf turns) session

/-- The step lemma. -/
theorem ChannelInv.step {turns : List TurnOf} {turn : TurnOf} {state : RunState}
    (hRun : Run (run config fromStr).turns turns (.parked state))
    (hPre : turn.pre = .parked state)
    (hTurn : TurnEffect config fromStr state turn.label.branch turn.label.ops turn.post)
    (hInv : ChannelInv turns (.parked state)) (hFollows : FollowsLoad turns turn) :
    ChannelInv (turns ++ [turn]) turn.post := by
  have hLoaded : ∀ session, state.session = some session →
      speaks session.phase turn.label.branch = true ∨
        session.phase = .streaming ∧ ends turn.label = true →
      ChannelOpen (opsOf turns) session := by
    intro session hSession hNeeds
    have hLoaded := hFollows session (by rw [hPre]; exact hSession) hNeeds
    exact hInv.opened session hSession _ hLoaded
  have hFinds : FindsOpen (opsOf turns) state turn.label.branch turn.label.ops :=
    ⟨fun session hSession h => hLoaded session hSession (.inl h),
      fun session hSession hPhase h => hLoaded session hSession (.inr ⟨hPhase, h⟩)⟩
  have hOps : opsOf (turns ++ [turn]) = opsOf turns ++ turn.label.ops := by
    rw [opsOf_append, opsOf_singleton]
  constructor
  · rw [hOps]
    exact accepts_append.mpr ⟨hInv.introduced, TurnEffect.introduced hTurn hFinds⟩
  · intro after hAfter
    rw [hOps]
    cases hPost : turn.post with
    | exited | faulted => rw [hPost] at hAfter; cases hAfter
    | parked state' =>
        rw [hPost] at hAfter hTurn
        cases turnEffect_session (run_invariant hRun).1 hTurn hAfter with
        | opened h _ hSplit hQuiet =>
            rw [hSplit]
            exact loadsOpened_connected (Establishes.connects h) (Establishes.mediaFree h) hQuiet
        | @continued session session' ops₁ quiet p hSession h hSplit hQuiet hEq =>
            have hActs : LoadsOpened (opsOf turns ++ ops₁) session' :=
              (hInv.opened session hSession).append (Acts.device h).2 (Acts.no_connect h)
                fun _ hLoads => Acts.opens h hLoads _
            have hAll : LoadsOpened (opsOf turns ++ ops₁ ++ quiet) session' :=
              hActs.append rfl (Quiet.no_connect hQuiet) fun destination hLoads => by
                rw [(Quiet.mediaFree hQuiet).not_loads destination] at hLoads
                cases hLoads
            rw [hSplit, hEq, ← List.append_assoc]
            exact hAll

/-- **In a run whose turns follow a `LOAD`** wherever they pass a command on
to the media channel or end a streaming session, every message written on
the media namespace follows an accepted `CONNECT` to its destination, in the
same session. -/
theorem run_media_introduced {turns : List TurnOf} {c : Stage castSig RunState}
    (hRun : Run (run config fromStr).turns turns c)
    (hFollows : Accepts FollowsLoad [] turns) : Accepts Introduced [] (opsOf turns) := by
  refine (hRun.traceInvariant
    (I := fun turns c => Accepts FollowsLoad [] turns → ChannelInv turns c) ?_ ?_
    hFollows).introduced
  · rintro c hInit -
    cases run_init config fromStr hInit
    refine ⟨trivial, ?_⟩
    intro session hSession
    cases hSession
  · rintro turns c turn c' hBefore hPrevious ⟨state, rfl, hTurn⟩ hFollows
    obtain ⟨hFirst, hLast, -⟩ := accepts_append.mp hFollows
    exact ChannelInv.step hBefore rfl (run_turnEffect config fromStr hTurn)
      (hPrevious hFirst) hLast

/-! ## Playing before loading -/

/-- The receiver answers the launch. -/
def answered (now : Instant) : Scene castSig Branch :=
  (.inbound (some (some (payloadOf defaultMediaReceiverAppId))), obliging now)

/-- Load a movie, and pause it once the application is up. -/
def loadScript : List (Scene castSig Branch) :=
  queuedScript ++ [answered 2, (.command (some .pause), obliging 3)]

/-- Launch the application, and play at once when it is up. -/
def playScript : List (Scene castSig Branch) :=
  launchScript ++ [answered 2, (.command (some .play), obliging 3)]

def played (script : List (Scene castSig Branch)) : List TurnOf × Stage castSig RunState :=
  (run .default (parserOf defaultMediaReceiverAppId)).play (.parked .new) script

theorem played_run (script : List (Scene castSig Branch))
    (hAdmits : (run .default (parserOf defaultMediaReceiverAppId)).Admits (.parked .new)
      script) :
    Run (run .default (parserOf defaultMediaReceiverAppId)).turns (played script).1
      (played script).2 :=
  play_run (.start (run_start _ _)) hAdmits

/-- The scenes can be played, and every turn follows a `LOAD`. -/
theorem loadScript_follows :
    (run .default (parserOf defaultMediaReceiverAppId)).Admits (.parked .new) loadScript ∧
      Accepts FollowsLoad [] (played loadScript).1 := by
  decide +kernel

/-- The queued `LOAD` and the `PAUSE` are introduced. -/
theorem loadScript_introduced : Accepts Introduced [] (opsOf (played loadScript).1) :=
  run_media_introduced (played_run _ loadScript_follows.1) loadScript_follows.2

/-- A message to an application, not to the platform receiver. -/
def isMessageOn (namespaceUrn : String) : Entry castSig → Bool
  | ⟨.write _ message, _⟩ =>
      message.namespaceUrn == namespaceUrn && message.destination != receiverId
  | _ => false

/-- The scenes can be played; the application is sent a media message, and no
`CONNECT`. -/
theorem playScript_unintroduced :
    (run .default (parserOf defaultMediaReceiverAppId)).Admits (.parked .new) playScript ∧
      (opsOf (played playScript).1).any (isMessageOn mediaNs) = true ∧
      (opsOf (played playScript).1).any (isMessageOn connectionNs) = false := by
  decide +kernel

/-- A `Play` handled while the session is ready, but has not loaded, goes to
a destination that was sent no `CONNECT`. -/
theorem play_not_introduced :
    ¬ ∀ turns c, Run (run .default (parserOf defaultMediaReceiverAppId)).turns turns c →
      Accepts Introduced [] (opsOf turns) := by
  intro hAll
  obtain ⟨hAdmits, hMedia, hClosed⟩ := playScript_unintroduced
  have hIntroduced := hAll _ _ (played_run playScript hAdmits)
  generalize opsOf (played playScript).1 = ops at hIntroduced hMedia hClosed
  obtain ⟨entry, hEntry, hIs⟩ := List.any_eq_true.mp hMedia
  obtain ⟨sent, hSent, hMessage⟩ : ∃ sent, sentOf entry = some sent ∧
      (sent.message.namespaceUrn == mediaNs && sent.message.destination != receiverId) =
        true := by
    obtain ⟨op, result⟩ := entry
    cases op with
    | write transport message => exact ⟨_, rfl, hIs⟩
    | subscribe | connect | close | channel | spawnReader | now | emit => cases hIs
  rw [Bool.and_eq_true, beq_iff_eq] at hMessage
  obtain ⟨before, after, rfl⟩ := List.append_of_mem hEntry
  have hOpened := accepts_iff.mp hIntroduced before entry after rfl sent hSent hMessage.1
  have hMem := List.mem_append_left (entry :: after) (since_subset hOpened)
  -- The only `CONNECT` went to the platform receiver.
  refine List.any_eq_false.mp hClosed _ hMem ?_
  show (connectionNs == connectionNs && sent.message.destination != receiverId) = true
  rw [hMessage.2, beq_self_eq_true, Bool.true_and]

end CastApp.Cast.MediaChannel
