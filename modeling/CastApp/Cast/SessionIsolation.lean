import CastApp.Cast.ConnectionTask
import CastApp.Cast.SessionTurn
import Mathlib.Data.List.Nodup

/-!
# One reader for one session

Each session is read by the thread spawned for its transport, through a
channel of its own.  A reader of an earlier session may still be running and
may still be sending, but never on that channel.

* **`session_isolation`** — in every interleaving, what a live session
  receives at the `select!`, a frame or the end of its reader, was produced
  by the one thread that reads its transport.
-/

namespace CastApp.Cast.SessionIsolation

open CastApp.State
open CastApp.Cast.ConnectionTask
open CastApp.Cast.Journal
open CastApp.Cast.Reader
open CastApp.Cast.RunEffect
open CastApp.Cast.RunInvariant
open CastApp.Cast.RunLoop
open CastApp.Cast.Session
open CastApp.Cast.SessionEffect
open CastApp.Cast.SessionTurn
open CastApp.Util.Json
open CastApp.Verified.Coroutine
open CastApp.Verified.EventLoop
open CastApp.Verified.Transition

/-! ## What the task allocates -/

def connectedOf : Entry castSig → Option Transport
  | ⟨.connect _, .ok (transport, _)⟩ => some transport
  | _ => none

def channelOf : Entry castSig → Option Channel
  | ⟨.channel, channel⟩ => some channel
  | _ => none

def spawnedOf : Entry castSig → Option (Transport × Channel)
  | ⟨.spawnReader transport channel, .ok ()⟩ => some (transport, channel)
  | _ => none

/-- The transports connected, the channels made and the readers spawned, in
order. -/
def transportsOf (ops : Ops) : List Transport := ops.filterMap connectedOf

def channelsOf (ops : Ops) : List Channel := ops.filterMap channelOf

def spawnsOf (ops : Ops) : List (Transport × Channel) := ops.filterMap spawnedOf

/-- Every reader was spawned on a transport and a channel of its own. -/
structure Paired (ops : Ops) : Prop where
  transports : ((spawnsOf ops).map Prod.fst).Sublist (transportsOf ops)
  channels : ((spawnsOf ops).map Prod.snd).Sublist (channelsOf ops)

theorem Paired.append {xs ys : Ops} (hxs : Paired xs) (hys : Paired ys) : Paired (xs ++ ys) where
  transports := by
    unfold spawnsOf transportsOf
    rw [List.filterMap_append, List.filterMap_append, List.map_append]
    exact hxs.transports.append hys.transports
  channels := by
    unfold spawnsOf channelsOf
    rw [List.filterMap_append, List.filterMap_append, List.map_append]
    exact hxs.channels.append hys.channels

theorem paired_of_spawns {ops : Ops} (h : spawnsOf ops = []) : Paired ops := by
  constructor
  · rw [h]
    exact List.nil_sublist _
  · rw [h]
    exact List.nil_sublist _

theorem SessionOnly.spawnsOf_eq {ops : Ops} (h : SessionOnly ops) : spawnsOf ops = [] := by
  refine List.filterMap_eq_nil_iff.mpr fun ⟨op, result⟩ hEntry => ?_
  have hOp := List.all_eq_true.mp h _ hEntry
  cases op with
  | spawnReader => cases hOp
  | subscribe | connect | write | close | channel | now | emit => rfl

theorem SessionOnly.paired {ops : Ops} (h : SessionOnly ops) : Paired ops :=
  paired_of_spawns (SessionOnly.spawnsOf_eq h)

variable {config : ConnectionConfig} {fromStr : String → Option Json}

theorem Establishes.paired {state : RunState} {device : CastDevice} {ops : Ops}
    {o : Outcome castSig (Except ConnectionError Unit × RunState)}
    (h : Establishes config state device ops o) : Paired ops := by
  cases h with
  | unreachable => exact paired_of_spawns rfl
  | refused transport pin => cases pin <;> exact paired_of_spawns rfl
  | unread transport pin => cases pin <;> exact paired_of_spawns rfl
  | opened transport pin =>
      cases pin <;> exact ⟨List.Sublist.refl _, List.Sublist.refl _⟩

theorem BranchEffect.paired {state : RunState} {b : Branch} {ops : Ops}
    {o : Outcome castSig (Flow RunState)} (h : BranchEffect config fromStr state b ops o) :
    Paired ops := by
  have hNone : Paired [] := paired_of_spawns rfl
  cases h with
  | closed | idle => exact hNone
  | left _ h => exact SessionOnly.paired (Teardown.sessionOnly h)
  | faulted h =>
      cases h with
      | leaving _ h | selecting h => exact SessionOnly.paired (Teardown.sessionOnly h)
      | handling _ h => exact SessionOnly.paired (Acts.sessionOnly h)
      | failing _ h _ hLost =>
          exact SessionOnly.paired ((Acts.sessionOnly h).append (Lost.sessionOnly hLost))
      | losing _ _ h => exact SessionOnly.paired (Lost.sessionOnly h)
  | acted _ h _ hQuiet =>
      exact SessionOnly.paired ((Acts.sessionOnly h).append (Quiet.sessionOnly hQuiet))
  | failed _ h _ hLost =>
      exact SessionOnly.paired ((Acts.sessionOnly h).append (Lost.sessionOnly hLost))
  | gone _ _ hLost => exact SessionOnly.paired (Lost.sessionOnly hLost)
  | selected h hEstablishes =>
      exact (SessionOnly.paired (Teardown.sessionOnly h)).append
        (Establishes.paired hEstablishes)
  | selectFailed h hEstablishes =>
      exact (SessionOnly.paired (Teardown.sessionOnly h)).append
        ((Establishes.paired hEstablishes).append (paired_of_spawns rfl))
  | reconnected _ h => exact Establishes.paired h
  | retried _ h => exact (Establishes.paired h).append (paired_of_spawns rfl)
  | abandoned _ h => exact (Establishes.paired h).append (paired_of_spawns rfl)

theorem TurnEffect.paired {state : RunState} {b : Branch} {ops : Ops}
    {c : Stage castSig RunState} (h : TurnEffect config fromStr state b ops c) : Paired ops := by
  cases h with
  | parked h hReaped =>
      refine (BranchEffect.paired h).append ?_
      cases hReaped with
      | idle | live => exact paired_of_spawns rfl
  | exited h | faulted h => exact BranchEffect.paired h

/-! ## The reader of a live session -/

/-- The live session is read by a thread spawned on its transport and on the
channel the task receives from. -/
def Wired (ops : Ops) (state : RunState) : Prop :=
  ∀ session, state.session = some session →
    ∃ channel, state.inbound = some channel ∧ (session.transport, channel) ∈ spawnsOf ops

theorem Establishes.wired {state state' : RunState} {device : CastDevice} {ops : Ops}
    (h : Establishes config state device ops (.value (.ok (), state'))) : Wired ops state' := by
  intro session hSession
  cases h with
  | opened transport pin channel =>
      cases hSession
      refine ⟨channel, rfl, ?_⟩
      cases pin <;> exact List.mem_singleton.mpr rfl

theorem turnEffect_wired {before ops : Ops} {state state' : RunState} {b : Branch}
    (hInv : RunInv state) (h : TurnEffect config fromStr state b ops (.parked state'))
    (hWired : Wired before state) : Wired (before ++ ops) state' := by
  intro after hAfter
  unfold spawnsOf
  rw [List.filterMap_append]
  cases turnEffect_session hInv h hAfter with
  | continued hSession h _ _ hEq hInbound =>
      obtain ⟨channel, hChannel, hMem⟩ := hWired _ hSession
      refine ⟨channel, hInbound.trans hChannel, List.mem_append_left _ ?_⟩
      rw [hEq, renumber_transport, (Acts.device h).2]
      exact hMem
  | opened h hSession hOps _ _ hEq hInbound =>
      obtain ⟨channel, hChannel, hMem⟩ := Establishes.wired h _ hSession
      refine ⟨channel, hInbound.trans hChannel, List.mem_append_right _ ?_⟩
      rw [hEq, hOps, List.filterMap_append, List.filterMap_append]
      exact List.mem_append_left _ (List.mem_append_right _ hMem)

theorem run_wired {turns : List TurnOf} {c : Stage castSig RunState}
    (hRun : Run (run config fromStr).turns turns c) :
    Paired (opsOf turns) ∧ ∀ state, c = .parked state → Wired (opsOf turns) state := by
  refine hRun.traceInvariant
    (I := fun turns c => Paired (opsOf turns) ∧
      ∀ state, c = .parked state → Wired (opsOf turns) state) ?_ ?_
  · intro c hInit
    cases run_init config fromStr hInit
    refine ⟨paired_of_spawns rfl, ?_⟩
    intro state hState session hSession
    cases hState
    cases hSession
  · rintro turns c turn c' hBefore ⟨hPaired, hWired⟩ ⟨state, rfl, hTurn⟩
    have hEffect := run_turnEffect config fromStr hTurn
    rw [opsOf_append, opsOf_singleton]
    refine ⟨hPaired.append (TurnEffect.paired hEffect), ?_⟩
    rintro state' rfl
    exact turnEffect_wired (run_invariant hBefore).1 hEffect (hWired state rfl)

/-! ## The threads of a world -/

/-- Ids given out by counting: none twice, all below the counter. -/
structure Issued (ids : List Nat) (next : Nat) : Prop where
  nodup : ids.Nodup
  used : ∀ id ∈ ids, id < next

theorem issued_nil : Issued [] 0 := ⟨List.nodup_nil, fun _ h => absurd h List.not_mem_nil⟩

theorem Issued.next {ids : List Nat} {next : Nat} (h : Issued ids next) :
    Issued (ids ++ [next]) (next + 1) where
  nodup := by
    refine List.nodup_append.mpr ⟨h.nodup, List.pairwise_singleton _ _, ?_⟩
    intro id hId id' hNext hSame
    rw [hSame, List.mem_singleton.mp hNext] at hId
    exact absurd (h.used next hId) (Nat.lt_irrefl next)
  used := by
    intro id hId
    rcases List.mem_append.mp hId with hId | hId
    · exact Nat.lt_succ_of_lt (h.used id hId)
    · rw [List.mem_singleton.mp hId]
      exact Nat.lt_succ_self next

def endpoints (reader : Spawned) : Transport × Channel := (reader.transport, reader.channel)

/-- The surroundings after the operations `ops`: the readers are those
spawned, transports and channels are all different, and every queued message
was sent by a reader of that channel. -/
structure WorldInv (ops : Ops) (w : World) : Prop where
  readers : w.readers.map endpoints = spawnsOf ops
  transports : Issued ((transportsOf ops).map Transport.id) w.transports
  channels : Issued ((channelsOf ops).map Channel.id) w.channels
  queued : ∀ channel, ∀ item ∈ w.queued channel,
    ∃ transport, (spawnsOf ops)[item.reader]? = some (transport, channel)

theorem worldInv_new : WorldInv [] .new where
  readers := rfl
  transports := issued_nil
  channels := issued_nil
  queued := fun _ _ h => absurd h List.not_mem_nil

/-- What an entry adds to each list is what the surroundings add. -/
theorem WorldInv.snoc {ops : Ops} {w w' : World} {entry : Entry castSig}
    (hInv : WorldInv ops w)
    (hReaders : w'.readers.map endpoints =
      w.readers.map endpoints ++ (spawnedOf entry).toList)
    (hTransports : Issued ((transportsOf ops).map Transport.id ++
      (connectedOf entry).toList.map Transport.id) w'.transports)
    (hChannels : Issued ((channelsOf ops).map Channel.id ++
      (channelOf entry).toList.map Channel.id) w'.channels)
    (hQueued : w'.queued = w.queued) : WorldInv (ops ++ [entry]) w' := by
  have hSpawns : spawnsOf (ops ++ [entry]) = spawnsOf ops ++ (spawnedOf entry).toList := by
    unfold spawnsOf
    rw [List.filterMap_append, List.filterMap_cons]
    cases spawnedOf entry <;> rfl
  constructor
  · rw [hReaders, hInv.readers, hSpawns]
  · unfold transportsOf at hTransports ⊢
    rw [List.filterMap_append, List.map_append, List.filterMap_cons]
    cases hEntry : connectedOf entry <;> rw [hEntry] at hTransports <;> exact hTransports
  · unfold channelsOf at hChannels ⊢
    rw [List.filterMap_append, List.map_append, List.filterMap_cons]
    cases hEntry : channelOf entry <;> rw [hEntry] at hChannels <;> exact hChannels
  · intro channel item hItem
    rw [hQueued] at hItem
    obtain ⟨transport, hSpawned⟩ := hInv.queued channel item hItem
    refine ⟨transport, ?_⟩
    rw [hSpawns, List.getElem?_append_left (List.getElem?_eq_some_iff.mp hSpawned).1]
    exact hSpawned

/-- Every answer keeps the invariant. -/
theorem WorldInv.answer {ops : Ops} {w w' : World} {op : Op} {r : op.Ans}
    (hInv : WorldInv ops w) (h : Answers w op r w') :
    WorldInv (ops ++ [(⟨op, r⟩ : Entry castSig)]) w' := by
  have hReaders : w.readers.map endpoints = w.readers.map endpoints ++ [] :=
    (List.append_nil _).symm
  have hTransports : Issued ((transportsOf ops).map Transport.id ++ []) w.transports := by
    rw [List.append_nil]
    exact hInv.transports
  have hChannels : Issued ((channelsOf ops).map Channel.id ++ []) w.channels := by
    rw [List.append_nil]
    exact hInv.channels
  cases h with
  | subscribe | unreachable | write | close | unspawned | now | emit =>
      exact hInv.snoc hReaders hTransports hChannels rfl
  | connected => exact hInv.snoc hReaders hInv.transports.next hChannels rfl
  | channel => exact hInv.snoc hReaders hTransports hInv.channels.next rfl
  | spawned =>
      refine hInv.snoc ?_ hTransports hChannels rfl
      rw [List.map_append]
      rfl

/-- Taking frames out of the channels keeps the invariant. -/
theorem WorldInv.fires {ops : Ops} {w w' : World} {state : RunState} {b : Branch}
    (hInv : WorldInv ops w) (h : Fires w state b w') : WorldInv ops w' := by
  cases h with
  | command | closed | heartbeat | watchdog | reconnect => exact hInv
  | shutdown => exact ⟨hInv.readers, hInv.transports, hInv.channels, hInv.queued⟩
  | @frame channel item rest _ hQueued =>
      refine ⟨hInv.readers, hInv.transports, hInv.channels, ?_⟩
      intro channel' item' hItem
      change item' ∈ Function.update w.queued channel rest channel' at hItem
      by_cases hSame : channel' = channel
      · rw [hSame] at hItem ⊢
        rw [Function.update_self] at hItem
        have hOld : item' ∈ w.queued channel := by
          rw [hQueued]
          exact List.mem_cons_of_mem item hItem
        exact hInv.queued channel item' hOld
      · rw [Function.update_of_ne hSame] at hItem
        exact hInv.queued channel' item' hItem

theorem setReader_endpoints {w : World} {k : Nat} {reader : Spawned} (thread : ReaderThread)
    (hReader : w.readers[k]? = some reader) :
    (w.setReader k reader thread).readers.map endpoints = w.readers.map endpoints := by
  obtain ⟨hLess, rfl⟩ := List.getElem?_eq_some_iff.mp hReader
  show (w.readers.set k _).map endpoints = _
  rw [List.map_set]
  have hMapped : k < (w.readers.map endpoints).length := by rwa [List.length_map]
  have hSame : (w.readers.map endpoints)[k] = endpoints w.readers[k] := List.getElem_map endpoints
  show (w.readers.map endpoints).set k (endpoints w.readers[k]) = _
  rw [← hSame, List.set_getElem_self]

/-- A step of somebody else keeps the invariant. -/
theorem WorldInv.moves {ops : Ops} {w w' : World} {step : Step} (hInv : WorldInv ops w)
    (h : Moves w step w') : WorldInv ops w' := by
  have hStepped : ∀ {k reader} thread, w.readers[k]? = some reader →
      WorldInv ops (w.setReader k reader thread) := by
    intro k reader thread hReader
    refine ⟨?_, hInv.transports, hInv.channels, hInv.queued⟩
    rw [setReader_endpoints thread hReader]
    exact hInv.readers
  cases h with
  | trigger => exact ⟨hInv.readers, hInv.transports, hInv.channels, hInv.queued⟩
  | poll hReader => exact hStepped _ hReader
  | read hReader => exact hStepped _ hReader
  | @send k reader connected hReader =>
      have hSent := hStepped (reader.thread.send connected).2 hReader
      cases (reader.thread.send connected).1 with
      | silent => exact hSent
      | send frame =>
          cases connected with
          | false => exact hSent
          | true =>
              refine ⟨hSent.readers, hSent.transports, hSent.channels, ?_⟩
              intro channel item hItem
              change item ∈ Function.update w.queued reader.channel
                (w.queued reader.channel ++ [⟨k, frame⟩]) channel at hItem
              by_cases hSame : channel = reader.channel
              · rw [hSame, Function.update_self] at hItem
                rw [hSame]
                rcases List.mem_append.mp hItem with hOld | hNew
                · exact hInv.queued reader.channel item hOld
                · rw [List.mem_singleton.mp hNew, ← hInv.readers, List.getElem?_map, hReader]
                  exact ⟨reader.transport, rfl⟩
              · rw [Function.update_of_ne hSame] at hItem
                exact hInv.queued channel item hItem

theorem run_worldInv {trace : List TaskMove} {c : TaskState}
    (hRun : Run (connectionTask config fromStr) trace c) : WorldInv (answered trace) c.2 := by
  refine hRun.traceInvariant (I := fun trace c => WorldInv (answered trace) c.2) ?_ ?_
  · rintro ⟨control, w⟩ ⟨-, hInit⟩
    cases hInit
    exact worldInv_new
  · intro trace c label c' _ hInv hStep
    rw [answered_append]
    cases hStep with
    | answer h => exact hInv.answer h
    | park h =>
        cases h
        show WorldInv (answered trace ++ []) _
        rw [List.append_nil]
        exact ⟨hInv.readers, hInv.transports, hInv.channels, hInv.queued⟩
    | fire _ h =>
        show WorldInv (answered trace ++ []) _
        rw [List.append_nil]
        exact hInv.fires h
    | exit | fault =>
        show WorldInv (answered trace ++ []) _
        rw [List.append_nil]
        exact hInv
    | move h =>
        show WorldInv (answered trace ++ []) _
        rw [List.append_nil]
        exact hInv.moves h

/-! ## Isolation -/

/-- Thread `k` was spawned for the transport of the session, and it alone. -/
structure ReadsFor (w : World) (session : Session) (k : Nat) : Prop where
  spawned : ∃ reader, w.readers[k]? = some reader ∧ reader.transport = session.transport
  unique : ∀ j reader, w.readers[j]? = some reader → reader.transport = session.transport →
    j = k

/-- What the task receives comes from thread `k`: the frame or the exit at
the front of the channel, or the end of the channel itself. -/
def ProducedBy (w : World) (state : RunState) (k : Nat) :
    Option (Option (List Byte)) → Prop
  | some frame => ∃ channel rest, state.inbound = some channel ∧
      w.queued channel = ⟨k, frame⟩ :: rest
  | none => ∃ reader, w.readers[k]? = some reader ∧ reader.thread.control = .finished

/-- In a parked state, the threads and the live session fit together. -/
theorem parked_paired {trace : List TaskMove} {state : RunState} {w : World}
    (hRun : Run (connectionTask config fromStr) trace (.parked state, w)) :
    Paired (answered trace) ∧ Wired (answered trace) state := by
  obtain ⟨first, o, turns, hPrelude, hTurns, hAnswered⟩ := small_parked hRun
  obtain ⟨r, rest, rfl, hDone⟩ := exec_perform_bind.mp hPrelude
  obtain ⟨rfl, -⟩ := exec_pure.mp hDone
  obtain ⟨hPaired, hWired⟩ := run_wired hTurns
  rw [hAnswered]
  refine ⟨(paired_of_spawns rfl).append hPaired, ?_⟩
  intro session hSession
  obtain ⟨channel, hChannel, hMem⟩ := hWired state rfl session hSession
  refine ⟨channel, hChannel, ?_⟩
  show _ ∈ List.filterMap spawnedOf _
  rw [List.filterMap_append]
  exact List.mem_append_right _ hMem

/-- A thread, found by its place among the spawned ones. -/
theorem WorldInv.reader {ops : Ops} {w : World} {k : Nat} {pair : Transport × Channel}
    (hInv : WorldInv ops w) (hSpawned : (spawnsOf ops)[k]? = some pair) :
    ∃ reader, w.readers[k]? = some reader ∧ endpoints reader = pair := by
  rw [← hInv.readers, List.getElem?_map] at hSpawned
  exact Option.map_eq_some_iff.mp hSpawned

/-- Two spawned readers on one transport, or on one channel, are the same. -/
theorem spawned_unique {ops : Ops} {w : World} (hInv : WorldInv ops w) (hPaired : Paired ops)
    {j k : Nat} {transport transport' : Transport} {channel channel' : Channel}
    (hJ : (spawnsOf ops)[j]? = some (transport, channel))
    (hK : (spawnsOf ops)[k]? = some (transport', channel'))
    (hShared : transport = transport' ∨ channel = channel') : j = k := by
  have hLess := (List.getElem?_eq_some_iff.mp hJ).1
  rcases hShared with rfl | rfl
  · have hNodup : ((spawnsOf ops).map Prod.fst).Nodup :=
      (List.Nodup.of_map _ hInv.transports.nodup).sublist hPaired.transports
    refine (List.getElem?_inj (by rwa [List.length_map]) hNodup).mp ?_
    rw [List.getElem?_map, List.getElem?_map, hJ, hK]
    rfl
  · have hNodup : ((spawnsOf ops).map Prod.snd).Nodup :=
      (List.Nodup.of_map _ hInv.channels.nodup).sublist hPaired.channels
    refine (List.getElem?_inj (by rwa [List.length_map]) hNodup).mp ?_
    rw [List.getElem?_map, List.getElem?_map, hJ, hK]
    rfl

/-- **Whatever a live session receives was produced by its own reader**: in
every interleaving of the task, the shutdown token and the reader threads,
each frame routed to a session, and each reader exit acted on while it is
live, comes from the one thread spawned for its transport. -/
theorem session_isolation {trace : List TaskMove} {c : TaskState}
    (hRun : Run (connectionTask config fromStr) trace c) :
    ∀ m ∈ trace, ∀ state w session frame, m.pre = (.parked state, w) →
      m.label = .fire (.inbound frame) → state.session = some session →
      ∃ k, ReadsFor w session k ∧ ProducedBy w state k frame := by
  rintro ⟨pre, label, post⟩ hMem state w session frame rfl rfl hSession
  obtain ⟨first, rest, rfl⟩ := List.append_of_mem hMem
  obtain ⟨hFirst, hStep⟩ := hRun.step_run
  have hInv := run_worldInv hFirst
  obtain ⟨hPaired, hWired⟩ := parked_paired hFirst
  obtain ⟨channel, hInbound, hOwn⟩ := hWired session hSession
  obtain ⟨k, hK⟩ := List.mem_iff_getElem?.mp hOwn
  obtain ⟨reader, hReader, hEnds⟩ := hInv.reader hK
  refine ⟨k, ⟨⟨reader, hReader, congrArg Prod.fst hEnds⟩, ?_⟩, ?_⟩
  · intro j other hOther hTransport
    have hJ : (spawnsOf (answered first))[j]? = some (other.transport, other.channel) := by
      rw [← hInv.readers, List.getElem?_map, hOther]
      rfl
    exact spawned_unique hInv hPaired hJ hK (.inl hTransport)
  · cases hStep with
    | fire _ h =>
        cases h with
        | @frame channel' item rest' hInbound' hQueued =>
            obtain rfl : channel' = channel := Option.some.inj (hInbound'.symm.trans hInbound)
            have hItem : item ∈ w.queued channel' := by
              rw [hQueued]
              exact List.mem_cons_self
            obtain ⟨transport, hSent⟩ := hInv.queued channel' item hItem
            have hSame := spawned_unique hInv hPaired hSent hK (.inr rfl)
            refine ⟨channel', rest', hInbound, ?_⟩
            rw [hQueued, ← hSame]
        | closed hInbound' _ hFinished =>
            cases hInbound'.symm.trans hInbound
            exact ⟨reader, hReader, hFinished reader (List.mem_of_getElem? hReader)
              (congrArg Prod.snd hEnds)⟩

/-- A session whose reader meets the end of the stream. -/
theorem exit_isolated :
    ∃ state w session k, state.session = some session ∧ ReadsFor w session k ∧
      ProducedBy w state k (some none) := by
  obtain ⟨trace, hListening, -⟩ := run_listening .default fun _ => none
  obtain ⟨more, hOpened⟩ := run_obliged
    (run_fire (.command (some (.select livingRoom))) hListening trivial (.command _))
  have hPolled := run_move (.poll 0) (run_park hOpened) (.poll rfl rfl)
  have hRead := run_move (.read 0 (.ok [])) hPolled (.read rfl rfl)
  have hSent := run_move (.send 0 true) hRead (.send rfl (.inl rfl))
  have hExit := run_fire (.inbound (some none)) hSent rfl
    (@Fires.frame _ _ ⟨0⟩ ⟨0, none⟩ [] rfl rfl)
  obtain ⟨k, hReads, hProduced⟩ :=
    session_isolation hExit _ (List.mem_append_right _ (List.mem_singleton.mpr rfl)) _ _ _ _
      rfl rfl rfl
  exact ⟨_, _, _, k, rfl, hReads, hProduced⟩

end CastApp.Cast.SessionIsolation
