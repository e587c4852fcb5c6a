import CastApp.Cast.Reader
import CastApp.Cast.RunLoop
import CastApp.Util.Shutdown
import Mathlib.Logic.Function.Basic

/-!
# The connection task among its threads

`run` placed in its surroundings, one await point per step.  The surroundings
hold the shutdown token with the task's receiver of it, one reader thread for
every session opened so far, and the frame channels between the two.  Between
any two steps of the task the token may be triggered and any reader may take
a step, those of sessions long gone included.

What a receiver answers is left open: any attempt to connect or write may
fail, and any bytes may arrive.
-/

namespace CastApp.Cast.ConnectionTask

open CastApp.State
open CastApp.Cast.Reader
open CastApp.Cast.RunLoop
open CastApp.Cast.Session
open CastApp.Util
open CastApp.Util.Json
open CastApp.Verified.Coroutine
open CastApp.Verified.EventLoop
open CastApp.Verified.Transition
open CastApp.Verified.WatchChannel

/-! ## The surroundings -/

/-- A reader thread, with the transport it reads and the channel it sends
on. -/
structure Spawned where
  transport : Transport
  channel : Channel
  thread : ReaderThread

/-- What a frame channel holds: a frame, or the `none` of an exit, and the
index of the thread that sent it. -/
structure Item where
  reader : Nat
  frame : Option (List Byte)
  deriving DecidableEq

structure World where
  token : Shutdown
  /-- `shutdown_rx` of the task, once it has subscribed. -/
  receiver : Option Receiver
  /-- The `if` condition of the shutdown branch, as of the last `select!`. -/
  armed : Bool
  /-- How many transports were opened and how many channels made. -/
  transports : Nat
  channels : Nat
  readers : List Spawned
  queued : Channel → List Item

namespace World

def new : World := ⟨.new, none, false, 0, 0, [], fun _ => []⟩

/-- A thread has taken a step. -/
def setReader (w : World) (k : Nat) (reader : Spawned) (thread : ReaderThread) : World :=
  { w with readers := w.readers.set k { reader with thread := thread } }

/-- A message of thread `k` arrives, if it is received at all. -/
def deliver (w : World) (k : Nat) (channel : Channel) (connected : Bool) :
    ReaderThread.Action → World
  | .send frame =>
      if connected then
        { w with queued :=
            Function.update w.queued channel (w.queued channel ++ [⟨k, frame⟩]) }
      else
        w
  | .silent => w

end World

/-- How the operations of the task are answered: transports and channels are
new each time, a spawned reader starts at the top of its loop. -/
inductive Answers (w : World) : (op : Op) → op.Ans → World → Prop
  | subscribe : Answers w .subscribe () { w with receiver := some w.token.subscribe }
  | unreachable {device : CastDevice} (source : TlsError) :
      Answers w (.connect device) (.error source) w
  | connected {device : CastDevice} (pin : PinCheck) :
      Answers w (.connect device) (.ok (⟨w.transports⟩, pin))
        { w with transports := w.transports + 1 }
  | write {transport : Transport} {message : Outgoing} (result : Except IoError Unit) :
      Answers w (.write transport message) result w
  | close {transport : Transport} : Answers w (.close transport) () w
  | channel : Answers w .channel ⟨w.channels⟩ { w with channels := w.channels + 1 }
  | unspawned {transport : Transport} {channel : Channel} (error : IoError) :
      Answers w (.spawnReader transport channel) (.error error) w
  | spawned {transport : Transport} {channel : Channel} :
      Answers w (.spawnReader transport channel) (.ok ())
        { w with readers := w.readers ++ [⟨transport, channel, .new⟩] }
  | now (instant : Instant) : Answers w .now instant w
  | emit {event : ConnectionEvent} : Answers w (.emit event) () w

/-- Which branch the `select!` may pick.  Commands arrive and timers fire at
any time; a frame is the oldest of the current channel, a closed channel is
an empty one whose reader has finished, and the token is seen by a receiver
that was armed. -/
inductive Fires (w : World) (state : RunState) : Branch → World → Prop
  | command (c : Option Command) : Fires w state (.command c) w
  | frame {channel : Channel} {item : Item} {rest : List Item}
      (hInbound : state.inbound = some channel) (hQueued : w.queued channel = item :: rest) :
      Fires w state (.inbound (some item.frame))
        { w with queued := Function.update w.queued channel rest }
  | closed {channel : Channel} (hInbound : state.inbound = some channel)
      (hQueued : w.queued channel = [])
      (hFinished : ∀ reader ∈ w.readers, reader.channel = channel →
        reader.thread.control = .finished) : Fires w state (.inbound none) w
  | heartbeat : Fires w state .heartbeat w
  | watchdog : Fires w state .watchdog w
  | reconnect : Fires w state .reconnect w
  | shutdown {receiver : Receiver} (hArmed : w.armed = true)
      (hReceiver : w.receiver = some receiver) (hReady : receiver.Ready w.token) :
      Fires w state .shutdown { w with receiver := some w.token.subscribe }

/-- A step of somebody else. -/
inductive Step : Type
  | trigger
  | poll (k : Nat)
  | read (k : Nat) (result : ReaderThread.ReadResult)
  | send (k : Nat) (connected : Bool)

inductive Moves (w : World) : Step → World → Prop
  | trigger : Moves w .trigger { w with token := w.token.trigger }
  | poll {k : Nat} {reader : Spawned} (hReader : w.readers[k]? = some reader)
      (hControl : reader.thread.control = .polling) :
      Moves w (.poll k) (w.setReader k reader (reader.thread.poll w.token.isShuttingDown))
  | read {k : Nat} {reader : Spawned} {result : ReaderThread.ReadResult}
      (hReader : w.readers[k]? = some reader)
      (hControl : reader.thread.control = .reading) :
      Moves w (.read k result) (w.setReader k reader (reader.thread.read result))
  /-- Whether anybody still receives is left open. -/
  | send {k : Nat} {reader : Spawned} {connected : Bool}
      (hReader : w.readers[k]? = some reader)
      (hControl : reader.thread.control = .leaving ∨
        ∃ frames, reader.thread.control = .sending frames) :
      Moves w (.send k connected)
        ((w.setReader k reader (reader.thread.send connected).2).deliver k reader.channel
          connected (reader.thread.send connected).1)

/-- The surroundings of the task.  The `if` condition of the shutdown branch
is evaluated when the `select!` is entered, from the value of the token. -/
def surroundings : Environment castSig RunState Branch World Step where
  init w := w = .new
  answers := Answers
  parks w _ w' := w' = { w with armed := !w.token.isShuttingDown }
  fires := Fires
  moves := Moves

/-- A state of the task and its surroundings. -/
abbrev TaskState : Type := Control castSig RunState × World

/-- The task in its surroundings. -/
def connectionTask (config : ConnectionConfig) (fromStr : String → Option Json) :
    System TaskState (Label castSig Branch Step) :=
  (run config fromStr).small surroundings

/-- One step of the task or of its surroundings. -/
abbrev TaskMove : Type := Move TaskState (Label castSig Branch Step)

/-! ## Obliging surroundings -/

/-- Everything succeeds. -/
def oblige (w : World) : (op : Op) → op.Ans × World
  | .subscribe => ((), { w with receiver := some w.token.subscribe })
  | .connect _ => (.ok (⟨w.transports⟩, .disabled), { w with transports := w.transports + 1 })
  | .write _ _ => (.ok (), w)
  | .close _ => ((), w)
  | .channel => (⟨w.channels⟩, { w with channels := w.channels + 1 })
  | .spawnReader transport channel =>
      (.ok (), { w with readers := w.readers ++ [⟨transport, channel, .new⟩] })
  | .now => (0, w)
  | .emit _ => ((), w)

theorem oblige_answers (w : World) (op : Op) : Answers w op (oblige w op).1 (oblige w op).2 := by
  cases op with
  | subscribe => exact .subscribe
  | connect => exact .connected _
  | write => exact .write _
  | close => exact .close
  | channel => exact .channel
  | spawnReader => exact .spawned
  | now => exact .now _
  | emit => exact .emit

variable (config : ConnectionConfig) (fromStr : String → Option Json)

/-- The surroundings the task first parks in. -/
def World.listening : World :=
  { World.new with receiver := some World.new.token.subscribe, armed := true }

theorem run_listening :
    ∃ trace, Run (connectionTask config fromStr) trace (.parked .new, .listening) ∧
      ∀ m ∈ trace, m.pre.2.token = .new := by
  have hStart : Run (connectionTask config fromStr) []
      (.running (run config fromStr).prelude, .new) := .start ⟨rfl, rfl⟩
  refine ⟨_, (hStart.step (.answer .subscribe)).step (.park rfl), ?_⟩
  intro m hMem
  rcases List.mem_cons.mp hMem with rfl | hMem
  · rfl
  · rw [List.mem_singleton.mp hMem]
    rfl

variable {config fromStr}

section Steps

variable {trace : List TaskMove} {control : Control castSig RunState} {state : RunState}
variable {w w' : World}

theorem run_park
    (hRun : Run (connectionTask config fromStr) trace (.running (.done (.park state)), w)) :
    Run (connectionTask config fromStr)
      (trace ++ [⟨(.running (.done (.park state)), w), .park,
        (.parked state, { w with armed := !w.token.isShuttingDown })⟩])
      (.parked state, { w with armed := !w.token.isShuttingDown }) :=
  hRun.step (.park rfl)

theorem run_fire (b : Branch)
    (hRun : Run (connectionTask config fromStr) trace (.parked state, w))
    (hGuard : branchGuard state b) (hFires : Fires w state b w') :
    Run (connectionTask config fromStr)
      (trace ++ [⟨(.parked state, w), .fire b, (.running (runBody config fromStr state b), w')⟩])
      (.running (runBody config fromStr state b), w') :=
  hRun.step (.fire hGuard hFires)

theorem run_move (step : Step)
    (hRun : Run (connectionTask config fromStr) trace (control, w)) (hMoves : Moves w step w') :
    Run (connectionTask config fromStr) (trace ++ [⟨(control, w), .move step, (control, w')⟩])
      (control, w') :=
  hRun.step (.move hMoves)

/-- Running a body to its end while everything succeeds. -/
theorem run_obliged {p : Cast (Flow RunState)}
    (hRun : Run (connectionTask config fromStr) trace (.running p, w)) :
    ∃ more, Run (connectionTask config fromStr) (trace ++ more)
      (.running (ended (reactTo oblige p w).1), (reactTo oblige p w).2) :=
  small_reactTo oblige_answers hRun

end Steps

end CastApp.Cast.ConnectionTask
