import CastApp.Media.Handler

/-!
# What a body loop leaves unflushed

The tracker counts, the handler flushes, and the writer may flush itself
whenever it likes.  One invariant ties them together over the turns of a
connection's body loop: the tracker has counted every byte the writer may
still hold, and restarts only where the handler flushes or nothing is held.

* `Kept` — everything a turn can do to the tracker and stay in the loop.
* `proxied_turn`, `live_turn` — both loops do nothing else.
* `path_bounded` — the invariant over all turns.
* **`streaming_flush_bound`** — what it says at every wait and at the end.
-/

namespace CastApp.Media.FlushBound

open CastApp.Media.Connections
open CastApp.Media.Flush
open CastApp.Media.Handler
open CastApp.Media.MediaServer
open CastApp.Media.Serving
open CastApp.Media.SmbSource (UrlParser)
open CastApp.State
open CastApp.Verified.Coroutine
open CastApp.Verified.EventLoop
open CastApp.Verified.Transition

/-! ## The writer -/

/-- The bytes of a body that a writer was given since its last flush. -/
def account (n : Nat) : Entry servingSig → Nat
  | ⟨.write bytes, _⟩ => n + bytes.length
  | ⟨.flush, .ok ()⟩ => 0
  | _ => n

def given (ops : Ops) : Nat := ops.foldl account 0

/-- `Buffered ops n`: behind `ops`, a writer may hold `n` bytes of a body.  It
may flush itself, or part of what it holds, at any time. -/
inductive Buffered : Ops → Nat → Prop
  | start : Buffered [] 0
  | step {ops : Ops} {n : Nat} (h : Buffered ops n) (entry : Entry servingSig) :
      Buffered (ops ++ [entry]) (account n entry)
  | selfFlush {ops : Ops} {n m : Nat} (h : Buffered ops n) (hLe : m ≤ n) : Buffered ops m

theorem account_mono {n m : Nat} (h : n ≤ m) (entry : Entry servingSig) :
    account n entry ≤ account m entry := by
  unfold account
  split
  · omega
  · omega
  · exact h

theorem buffered_le {ops : Ops} {n : Nat} (h : Buffered ops n) : n ≤ given ops := by
  induction h with
  | start => exact Nat.le_refl 0
  | step _ entry ih =>
      unfold given
      rw [List.foldl_append]
      exact account_mono ih entry
  | selfFlush _ hLe ih => omega

/-- A writer that never flushes itself holds all it was given. -/
theorem Buffered.keep {before : Ops} {n : Nat} (h : Buffered before n) (ops : Ops) :
    Buffered (before ++ ops) (ops.foldl account n) := by
  induction ops generalizing before n with
  | nil =>
      rw [List.append_nil]
      exact h
  | cons entry ops ih =>
      have hRest := ih (h.step entry)
      rw [List.append_assoc] at hRest
      exact hRest

/-! ## The clock -/

def reading : Entry servingSig → Option Instant
  | ⟨.now, now⟩ => some now
  | _ => none

/-- The last reading of the clock. -/
def lastReading (ops : Ops) : Option Instant := (ops.filterMap reading).getLast?

def isFlush : Entry servingSig → Bool
  | ⟨.flush, .ok ()⟩ => true
  | _ => false

/-- When a turn flushed or restarted the accounting: the last it read of the
clock before it flushed, or behind it at a deadline. -/
def restart (t : Turn servingSig BodyEvent) : Option Instant :=
  match t.branch with
  | .deadline => lastReading t.ops
  | _ => if t.ops.any isFlush then lastReading t.ops else none

/-- The turns of a connection. -/
abbrev Turns : Type := List (Move (Stage servingSig State) (Turn servingSig BodyEvent))

/-- The time of the last flush or restart, the start of the loop included. -/
def lastRestart (first : Ops) (turns : Turns) : Option Instant :=
  (turns.filterMap fun m => restart m.label).getLast?.or (lastReading first)

/-! ## The tracker -/

/-- The tracker of a body loop, with the thresholds of that loop. -/
def trackerOf : State → Option (FlushTracker × Nat × Duration)
  | .proxying flush => some (flush, UrlProxy.flushBytes, UrlProxy.flushInterval)
  | .streaming _ flush => some (flush, liveFlushBytes, liveFlushInterval)
  | .done => none

/-- A turn that stays in the loop: what came to pass, what was awaited and
what has become of the tracker. -/
inductive Kept (flush : FlushTracker) : BodyEvent → Ops → FlushTracker → Prop
  | counted {bytes : List Byte} (now restarted : Instant)
      (hFew : flush.bytesSinceFlush + bytes.length < flush.byteThreshold) :
      Kept flush (.chunk bytes)
        [⟨.write bytes, .ok ()⟩, ⟨.now, now⟩, ⟨.now, restarted⟩]
        { flush with bytesSinceFlush := flush.bytesSinceFlush + bytes.length }
  | flushed {bytes : List Byte} (now restarted : Instant) :
      Kept flush (.chunk bytes)
        [⟨.write bytes, .ok ()⟩, ⟨.now, now⟩, ⟨.now, restarted⟩, ⟨.flush, .ok ()⟩]
        (flush.reset restarted)
  | idle (now : Instant) (hNone : flush.bytesSinceFlush = 0) :
      Kept flush .deadline [⟨.now, now⟩] (flush.reset now)
  | pending (now : Instant) :
      Kept flush .deadline [⟨.flush, .ok ()⟩, ⟨.now, now⟩] (flush.reset now)

variable {flush flush' : FlushTracker} {event : BodyEvent} {ops : Ops}

theorem writeChunk_kept (bytes : List Byte) :
    Ensures (UrlProxy.writeChunk flush bytes) fun ops o =>
      ∀ flush', o = .value (.ok flush') → Kept flush (.chunk bytes) ops flush' := by
  unfold UrlProxy.writeChunk attempt
  refine ensures_perform_bind.mpr fun written => ?_
  cases written with
  | error error => exact ensures_pure.mpr fun _ h => (nomatch h)
  | ok =>
      refine ensures_perform_bind.mpr fun now => ensures_perform_bind.mpr fun restarted => ?_
      unfold FlushTracker.shouldFlush
      dsimp only
      by_cases hDue : flush.byteThreshold ≤ flush.bytesSinceFlush + bytes.length ∨
          flush.timeThreshold ≤ now - flush.lastFlush
      · rw [if_pos hDue]
        refine ensures_perform_bind.mpr fun flushed => ?_
        cases flushed with
        | error error => exact ensures_pure.mpr fun _ h => (nomatch h)
        | ok =>
            refine ensures_pure.mpr fun flush' h => ?_
            cases h
            exact .flushed now restarted
      · rw [if_neg hDue]
        refine ensures_pure.mpr fun flush' h => ?_
        cases h
        exact .counted now restarted (by omega)

theorem idle_kept :
    Ensures (UrlProxy.idle flush) fun ops o =>
      ∀ flush', o = .value (.ok flush') → Kept flush .deadline ops flush' := by
  unfold UrlProxy.idle attempt
  by_cases hPending : flush.hasPending = true
  · rw [if_pos hPending]
    refine ensures_perform_bind.mpr fun flushed => ?_
    cases flushed with
    | error error => exact ensures_pure.mpr fun _ h => (nomatch h)
    | ok =>
        refine ensures_perform_bind.mpr fun now => ensures_pure.mpr fun flush' h => ?_
        cases h
        exact .pending now
  · rw [if_neg hPending]
    refine ensures_perform_bind.mpr fun now => ensures_pure.mpr fun flush' h => ?_
    cases h
    refine .idle now ?_
    unfold FlushTracker.hasPending at hPending
    simpa using hPending

/-! ## Both loops -/

/-- What a turn of a loop that parks as `park` comes to: it stays with a
tracker that is kept, or it leaves; at the end of the source nothing is left
in the writer unless it failed. -/
def TurnLeaves (park : FlushTracker → State) (flush : FlushTracker) (event : BodyEvent)
    (ops : Ops) (o : Outcome servingSig (Flow State)) : Prop :=
  (∀ s, o = .value (.park s) → ∃ flush', s = park flush' ∧ Kept flush event ops flush') ∧
    (event = .ended → (∀ error, ⟨.flush, .error error⟩ ∉ ops) → ∀ n, ops.foldl account n = 0)

theorem proxied_turn :
    Ensures (proxied (UrlProxy.turn flush event)) (TurnLeaves .proxying flush event) := by
  have hTurn : Ensures (UrlProxy.turn flush event) fun ops o =>
      (∀ flush', o = .value (.ok (.streaming flush')) → Kept flush event ops flush') ∧
        (event = .ended → (∀ error, ⟨.flush, .error error⟩ ∉ ops) →
          ∀ n, ops.foldl account n = 0) := by
    cases event with
    | chunk bytes =>
        refine Ensures.bind (writeChunk_kept bytes) ?_ ?_
        · intro tr₁ result hResult
          cases result with
          | error error => exact ensures_pure.mpr ⟨fun _ h => (nomatch h), fun h => (nomatch h)⟩
          | ok flush' =>
              refine ensures_pure.mpr ⟨fun _ h => ?_, fun h => (nomatch h)⟩
              cases h
              rw [List.append_nil]
              exact hResult flush' rfl
        · exact fun _ _ _ => ⟨fun _ h => (nomatch h), fun h => (nomatch h)⟩
    | deadline =>
        refine Ensures.bind idle_kept ?_ ?_
        · intro tr₁ result hResult
          cases result with
          | error error => exact ensures_pure.mpr ⟨fun _ h => (nomatch h), fun h => (nomatch h)⟩
          | ok flush' =>
              refine ensures_pure.mpr ⟨fun _ h => ?_, fun h => (nomatch h)⟩
              cases h
              rw [List.append_nil]
              exact hResult flush' rfl
        · exact fun _ _ _ => ⟨fun _ h => (nomatch h), fun h => (nomatch h)⟩
    | ended =>
        refine ensures_perform_bind.mpr fun flushed => ?_
        cases flushed with
        | error error =>
            exact ensures_pure.mpr ⟨fun _ h => (nomatch h),
              fun _ hNone => absurd (List.mem_singleton.mpr rfl) (hNone error)⟩
        | ok => exact ensures_pure.mpr ⟨fun _ h => (nomatch h), fun _ _ _ => rfl⟩
    | failed error | aborted =>
        exact ensures_pure.mpr ⟨fun _ h => (nomatch h), fun h => (nomatch h)⟩
  refine Ensures.bind hTurn ?_ ?_
  · intro tr₁ result hResult
    cases result with
    | error error =>
        refine ensures_pure.mpr ⟨fun _ h => (nomatch h), ?_⟩
        rw [List.append_nil]
        exact hResult.2
    | ok progress =>
        cases progress with
        | complete =>
            refine ensures_pure.mpr ⟨fun _ h => (nomatch h), ?_⟩
            rw [List.append_nil]
            exact hResult.2
        | streaming flush' =>
            refine ensures_pure.mpr ⟨fun _ h => ?_, ?_⟩
            · cases h
              rw [List.append_nil]
              exact ⟨flush', rfl, hResult.1 flush' rfl⟩
            · rw [List.append_nil]
              exact hResult.2
  · exact fun tr e h => ⟨fun _ h => (nomatch h), h.2⟩

theorem live_kept {stream : ScreenStream} {p : Serve (Except IoError FlushTracker)}
    (hp : Ensures p fun ops o => ∀ flush', o = .value (.ok flush') → Kept flush event ops flush')
    (hEvent : event ≠ .ended) :
    Ensures (live stream p) (TurnLeaves (.streaming stream) flush event) := by
  refine Ensures.bind hp ?_ ?_
  · intro tr₁ result hResult
    cases result with
    | error error =>
        exact ensures_pure.mpr ⟨fun _ h => (nomatch h), fun h => absurd h hEvent⟩
    | ok flush' =>
        refine ensures_pure.mpr ⟨fun _ h => ?_, fun h => absurd h hEvent⟩
        cases h
        rw [List.append_nil]
        exact ⟨flush', rfl, hResult flush' rfl⟩
  · exact fun _ _ _ => ⟨fun _ h => (nomatch h), fun h => absurd h hEvent⟩

theorem live_turn {stream : ScreenStream} :
    Ensures (liveTurn stream flush event) (TurnLeaves (.streaming stream) flush event) := by
  cases event with
  | chunk bytes => exact live_kept (writeChunk_kept bytes) (fun h => (nomatch h))
  | deadline => exact live_kept idle_kept (fun h => (nomatch h))
  | ended =>
      refine ensures_perform_bind.mpr fun flushed => ?_
      cases flushed with
      | error error =>
          exact ensures_pure.mpr ⟨fun _ h => (nomatch h),
            fun _ hNone => absurd (List.mem_singleton.mpr rfl) (hNone error)⟩
      | ok =>
          refine ensures_perform_bind.mpr fun _ => ?_
          exact ensures_pure.mpr ⟨fun _ h => (nomatch h), fun _ _ _ => rfl⟩
  | failed error | aborted =>
      exact ensures_pure.mpr ⟨fun _ h => (nomatch h), fun h => (nomatch h)⟩

/-! ## The start of a loop -/

/-- At its first wait a loop has a new tracker, and the writer was given
nothing of the body. -/
def Opens (ops : Ops) (o : Outcome servingSig (Flow State)) : Prop :=
  ∀ s, o = .value (.park s) → ∃ now bytes interval,
    trackerOf s = some (.new bytes interval now, bytes, interval) ∧ 0 < bytes ∧
      given ops = 0 ∧ lastReading ops = some now

/-- Operations that neither write a body nor read the clock do not count. -/
theorem opens_cons {entry : Entry servingSig} {o : Outcome servingSig (Flow State)}
    (hAccount : account 0 entry = 0) (hReading : reading entry = none) (h : Opens ops o) :
    Opens (entry :: ops) o := by
  intro s hs
  obtain ⟨now, bytes, interval, hTracker, hPos, hGiven, hRead⟩ := h s hs
  refine ⟨now, bytes, interval, hTracker, hPos, ?_, ?_⟩
  · unfold given
    rw [List.foldl_cons, hAccount]
    exact hGiven
  · unfold lastReading
    rw [List.filterMap_cons_none hReading]
    exact hRead

theorem opens_exit {s : State} : Opens ops (.value (.exit s)) := fun _ h => (nomatch h)

theorem finish_opens {p : Serve (Except IoError Unit)} : Ensures (finish p) Opens := by
  refine Ensures.bind (P := fun _ _ => True) (fun _ _ _ => trivial) ?_ ?_
  · intro tr₁ result _
    exact ensures_pure.mpr opens_exit
  · exact fun _ _ _ _ h => (nomatch h)

theorem answer_opens (response : Response) : Ensures (answer response) Opens := by
  unfold answer
  refine ensures_perform_bind.mpr fun _ => ?_
  by_cases hBody : response.body ≠ ""
  · rw [if_pos hBody]
    refine ensures_perform_bind.mpr fun _ => ensures_perform_bind.mpr fun _ => ?_
    exact ensures_pure.mpr opens_exit
  · rw [if_neg hBody]
    refine ensures_perform_bind.mpr fun _ => ?_
    exact ensures_pure.mpr opens_exit

/-- A response that is complete waits in no loop. -/
theorem complete_ensures (p : Serve (Except IoError Unit)) :
    Ensures (attempt p fun () => return .ok UrlProxy.Progress.complete) fun _ o =>
      ∀ flush, o ≠ .value (.ok (.streaming flush)) := by
  refine Ensures.bind (P := fun _ _ => True) (fun _ _ _ => trivial) ?_ ?_
  · intro tr₁ result _
    cases result with
    | error error => exact ensures_pure.mpr fun _ h => (nomatch h)
    | ok => exact ensures_pure.mpr fun _ h => (nomatch h)
  · exact fun _ _ _ _ h => (nomatch h)

/-- What `UrlProxy::serve` leaves at its body loop. -/
theorem urlProxy_ensures (parseUrl : UrlParser) (url : String) (range : Option String)
    (headOnly : Bool) :
    Ensures (UrlProxy.serve parseUrl url range headOnly) fun ops o =>
      ∀ flush, o = .value (.ok (.streaming flush)) → ∃ now,
        flush = .new UrlProxy.flushBytes UrlProxy.flushInterval now ∧ given ops = 0 ∧
          lastReading ops = some now := by
  unfold UrlProxy.serve
  cases UrlProxy.validateUrl parseUrl url with
  | error error => exact (complete_ensures _).mono fun _ _ h flush hFlush => absurd hFlush (h flush)
  | ok valid =>
      refine ensures_perform_bind.mpr fun upstream => ?_
      cases upstream with
      | failed error | timeout =>
          exact (complete_ensures _).mono fun _ _ h flush hFlush => absurd hFlush (h flush)
      | answered head =>
          refine ensures_perform_bind.mpr fun written => ?_
          cases written with
          | error error => exact ensures_pure.mpr fun _ h => (nomatch h)
          | ok =>
              refine ensures_perform_bind.mpr fun flushed => ?_
              cases flushed with
              | error error => exact ensures_pure.mpr fun _ h => (nomatch h)
              | ok =>
                  cases headOnly with
                  | true => exact ensures_pure.mpr fun _ h => (nomatch h)
                  | false =>
                      refine ensures_perform_bind.mpr fun now => ?_
                      refine ensures_pure.mpr fun flush h => ?_
                      cases h
                      exact ⟨now, rfl, rfl, rfl⟩

theorem proxied_opens (parseUrl : UrlParser) (url : String) (range : Option String)
    (headOnly : Bool) :
    Ensures (proxied (UrlProxy.serve parseUrl url range headOnly)) Opens := by
  refine Ensures.bind (urlProxy_ensures parseUrl url range headOnly) ?_ ?_
  · intro tr₁ result hResult
    cases result with
    | error error => exact ensures_pure.mpr fun _ h => (nomatch h)
    | ok progress =>
        cases progress with
        | complete => exact ensures_pure.mpr fun _ h => (nomatch h)
        | streaming flush =>
            refine ensures_pure.mpr fun s h => ?_
            cases h
            obtain ⟨now, rfl, hGiven, hRead⟩ := hResult flush rfl
            rw [List.append_nil]
            exact ⟨now, _, _, rfl, by decide, hGiven, hRead⟩
  · exact fun _ _ _ _ h => (nomatch h)

/-- What the head of a live stream leaves at its body loop. -/
theorem live_opens (stream : ScreenStream) : Ensures (live stream openLive) Opens := by
  refine ensures_perform_bind.mpr fun written => ?_
  cases written with
  | error error => exact ensures_pure.mpr fun _ h => (nomatch h)
  | ok =>
      refine ensures_perform_bind.mpr fun flushed => ?_
      cases flushed with
      | error error => exact ensures_pure.mpr fun _ h => (nomatch h)
      | ok =>
          refine ensures_perform_bind.mpr fun now => ensures_pure.mpr fun s h => ?_
          cases h
          exact ⟨now, _, _, rfl, by decide, rfl, rfl⟩

theorem serveSource_opens (parseUrl : UrlParser) (source : Option ActiveSource)
    (range : Option String) (headOnly : Bool) :
    Ensures (serveSource parseUrl source range headOnly) Opens := by
  unfold serveSource
  cases source with
  | none => exact answer_opens _
  | some source =>
      cases source with
      | file path => exact finish_opens
      | url url =>
          dsimp only
          split
          · exact finish_opens
          · exact proxied_opens parseUrl url range headOnly
      | screen monitor =>
          refine ensures_perform_bind.mpr fun found => ?_
          cases found with
          | none => exact (answer_opens _).mono fun _ _ h => opens_cons rfl rfl h
          | some stream => exact (live_opens stream).mono fun _ _ h => opens_cons rfl rfl h

theorem prelude_opens (parseUrl : UrlParser) (source : Option ActiveSource) :
    Ensures (handleConnection parseUrl source).prelude Opens := by
  refine ensures_perform_bind.mpr fun read => ?_
  cases read with
  | closed | slow => exact ensures_pure.mpr opens_exit
  | failed => exact (answer_opens _).mono fun _ _ h => opens_cons rfl rfl h
  | request request =>
      refine Ensures.mono ?_ fun _ _ h => opens_cons rfl rfl h
      show Ensures (handleRequest parseUrl source request) Opens
      unfold handleRequest
      split
      · exact answer_opens _
      split
      · exact answer_opens _
      · exact serveSource_opens parseUrl source _ _

/-! ## All turns -/

variable {first : Ops} {turns : Turns}

/-- The tracker of a loop against all that was done before. -/
structure Counts (first : Ops) (turns : Turns) (flush : FlushTracker) (bytes : Nat)
    (interval : Duration) : Prop where
  hBytes : flush.byteThreshold = bytes
  hInterval : flush.timeThreshold = interval
  hGiven : given (first ++ opsOf turns) = flush.bytesSinceFlush
  hBelow : flush.bytesSinceFlush < flush.byteThreshold
  hRestart : lastRestart first turns = some flush.lastFlush

theorem given_turn (m : Move (Stage servingSig State) (Turn servingSig BodyEvent)) :
    given (first ++ opsOf (turns ++ [m])) =
      m.label.ops.foldl account (given (first ++ opsOf turns)) := by
  unfold given
  rw [opsOf_append, opsOf_singleton, ← List.append_assoc, List.foldl_append]

theorem lastRestart_turn (m : Move (Stage servingSig State) (Turn servingSig BodyEvent)) :
    lastRestart first (turns ++ [m]) = (restart m.label).or (lastRestart first turns) := by
  unfold lastRestart
  rw [List.filterMap_append]
  cases hRestart : restart m.label with
  | none => simp [hRestart]
  | some now => simp [hRestart]

/-- A turn that stays in the loop keeps the account. -/
theorem Kept.counts {m : Move (Stage servingSig State) (Turn servingSig BodyEvent)} {bytes : Nat}
    {interval : Duration} (hKept : Kept flush m.label.branch m.label.ops flush')
    (h : Counts first turns flush bytes interval) :
    Counts first (turns ++ [m]) flush' bytes interval := by
  obtain ⟨hBytes, hInterval, hGiven, hBelow, hRestart⟩ := h
  have hTurn := @given_turn first turns m
  have hLast := @lastRestart_turn first turns m
  obtain ⟨pre, ⟨branch, ops⟩, post⟩ := m
  rw [hGiven] at hTurn
  cases hKept with
  | counted now restarted hFew => exact ⟨hBytes, hInterval, hTurn, hFew, hLast.trans hRestart⟩
  | flushed now restarted | pending now =>
      exact ⟨hBytes, hInterval, hTurn, Nat.lt_of_le_of_lt (Nat.zero_le _) hBelow, hLast⟩
  | idle now hNone =>
      refine ⟨hBytes, hInterval, ?_, Nat.lt_of_le_of_lt (Nat.zero_le _) hBelow, hLast⟩
      exact hTurn.trans hNone

/-- What holds after any turns. -/
structure Bounded (first : Ops) (turns : Turns) (c : Stage servingSig State) : Prop where
  hParked : ∀ s, c = .parked s → ∃ flush bytes interval,
    trackerOf s = some (flush, bytes, interval) ∧ Counts first turns flush bytes interval
  hEnded : ∀ earlier last, turns = earlier ++ [last] → last.label.branch = .ended →
    (∀ error, ⟨.flush, .error error⟩ ∉ last.label.ops) → given (first ++ opsOf turns) = 0

/-- One turn of either loop. -/
theorem turn_bounded {parseUrl : UrlParser} {source : Option ActiveSource}
    {c c' : Stage servingSig State} {t : Turn servingSig BodyEvent} (h : Bounded first turns c)
    (hStep : (handleConnection parseUrl source).turns.step c t c') :
    Bounded first (turns ++ [⟨c, t, c'⟩]) c' := by
  obtain ⟨s, rfl, hGuard, o, hExec, rfl⟩ := hStep
  obtain ⟨flush, bytes, interval, hTracker, hCounts⟩ := h.hParked s rfl
  have hLeaves : ∃ park : FlushTracker → State, TurnLeaves park flush t.branch t.ops o ∧
      ∀ flush', trackerOf (park flush') = some (flush', bytes, interval) := by
    cases s with
    | proxying flush₁ =>
        cases hTracker
        exact ⟨.proxying, proxied_turn _ _ hExec, fun _ => rfl⟩
    | streaming stream flush₁ =>
        cases hTracker
        exact ⟨.streaming stream, live_turn _ _ hExec, fun _ => rfl⟩
    | done => cases hTracker
  obtain ⟨park, ⟨hStays, hEnds⟩, hPark⟩ := hLeaves
  constructor
  · intro s' hs'
    have hOutcome : o = .value (.park s') := by
      cases o with
      | value flow => cases flow <;> cases hs'; rfl
      | fault reason => cases hs'
    obtain ⟨flush', rfl, hKept⟩ := hStays s' hOutcome
    exact ⟨flush', bytes, interval, hPark flush', Kept.counts (m := ⟨_, t, _⟩) hKept hCounts⟩
  · intro earlier last hTurns hBranch hClean
    obtain ⟨rfl, hLast⟩ := List.append_inj' hTurns rfl
    obtain rfl := List.singleton_inj.mp hLast
    rw [given_turn]
    exact hEnds hBranch hClean _

/-- All turns of a connection, from the state its prelude leaves. -/
theorem path_bounded {parseUrl : UrlParser} {source : Option ActiveSource}
    {o : Outcome servingSig (Flow State)} {c : Stage servingSig State}
    (hPrelude : Exec (handleConnection parseUrl source).prelude first o)
    (hPath : Path (handleConnection parseUrl source).turns (stageOf o) turns c) :
    Bounded first turns c := by
  refine hPath.traceInvariant ?_ fun _ _ _ _ h hStep => turn_bounded h hStep
  constructor
  · intro s hs
    have hOutcome : o = .value (.park s) := by
      cases o with
      | value flow => cases flow <;> cases hs; rfl
      | fault reason => cases hs
    obtain ⟨now, bytes, interval, hTracker, hPos, hGiven, hRead⟩ :=
      prelude_opens parseUrl source first o hPrelude s hOutcome
    refine ⟨_, bytes, interval, hTracker, rfl, rfl, ?_, hPos, hRead⟩
    rw [opsOf_nil, List.append_nil]
    exact hGiven
  · intro earlier last hTurns
    simp at hTurns

/-- For every response with a body loop, whatever came of its operations and
whenever the writer flushed itself: at every wait, a writer that holds bytes of
the body finds them counted and fewer than the threshold, and the deadline is
at most the interval after the last flush or restart; and when the source has
ended without an error of the writer, it holds none. -/
theorem streaming_flush_bound (parseUrl : UrlParser) (source : Option ActiveSource) (first : Ops)
    (o : Outcome servingSig (Flow State)) (turns : Turns) (c : Stage servingSig State)
    (hPrelude : Exec (handleConnection parseUrl source).prelude first o)
    (hPath : Path (handleConnection parseUrl source).turns (stageOf o) turns c) :
    (∀ s, c = .parked s → ∃ flush bytes interval, trackerOf s = some (flush, bytes, interval) ∧
      (∀ n, Buffered (first ++ opsOf turns) n → (0 < n → flush.hasPending = true) ∧ n < bytes) ∧
      ∃ restarted, lastRestart first turns = some restarted ∧
        flush.nextDeadline ≤ restarted + interval) ∧
    ∀ earlier last, turns = earlier ++ [last] → last.label.branch = .ended →
      (∀ error, ⟨.flush, .error error⟩ ∉ last.label.ops) →
      ∀ n, Buffered (first ++ opsOf turns) n → n = 0 := by
  have hBounded := path_bounded hPrelude hPath
  constructor
  · intro s hs
    obtain ⟨flush, bytes, interval, hTracker, hCounts⟩ := hBounded.hParked s hs
    refine ⟨flush, bytes, interval, hTracker, ?_, flush.lastFlush, hCounts.hRestart, ?_⟩
    · intro n hBuffered
      have hLe := buffered_le hBuffered
      have hBelow := hCounts.hBelow
      rw [hCounts.hGiven] at hLe
      rw [hCounts.hBytes] at hBelow
      refine ⟨fun hSome => ?_, by omega⟩
      unfold FlushTracker.hasPending
      exact decide_eq_true (by omega)
    · unfold FlushTracker.nextDeadline
      rw [hCounts.hInterval]
  · intro earlier last hTurns hBranch hClean n hBuffered
    have hLe := buffered_le hBuffered
    rw [hBounded.hEnded earlier last hTurns hBranch hClean] at hLe
    omega

/-- A client that takes everything, and a stream that is attached. -/
def client (stream : ScreenStream) : Oracle servingSig
  | .readRequest => .request ⟨"GET", "/stream", []⟩
  | .writeHead _ | .write _ | .flush | .openFile _ | .seek _ => .ok ()
  | .fileSize | .openShare _ => .ok (0 : Nat)
  | .read _ | .readAt _ _ => .ok []
  | .closeShare => .ok ()
  | .send _ _ => .timeout
  | .now => (0 : Nat)
  | .takeLive => some stream
  | .putBack _ => ()

/-- A chunk of three bytes of a live stream. -/
theorem streaming_flush_three :
    ∃ first o turns c,
      Exec (handleConnection (fun _ => .error "") (some (.screen "DP-1"))).prelude first o ∧
        Path (handleConnection (fun _ => .error "") (some (.screen "DP-1"))).turns (stageOf o)
          turns c ∧
        Buffered (first ++ opsOf turns) 3 ∧
        ∃ flush bytes interval, c = .parked (.streaming ⟨1⟩ flush) ∧
          trackerOf (.streaming ⟨1⟩ flush) = some (flush, bytes, interval) ∧
          flush.hasPending = true := by
  let L := handleConnection (fun _ => .error "") (some (.screen "DP-1"))
  let flush : FlushTracker := .new liveFlushBytes liveFlushInterval 0
  let first := (L.prelude.answerWith (client ⟨1⟩)).1
  let turn := (L.body (.streaming ⟨1⟩ flush) (.chunk [1, 2, 3])).answerWith (client ⟨1⟩)
  have hPrelude : Exec L.prelude first (.value (.park (.streaming ⟨1⟩ flush))) :=
    exec_answerWith (client ⟨1⟩) L.prelude
  have hTurn : L.TakesTurn (.streaming ⟨1⟩ flush) ⟨.chunk [1, 2, 3], turn.1⟩
      (.parked (.streaming ⟨1⟩ { flush with bytesSinceFlush := 3 })) :=
    takesTurn_answerWith L _ _ (client ⟨1⟩) trivial
  let turns : Turns := [⟨.parked (.streaming ⟨1⟩ flush), ⟨.chunk [1, 2, 3], turn.1⟩,
    .parked (.streaming ⟨1⟩ { flush with bytesSinceFlush := 3 })⟩]
  have hPath : Path L.turns (.parked (.streaming ⟨1⟩ flush)) turns
      (.parked (.streaming ⟨1⟩ { flush with bytesSinceFlush := 3 })) :=
    Path.step .nil ⟨_, rfl, hTurn⟩
  have hBuffered : Buffered (first ++ opsOf turns) 3 := Buffered.start.keep (first ++ opsOf turns)
  obtain ⟨_, bytes, interval, hTracker, hHeld, -⟩ :=
    (streaming_flush_bound _ _ first _ _ _ hPrelude hPath).1 _ rfl
  cases hTracker
  exact ⟨first, _, _, _, hPrelude, hPath, hBuffered, _, _, _, rfl, rfl,
    (hHeld 3 hBuffered).1 (by decide)⟩

end CastApp.Media.FlushBound
