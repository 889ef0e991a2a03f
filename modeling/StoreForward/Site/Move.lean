import StoreForward.Site

/-!
# Moves

A step of the worker is the action of its phase followed by a transition. It
is made of moves, each of which runs from one point of the action to the next
without a choice or a wait in between: the outset of the action, the call to
the crew, its answer, the next batch of a drain, the look at the wakes. Every
statement about steps, runs and cancellations reduces to one about moves.

In `closeSession` the session is given up *before* the crew is asked to close
it, and in `syncTime` the synchronisation is no longer due before the clock
is asked. Both hold even if the call is never answered.

## Main definitions

* `Site.act` — the outset of the action of each phase.
* `Site.conclude` — what an answer leads to.
* `Site.move` — the move from a point.
-/

namespace StoreForward.Site

variable {cap : Nat} {ε : Type}

/-! ## Answers -/

/-- A session has been opened. The first one on a link is announced. -/
def welcome (s : Site cap ε) : Site cap ε × Notice :=
  ({ s with worker := s.worker.openSession }.mapStatus
      fun st => { st with everConnected := true },
    if s.link.status.everConnected then .sessionOpened else .firstSession)

/-- A failure while tearing down is counted and otherwise passed over. -/
def countTeardownFailure (s : Site cap ε) : Site cap ε :=
  s.mapStatus fun st => { st with teardownFailures := st.teardownFailures + 1 }

/-- A batch has been published; the drain goes on with the next. -/
def countPublished (s : Site cap ε) (session : Nat) (batch : Batch) (sent : UInt32) :
    Move cap ε :=
  if sent = 0xffffffff then ⟨s, [], .violated .countOverflow⟩
  else
    ⟨s.mapStatus fun st => { st with published := st.published + 1 },
      [.noticed (.batchPublished batch.length)], .goOn (.draining session (sent + 1))⟩

/-- What the answer to a request leads to. -/
def conclude (s : Site cap ε) (job : Job) (answer : Answer) : Move cap ε :=
  match job, answer with
  | .start, .ok => s.finish .connectNetwork []
  | .start, .failed e =>
    (s.signal .networkStart).finish .connectNetwork [.noticed (.networkFailed e)]
  | .sync, .ok => s.finish .syncTime [.noticed .timeSynced]
  | .sync, .failed e => (s.signal .timeSync).finish .syncTime [.noticed (.syncFailed e)]
  | .connect, .ok => s.welcome.1.finish .connectSession [.noticed s.welcome.2]
  | .connect, .failed e =>
    (s.signal .sessionConnect).finish .connectSession [.noticed (.connectFailed e)]
  | .publish session batch sent, .ok => s.countPublished session batch sent
  | .publish _ _ sent, .failed e =>
    (s.signal .publish).finish .publish [.noticed (.publishFailed sent e)]
  | .close _, .ok => s.finish .closeSession [.noticed .sessionClosed]
  | .close _, .failed e =>
    s.countTeardownFailure.finish .closeSession [.noticed (.closeFailed e)]
  | .stop, .ok => s.finish .disconnectNetwork [.noticed .networkDown]
  | .stop, .failed e =>
    s.countTeardownFailure.finish .disconnectNetwork [.noticed (.stopFailed e)]

/-- The move at which the answer to a request arrives. -/
def receive (s : Site cap ε) (job : Job) (answer : Answer) : Move cap ε :=
  let m := s.conclude job answer
  { m with events := .answered job.request answer :: m.events }

/-- Start over after a connect that failed. -/
def retry (s : Site cap ε) : Move cap ε :=
  let counted : Site cap ε :=
    { s with worker := s.worker.countRetry }.mapStatus
      fun st => { st.lower with retries := st.retries + 1 }
  counted.finish .retrySession [.noticed (.retrying counted.worker.retries)]

section Crewed

variable [Crew ε]

/-! ## Draining -/

/-- Publish the next batch, if there is one. -/
def drain (s : Site cap ε) (session : Nat) (sent : UInt32) : Move cap ε :=
  match s.link.outbox.take? with
  | none => s.finish .publish [.noticed (.drained sent)]
  | some (batch, outbox) =>
    { s with link := { s.link with outbox } }.begin (.publish session batch sent) []

/-! ## Resting -/

/-- Get ready to rest. Wakes posted before this moment are stale, for the
outbox is looked at only now; the worker rests only if it is empty. -/
def settle (s : Site cap ε) : Move cap ε :=
  let stale := s.link.wakes.length
  let cleared : Site cap ε := { s with link := { s.link with wakes := .empty } }
  if cleared.link.isIdle then
    let discarded := if stale = 0 then [] else [.noticed (.wakesDiscarded stale)]
    let (allowed, hints) := cleared.setLowPower true
    ⟨allowed, discarded ++ hints ++ [.noticed .resting], .goOn (.waiting .parked)⟩
  else
    let (disallowed, hints) := cleared.setLowPower false
    disallowed.finish .idle (hints ++ [.noticed (.restSkipped disallowed.link.queued)])

/-- Take the oldest wake and stop resting; without one the rest goes on. -/
def listen (s : Site cap ε) : Move cap ε :=
  match s.link.wakes.take? with
  | none => ⟨s, [], .suspended .parked⟩
  | some (wake, wakes) =>
    let (awake, hints) :=
      { s with link := { s.link with wakes } }.setLowPower false
    awake.finish .idle (hints ++ [.noticed (.woken wake awake.link.queued)])

/-! ## All moves -/

/-- The outset of the action of the worker's phase. -/
def act (s : Site cap ε) : Move cap ε :=
  match s.worker.phase with
  | .start => s.finish .start []
  | .connectNetwork => s.begin .start [.noticed .startingNetwork]
  | .syncTime =>
    { s with worker := { s.worker with syncDue := false } }.begin .sync
      [.noticed .syncingTime]
  | .connectSession =>
    if s.worker.session.isSome then ⟨s, [], .violated .sessionHeld⟩
    else s.begin .connect []
  | .ready => s.finish .ready []
  | .publish =>
    match s.worker.session with
    | none => (s.signal .publish).finish .publish [.noticed .sessionMissing]
    | some session => ⟨s, [], .goOn (.draining session 0)⟩
  | .closeSession =>
    match s.worker.session with
    | none => s.finish .closeSession [.noticed .nothingToClose]
    | some session =>
      { s with worker := { s.worker with session := none } }.begin (.close session) []
  | .disconnectNetwork => s.begin .stop []
  | .idle => s.settle
  | .retrySession => s.retry
  | .fatal => ⟨s, [], .finished .fatal⟩

/-- What a step is opened with in the journal. A worker that has halted
begins no step. -/
def opening (s : Site cap ε) : List Event :=
  if s.worker.phase.isTerminal then [] else [.began s.worker.phase]

/-- The move from a point. -/
def move (s : Site cap ε) : Point → Move cap ε
  | .outset => { s.act with events := s.opening ++ s.act.events }
  | .draining session sent => s.drain session sent
  | .waiting (.call job 0 answer) => s.receive job answer
  | .waiting (.call job (polls + 1) answer) =>
    ⟨s, [], .suspended (.call job polls answer)⟩
  | .waiting .parked => s.listen

end Crewed

end StoreForward.Site
