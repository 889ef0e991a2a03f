import StoreForward.Text.Fields

/-!
# Phases of the worker

The worker is always in one of eleven phases. In each phase it carries out
one action, and then `Phase.next` decides where to go from four facts that
are looked up *after* the action: whether a failure is being signalled,
whether the clock still has to be synchronised, whether the outbox is empty,
and whether the retry budget is spent. Keeping the decision apart from the
actions makes the whole table a function of finitely many values.

The network encloses the session and the session encloses publishing: a cycle
runs from `connectNetwork` to `disconnectNetwork` and rests in `idle`. Only
`fatal` is never left.

## Main definitions

* `Phase.next` — the transition table.
* `Phase.path` — the phases a sequence of guards leads through.
-/

namespace StoreForward

/-- Where the worker stands. -/
inductive Phase where
  /-- Nothing has been done yet. -/
  | start
  /-- Bringing up the network. -/
  | connectNetwork
  /-- Synchronising the clock, once per boot. -/
  | syncTime
  /-- Opening a session with the collector. -/
  | connectSession
  /-- A session is open; is there work? -/
  | ready
  /-- Draining the outbox into the session. -/
  | publish
  /-- Closing the session. -/
  | closeSession
  /-- Taking the network down. -/
  | disconnectNetwork
  /-- Waiting for telemetry. -/
  | idle
  /-- Recovering from a session that could not be opened. -/
  | retrySession
  /-- Halted for good. -/
  | fatal
  deriving DecidableEq

/-- What the transition table looks at. -/
structure Guards where
  /-- A failure is being signalled. -/
  failed : Bool := false
  /-- The clock has not been synchronised since boot. -/
  syncDue : Bool := false
  /-- The outbox is empty. -/
  queueEmpty : Bool := false
  /-- The retry budget is spent. -/
  retriesExhausted : Bool := false
  deriving DecidableEq

namespace Phase

/-- Every phase, in the order of the codes. -/
def all : List Phase :=
  [start, connectNetwork, syncTime, connectSession, ready, publish,
    closeSession, disconnectNetwork, idle, retrySession, fatal]

/-- The number that stands for a phase in a status word. -/
def code : Phase → UInt8
  | start => 0
  | connectNetwork => 1
  | syncTime => 2
  | connectSession => 3
  | ready => 4
  | publish => 5
  | closeSession => 6
  | disconnectNetwork => 7
  | idle => 8
  | retrySession => 9
  | fatal => 10

/-- The phase a number stands for. -/
def ofCode? (n : UInt8) : Option Phase := all[n.toNat]?

/-- The name of a phase in diagnostics. -/
def name : Phase → String
  | start => "Start"
  | connectNetwork => "ConnectNetwork"
  | syncTime => "SyncTime"
  | connectSession => "ConnectSession"
  | ready => "Ready"
  | publish => "Publish"
  | closeSession => "CloseSession"
  | disconnectNetwork => "DisconnectNetwork"
  | idle => "Idle"
  | retrySession => "RetrySession"
  | fatal => "Fatal"

/-- The phase a name stands for. -/
def ofName? (s : String) : Option Phase := all.find? fun p => p.name == s

/-- The worker never leaves a terminal phase. -/
def isTerminal : Phase → Bool
  | fatal => true
  | _ => false

/-- A cycle is over when the worker has come to rest or has halted. -/
def endsCycle : Phase → Bool
  | idle | fatal => true
  | _ => false

/-! ## The transition table -/

/-- The phase after the action of a phase, given the facts as they then
stand. Failures while tearing down do not count, and a failed connect is
worth a retry as long as the budget lasts; every other failure is fatal. -/
def next : Phase → Guards → Phase
  | start, g => if g.failed then fatal else connectNetwork
  | connectNetwork, g =>
    if g.failed then fatal
    else if g.syncDue then syncTime
    else connectSession
  | syncTime, g => if g.failed then fatal else connectSession
  | connectSession, g => if g.failed then retrySession else ready
  | ready, g => if g.queueEmpty then closeSession else publish
  | publish, g => if g.failed then fatal else ready
  | closeSession, _ => disconnectNetwork
  | disconnectNetwork, _ => idle
  | idle, g => if g.queueEmpty then idle else connectNetwork
  | retrySession, g => if g.retriesExhausted then fatal else connectSession
  | fatal, _ => fatal

/-- The phases that a sequence of guards leads through, the first included. -/
def path (p : Phase) : List Guards → List Phase
  | [] => [p]
  | g :: rest => p :: (p.next g).path rest

/-- Where a sequence of guards leads. -/
def after (p : Phase) (gs : List Guards) : Phase := gs.foldl next p

/-! ## Small facts -/

theorem ofCode?_code (p : Phase) : ofCode? p.code = some p := by
  cases p <;> rfl

theorem isTerminal_iff (p : Phase) : p.isTerminal = true ↔ p = fatal := by
  cases p <;> simp [isTerminal]

end Phase

namespace Guards

/-- The guards in record notation, for diagnostics. -/
def text (g : Guards) : String :=
  Text.record "TransitionInputs"
    [("error", Text.flag g.failed), ("time_sync_required", Text.flag g.syncDue),
      ("queue_empty", Text.flag g.queueEmpty),
      ("retries_exhausted", Text.flag g.retriesExhausted)]

end Guards

end StoreForward
