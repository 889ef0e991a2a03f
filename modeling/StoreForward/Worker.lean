import StoreForward.Crew
import StoreForward.Phase
import StoreForward.Settings

/-!
# The worker and the points at which it can stop

A worker carries its phase, what it still has to do, and the session it
holds. Sessions are numbered in the order in which the worker opened them.

A poll of a worker runs until something is not ready: the answer of its crew,
or a wake while it rests. What it then needs in order to go on is a
`Suspension`; together with the places inside an action where control can be
between two such waits it makes a `Point`.

## Main definitions

* `Worker` — what a worker remembers between steps.
* `Job` — a request under way, with what its conclusion needs.
* `Suspension`, `Point` — where a worker stands inside a step.
-/

namespace StoreForward

/-- What a worker remembers between steps. -/
structure Worker where
  settings : Settings
  phase : Phase := .start
  /-- The clock has not been synchronised since boot. -/
  syncDue : Bool
  /-- The number of the session that is open, if any. -/
  session : Option Nat := none
  /-- Sessions opened so far; the next one gets the number after it. -/
  opened : Nat := 0
  /-- Retries since the last session was opened. -/
  retries : UInt32 := 0
  /-- The crew has been told that the core may sleep. -/
  lowPower : Bool := false
  deriving DecidableEq

namespace Worker

/-- A worker that has just booted. -/
def boot (settings : Settings) : Worker where
  settings
  syncDue := settings.syncOnBoot

/-- More retries in a row than the settings allow. -/
def retriesExhausted (w : Worker) : Bool := w.settings.exhausted w.retries

/-- A retry counted; the count stops at the largest there is. -/
def countRetry (w : Worker) : Worker :=
  { w with retries := if w.retries = 0xffffffff then w.retries else w.retries + 1 }

/-- A session has been opened: it gets the next number, and the whole retry
budget is available again. -/
def openSession (w : Worker) : Worker :=
  { w with session := some (w.opened + 1), opened := w.opened + 1, retries := 0 }

end Worker

/-- A request under way. -/
inductive Job where
  | start
  | sync
  | connect
  /-- Publishing a batch after `sent` others in the same drain. -/
  | publish (session : Nat) (batch : Batch) (sent : UInt32)
  | close (session : Nat)
  | stop
  deriving DecidableEq

namespace Job

/-- What the crew is asked. -/
def request : Job → Request
  | start => .start
  | sync => .sync
  | connect => .connect
  | publish session batch _ => .publish session batch
  | close session => .close session
  | stop => .stop

/-- The phase whose action the job belongs to. -/
def phase : Job → Phase
  | start => .connectNetwork
  | sync => .syncTime
  | connect => .connectSession
  | publish _ _ _ => .publish
  | close _ => .closeSession
  | stop => .disconnectNetwork

end Job

/-- What a worker is waiting for. -/
inductive Suspension where
  /-- The answer of the crew, due after some more polls. -/
  | call (job : Job) (polls : Nat) (answer : Answer)
  /-- A wake, while resting. -/
  | parked
  deriving DecidableEq

/-- Where a worker stands inside a step. -/
inductive Point where
  /-- Before the action of its phase. -/
  | outset
  /-- Between two batches of a drain, `sent` of which are published. -/
  | draining (session : Nat) (sent : UInt32)
  /-- At a wait. -/
  | waiting (suspension : Suspension)
  deriving DecidableEq

/-- A check that did not hold. It ends the step, and the worker stays as it
was when the check was made. -/
inductive Violation where
  /-- A session was about to be opened while another was held. -/
  | sessionHeld
  /-- A drain published more batches than its count can express. -/
  | countOverflow
  /-- The crew found that it was being misused. -/
  | crew (text : String)
  deriving DecidableEq

namespace Violation

/-- The wording of a violation. -/
def text : Violation → String
  | sessionHeld => "at most one live session"
  | countOverflow => "attempt to add with overflow"
  | crew text => text

end Violation

end StoreForward
