import StoreForward.Fault
import StoreForward.Phase

/-!
# Status

Observers see the link through its status: the phase the worker last
entered, the signals it has raised, and counters. Two signals are sticky
(`everConnected` and `halted`), the failure signal is lowered by a retry, and
the fault outlives the signal that came with it. The counters are 32 bits
wide and wrap.

## Main definitions

* `Status` — what the worker writes and anyone may read.
* `Tally` — the counters as one snapshot, rejections included.
-/

namespace StoreForward

/-- What the worker tells its observers. -/
structure Status where
  /-- The phase last entered. -/
  phase : Phase := .start
  /-- A failure is being handled. -/
  failed : Bool := false
  /-- A session has been established at least once. -/
  everConnected : Bool := false
  /-- A worker has halted on this link. -/
  halted : Bool := false
  /-- Where the most recent failure came from. -/
  fault : Option Fault := none
  /-- The worker is parked and the core may sleep. -/
  lowPower : Bool := false
  enqueued : UInt32 := 0
  published : UInt32 := 0
  retries : UInt32 := 0
  teardownFailures : UInt32 := 0
  lowPowerWindows : UInt32 := 0
  deriving DecidableEq

namespace Status

/-- Signal a failure and remember where it came from. -/
def signal (s : Status) (f : Fault) : Status :=
  { s with fault := some f, failed := true }

/-- Lower the failure signal. The fault stays visible. -/
def lower (s : Status) : Status := { s with failed := false }

/-- Record a halt and its cause. -/
def halt (s : Status) (f : Fault) : Status :=
  { s with fault := some f, halted := true }

/-- Allowing low power opens a new window, disallowing it ends one. -/
def setLowPower (s : Status) (allowed : Bool) : Status :=
  { s with
    lowPower := allowed
    lowPowerWindows := if allowed then s.lowPowerWindows + 1 else s.lowPowerWindows }

/-- The worker has halted, or a failure is being handled. -/
def hasError (s : Status) : Bool := s.halted || s.failed

end Status

/-- The counters of a link at one moment. -/
structure Tally where
  /-- Batches accepted by the outbox. -/
  enqueued : UInt32 := 0
  /-- Batches that found the outbox full. -/
  rejected : UInt32 := 0
  /-- Batches published successfully. -/
  published : UInt32 := 0
  /-- Passes through the retry phase. -/
  retries : UInt32 := 0
  /-- Calls to close a session or stop the network that failed. -/
  teardownFailures : UInt32 := 0
  /-- How often low power was allowed. -/
  lowPowerWindows : UInt32 := 0
  deriving DecidableEq

namespace Tally

/-- The counters in record notation, for diagnostics. -/
def text (t : Tally) : String :=
  Text.record "ConnectivityStats"
    [("enqueued", Text.count t.enqueued), ("dropped", Text.count t.rejected),
      ("published", Text.count t.published), ("session_retries", Text.count t.retries),
      ("teardown_failures", Text.count t.teardownFailures),
      ("low_power_windows", Text.count t.lowPowerWindows)]

/-- The counters in the order in which they are reported. -/
def toList (t : Tally) : List UInt32 :=
  [t.enqueued, t.rejected, t.published, t.retries, t.teardownFailures, t.lowPowerWindows]

end Tally

end StoreForward
