import StoreForward.CallError
import StoreForward.Fault
import StoreForward.Phase
import StoreForward.Wake

/-!
# Notices

The link and the worker report what they do as notices. A notice is a value,
so that a program can look for one without taking text apart; its severity
and its wording are functions of it and are decided here only.

A `warn` is an error that came from outside, an `error` is the end of the
road for a worker.
-/

namespace StoreForward

/-- Severity of a notice, least severe first. -/
inductive Level where
  | trace
  | debug
  | info
  | warn
  | error
  deriving DecidableEq

/-- The name of a level as it stands in front of a notice. -/
def Level.name : Level → String
  | trace => "TRACE"
  | debug => "DEBUG"
  | info => "INFO"
  | warn => "WARN"
  | error => "ERROR"

/-- Everything there is to report. -/
inductive Notice where
  /-- A worker is being run until it halts. -/
  | workerStarted
  | entered (source target : Phase)
  | halted (source : Phase) (fault : Fault)
  | startingNetwork
  | networkFailed (error : CallError)
  | syncingTime
  | timeSynced
  | syncFailed (error : CallError)
  /-- The first session ever opened on the link. -/
  | firstSession
  | sessionOpened
  | connectFailed (error : CallError)
  | retrying (retries : UInt32)
  /-- There is no session to publish in. -/
  | sessionMissing
  | batchPublished (samples : Nat)
  | publishFailed (sent : UInt32) (error : CallError)
  | drained (sent : UInt32)
  /-- There is no session to close. -/
  | nothingToClose
  | sessionClosed
  | closeFailed (error : CallError)
  | networkDown
  | stopFailed (error : CallError)
  /-- Batches arrived before the worker could rest. -/
  | restSkipped (queued : Nat)
  | wakesDiscarded (count : Nat)
  | resting
  | woken (wake : Wake) (queued : Nat)
  | lowPowerAllowed
  | lowPowerDisallowed
  | batchRejected (rejected : UInt32)
  | wakeMerged (wake : Wake)
  deriving DecidableEq

namespace Notice

/-- The severity of a notice. -/
def level : Notice → Level
  | workerStarted | startingNetwork | syncingTime | timeSynced | firstSession
  | drained _ | resting => .info
  | entered _ _ | sessionOpened | retrying _ | nothingToClose | sessionClosed
  | networkDown | restSkipped _ | woken _ _ => .debug
  | halted _ _ | sessionMissing => .error
  | networkFailed _ | syncFailed _ | connectFailed _ | publishFailed _ _
  | closeFailed _ | stopFailed _ | batchRejected _ => .warn
  | batchPublished _ | wakesDiscarded _ | lowPowerAllowed | lowPowerDisallowed
  | wakeMerged _ => .trace

/-- The wording of a notice. -/
def text : Notice → String
  | workerStarted => "Connectivity worker started"
  | entered source target => source.name ++ " -> " ++ target.name
  | halted source fault => "Connectivity halted in " ++ source.name ++ ": " ++ fault.text
  | startingNetwork => "Bringing up network"
  | networkFailed e => "Network bring-up failed: " ++ e.text
  | syncingTime => "Synchronizing time"
  | timeSynced => "Time synchronized"
  | syncFailed e => "Time synchronization failed: " ++ e.text
  | firstSession => "First session established"
  | sessionOpened => "Session established"
  | connectFailed e => "Session connect failed: " ++ e.text
  | retrying n => "Session retry " ++ Text.count n
  | sessionMissing => "Publish requested without an open session"
  | batchPublished n => "Published batch of " ++ toString n ++ " samples"
  | publishFailed n e => "Publish failed after " ++ Text.count n ++ " batches: " ++ e.text
  | drained n => "Published " ++ Text.count n ++ " batches"
  | nothingToClose => "No session to close"
  | sessionClosed => "Session closed"
  | closeFailed e => "Session close failed: " ++ e.text
  | networkDown => "Network down"
  | stopFailed e => "Network teardown failed: " ++ e.text
  | restSkipped n => toString n ++ " batches queued, skipping idle wait"
  | wakesDiscarded n => "Discarded " ++ toString n ++ " stale wakes"
  | resting => "Waiting for telemetry"
  | woken w n => "Woken by " ++ w.name ++ ", " ++ toString n ++ " batches queued"
  | lowPowerAllowed => "Low power allowed"
  | lowPowerDisallowed => "Low power disallowed"
  | batchRejected n =>
    "Telemetry queue full, batch dropped (" ++ Text.count n ++ " dropped so far)"
  | wakeMerged w => "Wake channel full, " ++ w.name ++ " coalesced"

/-- The notice as a line of a log: severity, blank, wording. -/
def line (n : Notice) : String := n.level.name ++ " " ++ n.text

end Notice

end StoreForward
