import StoreForward.Text.Fields

/-!
# Faults

The transition table only sees that *something* failed. A fault says what,
so that whoever monitors the device can tell a dead network from a collector
that refuses the batches. Failures while tearing down are counted but are
never a fault.
-/

namespace StoreForward

/-- Where the most recent failure came from. -/
inductive Fault where
  /-- A failure was already being signalled before anything ran. -/
  | unexpected
  | networkStart
  | timeSync
  | sessionConnect
  | publish
  deriving DecidableEq

namespace Fault

/-- The number that stands for a fault in a status word; zero is for none. -/
def code : Fault → UInt8
  | unexpected => 1
  | networkStart => 2
  | timeSync => 3
  | sessionConnect => 4
  | publish => 5

/-- The fault a number stands for. -/
def ofCode? : UInt8 → Option Fault
  | 1 => some unexpected
  | 2 => some networkStart
  | 3 => some timeSync
  | 4 => some sessionConnect
  | 5 => some publish
  | _ => none

/-- The name of a fault in diagnostics. -/
def name : Fault → String
  | unexpected => "Unexpected"
  | networkStart => "NetworkStart"
  | timeSync => "TimeSync"
  | sessionConnect => "SessionConnect"
  | publish => "Publish"

/-- The fault in words. -/
def text : Fault → String
  | unexpected => "Error flag raised before start"
  | networkStart => "Network bring-up failed"
  | timeSync => "Time synchronization failed"
  | sessionConnect => "Session connect failed"
  | publish => "Publish failed"

/-- The announcement of a halt that this fault caused. -/
def haltText (f : Fault) : String := "connectivity halted: " ++ f.text

/-- The halt in record notation, for diagnostics. -/
def haltRecord (f : Fault) : String := Text.record "Halted" [("fault", f.name)]

theorem ofCode?_code (f : Fault) : ofCode? f.code = some f := by
  cases f <;> rfl

end Fault

end StoreForward
