import StoreForward.Text.Fields

/-!
# Wall-clock timestamps

A sample carries the wall-clock time at which it was taken, in whole seconds
since the Unix epoch and microseconds within the second. Clocks hand over the
two parts unnormalised, so `Timestamp.ofParts` carries whole seconds out of
the microseconds; at the end of the 64-bit range the seconds saturate instead
of wrapping, so that a broken clock reads as "very late" and never as "very
early".

## Main definitions

* `Timestamp.ofParts` — normalise seconds and microseconds.
* `Timestamp.totalMicros` — the instant as one count of microseconds.
* `compare` on timestamps — seconds first, then microseconds.
-/

namespace StoreForward

/-- An instant: whole seconds since the epoch and microseconds within it. -/
structure Timestamp where
  secs : UInt64 := 0
  micros : UInt32 := 0
  deriving DecidableEq

namespace Timestamp

/-- Microseconds in a second. -/
def microsPerSecond : UInt32 := 1000000

/-- Addition of seconds that stops at the largest second there is. -/
def addSecs (secs extra : UInt64) : UInt64 :=
  if secs.toNat + extra.toNat < UInt64.size then secs + extra
  else UInt64.ofNat (UInt64.size - 1)

/-- The instant at `secs` plus `micros`, whole seconds carried out. -/
def ofParts (secs : UInt64) (micros : UInt32) : Timestamp where
  secs := addSecs secs (micros / microsPerSecond).toUInt64
  micros := micros % microsPerSecond

/-- The instant at which a second begins. -/
def ofSecs (secs : UInt64) : Timestamp := ofParts secs 0

/-- The instant as microseconds since the epoch. -/
def totalMicros (t : Timestamp) : Nat :=
  t.secs.toNat * 1000000 + t.micros.toNat

/-! ## Order -/

/-- Timestamps compare by seconds, and by microseconds within a second. -/
instance : Ord Timestamp where
  compare a b := (compare a.secs b.secs).then (compare a.micros b.micros)

instance : LE Timestamp := leOfOrd

instance (a b : Timestamp) : Decidable (a ≤ b) :=
  inferInstanceAs (Decidable ((compare a b).isLE = true))

/-- Timestamps from the earliest to the latest. -/
def sort (ts : List Timestamp) : List Timestamp :=
  ts.mergeSort fun a b => decide (a ≤ b)

/-! ## Text -/

/-- The timestamp in record notation, for diagnostics. -/
def text (t : Timestamp) : String :=
  Text.record "Timestamp"
    [("unix_secs", toString t.secs.toNat), ("micros", Text.count t.micros)]

end Timestamp

end StoreForward
