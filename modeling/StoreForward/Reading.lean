/-!
# Sensor readings

A reading is a single-precision number. It travels from the sensor to the
collector untouched, so the only arithmetic it ever takes part in is a
comparison, and keeping the bit pattern makes both equalities precise: `=` is
equality of patterns, and `Reading.agrees` is the comparison of the numbers
they stand for, in which the two zeros agree and a not-a-number agrees with
nothing, itself included.
-/

namespace StoreForward

/-- A single-precision reading, kept as its bit pattern. -/
structure Reading where
  bits : UInt32 := 0
  deriving DecidableEq

namespace Reading

/-- The pattern without its sign bit. -/
def magnitude (r : Reading) : UInt32 := r.bits &&& 0x7fffffff

/-- Patterns above the one for infinity stand for no number. -/
def isNaN (r : Reading) : Bool := decide (0x7f800000 < r.magnitude)

/-- Plus zero or minus zero. -/
def isZero (r : Reading) : Bool := r.magnitude == 0

/-- Two readings agree when they stand for the same number. -/
def agrees (a b : Reading) : Bool :=
  !a.isNaN && !b.isNaN && (a == b || (a.isZero && b.isZero))

end Reading

end StoreForward
