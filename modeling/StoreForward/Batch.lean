import StoreForward.Reading
import StoreForward.Timestamp

/-!
# Samples and batches

Telemetry leaves the device in batches of at most ten samples. A batch is
built by the sampler, waits in the outbox, and is consumed by one publish
call; nothing modifies it in between. The bound on its size is part of the
type, so every batch anywhere in the library fits in one message.

`Batch.agrees` compares readings as numbers; `=` compares patterns. The two
differ on zeros and on readings that are not a number.

## Main definitions

* `Batch.push?` — append a sample, or refuse it when there is no room.
* `Batch.ofList` — the first ten samples of a list.
-/

namespace StoreForward

/-- One reading and when it was taken. -/
structure Sample where
  timestamp : Timestamp
  reading : Reading
  deriving DecidableEq

namespace Sample

/-- Equal times, and readings that stand for the same number. -/
def agrees (a b : Sample) : Bool :=
  a.timestamp == b.timestamp && a.reading.agrees b.reading

end Sample

/-- The largest number of samples in a batch. -/
def batchCapacity : Nat := 10

/-- At most ten samples, oldest first. -/
structure Batch where
  samples : List Sample := []
  bounded : samples.length ≤ batchCapacity := by decide
  deriving DecidableEq

namespace Batch

/-- The batch without samples. -/
def empty : Batch := {}

def length (b : Batch) : Nat := b.samples.length

def isEmpty (b : Batch) : Bool := b.samples.isEmpty

def isFull (b : Batch) : Bool := b.length == batchCapacity

/-- Append a sample; `none` when the batch is full. -/
def push? (b : Batch) (s : Sample) : Option Batch :=
  if room : b.samples.length < batchCapacity then
    some ⟨b.samples ++ [s], by
      rw [List.length_append]
      exact room⟩
  else none

/-- The first ten samples of a list. -/
def ofList (samples : List Sample) : Batch :=
  ⟨samples.take batchCapacity, List.length_take_le _ _⟩

/-- When the oldest sample was taken. -/
def firstTimestamp? (b : Batch) : Option Timestamp :=
  b.samples.head?.map Sample.timestamp

/-- When the newest sample was taken. -/
def lastTimestamp? (b : Batch) : Option Timestamp :=
  b.samples.getLast?.map Sample.timestamp

/-- Sample by sample the same times and the same numbers. -/
def agrees (a b : Batch) : Bool :=
  a.length == b.length &&
    (a.samples.zip b.samples).all fun p => p.1.agrees p.2

/-- A batch with a single reading of 20.5, told apart from its like by the
second at which it was taken. -/
def tagged (tag : UInt64) : Batch :=
  ofList [⟨Timestamp.ofSecs tag, ⟨0x41a40000⟩⟩]

/-- The second at which the oldest sample was taken; zero when there is none. -/
def tag (b : Batch) : UInt64 :=
  match b.firstTimestamp? with
  | some t => t.secs
  | none => 0

/-! ## Sizes -/

@[ext] theorem ext {a b : Batch} (h : a.samples = b.samples) : a = b := by
  cases a
  cases b
  cases h
  rfl

@[simp] theorem samples_empty : empty.samples = [] := rfl

theorem samples_push? {b c : Batch} {s : Sample} (h : b.push? s = some c) :
    c.samples = b.samples ++ [s] := by
  unfold push? at h
  split at h
  · cases h
    rfl
  · cases h

/-- A sample is refused exactly by a full batch. -/
theorem push?_eq_none_iff (b : Batch) (s : Sample) :
    b.push? s = none ↔ b.length = batchCapacity := by
  have := b.bounded
  unfold push? length
  split <;> simp <;> omega

theorem samples_ofList (samples : List Sample) :
    (ofList samples).samples = samples.take batchCapacity := rfl

end Batch

end StoreForward
