import StoreForward.Batch

/-!
# Grouping samples into batches

The sampler produces one sample at a time; the outbox takes batches. A
`Batcher` stands between them: it gathers samples and hands out a batch as
soon as one is full, or whatever has been gathered when it is flushed.
-/

namespace StoreForward

/-- The samples gathered towards the next batch. -/
structure Batcher where
  current : Batch := .empty
  deriving DecidableEq

namespace Batcher

/-- Nothing gathered yet. -/
def empty : Batcher := {}

/-- Samples gathered towards the next batch. -/
def pending (b : Batcher) : Nat := b.current.length

/-- Gather one sample; a batch that becomes full comes out. A sample that
finds no room would be lost, which a batcher that emits on filling never
lets happen. -/
def push (b : Batcher) (s : Sample) : Batcher × Option Batch :=
  let gathered := (b.current.push? s).getD b.current
  if gathered.isFull then (.empty, some gathered) else (⟨gathered⟩, none)

/-- Emit what has been gathered, if anything. -/
def flush (b : Batcher) : Batcher × Option Batch :=
  if b.current.isEmpty then (b, none) else (.empty, some b.current)

/-- Gather samples one after another; the completed batches in order. -/
def pushAll (b : Batcher) : List Sample → Batcher × List Batch
  | [] => (b, [])
  | s :: rest =>
    let (next, out) := b.push s
    let (last, more) := next.pushAll rest
    (last, out.toList ++ more)

end Batcher

end StoreForward
