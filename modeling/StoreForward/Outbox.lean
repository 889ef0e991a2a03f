import StoreForward.Batch
import StoreForward.Fifo

/-!
# The outbox

Batches wait here between the sampler and the worker. When the outbox is
full the *incoming* batch is rejected: the producer never waits, and what is
already queued keeps its place. Rejections are counted in 32 bits, wrapping.
-/

namespace StoreForward

/-- The number of batches an outbox holds unless a link says otherwise. -/
def defaultCapacity : Nat := 10

/-- Waiting batches, and how many found no room. -/
structure Outbox (cap : Nat) where
  waiting : Fifo Batch cap := .empty
  rejected : UInt32 := 0
  deriving DecidableEq

namespace Outbox

variable {cap : Nat}

def empty : Outbox cap := {}

def length (o : Outbox cap) : Nat := o.waiting.length

def isEmpty (o : Outbox cap) : Bool := o.waiting.isEmpty

def isFull (o : Outbox cap) : Bool := o.waiting.isFull

/-- Queue a batch and say whether it was accepted. -/
def offer (o : Outbox cap) (b : Batch) : Outbox cap × Bool :=
  match o.waiting.offer? b with
  | some waiting => ({ o with waiting }, true)
  | none => ({ o with rejected := o.rejected + 1 }, false)

/-- The oldest batch and the outbox without it. -/
def take? (o : Outbox cap) : Option (Batch × Outbox cap) :=
  o.waiting.take?.map fun p => (p.1, { o with waiting := p.2 })

/-- Every waiting batch, oldest first, and the outbox without them. -/
def drain (o : Outbox cap) : List Batch × Outbox cap :=
  (o.waiting.items, { o with waiting := .empty })

/-! ## What offering a batch does -/

/-- An offer finds room and appends the batch, or it finds none and is only counted. -/
theorem offer_cases (o : Outbox cap) (b : Batch) :
    (o.length < cap ∧ ∃ waiting : Fifo Batch cap, waiting.items = o.waiting.items ++ [b] ∧
      o.offer b = ({ o with waiting }, true)) ∨
    (cap ≤ o.length ∧ o.offer b = ({ o with rejected := o.rejected + 1 }, false)) := by
  unfold offer
  cases room : o.waiting.offer? b with
  | some waiting =>
      exact .inl ⟨Fifo.length_lt_of_offer? room, waiting, Fifo.items_offer? room, rfl⟩
  | none => exact .inr ⟨(Fifo.offer?_eq_none_iff _ _).mp room, rfl⟩

/-! ## What taking a batch does -/

/-- The batch taken is the oldest one, and the others keep their order. -/
theorem items_take? {o rest : Outbox cap} {b : Batch} (h : o.take? = some (b, rest)) :
    o.waiting.items = b :: rest.waiting.items ∧ rest.rejected = o.rejected := by
  unfold take? at h
  cases taken : o.waiting.take? with
  | none =>
      rw [taken] at h
      cases h
  | some p =>
      rw [taken] at h
      cases h
      exact ⟨Fifo.items_take? taken, rfl⟩

theorem length_take? {o rest : Outbox cap} {b : Batch} (h : o.take? = some (b, rest)) :
    o.length = rest.length + 1 := by
  unfold length Fifo.length
  rw [(items_take? h).1, List.length_cons]

theorem isEmpty_of_take? {o rest : Outbox cap} {b : Batch} (h : o.take? = some (b, rest)) :
    o.isEmpty = false := by
  unfold isEmpty Fifo.isEmpty
  rw [(items_take? h).1]
  rfl

/-- There is a batch to take unless the outbox is empty. -/
theorem take?_eq_none_iff (o : Outbox cap) : o.take? = none ↔ o.isEmpty = true := by
  unfold take? isEmpty
  rw [Option.map_eq_none_iff, Fifo.take?_eq_none_iff, Fifo.isEmpty_iff]

end Outbox

end StoreForward
