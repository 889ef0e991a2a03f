/-!
# Bounded first-in first-out buffers

Both buffers of the link, the outbox and the wake channel, refuse the newest
element when they are full and give up the oldest first. They share this
type: the elements oldest first, and a capacity in the type that every
operation respects.

## Main definitions

* `Fifo.offer?` — append at the end, refused when full.
* `Fifo.take?` — remove the oldest element.
-/

namespace StoreForward

/-- A buffer for at most `cap` elements, oldest first. -/
structure Fifo (α : Type) (cap : Nat) where
  items : List α := []
  deriving DecidableEq

namespace Fifo

variable {α : Type} {cap : Nat}

def empty : Fifo α cap := {}

def length (q : Fifo α cap) : Nat := q.items.length

def isEmpty (q : Fifo α cap) : Bool := q.items.isEmpty

def isFull (q : Fifo α cap) : Bool := decide (cap ≤ q.length)

/-- Append an element; `none` when the buffer is full. -/
def offer? (q : Fifo α cap) (a : α) : Option (Fifo α cap) :=
  if q.isFull then none else some ⟨q.items ++ [a]⟩

/-- The oldest element and the buffer without it; `none` when empty. -/
def take? (q : Fifo α cap) : Option (α × Fifo α cap) :=
  match q.items with
  | [] => none
  | a :: rest => some (a, ⟨rest⟩)

/-! ## What the operations do to the elements -/

@[simp] theorem items_empty : (empty : Fifo α cap).items = [] := rfl

theorem isEmpty_iff (q : Fifo α cap) : q.isEmpty = true ↔ q.items = [] := by
  simp [isEmpty]

/-- An element is refused exactly when there is no room. -/
theorem offer?_eq_none_iff (q : Fifo α cap) (a : α) :
    q.offer? a = none ↔ cap ≤ q.length := by
  unfold offer? isFull
  split <;> simp_all

theorem items_offer? {q r : Fifo α cap} {a : α} (h : q.offer? a = some r) :
    r.items = q.items ++ [a] := by
  unfold offer? at h
  split at h
  · cases h
  · cases h
    rfl

theorem length_lt_of_offer? {q r : Fifo α cap} {a : α} (h : q.offer? a = some r) :
    q.length < cap := by
  have room : ¬ cap ≤ q.length := by
    rw [← offer?_eq_none_iff q a, h]
    simp
  exact Nat.lt_of_not_le room

/-- No offer takes a buffer beyond its capacity. -/
theorem length_offer?_le {q r : Fifo α cap} {a : α} (h : q.offer? a = some r) :
    r.length ≤ cap := by
  have room := length_lt_of_offer? h
  have items := items_offer? h
  unfold length at room ⊢
  rw [items, List.length_append, List.length_singleton]
  omega

theorem take?_eq_none_iff (q : Fifo α cap) : q.take? = none ↔ q.items = [] := by
  unfold take?
  split <;> simp_all

theorem items_take? {q r : Fifo α cap} {a : α} (h : q.take? = some (a, r)) :
    q.items = a :: r.items := by
  unfold take? at h
  split at h
  · cases h
  · cases h
    assumption

theorem isEmpty_of_take? {q r : Fifo α cap} {a : α} (h : q.take? = some (a, r)) :
    q.isEmpty = false := by
  unfold isEmpty
  rw [items_take? h]
  rfl

end Fifo

end StoreForward
