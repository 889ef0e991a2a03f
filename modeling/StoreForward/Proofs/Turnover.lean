import StoreForward.Outbox

/-!
# The turnover of an outbox

An outbox never keeps its producer waiting, so something has to give when it is full.
What gives is the newest batch: the one that is offered is turned away, and those that
wait keep their places. No trace of it is left but in a count, which is 32 bits wide
and wraps.

A producer and a worker may use an outbox in any order. What comes of a use is a
`Deal`, and an outbox is accounted for by the deals that were made with it
(`Accounts`): the batches taken out and those still waiting are together the ones that
were let in, in order. One more use adds one deal and keeps the account
(`Accounts.apply`), whether the outbox is empty, full, or neither, so the account of a
new outbox is kept through any number of uses.

## Main definitions

* `Outbox.Use`, `Outbox.Deal` — what is asked of an outbox, and what came of it.
* `Outbox.applyAll` — uses one after another, and their deals.
* `Outbox.Accounts` — an outbox is what its deals have made of it.

## Main results

* `Outbox.Accounts.apply` — every use keeps the account.
* `Outbox.keeps_the_oldest` — batches leave in the order in which they were let in, and
  only the newest is ever turned away.
-/

namespace StoreForward.Outbox

variable {cap : Nat}

/-! ## Uses and deals -/

/-- What a producer or a worker asks of an outbox. -/
inductive Use where
  | offer (batch : Batch)
  | take
  deriving DecidableEq

/-- The use brings a batch. -/
def Use.isOffer : Use → Bool
  | offer _ => true
  | take => false

/-- What came of a use. -/
inductive Deal where
  | letIn (batch : Batch)
  | turnedAway (batch : Batch)
  | takenOut (batch : Batch)
  /-- There was nothing to take. -/
  | nothing
  deriving DecidableEq

namespace Deal

/-- The batch that was let in, if the deal is one. -/
def letIn? : Deal → Option Batch
  | letIn batch => some batch
  | _ => none

/-- The batch that was taken out, if the deal is one. -/
def takenOut? : Deal → Option Batch
  | takenOut batch => some batch
  | _ => none

def isTurnedAway : Deal → Bool
  | turnedAway _ => true
  | _ => false

end Deal

/-- The batches let in by some deals, in order. -/
def lettings (deals : List Deal) : List Batch := deals.filterMap Deal.letIn?

/-- The batches taken out by some deals, in order. -/
def takings (deals : List Deal) : List Batch := deals.filterMap Deal.takenOut?

/-- How many batches were turned away by some deals. -/
def refusals (deals : List Deal) : Nat := deals.countP Deal.isTurnedAway

theorem lettings_concat (deals : List Deal) (deal : Deal) :
    lettings (deals ++ [deal]) = lettings deals ++ deal.letIn?.toList := by
  rw [lettings, List.filterMap_append]
  cases deal <;> rfl

theorem takings_concat (deals : List Deal) (deal : Deal) :
    takings (deals ++ [deal]) = takings deals ++ deal.takenOut?.toList := by
  rw [takings, List.filterMap_append]
  cases deal <;> rfl

theorem refusals_concat (deals : List Deal) (deal : Deal) :
    refusals (deals ++ [deal]) = refusals deals + deal.isTurnedAway.toNat := by
  rw [refusals, List.countP_append]
  cases deal <;> rfl

/-- Use an outbox. -/
def apply (o : Outbox cap) : Use → Outbox cap × Deal
  | .offer batch =>
    let (next, room) := o.offer batch
    (next, if room then .letIn batch else .turnedAway batch)
  | .take =>
    match o.take? with
    | none => (o, .nothing)
    | some (batch, next) => (next, .takenOut batch)

/-- Use an outbox again and again; what becomes of it, and the deals in order. -/
def applyAll (o : Outbox cap) : List Use → Outbox cap × List Deal
  | [] => (o, [])
  | use :: rest =>
    let (next, deal) := o.apply use
    let (last, more) := next.applyAll rest
    (last, deal :: more)

/-! ## One use -/

/-- What is taken is the oldest batch, and there is none only if nothing waits. -/
theorem fst_take? (o : Outbox cap) : o.take?.map Prod.fst = o.waiting.items.head? := by
  cases taken : o.take? with
  | none =>
      have empty : o.waiting.items = [] :=
        (Fifo.isEmpty_iff _).mp ((take?_eq_none_iff o).mp taken)
      rw [empty]
      rfl
  | some p =>
      rw [(items_take? taken).1]
      rfl

/-- What becomes of an outbox in one use: a batch is let in at the end, turned away,
or taken from the front, or there is none to take. -/
inductive Dealt (o : Outbox cap) : Use → Outbox cap → Deal → Prop where
  | letIn {batch : Batch} {waiting : Fifo Batch cap} (room : o.length < cap)
      (items : waiting.items = o.waiting.items ++ [batch]) :
      Dealt o (.offer batch) { o with waiting } (.letIn batch)
  | turnedAway {batch : Batch} (full : cap ≤ o.length) :
      Dealt o (.offer batch) { o with rejected := o.rejected + 1 } (.turnedAway batch)
  | takenOut {batch : Batch} {next : Outbox cap}
      (items : o.waiting.items = batch :: next.waiting.items)
      (rejected : next.rejected = o.rejected) : Dealt o .take next (.takenOut batch)
  | nothing (none : o.waiting.items = []) : Dealt o .take o .nothing

theorem dealt (o : Outbox cap) (use : Use) : o.Dealt use (o.apply use).1 (o.apply use).2 := by
  cases use with
  | offer batch =>
      rcases o.offer_cases batch with ⟨room, waiting, items, offer⟩ | ⟨full, offer⟩
      · simp only [apply, offer]
        exact .letIn room items
      · simp only [apply, offer]
        exact .turnedAway full
  | take =>
      cases taken : o.take? with
      | none =>
          simp only [apply, taken]
          exact .nothing ((Fifo.isEmpty_iff _).mp ((take?_eq_none_iff o).mp taken))
      | some p =>
          simp only [apply, taken]
          obtain ⟨items, rejected⟩ := items_take? taken
          exact .takenOut items rejected

/-! ## Any number of uses -/

/-- An outbox is what its uses and their deals have made of it: whatever was offered has
been let in or turned away, what was let in has been taken out or is waiting, within
the capacity, and what was turned away is counted, up to wrapping. -/
structure Accounts (o : Outbox cap) (uses : List Use) (deals : List Deal) : Prop where
  offered : uses.countP Use.isOffer = (lettings deals).length + refusals deals
  order : takings deals ++ o.waiting.items = lettings deals
  within : o.length ≤ cap
  counted : o.rejected = UInt32.ofNat (refusals deals)

namespace Accounts

variable {o : Outbox cap} {uses : List Use} {deals : List Deal}

theorem empty : (Outbox.empty : Outbox cap).Accounts [] [] := ⟨rfl, rfl, Nat.zero_le cap, rfl⟩

/-- Every use keeps the account. -/
theorem apply (accounts : o.Accounts uses deals) (use : Use) :
    (o.apply use).1.Accounts (uses ++ [use]) (deals ++ [(o.apply use).2]) := by
  obtain ⟨offered, order, within, counted⟩ := accounts
  have dealt := o.dealt use
  generalize (o.apply use).1 = next at dealt ⊢
  generalize (o.apply use).2 = deal at dealt ⊢
  constructor
  case offered =>
    rw [List.countP_append, offered, lettings_concat, refusals_concat]
    cases dealt <;> simp [Use.isOffer, Deal.letIn?, Deal.isTurnedAway] <;> omega
  case order =>
    rw [takings_concat, lettings_concat, ← order]
    cases dealt with
    | letIn _ items | takenOut items _ =>
        rw [items]
        simp [Deal.letIn?, Deal.takenOut?]
    | turnedAway _ | nothing _ => simp [Deal.letIn?, Deal.takenOut?]
  case within =>
    unfold length Fifo.length at within ⊢
    cases dealt with
    | letIn room items =>
        rw [items, List.length_append]
        exact room
    | takenOut items _ =>
        rw [items] at within
        exact Nat.le_of_succ_le within
    | turnedAway _ | nothing _ => exact within
  case counted =>
    rw [refusals_concat]
    cases dealt with
    | turnedAway _ =>
        rw [counted]
        exact (UInt32.ofNat_add _ _).symm
    | takenOut _ rejected => exact rejected.trans counted
    | letIn _ _ | nothing _ => exact counted

theorem applyAll (rest : List Use) : ∀ {o : Outbox cap} {uses : List Use} {deals : List Deal},
    o.Accounts uses deals →
    (o.applyAll rest).1.Accounts (uses ++ rest) (deals ++ (o.applyAll rest).2) := by
  induction rest with
  | nil =>
      intro o uses deals accounts
      rw [List.append_nil, show (o.applyAll []).2 = [] from rfl, List.append_nil]
      exact accounts
  | cons use rest ih =>
      intro o uses deals accounts
      have more := ih (accounts.apply use)
      rw [List.append_assoc, List.append_assoc] at more
      exact more

end Accounts

/-- **An outbox keeps the oldest.** However a new outbox of any capacity is used, the
batches taken out, followed by those waiting, are the ones that were let in, in order.
It never holds more than its capacity. A batch is turned away exactly if that many are
waiting, and then they go on waiting as they were; any other joins them at the end. The
next one to be taken is the oldest. And up to wrapping at 32 bits, as many batches
were offered as were let in and are counted as turned away. -/
theorem keeps_the_oldest (uses : List Use) :
    let o := ((empty : Outbox cap).applyAll uses).1
    let deals := ((empty : Outbox cap).applyAll uses).2
    takings deals ++ o.waiting.items = lettings deals ∧
      o.length ≤ cap ∧
      (∀ batch, ((o.offer batch).2 = false ↔ o.length = cap) ∧
        (o.offer batch).1.waiting.items =
          if o.length = cap then o.waiting.items else o.waiting.items ++ [batch]) ∧
      o.take?.map Prod.fst = o.waiting.items.head? ∧
      uses.countP Use.isOffer % 4294967296 =
        ((lettings deals).length + o.rejected.toNat) % 4294967296 := by
  intro o deals
  have accounts : o.Accounts uses deals := Accounts.empty.applyAll uses
  refine ⟨accounts.order, accounts.within, fun batch => ?_, fst_take? o, ?_⟩
  · have within := accounts.within
    rcases o.offer_cases batch with ⟨room, waiting, items, offer⟩ | ⟨full, offer⟩
    · rw [offer, if_neg (Nat.ne_of_lt room)]
      exact ⟨by simp; omega, items⟩
    · have exact : o.length = cap := Nat.le_antisymm within full
      rw [offer, if_pos exact]
      exact ⟨by simp [exact], rfl⟩
  · rw [accounts.counted, UInt32.toNat_ofNat', Nat.add_mod_mod, accounts.offered]

end StoreForward.Outbox
