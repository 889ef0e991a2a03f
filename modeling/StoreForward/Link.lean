import StoreForward.Journal
import StoreForward.Outbox
import StoreForward.Status

/-!
# The link

A link is what producer, worker and observers share: the outbox, the channel
of wakes, and the status. Both buffers have the same capacity.

Handing over a batch never waits. An accepted batch posts a wake, a rejected
one is reported and counted. A wake that finds the channel full is merged
into those already waiting, which loses nothing: a worker that rests with a
full channel wakes up anyway.

## Main definitions

* `Link.offer` — hand over a batch.
* `Link.nudge` — post an external wake.
* `Link.tally` — the counters.

## Main results

* `Link.post_cases`, `Link.nudge_cases`, `Link.offer_cases` — all that a wake or an offer
  can come to.
-/

namespace StoreForward

/-- Outbox, wakes and status, shared by all parties. -/
structure Link (cap : Nat) where
  outbox : Outbox cap := .empty
  wakes : Fifo Wake cap := .empty
  status : Status := {}
  deriving DecidableEq

namespace Link

variable {cap : Nat}

/-- A link on which nothing has happened. -/
def fresh : Link cap := {}

/-- Batches waiting in the outbox. -/
def queued (l : Link cap) : Nat := l.outbox.length

/-- No batch is waiting. -/
def isIdle (l : Link cap) : Bool := l.outbox.isEmpty

/-- The counters of the link. -/
def tally (l : Link cap) : Tally where
  enqueued := l.status.enqueued
  rejected := l.outbox.rejected
  published := l.status.published
  retries := l.status.retries
  teardownFailures := l.status.teardownFailures
  lowPowerWindows := l.status.lowPowerWindows

/-- Post a wake; say whether there was room for it, and what was reported. -/
def post (l : Link cap) (w : Wake) : Link cap × Bool × List Event :=
  match l.wakes.offer? w with
  | some wakes => ({ l with wakes }, true, [])
  | none => (l, false, [.noticed (.wakeMerged w)])

/-- Offer a batch to the outbox; the producer learns whether it was accepted
and is never kept waiting. Only accepted batches wake the worker. -/
def offer (l : Link cap) (b : Batch) : Link cap × Bool × List Event :=
  match l.outbox.offer b with
  | (outbox, true) =>
    let counted : Link cap :=
      { l with outbox, status := { l.status with enqueued := l.status.enqueued + 1 } }
    let (posted, _, events) := counted.post .dataAvailable
    (posted, true, .offered b true :: events)
  | (outbox, false) =>
    ({ l with outbox }, false,
      [.offered b false, .noticed (.batchRejected outbox.rejected)])

/-- Post an external wake. -/
def nudge (l : Link cap) : Link cap × Bool × List Event :=
  let (posted, accepted, events) := l.post .external
  (posted, accepted, .nudged accepted :: events)

/-- Offer batches one after another. -/
def offerAll (l : Link cap) : List Batch → Link cap × List Event
  | [] => (l, [])
  | b :: rest =>
    let (next, _, events) := l.offer b
    let (last, more) := next.offerAll rest
    (last, events ++ more)

/-- Post a number of external wakes. -/
def nudgeTimes (l : Link cap) : Nat → Link cap × List Event
  | 0 => (l, [])
  | n + 1 =>
    let (next, _, events) := l.nudge
    let (last, more) := next.nudgeTimes n
    (last, events ++ more)

/-! ## What posting a wake does -/

/-- A wake finds room and is posted, or it finds none and is merged into those that wait. -/
theorem post_cases (l : Link cap) (w : Wake) :
    (l.wakes.length < cap ∧ ∃ wakes : Fifo Wake cap, wakes.items = l.wakes.items ++ [w] ∧
      l.post w = ({ l with wakes }, true, [])) ∨
    (cap ≤ l.wakes.length ∧ l.post w = (l, false, [.noticed (.wakeMerged w)])) := by
  unfold post
  cases room : l.wakes.offer? w with
  | some wakes =>
      exact .inl ⟨Fifo.length_lt_of_offer? room, wakes, Fifo.items_offer? room, rfl⟩
  | none => exact .inr ⟨(Fifo.offer?_eq_none_iff _ _).mp room, rfl⟩

/-- An external wake does what every wake does; the reply is noted first. -/
theorem nudge_cases (l : Link cap) :
    (l.wakes.length < cap ∧ ∃ wakes : Fifo Wake cap,
      wakes.items = l.wakes.items ++ [.external] ∧
      l.nudge = ({ l with wakes }, true, [.nudged true])) ∨
    (cap ≤ l.wakes.length ∧
      l.nudge = (l, false, [.nudged false, .noticed (.wakeMerged .external)])) := by
  unfold nudge
  rcases l.post_cases .external with ⟨room, wakes, items, posted⟩ | ⟨full, posted⟩
  · rw [posted]
    exact .inl ⟨room, wakes, items, rfl⟩
  · rw [posted]
    exact .inr ⟨full, rfl⟩

/-- A wake changes neither the outbox nor the status. -/
theorem post_fst (l : Link cap) (w : Wake) :
    (l.post w).1.outbox = l.outbox ∧ (l.post w).1.status = l.status := by
  rcases l.post_cases w with ⟨_, _, _, posted⟩ | ⟨_, posted⟩
  · rw [posted]
    exact ⟨rfl, rfl⟩
  · rw [posted]
    exact ⟨rfl, rfl⟩

theorem nudge_fst (l : Link cap) :
    l.nudge.1.outbox = l.outbox ∧ l.nudge.1.status = l.status :=
  post_fst l .external

theorem nudgeTimes_fst (n : Nat) : ∀ l : Link cap,
    (l.nudgeTimes n).1.outbox = l.outbox ∧ (l.nudgeTimes n).1.status = l.status := by
  induction n with
  | zero => exact fun l => ⟨rfl, rfl⟩
  | succ n ih =>
      intro l
      have step := nudge_fst l
      have rest := ih l.nudge.1
      exact ⟨rest.1.trans step.1, rest.2.trans step.2⟩

/-! ## What an offer does -/

/-- An offer is accepted and posts a wake, or it is refused for want of room
and only counted. -/
theorem offer_cases (l : Link cap) (b : Batch) :
    (l.queued < cap ∧ ∃ m : Link cap, m.outbox.waiting.items = l.outbox.waiting.items ++ [b] ∧
      m.outbox.rejected = l.outbox.rejected ∧ m.wakes = l.wakes ∧
      m.status = { l.status with enqueued := l.status.enqueued + 1 } ∧
      l.offer b = ((m.post .dataAvailable).1, true,
        .offered b true :: (m.post .dataAvailable).2.2)) ∨
    (cap ≤ l.queued ∧
      l.offer b = ({ l with outbox := { l.outbox with rejected := l.outbox.rejected + 1 } },
        false, [.offered b false, .noticed (.batchRejected (l.outbox.rejected + 1))])) := by
  unfold offer
  rcases l.outbox.offer_cases b with ⟨room, waiting, items, offered⟩ | ⟨full, offered⟩
  · rw [offered]
    exact .inl ⟨room, { l with
      outbox := { l.outbox with waiting }
      status := { l.status with enqueued := l.status.enqueued + 1 } }, items, rfl, rfl, rfl, rfl⟩
  · rw [offered]
    exact .inr ⟨full, rfl⟩

/-- An offer adds at most one batch to the queue. -/
theorem queued_offer_le (l : Link cap) (b : Batch) :
    (l.offer b).1.queued ≤ l.queued + 1 := by
  rcases l.offer_cases b with ⟨_, m, items, _, _, _, offered⟩ | ⟨_, offered⟩
  · rw [offered]
    show (m.post .dataAvailable).1.outbox.waiting.items.length ≤ _
    rw [(post_fst _ _).1, items, List.length_append]
    exact Nat.le_refl _
  · rw [offered]
    exact Nat.le_succ _

theorem queued_offerAll_le (bs : List Batch) : ∀ l : Link cap,
    (l.offerAll bs).1.queued ≤ l.queued + bs.length := by
  induction bs with
  | nil => exact fun l => Nat.le_refl _
  | cons b rest ih =>
      intro l
      have step := queued_offer_le l b
      have more := ih (l.offer b).1
      show ((l.offer b).1.offerAll rest).1.queued ≤ _
      rw [List.length_cons]
      omega

/-- Offers leave the signals of the status alone. -/
theorem failed_offer (l : Link cap) (b : Batch) :
    (l.offer b).1.status.failed = l.status.failed := by
  rcases l.offer_cases b with ⟨_, m, _, _, _, status, offered⟩ | ⟨_, offered⟩
  · rw [offered]
    show (m.post .dataAvailable).1.status.failed = _
    rw [(post_fst _ _).2, status]
  · rw [offered]

theorem failed_offerAll (bs : List Batch) : ∀ l : Link cap,
    (l.offerAll bs).1.status.failed = l.status.failed := by
  induction bs with
  | nil => exact fun l => rfl
  | cons b rest ih => exact fun l => (ih (l.offer b).1).trans (failed_offer l b)

end Link

end StoreForward
