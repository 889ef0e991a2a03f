import StoreForward.Batch
import StoreForward.CallError

/-!
# The crew of a worker

Everything that touches hardware or the network is done by the worker's
crew: it starts and stops the network, synchronises the clock, opens and
closes sessions, publishes batches, and takes hints about low power. The
worker makes one request at a time and waits for the answer.

A crew is a state with a way to react to requests. Its reaction says more
than the answer: while it handles a request it may put batches into the
outbox and post wakes, and it may keep the worker waiting for a number of
polls. A crew can also find that it is being misused, in which case the
request ends there and then.

A crew must come to rest. Its `unrest` bounds what it can still do to keep the
worker busy: every batch it adds and every connect it refuses uses some of it
up, and nothing restores it. This is what makes every poll of a worker end.

## Main definitions

* `Request`, `Answer`, `Response` — the traffic between worker and crew.
* `Crew` — the class of crews.
-/

namespace StoreForward

/-- What the worker can ask of its crew. -/
inductive Request where
  /-- Bring the network up. -/
  | start
  /-- Take the network down. -/
  | stop
  /-- Synchronise the clock. -/
  | sync
  /-- Open a session with the collector. -/
  | connect
  /-- Publish a batch in an open session. -/
  | publish (session : Nat) (batch : Batch)
  /-- Close a session. -/
  | close (session : Nat)
  deriving DecidableEq

/-- What the worker tells its crew without waiting for an answer. -/
inductive Hint where
  | allowLowPower
  | disallowLowPower
  deriving DecidableEq

/-- How a request ended. -/
inductive Answer where
  | ok
  | failed (error : CallError)
  deriving DecidableEq

namespace Answer

/-- The request did not succeed. -/
def isFailed : Answer → Bool
  | ok => false
  | failed _ => true

end Answer

/-- How a crew handles one request. -/
structure Response where
  /-- Batches put into the outbox at the start. -/
  enqueues : List Batch := []
  /-- Wakes posted after that. -/
  wakes : Nat := 0
  /-- Polls during which the worker is kept waiting. -/
  polls : Nat := 0
  /-- The answer in the end. -/
  answer : Answer := .ok
  deriving DecidableEq

namespace Response

/-- Success at once, without side effects. -/
def prompt : Response := {}

/-- What the response costs a crew in unrest: one for every batch it adds,
and one for a connect that fails, since the worker will ask again. -/
def cost (r : Response) : Request → Nat
  | .connect => r.enqueues.length + if r.answer.isFailed then 1 else 0
  | _ => r.enqueues.length

theorem length_enqueues_le_cost (r : Response) (req : Request) :
    r.enqueues.length ≤ r.cost req := by
  cases req <;> simp [cost]

theorem cost_le (r : Response) (req : Request) : r.cost req ≤ r.enqueues.length + 1 := by
  unfold cost
  split
  · split <;> omega
  · omega

end Response

/-- The states `ε` of a crew, and how it reacts. A reaction is a new state
with a response, or with the text of the check that the request violated. -/
class Crew (ε : Type) where
  react : ε → Request → ε × Except String Response
  /-- How a hint is taken. -/
  hint : ε → Hint → ε
  /-- A bound on what can still keep the worker busy. -/
  unrest : ε → Nat
  unrest_react : ∀ (e : ε) (req : Request) (r : Response),
    (react e req).2 = .ok r → unrest (react e req).1 + r.cost req ≤ unrest e
  unrest_hint : ∀ (e : ε) (h : Hint), unrest (hint e h) ≤ unrest e

end StoreForward
