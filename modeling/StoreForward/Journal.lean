import StoreForward.Crew
import StoreForward.Notice
import StoreForward.Settings

/-!
# The journal

Every operation of the library returns, beside its result, the events it
caused in the order in which they happened. The concatenation over a run is
its journal, and it is complete: what was offered to the outbox, which wakes
were posted, which workers were booted and which steps they began, which
requests and hints reached a crew and how the requests ended, which phases
were entered, and what was reported. Statements about whole runs compare a
view of the journal with the state at the end.

## Main definitions

* `Event` — one thing that happened.
* `Entry` — an event together with who caused it.
-/

namespace StoreForward

/-- One thing that happened. -/
inductive Event where
  /-- A batch was offered to the outbox. -/
  | offered (batch : Batch) (accepted : Bool)
  /-- An external wake was posted, or merged into those already waiting. -/
  | nudged (posted : Bool)
  /-- A worker was booted. -/
  | booted (settings : Settings)
  /-- A worker began a step, the action of the phase first. -/
  | began (phase : Phase)
  /-- A request reached the crew. -/
  | called (request : Request)
  /-- A request ended; one that is abandoned never does. -/
  | answered (request : Request) (answer : Answer)
  /-- A hint reached the crew. -/
  | hinted (hint : Hint)
  /-- A step led from one phase to another. -/
  | entered (source target : Phase)
  /-- A notice was reported. -/
  | noticed (notice : Notice)
  deriving DecidableEq

/-- Who caused an event: the producer, or one of the workers. What a crew does
to the link while it handles a request counts as its worker's doing. -/
inductive Cause where
  | producer
  | worker (id : Nat)
  deriving DecidableEq

/-- An event and its cause. -/
structure Entry where
  cause : Cause
  event : Event
  deriving DecidableEq

namespace Event

/-- The notice, if the event is one. -/
def notice? : Event → Option Notice
  | noticed n => some n
  | _ => none

/-- The event with its cause. -/
def causedBy (e : Event) (cause : Cause) : Entry := ⟨cause, e⟩

end Event

/-- The notices among events, in order. -/
def noticesOf (events : List Event) : List Notice := events.filterMap Event.notice?

end StoreForward
