import StoreForward.Link
import StoreForward.Worker

/-!
# A worker at its site

A worker acts on three things: the link, its own memory, and its crew. A
`Site` is the three together, and the functions here are the small changes
that its actions are made of. Each returns the events it caused.

## Main definitions

* `Site.guards` — what the transition table looks at.
* `Site.finish` — the end of a step: look at the guards and enter a phase.
* `Site.setLowPower` — hint the crew, once per change.
* `Site.begin` — put a request to the crew.
-/

namespace StoreForward

/-- A worker, its link and its crew. -/
structure Site (cap : Nat) (ε : Type) where
  link : Link cap
  worker : Worker
  crew : ε

/-- What follows a move. -/
inductive Verdict where
  /-- The action goes on at a point. -/
  | goOn (point : Point)
  /-- The action waits. -/
  | suspended (suspension : Suspension)
  /-- The step is complete and led to a phase. -/
  | finished (phase : Phase)
  /-- The step ended at a check. -/
  | violated (violation : Violation)
  deriving DecidableEq

/-- A move: the site after it, what happened, and what follows. -/
structure Move (cap : Nat) (ε : Type) where
  site : Site cap ε
  events : List Event
  verdict : Verdict

namespace Site

variable {cap : Nat} {ε : Type}

/-- Change the status that observers see. -/
def mapStatus (s : Site cap ε) (f : Status → Status) : Site cap ε :=
  { s with link := { s.link with status := f s.link.status } }

/-- Signal a failure. -/
def signal (s : Site cap ε) (f : Fault) : Site cap ε := s.mapStatus (·.signal f)

/-- What the transition table looks at. -/
def guards (s : Site cap ε) : Guards where
  failed := s.link.status.failed
  syncDue := s.worker.syncDue
  queueEmpty := s.link.isIdle
  retriesExhausted := s.worker.retriesExhausted

/-- The fault that a halt is attributed to. -/
def haltFault (s : Site cap ε) (source : Phase) : Fault :=
  if source = .start then .unexpected else s.link.status.fault.getD .unexpected

/-- Enter a phase; entering `fatal` halts the link. -/
def enter (s : Site cap ε) (source target : Phase) : Site cap ε × List Event :=
  let moved : Site cap ε :=
    { s with worker := { s.worker with phase := target } }.mapStatus
      fun st => { st with phase := target }
  let events := [.entered source target, .noticed (.entered source target)]
  if target.isTerminal then
    let fault := s.haltFault source
    (moved.mapStatus (·.halt fault), events ++ [.noticed (.halted source fault)])
  else (moved, events)

/-- The end of the action of a phase: the guards decide what is entered. -/
def finish (s : Site cap ε) (source : Phase) (events : List Event) : Move cap ε :=
  let target := source.next s.guards
  let (site, entering) := s.enter source target
  ⟨site, events ++ entering, .finished target⟩

/-- Where the transition from a phase leads. -/
def leave (s : Site cap ε) (source : Phase) : Site cap ε :=
  (s.enter source (source.next s.guards)).1

theorem finish_site (s : Site cap ε) (source : Phase) (events : List Event) :
    (s.finish source events).site = s.leave source := rfl

/-- A phase is entered and nothing else changes but the marks of a halt. -/
theorem enter_fst (s : Site cap ε) (source target : Phase) :
    (s.enter source target).1.crew = s.crew ∧
      (s.enter source target).1.link.outbox = s.link.outbox ∧
      (s.enter source target).1.link.status.failed = s.link.status.failed ∧
      (s.enter source target).1.worker.phase = target := by
  unfold enter
  dsimp only
  split <;> exact ⟨rfl, rfl, rfl, rfl⟩

section Crewed

variable [Crew ε]

/-- Allow or disallow low power. The crew is told only of changes, so the
hints it gets alternate. -/
def setLowPower (s : Site cap ε) (allowed : Bool) : Site cap ε × List Event :=
  if s.worker.lowPower = allowed then (s, [])
  else
    let hint := if allowed then .allowLowPower else .disallowLowPower
    let notice := if allowed then .lowPowerAllowed else .lowPowerDisallowed
    ({ link := { s.link with status := s.link.status.setLowPower allowed }
       worker := { s.worker with lowPower := allowed }
       crew := Crew.hint s.crew hint },
      [.hinted hint, .noticed notice])

/-- Put a request to the crew. What the crew does to the link comes first;
the answer is waited for even if it is there at once. -/
def begin (s : Site cap ε) (job : Job) (events : List Event) : Move cap ε :=
  match Crew.react s.crew job.request with
  | (crew, .error text) =>
    ⟨{ s with crew }, events ++ [.called job.request], .violated (.crew text)⟩
  | (crew, .ok r) =>
    let (offered, offers) := s.link.offerAll r.enqueues
    let (link, nudges) := offered.nudgeTimes r.wakes
    ⟨{ s with link, crew }, events ++ .called job.request :: (offers ++ nudges),
      .goOn (.waiting (.call job r.polls r.answer))⟩

/-- A hint changes neither buffer and gives the crew nothing to do. -/
theorem setLowPower_fst (s : Site cap ε) (allowed : Bool) :
    (s.setLowPower allowed).1.link.outbox = s.link.outbox ∧
      (s.setLowPower allowed).1.link.wakes = s.link.wakes ∧
      (s.setLowPower allowed).1.link.status.failed = s.link.status.failed ∧
      (s.setLowPower allowed).1.worker.phase = s.worker.phase ∧
      Crew.unrest (s.setLowPower allowed).1.crew ≤ Crew.unrest s.crew := by
  unfold setLowPower
  split
  · exact ⟨rfl, rfl, rfl, rfl, Nat.le_refl _⟩
  · exact ⟨rfl, rfl, rfl, rfl, Crew.unrest_hint _ _⟩

/-- A call does not complete a step. -/
theorem begin_ne_finished (s : Site cap ε) (job : Job) (events : List Event)
    (phase : Phase) : (s.begin job events).verdict ≠ .finished phase := by
  unfold begin
  split <;> exact nofun

end Crewed

end Site

end StoreForward
