import StoreForward.Site.Poll

/-!
# Links in use

Several parties use one link: a producer that offers batches, a platform that
posts wakes, and workers, each with its crew. A worker that has to wait is
*held* with what it waits for; meanwhile everybody else goes on, and the held
worker may be polled again, abandoned in mid-step, or dropped together with
its crew. A worker that is booted on a link in use finds the link as its
predecessors left it, except that the phase shown to observers starts over.

`World.apply` carries out one operation and replies. Operations that cannot
be carried out are refused in the reply and change nothing, so that every
list of operations is a possible history.

## Main definitions

* `World` — a link and its workers.
* `Op`, `Reply` — what can be asked of a world, and its replies.
* `World.apply`, `World.applyAll` — one operation, and a history.
-/

namespace StoreForward

/-- A worker with its crew, and what it is waiting for, if it is held. -/
structure Station (ε : Type) where
  worker : Worker
  crew : ε
  held : Option (Mode × Suspension) := none

/-- A link and the workers booted on it, in order. A worker that has been
dropped leaves its place empty. -/
structure World (cap : Nat) (ε : Type) where
  link : Link cap := .fresh
  stations : List (Option (Station ε)) := []

/-- What can be asked of a world. Workers go by the order in which they were
booted. -/
inductive Op (ε : Type) where
  /-- The producer offers a batch. -/
  | offer (batch : Batch)
  /-- The platform posts a wake. -/
  | nudge
  /-- A worker is booted. -/
  | boot (settings : Settings) (crew : ε)
  /-- A worker starts a step or a run and is polled once. -/
  | launch (id : Nat) (mode : Mode)
  /-- A held worker is polled again. -/
  | poll (id : Nat)
  /-- A held worker abandons what it was doing. -/
  | cancel (id : Nat)
  /-- Something outside changes the crew of a worker. -/
  | amend (id : Nat) (change : ε → ε)
  /-- A worker is dropped, whatever it was doing; doing so again is harmless. -/
  | drop (id : Nat)

/-- The reply to an operation. -/
inductive Reply where
  /-- Whether there was room. -/
  | accepted (room : Bool)
  /-- The number of a new worker. -/
  | booted (id : Nat)
  /-- How far a poll got. -/
  | progress (progress : Progress)
  | cancelled
  | done
  /-- Refused: there is no such worker. -/
  | absent
  /-- Refused: the worker is held. -/
  | busy
  /-- Refused: the worker is not held. -/
  | nothingHeld
  deriving DecidableEq

/-- An operation carried out: the world after it, the reply, and what
happened. -/
structure Outcome (cap : Nat) (ε : Type) where
  world : World cap ε
  reply : Reply
  entries : List Entry := []

namespace World

variable {cap : Nat} {ε : Type}

/-- A link that nobody has used. -/
def empty : World cap ε := {}

/-- The worker with a number, unless it never was or has been dropped. -/
def station? (w : World cap ε) (id : Nat) : Option (Station ε) := w.stations[id]?.join

/-- Put a worker, or nothing, in a place. -/
def place (w : World cap ε) (id : Nat) (s : Option (Station ε)) : World cap ε :=
  { w with stations := w.stations.set id s }

/-- A worker at its site. -/
def site (w : World cap ε) (s : Station ε) : Site cap ε := ⟨w.link, s.worker, s.crew⟩

/-- Why a worker cannot start anything, if it cannot. -/
def refusal? (w : World cap ε) (id : Nat) : Option Reply :=
  match w.station? id with
  | none => some .absent
  | some s => if s.held.isSome then some .busy else none

/-- What a poll leaves behind: a worker that waits is held. -/
def absorb (w : World cap ε) (id : Nat) (mode : Mode) (p : Polled cap ε) : Outcome cap ε :=
  let held := match p.progress with
    | .pending suspension => some (mode, suspension)
    | _ => none
  { world := { w with link := p.site.link }.place id (some ⟨p.site.worker, p.site.crew, held⟩)
    reply := .progress p.progress
    entries := p.events.map fun e => e.causedBy (.worker id) }

variable [Crew ε]

/-- Carry out one operation. -/
def apply (w : World cap ε) : Op ε → Outcome cap ε
  | .offer batch =>
    let (link, room, events) := w.link.offer batch
    ⟨{ w with link }, .accepted room, events.map fun e => e.causedBy .producer⟩
  | .nudge =>
    let (link, room, events) := w.link.nudge
    ⟨{ w with link }, .accepted room, events.map fun e => e.causedBy .producer⟩
  | .boot settings crew =>
    let link := { w.link with status := { w.link.status with phase := .start } }
    ⟨⟨link, w.stations ++ [some ⟨Worker.boot settings, crew, none⟩]⟩,
      .booted w.stations.length, [⟨.worker w.stations.length, .booted settings⟩]⟩
  | .launch id mode =>
    match w.station? id with
    | none => ⟨w, .absent, []⟩
    | some s =>
      match s.held with
      | some _ => ⟨w, .busy, []⟩
      | none => w.absorb id mode ((w.site s).launch mode)
  | .poll id =>
    match w.station? id with
    | none => ⟨w, .absent, []⟩
    | some s =>
      match s.held with
      | none => ⟨w, .nothingHeld, []⟩
      | some (mode, suspension) => w.absorb id mode ((w.site s).resume mode suspension)
  | .cancel id =>
    match w.station? id with
    | none => ⟨w, .absent, []⟩
    | some s =>
      match s.held with
      | none => ⟨w, .nothingHeld, []⟩
      | some _ => ⟨w.place id (some { s with held := none }), .cancelled, []⟩
  | .amend id change =>
    match w.station? id with
    | none => ⟨w, .absent, []⟩
    | some s => ⟨w.place id (some { s with crew := change s.crew }), .done, []⟩
  | .drop id =>
    match w.stations[id]? with
    | none => ⟨w, .absent, []⟩
    | some _ => ⟨w.place id none, .done, []⟩

/-- Carry out operations one after another; the world at the end, and the
journal. -/
def applyAll (w : World cap ε) : List (Op ε) → World cap ε × List Entry
  | [] => (w, [])
  | op :: rest =>
    let done := w.apply op
    let (last, more) := done.world.applyAll rest
    (last, done.entries ++ more)

theorem applyAll_append (first second : List (Op ε)) : ∀ w : World cap ε,
    w.applyAll (first ++ second) =
      (((w.applyAll first).1.applyAll second).1,
        (w.applyAll first).2 ++ ((w.applyAll first).1.applyAll second).2) := by
  induction first with
  | nil => exact fun w => rfl
  | cons op rest ih =>
      intro w
      show ((applyAll _ (rest ++ second)).1, _ ++ (applyAll _ (rest ++ second)).2) = _
      rw [ih, ← List.append_assoc]
      rfl

end World

end StoreForward
