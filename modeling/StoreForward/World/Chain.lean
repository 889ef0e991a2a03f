import StoreForward.World

/-!
# Steps in a row

A worker can be stepped several times in a row, as often as allowed or until
its cycle is over. The row ends early with the first reply that is not a
complete step: the worker waits, a check failed, or it could not be stepped at
all. It can also be tried: a worker that would have to wait abandons the step
at once.

## Main definitions

* `World.chain` — steps in a row.
* `World.attempt` — a step or run that is not worth waiting for.
-/

namespace StoreForward.World

variable {cap : Nat} {ε : Type}

/-- Repeat an operation while it completes steps, at most `limit` times and
not beyond a phase at which to stop. The world at the end, the replies and
the entries. -/
def chain (go : World cap ε → Outcome cap ε) (stop : Phase → Bool) :
    Nat → World cap ε → World cap ε × List Reply × List Entry
  | 0, w => (w, [], [])
  | limit + 1, w =>
    let o := go w
    match o.reply with
    | .progress (.stepped phase) =>
      if stop phase then (o.world, [o.reply], o.entries)
      else
        let (last, replies, entries) := chain go stop limit o.world
        (last, o.reply :: replies, o.entries ++ entries)
    | _ => (o.world, [o.reply], o.entries)

/-- Whether a reply says that the worker waits. -/
def isPending : Reply → Bool
  | .progress (.pending _) => true
  | _ => false

variable [Crew ε]

/-- Start a step or a run, and abandon it if it has to wait. -/
def attempt (w : World cap ε) (id : Nat) (mode : Mode) : Outcome cap ε :=
  let o := w.apply (.launch id mode)
  if isPending o.reply then { o with world := (o.world.apply (.cancel id)).world } else o

end StoreForward.World
