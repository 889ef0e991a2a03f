/-!
# Wakes

What gets a resting worker going again. Wakes queue up on the link; those
that arrive while the worker is busy are stale by the time it rests, because
it looks at the outbox before it waits.
-/

namespace StoreForward

/-- Why the worker should look up. -/
inductive Wake where
  /-- The producer has queued a batch. -/
  | dataAvailable
  /-- Something on the platform fired, without a batch. -/
  | external
  deriving DecidableEq

namespace Wake

def all : List Wake := [dataAvailable, external]

/-- The name of a wake in diagnostics. -/
def name : Wake → String
  | dataAvailable => "DataAvailable"
  | external => "External"

/-- The wake a name stands for. -/
def ofName? (s : String) : Option Wake := all.find? fun w => w.name == s

end Wake

end StoreForward
