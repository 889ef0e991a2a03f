import StoreForward.Site.Descent

/-!
# Polls

A poll makes moves until the worker has to wait. A single step ends when it
is complete; a run goes on with the next step until the worker has halted.
Both are the same loop and differ only in what follows a complete step, and
both end because every turn of the loop leaves less effort.

## Main definitions

* `Site.poll` — make moves until there is something to wait for.
-/

namespace StoreForward

/-- How far a worker is driven. -/
inductive Mode where
  /-- To the end of the step. -/
  | step
  /-- Until it halts. -/
  | run
  deriving DecidableEq

/-- How a poll ended. -/
inductive Progress where
  /-- The worker waits. -/
  | pending (suspension : Suspension)
  /-- The step is complete and led to a phase. -/
  | stepped (phase : Phase)
  /-- The run is over. -/
  | halted (fault : Fault)
  /-- The step ended at a check. -/
  | violated (violation : Violation)
  deriving DecidableEq

/-- A poll: the site after it, what happened, and how it ended. -/
structure Polled (cap : Nat) (ε : Type) where
  site : Site cap ε
  events : List Event
  progress : Progress

/-- The poll with what happened before it. -/
def Polled.after {cap : Nat} {ε : Type} (p : Polled cap ε) (events : List Event) :
    Polled cap ε :=
  { p with events := events ++ p.events }

namespace Site

variable {cap : Nat} {ε : Type} [Crew ε]

/-- The fault a halt is reported with. -/
def reportedFault (s : Site cap ε) : Fault := s.link.status.fault.getD .unexpected

/-- Make moves from a point until the worker waits, has completed its step,
or, in a run, has halted. -/
def poll (mode : Mode) (s : Site cap ε) (p : Point) : Polled cap ε :=
  match _verdict : (s.move p).verdict with
  | .goOn q => (poll mode (s.move p).site q).after (s.move p).events
  | .suspended suspension => ⟨(s.move p).site, (s.move p).events, .pending suspension⟩
  | .violated violation => ⟨(s.move p).site, (s.move p).events, .violated violation⟩
  | .finished phase =>
    match mode with
    | .step => ⟨(s.move p).site, (s.move p).events, .stepped phase⟩
    | .run =>
      if _live : phase.isTerminal = false then
        (poll .run (s.move p).site .outset).after (s.move p).events
      else ⟨(s.move p).site, (s.move p).events, .halted (s.move p).site.reportedFault⟩
termination_by s.effort p
decreasing_by
  · exact s.effort_move_lt p ‹_›
  · exact s.effort_finished_lt p ‹_› ‹_›

/-! ## One move at a time -/

theorem poll_of_goOn {mode : Mode} {s : Site cap ε} {p q : Point}
    (h : (s.move p).verdict = .goOn q) :
    s.poll mode p = ((s.move p).site.poll mode q).after (s.move p).events := by
  rw [poll]
  split <;> simp_all

theorem poll_of_suspended {mode : Mode} {s : Site cap ε} {p : Point} {w : Suspension}
    (h : (s.move p).verdict = .suspended w) :
    s.poll mode p = ⟨(s.move p).site, (s.move p).events, .pending w⟩ := by
  rw [poll]
  split <;> simp_all

theorem poll_of_violated {mode : Mode} {s : Site cap ε} {p : Point} {v : Violation}
    (h : (s.move p).verdict = .violated v) :
    s.poll mode p = ⟨(s.move p).site, (s.move p).events, .violated v⟩ := by
  rw [poll]
  split <;> simp_all

/-- A step ends with the first transition. -/
theorem poll_step_of_finished {s : Site cap ε} {p : Point} {phase : Phase}
    (h : (s.move p).verdict = .finished phase) :
    s.poll .step p = ⟨(s.move p).site, (s.move p).events, .stepped phase⟩ := by
  rw [poll]
  split <;> simp_all

/-- A run goes on after a transition that does not halt the worker. -/
theorem poll_run_of_finished {s : Site cap ε} {p : Point} {phase : Phase}
    (h : (s.move p).verdict = .finished phase) (live : phase.isTerminal = false) :
    s.poll .run p = ((s.move p).site.poll .run .outset).after (s.move p).events := by
  rw [poll]
  split <;> simp_all

/-- A run ends with the transition that halts the worker. -/
theorem poll_run_of_halted {s : Site cap ε} {p : Point} {phase : Phase}
    (h : (s.move p).verdict = .finished phase) (halt : phase.isTerminal = true) :
    s.poll .run p =
      ⟨(s.move p).site, (s.move p).events, .halted (s.move p).site.reportedFault⟩ := by
  rw [poll]
  split <;> simp_all

/-! ## Starting and going on -/

/-- The first poll of a step or a run. A run announces itself. -/
def launch (mode : Mode) (s : Site cap ε) : Polled cap ε :=
  match mode with
  | .step => s.poll .step .outset
  | .run => (s.poll .run .outset).after [.noticed .workerStarted]

/-- A later poll: whatever the worker was waiting for is looked at again. -/
def resume (mode : Mode) (s : Site cap ε) (suspension : Suspension) : Polled cap ε :=
  s.poll mode (.waiting suspension)

end Site

end StoreForward
