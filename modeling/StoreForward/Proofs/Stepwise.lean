import StoreForward.Proofs.Blame
import StoreForward.Proofs.Rest
import StoreForward.World.Chain

/-!
# A run, step by step

A run is a loop around steps, and whoever does not want to hand a worker over
for good can step it himself. The two ways are the same: whatever the producer
and the platform do while the worker is suspended, stepping it again whenever a
step is complete and has not halted it leads where the run leads, through the
same requests, transitions and notices. All that a run adds is to announce
itself, and to report the fault with which it ends.

One poll of a run is the poll of its first step, and if that step is completed
in it, one more poll of a run from the outset of the next (`Site.poll_run`).
Every step that is completed leaves less effort, so that stepping comes to an
end in every poll, and the two ways meet there (`World.onward_absorb`). What
others do in the meantime sees the link and not the worker.

## Main definitions

* `Outcome.onward` — step a worker again as long as its steps are completed.
* `Outcome.through` — let others do something whenever a worker is suspended.
* `World.runThrough`, `World.stepThrough` — the two ways.

## Main results

* `Site.poll_run` — a poll of a run is a poll of a step and what follows it.
* `World.onward_absorb` — stepping leads where a poll of a run leads.
* `run_is_repeated_step` — and so whatever others do meanwhile.
-/

namespace StoreForward

variable {cap : Nat} {ε : Type}

/-! ## One poll of a run -/

section Polls

variable [Crew ε]

/-- What follows the poll of a step in a run: the next step if it is completed,
and a report if it has halted the worker. -/
def Polled.onward (o : Polled cap ε) : Polled cap ε :=
  match o.progress with
  | .stepped phase =>
    if phase.isTerminal then { o with progress := .halted o.site.reportedFault }
    else (o.site.poll .run .outset).after o.events
  | _ => o

theorem Polled.onward_of_live {o : Polled cap ε} {phase : Phase}
    (complete : o.progress = .stepped phase) (live : phase.isTerminal = false) :
    o.onward = (o.site.poll .run .outset).after o.events := by
  unfold onward
  rw [complete]
  exact if_neg (Bool.eq_false_iff.mp live)

theorem Polled.onward_of_halt {o : Polled cap ε} {phase : Phase}
    (complete : o.progress = .stepped phase) (halt : phase.isTerminal = true) :
    o.onward = { o with progress := .halted o.site.reportedFault } := by
  unfold onward
  rw [complete]
  exact if_pos halt

namespace Site

variable {s t : Site cap ε} {p q : Point} {es : List Event}

/-- A run makes the moves of a step as well. -/
theorem Driven.run (driven : s.Driven .step p es t q) :
    s.poll .run p = (t.poll .run q).after es := by
  induction driven with
  | stay s p => rfl
  | @move s t p q es onward _ ih =>
      cases verdict : (s.move p).verdict with
      | goOn point =>
          rw [verdict] at ih
          have rest : (s.move p).site.poll .run point = (t.poll .run q).after es := ih
          rw [poll_of_goOn verdict, rest, Polled.after_after]
      | finished _ | suspended _ | violated _ =>
          rw [verdict] at onward
          cases onward

/-- One poll of a run is the poll of its first step and what follows it. -/
theorem poll_run (s : Site cap ε) (p : Point) : s.poll .run p = (s.poll .step p).onward := by
  obtain ⟨es, t, q, progress, driven, poll, ends⟩ := s.poll_driven .step p
  rw [driven.run, poll]
  cases verdict : (t.move q).verdict with
  | goOn _ =>
      rw [verdict] at ends
      cases ends
  | suspended suspension =>
      rw [verdict] at ends
      cases ends
      rw [poll_of_suspended verdict]
      rfl
  | violated violation =>
      rw [verdict] at ends
      cases ends
      rw [poll_of_violated verdict]
      rfl
  | finished phase =>
      rw [verdict] at ends
      cases ends with
      | halted other _ => cases other
      | stepped _ =>
          by_cases halt : phase.isTerminal = true
          · rw [poll_run_of_halted verdict halt, Polled.onward_of_halt rfl halt]
            rfl
          · have live : phase.isTerminal = false := (Bool.not_eq_true _).mp halt
            rw [poll_run_of_finished verdict live, Polled.onward_of_live rfl live,
              Polled.after_after]

/-- A step that is completed in a poll leaves less to do, unless it halts the
worker. -/
theorem effort_poll_lt {phase : Phase} (complete : (s.poll .step p).progress = .stepped phase)
    (live : phase.isTerminal = false) :
    (s.poll .step p).site.effort .outset < s.effort p := by
  obtain ⟨es, t, q, progress, driven, poll, ends⟩ := s.poll_driven .step p
  have drive : es.countP (fun _ => false) + t.effort q ≤ s.effort p :=
    driven.count_le fun s p => by simp
  rw [poll] at complete ⊢
  dsimp only at complete ⊢
  subst complete
  cases verdict : (t.move q).verdict with
  | finished other =>
      rw [verdict] at ends
      cases ends
      have last := t.effort_finished_lt q verdict live
      omega
  | goOn _ | suspended _ | violated _ =>
      rw [verdict] at ends
      cases ends

/-- Only a step reports that it is complete, and only a run that it has halted. -/
theorem mode_of_poll (mode : Mode) (s : Site cap ε) (p : Point) :
    (∀ phase, (s.poll mode p).progress = .stepped phase → mode = .step) ∧
      ∀ fault, (s.poll mode p).progress = .halted fault → mode = .run := by
  obtain ⟨es, t, q, progress, driven, poll, ends⟩ := s.poll_driven mode p
  rw [poll]
  dsimp only
  generalize (t.move q).verdict = verdict at ends
  constructor
  · rintro phase rfl
    cases ends with
    | stepped step => exact step
  · rintro fault rfl
    cases ends with
    | halted run _ => exact run

/-- A run that is over has halted the worker, and reports the fault of the
link. -/
theorem halted_of_poll {mode : Mode} {fault : Fault}
    (halted : (s.poll mode p).progress = .halted fault) :
    (s.poll mode p).site.worker.phase = .fatal ∧
      fault = (s.poll mode p).site.reportedFault := by
  obtain ⟨es, t, q, progress, driven, poll, ends⟩ := s.poll_driven mode p
  rw [poll] at halted ⊢
  dsimp only at halted ⊢
  have moved := t.moved q
  generalize t.move q = m at moved ends ⊢
  subst halted
  cases moved with
  | finishes _ entered _ =>
      cases ends with
      | halted _ halt => exact ⟨entered.trans ((Phase.isTerminal_iff _).mp halt), rfl⟩
  | _ => cases ends

end Site

end Polls

/-! ## Workers that have halted -/

/-- What a worker that has halted replies. -/
def Link.verdict (l : Link cap) : Mode → Progress
  | .step => .stepped .fatal
  | .run => .halted (l.status.fault.getD .unexpected)

section Halted

variable [Crew ε]

/-- A worker that has halted replies at once and does nothing. -/
theorem Site.poll_of_fatal {s : Site cap ε} (halted : s.worker.phase = .fatal) (mode : Mode) :
    s.poll mode .outset = ⟨s, [], s.link.verdict mode⟩ := by
  have move : s.move .outset = ⟨s, [], .finished .fatal⟩ := by
    simp only [move, act, opening, halted]
    rfl
  cases mode with
  | step => rw [poll_step_of_finished (congrArg Move.verdict move), move]; rfl
  | run => rw [poll_run_of_halted (congrArg Move.verdict move) rfl, move]; rfl

theorem World.launch_of_fatal {w : World cap ε} {id : Nat} {s : Station ε}
    (here : w.station? id = some s) (free : s.held = none) (halted : s.worker.phase = .fatal)
    (mode : Mode) :
    w.apply (.launch id mode) = ⟨w, .progress (w.link.verdict mode),
      entries (.worker id) (Op.announced (.launch id mode : Op ε))⟩ := by
  have there : w.stations[id]? = some (some s) := Option.join_eq_some_iff.mp here
  obtain ⟨inside, found⟩ := List.getElem?_eq_some_iff.mp there
  have same : w.place id (some s) = w := by
    unfold place
    rw [← found, List.set_getElem_self]
  rw [apply_polls here (.fresh free), Station.point_of_free free, Site.poll_of_fatal halted]
  obtain ⟨worker, crew, held⟩ := s
  cases free
  cases mode <;> exact congrArg (Outcome.mk · _ _) same

end Halted

/-! ## Stepping -/

/-- A step is complete and has not halted the worker. -/
def Reply.isLive : Reply → Bool
  | .progress (.stepped phase) => !phase.isTerminal
  | _ => false

theorem Reply.stepped_of_isLive {r : Reply} (live : r.isLive = true) :
    ∃ phase, r = .progress (.stepped phase) ∧ phase.isTerminal = false := by
  unfold isLive at live
  split at live
  · rename_i phase
    exact ⟨phase, rfl, by simpa using live⟩
  · cases live

namespace World

variable [Crew ε]

/-- What is left to do for a worker, were it never kept waiting. -/
def effort (w : World cap ε) (id : Nat) : Nat :=
  match w.station? id with
  | some s => (w.site s).effort s.post.point
  | none => 0

theorem effort_of_station? {w : World cap ε} {id : Nat} {s : Station ε}
    (here : w.station? id = some s) : w.effort id = (w.site s).effort s.post.point := by
  unfold effort
  rw [here]

/-- What a poll that does not end in a wait leaves to do. -/
theorem effort_absorb {w : World cap ε} {id : Nat} {s : Station ε}
    (here : w.station? id = some s) (mode : Mode) {o : Polled cap ε}
    (ended : ∀ suspension, o.progress ≠ .pending suspension) :
    (w.absorb id mode o).world.effort id = o.site.effort .outset := by
  obtain ⟨held, there, _, free⟩ := station?_absorb here mode o
  rw [effort_of_station? there, free ended]
  rfl

/-- A step is one poll from the outset. -/
theorem apply_step {w : World cap ε} {id : Nat} {s : Station ε} (here : w.station? id = some s)
    (free : s.held = none) :
    w.apply (.launch id .step) = w.absorb id .step ((w.site s).poll .step .outset) := by
  simp only [apply, here, free]
  rfl

/-- A step that is completed at once leaves less to do. -/
theorem effort_apply_lt (w : World cap ε) (id : Nat)
    (live : (w.apply (.launch id .step)).reply.isLive = true) :
    (w.apply (.launch id .step)).world.effort id < w.effort id := by
  obtain ⟨phase, reply, live⟩ := Reply.stepped_of_isLive live
  obtain ⟨_, s, mode, here, polls⟩ := polls_of_progress reply
  cases polls with
  | fresh free =>
      rw [apply_step here free] at reply ⊢
      have complete : ((w.site s).poll .step .outset).progress = .stepped phase :=
        Reply.progress.inj reply
      have less := Site.effort_poll_lt complete live
      have ended : ∀ suspension, ((w.site s).poll .step .outset).progress ≠
          .pending suspension := by
        rw [complete]
        exact fun _ other => by cases other
      rw [effort_of_station? here, Station.point_of_free free, effort_absorb here .step ended]
      exact less

/-- Step a worker, and again as long as its steps are completed at once and do
not halt it. -/
def stepOn (id : Nat) (w : World cap ε) : Outcome cap ε :=
  if _live : (w.apply (.launch id .step)).reply.isLive = true then
    (stepOn id (w.apply (.launch id .step)).world).after (w.apply (.launch id .step)).entries
  else w.apply (.launch id .step)
termination_by w.effort id
decreasing_by exact w.effort_apply_lt id ‹_›

end World

section Outcomes

variable [Crew ε]

/-- The outcome of an operation, and if it has completed a step of a worker
without halting it, of stepping the worker on. -/
def Outcome.onward (o : Outcome cap ε) (id : Nat) : Outcome cap ε :=
  if o.reply.isLive then (o.world.stepOn id).after o.entries else o

theorem World.stepOn_eq (w : World cap ε) (id : Nat) :
    w.stepOn id = (w.apply (.launch id .step)).onward id := by
  rw [stepOn]
  rfl

/-- What others do whenever a worker is suspended, a round each time, before the
worker is polled again. Rounds that are left when it is not suspended any more
do not take place. -/
def Outcome.through (again : World cap ε → Outcome cap ε) :
    List (List (Op ε)) → Outcome cap ε → Outcome cap ε
  | [], o => o
  | round :: rounds, o =>
    if World.isPending o.reply then
      let fed := o.world.applyAll round
      through again rounds ((again fed.1).after (o.entries ++ fed.2))
    else o

namespace World

/-- A run of a worker, with what others do whenever it is suspended. -/
def runThrough (w : World cap ε) (id : Nat) (rounds : List (List (Op ε))) : Outcome cap ε :=
  (w.apply (.launch id .run)).through (fun v => v.apply (.poll id)) rounds

/-- A worker stepped again and again, with what others do whenever it is
suspended. -/
def stepThrough (w : World cap ε) (id : Nat) (rounds : List (List (Op ε))) : Outcome cap ε :=
  ((w.apply (.launch id .step)).onward id).through
    (fun v => (v.apply (.poll id)).onward id) rounds

end World

theorem Outcome.through_after (again : World cap ε → Outcome cap ε) (rounds : List (List (Op ε))) :
    ∀ (o : Outcome cap ε) (before : List Entry),
      (o.after before).through again rounds = (o.through again rounds).after before := by
  induction rounds with
  | nil => exact fun _ _ => rfl
  | cons round rounds ih =>
      intro o before
      unfold through
      by_cases waits : World.isPending o.reply = true
      · rw [if_pos waits]
        refine (if_pos waits).trans ?_
        show ((again (o.world.applyAll round).1).after
          ((before ++ o.entries) ++ (o.world.applyAll round).2)).through again rounds = _
        rw [List.append_assoc, ← Outcome.after_after, ih]
      · rw [if_neg waits]
        exact if_neg waits

end Outcomes

/-! ## The same world, stepwise -/

/-- What a poll of a run reports, were it stepped. -/
def Progress.stepwise : Progress → Progress
  | halted _ => .stepped .fatal
  | progress => progress

def Reply.stepwise : Reply → Reply
  | progress p => .progress p.stepwise
  | r => r

theorem Reply.isPending_stepwise (r : Reply) :
    World.isPending r.stepwise = World.isPending r := by
  cases r with
  | progress p => cases p <;> rfl
  | _ => rfl

/-- The worker in the middle of a step, if it is in the middle of a run. -/
def Station.stepwise (s : Station ε) : Station ε :=
  { s with held := s.held.map fun pair => (.step, pair.2) }

/-- The same world, where a worker that is suspended in a run is suspended in a
step. -/
def World.stepwise (w : World cap ε) (id : Nat) : World cap ε :=
  match w.station? id with
  | some s => w.place id (some s.stepwise)
  | none => w

/-- The outcome, were the worker stepped. -/
def Outcome.stepwise (o : Outcome cap ε) (id : Nat) : Outcome cap ε :=
  ⟨o.world.stepwise id, o.reply.stepwise, o.entries⟩

/-- The operation is one of the producer or the platform. -/
def Op.feeds : Op ε → Bool
  | offer _ | nudge => true
  | _ => false

namespace World

variable {w : World cap ε} {id : Nat} {s : Station ε}

theorem stepwise_of_station? (here : w.station? id = some s) :
    w.stepwise id = w.place id (some s.stepwise) := by
  unfold stepwise
  rw [here]

theorem station?_place (here : w.station? id = some s) (r : Option (Station ε)) :
    (w.place id r).station? id = r := by
  obtain ⟨inside, _⟩ := List.getElem?_eq_some_iff.mp (Option.join_eq_some_iff.mp here)
  unfold place station?
  dsimp only
  rw [List.getElem?_set_self inside]
  rfl

/-- What is put in one place is not found in another. -/
theorem station?_place_of_ne (w : World cap ε) {id other : Nat} (differ : other ≠ id)
    (r : Option (Station ε)) : (w.place other r).station? id = w.station? id := by
  unfold place station?
  dsimp only
  rw [List.getElem?_set_ne differ]

theorem place_place (w : World cap ε) (id : Nat) (r r' : Option (Station ε)) :
    (w.place id r).place id r' = w.place id r' := by
  unfold place
  rw [List.set_set]

theorem link_stepwise (w : World cap ε) (id : Nat) : (w.stepwise id).link = w.link := by
  unfold stepwise
  split <;> rfl

theorem stepwise_feed (w : World cap ε) (id : Nat) (l : Link cap) :
    ({ w with link := l } : World cap ε).stepwise id = ⟨l, (w.stepwise id).stations⟩ := by
  unfold stepwise station?
  dsimp only
  split <;> rfl

/-- What a poll leaves behind does not depend on what was there. -/
theorem stepwise_absorb (here : w.station? id = some s) (mode : Mode) (o : Polled cap ε) :
    (w.stepwise id).absorb id mode o = w.absorb id mode o := by
  rw [stepwise_of_station? here]
  unfold absorb place
  dsimp only
  rw [List.set_set]

/-- What a poll of a run leaves behind, stepwise. -/
theorem absorb_stepwise (here : w.station? id = some s) (o : Polled cap ε) :
    (w.absorb id .run o).stepwise id =
      w.absorb id .step ⟨o.site, o.events, o.progress.stepwise⟩ := by
  obtain ⟨inside, _⟩ := List.getElem?_eq_some_iff.mp (Option.join_eq_some_iff.mp here)
  obtain ⟨held, there, waits, free⟩ := station?_absorb here .run o
  have world : (w.absorb id .run o).world.stepwise id =
      ({ w with link := o.site.link } : World cap ε).place id
        (some (Station.stepwise ⟨o.site.worker, o.site.crew, held⟩)) := by
    rw [stepwise_of_station? there]
    exact place_place _ id _ _
  unfold Outcome.stepwise
  rw [world]
  obtain ⟨t, es, progress⟩ := o
  cases progress with
  | pending suspension =>
      rw [waits suspension rfl]
      rfl
  | stepped _ | halted _ | violated _ =>
      rw [free fun _ other => by cases other]
      rfl

variable [Crew ε]

section Feeds

variable (cap)

/-- What the producer and the platform do depends on the link and changes
nothing else. -/
theorem apply_feeds {op : Op ε} (outside : op.feeds = true) :
    ∃ feed : Link cap → Link cap × Reply × List Entry, ∀ w : World cap ε,
      w.apply op = ⟨{ w with link := (feed w.link).1 }, (feed w.link).2.1, (feed w.link).2.2⟩ := by
  cases op with
  | offer batch =>
      exact ⟨fun l => ((l.offer batch).1, .accepted (l.offer batch).2.1,
        entries .producer (l.offer batch).2.2), fun _ => rfl⟩
  | nudge =>
      exact ⟨fun l => (l.nudge.1, .accepted l.nudge.2.1, entries .producer l.nudge.2.2),
        fun _ => rfl⟩
  | _ => cases outside

theorem applyAll_feeds {round : List (Op ε)} (outside : ∀ op ∈ round, op.feeds = true) :
    ∃ feed : Link cap → Link cap × List Entry, ∀ w : World cap ε,
      w.applyAll round = ({ w with link := (feed w.link).1 }, (feed w.link).2) := by
  induction round with
  | nil => exact ⟨fun l => (l, []), fun _ => rfl⟩
  | cons op round ih =>
      obtain ⟨first, one⟩ := apply_feeds cap (outside op List.mem_cons_self)
      obtain ⟨rest, more⟩ := ih fun op there => outside op (List.mem_cons_of_mem _ there)
      refine ⟨fun l => ((rest (first l).1).1, (first l).2.2 ++ (rest (first l).1).2), fun w => ?_⟩
      show ((applyAll _ round).1, _ ++ (applyAll _ round).2) = _
      rw [one, more]

end Feeds

/-- Whoever does not use the worker does not notice whether it is stepped. -/
theorem applyAll_stepwise (w : World cap ε) (id : Nat) {round : List (Op ε)}
    (outside : ∀ op ∈ round, op.feeds = true) :
    (w.stepwise id).applyAll round =
        ((w.applyAll round).1.stepwise id, (w.applyAll round).2) ∧
      (w.applyAll round).1.station? id = w.station? id := by
  obtain ⟨feed, fed⟩ := applyAll_feeds cap outside
  refine ⟨?_, by rw [fed]; rfl⟩
  rw [fed, fed, link_stepwise]
  dsimp only
  rw [w.stepwise_feed id (feed w.link).1]

/-- A step that is completed is followed by the next, from where it has led. -/
theorem onward_absorb_of_live (here : w.station? id = some s) {phase : Phase}
    (live : phase.isTerminal = false) (t : Site cap ε) (es : List Event) :
    (w.absorb id .step ⟨t, es, .stepped phase⟩).onward id =
      ((w.absorb id .step (t.poll .step .outset)).onward id).after (entries (.worker id) es) := by
  obtain ⟨held, there, _, free⟩ := station?_absorb here .step ⟨t, es, .stepped phase⟩
  have next : (w.absorb id .step ⟨t, es, .stepped phase⟩).world.apply (.launch id .step) =
      w.absorb id .step (t.poll .step .outset) := by
    rw [apply_step there (free fun _ other => by cases other)]
    exact absorb_absorb w id .step _ _
  rw [← next, ← stepOn_eq]
  refine if_pos ?_
  show (!phase.isTerminal) = true
  rw [live]
  rfl

/-- Stepping leads where a poll of a run leads. -/
theorem onward_absorb (here : w.station? id = some s) (t : Site cap ε) (p : Point) :
    (w.absorb id .step (t.poll .step p)).onward id =
      (w.absorb id .run (t.poll .run p)).stepwise id := by
  -- every step that is completed leaves less to do
  induction left : t.effort p using Nat.strongRecOn generalizing t p with
  | ind left ih =>
      subst left
      have less : ∀ phase, (t.poll .step p).progress = .stepped phase →
          phase.isTerminal = false → (t.poll .step p).site.effort .outset < t.effort p :=
        fun _ => Site.effort_poll_lt
      have unhalted := (Site.mode_of_poll .step t p).2
      rw [absorb_stepwise here, t.poll_run p]
      generalize t.poll .step p = o at less unhalted ⊢
      obtain ⟨u, es, progress⟩ := o
      cases progress with
      | pending _ | violated _ => rfl
      | halted fault => cases unhalted fault rfl
      | stepped phase =>
          by_cases halt : phase.isTerminal = true
          · rw [Polled.onward_of_halt rfl halt, (Phase.isTerminal_iff _).mp halt]
            rfl
          · have live : phase.isTerminal = false := (Bool.not_eq_true _).mp halt
            have rest := ih _ (less phase rfl live) u .outset rfl
            rw [onward_absorb_of_live here live, rest, absorb_stepwise here,
              Polled.onward_of_live rfl live]
            exact (absorb_after w id .step ⟨(u.poll .run .outset).site, _, _⟩ es).symm

end World

/-! ## Runs with others around -/

section Runs

variable [Crew ε] {id : Nat} {s : Station ε} {w : World cap ε}

/-- The outcome is that of a poll of a run, with what happened before. -/
inductive Outcome.OfRun (id : Nat) : Outcome cap ε → Prop where
  | poll {w : World cap ε} {s : Station ε} (here : w.station? id = some s) (t : Site cap ε)
      (p : Point) (before : List Entry) :
      OfRun id ((w.absorb id .run (t.poll .run p)).after before)

/-- To poll a worker again that is suspended in a run leads to the same place
stepwise. -/
theorem World.apply_poll_stepwise {suspension : Suspension} (here : w.station? id = some s)
    (held : s.held = some (.run, suspension)) (before : List Entry) :
    ((w.apply (.poll id)).after before).OfRun id ∧
      ((w.stepwise id).apply (.poll id)).onward id = (w.apply (.poll id)).stepwise id := by
  have again : w.apply (.poll id) =
      w.absorb id .run ((w.site s).poll .run (.waiting suspension)) := by
    simp only [apply, here, held]
    rfl
  have there : (w.stepwise id).station? id = some s.stepwise := by
    rw [stepwise_of_station? here]
    exact station?_place here _
  have step : s.stepwise.held = some (.step, suspension) := by
    unfold Station.stepwise
    rw [held]
    rfl
  have again' : (w.stepwise id).apply (.poll id) =
      (w.stepwise id).absorb id .step ((w.site s).poll .step (.waiting suspension)) := by
    simp only [apply, there, step]
    unfold site
    rw [w.link_stepwise]
    rfl
  rw [again', stepwise_absorb here, onward_absorb here, again]
  exact ⟨.poll here _ _ before, rfl⟩

namespace Outcome.OfRun

variable {o : Outcome cap ε}

/-- A worker that is suspended in a run is held. -/
theorem held (ran : o.OfRun id) (waits : World.isPending o.reply = true) :
    ∃ s suspension, o.world.station? id = some s ∧ s.held = some (.run, suspension) := by
  cases ran with
  | poll here t p before =>
      obtain ⟨held, there, holds, _⟩ := World.station?_absorb here .run (t.poll .run p)
      cases progress : (t.poll .run p).progress with
      | pending suspension => exact ⟨_, suspension, there, holds suspension progress⟩
      | stepped _ | halted _ | violated _ =>
          have other : World.isPending (.progress (t.poll .run p).progress) = true := waits
          rw [progress] at other
          cases other

/-- A run that is over has halted its worker, and reports the fault of the
link. -/
theorem halted (ran : o.OfRun id) {fault : Fault} (reply : o.reply = .progress (.halted fault)) :
    fault = o.world.link.status.fault.getD .unexpected ∧
      ∃ p, o.world.posts[id]? = some (some p) ∧ p.worker.phase = .fatal := by
  cases ran with
  | poll here t p before =>
      obtain ⟨held, there, _, _⟩ := World.station?_absorb here .run (t.poll .run p)
      obtain ⟨phase, reported⟩ := Site.halted_of_poll (Reply.progress.inj reply)
      exact ⟨reported, _, World.posts_of_station? there, phase⟩

theorem after (ran : o.OfRun id) (es : List Entry) : (o.after es).OfRun id := by
  cases ran with
  | @poll w s here t p before =>
      rw [Outcome.after_after]
      exact .poll here t p _

theorem ne_stepped (ran : o.OfRun id) (phase : Phase) :
    o.reply ≠ .progress (.stepped phase) := by
  cases ran with
  | poll _ t p _ =>
      intro other
      cases (Site.mode_of_poll .run t p).1 phase (Reply.progress.inj other)

/-- A run is over when a step has led to `fatal`. -/
theorem halted_iff (ran : o.OfRun id) :
    (∃ fault, o.reply = .progress (.halted fault)) ↔
      o.reply.stepwise = .progress (.stepped .fatal) := by
  constructor
  · rintro ⟨fault, halted⟩
    rw [halted]
    rfl
  · intro halted
    cases reply : o.reply with
    | progress progress =>
        rw [reply] at halted
        cases progress with
        | halted fault => exact ⟨fault, rfl⟩
        | stepped phase => exact absurd reply (ran.ne_stepped phase)
        | pending _ | violated _ => cases halted
    | _ =>
        rw [reply] at halted
        cases halted

/-- The way goes on in the same manner, and leads to the same place stepwise. -/
theorem through (ran : o.OfRun id) {rounds : List (List (Op ε))}
    (outside : ∀ round ∈ rounds, ∀ op ∈ round, op.feeds = true) :
    (o.through (fun v => v.apply (.poll id)) rounds).OfRun id ∧
      (o.stepwise id).through (fun v => (v.apply (.poll id)).onward id) rounds =
        (o.through (fun v => v.apply (.poll id)) rounds).stepwise id := by
  induction rounds generalizing o with
  | nil => exact ⟨ran, rfl⟩
  | cons round rounds ih =>
      unfold Outcome.through
      have same : World.isPending (o.stepwise id).reply = World.isPending o.reply :=
        o.reply.isPending_stepwise
      rw [same]
      by_cases waits : World.isPending o.reply = true
      · rw [if_pos waits, if_pos waits]
        obtain ⟨s, suspension, here, held⟩ := ran.held waits
        obtain ⟨fed, still⟩ := o.world.applyAll_stepwise id (outside _ List.mem_cons_self)
        rw [← still] at here
        obtain ⟨again, next⟩ :=
          World.apply_poll_stepwise here held (o.entries ++ (o.world.applyAll round).2)
        have rest := ih again fun round there => outside round (List.mem_cons_of_mem _ there)
        refine ⟨rest.1, ?_⟩
        show ((((o.world.stepwise id).applyAll round).1.apply (.poll id)).onward id
          |>.after (o.entries ++ ((o.world.stepwise id).applyAll round).2)).through _ rounds = _
        rw [fed, next]
        exact rest.2
      · rw [if_neg waits, if_neg waits]
        exact ⟨ran, rfl⟩

end Outcome.OfRun

end Runs

/-! ## The fault of a worker that has halted -/

section Turns

variable {l l' l₁ : Link cap} {w w' w₁ : Worker} {source : Phase} {p q : Point}
  {es : List Event}

theorem Closing.fault_isSome (closing : Closing l w source p es l₁ w₁)
    (charged : l.status.fault.isSome = true) : l₁.status.fault.isSome = true := by
  cases closing with
  | skipped _ _ | woken _ =>
      rw [Link.fault_hinted]
      exact charged
  | failed job _ => cases job <;> first | rfl | exact charged
  | unopened _ _ => rfl
  | _ => exact charged

/-- A fault stays, and whoever halts has one. -/
theorem Turn.fault_isSome (turn : Turn l w p es l' w' q) :
    (l.status.fault.isSome = true → l'.status.fault.isSome = true) ∧
      (w'.phase = .fatal → w.phase = .fatal ∨ l'.status.fault.isSome = true) := by
  cases turn with
  | call calling fed _ =>
      obtain ⟨same, _⟩ := calling.blame
      obtain ⟨_, phase, _⟩ := calling.signal
      obtain ⟨_, status⟩ := fed.status_eq
      rw [status, phase]
      exact ⟨fun charged => by rw [same]; exact charged, .inl⟩
  | leave closing =>
      unfold Status.enter
      split
      · exact ⟨fun _ => rfl, fun _ => .inr rfl⟩
      · rename_i live
        exact ⟨closing.fault_isSome,
          fun halted => absurd ((Phase.isTerminal_iff _).mpr halted) live⟩
  | park _ _ =>
      rw [Link.fault_hinted]
      exact ⟨id, .inl⟩
  | _ => exact ⟨id, .inl⟩

end Turns

/-- If a worker has halted, the link shows a fault. -/
def Charged (id : Nat) (m : Moment cap) : Prop :=
  ∀ post, m.posts[id]? = some (some post) → post.worker.phase = .fatal →
    m.link.status.fault.isSome = true

theorem Charged.next {id : Nat} {m n : Moment cap} (charged : Charged id m)
    (next : m.Next (fun _ => False) n) : Charged id n := by
  intro post there halted
  cases next with
  | feed fed =>
      obtain ⟨_, status⟩ := fed.status_eq
      rw [status]
      exact charged post there halted
  | boot _ never => cases never
  | turn here turn =>
      obtain ⟨kept, halts⟩ := turn.fault_isSome
      rcases post_of_set there with ⟨rfl, same⟩ | ⟨_, before⟩
      · cases same
        rcases halts halted with already | charged
        · exact kept (charged _ here already)
        · exact charged
      · exact kept (charged post before halted)
  | announce _ => exact charged post there halted
  | cancel here =>
      rcases post_of_set there with ⟨rfl, same⟩ | ⟨_, before⟩
      · cases same
        exact charged _ here halted
      · exact charged post before halted
  | drop _ =>
      rcases post_of_set there with ⟨_, gone⟩ | ⟨_, before⟩
      · cases gone
      · exact charged post before halted

/-! ## Runs and steps -/

theorem isBoot_of_feeds {round : List (Op ε)} (outside : ∀ op ∈ round, op.feeds = true) :
    round.countP Op.isBoot = 0 := by
  refine List.countP_eq_zero.mpr fun op there boots => ?_
  have feeds := outside op there
  cases op <;> first | cases feeds; done | cases boots

variable [Crew ε]

/-- If a worker has halted at the end of its polls, the link shows a fault. -/
theorem Outcome.charged_through {id : Nat} {rounds : List (List (Op ε))}
    (outside : ∀ round ∈ rounds, ∀ op ∈ round, op.feeds = true) : ∀ {o : Outcome cap ε},
      Charged id (o.world.moment []) →
      Charged id ((o.through (fun v => v.apply (.poll id)) rounds).world.moment []) := by
  induction rounds with
  | nil => exact fun charged => charged
  | cons round rounds ih =>
      intro o charged
      unfold Outcome.through
      by_cases waits : World.isPending o.reply = true
      · rw [if_pos waits]
        have none := isBoot_of_feeds (outside _ List.mem_cons_self)
        have fed := o.world.leads (fun _ => False) round [] (World.boots_none _ _ _ none)
        have polled := (o.world.applyAll round).1.apply_leads (fun _ => False) (.poll id)
          ([] ++ (o.world.applyAll round).2) fun boots => by cases boots
        have step := Moment.Leads.keeps (I := Charged id) (fed.trans polled)
          (fun _ _ before next => before.next next) charged
        exact ih (fun round there => outside round (List.mem_cons_of_mem _ there)) step
      · rw [if_neg waits]
        exact charged

theorem World.charged_runThrough {w : World cap ε} {id : Nat} {s : Station ε}
    (here : w.station? id = some s)
    (charged : s.worker.phase = .fatal → w.link.status.fault.isSome = true)
    {rounds : List (List (Op ε))}
    (outside : ∀ round ∈ rounds, ∀ op ∈ round, op.feeds = true) :
    Charged id ((w.runThrough id rounds).world.moment []) := by
  have before : Charged id (w.moment []) := by
    intro post there halted
    cases (posts_of_station? here).symm.trans there
    exact charged halted
  have launch := w.apply_leads (fun _ => False) (.launch id .run) [] fun boots => by cases boots
  have started := Moment.Leads.keeps (I := Charged id) launch
    (fun _ _ before next => before.next next) before
  exact Outcome.charged_through outside started

/-- **A run is a repeated step.** A worker that is not held is run, and whenever
it is suspended the producer and the platform do something before it is polled
again. Stepping it instead, again as soon as a step is completed without halting
it, makes the same requests, transitions and notices; only the run announces
itself first. In the end link and workers are the same, but for a worker that
is then suspended in a step. The run is over when a step has led to `fatal`, and
not before, and it reports the fault that the link then shows. A worker that has
halted already reports it at once. -/
theorem run_is_repeated_step {w : World cap ε} {id : Nat} {s : Station ε}
    (here : w.station? id = some s) (free : s.held = none) {rounds : List (List (Op ε))}
    (outside : ∀ round ∈ rounds, ∀ op ∈ round, op.feeds = true) :
    let ran := w.runThrough id rounds
    let stepped := w.stepThrough id rounds
    ran.entries = ⟨.worker id, .noticed .workerStarted⟩ :: stepped.entries ∧
      stepped.world = ran.world.stepwise id ∧ stepped.reply = ran.reply.stepwise ∧
      ((∃ fault, ran.reply = .progress (.halted fault)) ↔
        stepped.reply = .progress (.stepped .fatal)) ∧
      (∀ fault, ran.reply = .progress (.halted fault) →
        fault = ran.world.link.status.fault.getD .unexpected ∧
          ((s.worker.phase = .fatal → w.link.status.fault.isSome = true) →
            ran.world.link.status.fault = some fault)) ∧
      (s.worker.phase = .fatal → ran =
        ⟨w, .progress (.halted (w.link.status.fault.getD .unexpected)),
          [⟨.worker id, .noticed .workerStarted⟩]⟩) := by
  intro ran stepped
  let first := w.absorb id .run ((w.site s).poll .run .outset)
  have runs : first.OfRun id := .poll here (w.site s) .outset []
  obtain ⟨ofRun, same⟩ := runs.through outside
  have launched : w.apply (.launch id .run) =
      first.after [⟨.worker id, .noticed .workerStarted⟩] := by
    simp only [World.apply, here, free]
    exact World.absorb_after w id .run _ _
  have whole : ran = (first.through (fun v => v.apply (.poll id)) rounds).after
      [⟨.worker id, .noticed .workerStarted⟩] := by
    show (w.apply (.launch id .run)).through _ rounds = _
    rw [launched, Outcome.through_after]
  have parts : stepped =
      (first.through (fun v => v.apply (.poll id)) rounds).stepwise id := by
    rw [← same]
    show ((w.apply (.launch id .step)).onward id).through _ rounds = _
    rw [World.apply_step here free, World.onward_absorb here]
  have reply : stepped.reply = ran.reply.stepwise := by
    rw [whole, parts]
    rfl
  have ending : ran.OfRun id := by
    rw [whole]
    exact ofRun.after _
  refine ⟨?_, ?_, reply, ?_, fun fault halted => ?_, fun halted => ?_⟩
  · rw [whole, parts]
    rfl
  · rw [whole, parts]
    rfl
  · rw [reply]
    exact ending.halted_iff
  · obtain ⟨reported, post, there, phase⟩ := ending.halted halted
    refine ⟨reported, fun charged => ?_⟩
    have shown := World.charged_runThrough here charged outside post there phase
    obtain ⟨cause, same⟩ := Option.isSome_iff_exists.mp shown
    have link : ran.world.link.status.fault = some cause := same
    rw [reported, link]
    rfl
  · show (w.apply (.launch id .run)).through _ rounds = _
    rw [World.launch_of_fatal here free halted]
    cases rounds <;> rfl

/-- A session is refused, and opened late; a batch arrives meanwhile and cannot
be published. -/
theorem run_is_repeated_step_halting :
    let refused : Response := { answer := .failed ⟨.other, ""⟩ }
    let w : World 2 Script := World.after 2
      [.boot {} { connect := [refused, { polls := 1 }], publish := [{ polls := 1 }, refused] },
        .offer (.tagged 7)]
    let rounds : List (List (Op Script)) := [[.offer (.tagged 8), .nudge], [], [.nudge]]
    let ran := w.runThrough 0 rounds
    let stepped := w.stepThrough 0 rounds
    (∀ round ∈ rounds, ∀ op ∈ round, op.feeds = true) ∧
      (∃ s, w.station? 0 = some s ∧ s.held = none ∧ s.worker.phase ≠ .fatal) ∧
      ran.reply = .progress (.halted .publish) ∧ ran.world.link.status.fault = some .publish ∧
      stepped.reply = .progress (.stepped .fatal) ∧
      ran.entries = ⟨.worker 0, .noticed .workerStarted⟩ :: stepped.entries := by
  intro refused w rounds ran stepped
  have outside : ∀ round ∈ rounds, ∀ op ∈ round, op.feeds = true := by
    decide
  have start : (w.station? 0).map (fun s => (s.held, s.worker.phase)) = some (none, .start) := by
    decide +kernel
  have halted : ran.reply = .progress (.halted .publish) := by
    decide +kernel
  obtain ⟨s, here, found⟩ := Option.map_eq_some_iff.mp start
  obtain ⟨free, phase⟩ := Prod.mk.inj found
  have live : s.worker.phase ≠ .fatal := by
    rw [phase]
    decide
  obtain ⟨entries, _, _, ended, fault, _⟩ := run_is_repeated_step here free outside
  exact ⟨outside, ⟨s, here, free, live⟩, halted,
    (fault _ halted).2 fun dead => absurd dead live, ended.mp ⟨_, halted⟩, entries⟩

end StoreForward
