import StoreForward.Site.Move

/-!
# Effort

A worker that is not kept waiting goes from move to move, and a run goes from
step to step. Several cycles are on that way: a session that cannot be
opened is retried, a ready worker publishes and is ready again, a worker that
rests with batches in the outbox starts all over. None of them turns for ever,
because each turn uses something up.

`Site.effort` measures what is left. It is made of three parts, in falling
weight: the unrest of the crew, the number of batches in the outbox, and a
rank of the point. The rank falls along the way a worker takes while crew
and outbox leave it alone. That way depends on whether the outbox is empty:
with batches to send it leads from the close of a session round to the next
drain, and without it leads from a drain to rest. Adding a batch to the
outbox costs the crew unrest that weighs twice as much.

## Main results

* `Phase.rank_next_lt` — a transition leads down the ranks.
* `Site.effort_leave_lt` — so it leaves less to do, whatever it leads to.
* `Site.effort_begin_lt` — a call leaves less to do, whatever the crew adds.
-/

namespace StoreForward

/-! ## Ranks of phases -/

namespace Phase

/-- The rank of the outset of a phase, by whether the outbox is empty and
whether a failure is being signalled. -/
def rank (empty failed : Bool) : Phase → Nat
  | start => if empty then 60 else 32
  | connectNetwork => if empty then 56 else 28
  | syncTime => if empty then 52 else 24
  | connectSession =>
    if failed then (if empty then 48 else 20) else (if empty then 40 else 12)
  | ready => if empty then 32 else 8
  | publish => if empty then 36 else 4
  | closeSession => if empty then 28 else 40
  | disconnectNetwork => if empty then 24 else 36
  | idle => if empty then 16 else 32
  | retrySession => if empty then 44 else 16
  | fatal => 0

theorem rank_lt (empty failed : Bool) (p : Phase) : p.rank empty failed < 63 := by
  cases empty <;> cases failed <;> cases p <;> decide

/-- Only connecting ranks by the failure signal. -/
theorem rank_congr {p : Phase} (plain : p ≠ connectSession) (empty f g : Bool) :
    p.rank empty f = p.rank empty g := by
  cases p <;> first | rfl | exact absurd rfl plain

/-- A request under way ranks below the outset it came from. Only for a
connect does a failure to come make a difference. -/
theorem rank_pred_lt (empty failed failing : Bool) {p : Phase} (live : p ≠ fatal)
    (told : p = connectSession → failing = false) :
    p.rank empty (failed || failing) - 1 < p.rank empty failed := by
  cases p <;> cases empty <;> cases failed <;> cases failing <;>
    first | decide | cases told rfl | cases live rfl

/-- Guards under which a transition leads down: a drain ends with an empty
outbox or a failure, a rest that is skipped finds batches, and a retry has
lowered the failure signal. -/
def descends (g : Guards) : Phase → Bool
  | publish => g.queueEmpty || g.failed
  | idle => !g.queueEmpty
  | retrySession => !g.failed
  | fatal => false
  | _ => true

/-- A transition leads down the ranks, far enough for three points between
the outset of an action and its end. -/
theorem rank_next_lt {g : Guards} {p : Phase} (down : p.descends g = true) :
    (p.next g).rank g.queueEmpty g.failed + 3 < p.rank g.queueEmpty g.failed := by
  obtain ⟨failed, syncDue, queueEmpty, exhausted⟩ := g
  cases p <;> cases failed <;> cases syncDue <;> cases queueEmpty <;>
    cases exhausted <;> first | decide | cases down

end Phase

namespace Site

variable {cap : Nat} {ε : Type}

/-! ## Effort -/

/-- The rank of a point at a site. A request under way ranks just below the
outset it came from; if it is a connect that is about to fail, below the
outset of one whose failure is already signalled. -/
def rank (s : Site cap ε) : Point → Nat
  | .outset => s.worker.phase.rank s.link.isIdle s.link.status.failed
  | .draining _ _ => if s.link.isIdle then 34 else 2
  | .waiting (.call job _ answer) =>
    job.phase.rank s.link.isIdle (s.link.status.failed || answer.isFailed) - 1
  | .waiting .parked =>
    if s.link.wakes.isEmpty then 2 else if s.link.isIdle then 18 else 33

variable [Crew ε]

/-- What is left to do from a point, were the worker never kept waiting. -/
def effort (s : Site cap ε) (p : Point) : Nat :=
  128 * Crew.unrest s.crew + 64 * s.link.queued + s.rank p

/-! ## Transitions and calls -/

/-- A transition leaves less than the outset of the action it ends, whatever
the action did to the failure signal, if outbox and crew are no worse off. -/
theorem effort_leave_lt (s t : Site cap ε) (source : Phase)
    (unrest : Crew.unrest t.crew ≤ Crew.unrest s.crew)
    (outbox : t.link.outbox = s.link.outbox) (down : source.descends t.guards = true) :
    (t.leave source).effort .outset + 3 <
      128 * Crew.unrest s.crew + 64 * s.link.queued +
        source.rank s.link.isIdle t.link.status.failed := by
  obtain ⟨crew, box, failed, phase⟩ := t.enter_fst source (source.next t.guards)
  have lower := Phase.rank_next_lt down
  have same : t.guards.queueEmpty = s.link.isIdle ∧
      t.guards.failed = t.link.status.failed := ⟨congrArg Outbox.isEmpty outbox, rfl⟩
  rw [same.1, same.2] at lower
  unfold leave effort rank Link.queued Link.isIdle at *
  dsimp only
  rw [crew, box, failed, phase, outbox]
  omega

/-- Putting a request to the crew leaves less than a bound, if the request
itself ranks below it. A crew that adds batches, or that is going to refuse
a connect, pays for what that adds. -/
theorem effort_begin_lt (s : Site cap ε) (job : Job) (events : List Event) (bound : Nat)
    (below : ∀ failing : Bool, (job.request = .connect → failing = false) →
      job.phase.rank s.link.isIdle (s.link.status.failed || failing) - 1 < bound)
    {q : Point} (goesOn : (s.begin job events).verdict = .goOn q) :
    (s.begin job events).site.effort q <
      128 * Crew.unrest s.crew + 64 * s.link.queued + bound := by
  cases reaction : Crew.react s.crew job.request with
  | mk crew result =>
      cases result with
      | error text =>
          unfold begin at goesOn
          rw [reaction] at goesOn
          cases goesOn
      | ok r =>
          have law := Crew.unrest_react s.crew job.request r (by rw [reaction])
          have offered := Link.queued_offerAll_le r.enqueues s.link
          have flag := Link.failed_offerAll r.enqueues s.link
          obtain ⟨outbox, status⟩ := Link.nudgeTimes_fst r.wakes (s.link.offerAll r.enqueues).1
          have charge := r.length_enqueues_le_cost job.request
          unfold begin at goesOn ⊢
          rw [reaction] at goesOn law ⊢
          cases goesOn
          unfold effort rank
          dsimp only
          unfold Link.queued Link.isIdle at *
          rw [outbox, status, flag]
          have top := Phase.rank_lt (s.link.offerAll r.enqueues).1.outbox.isEmpty
            (s.link.status.failed || r.answer.isFailed) job.phase
          cases enqueues : r.enqueues with
          | cons b rest =>
              rw [enqueues] at offered charge top
              rw [List.length_cons] at offered charge
              dsimp only at law
              omega
          | nil =>
              dsimp only at law
              rw [enqueues] at top
              have link : (s.link.offerAll []).1 = s.link := rfl
              rw [link] at top ⊢
              by_cases refused : job.request = .connect ∧ r.answer.isFailed = true
              · have paid : r.cost job.request = 1 := by
                  rw [refused.1]
                  unfold Response.cost
                  rw [enqueues, refused.2]
                  rfl
                omega
              · have ranked := below r.answer.isFailed fun connect => by
                  cases failed : r.answer.isFailed with
                  | false => rfl
                  | true => exact absurd ⟨connect, failed⟩ refused
                omega

end Site

end StoreForward
