import StoreForward.Site.Effort

/-!
# Every move leaves less to do

There are three ways on from a move: the action goes on, the step is complete
and the next one begins, or the poll is over. In the first two the effort has
become less, except that a halted worker stays where it is. This is why a
poll comes to an end, and it is what the recursion of `Site.poll` rests on.

## Main results

* `effort_move_lt` — a move that goes on leaves less to do.
* `effort_finished_lt` — so does one that completes a step, short of a halt.
-/

namespace StoreForward.Site

variable {cap : Nat} {ε : Type} [Crew ε]

/-! ## Moves that go on -/

theorem effort_drain_lt (s : Site cap ε) (session : Nat) (sent : UInt32) {q : Point}
    (goesOn : (s.drain session sent).verdict = .goOn q) :
    (s.drain session sent).site.effort q < s.effort (.draining session sent) := by
  unfold drain at goesOn ⊢
  cases taken : s.link.outbox.take? with
  | none =>
      rw [taken] at goesOn
      cases goesOn
  | some p =>
      obtain ⟨batch, outbox⟩ := p
      rw [taken] at goesOn
      have length : s.link.outbox.length = outbox.length + 1 := Outbox.length_take? taken
      have busy : s.link.isIdle = false := Outbox.isEmpty_of_take? taken
      have less := effort_begin_lt _ _ _ 63 (fun failing _ => Nat.lt_of_le_of_lt
        (Nat.sub_le _ _) (Phase.rank_lt _ _ _)) goesOn
      refine Nat.lt_of_lt_of_le less ?_
      unfold effort rank
      rw [busy]
      show 128 * Crew.unrest s.crew + 64 * outbox.length + 63 ≤
        128 * Crew.unrest s.crew + 64 * s.link.outbox.length + 2
      rw [length]
      omega

theorem effort_settle_lt (s : Site cap ε) {q : Point} (resting : s.worker.phase = .idle)
    (goesOn : s.settle.verdict = .goOn q) : s.settle.site.effort q < s.effort .outset := by
  unfold settle at goesOn ⊢
  dsimp only at goesOn ⊢
  split at goesOn
  · rename_i idle
    rw [if_pos idle]
    cases goesOn
    obtain ⟨outbox, wakes, _, _, unrest⟩ :=
      setLowPower_fst { s with link := { s.link with wakes := .empty } } true
    unfold effort rank Link.queued at *
    rw [outbox, wakes, resting]
    dsimp only at unrest ⊢
    have above : 2 < Phase.rank s.link.isIdle s.link.status.failed .idle := by
      cases s.link.isIdle <;> cases s.link.status.failed <;> decide
    show _ + 64 * s.link.outbox.length + 2 < _
    omega
  · cases goesOn

/-- An answer goes on with the drain, or not at all. -/
theorem effort_receive_lt (s : Site cap ε) (job : Job) (answer : Answer) {q : Point}
    (goesOn : (s.receive job answer).verdict = .goOn q) :
    (s.receive job answer).site.effort q < s.effort (.waiting (.call job 0 answer)) := by
  cases job <;> cases answer <;> try cases goesOn
  rename_i session batch sent
  change (s.countPublished session batch sent).verdict = .goOn q at goesOn
  change (s.countPublished session batch sent).site.effort q < _
  unfold countPublished at goesOn ⊢
  split at goesOn
  · cases goesOn
  · rename_i small
    rw [if_neg small]
    cases goesOn
    show 128 * Crew.unrest s.crew + 64 * s.link.queued + (if s.link.isIdle then 34 else 2) <
      128 * Crew.unrest s.crew + 64 * s.link.queued +
        (Phase.rank s.link.isIdle _ .publish - 1)
    cases s.link.isIdle <;> simp [Phase.rank]

/-- A call at the outset of an action leaves less to do. What the worker
notes about itself before it calls makes no difference. -/
theorem effort_call_lt (s : Site cap ε) (job : Job) (events : List Event) (w : Worker)
    (phase : s.worker.phase = job.phase) {q : Point}
    (goesOn : (begin { s with worker := w } job events).verdict = .goOn q) :
    (begin { s with worker := w } job events).site.effort q < s.effort .outset := by
  refine effort_begin_lt { s with worker := w } job events (s.rank .outset)
    (fun failing told => ?_) goesOn
  show job.phase.rank s.link.isIdle (s.link.status.failed || failing) - 1 <
    s.worker.phase.rank s.link.isIdle s.link.status.failed
  rw [phase]
  refine Phase.rank_pred_lt _ _ _ ?_ fun connecting => told ?_
  · cases job <;> exact nofun
  · cases job <;> first | rfl | cases connecting

theorem effort_act_lt (s : Site cap ε) {q : Point}
    (goesOn : s.act.verdict = .goOn q) : s.act.site.effort q < s.effort .outset := by
  unfold act at goesOn ⊢
  cases phase : s.worker.phase with
  | start | ready | retrySession | fatal =>
      rw [phase] at goesOn
      cases goesOn
  | connectNetwork =>
      rw [phase] at goesOn
      exact s.effort_call_lt .start _ s.worker phase goesOn
  | syncTime =>
      rw [phase] at goesOn
      exact s.effort_call_lt .sync _ _ phase goesOn
  | connectSession =>
      rw [phase] at goesOn
      dsimp only at goesOn ⊢
      split at goesOn
      · cases goesOn
      · rename_i free
        rw [if_neg free]
        exact s.effort_call_lt .connect _ s.worker phase goesOn
  | publish =>
      rw [phase] at goesOn
      dsimp only at goesOn ⊢
      cases held : s.worker.session with
      | none =>
          rw [held] at goesOn
          cases goesOn
      | some session =>
          rw [held] at goesOn
          cases goesOn
          unfold effort rank
          rw [phase]
          show _ + (if s.link.isIdle then 34 else 2) < _
          cases s.link.isIdle <;> simp [Phase.rank]
  | closeSession =>
      rw [phase] at goesOn
      dsimp only at goesOn ⊢
      cases held : s.worker.session with
      | none =>
          rw [held] at goesOn
          cases goesOn
      | some session =>
          rw [held] at goesOn
          exact s.effort_call_lt (.close session) _ _ phase goesOn
  | disconnectNetwork =>
      rw [phase] at goesOn
      exact s.effort_call_lt .stop _ s.worker phase goesOn
  | idle =>
      rw [phase] at goesOn
      exact s.effort_settle_lt phase goesOn

/-- A move that goes on leaves less to do. -/
theorem effort_move_lt (s : Site cap ε) (p : Point) {q : Point}
    (goesOn : (s.move p).verdict = .goOn q) : (s.move p).site.effort q < s.effort p := by
  match p with
  | .outset => exact s.effort_act_lt goesOn
  | .draining session sent => exact s.effort_drain_lt session sent goesOn
  | .waiting (.call job 0 answer) => exact s.effort_receive_lt job answer goesOn
  | .waiting (.call job (polls + 1) answer) => cases goesOn
  | .waiting .parked =>
      change s.listen.verdict = _ at goesOn
      unfold listen at goesOn
      split at goesOn <;> cases goesOn

/-! ## Moves that complete a step -/

theorem effort_drain_finished_lt (s : Site cap ε) (session : Nat) (sent : UInt32)
    {phase : Phase} (done : (s.drain session sent).verdict = .finished phase) :
    (s.drain session sent).site.effort .outset < s.effort (.draining session sent) := by
  unfold drain at done ⊢
  cases taken : s.link.outbox.take? with
  | some p =>
      obtain ⟨batch, outbox⟩ := p
      rw [taken] at done
      exact absurd done (begin_ne_finished _ _ _ _)
  | none =>
      have idle : s.link.isIdle = true := (Outbox.take?_eq_none_iff _).mp taken
      have less := effort_leave_lt s s .publish (Nat.le_refl _) rfl (by
        show (s.link.isIdle || s.link.status.failed) = true
        rw [idle, Bool.true_or])
      rw [idle, show Phase.rank true s.link.status.failed .publish = 36 from rfl] at less
      show (s.leave .publish).effort .outset < 128 * Crew.unrest s.crew +
        64 * s.link.queued + (if s.link.isIdle then 34 else 2)
      rw [idle, if_pos rfl]
      omega

/-- A rest that is over without a batch leads to the next one. -/
theorem effort_rest_eq (s : Site cap ε) (idle : s.link.isIdle = true) :
    (s.leave .idle).effort .outset =
      128 * Crew.unrest s.crew + 64 * s.link.queued + 16 := by
  obtain ⟨crew, outbox, _, phase⟩ := s.enter_fst .idle (Phase.next .idle s.guards)
  have next : Phase.next .idle s.guards = .idle := if_pos idle
  unfold leave effort rank Link.queued Link.isIdle at *
  dsimp only
  rw [crew, outbox, phase, next, idle]
  rfl

/-- A rest that is skipped or over, with batches in the outbox. -/
theorem effort_rouse_lt (s : Site cap ε) (wakes : Fifo Wake cap)
    (busy : s.link.isIdle = false) :
    ((setLowPower { s with link := { s.link with wakes } } false).1.leave
      .idle).effort .outset + 3 < 128 * Crew.unrest s.crew + 64 * s.link.queued + 32 := by
  obtain ⟨outbox, _, _, _, unrest⟩ :=
    setLowPower_fst { s with link := { s.link with wakes } } false
  have less := effort_leave_lt s _ .idle unrest outbox (by
    show (!(setLowPower _ false).1.link.outbox.isEmpty) = true
    rw [outbox, Bool.not_eq_true']
    exact busy)
  rw [busy] at less
  exact less

theorem effort_settle_finished_lt (s : Site cap ε) {phase : Phase}
    (resting : s.worker.phase = .idle) (done : s.settle.verdict = .finished phase) :
    s.settle.site.effort .outset < s.effort .outset := by
  unfold settle at done ⊢
  dsimp only at done ⊢
  split at done
  · cases done
  · rename_i busy
    rw [if_neg busy]
    have empty : s.link.isIdle = false := Bool.eq_false_iff.mpr busy
    have less := s.effort_rouse_lt .empty empty
    rw [finish_site]
    unfold effort rank at less ⊢
    rw [resting, empty]
    exact Nat.lt_of_add_right_lt less

theorem effort_listen_lt (s : Site cap ε) {phase : Phase}
    (done : s.listen.verdict = .finished phase) :
    s.listen.site.effort .outset < s.effort (.waiting .parked) := by
  unfold listen at done ⊢
  cases taken : s.link.wakes.take? with
  | none =>
      rw [taken] at done
      cases done
  | some p =>
      obtain ⟨wake, wakes⟩ := p
      have posted : s.link.wakes.isEmpty = false := Fifo.isEmpty_of_take? taken
      show ((setLowPower { s with link := { s.link with wakes } } false).1.leave
        .idle).effort .outset < 128 * Crew.unrest s.crew + 64 * s.link.queued +
        (if s.link.wakes.isEmpty then 2 else if s.link.isIdle then 18 else 33)
      rw [posted]
      cases idle : s.link.isIdle with
      | true =>
          obtain ⟨outbox, _, _, _, unrest⟩ :=
            setLowPower_fst { s with link := { s.link with wakes } } false
          rw [effort_rest_eq _ ((congrArg Outbox.isEmpty outbox).trans idle)]
          unfold Link.queued
          rw [outbox]
          exact Nat.add_lt_add_of_le_of_lt (Nat.add_le_add_right
            (Nat.mul_le_mul_left _ unrest) _) (by decide)
      | false =>
          have less := s.effort_rouse_lt wakes idle
          exact Nat.lt_trans (Nat.lt_of_add_right_lt less) (Nat.lt_succ_self _)

omit [Crew ε] in
/-- What an answer other than that to a publish that succeeded leads to: a
site with the same outbox and crew, at which a failure is signalled if the
request was not part of tearing down. -/
theorem receive_finished (s : Site cap ε) (job : Job) (answer : Answer)
    {phase : Phase} (done : (s.receive job answer).verdict = .finished phase) :
    ∃ t : Site cap ε, (s.receive job answer).site = t.leave job.phase ∧
      t.crew = s.crew ∧ t.link.outbox = s.link.outbox ∧
      job.phase.descends t.guards = true ∧
      (job = .connect → t.link.status.failed = (s.link.status.failed || answer.isFailed)) := by
  cases job with
  | start =>
      cases answer with
      | ok => exact ⟨s, rfl, rfl, rfl, rfl, nofun⟩
      | failed => exact ⟨s.signal .networkStart, rfl, rfl, rfl, rfl, nofun⟩
  | sync =>
      cases answer with
      | ok => exact ⟨s, rfl, rfl, rfl, rfl, nofun⟩
      | failed => exact ⟨s.signal .timeSync, rfl, rfl, rfl, rfl, nofun⟩
  | connect =>
      cases answer with
      | ok => exact ⟨s.welcome.1, rfl, rfl, rfl, rfl, fun _ => (Bool.or_false _).symm⟩
      | failed =>
          exact ⟨s.signal .sessionConnect, rfl, rfl, rfl, rfl, fun _ => (Bool.or_true _).symm⟩
  | publish session batch sent =>
      cases answer with
      | ok =>
          change (s.countPublished session batch sent).verdict = _ at done
          unfold countPublished at done
          split at done <;> cases done
      | failed => exact ⟨s.signal .publish, rfl, rfl, rfl, Bool.or_true _, nofun⟩
  | close session =>
      cases answer with
      | ok => exact ⟨s, rfl, rfl, rfl, rfl, nofun⟩
      | failed => exact ⟨s.countTeardownFailure, rfl, rfl, rfl, rfl, nofun⟩
  | stop =>
      cases answer with
      | ok => exact ⟨s, rfl, rfl, rfl, rfl, nofun⟩
      | failed => exact ⟨s.countTeardownFailure, rfl, rfl, rfl, rfl, nofun⟩

theorem effort_receive_finished_lt (s : Site cap ε) (job : Job) (answer : Answer)
    {phase : Phase} (done : (s.receive job answer).verdict = .finished phase) :
    (s.receive job answer).site.effort .outset <
      s.effort (.waiting (.call job 0 answer)) := by
  obtain ⟨t, site, crew, outbox, down, failed⟩ := s.receive_finished job answer done
  have less := effort_leave_lt s t job.phase (Nat.le_of_eq (congrArg _ crew)) outbox down
  have same : job.phase.rank s.link.isIdle t.link.status.failed =
      job.phase.rank s.link.isIdle (s.link.status.failed || answer.isFailed) := by
    by_cases connecting : job = .connect
    · rw [failed connecting]
    · refine Phase.rank_congr ?_ _ _ _
      cases job <;> first | exact absurd rfl connecting | exact nofun
  rw [site]
  rw [same] at less
  show _ < _ + (_ - 1)
  omega

theorem effort_retry_lt (s : Site cap ε) (retrying : s.worker.phase = .retrySession) :
    s.retry.site.effort .outset < s.effort .outset := by
  have less := effort_leave_lt s
    ({ s with worker := s.worker.countRetry }.mapStatus
      fun st => { st.lower with retries := st.retries + 1 })
    .retrySession (Nat.le_refl _) rfl rfl
  unfold effort rank at less ⊢
  rw [retrying]
  exact Nat.lt_of_add_right_lt less

theorem effort_act_finished_lt (s : Site cap ε) {phase : Phase}
    (done : s.act.verdict = .finished phase) (live : phase.isTerminal = false) :
    s.act.site.effort .outset < s.effort .outset := by
  have stay (source : Phase) (here : s.worker.phase = source) (t : Site cap ε)
      (unrest : Crew.unrest t.crew ≤ Crew.unrest s.crew)
      (outbox : t.link.outbox = s.link.outbox) (down : source.descends t.guards = true)
      (plain : source ≠ .connectSession) :
      (t.leave source).effort .outset < s.effort .outset := by
    have less := effort_leave_lt s t source unrest outbox down
    rw [Phase.rank_congr plain _ _ s.link.status.failed] at less
    refine Nat.lt_of_lt_of_le (Nat.lt_of_add_right_lt less) ?_
    rw [← here]
    exact Nat.le_refl _
  unfold act at done ⊢
  cases here : s.worker.phase with
  | start | ready => exact stay _ here s (Nat.le_refl _) rfl rfl nofun
  | connectNetwork | syncTime | disconnectNetwork =>
      rw [here] at done
      exact absurd done (begin_ne_finished _ _ _ _)
  | connectSession =>
      rw [here] at done
      dsimp only at done
      split at done
      · cases done
      · exact absurd done (begin_ne_finished _ _ _ _)
  | publish =>
      rw [here] at done
      dsimp only at done ⊢
      cases held : s.worker.session with
      | none => exact stay _ here (s.signal .publish) (Nat.le_refl _) rfl (Bool.or_true _) nofun
      | some session =>
          rw [held] at done
          cases done
  | closeSession =>
      rw [here] at done
      dsimp only at done ⊢
      cases held : s.worker.session with
      | none => exact stay _ here s (Nat.le_refl _) rfl rfl nofun
      | some session =>
          rw [held] at done
          exact absurd done (begin_ne_finished _ _ _ _)
  | idle =>
      rw [here] at done
      exact s.effort_settle_finished_lt here done
  | retrySession => exact s.effort_retry_lt here
  | fatal =>
      rw [here] at done
      cases done
      cases live

/-- A step that is complete, short of a halt, leaves less to do. -/
theorem effort_finished_lt (s : Site cap ε) (p : Point) {phase : Phase}
    (done : (s.move p).verdict = .finished phase) (live : phase.isTerminal = false) :
    (s.move p).site.effort .outset < s.effort p := by
  match p with
  | .outset => exact s.effort_act_finished_lt done live
  | .draining session sent => exact s.effort_drain_finished_lt session sent done
  | .waiting (.call job 0 answer) => exact s.effort_receive_finished_lt job answer done
  | .waiting (.call job (polls + 1) answer) => cases done
  | .waiting .parked => exact s.effort_listen_lt done

end StoreForward.Site
