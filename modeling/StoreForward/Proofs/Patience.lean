import StoreForward.Proofs.Rest

/-!
# Patience

A crew may keep its worker waiting for any number of polls before it answers.
The worker is then suspended wherever it stands: with the session given up and
not yet closed, with a batch in hand in the middle of a drain. When it is polled
again it goes on from there, and what it counts and holds in the course of an
action has to survive.

Such waiting makes no difference. `hasten` takes it out of everything that a
crew has in store. Every move commutes with it, except those that only wait,
and these do nothing (`Site.move_hasten`). So a worker that is polled until it
no longer waits for its crew does what it does in a single poll with the crew
hastened (`perform_hasten`), and crews that differ only in how long they keep
it waiting cannot be told apart. That the polling comes to an end is because
each poll that is in vain uses up some of the waiting that the crew has in
store (`World.delay`).

## Main definitions

* `Script.hasten` — the crew that answers without making its worker wait.
* `World.perform` — a step or a run, polled until it waits for no crew.

## Main results

* `Site.poll_hasten` — one poll with the hastened crew goes all the way.
* `World.perform_hasten` — patience and haste lead to the same end.
* `suspension_is_transparent` — waiting makes no difference.
-/

namespace StoreForward

variable {cap : Nat}

/-! ## Haste -/

/-- The response without the wait. -/
def Response.hasten (r : Response) : Response := { r with polls := 0 }

/-- The crew that handles every request in the same way, and answers without
making its worker wait. -/
def Script.hasten (s : Script) : Script where
  start := s.start.map Response.hasten
  stop := s.stop.map Response.hasten
  sync := s.sync.map Response.hasten
  connect := s.connect.map Response.hasten
  publish := s.publish.map Response.hasten
  close := s.close.map Response.hasten

/-- The same site with its crew hastened. -/
def Site.hasten (s : Site cap Script) : Site cap Script := { s with crew := s.crew.hasten }

/-- The same point, with the answer that is waited for due at once. -/
def Point.hasten : Point → Point
  | .waiting (.call job _ answer) => .waiting (.call job 0 answer)
  | p => p

def Verdict.hasten : Verdict → Verdict
  | goOn q => goOn q.hasten
  | v => v

def Move.hasten (m : Move cap Script) : Move cap Script :=
  ⟨m.site.hasten, m.events, m.verdict.hasten⟩

namespace Script

theorem draw_hasten (rs : List Response) :
    draw (rs.map Response.hasten) = ((draw rs).1.hasten, (draw rs).2.map Response.hasten) := by
  cases rs <;> rfl

theorem respond_hasten (s : Script) (request : Request) :
    s.hasten.respond request =
      ((s.respond request).1.hasten, (s.respond request).2.hasten) := by
  cases request <;> simp only [respond, hasten, draw_hasten]

end Script

namespace Site

variable (s : Site cap Script)

@[simp] theorem link_hasten : s.hasten.link = s.link := rfl

@[simp] theorem worker_hasten : s.hasten.worker = s.worker := rfl

theorem enter_hasten (source target : Phase) :
    s.hasten.enter source target =
      ((s.enter source target).1.hasten, (s.enter source target).2) := by
  cases target <;> rfl

theorem finish_hasten (source : Phase) (notes : List Event) :
    s.hasten.finish source notes = (s.finish source notes).hasten := by
  have entered := s.enter_hasten source (source.next s.guards)
  show Move.mk (s.hasten.enter source (source.next s.guards)).1
    (notes ++ (s.hasten.enter source (source.next s.guards)).2) _ = _
  rw [entered]
  rfl

theorem begin_hasten (job : Job) (notes : List Event) :
    s.hasten.begin job notes = (s.begin job notes).hasten := by
  have reaction : Crew.react s.hasten.crew job.request =
      ((s.crew.respond job.request).1.hasten, .ok (s.crew.respond job.request).2.hasten) := by
    show ((s.crew.hasten.respond job.request).1,
      Except.ok (s.crew.hasten.respond job.request).2) = _
    rw [s.crew.respond_hasten]
  unfold begin
  rw [reaction]
  rfl

theorem setLowPower_hasten (allowed : Bool) :
    s.hasten.setLowPower allowed =
      ((s.setLowPower allowed).1.hasten, (s.setLowPower allowed).2) := by
  unfold setLowPower
  rw [worker_hasten]
  by_cases same : s.worker.lowPower = allowed
  · rw [if_pos same, if_pos same]
  · rw [if_neg same, if_neg same]
    rfl

theorem conclude_hasten (job : Job) (answer : Answer) :
    s.hasten.conclude job answer = (s.conclude job answer).hasten := by
  have plain {es : List Event} (success : job.success? = some es) :
      s.hasten.conclude job .ok = (s.conclude job .ok).hasten := by
    rw [s.conclude_plain success, s.hasten.conclude_plain success]
    exact s.finish_hasten job.phase es
  cases answer with
  | failed error =>
      rw [conclude_failed, conclude_failed]
      exact (s.mapStatus (·.blame job)).finish_hasten job.phase _
  | ok =>
      cases job with
      | start | sync | close _ | stop => exact plain rfl
      | connect => exact s.welcome.1.finish_hasten .connectSession [.noticed s.welcome.2]
      | publish session batch sent =>
          show s.hasten.countPublished session batch sent =
            (s.countPublished session batch sent).hasten
          unfold countPublished
          by_cases full : sent = 0xffffffff
          · rw [if_pos full, if_pos full]
            rfl
          · rw [if_neg full, if_neg full]
            rfl

theorem drain_hasten (session : Nat) (sent : UInt32) :
    s.hasten.drain session sent = (s.drain session sent).hasten := by
  unfold drain
  rw [link_hasten]
  cases s.link.outbox.take? with
  | none => exact s.finish_hasten .publish _
  | some pair => exact begin_hasten { s with link := { s.link with outbox := pair.2 } } _ _

theorem settle_hasten : s.hasten.settle = s.settle.hasten := by
  let cleared : Site cap Script := { s with link := { s.link with wakes := .empty } }
  by_cases idle : cleared.link.isIdle = true
  · have rests : s.settle = ⟨(cleared.setLowPower true).1,
        discarding s.link.wakes.length ++ (cleared.setLowPower true).2 ++ [.noticed .resting],
        .goOn (.waiting .parked)⟩ := if_pos idle
    have hastens : s.hasten.settle = ⟨(cleared.hasten.setLowPower true).1,
        discarding s.link.wakes.length ++ (cleared.hasten.setLowPower true).2 ++
          [.noticed .resting], .goOn (.waiting .parked)⟩ := if_pos idle
    rw [rests, hastens, cleared.setLowPower_hasten]
    rfl
  · have skips : s.settle = (cleared.setLowPower false).1.finish .idle
        ((cleared.setLowPower false).2 ++
          [.noticed (.restSkipped (cleared.setLowPower false).1.link.queued)]) := if_neg idle
    have hastens : s.hasten.settle = (cleared.hasten.setLowPower false).1.finish .idle
        ((cleared.hasten.setLowPower false).2 ++
          [.noticed (.restSkipped (cleared.hasten.setLowPower false).1.link.queued)]) :=
      if_neg idle
    rw [skips, hastens, cleared.setLowPower_hasten]
    exact (cleared.setLowPower false).1.finish_hasten .idle _

theorem listen_hasten : s.hasten.listen = s.listen.hasten := by
  unfold listen
  rw [link_hasten]
  cases s.link.wakes.take? with
  | none => rfl
  | some pair =>
      obtain ⟨wake, wakes⟩ := pair
      let found : Site cap Script := { s with link := { s.link with wakes } }
      have awake := found.setLowPower_hasten false
      show (found.hasten.setLowPower false).1.finish .idle ((found.hasten.setLowPower false).2 ++
        [.noticed (.woken wake (found.hasten.setLowPower false).1.link.queued)]) = _
      rw [awake]
      exact (found.setLowPower false).1.finish_hasten .idle _

theorem act_hasten : s.hasten.act = s.act.hasten := by
  unfold act
  rw [worker_hasten]
  cases s.worker.phase with
  | start => exact s.finish_hasten .start []
  | ready => exact s.finish_hasten .ready []
  | connectNetwork => exact s.begin_hasten .start _
  | disconnectNetwork => exact s.begin_hasten .stop []
  | syncTime =>
      exact begin_hasten { s with worker := { s.worker with syncDue := false } } .sync _
  | connectSession =>
      dsimp only
      by_cases held : s.worker.session.isSome = true
      · rw [if_pos held, if_pos held]
        rfl
      · rw [if_neg held, if_neg held]
        exact s.begin_hasten .connect []
  | publish =>
      cases s.worker.session with
      | none => exact (s.signal .publish).finish_hasten .publish _
      | some session => rfl
  | closeSession =>
      cases s.worker.session with
      | none => exact s.finish_hasten .closeSession _
      | some session =>
          exact begin_hasten { s with worker := { s.worker with session := none } } _ []
  | idle => exact s.settle_hasten
  | retrySession =>
      let counted : Site cap Script := { s with worker := s.worker.countRetry }.mapStatus
        fun st => { st.lower with retries := st.retries + 1 }
      exact counted.finish_hasten .retrySession _
  | fatal => rfl

/-- A move is the same in haste, unless it does nothing but wait for the
crew. -/
theorem move_hasten (p : Point)
    (due : ∀ job polls answer, (s.move p).verdict ≠ .suspended (.call job polls answer)) :
    s.hasten.move p.hasten = (s.move p).hasten := by
  match p with
  | .outset =>
      show Move.mk s.hasten.act.site (s.opening ++ s.hasten.act.events) s.hasten.act.verdict = _
      rw [s.act_hasten]
      rfl
  | .draining session sent => exact s.drain_hasten session sent
  | .waiting (.call job 0 answer) =>
      show Move.mk (s.hasten.conclude job answer).site
        (.answered job.request answer :: (s.hasten.conclude job answer).events)
        (s.hasten.conclude job answer).verdict = _
      rw [s.conclude_hasten]
      rfl
  | .waiting (.call job (polls + 1) answer) => exact absurd rfl (due job polls answer)
  | .waiting .parked => exact s.listen_hasten

end Site

/-! ## One poll in haste -/

/-- What a poll comes to if the crew no longer keeps the worker waiting. -/
def Polled.hasten (mode : Mode) (o : Polled cap Script) : Polled cap Script :=
  match o.progress with
  | .pending (.call job _ answer) =>
    (o.site.hasten.poll mode (.waiting (.call job 0 answer))).after o.events
  | progress => ⟨o.site.hasten, o.events, progress⟩

theorem Polled.hasten_after (mode : Mode) (o : Polled cap Script) (es : List Event) :
    (o.after es).hasten mode = (o.hasten mode).after es := by
  obtain ⟨site, events, progress⟩ := o
  cases progress with
  | pending suspension =>
      cases suspension with
      | call job polls answer =>
          exact (Polled.after_after _ events es).symm
      | parked => rfl
  | stepped _ | halted _ | violated _ => rfl

/-- One poll with the crew hastened does what the poll does, and goes on where
that has to wait for the crew. -/
theorem Site.poll_hasten (mode : Mode) (s : Site cap Script) (p : Point) :
    s.hasten.poll mode p.hasten = (s.poll mode p).hasten mode := by
  -- what a move leads to is the same in haste
  have hastened {s : Site cap Script} {p : Point} {verdict : Verdict}
      (leads : (s.move p).verdict = verdict)
      (due : ∀ job polls answer, verdict ≠ .suspended (.call job polls answer)) :
      s.hasten.move p.hasten = ⟨(s.move p).site.hasten, (s.move p).events, verdict.hasten⟩ := by
    subst leads
    exact s.move_hasten p due
  induction mode, s, p using Site.poll.induct with
  | case1 mode s p q goOn ih =>
      have move := hastened goOn (by simp)
      rw [poll_of_goOn goOn, poll_of_goOn (congrArg Move.verdict move), Polled.hasten_after, ← ih,
        move]
  | case2 mode s p suspension suspended =>
      cases suspension with
      | parked =>
          have move := hastened suspended (by simp)
          rw [poll_of_suspended suspended, poll_of_suspended (congrArg Move.verdict move), move]
          rfl
      | call job polls answer =>
          rw [poll_of_suspended suspended]
          have moved := s.moved p
          generalize s.move p = m at moved suspended ⊢
          cases moved with
          | waits here =>
              cases suspended
              rw [here]
              rfl
          | _ => cases suspended
  | case3 mode s p violation violated =>
      have move := hastened violated (by simp)
      rw [poll_of_violated violated, poll_of_violated (congrArg Move.verdict move), move]
      rfl
  | case4 s p phase finished =>
      have move := hastened finished (by simp)
      rw [poll_step_of_finished finished, poll_step_of_finished (congrArg Move.verdict move), move]
      rfl
  | case5 s p phase finished live ih =>
      have move := hastened finished (by simp)
      rw [poll_run_of_finished finished live,
        poll_run_of_finished (congrArg Move.verdict move) live, Polled.hasten_after, ← ih, move]
      rfl
  | case6 s p phase finished halt =>
      have move := hastened finished (by simp)
      have halted : phase.isTerminal = true := (Bool.not_eq_false _).mp halt
      rw [poll_run_of_halted finished halted,
        poll_run_of_halted (congrArg Move.verdict move) halted, move]
      rfl

/-! ## How long a crew can keep its worker waiting -/

namespace Script

/-- The waiting in some responses to come. -/
def waits : List Response → Nat
  | [] => 0
  | r :: rest => r.polls + waits rest

/-- The waiting that a crew has in store. -/
def delay (s : Script) : Nat :=
  waits s.start + waits s.stop + waits s.sync + waits s.connect + waits s.publish + waits s.close

theorem waits_draw (rs : List Response) : waits (draw rs).2 + (draw rs).1.polls = waits rs := by
  cases rs with
  | nil => rfl
  | cons r rest => exact Nat.add_comm _ _

/-- The waiting that comes with a response is no longer in store. -/
theorem delay_respond (s : Script) (request : Request) :
    (s.respond request).1.delay + (s.respond request).2.polls = s.delay := by
  have start := waits_draw s.start
  have stop := waits_draw s.stop
  have sync := waits_draw s.sync
  have connect := waits_draw s.connect
  have publish := waits_draw s.publish
  have close := waits_draw s.close
  cases request <;> simp only [delay, respond] <;> omega

theorem delay_react {s after : Script} {request : Request} {r : Response}
    (reaction : Crew.react s request = (after, .ok r)) : after.delay + r.polls = s.delay := by
  obtain ⟨rfl, same⟩ := Prod.mk.inj reaction
  cases same
  exact s.delay_respond request

theorem delay_spared {s after : Script} (spared : Spared s after) : after.delay = s.delay := by
  rcases spared with rfl | ⟨_, rfl⟩ <;> rfl

end Script

/-- The waiting that is left before the answer that is waited for. -/
def Point.delay : Point → Nat
  | .waiting (.call _ polls _) => polls
  | _ => 0

namespace Site

/-- A move that a poll goes on from adds no waiting. -/
theorem delay_move_le {mode : Mode} (s : Site cap Script) (p : Point)
    (onward : (s.move p).verdict.goesOn mode = true) :
    (s.move p).site.crew.delay + (s.move p).verdict.next.delay ≤ s.crew.delay + p.delay := by
  have moved := s.moved p
  generalize s.move p = m at moved onward ⊢
  cases moved with
  | asked reaction =>
      have stored := Script.delay_react reaction
      exact Nat.le_trans (Nat.le_of_eq stored) (Nat.le_add_right _ _)
  | drains spared | parks spared | finishes spared _ _ =>
      have stored := Script.delay_spared spared
      exact Nat.le_trans (Nat.le_of_eq stored) (Nat.le_add_right _ _)
  | misused _ | waits _ | rests _ _ | refused _ _ | overflown _ => cases onward

theorem Driven.delay_le {mode : Mode} {s t : Site cap Script} {p q : Point} {es : List Event}
    (driven : s.Driven mode p es t q) : t.crew.delay + q.delay ≤ s.crew.delay + p.delay := by
  induction driven with
  | stay s p => exact Nat.le_refl _
  | @move s t p q es onward _ ih => exact Nat.le_trans ih (s.delay_move_le p onward)

/-- A poll that ends with waiting for the crew has used up some of the
waiting. -/
theorem delay_poll_lt {mode : Mode} {s : Site cap Script} {p : Point} {job : Job} {polls : Nat}
    {answer : Answer} (waits : (s.poll mode p).progress = .pending (.call job polls answer)) :
    (s.poll mode p).site.crew.delay + polls < s.crew.delay + p.delay := by
  obtain ⟨es, t, q, progress, driven, poll, ends⟩ := s.poll_driven mode p
  have drive := driven.delay_le
  rw [poll] at waits ⊢
  dsimp only at waits ⊢
  have moved := t.moved q
  generalize t.move q = m at moved ends ⊢
  subst waits
  cases moved with
  | waits here =>
      cases ends
      subst here
      exact Nat.lt_of_lt_of_le (Nat.add_lt_add_left (Nat.lt_succ_self polls) _) drive
  | _ => cases ends

end Site

/-! ## Patience -/

/-- The worker waits for its crew. -/
def Reply.isAwaiting : Reply → Bool
  | .progress (.pending (.call _ _ _)) => true
  | _ => false

theorem Reply.pending_of_isAwaiting {r : Reply} (awaits : r.isAwaiting = true) :
    ∃ job polls answer, r = .progress (.pending (.call job polls answer)) := by
  unfold isAwaiting at awaits
  split at awaits
  · exact ⟨_, _, _, rfl⟩
  · cases awaits

namespace World

/-- The waiting that is left for a worker. -/
def delay (w : World cap Script) (id : Nat) : Nat :=
  match w.station? id with
  | some s => s.crew.delay + s.post.point.delay
  | none => 0

theorem delay_of_station? {w : World cap Script} {id : Nat} {s : Station Script}
    (here : w.station? id = some s) : w.delay id = s.crew.delay + s.post.point.delay := by
  unfold delay
  rw [here]

/-- What is left of the waiting after a poll of a worker. -/
theorem delay_absorb {w : World cap Script} {id : Nat} {s : Station Script}
    (here : w.station? id = some s) (mode : Mode) {o : Polled cap Script} {job : Job}
    {polls : Nat} {answer : Answer} (waits : o.progress = .pending (.call job polls answer)) :
    (w.absorb id mode o).world.delay id = o.site.crew.delay + polls := by
  obtain ⟨held, there, holds, _⟩ := station?_absorb here mode o
  rw [delay_of_station? there, holds _ waits]
  rfl

/-- What polls a worker in vain leaves less waiting. -/
theorem delay_polls_lt {w : World cap Script} {op : Op Script} {id : Nat} {s : Station Script}
    {mode : Mode} (here : w.station? id = some s) (polls : op.Polls id s mode)
    (awaits : (w.apply op).reply.isAwaiting = true) :
    (w.apply op).world.delay id < w.delay id := by
  obtain ⟨job, left, answer, reply⟩ := Reply.pending_of_isAwaiting awaits
  rw [apply_polls here polls] at reply ⊢
  have waits : ((w.site s).poll mode s.post.point).progress = .pending (.call job left answer) :=
    Reply.progress.inj reply
  have less := Site.delay_poll_lt waits
  rw [delay_of_station? here, delay_absorb here mode (by exact waits)]
  exact less

theorem delay_apply_lt (w : World cap Script) (id : Nat)
    (awaits : (w.apply (.poll id)).reply.isAwaiting = true) :
    (w.apply (.poll id)).world.delay id < w.delay id := by
  obtain ⟨job, left, answer, reply⟩ := Reply.pending_of_isAwaiting awaits
  obtain ⟨_, s, mode, here, polls⟩ := polls_of_progress reply
  cases polls with
  | again held => exact delay_polls_lt here (.again held) awaits

/-- Poll a worker until it no longer waits for its crew. -/
def await (id : Nat) (w : World cap Script) : Outcome cap Script :=
  if _awaits : (w.apply (.poll id)).reply.isAwaiting = true then
    (await id (w.apply (.poll id)).world).after (w.apply (.poll id)).entries
  else w.apply (.poll id)
termination_by w.delay id
decreasing_by exact w.delay_apply_lt id ‹_›

end World

/-- The outcome of an operation, and if the worker waits for its crew then, of
polling it until it no longer does. -/
def Outcome.patiently (o : Outcome cap Script) (id : Nat) : Outcome cap Script :=
  if o.reply.isAwaiting then (o.world.await id).after o.entries else o

namespace World

/-- Patience ends when there is nothing to wait for. -/
theorem isAwaiting_await (w : World cap Script) (id : Nat) :
    (w.await id).reply.isAwaiting = false := by
  induction w using await.induct id with
  | case1 w awaits ih =>
      rw [await, dif_pos awaits]
      exact ih
  | case2 w ends =>
      rw [await, dif_neg ends]
      exact Bool.eq_false_iff.mpr ends

theorem await_eq (w : World cap Script) (id : Nat) :
    w.await id = (w.apply (.poll id)).patiently id := by
  rw [await]
  rfl

/-- Start a step or a run of a worker, and poll it until it no longer waits for
its crew. -/
def perform (w : World cap Script) (id : Nat) (mode : Mode) : Outcome cap Script :=
  (w.apply (.launch id mode)).patiently id

theorem isAwaiting_perform (w : World cap Script) (id : Nat) (mode : Mode) :
    (w.perform id mode).reply.isAwaiting = false := by
  unfold perform Outcome.patiently
  by_cases awaits : (w.apply (.launch id mode)).reply.isAwaiting = true
  · rw [if_pos awaits]
    exact isAwaiting_await _ id
  · rw [if_neg awaits]
    exact Bool.eq_false_iff.mpr awaits

end World

/-! ## Worlds in haste -/

def Station.hasten (s : Station Script) : Station Script := { s with crew := s.crew.hasten }

/-- The same world with all crews hastened. -/
def World.hasten (w : World cap Script) : World cap Script :=
  { w with stations := w.stations.map (Option.map Station.hasten) }

def Outcome.hasten (o : Outcome cap Script) : Outcome cap Script :=
  { o with world := o.world.hasten }

theorem Outcome.hasten_after (o : Outcome cap Script) (before : List Entry) :
    (o.after before).hasten = o.hasten.after before := rfl

theorem Outcome.patiently_after (o : Outcome cap Script) (before : List Entry) (id : Nat) :
    (o.after before).patiently id = (o.patiently id).after before := by
  unfold patiently
  by_cases awaits : o.reply.isAwaiting = true
  · rw [if_pos awaits, Outcome.after_after]
    exact if_pos awaits
  · rw [if_neg awaits]
    exact if_neg awaits

namespace World

theorem station?_hasten (w : World cap Script) (id : Nat) :
    w.hasten.station? id = (w.station? id).map Station.hasten := by
  unfold station? hasten
  rw [List.getElem?_map]
  cases w.stations[id]? with
  | none => rfl
  | some place => cases place <;> rfl

/-- Workers stand where they stood. -/
theorem posts_hasten (w : World cap Script) : w.hasten.posts = w.posts := by
  unfold posts hasten
  rw [List.map_map]
  refine List.map_congr_left fun place _ => ?_
  cases place <;> rfl

theorem absorb_hasten (w : World cap Script) (id : Nat) (mode : Mode) (o : Polled cap Script) :
    (w.absorb id mode o).hasten =
      w.hasten.absorb id mode ⟨o.site.hasten, o.events, o.progress⟩ := by
  unfold absorb place Outcome.hasten hasten
  dsimp only
  rw [List.map_set]
  rfl

/-- What a poll of a worker that waits for its crew leads to, after the poll that
left it waiting. -/
theorem poll_absorb {w : World cap Script} {id : Nat} {s : Station Script}
    (here : w.station? id = some s) (mode : Mode) (t : Site cap Script) (es : List Event)
    (suspension : Suspension) :
    (w.absorb id mode ⟨t, es, .pending suspension⟩).world.apply (.poll id) =
      w.absorb id mode (t.poll mode (.waiting suspension)) := by
  obtain ⟨held, there, holds, _⟩ := station?_absorb here mode ⟨t, es, .pending suspension⟩
  have waits : held = some (mode, suspension) := holds suspension rfl
  subst waits
  have again := apply_polls there (.again rfl)
  exact again.trans (absorb_absorb w id mode _ _)

/-- Patience after a poll leads where one poll in haste leads. -/
theorem patiently_absorb {w : World cap Script} {id : Nat} {s : Station Script}
    (here : w.station? id = some s) (mode : Mode) (t : Site cap Script) (p : Point) :
    ((w.absorb id mode (t.poll mode p)).patiently id).hasten =
      w.hasten.absorb id mode (t.hasten.poll mode p.hasten) := by
  -- a poll in vain leaves less of the waiting
  induction left : t.crew.delay + p.delay using Nat.strongRecOn generalizing t p with
  | ind left ih =>
      subst left
      have less : ∀ job polls answer, (t.poll mode p).progress = .pending (.call job polls answer) →
          (t.poll mode p).site.crew.delay + polls < t.crew.delay + p.delay :=
        fun _ _ _ => Site.delay_poll_lt
      rw [t.poll_hasten mode p]
      generalize t.poll mode p = o at less ⊢
      obtain ⟨u, es, progress⟩ := o
      by_cases awaits : (Reply.progress progress).isAwaiting = true
      · obtain ⟨job, polls, answer, reply⟩ := Reply.pending_of_isAwaiting awaits
        cases Reply.progress.inj reply
        have onward := ih _ (less job polls answer rfl) u (.waiting (.call job polls answer)) rfl
        have patient : (w.absorb id mode ⟨u, es, .pending (.call job polls answer)⟩).patiently id =
            ((w.absorb id mode (u.poll mode (.waiting (.call job polls answer)))).patiently
              id).after (entries (.worker id) es) := by
          rw [← poll_absorb here mode u es, ← await_eq]
          exact if_pos awaits
        rw [patient, Outcome.hasten_after, onward]
        exact (w.hasten.absorb_after id mode _ es).symm
      · have ends : (w.absorb id mode ⟨u, es, progress⟩).patiently id =
            w.absorb id mode ⟨u, es, progress⟩ := if_neg awaits
        have same : Polled.hasten mode ⟨u, es, progress⟩ = ⟨u.hasten, es, progress⟩ := by
          cases progress with
          | pending suspension =>
              cases suspension with
              | call _ _ _ => exact absurd rfl awaits
              | parked => rfl
          | stepped _ | halted _ | violated _ => rfl
        rw [ends, same]
        exact w.absorb_hasten id mode ⟨u, es, progress⟩

/-- What a patient worker does is what it does at once with the crew hastened. -/
theorem perform_hasten (w : World cap Script) (id : Nat) (mode : Mode) :
    (w.perform id mode).hasten = w.hasten.apply (.launch id mode) := by
  have there := w.station?_hasten id
  unfold perform
  cases here : w.station? id with
  | none =>
      rw [here] at there
      have absent : w.apply (.launch id mode) = ⟨w, .absent, []⟩ := by
        simp only [apply, here]
      have absent' : w.hasten.apply (.launch id mode) = ⟨w.hasten, .absent, []⟩ := by
        simp only [apply, there, Option.map_none]
      rw [absent, absent']
      rfl
  | some s =>
      rw [here] at there
      cases held : s.held with
      | some pair =>
          have busy : w.apply (.launch id mode) = ⟨w, .busy, []⟩ := by
            simp only [apply, here, held]
          have busy' : w.hasten.apply (.launch id mode) = ⟨w.hasten, .busy, []⟩ := by
            simp only [apply, there, Option.map_some, Station.hasten, held]
          rw [busy, busy']
          rfl
      | none =>
          have patient := patiently_absorb here mode (w.site s) .outset
          have free : s.hasten.held = none := held
          rw [apply_polls here (.fresh held), Station.point_of_free held, absorb_after,
            Outcome.patiently_after, Outcome.hasten_after, patient,
            apply_polls there (.fresh free), Station.point_of_free free, absorb_after]
          rfl

end World

/-! ## Transparency -/

/-- **Suspension is transparent.** In two worlds that differ only in how long the
crews keep their workers waiting, a worker starts a step, or a run, and is polled
until it no longer waits for its crew: it has completed the step, has halted,
has failed a check, or rests. The last reply is then the same in both worlds,
and so are all requests, answers, hints and notices on the way, in order; and
the worlds differ as little as before. It is also what a single poll comes to
if no crew keeps its worker waiting at all. -/
theorem suspension_is_transparent {w v : World cap Script} (alike : w.hasten = v.hasten)
    (id : Nat) (mode : Mode) :
    let one := w.perform id mode
    let other := v.perform id mode
    one.reply = other.reply ∧ one.entries = other.entries ∧
      one.world.link = other.world.link ∧ one.world.posts = other.world.posts ∧
      one.world.hasten = other.world.hasten ∧ one.reply.isAwaiting = false ∧
      one.hasten = w.hasten.apply (.launch id mode) := by
  intro one other
  have first : one.hasten = w.hasten.apply (.launch id mode) := w.perform_hasten id mode
  have second : other.hasten = v.hasten.apply (.launch id mode) := v.perform_hasten id mode
  have same : one.hasten = other.hasten := by
    rw [first, second, alike]
  have reply : one.hasten.reply = other.hasten.reply := congrArg Outcome.reply same
  have entries : one.hasten.entries = other.hasten.entries := congrArg Outcome.entries same
  have world : one.hasten.world = other.hasten.world := congrArg Outcome.world same
  have link : one.world.hasten.link = other.world.hasten.link := congrArg World.link world
  have posts : one.world.hasten.posts = other.world.hasten.posts := congrArg World.posts world
  rw [World.posts_hasten, World.posts_hasten] at posts
  exact ⟨reply, entries, link, posts, world, w.isAwaiting_perform id mode, first⟩

/-- One crew is late with the session and in the middle of the drain, the other
with the second batch and the close. The run goes the same way. -/
theorem suspension_is_transparent_draining :
    let world (crew : Script) : World 2 Script :=
      World.after 2 [.boot {} crew, .offer (.tagged 7), .offer (.tagged 8)]
    let w := world { connect := [{ polls := 2 }], publish := [{ polls := 1 }, {}], close := [{}] }
    let v := world { connect := [{}], publish := [{}, { polls := 3 }], close := [{ polls := 1 }] }
    w.hasten = v.hasten ∧ (w.apply (.launch 0 .run)).reply.isAwaiting = true ∧
      (w.perform 0 .run).reply = .progress (.pending .parked) ∧
      (v.perform 0 .run).reply = .progress (.pending .parked) ∧
      (v.perform 0 .run).entries = (w.perform 0 .run).entries ∧
      handed (events (v.perform 0 .run).entries) = [.tagged 7, .tagged 8] := by
  intro world w v
  have alike : w.hasten = v.hasten := rfl
  obtain ⟨reply, entries, _⟩ := suspension_is_transparent alike 0 .run
  have rests : (w.perform 0 .run).reply = .progress (.pending .parked) := by
    decide +kernel
  have hands : handed (events (w.perform 0 .run).entries) = [.tagged 7, .tagged 8] := by
    decide +kernel
  refine ⟨alike, by decide +kernel, rests, reply ▸ rests, entries.symm, ?_⟩
  rw [← entries]
  exact hands

end StoreForward
