import StoreForward.Proofs.Blame
import StoreForward.Proofs.Rest

/-!
# Recovery

Failures, abandoned steps and late answers can leave a worker anywhere: in
`publish` with an empty outbox, in `closeSession` without a session, in
`syncTime` with the synchronisation no longer due, with the network up or
half up. As long as it has not halted and may still retry, none of this
matters once its crew answers every request at once and with success. One
poll of a run then publishes what is waiting and what arrives meanwhile, takes
everything down again and comes to rest.

That it comes to rest is a matter of elimination: there are three ways in
which the poll can end, and a crew that answers at once leaves nothing to
wait for. Nor can the worker halt, because it stays `Fit`: the failure signal
is down, except before the retry that lowers it, and nothing is left to raise
it. What has been published follows from the order of delivery, since every
batch handed over in the poll is also published in it.

## Main definitions

* `Script.Smooth` — a crew that answers at once and with success.
* `Fit` — a worker that no failure is ahead of.
* `delivered` — the batches published, in order.

## Main results

* `Fit.turn` — with such a crew a worker stays fit.
* `Turn.delivers` — what is handed over is delivered.
* `recovery` — one poll of a run delivers everything and comes to rest.
-/

namespace StoreForward

variable {cap : Nat}

/-! ## Crews that answer at once and with success -/

/-- The request succeeds at once, whatever comes with the answer. -/
def Response.Smooth (r : Response) : Prop := r.polls = 0 ∧ r.answer = .ok

namespace Script

/-- What a script has left, for all kinds of requests. -/
def responses (s : Script) : List Response :=
  s.start ++ s.stop ++ s.sync ++ s.connect ++ s.publish ++ s.close

/-- Every request to come succeeds at once. -/
def Smooth (s : Script) : Prop := ∀ r ∈ s.responses, r.Smooth

instance (s : Script) : Decidable s.Smooth :=
  inferInstanceAs (Decidable (∀ r ∈ s.responses, r.polls = 0 ∧ r.answer = .ok))

/-- What is drawn is at the head of the list, unless nothing is left there. -/
theorem mem_draw (rs : List Response) :
    ((draw rs).1 = .prompt ∨ (draw rs).1 ∈ rs) ∧ ∀ r ∈ (draw rs).2, r ∈ rs := by
  cases rs with
  | nil => exact ⟨.inl rfl, fun _ there => there⟩
  | cons r rest => exact ⟨.inr List.mem_cons_self, fun _ there => List.mem_cons_of_mem _ there⟩

theorem mem_respond (s : Script) (request : Request) :
    ((s.respond request).2 = .prompt ∨ (s.respond request).2 ∈ s.responses) ∧
      ∀ r ∈ (s.respond request).1.responses, r ∈ s.responses := by
  have start := mem_draw s.start
  have stop := mem_draw s.stop
  have sync := mem_draw s.sync
  have connect := mem_draw s.connect
  have publish := mem_draw s.publish
  have close := mem_draw s.close
  cases request <;> simp only [respond, responses, List.mem_append] <;> grind

/-- A request to a crew with which everything succeeds leaves it so. -/
theorem Smooth.respond {s : Script} (smooth : s.Smooth) (request : Request) :
    (s.respond request).1.Smooth ∧ (s.respond request).2.Smooth := by
  obtain ⟨first, rest⟩ := s.mem_respond request
  refine ⟨fun r there => smooth r (rest r there), ?_⟩
  rcases first with none | there
  · rw [none]
    exact ⟨rfl, rfl⟩
  · exact smooth _ there

/-- The reaction of such a crew. -/
theorem Smooth.react {s after : Script} {request : Request} {r : Response} (smooth : s.Smooth)
    (reaction : Crew.react s request = (after, .ok r)) : after.Smooth ∧ r.Smooth := by
  obtain ⟨rfl, same⟩ := Prod.mk.inj reaction
  cases same
  exact smooth.respond request

end Script

/-- If an answer is waited for, it is a success and due. -/
def Point.Prompt : Point → Prop
  | .waiting (.call _ polls answer) => polls = 0 ∧ answer = .ok
  | _ => True

/-! ## Workers that no failure is ahead of -/

/-- A worker has not halted and stands where it remembers, no failure is
signalled except before a retry, and that retry is within the limit. -/
structure Fit (l : Link cap) (w : Worker) (p : Point) : Prop where
  stands : w.At p
  agrees : ∃ r, Agrees w p r
  prompt : p.Prompt
  live : w.phase ≠ .fatal
  calm : l.status.failed = true → w.phase = .retrySession
  budget : w.phase = .retrySession → w.countRetry.retriesExhausted = false

/-- Without a failure, and with a retry left, a step neither halts the worker
nor makes it retry. -/
theorem Phase.next_of_calm {source : Phase} {g : Guards} (live : source.isTerminal = false)
    (down : g.failed = false) (affords : source = .retrySession → g.retriesExhausted = false) :
    source.next g ≠ .fatal ∧ source.next g ≠ .retrySession := by
  cases source with
  | fatal => cases live
  | retrySession => simp [next, affords rfl]
  | start | syncTime | connectSession | publish => simp [next, down]
  | connectNetwork =>
      simp only [next, down]
      cases g.syncDue <;> simp
  | ready | idle =>
      simp only [next]
      cases g.queueEmpty <;> simp
  | closeSession | disconnectNetwork => simp [next]

section Turns

variable {l l' l₁ : Link cap} {w w' w₁ : Worker} {source : Phase} {p q : Point}
  {es : List Event}

/-- At the end of an action the failure signal is down. -/
theorem Closing.down (closing : Closing l w source p es l₁ w₁) (fit : Fit l w p) :
    l₁.status.failed = false := by
  have before (other : source ≠ .retrySession) : l.status.failed = false := by
    refine Bool.eq_false_iff.mpr fun up => other ?_
    rw [← closing.phase_eq fit.stands]
    exact fit.calm up
  cases closing with
  | retried _ => rfl
  | unopened here free =>
      obtain ⟨r, agrees⟩ := fit.agrees
      have held := agrees.session (.inr here)
      rw [free] at held
      cases held
  | failed job error => cases fit.prompt.2
  | skipped _ _ | woken _ =>
      rw [Link.failed_hinted]
      exact before (by simp)
  | succeeded job _ => exact before (by cases job <;> simp [Job.phase])
  | _ => exact before (by simp)

/-- A retry is within the limit. -/
theorem Closing.affords (closing : Closing l w source p es l₁ w₁) (fit : Fit l w p)
    (retry : source = .retrySession) : w₁.retriesExhausted = false := by
  cases closing with
  | retried here => exact fit.budget here
  | succeeded job _ | failed job _ => cases job <;> cases retry
  | _ => cases retry

/-- A worker stays fit, as long as answers are successes and due. -/
theorem Fit.turn (fit : Fit l w p) (turn : Turn l w p es l' w' q) (prompt : q.Prompt) :
    Fit l' w' q := by
  obtain ⟨r, agrees⟩ := fit.agrees
  have ahead : w'.phase ≠ .fatal ∧ (l'.status.failed = true → w'.phase = .retrySession) ∧
      (w'.phase = .retrySession → w'.countRetry.retriesExhausted = false) := by
    cases turn with
    | @call _ job _ _ _ _ _ _ calling fed _ =>
        obtain ⟨here, _⟩ := calling.held fit.stands
        obtain ⟨same, phase, _⟩ := calling.signal
        have other : job.phase ≠ .fatal ∧ job.phase ≠ .retrySession := by
          cases job <;> simp [Job.phase]
        refine ⟨fun halted => other.1 (here.symm.trans halted), fun up => ?_,
          fun retry => absurd (here.symm.trans retry) other.2⟩
        rw [fed.failed, same] at up
        exact phase.trans (fit.calm up)
    | leave closing =>
        have down := closing.down fit
        obtain ⟨live, noRetry⟩ := Phase.next_of_calm closing.live
          (show (Link.guards _ _).failed = false from down) (closing.affords fit)
        refine ⟨live, fun up => ?_, fun retry => absurd retry noRetry⟩
        rw [Status.failed_enter, down] at up
        cases up
    | park _ _ =>
        refine ⟨fit.live, fun up => fit.calm ?_, fit.budget⟩
        rw [Link.failed_hinted] at up
        exact up
    | _ => exact ⟨fit.live, fit.calm, fit.budget⟩
  obtain ⟨live, calm, budget⟩ := ahead
  exact ⟨turn.at_next fit.stands, ⟨_, agrees.turn turn fit.stands⟩, prompt, live, calm, budget⟩

end Turns

/-! ## What is handed over is delivered -/

/-- The batch, if the event is that one has been published. -/
def Event.delivered? : Event → Option Batch
  | answered (.publish _ b) .ok => some b
  | _ => none

/-- The batches that have been published, in order. -/
def delivered (es : List Event) : List Batch := es.filterMap Event.delivered?

@[simp] theorem delivered_append (es fs : List Event) :
    delivered (es ++ fs) = delivered es ++ delivered fs :=
  List.filterMap_append

/-- Without traffic nothing is handed over or delivered. -/
theorem delivered_quiet {es : List Event} (quiet : Quiet es) :
    handed es = [] ∧ delivered es = [] := by
  constructor <;>
    · refine List.filterMap_eq_nil_iff.mpr fun e there => ?_
      have silent := quiet e there
      cases e <;> first | rfl | cases silent

/-- The batch that is being published where a worker stands. -/
def Point.inHand : Point → List Batch
  | .waiting (.call (.publish _ b _) _ _) => [b]
  | _ => []

section Turns

variable {l l' l₁ : Link cap} {w w' w₁ : Worker} {source : Phase} {p q : Point}
  {es : List Event}

/-- The end of an action leaves nothing in hand, if it is not that a batch
could not be published. -/
theorem Closing.delivers (closing : Closing l w source p es l₁ w₁) (prompt : p.Prompt) :
    p.inHand = [] ∧ handed es = [] ∧ delivered es = [] := by
  cases closing with
  | failed job error => cases prompt.2
  | succeeded job plain =>
      have silent := delivered_quiet (quiet_success plain)
      cases job with
      | publish _ _ _ => cases plain
      | _ => exact ⟨rfl, silent⟩
  | connected => exact ⟨rfl, rfl, rfl⟩
  | _ => exact ⟨rfl, delivered_quiet (by simp [Event.isTraffic])⟩

/-- What is handed over is delivered, unless a request ends otherwise than
with its answer. -/
theorem Turn.delivers (turn : Turn l w p es l' w' q) (prompt : p.Prompt)
    (kept : q = .outset → Uncalled es) :
    p.inHand ++ handed es = delivered es ++ q.inHand := by
  cases turn with
  | @call _ job es offers _ _ _ _ calling fed next =>
      rcases next with rfl | ⟨polls, answer, rfl⟩
      · have silent := kept rfl
        simp [Event.isCall] at silent
      · obtain ⟨none, none'⟩ := delivered_quiet fed.quiet
        cases calling with
        | publish _ =>
            show _ :: handed offers = delivered offers ++ _
            rw [none, none']
            rfl
        | _ =>
            show handed offers = delivered offers ++ []
            rw [none, none']
            rfl
  | leave closing =>
      obtain ⟨inHand, none, none'⟩ := closing.delivers prompt
      obtain ⟨after, after'⟩ := delivered_quiet (quiet_arrival _ _ _)
      rw [handed_append, delivered_append, inHand, none, none', after, after']
      rfl
  | park _ _ =>
      have silent : Quiet (.began .idle :: (discarding l.wakes.length ++
          hinting w.lowPower true ++ [.noticed .resting])) := by
        simp [Event.isTraffic]
      obtain ⟨none, none'⟩ := delivered_quiet silent
      rw [none, none']
      rfl
  | @wait job _ _ => cases job <;> rfl
  | _ => rfl

/-- No request fails whose answer is a success. -/
theorem Turn.succeeds (turn : Turn l w p es l' w' q) (prompt : p.Prompt) (request : Request)
    (error : CallError) : .answered request (.failed error) ∉ es := by
  intro there
  rcases turn.answers with none | ⟨job, answer, rest, rfl, rfl, none⟩
  · cases none _ there
  · rcases List.mem_cons.mp there with first | later
    · cases first
      cases prompt.2
    · cases none _ later

end Turns

/-! ## Drives -/

/-- The move of a worker whose crew answers at once leads to a point where no
late or failed answer is waited for. -/
theorem Site.prompt_move {s : Site cap Script} {p : Point} (prompt : p.Prompt)
    (smooth : s.crew.Smooth) : (s.move p).verdict.next.Prompt := by
  have moved := s.moved p
  generalize s.move p = m at moved ⊢
  cases moved with
  | asked reaction => exact (smooth.react reaction).2
  | waits here =>
      subst here
      cases prompt.1
  | _ => trivial

/-- A move that a poll goes on from leaves the crew able to answer at once,
and ends no request otherwise than with its answer. -/
theorem Site.smooth_move {mode : Mode} {s : Site cap Script} {p : Point}
    (onward : (s.move p).verdict.goesOn mode = true) (smooth : s.crew.Smooth) :
    (s.move p).site.crew.Smooth ∧
      ((s.move p).verdict.next = .outset → Uncalled (s.move p).events) := by
  have spared {crew : Script} (spared : Spared s.crew crew) : crew.Smooth := by
    rcases spared with rfl | ⟨_, rfl⟩ <;> exact smooth
  have moved := s.moved p
  generalize s.move p = m at moved onward ⊢
  cases moved with
  | asked reaction => exact ⟨(smooth.react reaction).1, fun other => by cases other⟩
  | drains same | parks same => exact ⟨spared same, fun other => by cases other⟩
  | finishes same _ uncalled => exact ⟨spared same, fun _ => uncalled⟩
  | misused _ | waits _ | rests _ _ | refused _ _ | overflown _ => cases onward

/-- Throughout a drive a worker stays fit and its crew able to answer at once;
what is handed over is delivered, and no request fails. -/
theorem Site.Driven.recovers {mode : Mode} {s t : Site cap Script} {p q : Point}
    {es : List Event} (driven : s.Driven mode p es t q) (fit : Fit s.link s.worker p)
    (smooth : s.crew.Smooth) :
    Fit t.link t.worker q ∧ t.crew.Smooth ∧ p.inHand ++ handed es = delivered es ++ q.inHand ∧
      ∀ request error, .answered request (.failed error) ∉ es := by
  induction driven with
  | stay s p => exact ⟨fit, smooth, List.append_nil _, fun _ _ there => by cases there⟩
  | @move s t p q es onward _ ih =>
      have turn := s.turn_move p
      obtain ⟨still, kept⟩ := s.smooth_move onward smooth
      obtain ⟨fit', smooth', balance, none⟩ :=
        ih (fit.turn turn (s.prompt_move fit.prompt smooth)) still
      refine ⟨fit', smooth', ?_, fun request error there => ?_⟩
      · have first := turn.delivers fit.prompt kept
        calc
          p.inHand ++ handed ((s.move p).events ++ es)
              = (p.inHand ++ handed (s.move p).events) ++ handed es := by
            rw [handed_append, List.append_assoc]
          _ = delivered (s.move p).events ++ ((s.move p).verdict.next.inHand ++ handed es) := by
            rw [first, List.append_assoc]
          _ = delivered ((s.move p).events ++ es) ++ q.inHand := by
            rw [balance, delivered_append, List.append_assoc]
      · rcases List.mem_append.mp there with now | later
        · exact turn.succeeds fit.prompt request error now
        · exact none request error later

/-- A fit worker with such a crew ends a poll of a run only by resting, and
does so at once. -/
theorem parked_of_fit {l : Link cap} {r : Station Script} {t : Site cap Script} {q : Point}
    {progress : Progress} (fit : Fit t.link t.worker q) (smooth : t.crew.Smooth)
    (ends : Ends .run (t.move q).site (t.move q).verdict progress)
    (worker : r.worker = (t.move q).site.worker) (how : RunEnd l r progress) :
    q = .waiting .parked ∧ progress = .pending .parked ∧ (t.move q).events = [] := by
  have last := fit.turn (t.turn_move q) (t.prompt_move fit.prompt smooth)
  have moved := t.moved q
  generalize t.move q = m at moved ends worker last ⊢
  cases moved with
  | rests here _ =>
      cases ends
      exact ⟨here, rfl, rfl⟩
  | waits here =>
      subst here
      cases fit.prompt.1
  | finishes _ _ _ =>
      cases ends with
      | stepped other => cases other
      | halted _ _ =>
          cases how with
          | halts _ halted =>
              rw [worker] at halted
              exact absurd halted last.live
  | misused _ | refused _ _ | overflown _ =>
      cases ends
      cases how
  | asked _ | drains _ | parks _ => cases ends

/-! ## What is started is stopped -/

/-- The network has not been asked for since it was last taken down. -/
def Unstarted (es : List Event) : Prop := .called .start ∉ since Event.endsNetwork es

theorem unstarted_quiet {past es : List Event} (quiet : Quiet es) :
    Unstarted (past ++ es) ↔ Unstarted past := by
  have none : ∀ e ∈ es, e.endsNetwork = false := by
    intro e there
    have silent := quiet e there
    cases e <;> first | rfl | cases silent
  have never : .called .start ∉ es := fun there => by cases quiet _ there
  rw [Unstarted, since_append past none, List.mem_append, or_iff_left never]
  rfl

theorem unstarted_stopped (past : List Event) (answer : Answer) {es : List Event}
    (quiet : Quiet es) : Unstarted (past ++ .answered .stop answer :: es) := by
  rw [List.append_cons, unstarted_quiet quiet, Unstarted, since_append_cons past rfl (by simp)]
  simp

/-- Where the network has been taken down, every start was followed by a stop
that is over. -/
theorem Unstarted.stopped {es before after : List Event} (unstarted : Unstarted es)
    (split : es = before ++ .called .start :: after) :
    ∃ answer, .answered .stop answer ∈ after := by
  by_contra never
  have none : ∀ e ∈ .called .start :: after, e.endsNetwork = false := by
    intro e there
    rcases List.mem_cons.mp there with rfl | later
    · rfl
    · cases e with
      | answered request answer =>
          cases request with
          | stop => exact absurd ⟨answer, later⟩ never
          | _ => rfl
      | _ => rfl
  rw [Unstarted, split, since_append before none] at unstarted
  exact unstarted (by simp)

namespace Phase

/-- The network is not wanted in the phase. -/
def isDown : Phase → Bool
  | start | idle => true
  | _ => false

theorem source_of_isDown {source : Phase} {g : Guards} (down : (source.next g).isDown = true) :
    source = disconnectNetwork ∨ source = idle := by
  revert g
  cases source <;> (apply Guards.of_flags; decide)

end Phase

/-- A step that leads to where the network is not wanted leaves no start
without a stop. -/
theorem Closing.unstarted {l l₁ : Link cap} {w w₁ : Worker} {source : Phase} {p : Point}
    {past es : List Event} {g : Guards} (closing : Closing l w source p es l₁ w₁)
    (stands : w.At p) (before : w.phase.isDown = true → Unstarted past)
    (down : (source.next g).isDown = true) : Unstarted (past ++ es) := by
  have leads := Phase.source_of_isDown down
  rw [closing.phase_eq stands] at before
  cases closing with
  | succeeded job plain =>
      have silent := quiet_success plain
      cases job <;> first | exact unstarted_stopped past .ok silent | simp [Job.phase] at leads
  | failed job error =>
      cases job <;>
        first
        | exact unstarted_stopped past (.failed error) (by simp [Event.isTraffic])
        | simp [Job.phase] at leads
  | skipped _ _ | woken _ => exact (unstarted_quiet (by simp [Event.isTraffic])).mpr (before rfl)
  | _ => simp at leads

/-- So does every turn. -/
theorem Turn.unstarted {l l' : Link cap} {w w' : Worker} {p q : Point} {past es : List Event}
    (turn : Turn l w p es l' w' q) (stands : w.At p)
    (before : w.phase.isDown = true → Unstarted past) (down : w'.phase.isDown = true) :
    Unstarted (past ++ es) := by
  cases turn with
  | @call _ job _ _ _ _ _ _ calling _ _ =>
      rw [(calling.held stands).1] at down
      cases job <;> cases down
  | leave closing =>
      rw [← List.append_assoc, unstarted_quiet (quiet_arrival _ _ _)]
      exact closing.unstarted stands before down
  | opened here _ | refused here _ =>
      rw [here] at down
      cases down
  | published _ | overflown =>
      rw [stands.1] at down
      cases down
  | park here _ => exact (unstarted_quiet (by simp [Event.isTraffic])).mpr (before down)
  | wait | rest _ | halted _ =>
      rw [List.append_nil]
      exact before down

/-! ## Histories -/

section Histories

variable {ε : Type} [Crew ε]

theorem unstarted_after (ops : List (Op ε)) :
    Everyone (fun w p es => w.At p ∧ (w.phase.isDown = true → Unstarted es))
      ((World.after cap ops).moment (World.journal cap ops)) := by
  refine World.own_invariant (fun settings _ => ?_) ?_ ?_ ?_ ops
  · simp [Unstarted, since, sinceStep, Event.endsNetwork]
  · intro w es before down
    exact (unstarted_quiet (by simp [Event.isTraffic])).mpr (before down)
  · exact fun w suspension es before => before
  · exact fun l l' w w' p q past es turn stands before => turn.unstarted stands before

/-- Where the network is not wanted, every start was followed by a stop that is
over. -/
theorem stopped_after {ops : List (Op ε)} {id : Nat} {s : Station ε}
    (here : (World.after cap ops).station? id = some s) (down : s.worker.phase.isDown = true)
    (before after : List Event) (split : own id (World.journal cap ops) =
      before ++ .called .start :: after) : ∃ answer, .answered .stop answer ∈ after := by
  obtain ⟨_, unstarted⟩ := (unstarted_after ops).here (World.posts_of_station? here)
  exact (unstarted down).stopped split

/-- What is waiting before an operation and what is accepted in it are what is
handed over in it and what is waiting after it. -/
theorem balance_apply (ops : List (Op ε)) (op : Op ε) :
    (World.after cap ops).link.waiting ++
        accepted (events ((World.after cap ops).apply op).entries) =
      handed (events ((World.after cap ops).apply op).entries) ++
        ((World.after cap ops).apply op).world.link.waiting := by
  have whole : replay cap [] (events (World.journal cap (ops ++ [op]))) =
      some (World.after cap (ops ++ [op])).link.waiting := replay_journal _
  rw [World.journal_concat, World.after_concat, events_append, replay_append, replay_journal,
    Option.bind_some] at whole
  exact balance_of_replay whole

/-- The only worker of a link is fit at the outset of a step, unless it has
halted or has no retry left. -/
theorem fit_after {ops : List (Op ε)} (alone : ops.countP Op.isBoot = 1) {id : Nat}
    {s : Station ε} (here : (World.after cap ops).station? id = some s) (free : s.held = none)
    (live : s.worker.phase ≠ .fatal)
    (budget : s.worker.phase = .retrySession → s.worker.countRetry.retriesExhausted = false) :
    Fit (World.after cap ops).link s.worker .outset := by
  have there := World.posts_of_free here free
  have accounted : Accounted ((World.after cap ops).moment (World.journal cap ops)) :=
    accounted_after ops (boots_retired alone)
  obtain ⟨_, agrees⟩ := accounted.agree.here there
  refine ⟨trivial, ⟨_, agrees⟩, trivial, live, fun up => ?_, budget⟩
  have bears := (accounted.orderly id _ _ there).2 up
  have untried := (sole_after alone).untried id _ _ there
  cases phase : s.worker.phase with
  | retrySession => rfl
  | start =>
      have down : (World.after cap ops).link.status.failed = false := untried phase
      rw [down] at up
      cases up
  | fatal => exact absurd phase live
  | _ =>
      rw [phase] at bears
      cases bears

end Histories

/-- A run that is launched under these conditions ends at rest, and what it
hands over is delivered. -/
theorem launch_recovers {ops : List (Op Script)} (alone : ops.countP Op.isBoot = 1) {id : Nat}
    {s : Station Script} (here : (World.after cap ops).station? id = some s)
    (free : s.held = none) (live : s.worker.phase ≠ .fatal)
    (budget : s.worker.phase = .retrySession → s.worker.countRetry.retriesExhausted = false)
    (smooth : s.crew.Smooth) (few : Countable (World.journal cap (ops ++ [.launch id .run]))) :
    ∃ es r, ((World.after cap ops).apply (.launch id .run)).entries =
        entries (.worker id) (.noticed .workerStarted :: es) ∧
      ((World.after cap ops).apply (.launch id .run)).reply = .progress (.pending .parked) ∧
      (World.after cap (ops ++ [.launch id .run])).station? id = some r ∧
      AtRest (World.after cap (ops ++ [.launch id .run])).link r ∧
      handed es = delivered es ∧ ∀ request error, .answered request (.failed error) ∉ es := by
  have polls : (Op.launch id .run).Polls id s .run := .fresh free
  have outset : s.post.point = .outset := by
    rw [Station.post, free]
  obtain ⟨es, t, q, progress, driven, applied, ends⟩ := World.apply_driven here polls
  obtain ⟨r, there, worker, how⟩ := run_ends alone here polls few applied ends
  rw [outset] at driven
  obtain ⟨fit, smooth', balance, succeeds⟩ :=
    driven.recovers (fit_after alone here free live budget) smooth
  obtain ⟨rfl, rfl, still⟩ := parked_of_fit fit smooth' ends worker how
  rw [still, List.append_nil] at applied
  cases how with
  | rests rest =>
      refine ⟨es, r, ?_, ?_, there, rest, ?_, succeeds⟩
      · rw [applied]
        rfl
      · rw [applied]
        rfl
      · simpa [Point.inHand] using balance

/-- **Recovery.** If the only worker of a link has not halted, holds on to
nothing, and may still retry should it be about to, and from now on everything
it asks of its crew succeeds at once, then one poll of a run brings it to rest.
By then the batches that were waiting and those that were accepted meanwhile
have been published, each once and in this order, and nothing else has been
handed over; no request has failed; no batch is waiting, no session is held,
and every start of the network, in this poll or before it, was followed by a
stop that is over. -/
theorem recovery {ops : List (Op Script)} (alone : ops.countP Op.isBoot = 1) {id : Nat}
    {s : Station Script} (here : (World.after cap ops).station? id = some s)
    (free : s.held = none) (live : s.worker.phase ≠ .fatal)
    (budget : s.worker.phase = .retrySession → s.worker.countRetry.retriesExhausted = false)
    (smooth : s.crew.Smooth) (few : Countable (World.journal cap (ops ++ [.launch id .run]))) :
    let world := World.after cap ops
    let outcome := world.apply (.launch id .run)
    let happened := events outcome.entries
    outcome.reply = .progress (.pending .parked) ∧
      (∃ t, outcome.world.station? id = some t ∧ AtRest outcome.world.link t) ∧
      delivered happened = world.link.waiting ++ accepted happened ∧
      handed happened = delivered happened ∧
      (∀ request error, .answered request (.failed error) ∉ happened) ∧
      (∀ before after, happened = before ++ .called .start :: after →
        .answered .stop .ok ∈ after) ∧
      ∀ before after, own id (World.journal cap (ops ++ [.launch id .run])) =
        before ++ .called .start :: after → ∃ answer, .answered .stop answer ∈ after := by
  intro world outcome happened
  obtain ⟨es, r, entries, reply, there, rest, hands, succeeds⟩ :=
    launch_recovers alone here free live budget smooth few
  have happens : happened = .noticed .workerStarted :: es := by
    show events outcome.entries = _
    rw [entries, events_entries]
  have delivers : handed happened = delivered happened := by
    rw [happens]
    exact hands
  have answers : ∀ request error, .answered request (.failed error) ∉ happened := by
    rw [happens]
    intro request error there
    rcases List.mem_cons.mp there with other | there
    · cases other
    · exact succeeds request error there
  have stopped := stopped_after there (by rw [rest.phase]; rfl)
  rw [World.after_concat] at there rest
  refine ⟨reply, ⟨r, there, rest⟩, ?_, delivers, answers, fun before after split => ?_, stopped⟩
  · have empty : outcome.world.link.waiting = [] := List.isEmpty_iff.mp rest.queue
    have balance : world.link.waiting ++ accepted happened =
        handed happened ++ outcome.world.link.waiting := balance_apply ops _
    rw [balance, empty, List.append_nil, delivers]
  · obtain ⟨answer, later⟩ := stopped (own id (World.journal cap ops) ++ before) after (by
      rw [World.journal_concat, own_append, entries, own_entries_self, ← happens, split,
        List.append_assoc])
    cases answer with
    | ok => exact later
    | failed error =>
        refine absurd ?_ (answers .stop error)
        rw [split]
        simp [later]

/-- A publish was abandoned, and its batch with it. The next run delivers the
batch that was still waiting and the one that comes with it. -/
theorem recovery_abandoned :
    let ops : List (Op Script) :=
      [.boot {} { publish := [{ polls := 3 }, { enqueues := [.tagged 9] }] },
        .offer (.tagged 7), .offer (.tagged 8), .launch 0 .run, .cancel 0]
    let world := World.after 2 ops
    let happened := events (world.apply (.launch 0 .run)).entries
    ops.countP Op.isBoot = 1 ∧
      Countable (World.journal 2 (ops ++ [.launch 0 .run])) ∧
      (∃ s, world.station? 0 = some s ∧ s.held = none ∧ s.worker.phase = .publish ∧
        s.crew.Smooth) ∧
      handed (events (World.journal 2 ops)) = [.tagged 7] ∧
      delivered happened = [.tagged 8, .tagged 9] := by
  intro ops world happened
  have alone : ops.countP Op.isBoot = 1 := by
    decide
  have few : Countable (World.journal 2 (ops ++ [.launch 0 .run])) := by
    unfold Countable
    decide +kernel
  have left : (world.station? 0).map (fun s => (s.held, s.worker.phase, decide s.crew.Smooth)) =
      some (none, .publish, true) := by
    decide +kernel
  obtain ⟨s, here, facts⟩ := Option.map_eq_some_iff.mp left
  obtain ⟨free, rest⟩ := Prod.mk.inj facts
  obtain ⟨phase, smooth⟩ := Prod.mk.inj rest
  have crew : s.crew.Smooth := of_decide_eq_true smooth
  obtain ⟨_, _, delivers, _⟩ := recovery alone here free (by rw [phase]; simp)
    (fun retry => by rw [phase] at retry; cases retry) crew few
  refine ⟨alone, few, ⟨s, here, free, phase, crew⟩, by decide +kernel, delivers.trans ?_⟩
  decide +kernel

end StoreForward
