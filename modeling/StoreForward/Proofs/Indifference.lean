import StoreForward.Crew.Script
import StoreForward.Proofs.Stepwise

/-!
# Indifference

Producer and platform write three things on a link: the outbox, the wakes, and the count
of accepted batches. Together these are its `Intake`. In three phases a worker heeds them:
in `ready` the outbox decides where to go, in `publish` it is drained, and in `idle` both
buffers are looked at. In all other phases neither the action nor the transition depends
on the intake, and neither changes it, provided that the crew does not feed the link
itself.

So a step in these phases and what the producer does meanwhile are two programs that do
not share anything. That a step does not heed the intake is one equation: to exchange the
intake before the step or after it comes to the same (`Site.move_withIntake`, and from it
`Site.poll_withIntake` and `World.Heedless`). What the producer does is, conversely, a
matter of the intake alone (`World.apply_feed`). Hence operations of both in any order
come to what they come to separately (`World.apart`), and the order does not matter.

## Main definitions

* `Phase.heeds` — the phases in which a worker looks at outbox or wakes.
* `Intake` — what producer and platform write on a link.
* `World.results` — what the operations of a kind come to.

## Main results

* `World.apart` — what both parties do, each on its own.
* `producer_timing_is_irrelevant` — when the producer acts makes no difference.
-/

namespace StoreForward

variable {cap : Nat} {ε : Type}

/-! ## Phases that heed the producer -/

/-- The action of the phase, or the way on from it, depends on outbox or wakes. -/
def Phase.heeds : Phase → Bool
  | ready | publish | idle => true
  | _ => false

/-- Elsewhere the way on does not depend on whether the outbox is empty. -/
theorem Phase.next_of_heedless {source : Phase} (heedless : source.heeds = false) (g : Guards)
    (empty : Bool) : source.next { g with queueEmpty := empty } = source.next g := by
  cases source <;> first | rfl | cases heedless

/-- What a worker asks its crew in its next step, unless it is in a phase that heeds the
producer. -/
def Worker.job? (w : Worker) : Option Job :=
  match w.phase with
  | .connectNetwork => some .start
  | .syncTime => some .sync
  | .connectSession => if w.session.isSome then none else some .connect
  | .closeSession => w.session.map .close
  | .disconnectNetwork => some .stop
  | _ => none

/-- A crew that handles a request without feeding the link. -/
def Discreet [Crew ε] (crew : ε) (request : Request) : Prop :=
  ∀ r, (Crew.react crew request).2 = .ok r → r.enqueues = [] ∧ r.wakes = 0

/-! ## The intake of a link -/

/-- What producer and platform write on a link. -/
structure Intake (cap : Nat) where
  outbox : Outbox cap
  wakes : Fifo Wake cap
  enqueued : UInt32

/-- The intake of a link. -/
def Link.intake (l : Link cap) : Intake cap := ⟨l.outbox, l.wakes, l.status.enqueued⟩

/-- The link with another intake. -/
def Link.withIntake (l : Link cap) (i : Intake cap) : Link cap :=
  ⟨i.outbox, i.wakes, { l.status with enqueued := i.enqueued }⟩

def Site.withIntake (s : Site cap ε) (i : Intake cap) : Site cap ε :=
  { s with link := s.link.withIntake i }

def Move.withIntake (m : Move cap ε) (i : Intake cap) : Move cap ε :=
  { m with site := m.site.withIntake i }

def Polled.withIntake (o : Polled cap ε) (i : Intake cap) : Polled cap ε :=
  { o with site := o.site.withIntake i }

def World.withIntake (w : World cap ε) (i : Intake cap) : World cap ε :=
  { w with link := w.link.withIntake i }

def Outcome.withIntake (o : Outcome cap ε) (i : Intake cap) : Outcome cap ε :=
  { o with world := o.world.withIntake i }

namespace World

@[simp] theorem intake_withIntake (w : World cap ε) (i : Intake cap) :
    (w.withIntake i).link.intake = i := rfl

@[simp] theorem withIntake_intake (w : World cap ε) : w.withIntake w.link.intake = w := rfl

@[simp] theorem withIntake_withIntake (w : World cap ε) (i j : Intake cap) :
    (w.withIntake i).withIntake j = w.withIntake j := rfl

end World

/-! ## What the producer does is a matter of the intake -/

namespace Link

variable (l m : Link cap)

theorem post_withIntake (wake : Wake) :
    (l.withIntake m.intake).post wake = (l.withIntake (m.post wake).1.intake, (m.post wake).2) := by
  have wakes : (l.withIntake m.intake).wakes = m.wakes := rfl
  unfold post
  rw [wakes]
  cases m.wakes.offer? wake <;> rfl

theorem offer_withIntake (b : Batch) :
    (l.withIntake m.intake).offer b = (l.withIntake (m.offer b).1.intake, (m.offer b).2) := by
  have outbox : (l.withIntake m.intake).outbox = m.outbox := rfl
  unfold offer
  rw [outbox]
  obtain ⟨outbox, room⟩ := m.outbox.offer b
  cases room with
  | false => rfl
  | true =>
      let counted : Link cap :=
        { m with outbox, status := { m.status with enqueued := m.status.enqueued + 1 } }
      have posted := l.post_withIntake counted .dataAvailable
      exact congrArg (fun o => (o.1, true, .offered b true :: o.2.2)) posted

theorem nudge_withIntake :
    (l.withIntake m.intake).nudge = (l.withIntake m.nudge.1.intake, m.nudge.2) := by
  unfold nudge
  rw [post_withIntake]

end Link

/-! ## A step that does not heed the intake -/

namespace Site

variable (s : Site cap ε) (i : Intake cap)

@[simp] theorem worker_withIntake : (s.withIntake i).worker = s.worker := rfl

theorem enter_withIntake (source target : Phase) :
    (s.withIntake i).enter source target =
      ((s.enter source target).1.withIntake i, (s.enter source target).2) := by
  cases target <;> rfl

theorem finish_withIntake {source : Phase} (heedless : source.heeds = false)
    (notes : List Event) :
    (s.withIntake i).finish source notes = (s.finish source notes).withIntake i := by
  have leads : source.next (s.withIntake i).guards = source.next s.guards :=
    Phase.next_of_heedless heedless s.guards i.outbox.isEmpty
  have entered := s.enter_withIntake i source (source.next s.guards)
  show Move.mk ((s.withIntake i).enter source (source.next (s.withIntake i).guards)).1
    (notes ++ ((s.withIntake i).enter source (source.next (s.withIntake i).guards)).2) _ = _
  rw [leads, entered]
  rfl

theorem conclude_withIntake {job : Job} (heedless : job.phase.heeds = false) (answer : Answer) :
    (s.withIntake i).conclude job answer = (s.conclude job answer).withIntake i := by
  have plain {es : List Event} (success : job.success? = some es) :
      (s.withIntake i).conclude job .ok = (s.conclude job .ok).withIntake i := by
    rw [s.conclude_plain success, (s.withIntake i).conclude_plain success]
    exact s.finish_withIntake i heedless es
  cases answer with
  | failed error =>
      have blamed : (s.withIntake i).mapStatus (·.blame job) =
          (s.mapStatus (·.blame job)).withIntake i := by
        cases job <;> rfl
      rw [conclude_failed, conclude_failed, blamed]
      exact (s.mapStatus (·.blame job)).finish_withIntake i heedless _
  | ok =>
      cases job with
      | start | sync | close _ | stop => exact plain rfl
      | connect => exact s.welcome.1.finish_withIntake i heedless [.noticed s.welcome.2]
      | publish _ _ _ => cases heedless

variable [Crew ε]

theorem begin_withIntake {job : Job} (discreet : Discreet s.crew job.request)
    (notes : List Event) :
    (s.withIntake i).begin job notes = (s.begin job notes).withIntake i := by
  have crew : (s.withIntake i).crew = s.crew := rfl
  unfold begin
  rw [crew]
  cases reaction : Crew.react s.crew job.request with
  | mk crew result =>
      cases result with
      | error text => rfl
      | ok r =>
          obtain ⟨none, zero⟩ := discreet r (congrArg Prod.snd reaction)
          dsimp only
          rw [none, zero]
          rfl

/-- A point from which a step goes on without heeding the intake. -/
inductive Heedless : Point → Prop where
  | outset (heedless : s.worker.phase.heeds = false)
      (discreet : ∀ job, s.worker.job? = some job → Discreet s.crew job.request) :
      Heedless .outset
  | waiting {job : Job} {polls : Nat} {answer : Answer} (heedless : job.phase.heeds = false) :
      Heedless (.waiting (.call job polls answer))

theorem act_withIntake (heedless : s.worker.phase.heeds = false)
    (discreet : ∀ job, s.worker.job? = some job → Discreet s.crew job.request) :
    (s.withIntake i).act = s.act.withIntake i := by
  have asks {job : Job} (asks : s.worker.job? = some job) := discreet job asks
  unfold Worker.job? at asks
  unfold act
  rw [worker_withIntake]
  cases here : s.worker.phase with
  | ready | publish | idle =>
      rw [here] at heedless
      cases heedless
  | start => exact s.finish_withIntake i rfl []
  | connectNetwork =>
      rw [here] at asks
      exact s.begin_withIntake i (asks rfl) _
  | disconnectNetwork =>
      rw [here] at asks
      exact s.begin_withIntake i (asks rfl) []
  | syncTime =>
      rw [here] at asks
      exact begin_withIntake { s with worker := { s.worker with syncDue := false } } i (asks rfl) _
  | connectSession =>
      rw [here] at asks
      dsimp only at asks ⊢
      by_cases held : s.worker.session.isSome = true
      · rw [if_pos held, if_pos held]
        rfl
      · rw [if_neg held] at asks
        rw [if_neg held, if_neg held]
        exact s.begin_withIntake i (asks rfl) []
  | closeSession =>
      rw [here] at asks
      cases held : s.worker.session with
      | none => exact s.finish_withIntake i rfl _
      | some session =>
          rw [held] at asks
          exact begin_withIntake { s with worker := { s.worker with session := none } } i
            (asks rfl) []
  | retrySession =>
      let counted : Site cap ε := { s with worker := s.worker.countRetry }.mapStatus
        fun st => { st.lower with retries := st.retries + 1 }
      exact counted.finish_withIntake i rfl _
  | fatal => rfl

/-- To exchange the intake before such a move or after it comes to the same. -/
theorem move_withIntake {p : Point} (heedless : s.Heedless p) :
    (s.withIntake i).move p = (s.move p).withIntake i := by
  cases heedless with
  | outset heedless discreet =>
      show Move.mk (s.withIntake i).act.site (s.opening ++ (s.withIntake i).act.events)
        (s.withIntake i).act.verdict = _
      rw [s.act_withIntake i heedless discreet]
      rfl
  | @waiting job polls answer heedless =>
      cases polls with
      | succ _ => rfl
      | zero =>
          show Move.mk ((s.withIntake i).conclude job answer).site
            (.answered job.request answer :: ((s.withIntake i).conclude job answer).events)
            ((s.withIntake i).conclude job answer).verdict = _
          rw [s.conclude_withIntake i heedless]
          rfl

/-- Such a move ends the step or leads to a point from which it goes on in this way,
whatever the site. -/
theorem Heedless.next {s : Site cap ε} {p : Point} (heedless : s.Heedless p) :
    (s.move p).verdict.next = .outset ∨
      ∀ t : Site cap ε, t.Heedless (s.move p).verdict.next := by
  have turn := s.turn_move p
  generalize s.move p = m at turn ⊢
  obtain ⟨t, es, verdict⟩ := m
  dsimp only at turn ⊢
  generalize verdict.next = q at turn ⊢
  generalize t.link = l, t.worker = w at turn
  cases turn with
  | call calling _ next =>
      rcases next with rfl | ⟨polls, answer, rfl⟩
      · exact .inl rfl
      · refine .inr fun _ => .waiting ?_
        cases calling with
        | publish _ => cases heedless
        | _ => rfl
  | leave _ | overflown | refused _ _ | halted _ => exact .inl rfl
  | wait =>
      cases heedless with
      | waiting heedless => exact .inr fun _ => .waiting heedless
  | opened here _ | park here _ =>
      cases heedless with
      | outset heedless _ =>
          rw [here] at heedless
          cases heedless
  | published _ =>
      cases heedless with
      | waiting heedless => cases heedless
  | rest _ => cases heedless

/-- And so it is with a poll of a step. -/
theorem poll_withIntake {mode : Mode} {s : Site cap ε} {p : Point} (step : mode = .step)
    (heedless : s.Heedless p) (i : Intake cap) :
    (s.withIntake i).poll mode p = (s.poll mode p).withIntake i ∧
      ((s.poll mode p).progress.next = .outset ∨
        ∀ t : Site cap ε, t.Heedless (s.poll mode p).progress.next) := by
  have move := s.move_withIntake i heedless
  have next := heedless.next
  induction mode, s, p using Site.poll.induct with
  | case1 mode s p q goOn ih =>
      have verdict := (congrArg Move.verdict move).trans goOn
      have onward : (s.move p).site.Heedless q := by
        have further := s.next_ne_outset (p := p) (by rw [goOn]; rfl)
        rw [goOn] at next further
        exact next.resolve_left further _
      obtain ⟨same, last⟩ := ih step onward (move_withIntake _ i onward) onward.next
      rw [poll_of_goOn goOn, poll_of_goOn verdict, move]
      refine ⟨?_, last⟩
      show (((s.move p).site.withIntake i).poll mode q).after (s.move p).events = _
      rw [same]
      rfl
  | case2 mode s p suspension suspended =>
      have verdict := (congrArg Move.verdict move).trans suspended
      rw [suspended] at next
      rw [poll_of_suspended suspended, poll_of_suspended verdict, move]
      exact ⟨rfl, next⟩
  | case3 mode s p violation violated =>
      have verdict := (congrArg Move.verdict move).trans violated
      rw [poll_of_violated violated, poll_of_violated verdict, move]
      exact ⟨rfl, .inl rfl⟩
  | case4 s p phase finished =>
      have verdict := (congrArg Move.verdict move).trans finished
      rw [poll_step_of_finished finished, poll_step_of_finished verdict, move]
      exact ⟨rfl, .inl rfl⟩
  | case5 | case6 => cases step

end Site

/-! ## Operations of both parties -/

/-- The operation is not one of the producer or the platform. -/
def Op.drives (op : Op ε) : Bool := !op.feeds

namespace World

/-- What the operations of a kind come to: the replies, and what happens in each. -/
def results [Crew ε] (kind : Op ε → Bool) : World cap ε → List (Op ε) → List (Reply × List Entry)
  | _, [] => []
  | w, op :: rest =>
    if kind op then ((w.apply op).reply, (w.apply op).entries) ::
      results kind (w.apply op).world rest
    else results kind (w.apply op).world rest

variable [Crew ε]

/-- To exchange the intake before the operation or after it comes to the same. -/
def Heedless (w : World cap ε) (op : Op ε) : Prop :=
  ∀ i, (w.withIntake i).apply op = (w.apply op).withIntake i

/-- So it is with each of some operations, one after another. -/
def AllHeedless : World cap ε → List (Op ε) → Prop
  | _, [] => True
  | w, op :: rest => w.Heedless op ∧ AllHeedless (w.apply op).world rest

/-- What a worker waits for in a step, if it does, has nothing to do with the intake. -/
def Engaged (w : World cap ε) (id : Nat) : Prop :=
  ∀ s, w.station? id = some s → s.held = none ∨
    ∃ suspension, s.held = some (.step, suspension) ∧
      ∀ t : Site cap ε, t.Heedless (.waiting suspension)

/-- What the producer does depends on the intake alone, and changes nothing else. -/
theorem apply_feed (w v : World cap ε) {op : Op ε} (feeds : op.feeds = true) :
    (w.withIntake v.link.intake).apply op =
      ⟨w.withIntake (v.apply op).world.link.intake, (v.apply op).reply, (v.apply op).entries⟩ := by
  cases op with
  | offer batch =>
      have offered := w.link.offer_withIntake v.link batch
      exact congrArg (fun o => (⟨{ w with link := o.1 }, .accepted o.2.1,
        entries .producer o.2.2⟩ : Outcome cap ε)) offered
  | nudge =>
      have nudged := w.link.nudge_withIntake v.link
      exact congrArg (fun o => (⟨{ w with link := o.1 }, .accepted o.2.1,
        entries .producer o.2.2⟩ : Outcome cap ε)) nudged
  | _ => cases feeds

theorem results_cons_of_kind (kind : Op ε → Bool) (w : World cap ε) {op : Op ε}
    (of : kind op = true) (rest : List (Op ε)) :
    w.results kind (op :: rest) =
      ((w.apply op).reply, (w.apply op).entries) :: (w.apply op).world.results kind rest :=
  if_pos of

theorem results_cons_of_other (kind : Op ε → Bool) (w : World cap ε) {op : Op ε}
    (other : kind op = false) (rest : List (Op ε)) :
    w.results kind (op :: rest) = (w.apply op).world.results kind rest :=
  if_neg (ne_true_of_eq_false other)

theorem applyAll_cons (w : World cap ε) (op : Op ε) (rest : List (Op ε)) :
    (w.applyAll (op :: rest)).1 = ((w.apply op).world.applyAll rest).1 := rfl

/-- What the producer does in a row depends on the intake alone, and changes nothing else. -/
theorem applyAll_feed (w : World cap ε) {feeds : List (Op ε)}
    (all : ∀ op ∈ feeds, op.feeds = true) : ∀ v : World cap ε,
    ((w.withIntake v.link.intake).applyAll feeds).1 =
        w.withIntake (v.applyAll feeds).1.link.intake ∧
      (w.withIntake v.link.intake).results Op.feeds feeds = v.results Op.feeds feeds := by
  induction feeds with
  | nil => exact fun v => ⟨rfl, rfl⟩
  | cons op rest ih =>
      intro v
      have feeds := all op List.mem_cons_self
      obtain ⟨last, results⟩ := ih (fun op there => all op (List.mem_cons_of_mem _ there))
        (v.apply op).world
      rw [applyAll_cons, applyAll_cons, results_cons_of_kind _ _ feeds,
        results_cons_of_kind _ _ feeds, apply_feed w v feeds]
      exact ⟨last, congrArg _ results⟩

/-- So it is with operations that do not heed the intake. -/
theorem AllHeedless.withIntake {moves : List (Op ε)} : ∀ {w : World cap ε},
    w.AllHeedless moves → ∀ i, (w.withIntake i).AllHeedless moves ∧
      ((w.withIntake i).applyAll moves).1 = (w.applyAll moves).1.withIntake i ∧
      ∀ kind, (w.withIntake i).results kind moves = w.results kind moves := by
  induction moves with
  | nil => exact fun _ _ => ⟨trivial, rfl, fun _ => rfl⟩
  | cons op rest ih =>
      intro w heedless i
      obtain ⟨first, more⟩ := heedless
      obtain ⟨still, last, results⟩ := ih more i
      have exchanged := first i
      refine ⟨⟨fun j => ?_, ?_⟩, ?_, fun kind => ?_⟩
      · rw [exchanged]
        exact first j
      · rw [exchanged]
        exact still
      · rw [applyAll_cons, exchanged]
        exact last
      · unfold World.results
        rw [exchanged]
        dsimp only [Outcome.withIntake]
        rw [results kind]

/-- Operations of the producer and operations that do not heed the intake come to what
they come to separately, in whatever order they are done. -/
theorem apart {ops : List (Op ε)} : ∀ {w : World cap ε},
    w.AllHeedless (ops.filter Op.drives) →
    (w.applyAll ops).1 = (w.applyAll (ops.filter Op.drives)).1.withIntake
        (w.applyAll (ops.filter Op.feeds)).1.link.intake ∧
      w.results Op.feeds ops = w.results Op.feeds (ops.filter Op.feeds) ∧
      w.results Op.drives ops = w.results Op.drives (ops.filter Op.drives) := by
  induction ops with
  | nil => exact fun _ => ⟨rfl, rfl, rfl⟩
  | cons op rest ih =>
      intro w heedless
      cases feeds : op.feeds with
      | true =>
          have drives : op.drives = false := by
            simp [Op.drives, feeds]
          rw [List.filter_cons_of_neg (ne_true_of_eq_false drives)] at heedless ⊢
          rw [List.filter_cons_of_pos feeds]
          have fed : (w.apply op).world = w.withIntake (w.apply op).world.link.intake := by
            have alone := w.apply_feed w feeds
            rw [withIntake_intake] at alone
            exact congrArg Outcome.world alone
          obtain ⟨still, last, same⟩ := heedless.withIntake (w.apply op).world.link.intake
          rw [← fed] at still last same
          obtain ⟨final, told, done⟩ := ih still
          refine ⟨?_, ?_, ?_⟩
          · rw [applyAll_cons, applyAll_cons, final, last, withIntake_withIntake]
          · rw [results_cons_of_kind _ _ feeds, results_cons_of_kind _ _ feeds, told]
          · rw [results_cons_of_other _ _ drives, done, same]
      | false =>
          have drives : op.drives = true := by
            simp [Op.drives, feeds]
          rw [List.filter_cons_of_pos drives] at heedless ⊢
          rw [List.filter_cons_of_neg (ne_true_of_eq_false feeds)]
          obtain ⟨first, more⟩ := heedless
          have kept : (w.apply op).world.withIntake w.link.intake = (w.apply op).world :=
            (congrArg Outcome.world (first w.link.intake)).symm
          obtain ⟨fed, news⟩ := applyAll_feed (w.apply op).world
            (fun op there => (List.mem_filter.mp there).2 : ∀ op ∈ rest.filter Op.feeds, _) w
          rw [kept] at fed news
          obtain ⟨final, told, done⟩ := ih more
          refine ⟨?_, ?_, ?_⟩
          · rw [applyAll_cons, applyAll_cons, final, fed, intake_withIntake]
          · rw [results_cons_of_other _ _ feeds, told, news]
          · rw [results_cons_of_kind _ _ drives, results_cons_of_kind _ _ drives, done]

/-! ## A step and its polls -/

section Step

variable {w : World cap ε} {op : Op ε} {id : Nat} {s : Station ε}

/-- A poll from a point that does not heed the intake. -/
theorem heedless_of_polls (here : w.station? id = some s) (polls : op.Polls id s .step)
    (heedless : (w.site s).Heedless s.post.point) :
    w.Heedless op ∧ (w.apply op).world.Engaged id := by
  have applied := apply_polls here polls
  refine ⟨fun i => ?_, ?_⟩
  · have exchanged := apply_polls (w := w.withIntake i) here polls
    obtain ⟨same, _⟩ := Site.poll_withIntake rfl heedless i
    rw [exchanged, applied]
    show (w.withIntake i).absorb id .step
      ((((w.site s).withIntake i).poll .step s.post.point).after op.announced) = _
    rw [same]
    rfl
  · obtain ⟨_, next⟩ := Site.poll_withIntake rfl heedless w.link.intake
    obtain ⟨held, place, waits, ends⟩ := station?_absorb here .step
      (((w.site s).poll .step s.post.point).after op.announced)
    intro t there
    rw [applied, place] at there
    cases there
    show held = none ∨ ∃ suspension, held = some (.step, suspension) ∧ _
    change ∀ suspension, ((w.site s).poll .step s.post.point).progress = _ → _ at waits
    change (∀ suspension, ((w.site s).poll .step s.post.point).progress ≠ _) → _ at ends
    generalize ((w.site s).poll .step s.post.point).progress = progress at next waits ends
    cases progress with
    | pending suspension =>
        rcases next with outset | heedless
        · cases outset
        · exact .inr ⟨suspension, waits suspension rfl, heedless⟩
    | stepped _ | halted _ | violated _ => exact .inl (ends (by simp))

/-- Another poll does not heed the intake either, or is refused. -/
theorem Engaged.poll (engaged : w.Engaged id) :
    w.Heedless (.poll id) ∧ (w.apply (.poll id)).world.Engaged id := by
  have refused (reply : Reply) (refuses : ∀ v : World cap ε, v.stations = w.stations →
      v.apply (.poll id) = ⟨v, reply, []⟩) :
      w.Heedless (.poll id) ∧ (w.apply (.poll id)).world.Engaged id := by
    rw [refuses w rfl]
    refine ⟨fun i => ?_, engaged⟩
    rw [refuses w rfl, refuses (w.withIntake i) rfl]
    rfl
  cases here : w.station? id with
  | none =>
      refine refused .absent fun v same => ?_
      have absent : v.station? id = none := by
        rw [← here, station?, same, station?]
      simp only [apply, absent]
  | some s =>
      rcases engaged s here with free | ⟨suspension, held, heedless⟩
      · refine refused .nothingHeld fun v same => ?_
        have there : v.station? id = some s := by
          rw [← here, station?, same, station?]
        simp only [apply, there, free]
      · refine heedless_of_polls here (.again held) ?_
        rw [Station.post, held]
        exact heedless _

theorem Engaged.polls (n : Nat) : ∀ {w : World cap ε}, w.Engaged id →
    w.AllHeedless (List.replicate n (.poll id)) := by
  induction n with
  | zero => exact fun _ => trivial
  | succ n ih => exact fun engaged => ⟨engaged.poll.1, ih engaged.poll.2⟩

end Step

end World

/-- **Producer timing is irrelevant** outside of the phases in which the worker heeds it.
Let a worker be about to make a step in any other phase, with a crew that handles what it
is asked in that step without feeding the link, and let the step be started and polled
any number of times. Then it makes no difference when producer and platform act, before
the step, between its polls or after it: the link and all workers are the same in the end,
each operation of the producer has the same result, and so has each poll of the step, with
all that happens in it. These are the results that each party has on its own. -/
theorem producer_timing_is_irrelevant [Crew ε] {w : World cap ε} {id : Nat} {s : Station ε}
    (here : w.station? id = some s) (free : s.held = none)
    (heedless : s.worker.phase.heeds = false)
    (discreet : ∀ job, s.worker.job? = some job → Discreet s.crew job.request)
    {polls : Nat} {ops others : List (Op ε)}
    (step : ops.filter Op.drives = .launch id .step :: List.replicate polls (.poll id))
    (steps : others.filter Op.drives = .launch id .step :: List.replicate polls (.poll id))
    (feeds : ops.filter Op.feeds = others.filter Op.feeds) :
    (w.applyAll ops).1 = (w.applyAll others).1 ∧
      w.results Op.feeds ops = w.results Op.feeds others ∧
      w.results Op.drives ops = w.results Op.drives others ∧
      w.results Op.feeds ops = w.results Op.feeds (ops.filter Op.feeds) ∧
      w.results Op.drives ops =
        w.results Op.drives (.launch id .step :: List.replicate polls (.poll id)) := by
  have post : s.post = ⟨s.worker, .outset⟩ := by
    rw [Station.post, free]
  have outset : (w.site s).Heedless s.post.point := by
    rw [post]
    exact .outset heedless discreet
  obtain ⟨first, engaged⟩ := World.heedless_of_polls here (.fresh free) outset
  have all : w.AllHeedless (.launch id .step :: List.replicate polls (.poll id)) :=
    ⟨first, engaged.polls polls⟩
  rw [← step] at all
  obtain ⟨last, told, done⟩ := World.apart all
  rw [step, ← steps] at all
  obtain ⟨otherLast, otherTold, otherDone⟩ := World.apart all
  rw [step] at done
  rw [steps] at otherDone
  refine ⟨?_, ?_, done.trans otherDone.symm, told, done⟩
  · rw [last, otherLast, step, steps, feeds]
  · rw [told, otherTold, feeds]

/-- Two batches and a wake come before the step to bring up the network, or in the middle
of it and after it. There is room for one of each. -/
theorem producer_timing_is_irrelevant_full :
    let w : World 1 Script :=
      World.after 1 [.boot {} { start := [{ polls := 1 }] }, .launch 0 .step]
    let early : List (Op Script) :=
      [.offer (.tagged 1), .nudge, .offer (.tagged 2), .launch 0 .step, .poll 0]
    let late : List (Op Script) :=
      [.launch 0 .step, .offer (.tagged 1), .nudge, .poll 0, .offer (.tagged 2)]
    (w.applyAll early).1 = (w.applyAll late).1 ∧
      w.results Op.feeds early = w.results Op.feeds late ∧
      w.results Op.drives early = w.results Op.drives late ∧
      (w.results Op.feeds late).map Prod.fst = [.accepted true, .accepted false, .accepted false] ∧
      (w.results Op.drives late).map Prod.fst =
        [.progress (.pending (.call .start 0 .ok)), .progress (.stepped .syncTime)] := by
  intro w early late
  have look : (w.station? 0).map (fun s => (s.held, s.worker.phase, s.crew)) =
      some (none, .connectNetwork, { start := [{ polls := 1 }] }) := by
    decide +kernel
  obtain ⟨s, here, same⟩ := Option.map_eq_some_iff.mp look
  obtain ⟨free, phase, crew⟩ : s.held = none ∧ s.worker.phase = .connectNetwork ∧
      s.crew = { start := [{ polls := 1 }] } := by
    simpa using same
  have discreet : ∀ job, s.worker.job? = some job → Discreet s.crew job.request := by
    unfold Worker.job?
    rw [phase, crew]
    intro job asks r answers
    cases asks
    cases answers
    exact ⟨rfl, rfl⟩
  have heedless : s.worker.phase.heeds = false := by
    rw [phase]
    rfl
  obtain ⟨world, told, done, _, _⟩ := @producer_timing_is_irrelevant 1 Script _ w 0 s here free heedless
    discreet 1 early late rfl rfl rfl
  refine ⟨world, told, done, ?_, ?_⟩ <;> decide +kernel

end StoreForward
