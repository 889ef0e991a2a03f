import StoreForward.Proofs.Patience
import StoreForward.Proofs.Signals
import StoreForward.Proofs.Stepwise

/-!
# Retries

A session that cannot be opened is tried again, at once and for ever unless the
settings say otherwise. A limit of `n` means that the budget is spent by the retry after
the `n`-th in a row, and the count is made before it is compared, so that the collector
is asked `n + 1` times; a session that has been opened gives the whole budget back. The
count stops at the largest number there is, which as a limit is therefore never
exceeded (`Settings.affords`).

How often a crew is going to refuse is a property of the crew (`Script.refusals`). How
long it keeps its worker waiting and what it puts into the outbox meanwhile makes no
difference: the steps are those of the crew in haste, and of link and worker they need no
more than `Dialing` says.

## Main definitions

* `requests` — the requests among some events.
* `Script.refusals` — how often a crew refuses a session from now on.
* `Settings.affords` — the settings allow for so many retries in a row.
* `Unrefused` — no session was refused since the latest one was opened.
* `Dialing` — a worker that tries to open a session, so many retries into it.

## Main results

* `Turn.fresh` — without a refusal there are no retries.
* `Dialing.connects`, `Dialing.givesUp` — what becomes of the attempts.
* `retry_law` — so it does whenever a worker is about to open a session.
-/

namespace StoreForward

variable {cap : Nat} {ε : Type}

/-! ## Requests -/

/-- The request, if the event is that one is made. -/
def Event.request? : Event → Option Request
  | called request => some request
  | _ => none

/-- The requests among some events, in order. -/
def requests (es : List Event) : List Request := es.filterMap Event.request?

@[simp] theorem requests_nil : requests [] = [] := rfl

@[simp] theorem requests_append (es fs : List Event) :
    requests (es ++ fs) = requests es ++ requests fs :=
  List.filterMap_append

theorem requests_quiet {es : List Event} (quiet : Quiet es) : requests es = [] := by
  refine List.filterMap_eq_nil_iff.mpr fun e there => ?_
  have silent := quiet e there
  cases e <;> first | rfl | cases silent

/-! ## Budgets -/

/-- The settings allow for so many retries in a row. A limit that the count of retries
cannot exceed is none. -/
def Settings.affords (s : Settings) (retries : Nat) : Prop :=
  ∀ limit, s.retryLimit = some limit → retries ≤ limit.toNat ∨ limit = 0xffffffff

theorem Settings.affords_of_le {s : Settings} {more fewer : Nat} (affords : s.affords more)
    (le : fewer ≤ more) : s.affords fewer := by
  intro limit limited
  rcases affords limit limited with room | endless
  · exact .inl (Nat.le_trans le room)
  · exact .inr endless

/-- The budget is spent exactly by a retry that it does not allow for. -/
theorem Worker.retriesExhausted_iff {w : Worker} {retries : Nat}
    (counts : w.retries.toNat = min retries maxRetries) :
    w.retriesExhausted = true ↔ ¬ w.settings.affords retries := by
  have largest : maxRetries = 4294967295 := rfl
  unfold retriesExhausted Settings.exhausted Settings.affords
  cases limited : w.settings.retryLimit with
  | none => simp
  | some limit =>
      have bound : limit.toNat < 4294967296 := limit.toNat_lt
      have endless : limit = 0xffffffff ↔ limit.toNat = 4294967295 :=
        UInt32.toNat_inj.symm
      simp only [decide_eq_true_iff, UInt32.lt_iff_toNat_lt, counts, Option.some.injEq,
        forall_eq', endless]
      omega

/-! ## Refusals -/

/-- How often a crew refuses a session before it opens one, from now on. -/
def Script.refusals (s : Script) : Nat := (s.connect.takeWhile fun r => r.answer.isFailed).length

namespace Script

variable {s : Script}

theorem refusals_hasten (s : Script) : s.hasten.refusals = s.refusals := by
  unfold refusals hasten
  rw [List.takeWhile_map, List.length_map]
  rfl

/-- As long as a crew refuses, a request uses up one of the refusals. -/
theorem respond_of_refusals {k : Nat} (refusals : s.refusals = k + 1) :
    (∃ error, (s.respond .connect).2.answer = .failed error) ∧
      (s.respond .connect).1.refusals = k := by
  unfold Script.refusals at refusals ⊢
  show (∃ error, (draw s.connect).1.answer = _) ∧
    ((draw s.connect).2.takeWhile fun r => r.answer.isFailed).length = k
  cases responses : s.connect with
  | nil =>
      rw [responses] at refusals
      cases refusals
  | cons r rest =>
      rw [responses, List.takeWhile_cons] at refusals
      show (∃ error, r.answer = _) ∧ (rest.takeWhile fun r => r.answer.isFailed).length = k
      cases answer : r.answer with
      | ok =>
          rw [answer] at refusals
          cases refusals
      | failed error =>
          rw [answer] at refusals
          exact ⟨⟨error, rfl⟩, Nat.succ.inj refusals⟩

/-- How a crew answers the `n`-th request for a session from now on. -/
def connectAnswer (s : Script) (n : Nat) : Answer := ((s.connect[n]?).getD .prompt).answer

/-- The refusals are those before the first request that succeeds. -/
theorem refusals_eq {n : Nat} (refuses : ∀ i < n, (s.connectAnswer i).isFailed = true)
    (opens : s.connectAnswer n = .ok) : s.refusals = n := by
  unfold connectAnswer at refuses opens
  unfold Script.refusals
  generalize s.connect = responses at refuses opens ⊢
  induction n generalizing responses with
  | zero =>
      cases responses with
      | nil => rfl
      | cons r rest =>
          have succeeds : r.answer = .ok := opens
          rw [List.takeWhile_cons, succeeds]
          rfl
  | succ n ih =>
      have first := refuses 0 (Nat.zero_lt_succ n)
      cases responses with
      | nil => cases first
      | cons r rest =>
          have failed : r.answer.isFailed = true := first
          rw [List.takeWhile_cons, if_pos failed, List.length_cons,
            ih rest (fun i lt => refuses (i + 1) (Nat.succ_lt_succ lt)) opens]

theorem respond_of_no_refusals (refusals : s.refusals = 0) :
    (s.respond .connect).2.answer = .ok := by
  unfold Script.refusals at refusals
  show (draw s.connect).1.answer = .ok
  cases responses : s.connect with
  | nil => rfl
  | cons r rest =>
      rw [responses, List.takeWhile_cons] at refusals
      show r.answer = .ok
      cases answer : r.answer with
      | ok => rfl
      | failed error =>
          rw [answer] at refusals
          cases refusals

end Script

/-! ## Without a refusal there are no retries -/

/-- The event is that a session has been opened. -/
def Event.opensSession (e : Event) : Bool := decide (e = .answered .connect .ok)

/-- The event is that a session has been refused. -/
def Event.isRefusal : Event → Bool
  | answered .connect (.failed _) => true
  | _ => false

/-- No session was refused since the latest one was opened, or at all if none was. -/
def Unrefused (es : List Event) : Prop := Without Event.isRefusal (since Event.opensSession es)

instance : DecidablePred Unrefused := fun es =>
  inferInstanceAs (Decidable (∀ e ∈ since Event.opensSession es, e.isRefusal = false))

theorem unrefused_append {es : List Event} (past : List Event)
    (unopened : Without Event.opensSession es) :
    Unrefused (past ++ es) ↔ Unrefused past ∧ Without Event.isRefusal es := by
  unfold Unrefused
  rw [since_append past unopened]
  exact without_append

/-- A worker to which no session was refused has nothing to retry. -/
def Fresh (w : Worker) (es : List Event) : Prop :=
  Unrefused es → w.retries = 0 ∧ w.phase ≠ .retrySession

theorem unopened_of_ungreeted {es : List Event} (ungreeted : Ungreeted es) :
    Without Event.opensSession es := by
  refine ungreeted.weaken fun e other => ?_
  refine decide_eq_false fun opens => ?_
  subst opens
  cases other

section Turns

variable {l l' l₁ : Link cap} {w w' w₁ : Worker} {source : Phase} {p q : Point}
  {past es : List Event}

/-- Only a refusal is retried. -/
theorem Closing.next_ne_retrySession (closing : Closing l w source p es l₁ w₁) (stands : w.At p)
    (held : w.phase = .publish → w.session.isSome = true)
    (candid : Candid l.status.picture w.phase) (unrefused : Without Event.isRefusal es) :
    source.next (l₁.guards w₁) ≠ .retrySession := by
  intro retries
  obtain ⟨connects, up⟩ := Phase.next_eq_retrySession retries
  obtain ⟨job, error, _, rfl, _⟩ := closing.raised stands held candid up
  cases closing with
  | failed job error =>
      cases job <;> cases connects
      cases unrefused _ List.mem_cons_self

/-- The end of an action leaves a worker fresh. -/
theorem Closing.fresh (closing : Closing l w source p es l₁ w₁) (stands : w.At p)
    (held : w.phase = .publish → w.session.isSome = true)
    (candid : Candid l.status.picture w.phase) (fresh : Fresh w past)
    (unrefused : Unrefused (past ++ es)) :
    w₁.retries = 0 ∧ source.next (l₁.guards w₁) ≠ .retrySession := by
  have kept (ungreeted : Ungreeted es)
      (retries : w.phase ≠ .retrySession → w₁.retries = w.retries) :
      w₁.retries = 0 ∧ source.next (l₁.guards w₁) ≠ .retrySession := by
    obtain ⟨before, none⟩ :=
      (unrefused_append past (unopened_of_ungreeted ungreeted)).mp unrefused
    obtain ⟨zero, elsewhere⟩ := fresh before
    exact ⟨(retries elsewhere).trans zero,
      closing.next_ne_retrySession stands held candid none⟩
  cases closing with
  | connected =>
      have down : l.status.failed = false := candid.down (by rw [stands.1]; rfl)
      refine ⟨rfl, ?_⟩
      show (if l.status.failed = true then Phase.retrySession else .ready) ≠ _
      rw [down]
      exact Phase.noConfusion
  | retried here => exact kept (by simp [Event.isGreeting]) fun other => absurd here other
  | succeeded job plain => exact kept (ungreeted_success plain) fun _ => rfl
  | failed job _ => exact kept (by cases job <;> simp [Event.isGreeting, Job.failure]) fun _ => rfl
  | _ => exact kept (by simp [Event.isGreeting]) fun _ => rfl

/-- Every turn leaves a worker fresh, if the signal is its own doing. -/
theorem Turn.fresh (turn : Turn l w p es l' w' q) (stands : w.At p)
    (held : w.phase = .publish → w.session.isSome = true)
    (candid : Candid l.status.picture w.phase) (fresh : Fresh w past) : Fresh w' (past ++ es) := by
  intro unrefused
  have kept (ungreeted : Ungreeted es) : w.retries = 0 ∧ w.phase ≠ .retrySession :=
    fresh ((unrefused_append past (unopened_of_ungreeted ungreeted)).mp unrefused).1
  cases turn with
  | call calling fed _ =>
      have still := kept (without_append.mpr ⟨by cases calling <;> simp [Event.isGreeting],
        without_cons.mpr ⟨by simp [Event.isGreeting], fed.ungreeted⟩⟩)
      cases calling <;> exact still
  | leave closing =>
      rw [← List.append_assoc] at unrefused
      exact closing.fresh stands held candid fresh
        ((unrefused_append _ (unopened_of_ungreeted (ungreeted_arrival _ _ _))).mp unrefused).1
  | _ => exact kept (by simp [Event.isGreeting])

end Turns

/-- The only worker of a link is fresh at every moment. -/
theorem fresh_next {m n : Moment cap} (coherent : Coherent m)
    (fresh : ∀ w p, m.posts[0]? = some (some ⟨w, p⟩) → Fresh w (own 0 m.journal))
    (next : m.Next (fun posts => posts = []) n) {w : Worker} {p : Point}
    (there : n.posts[0]? = some (some ⟨w, p⟩)) : Fresh w (own 0 n.journal) := by
  cases next.fate there with
  | stayed before same =>
      rw [same]
      exact fresh w p before
  | booted settings _ worker _ _ =>
      subst worker
      exact fun _ => ⟨rfl, Phase.noConfusion⟩
  | turned before turn journal =>
      obtain ⟨stands, agrees⟩ := coherent.housed.accounted.agree.here before
      rw [journal, own_append, own_entries_self]
      exact turn.fresh stands (fun publish => agrees.session (.inr publish))
        (coherent.candid_worker before) (fresh _ _ before)
  | announced before _ journal =>
      rw [journal, own_append, own_entries_self]
      exact fun unrefused => fresh w p before
        ((unrefused_append _ (by simp [Event.opensSession])).mp unrefused).1
  | cancelled before _ journal =>
      rw [journal]
      exact fresh w _ before

theorem fresh_after [Crew ε] {ops : List (Op ε)} (once : ops.countP Op.isBoot ≤ 1) {id : Nat}
    {s : Station ε} (here : (World.after cap ops).station? id = some s) :
    Fresh s.worker (own id (World.journal cap ops)) := by
  let holds (m : Moment cap) : Prop :=
    Coherent m ∧ ∀ w p, m.posts[0]? = some (some ⟨w, p⟩) → Fresh w (own 0 m.journal)
  have both : holds ((World.after cap ops).moment (World.journal cap ops)) :=
    World.invariant ⟨.start, fun _ _ there => by cases there⟩
      (fun _ _ before next => ⟨before.1.next next, fun _ _ => fresh_next before.1 before.2 next⟩)
      (boots_once once)
  have there := World.posts_of_station? here
  have only := both.1.sole.only there
  subst only
  exact both.2 _ _ there

/-! ## Steps of a crew in haste -/

section Sites

/-- The end of an action makes no request. -/
theorem Site.requests_finish (s : Site cap ε) (source : Phase) (notes : List Event) :
    requests (s.finish source notes).events = requests notes := by
  obtain ⟨_, _, happened⟩ := s.enter_eq source (source.next s.guards)
  show requests (notes ++ (s.enter source (source.next s.guards)).2) = _
  rw [happened, requests_append, requests_quiet (quiet_arrival _ _ _), List.append_nil]

variable {s : Site cap Script}

/-- A crew in haste is asked for a session, and has its answer ready. -/
theorem Site.move_connect (here : s.worker.phase = .connectSession)
    (free : s.worker.session = none) :
    ∃ (t : Site cap Script) (offers : List Event), s.link.Fed offers t.link ∧
      t.worker = s.worker ∧ t.crew = (s.crew.respond .connect).1.hasten ∧
      s.hasten.move .outset =
        ⟨t, .began .connectSession :: .called .connect :: offers,
          .goOn (.waiting (.call .connect 0 (s.crew.respond .connect).2.answer))⟩ := by
  let r := (s.crew.respond .connect).2
  let offered := s.link.offerAll r.enqueues
  let nudged := offered.1.nudgeTimes r.wakes
  have fed : s.link.Fed (offered.2 ++ nudged.2) nudged.1 :=
    (s.link.fed_offerAll r.enqueues).trans (Link.fed_nudgeTimes r.wakes offered.1)
  refine ⟨⟨nudged.1, s.worker, (s.crew.respond .connect).1.hasten⟩, _, fed, rfl, rfl, ?_⟩
  have reaction : Crew.react s.hasten.crew Job.connect.request =
      ((s.crew.respond .connect).1.hasten, .ok r.hasten) := by
    show ((s.crew.hasten.respond .connect).1, Except.ok (s.crew.hasten.respond .connect).2) = _
    rw [s.crew.respond_hasten]
  have begins : s.hasten.begin .connect [] =
      ⟨⟨nudged.1, s.worker, (s.crew.respond .connect).1.hasten⟩,
        .called .connect :: (offered.2 ++ nudged.2),
        .goOn (.waiting (.call .connect 0 r.answer))⟩ := by
    unfold begin
    rw [reaction]
    rfl
  have act : s.hasten.act = s.hasten.begin .connect [] := by
    simp [act, here, free]
  have phase : s.hasten.worker.phase = .connectSession := here
  exact move_of_act phase rfl (act.trans begins)

/-- Where the answer leads is where the whole step leads. -/
theorem Site.poll_connect (here : s.worker.phase = .connectSession)
    (free : s.worker.session = none) :
    ∃ (t : Site cap Script) (offers : List Event), s.link.Fed offers t.link ∧
      t.worker = s.worker ∧ t.crew = (s.crew.respond .connect).1.hasten ∧
      s.hasten.poll .step .outset =
        (t.poll .step (.waiting (.call .connect 0 (s.crew.respond .connect).2.answer))).after
          (.began .connectSession :: .called .connect :: offers) := by
  obtain ⟨t, offers, fed, worker, crew, asks⟩ := s.move_connect here free
  refine ⟨t, offers, fed, worker, crew, ?_⟩
  rw [poll_of_goOn (congrArg Move.verdict asks), asks]

/-- What a step comes to in which a crew in haste refuses a session. -/
theorem Site.poll_refused (here : s.worker.phase = .connectSession)
    (free : s.worker.session = none) {k : Nat} (refusals : s.crew.refusals = k + 1) :
    let o := s.hasten.poll .step .outset
    o.progress = .stepped .retrySession ∧ requests o.events = [.connect] ∧
      o.site.worker = { s.worker with phase := .retrySession } ∧ o.site.crew.refusals = k ∧
      o.site.link.status.fault = some .sessionConnect ∧
      o.site.link.status.retries = s.link.status.retries := by
  intro o
  obtain ⟨t, offers, fed, worker, crew, polled⟩ := s.poll_connect here free
  obtain ⟨⟨error, answer⟩, left⟩ := Script.respond_of_refusals refusals
  have ends : (t.move (.waiting (.call .connect 0 (.failed error)))).verdict =
      .finished .retrySession := rfl
  obtain ⟨_, status⟩ := fed.status_eq
  rw [show o = _ from polled, answer, poll_step_of_finished ends]
  refine ⟨rfl, ?_, ?_, ?_, rfl, ?_⟩
  · show requests (.began .connectSession :: .called .connect :: offers ++ _) = _
    rw [requests_append]
    show .connect :: requests offers ++ _ = _
    rw [requests_quiet fed.quiet]
    rfl
  · show { t.worker with phase := Phase.retrySession } = _
    rw [worker]
  · show t.crew.refusals = k
    rw [crew, Script.refusals_hasten, left]
  · show t.link.status.retries = _
    rw [status]

/-- What a step comes to in which a crew in haste opens a session. -/
theorem Site.poll_opened (here : s.worker.phase = .connectSession)
    (free : s.worker.session = none) (down : s.link.status.failed = false)
    (refusals : s.crew.refusals = 0) :
    let o := s.hasten.poll .step .outset
    o.progress = .stepped .ready ∧ requests o.events = [.connect] ∧
      o.site.worker = { s.worker.openSession with phase := .ready } ∧
      o.site.link.status.retries = s.link.status.retries := by
  intro o
  obtain ⟨t, offers, fed, worker, crew, polled⟩ := s.poll_connect here free
  have still : t.link.status.failed = false := fed.failed.trans down
  have target : Phase.connectSession.next t.welcome.1.guards = .ready := by
    show (if t.link.status.failed = true then Phase.retrySession else .ready) = .ready
    rw [still]
    rfl
  have ends : (t.move (.waiting (.call .connect 0 .ok))).verdict = .finished .ready :=
    congrArg Verdict.finished target
  obtain ⟨_, status⟩ := fed.status_eq
  have entered : (t.move (.waiting (.call .connect 0 .ok))).site =
      (t.welcome.1.enter .connectSession .ready).1 := by
    rw [← target]
    rfl
  rw [show o = _ from polled, Script.respond_of_no_refusals refusals, poll_step_of_finished ends,
    entered]
  refine ⟨rfl, ?_, ?_, ?_⟩
  · show requests (.began .connectSession :: .called .connect :: offers ++
      ([.answered .connect .ok] ++ (t.welcome.1.finish .connectSession _).events)) = _
    rw [requests_append, requests_append, requests_finish]
    show .connect :: requests offers ++ [] = _
    rw [requests_quiet fed.quiet]
    rfl
  · show { t.worker.openSession with phase := Phase.ready } = _
    rw [worker]
  · show t.link.status.retries = _
    rw [status]

/-- What a retry comes to. -/
theorem Site.poll_retry (here : s.worker.phase = .retrySession) {target : Phase}
    (leads : target = if s.worker.countRetry.retriesExhausted then .fatal else .connectSession) :
    let o := s.hasten.poll .step .outset
    o.progress = .stepped target ∧ requests o.events = [] ∧
      o.site.worker = { s.worker.countRetry with phase := target } ∧
      o.site.crew = s.crew.hasten ∧ o.site.link.status.failed = false ∧
      (s.link.status.fault = some .sessionConnect →
        o.site.link.status.fault = some .sessionConnect) ∧
      o.site.link.status.retries = s.link.status.retries + 1 := by
  intro o
  let counted : Site cap Script :=
    { s.hasten with worker := s.worker.countRetry }.mapStatus
      fun st => { st.lower with retries := st.retries + 1 }
  have move : s.hasten.move .outset =
      { counted.finish .retrySession [.noticed (.retrying s.worker.countRetry.retries)] with
        events := .began .retrySession ::
          (counted.finish .retrySession
            [.noticed (.retrying s.worker.countRetry.retries)]).events } := by
    have act : s.hasten.act = s.hasten.retry := by
      simp [act, here]
    have phase : s.hasten.worker.phase = .retrySession := here
    exact move_of_act phase rfl act
  have next : Phase.retrySession.next counted.guards = target := leads.symm
  have ends : (s.hasten.move .outset).verdict = .finished target := by
    rw [move, ← next]
    rfl
  have entered : (s.hasten.move .outset).site = (counted.enter .retrySession target).1 := by
    rw [move, ← next]
    rfl
  have asks : requests (s.hasten.move .outset).events = [] := by
    rw [move]
    exact counted.requests_finish .retrySession _
  rw [show o = _ from poll_step_of_finished ends, entered]
  clear ends entered next
  by_cases spent : s.worker.countRetry.retriesExhausted = true
  · rw [if_pos spent] at leads
    subst leads
    refine ⟨rfl, asks, rfl, rfl, rfl, fun shown => ?_, rfl⟩
    show some (s.link.status.fault.getD .unexpected) = _
    rw [shown]
    rfl
  · rw [if_neg spent] at leads
    subst leads
    exact ⟨rfl, asks, rfl, rfl, rfl, fun shown => shown, rfl⟩

end Sites

/-! ## Attempts -/

/-- What a patient step comes to that ends with no rest, in terms of the crew in haste. -/
theorem World.perform_step {w : World cap Script} {id : Nat} {s : Station Script}
    (here : w.station? id = some s) (free : s.held = none) :
    let o := (w.site s).hasten.poll .step .outset
    let done := w.perform id .step
    done.reply = .progress o.progress ∧ own id done.entries = o.events ∧
      done.world.link = o.site.link ∧
      ∀ phase, o.progress = .stepped phase → ∃ t, done.world.station? id = some t ∧
        t.held = none ∧ t.worker = o.site.worker ∧ t.crew.hasten = o.site.crew := by
  intro o done
  have there := w.station?_hasten id
  rw [here] at there
  have same : done.hasten = w.hasten.absorb id .step o := by
    have applied := apply_polls there (.fresh free : Op.Polls id s.hasten .step (.launch id .step))
    rw [Station.point_of_free (s := s.hasten) free] at applied
    exact (w.perform_hasten id .step).trans applied
  have reply : done.reply = .progress o.progress := congrArg Outcome.reply same
  have happened : done.entries = entries (.worker id) o.events := congrArg Outcome.entries same
  have world : done.world.hasten = (w.hasten.absorb id .step o).world := congrArg Outcome.world same
  refine ⟨reply, ?_, congrArg World.link world, fun phase stepped => ?_⟩
  · rw [happened, own_entries_self]
  · obtain ⟨held, place, _, settled⟩ := station?_absorb there .step o
    rw [← world, station?_hasten] at place
    obtain ⟨t, found, hastened⟩ := Option.map_eq_some_iff.mp place
    have none : held = .none := settled fun suspension waits => by
      rw [stepped] at waits
      cases waits
    refine ⟨t, found, ?_, congrArg Station.worker hastened, congrArg Station.crew hastened⟩
    rw [← none]
    exact congrArg Station.held hastened

/-- A worker that tries to open a session and has retried so many times already. -/
structure Dialing (w : World cap Script) (id : Nat) (s : Station Script) (phase : Phase)
    (retries : Nat) : Prop where
  here : w.station? id = some s
  free : s.held = none
  stands : s.worker.phase = phase
  session : s.worker.session = none
  counts : s.worker.retries.toNat = min retries maxRetries
  down : phase = .connectSession → w.link.status.failed = false
  blamed : phase = .retrySession → w.link.status.fault = some .sessionConnect

namespace Dialing

variable {w : World cap Script} {id : Nat} {s : Station Script} {retries k : Nat}

/-- A session is refused. -/
theorem refused (dialing : Dialing w id s .connectSession retries)
    (refusals : s.crew.refusals = k + 1) :
    let o := w.perform id .step
    o.reply = .progress (.stepped .retrySession) ∧ requests (own id o.entries) = [.connect] ∧
      o.world.link.status.retries = w.link.status.retries ∧
      ∃ t, Dialing o.world id t .retrySession retries ∧ t.crew.refusals = k ∧
        t.worker.settings = s.worker.settings := by
  intro o
  obtain ⟨stepped, asked, worker, left, fault, count⟩ :=
    Site.poll_refused (s := w.site s) dialing.stands dialing.session refusals
  obtain ⟨reply, happened, link, settles⟩ := World.perform_step dialing.here dialing.free
  obtain ⟨t, there, free, same, crew⟩ := settles _ stepped
  rw [worker] at same
  refine ⟨reply.trans (congrArg _ stepped), (congrArg requests happened).trans asked,
    (congrArg (·.status.retries) link).trans count, t, ⟨there, free, ?_, ?_, ?_,
      fun other => Phase.noConfusion other, fun _ => (congrArg (·.status.fault) link).trans fault⟩,
    ?_, ?_⟩
  · rw [same]
  · rw [same]
    exact dialing.session
  · rw [same]
    exact dialing.counts
  · rw [← t.crew.refusals_hasten, crew, left]
  · rw [same]
    rfl

/-- The budget is not spent, and the session is tried again. -/
theorem retried (dialing : Dialing w id s .retrySession retries)
    (affords : s.worker.settings.affords (retries + 1)) :
    let o := w.perform id .step
    o.reply = .progress (.stepped .connectSession) ∧ requests (own id o.entries) = [] ∧
      o.world.link.status.retries = w.link.status.retries + 1 ∧
      ∃ t, Dialing o.world id t .connectSession (retries + 1) ∧
        t.crew.refusals = s.crew.refusals ∧ t.worker.settings = s.worker.settings := by
  intro o
  have counts := Worker.retries_countRetry dialing.counts
  have room : ¬ s.worker.countRetry.retriesExhausted = true := fun spent =>
    (Worker.retriesExhausted_iff counts).mp spent affords
  obtain ⟨stepped, asked, worker, same, down, _, count⟩ :=
    Site.poll_retry (s := w.site s) dialing.stands (if_neg room).symm
  obtain ⟨reply, happened, link, settles⟩ := World.perform_step dialing.here dialing.free
  obtain ⟨t, there, free, is, crew⟩ := settles _ stepped
  rw [worker] at is
  refine ⟨reply.trans (congrArg _ stepped), (congrArg requests happened).trans asked,
    (congrArg (·.status.retries) link).trans count, t, ⟨there, free, ?_, ?_, ?_,
      fun _ => (congrArg (·.status.failed) link).trans down, fun other => Phase.noConfusion other⟩,
    ?_, ?_⟩
  · rw [is]
  · rw [is]
    exact dialing.session
  · rw [is]
    exact counts
  · rw [← t.crew.refusals_hasten, crew, same]
    exact s.crew.refusals_hasten
  · rw [is]
    rfl

/-- The budget is spent, and the worker halts. -/
theorem spent (dialing : Dialing w id s .retrySession retries)
    (poor : ¬ s.worker.settings.affords (retries + 1)) :
    let o := w.perform id .step
    o.reply = .progress (.stepped .fatal) ∧ requests (own id o.entries) = [] ∧
      o.world.link.status.retries = w.link.status.retries + 1 ∧
      o.world.link.status.fault = some .sessionConnect ∧
      ∃ t, o.world.station? id = some t ∧ t.held = none ∧ t.worker.phase = .fatal := by
  intro o
  have spent := (Worker.retriesExhausted_iff (Worker.retries_countRetry dialing.counts)).mpr poor
  obtain ⟨stepped, asked, worker, _, _, fault, count⟩ :=
    Site.poll_retry (s := w.site s) dialing.stands (if_pos spent).symm
  obtain ⟨reply, happened, link, settles⟩ := World.perform_step dialing.here dialing.free
  obtain ⟨t, there, free, is, _⟩ := settles _ stepped
  refine ⟨reply.trans (congrArg _ stepped), (congrArg requests happened).trans asked,
    (congrArg (·.status.retries) link).trans count,
    (congrArg (·.status.fault) link).trans (fault (dialing.blamed rfl)), t, there, free, ?_⟩
  rw [is, worker]

/-- A session is opened, and the whole budget is available again. -/
theorem opened (dialing : Dialing w id s .connectSession retries) (refusals : s.crew.refusals = 0) :
    let o := w.perform id .step
    o.reply = .progress (.stepped .ready) ∧ requests (own id o.entries) = [.connect] ∧
      o.world.link.status.retries = w.link.status.retries ∧
      ∃ t, o.world.station? id = some t ∧ t.held = none ∧ t.worker.phase = .ready ∧
        t.worker.retries = 0 ∧ t.worker.settings = s.worker.settings := by
  intro o
  obtain ⟨stepped, asked, worker, count⟩ :=
    Site.poll_opened (s := w.site s) dialing.stands dialing.session (dialing.down rfl) refusals
  obtain ⟨reply, happened, link, settles⟩ := World.perform_step dialing.here dialing.free
  obtain ⟨t, there, free, is, _⟩ := settles _ stepped
  refine ⟨reply.trans (congrArg _ stepped), (congrArg requests happened).trans asked,
    (congrArg (·.status.retries) link).trans count, t, there, free, ?_⟩
  rw [is, worker]
  exact ⟨rfl, rfl, rfl⟩

end Dialing

/-! ## Row after row -/

/-- The replies of steps that lead through some phases. -/
def stepped (phases : List Phase) : List Reply := phases.map fun phase => .progress (.stepped phase)

@[simp] theorem stepped_append (phases more : List Phase) :
    stepped (phases ++ more) = stepped phases ++ stepped more :=
  List.map_append

namespace World

/-- Step a worker patiently until it is ready, at most so many times. -/
def dial (w : World cap Script) (id limit : Nat) : World cap Script × List Reply × List Entry :=
  w.chain (fun v => v.perform id .step) (fun phase => decide (phase = .ready)) limit

/-- A complete step that does not make the worker ready is followed by the next. -/
theorem dial_of_live {w : World cap Script} {id : Nat} {phase : Phase}
    (reply : (w.perform id .step).reply = .progress (.stepped phase)) (live : phase ≠ .ready)
    (limit : Nat) :
    w.dial id (limit + 1) =
      let rest := (w.perform id .step).world.dial id limit
      (rest.1, stepped [phase] ++ rest.2.1, (w.perform id .step).entries ++ rest.2.2) := by
  show chain _ _ (limit + 1) w = _
  unfold chain
  dsimp only
  rw [reply]
  exact if_neg (by simpa using live)

theorem dial_of_ready {w : World cap Script} {id : Nat}
    (reply : (w.perform id .step).reply = .progress (.stepped .ready)) (limit : Nat) :
    w.dial id (limit + 1) =
      ((w.perform id .step).world, stepped [.ready], (w.perform id .step).entries) := by
  show chain _ _ (limit + 1) w = _
  unfold chain
  dsimp only
  rw [reply]
  rfl

/-- A worker that has halted can be stepped for ever. -/
theorem dial_of_fatal {w : World cap Script} {id : Nat} {s : Station Script}
    (here : w.station? id = some s) (free : s.held = none) (halted : s.worker.phase = .fatal)
    (limit : Nat) : w.dial id limit = (w, stepped (List.replicate limit .fatal), []) := by
  have same : w.perform id .step = ⟨w, .progress (.stepped .fatal), []⟩ := by
    unfold perform
    rw [launch_of_fatal here free halted]
    rfl
  induction limit with
  | zero => rfl
  | succ limit ih =>
      have reply := congrArg Outcome.reply same
      rw [dial_of_live reply Phase.noConfusion, same]
      dsimp only
      rw [ih]
      rfl

end World

namespace Dialing

variable {w : World cap Script} {id : Nat} {s : Station Script} {retries k : Nat}

/-- A session is refused and tried again. -/
theorem again (dialing : Dialing w id s .connectSession retries)
    (refusals : s.crew.refusals = k + 1) (affords : s.worker.settings.affords (retries + 1)) :
    ∃ (v : World cap Script) (t : Station Script) (passed : List Entry),
      Dialing v id t .connectSession (retries + 1) ∧ t.crew.refusals = k ∧
      t.worker.settings = s.worker.settings ∧
      v.link.status.retries = w.link.status.retries + 1 ∧ requests (own id passed) = [.connect] ∧
      ∀ limit, w.dial id (limit + 2) =
        ((v.dial id limit).1, stepped [.retrySession, .connectSession] ++ (v.dial id limit).2.1,
          passed ++ (v.dial id limit).2.2) := by
  obtain ⟨reply, asked, count, t, failing, left, settings⟩ := dialing.refused refusals
  rw [← settings] at affords
  obtain ⟨reply', asked', count', u, back, left', settings'⟩ := failing.retried affords
  let first := w.perform id .step
  let second := first.world.perform id .step
  refine ⟨second.world, u, first.entries ++ second.entries, back, left'.trans left,
    settings'.trans settings, ?_, ?_, fun limit => ?_⟩
  · rw [count', count]
  · rw [own_append, requests_append, asked, asked']
    rfl
  · rw [World.dial_of_live reply Phase.noConfusion, World.dial_of_live reply' Phase.noConfusion,
      List.append_assoc]
    rfl

/-- **Refusals within the budget.** After as many retries as there are refusals the
worker is ready. -/
theorem connects (dialing : Dialing w id s .connectSession retries)
    (refusals : s.crew.refusals = k) (affords : s.worker.settings.affords (retries + k))
    {limit : Nat} (enough : 2 * k + 1 ≤ limit) :
    let done := w.dial id limit
    done.2.1 = stepped ((List.replicate k [.retrySession, .connectSession]).flatten ++ [.ready]) ∧
      requests (own id done.2.2) = List.replicate (k + 1) .connect ∧
      done.1.link.status.retries = w.link.status.retries + UInt32.ofNat k ∧
      ∃ t, done.1.station? id = some t ∧ t.held = none ∧ t.worker.phase = .ready ∧
        t.worker.retries = 0 ∧ t.worker.settings = s.worker.settings := by
  induction k generalizing w s retries limit with
  | zero =>
      obtain ⟨more, rfl⟩ : ∃ more, limit = more + 1 := ⟨limit - 1, by omega⟩
      obtain ⟨reply, asked, count, ready⟩ := dialing.opened refusals
      dsimp only
      rw [World.dial_of_ready reply]
      exact ⟨rfl, asked, count.trans (UInt32.add_zero _).symm, ready⟩
  | succ k ih =>
      obtain ⟨more, rfl⟩ : ∃ more, limit = more + 2 := ⟨limit - 2, by omega⟩
      obtain ⟨v, t, passed, back, left, settings, count, asked, goesOn⟩ :=
        dialing.again refusals (Settings.affords_of_le affords (by omega))
      obtain ⟨replies, requests', count', u, ready⟩ :=
        ih back left (by rw [settings, Nat.add_right_comm]; exact affords)
          (show 2 * k + 1 ≤ more by omega)
      rw [settings] at ready
      dsimp only
      rw [goesOn]
      refine ⟨?_, ?_, ?_, u, ready⟩
      · rw [replies, ← stepped_append, List.replicate_succ, List.flatten_cons, List.append_assoc]
      · rw [own_append, requests_append, asked, requests']
        rfl
      · rw [count', count, UInt32.ofNat_add, UInt32.add_assoc, UInt32.add_comm 1]
        rfl

/-- **Refusals beyond the budget.** After as many retries as the budget allows for, the
next one halts the worker, which asks for no session any more. -/
theorem givesUp (dialing : Dialing w id s .connectSession retries) {spare : Nat}
    {bound : UInt32} (limited : s.worker.settings.retryLimit = some bound)
    (finite : bound ≠ 0xffffffff) (room : retries + spare = bound.toNat)
    (beyond : spare < s.crew.refusals) {limit : Nat} (enough : 2 * spare + 2 ≤ limit) :
    let done := w.dial id limit
    done.2.1 = stepped ((List.replicate spare [.retrySession, .connectSession]).flatten ++
        .retrySession :: List.replicate (limit - (2 * spare + 1)) .fatal) ∧
      requests (own id done.2.2) = List.replicate (spare + 1) .connect ∧
      done.1.link.status.retries = w.link.status.retries + UInt32.ofNat (spare + 1) ∧
      done.1.link.status.fault = some .sessionConnect ∧
      ∃ t, done.1.station? id = some t ∧ t.held = none ∧ t.worker.phase = .fatal := by
  obtain ⟨k, refusals⟩ : ∃ k, s.crew.refusals = k + 1 := ⟨s.crew.refusals - 1, by omega⟩
  obtain ⟨more, rfl⟩ : ∃ more, limit = more + 2 := ⟨limit - 2, by omega⟩
  induction spare generalizing w s retries k more with
  | zero =>
      obtain ⟨reply, asked, count, t, failing, left, settings⟩ := dialing.refused refusals
      have poor : ¬ t.worker.settings.affords (retries + 1) := fun affords => by
        rw [settings] at affords
        rcases affords bound limited with few | endless
        · omega
        · exact finite endless
      obtain ⟨reply', asked', count', fault, u, there, free, halted⟩ := failing.spent poor
      dsimp only
      rw [World.dial_of_live reply Phase.noConfusion, World.dial_of_live reply' Phase.noConfusion]
      dsimp only
      rw [World.dial_of_fatal there free halted]
      refine ⟨rfl, ?_, count'.trans (congrArg (· + 1) count), fault, u, there, free, halted⟩
      rw [List.append_nil, own_append, requests_append, asked, asked']
      rfl
  | succ spare ih =>
      have affords : s.worker.settings.affords (retries + 1) := fun other same => by
        cases limited.symm.trans same
        exact .inl (by omega)
      obtain ⟨v, t, passed, back, left, settings, count, asked, goesOn⟩ :=
        dialing.again refusals affords
      obtain ⟨fewer, rfl⟩ : ∃ fewer, k = fewer + 1 := ⟨k - 1, by omega⟩
      obtain ⟨steps, rfl⟩ : ∃ steps, more = steps + 2 := ⟨more - 2, by omega⟩
      obtain ⟨replies, requests', count', halted⟩ :=
        ih back (by rw [settings]; exact limited) (by omega) (by omega) fewer left steps (by omega)
      have further : steps + 2 + 2 - (2 * (spare + 1) + 1) = steps + 2 - (2 * spare + 1) := by
        omega
      dsimp only
      rw [goesOn]
      refine ⟨?_, ?_, ?_, halted⟩
      · rw [replies, ← stepped_append, List.replicate_succ, List.flatten_cons, List.append_assoc,
          further]
      · rw [own_append, requests_append, asked, requests']
        rfl
      · rw [count', count, UInt32.ofNat_add (spare + 1), UInt32.add_assoc, UInt32.add_comm 1]
        rfl

end Dialing

section Histories

/-- The only worker of a link to which no session was refused starts to dial with its
whole budget. -/
theorem dialing_after {ops : List (Op Script)} (once : ops.countP Op.isBoot ≤ 1) {id : Nat}
    {s : Station Script} (here : (World.after cap ops).station? id = some s) (free : s.held = none)
    (dials : s.worker.phase = .connectSession)
    (unrefused : Unrefused (own id (World.journal cap ops))) :
    Dialing (World.after cap ops) id s .connectSession 0 := by
  have coherent : Coherent ((World.after cap ops).moment (World.journal cap ops)) :=
    coherent_after once
  have there := World.posts_of_station? here
  have only := coherent.sole.only there
  have closed : s.worker.session.isSome = false := by
    rw [Bool.eq_false_iff]
    intro session
    rcases coherent.housed.held _ _ _ there session with inside | ⟨halted, _⟩
    · rw [dials] at inside
      cases inside
    · rw [dials] at halted
      cases halted
  refine ⟨here, free, dials, Option.not_isSome_iff_eq_none.mp (by simp [closed]), ?_, fun _ => ?_,
    fun other => Phase.noConfusion other⟩
  · rw [(fresh_after once here unrefused).1]
    rfl
  · subst only
    exact (coherent.candid_worker there).down (by rw [dials]; rfl)

/-- **The retry law.** Let the only worker of a link be about to open a session, and let no
session have been refused to it since its latest one or since it was booted. If its crew is
going to refuse `n` more and to open the one after, whatever else the crew does and however
long it takes, then the worker, stepped again and again, asks `n + 1` times and is ready after
`n` retries, with its whole budget available again, if the settings allow for that many. If
the limit is below `n`, it asks once more than the limit says and never again: it halts at the
retry after the last one that the limit allows for, and the session is what it failed at. The
link counts every retry. -/
theorem retry_law {ops : List (Op Script)} (alone : ops.countP Op.isBoot = 1) {id : Nat}
    {s : Station Script} (here : (World.after cap ops).station? id = some s) (free : s.held = none)
    (dials : s.worker.phase = .connectSession)
    (unrefused : Unrefused (own id (World.journal cap ops))) {n : Nat}
    (refuses : ∀ i < n, (s.crew.connectAnswer i).isFailed = true)
    (opens : s.crew.connectAnswer n = .ok) :
    let world := World.after cap ops
    (s.worker.settings.affords n → ∀ limit, 2 * n + 1 ≤ limit →
      let done := world.dial id limit
      done.2.1 = stepped ((List.replicate n [.retrySession, .connectSession]).flatten ++ [.ready]) ∧
        requests (own id done.2.2) = List.replicate (n + 1) .connect ∧
        done.1.link.tally.retries = world.link.tally.retries + UInt32.ofNat n ∧
        ∃ t, done.1.station? id = some t ∧ t.held = none ∧ t.worker.phase = .ready ∧
          t.worker.retries = 0 ∧ t.worker.settings = s.worker.settings) ∧
    ∀ bound, s.worker.settings.retryLimit = some bound → bound ≠ 0xffffffff → bound.toNat < n →
      ∀ limit, 2 * bound.toNat + 2 ≤ limit →
      let done := world.dial id limit
      done.2.1 = stepped ((List.replicate bound.toNat [.retrySession, .connectSession]).flatten ++
          .retrySession :: List.replicate (limit - (2 * bound.toNat + 1)) .fatal) ∧
        requests (own id done.2.2) = List.replicate (bound.toNat + 1) .connect ∧
        done.1.link.tally.retries = world.link.tally.retries + UInt32.ofNat (bound.toNat + 1) ∧
        done.1.link.status.fault = some .sessionConnect ∧
        ∃ t, done.1.station? id = some t ∧ t.held = none ∧ t.worker.phase = .fatal := by
  intro world
  have dialing := dialing_after (Nat.le_of_eq alone) here free dials unrefused
  have refusals := Script.refusals_eq refuses opens
  refine ⟨fun affords limit enough => ?_, fun bound limited finite beyond limit enough => ?_⟩
  · exact dialing.connects refusals ((Nat.zero_add n).symm ▸ affords) enough
  · exact dialing.givesUp limited finite (Nat.zero_add _) (refusals.symm ▸ beyond) enough

/-- A worker may retry twice. Two refusals in a row are made up for, and a third is one too
many. Each takes its time and fills the outbox. -/
theorem retry_law_at_limit :
    let refused : Response :=
      { enqueues := [.tagged 5], wakes := 1, polls := 2, answer := .failed ⟨.other, ""⟩ }
    let twice := [refused, refused, { polls := 1 }]
    let thrice := [refused, refused, refused, { polls := 1 }]
    let ops (connect : List Response) : List (Op Script) :=
      [.boot { syncOnBoot := false, retryLimit := some 2 } { connect }, .launch 0 .step,
        .launch 0 .step]
    let dialled (connect : List Response) := (World.after 2 (ops connect)).dial 0 7
    (∀ connect, (ops connect).countP Op.isBoot = 1) ∧
      (∃ s, (World.after 2 (ops thrice)).station? 0 = some s ∧ s.held = none ∧
        s.worker.phase = .connectSession ∧ s.crew.connect = thrice) ∧
      Unrefused (own 0 (World.journal 2 (ops thrice))) ∧
      (dialled twice).2.1 =
        stepped [.retrySession, .connectSession, .retrySession, .connectSession, .ready] ∧
      requests (own 0 (dialled twice).2.2) = [.connect, .connect, .connect] ∧
      (dialled thrice).2.1 =
        stepped [.retrySession, .connectSession, .retrySession, .connectSession, .retrySession,
          .fatal, .fatal] ∧
      requests (own 0 (dialled thrice).2.2) = [.connect, .connect, .connect] ∧
      (dialled thrice).1.link.status.fault = some .sessionConnect := by
  intro refused twice thrice ops dialled
  have alone (connect : List Response) : (ops connect).countP Op.isBoot = 1 := rfl
  have unrefused : Unrefused (own 0 (World.journal 2 (ops twice))) ∧
      Unrefused (own 0 (World.journal 2 (ops thrice))) := by
    decide +kernel
  let seen (s : Station Script) := (s.held, s.worker.phase, s.worker.settings, s.crew.connect)
  let settings : Settings := { syncOnBoot := false, retryLimit := some 2 }
  have first : ((World.after 2 (ops twice)).station? 0).map seen =
      some (none, .connectSession, settings, twice) := by
    decide +kernel
  have second : ((World.after 2 (ops thrice)).station? 0).map seen =
      some (none, .connectSession, settings, thrice) := by
    decide +kernel
  obtain ⟨s, here, facts⟩ := Option.map_eq_some_iff.mp first
  obtain ⟨t, there, others⟩ := Option.map_eq_some_iff.mp second
  simp only [seen, Prod.mk.injEq] at facts others
  obtain ⟨free, phase, limited, crew⟩ := facts
  obtain ⟨free', phase', limited', crew'⟩ := others
  have within := (retry_law (alone _) here free phase unrefused.1 (n := 2)
    (by unfold Script.connectAnswer; rw [crew]; decide)
    (by unfold Script.connectAnswer; rw [crew]; rfl)).1
  have beyond := (retry_law (alone _) there free' phase' unrefused.2 (n := 3)
    (by unfold Script.connectAnswer; rw [crew']; decide)
    (by unfold Script.connectAnswer; rw [crew']; rfl)).2
  rw [limited] at within
  rw [limited'] at beyond
  obtain ⟨replies, asked, _⟩ := within (fun _ same => .inl (by cases same; decide)) 7 (by decide)
  obtain ⟨replies', asked', _, fault, _⟩ := beyond 2 rfl (by decide) (by decide) 7 (by decide)
  exact ⟨alone, ⟨t, there, free', phase', crew'⟩, unrefused.2, replies, asked, replies', asked',
    fault⟩

end Histories

end StoreForward
