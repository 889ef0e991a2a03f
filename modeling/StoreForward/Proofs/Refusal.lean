import StoreForward.Proofs.Hints
import StoreForward.Proofs.Signals

/-!
# Successors on a halted link

A worker that is booted looks at one thing before it brings up the network: whether a
failure is being signalled. So whether the successors of a worker that has halted are
kept from its crew depends on what the halt has left of the signal. A request that
failed has raised it and the halt leaves it up; a retry lowers it first and finds out
that the budget is spent afterwards (`signal_at_halts`).

With the signal up nobody gets past `start` any more. Each successor halts in its first
step with an unexpected failure, which leaves the signal as it was, and the others have
halted already or are gone (`Barred`). With the signal down the next worker goes to
work as if nothing had happened, although the link shows that it has halted.

## Main definitions

* `HaltsSignalled` — what a halt finds the signal at.
* `Barred` — the signal is up, and nobody there has got past `start`.
* `Guarded`, `Refusing` — links that will be barred by a failed request, and that have been.

## Main results

* `signal_at_halts` — what every halt leaves of the signal.
* `Barred.next` — nobody gets past `start` any more.
* `halted_link_refuses` — a halt by a failed request keeps all successors from their
  crews.
* `halted_link_reused` — a halt for want of retries does not.
-/

namespace StoreForward

variable {cap : Nat} {ε : Type}

/-! ## Halts -/

section Turns

variable {l l' l₁ : Link cap} {w w' w₁ : Worker} {source : Phase} {p q : Point}
  {es : List Event}

/-- A halt finds the signal up if a request has failed, and lowered if the budget for
retries is spent. -/
theorem Closing.failed_of_halt (closing : Closing l w source p es l₁ w₁)
    (halts : source.next (l₁.guards w₁) = .fatal) :
    l₁.status.failed = decide (source ≠ .retrySession) := by
  by_cases retries : source = .retrySession
  · rw [decide_eq_false (not_not_intro retries)]
    cases closing with
    | retried _ => rfl
    | succeeded job _ | failed job _ => cases job <;> cases retries
    | _ => cases retries
  · rw [decide_eq_true retries]
    exact (Phase.next_eq_fatal closing.live halts).resolve_right retries

/-- A turn in which a worker enters a phase completes a step. -/
theorem Turn.leave_of_entered (turn : Turn l w p es l' w' q) {target : Phase}
    (entered : .entered source target ∈ es) :
    ∃ (before : List Event) (l₁ : Link cap) (w₁ : Worker), Closing l w source p before l₁ w₁ ∧
      target = source.next (l₁.guards w₁) ∧
      es = before ++ arrival l₁.status source target ∧
      l' = { l₁ with status := l₁.status.enter source target } ∧
      w' = { w₁ with phase := target } ∧ q = .outset := by
  rcases turn.unended_or_leaves with
    ⟨unended, _⟩ | ⟨begun, before, l₁, w₁, closing, rfl, rfl, rfl, rfl⟩
  · cases unended _ entered
  · rcases List.mem_append.mp entered with earlier | here
    · cases unended_of_opens closing.opens _ earlier
    · obtain ⟨asides, arrival, rest⟩ := arrival_eq l₁.status begun (begun.next (l₁.guards w₁))
      rw [arrival] at here
      rcases List.mem_cons.mp here with same | later
      · cases same
        exact ⟨before, l₁, w₁, closing, rfl, rfl, rfl, rfl, rfl⟩
      · cases unended_of_asides rest _ later

/-- A worker that has halted waits for nothing. -/
theorem Worker.At.outset_of_fatal (stands : w.At p) (halted : w.phase = .fatal) : p = .outset := by
  match p with
  | .outset => rfl
  | .draining _ _ | .waiting .parked => cases halted.symm.trans stands.1
  | .waiting (.call job _ _) =>
      have phase := halted.symm.trans stands.1
      cases job <;> cases phase

/-- What happens in the first step of a worker that is refused. -/
def refusal : List Event :=
  [.began .start, .entered .start .fatal, .noticed (.entered .start .fatal),
    .noticed (.halted .start .unexpected)]

/-- With the signal up a worker that has not begun halts in its first turn. -/
theorem Turn.eq_of_start (turn : Turn l w p es l' w' q) (stands : w.At p) (new : w.phase = .start)
    (up : l.status.failed = true) :
    es = refusal ∧ l' = { l with status := l.status.enter .start .fatal } ∧
      w' = { w with phase := .fatal } ∧ q = .outset := by
  have elsewhere {phase : Phase} (here : w.phase = phase) (other : phase ≠ .start) : False :=
    other (here.symm.trans new)
  cases turn with
  | leave closing =>
      have source := (closing.phase_eq stands).symm.trans new
      cases closing with
      | started _ =>
          have halts : Phase.start.next (l.guards w) = .fatal := if_pos up
          rw [halts]
          exact ⟨rfl, rfl, rfl, rfl⟩
      | succeeded job _ | failed job _ => cases job <;> cases source
      | _ => cases source
  | call calling _ _ =>
      cases calling with
      | publish _ => exact (elsewhere stands.1 (by simp)).elim
      | start here | sync here | connect here _ | close here _ | stop here =>
          exact (elsewhere here (by simp)).elim
  | opened here _ | refused here _ | park here _ | halted here =>
      exact (elsewhere here (by simp)).elim
  | published _ | overflown => exact (elsewhere stands.1 (by simp [Job.phase])).elim
  | @wait job _ _ => exact (elsewhere stands.1 (by cases job <;> simp [Job.phase])).elim
  | rest _ => exact (elsewhere stands.1 (by simp)).elim

end Turns

/-- What every halt finds the signal at, from the events before it. -/
def HaltsSignalled (before : List Event) (e : Event) : Prop :=
  ∀ source, e = .entered source .fatal → signalled before = decide (source ≠ .retrySession)

theorem haltsSignalled_unended (past : List Event) {es : List Event}
    (unended : Without Event.isEnd es) :
    Lawful (fun before => HaltsSignalled (past ++ before)) es := by
  refine .of_forall fun e there before source halt => ?_
  subst halt
  cases unended _ there

/-- A turn halts a worker with the signal up unless it has spent the budget for
retries. -/
theorem Turn.haltsSignalled {l l' : Link cap} {w w' : Worker} {p q : Point} {past es : List Event}
    (turn : Turn l w p es l' w' q) (held : w.phase = .publish → w.session.isSome = true)
    (signal : l.status.failed = signalled past) :
    Lawful (fun before => HaltsSignalled (past ++ before)) es := by
  rcases turn.unended_or_leaves with
    ⟨unended, _⟩ | ⟨source, ds, l₁, w₁, closing, rfl, _, _, _⟩
  · exact haltsSignalled_unended past unended
  · obtain ⟨asides, arrival, rest⟩ := arrival_eq l₁.status source (source.next (l₁.guards w₁))
    rw [arrival]
    refine lawful_append.mpr ⟨haltsSignalled_unended past (unended_of_opens closing.opens),
      lawful_cons.mpr ⟨?_, ?_⟩⟩
    · rintro begun halt
      obtain ⟨rfl, halts⟩ := Event.entered.inj halt
      rw [List.append_nil, signalled_append, ← signal, ← closing.signal held]
      exact closing.failed_of_halt halts
    · have more := haltsSignalled_unended
        (past ++ (ds ++ [.entered source (source.next (l₁.guards w₁))])) (unended_of_asides rest)
      simp only [List.append_assoc] at more
      exact more

/-- **The signal at a halt.** Whatever any number of workers on a link do, whenever one
of them halts the failure signal is up, unless what has halted it is a retry too
many. -/
theorem signal_at_halts [Crew ε] (ops : List (Op ε)) :
    Lawful HaltsSignalled (events (World.journal cap ops)) := by
  have both : Blamed ((World.after cap ops).moment (World.journal cap ops)) ∧
      Lawful HaltsSignalled (events (World.journal cap ops)) := by
    refine World.invariant (I := fun m => Blamed m ∧ Lawful HaltsSignalled (events m.journal))
      ⟨?_, lawful_nil _⟩ ?_ (World.boots_any ops _)
    · exact ⟨fun id => .inl ⟨Nat.zero_le id, rfl⟩, rfl, rfl, without_nil⟩
    · rintro m n ⟨blamed, lawful⟩ next
      refine ⟨blamed.next next, ?_⟩
      cases next with
      | feed fed =>
          rw [events_append, events_entries]
          exact lawful_append.mpr
            ⟨lawful, haltsSignalled_unended _ (unended_of_asides fed.asides)⟩
      | boot _ _ | announce _ =>
          rw [events_append, events_entries]
          exact lawful_append.mpr ⟨lawful, haltsSignalled_unended _ (by simp [Event.isEnd])⟩
      | turn here turn =>
          obtain ⟨_, agrees⟩ := blamed.agree.here here
          rw [events_append, events_entries]
          exact lawful_append.mpr ⟨lawful,
            turn.haltsSignalled (fun publish => agrees.session (.inr publish)) blamed.signal⟩
      | cancel _ | drop _ => exact lawful
  exact both.2

/-! ## Nobody gets past the start -/

/-- The signal is up, and every worker that is there has not begun or has halted. -/
structure Barred (m : Moment cap) : Prop where
  raised : m.link.status.failed = true
  stopped : ∀ (id : Nat) (w : Worker) (p : Point), m.posts[id]? = some (some ⟨w, p⟩) →
    p = .outset ∧ (w.phase = .start ∨ w.phase = .fatal)

/-- What happens on a link where nobody gets past the start, and the fault before and
after it: a worker is refused, or nothing that leads anywhere. -/
def Idly (before : Option Fault) (es : List Event) (after : Option Fault) : Prop :=
  (es = refusal ∧ after = some .unexpected) ∨
    (Undisturbed es ∧ Without Event.isEnd es ∧ after = before)

namespace Barred

variable {may : List (Option Post) → Prop} {m n : Moment cap}

theorem of_link (barred : Barred m) {l : Link cap} (up : l.status.failed = true)
    (journal : List Entry) : Barred ⟨l, m.posts, journal⟩ := ⟨up, barred.stopped⟩

/-- One worker stops, and nothing else changes. -/
theorem set (barred : Barred m) {l : Link cap} (up : l.status.failed = true) (id : Nat)
    {place : Option Post} (stopped : ∀ post ∈ place,
      post.point = .outset ∧ (post.worker.phase = .start ∨ post.worker.phase = .fatal))
    (journal : List Entry) : Barred ⟨l, m.posts.set id place, journal⟩ := by
  refine ⟨up, fun other w p there => ?_⟩
  rcases post_of_set there with ⟨_, rfl⟩ | ⟨_, before⟩
  · exact stopped _ rfl
  · exact barred.stopped other w p before

/-- Where nobody gets past the start nobody ever will. -/
theorem next (barred : Barred m) (agree : AllAgree m) (next : m.Next may n) :
    Barred n ∧ ∃ cause es, n.journal = m.journal ++ entries cause es ∧
      Idly m.link.status.fault es n.link.status.fault := by
  cases next with
  | feed fed =>
      obtain ⟨_, status⟩ := fed.status_eq
      refine ⟨barred.of_link ?_ _, .producer, _, rfl, .inr ⟨fed.undisturbed,
        unended_of_asides fed.asides, ?_⟩⟩
      · rw [status]
        exact barred.raised
      · rw [status]
  | boot settings _ =>
      refine ⟨⟨barred.raised, fun id w p there => ?_⟩, _, _, rfl, .inr ⟨?_, ?_, rfl⟩⟩
      · rcases List.mem_append.mp (List.mem_of_getElem? there) with old | new
        · obtain ⟨place, inside⟩ := List.mem_iff_getElem?.mp old
          exact barred.stopped place w p inside
        · obtain ⟨rfl⟩ := List.mem_singleton.mp new
          exact ⟨rfl, .inl rfl⟩
      · simp [Event.reachesCrew]
      · simp [Event.isEnd]
  | @turn id w w' p q es l here turn =>
      obtain ⟨stands, _⟩ := agree.here here
      obtain ⟨rfl, new | halted⟩ := barred.stopped id w p here
      · obtain ⟨rfl, rfl, rfl, rfl⟩ := turn.eq_of_start stands new barred.raised
        refine ⟨barred.set ?_ id ?_ _, _, _, rfl, .inl ⟨rfl, rfl⟩⟩
        · exact barred.raised
        · rintro _ ⟨⟩
          exact ⟨rfl, .inr rfl⟩
      · have outset := (turn.at_next stands).outset_of_fatal
        obtain ⟨rfl, rfl, rfl⟩ := turn.eq_of_fatal stands halted
        refine ⟨barred.set barred.raised id ?_ _, _, _, rfl, .inr ⟨without_nil, without_nil, rfl⟩⟩
        rintro _ ⟨⟩
        exact ⟨outset halted, .inr halted⟩
  | announce _ =>
      exact ⟨barred.of_link barred.raised _, _, _, rfl, .inr ⟨by simp [Event.reachesCrew],
        by simp [Event.isEnd], rfl⟩⟩
  | @cancel id w suspension here =>
      obtain ⟨waits, _⟩ := barred.stopped id w _ here
      cases waits
  | drop id =>
      refine ⟨barred.set barred.raised id ?_ _, .producer, [], (List.append_nil _).symm,
        .inr ⟨without_nil, without_nil, rfl⟩⟩
      rintro _ ⟨⟩

/-- A halt by a failed request bars the link. -/
theorem of_turn {id : Nat} {w w' : Worker} {p q : Point} {es : List Event} {l : Link cap}
    {source : Phase} (accounted : Accounted m) (here : m.posts[id]? = some (some ⟨w, p⟩))
    (turn : Turn m.link w p es l w' q) (halt : .entered source .fatal ∈ es)
    (failure : source ≠ .retrySession) (journal : List Entry) :
    Barred ⟨l, m.posts.set id (some ⟨w', q⟩), journal⟩ := by
  obtain ⟨stands, _⟩ := accounted.agree.here here
  obtain ⟨_, l₁, w₁, closing, halts, _, rfl, rfl, rfl⟩ := turn.leave_of_entered halt
  refine ⟨?_, fun other v point there => ?_⟩
  · show (l₁.status.enter source .fatal).failed = true
    rw [Status.failed_enter, closing.failed_of_halt halts.symm, decide_eq_true failure]
  · rcases post_of_set there with ⟨_, same⟩ | ⟨differ, before⟩
    · cases same
      exact ⟨rfl, .inr rfl⟩
    · -- the worker that halts had not halted yet, so that it is the last one
      have last : ¬ id + 1 < m.posts.length := fun more => by
        have live := closing.live
        rw [← closing.phase_eq stands, (accounted.orderly id w p here).1 more] at live
        cases live
      have inside : other < m.posts.length := (List.getElem?_eq_some_iff.mp before).1
      have place : id < m.posts.length := (List.getElem?_eq_some_iff.mp here).1
      have halted := (accounted.orderly other v point before).1 (by omega)
      exact ⟨(accounted.agree.here before).1.outset_of_fatal halted, .inr halted⟩

end Barred

/-- A link on which workers take turns, and which is barred as soon as one of them has
halted by a failed request. -/
structure Guarded (m : Moment cap) : Prop where
  accounted : Accounted m
  barred : ∀ source, .entered source .fatal ∈ events m.journal → source ≠ .retrySession →
    Barred m

namespace Guarded

variable {m n : Moment cap}

theorem next (guarded : Guarded m) (next : m.Next Retired n) : Guarded n := by
  refine ⟨guarded.accounted.next next, fun source halt failure => ?_⟩
  have still (before : .entered source .fatal ∈ events m.journal) : Barred n :=
    ((guarded.barred source before failure).next guarded.accounted.agree next).1
  cases next with
  | turn here turn =>
      rw [events_append, events_entries] at halt
      rcases List.mem_append.mp halt with before | now
      · exact still before
      · exact .of_turn guarded.accounted here turn now failure _
  | feed fed =>
      rw [events_append, events_entries] at halt
      rcases List.mem_append.mp halt with before | now
      · exact still before
      · cases unended_of_asides fed.asides _ now
  | boot _ _ | announce _ =>
      rw [events_append, events_entries] at halt
      rcases List.mem_append.mp halt with before | now
      · exact still before
      · simp at now
  | cancel _ | drop _ => exact still halt

end Guarded

/-- What has happened on a link since some entries, while it was barred. -/
structure Refusing (past : List Entry) (m : Moment cap) : Prop where
  agree : AllAgree m
  barred : Barred m
  since : ∃ more, m.journal = past ++ more ∧ Undisturbed (events more) ∧
    ∀ source target, .entered source target ∈ events more →
      source = .start ∧ target = .fatal ∧ m.link.status.fault = some .unexpected

theorem Refusing.next {may : List (Option Post) → Prop} {past : List Entry} {m n : Moment cap}
    (refusing : Refusing past m) (next : m.Next may n) : Refusing past n := by
  obtain ⟨more, journal, undisturbed, halts⟩ := refusing.since
  obtain ⟨barred, cause, es, extended, idly⟩ := refusing.barred.next refusing.agree next
  refine ⟨refusing.agree.next next, barred, more ++ entries cause es, ?_, ?_, ?_⟩
  · rw [extended, journal, List.append_assoc]
  · rw [events_append, events_entries]
    refine without_append.mpr ⟨undisturbed, ?_⟩
    rcases idly with ⟨rfl, _⟩ | ⟨quiet, _⟩
    · simp [refusal, Event.reachesCrew]
    · exact quiet
  · intro source target entered
    rw [events_append, events_entries] at entered
    rcases List.mem_append.mp entered with before | now
    · obtain ⟨start, fatal, fault⟩ := halts source target before
      refine ⟨start, fatal, ?_⟩
      rcases idly with ⟨_, same⟩ | ⟨_, _, same⟩
      · exact same
      · exact same.trans fault
    · rcases idly with ⟨rfl, same⟩ | ⟨_, unended, _⟩
      · obtain ⟨start, fatal⟩ : source = .start ∧ target = .fatal := by
          simpa [refusal] using now
        exact ⟨start, fatal, same⟩
      · cases unended _ now

/-! ## First steps -/

section Steps

variable [Crew ε]

/-- A worker at the start halts in its first move if the signal is up. -/
theorem Site.move_of_start {s : Site cap ε} (new : s.worker.phase = .start)
    (up : s.link.status.failed = true) :
    (s.move .outset).verdict = .finished .fatal ∧ (s.move .outset).events = refusal ∧
      (s.move .outset).site.link.status.fault = some .unexpected := by
  have move : s.move .outset = { s.finish .start [] with
      events := .began .start :: (s.finish .start []).events } :=
    move_of_act new rfl (by simp [act, new])
  have halts : Phase.start.next s.guards = .fatal := if_pos up
  rw [move]
  unfold finish
  rw [halts]
  exact ⟨rfl, rfl, rfl⟩

/-- What becomes of a worker at the start when the signal is up, whether it is stepped
or run: it halts at once with an unexpected failure. -/
theorem World.launch_refused {w : World cap ε} {id : Nat} {s : Station ε}
    (here : w.station? id = some s) (free : s.held = none) (new : s.worker.phase = .start)
    (up : w.link.status.failed = true) (mode : Mode) :
    let o := w.apply (.launch id mode)
    o.reply = .progress (o.world.link.verdict mode) ∧
      o.world.link.status.fault = some .unexpected ∧
      o.entries = entries (.worker id) (Op.announced (.launch id mode : Op ε) ++ refusal) := by
  intro o
  have poll : o = w.absorb id mode (((w.site s).poll mode .outset).after
      (Op.announced (.launch id mode : Op ε))) := by
    have applied := World.apply_polls here (.fresh free : Op.Polls id s mode (.launch id mode))
    rwa [Station.point_of_free free] at applied
  obtain ⟨verdict, happened, fault⟩ := Site.move_of_start (s := w.site s) new up
  rw [poll]
  cases mode with
  | step =>
      rw [Site.poll_step_of_finished verdict, happened]
      exact ⟨rfl, fault, rfl⟩
  | run =>
      rw [Site.poll_run_of_halted verdict rfl, happened]
      exact ⟨rfl, fault, rfl⟩

end Steps

/-! ## Histories -/

theorem without_own {kind : Event → Bool} {journal : List Entry}
    (without : Without kind (events journal)) (id : Nat) : Without kind (own id journal) :=
  fun _ there => without _ (List.mem_map.mpr ⟨_, mem_own.mp there, rfl⟩)

/-- A worker that stands at the outset of a step is not held. -/
theorem Station.free_of_point {s : Station ε} (outset : s.post.point = .outset) :
    s.held = none := by
  unfold post at outset
  cases held : s.held with
  | none => rfl
  | some pair =>
      rw [held] at outset
      cases outset

section Histories

variable [Crew ε]

theorem guarded_after {ops : List (Op ε)}
    (successive : (World.empty : World cap ε).Boots Retired ops) :
    Guarded ((World.after cap ops).moment (World.journal cap ops)) := by
  refine World.invariant ⟨.start, ?_⟩ (fun _ _ guarded next => guarded.next next) successive
  intro source halt
  cases halt

/-- **Halted links refuse work.** On a link whose workers are used one after another,
let a worker have halted because a request failed, which is any way of halting but by
one retry too many. From then on the failure signal is up, no crew is called upon or
given a hint, whosever it is, and nobody enters a phase but by halting in its first
step, which makes the fault of the link an unexpected one. A worker that is there has
halted or has not begun, and if it is stepped or run it halts at once. -/
theorem halted_link_refuses {before later : List (Op ε)}
    (successive : (World.empty : World cap ε).Boots Retired (before ++ later)) {source : Phase}
    (halt : .entered source .fatal ∈ events (World.journal cap before))
    (failure : source ≠ .retrySession) :
    let world := World.after cap (before ++ later)
    let happened := events ((World.after cap before).applyAll later).2
    world.link.status.failed = true ∧ Undisturbed happened ∧
      (∀ id, (World.after cap before).stations.length ≤ id →
        Undisturbed (own id (World.journal cap (before ++ later)))) ∧
      (∀ source target, .entered source target ∈ happened →
        source = .start ∧ target = .fatal ∧ world.link.status.fault = some .unexpected) ∧
      ∀ id s, world.station? id = some s →
        s.held = none ∧ (s.worker.phase = .start ∨ s.worker.phase = .fatal) ∧
          (s.worker.phase = .start → ∀ mode,
            let o := world.apply (.launch id mode)
            o.reply = .progress (o.world.link.verdict mode) ∧
              o.world.link.status.fault = some .unexpected ∧
              o.entries = entries (.worker id)
                (Op.announced (.launch id mode : Op ε) ++ refusal)) := by
  intro world happened
  have guarded : Guarded ((World.after cap before).moment (World.journal cap before)) :=
    guarded_after successive.of_append
  have first : Refusing (World.journal cap before)
      ((World.after cap before).moment (World.journal cap before)) :=
    ⟨guarded.accounted.agree, guarded.barred source halt failure, [], (List.append_nil _).symm,
      without_nil, fun _ _ entered => by cases entered⟩
  have path := World.leads Retired later (World.after cap before) (World.journal cap before)
    successive.rest
  have last := path.keeps (fun _ _ refusing next => Refusing.next refusing next) first
  obtain ⟨more, journal, undisturbed, halts⟩ := last.since
  obtain rfl : ((World.after cap before).applyAll later).2 = more :=
    List.append_cancel_left journal
  rw [← World.after_append] at last halts
  have barred := last.barred
  refine ⟨barred.raised, undisturbed, fun id new => ?_, halts, fun id s here => ?_⟩
  · have nothing : own id (World.journal cap before) = [] :=
      guarded.accounted.agree.own_eq_nil (by simpa [World.moment, World.posts] using new)
    rw [World.journal_append, own_append, nothing, List.nil_append]
    exact without_own undisturbed id
  · obtain ⟨outset, stopped⟩ := barred.stopped id _ _ (World.posts_of_station? here)
    have free := Station.free_of_point outset
    exact ⟨free, stopped, fun new => World.launch_refused here free new barred.raised⟩

/-- The network cannot be brought up. The first successor is stepped and the second one run,
with a batch and a wake in between. -/
theorem halted_link_refuses_twice :
    let before : List (Op Script) :=
      [.boot {} { start := [{ answer := .failed ⟨.other, ""⟩ }] }, .launch 0 .run]
    let later : List (Op Script) :=
      [.boot {} {}, .launch 1 .step, .offer (.tagged 7), .nudge, .boot {} {}]
    (World.empty : World 2 Script).Boots Retired (before ++ later) ∧
      .entered .connectNetwork .fatal ∈ events (World.journal 2 before) ∧
      Undisturbed (own 1 (World.journal 2 (before ++ later))) ∧
      ((World.after 2 (before ++ later)).apply (.launch 2 .run)).world.link.status.fault =
        some .unexpected := by
  intro before later
  have successive : (World.empty : World 2 Script).Boots Retired (before ++ later) := by
    decide +kernel
  have halt : Event.entered .connectNetwork .fatal ∈ events (World.journal 2 before) := by
    decide +kernel
  obtain ⟨_, _, undisturbed, _, refused⟩ := halted_link_refuses successive halt (by decide)
  refine ⟨successive, halt, undisturbed 1 (by decide +kernel), ?_⟩
  have begins : ((World.after 2 (before ++ later)).station? 2).map (·.worker.phase) =
      some .start := by
    decide +kernel
  obtain ⟨s, here, new⟩ := Option.map_eq_some_iff.mp begins
  exact ((refused 2 s here).2.2 new .run).2.1

/-- The budget for retries is spent. The link shows that it has halted, but the signal is
down, and the successor of the worker brings up the network. -/
theorem halted_link_reused :
    let before : List (Op Script) :=
      [.boot { retryLimit := some 0 } { connect := [{ answer := .failed ⟨.other, ""⟩ }] },
        .launch 0 .run]
    let later : List (Op Script) := [.boot {} {}, .launch 1 .step, .launch 1 .step]
    (World.empty : World 2 Script).Boots Retired (before ++ later) ∧
      (World.after 2 before).link.status.halted = true ∧
      (World.after 2 before).link.status.fault = some .sessionConnect ∧
      .entered .retrySession .fatal ∈ own 0 (World.journal 2 before) ∧
      .entered .start .connectNetwork ∈ own 1 (World.journal 2 (before ++ later)) ∧
      .called .start ∈ own 1 (World.journal 2 (before ++ later)) := by
  decide +kernel

end Histories

end StoreForward
