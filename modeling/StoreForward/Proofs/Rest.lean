import StoreForward.Crew.Script
import StoreForward.Proofs.Bracketing
import StoreForward.Proofs.LiveSession

/-!
# Coming to rest

A run has no end of its own: sessions are opened again, drains are followed
by drains, a rest that finds batches is not a rest. One poll of a run ends all
the same, for every turn of these loops uses up effort, of which a crew that
follows a script leaves only so much. On a link with one worker it ends in one
of three ways. The worker waits for its crew; or it has halted; or it rests,
and then there is nothing left to do: no batch and no wake is waiting, no
session is held, and the core may sleep.

That there is nothing left to do is not a matter of this poll alone. Outbox and
wakes agree because the worker has heard the news (`Restful`), no session is
held because the calls are nested (`Nested`), and what observers see of low
power is what the crew has been told because no other worker was ever there
(`Sole`).

## Main definitions

* `Sole` — what a link shows is the doing of its only worker.
* `AtRest` — a worker rests, with nothing left to do.
* `RunEnd` — the ways in which a poll of a run ends.

## Main results

* `Turn.once` — no turn begins, ends or hands over anything twice.
* `run_ends` — a poll of a run ends in one of these ways.
* `every_poll_ends` — and does so after a bounded number of steps.
-/

namespace StoreForward

variable {cap : Nat} {ε : Type}

/-- No transition leads to the first phase. -/
theorem Phase.next_ne_start (source : Phase) (g : Guards) : source.next g ≠ .start := by
  revert g
  cases source <;> (apply Guards.of_flags; decide)

/-! ## What a turn does only once -/

/-- The event is that a step is begun. -/
def Event.isBegin : Event → Bool
  | began _ => true
  | _ => false

/-- The event is that a step is completed. -/
def Event.isEnd : Event → Bool
  | entered _ _ => true
  | _ => false

/-- The event is that a batch is handed over for publishing. -/
def Event.isHandover (e : Event) : Bool := e.handed?.isSome

theorem length_handed (es : List Event) : (handed es).length = es.countP Event.isHandover :=
  List.length_filterMap_eq_countP

/-- A batch is handed over with a request. -/
theorem handed_uncalled {es : List Event} (uncalled : Uncalled es) : handed es = [] := by
  refine List.filterMap_eq_nil_iff.mpr fun e there => ?_
  have other := uncalled e there
  cases e <;> first | rfl | cases other

/-- One of the kinds of which no turn has two. -/
def OnceOnly (kind : Event → Bool) : Prop :=
  kind = Event.isBegin ∨ kind = Event.isEnd ∨ kind = Event.isHandover

section Turns

variable {l l' l₁ : Link cap} {w w' w₁ : Worker} {source : Phase} {p q : Point}
  {es : List Event}

theorem countP_asides {kind : Event → Bool} (once : OnceOnly kind) (asides : Asides es) :
    es.countP kind = 0 := by
  refine List.countP_eq_zero.mpr fun e there => ?_
  have aside := asides e there
  rcases once with rfl | rfl | rfl <;>
    cases e <;> simp [Event.isBegin, Event.isEnd, Event.isHandover, Event.handed?,
      Event.isDeed] at aside ⊢

theorem countP_arrival {kind : Event → Bool} (once : OnceOnly kind) (st : Status)
    (source target : Phase) :
    (arrival st source target).countP kind = if kind (.entered source target) then 1 else 0 := by
  obtain ⟨asides, here, rest⟩ := arrival_eq st source target
  rw [here, List.countP_cons, countP_asides once rest, Nat.zero_add]

/-- The end of an action leaves it to the transition to complete the step. -/
theorem Closing.once (closing : Closing l w source p es l₁ w₁) {kind : Event → Bool}
    (once : OnceOnly kind) (target : Phase) :
    es.countP kind + (if kind (.entered source target) then 1 else 0) ≤ 1 := by
  cases closing with
  | skipped _ _ =>
      rw [List.countP_cons, countP_asides once (by simp [Event.isDeed])]
      rcases once with rfl | rfl | rfl <;> simp [Event.isBegin, Event.isEnd, Event.isHandover,
        Event.handed?]
  | succeeded job plain =>
      rw [List.countP_cons, countP_asides once (asides_success plain)]
      rcases once with rfl | rfl | rfl <;> simp [Event.isBegin, Event.isEnd, Event.isHandover,
        Event.handed?]
  | woken _ =>
      rw [countP_asides once (by simp [Event.isDeed])]
      split <;> decide
  | _ =>
      rcases once with rfl | rfl | rfl <;> simp [List.countP_cons, Event.isBegin, Event.isEnd,
        Event.isHandover, Event.handed?]

/-- A turn begins one step at most, completes one at most, and hands over one
batch at most. -/
theorem Turn.once (turn : Turn l w p es l' w' q) {kind : Event → Bool} (once : OnceOnly kind) :
    es.countP kind ≤ 1 := by
  cases turn with
  | call calling fed _ =>
      rw [List.countP_append, List.countP_cons, countP_asides once fed.asides]
      cases calling <;>
        rcases once with rfl | rfl | rfl <;> simp [List.countP_cons, Event.isBegin, Event.isEnd,
          Event.isHandover, Event.handed?, Job.request]
  | leave closing =>
      rw [List.countP_append, countP_arrival once]
      exact closing.once once _
  | park _ _ =>
      rw [List.countP_cons, countP_asides once (by simp [Event.isDeed])]
      split <;> decide
  | _ =>
      rcases once with rfl | rfl | rfl <;> simp [List.countP_cons, Event.isBegin, Event.isEnd,
        Event.isHandover, Event.handed?]

/-! ## What a link shows of low power -/

theorem Link.lowPower_hinted (l : Link cap) {was : Bool} (allowed : Bool)
    (shown : l.status.lowPower = was) : (l.hinted was allowed).status.lowPower = allowed := by
  unfold hinted
  dsimp only
  split
  · rename_i same
    rw [shown, same]
  · rfl

theorem Closing.lowPower (closing : Closing l w source p es l₁ w₁)
    (shown : l.status.lowPower = w.lowPower) : l₁.status.lowPower = w₁.lowPower := by
  cases closing with
  | skipped _ _ | woken _ => exact Link.lowPower_hinted _ false shown
  | failed job _ => cases job <;> exact shown
  | _ => exact shown

/-- Every turn keeps what observers see of low power what the crew has been
told. -/
theorem Turn.lowPower (turn : Turn l w p es l' w' q) (shown : l.status.lowPower = w.lowPower) :
    l'.status.lowPower = w'.lowPower := by
  cases turn with
  | call calling fed _ =>
      obtain ⟨_, status⟩ := fed.status_eq
      rw [status]
      cases calling <;> exact shown
  | leave closing =>
      have left := closing.lowPower shown
      unfold Status.enter
      split <;> exact left
  | park _ _ => exact Link.lowPower_hinted _ true shown
  | _ => exact shown

/-- Nothing leads back to the first phase, so no failure was signalled on the
way. -/
theorem Turn.untried (turn : Turn l w p es l' w' q) (start : w'.phase = .start) :
    w.phase = .start ∧ l'.status.failed = l.status.failed := by
  cases turn with
  | call calling fed _ =>
      obtain ⟨same, phase, _⟩ := calling.signal
      exact ⟨phase.symm.trans start, fed.failed.trans same⟩
  | leave closing => exact absurd start (Phase.next_ne_start _ _)
  | park _ _ => exact ⟨start, Link.failed_hinted _ _ _⟩
  | _ => exact ⟨start, rfl⟩

end Turns

/-! ## A link with one worker -/

/-- There is at most one worker. Before it comes no failure is signalled and
low power is not allowed; then low power is what its crew has been told, and
still no failure is signalled before its first step is complete. -/
structure Sole (m : Moment cap) : Prop where
  few : m.posts.length ≤ 1
  unused : m.posts = [] → m.link.status.failed = false ∧ m.link.status.lowPower = false
  shown : ∀ (id : Nat) (w : Worker) (p : Point), m.posts[id]? = some (some ⟨w, p⟩) →
    m.link.status.lowPower = w.lowPower
  untried : ∀ (id : Nat) (w : Worker) (p : Point), m.posts[id]? = some (some ⟨w, p⟩) →
    w.phase = .start → m.link.status.failed = false

namespace Sole

variable {m n : Moment cap}

/-- Nothing is done but to stand elsewhere or to leave. -/
theorem of_workers (sole : Sole m) (length : n.posts.length = m.posts.length)
    (failed : n.link.status.failed = m.link.status.failed)
    (lowPower : n.link.status.lowPower = m.link.status.lowPower)
    (workers : ∀ (id : Nat) (w : Worker) (p : Point), n.posts[id]? = some (some ⟨w, p⟩) →
      ∃ p', m.posts[id]? = some (some ⟨w, p'⟩)) : Sole n := by
  refine ⟨by rw [length]; exact sole.few, fun none => ?_, fun id w p there => ?_,
    fun id w p there start => ?_⟩
  · rw [none] at length
    rw [failed, lowPower]
    exact sole.unused (List.length_eq_zero_iff.mp length.symm)
  · obtain ⟨p', before⟩ := workers id w p there
    rw [lowPower]
    exact sole.shown id w p' before
  · obtain ⟨p', before⟩ := workers id w p there
    rw [failed]
    exact sole.untried id w p' before start

theorem boot (settings : Settings) (sole : Sole m) (none : m.posts = []) (journal : List Entry) :
    Sole ⟨{ m.link with status := { m.link.status with phase := .start } },
      m.posts ++ [some ⟨.boot settings, .outset⟩], journal⟩ := by
  obtain ⟨down, awake⟩ := sole.unused none
  rw [none, List.nil_append]
  refine ⟨Nat.le_refl 1, fun other => absurd other (List.cons_ne_nil _ _),
    fun id w p there => ?_, fun _ _ _ _ _ => down⟩
  cases List.mem_singleton.mp (List.mem_of_getElem? there)
  exact awake

theorem turn (sole : Sole m) {id : Nat} {w w' : Worker} {p q : Point} {es : List Event}
    {l : Link cap} (here : m.posts[id]? = some (some ⟨w, p⟩))
    (turn : Turn m.link w p es l w' q) (journal : List Entry) :
    Sole ⟨l, m.posts.set id (some ⟨w', q⟩), journal⟩ := by
  have few := sole.few
  have inside : id < m.posts.length := (List.getElem?_eq_some_iff.mp here).1
  have only : ∀ {other : Nat} {v : Worker} {p' : Point},
      (m.posts.set id (some ⟨w', q⟩))[other]? = some (some ⟨v, p'⟩) → v = w' := by
    intro other v p' there
    rcases post_of_set there with ⟨_, same⟩ | ⟨differ, before⟩
    · cases same
      rfl
    · have second : other < m.posts.length := (List.getElem?_eq_some_iff.mp before).1
      omega
  refine ⟨by rw [List.length_set]; exact few, fun none => ?_, fun other v p' there => ?_,
    fun other v p' there start => ?_⟩
  · have length := congrArg List.length none
    rw [List.length_set, List.length_nil] at length
    omega
  · rw [only there]
    exact turn.lowPower (sole.shown id w p here)
  · rw [only there] at start
    obtain ⟨before, same⟩ := turn.untried start
    exact same.trans (sole.untried id w p here before)

theorem next (sole : Sole m) (next : m.Next (fun posts => posts = []) n) : Sole n := by
  cases next with
  | feed fed =>
      obtain ⟨_, status⟩ := fed.status_eq
      refine sole.of_workers rfl fed.failed ?_ fun _ _ p there => ⟨p, there⟩
      dsimp only
      rw [status]
  | boot settings none => exact sole.boot settings none _
  | turn here turn => exact sole.turn here turn _
  | announce _ => exact sole.of_workers rfl rfl rfl fun _ _ p there => ⟨p, there⟩
  | @cancel id w suspension here =>
      refine sole.of_workers List.length_set rfl rfl fun other v p there => ?_
      rcases post_of_set there with ⟨rfl, same⟩ | ⟨_, before⟩
      · cases same
        exact ⟨_, here⟩
      · exact ⟨p, before⟩
  | drop id =>
      refine sole.of_workers List.length_set rfl rfl fun other v p there => ?_
      rcases post_of_set there with ⟨_, gone⟩ | ⟨_, before⟩
      · cases gone
      · exact ⟨p, before⟩

end Sole

/-! ## How a poll of a run ends -/

/-- A worker rests in a run, and there is nothing left to do. -/
structure AtRest (l : Link cap) (s : Station ε) : Prop where
  held : s.held = some (.run, .parked)
  phase : s.worker.phase = .idle
  queue : l.isIdle = true
  wakes : l.wakes.items = []
  allowed : s.worker.lowPower = true
  shown : l.status.lowPower = true
  free : s.worker.session = none

/-- The ways in which a poll of a run ends, and what it leaves behind. -/
inductive RunEnd (l : Link cap) (s : Station ε) : Progress → Prop where
  | waits {job : Job} {polls : Nat} {answer : Answer}
      (held : s.held = some (.run, .call job polls answer)) :
      RunEnd l s (.pending (.call job polls answer))
  | rests (rest : AtRest l s) : RunEnd l s (.pending .parked)
  | halts {fault : Fault} (free : s.held = none) (halted : s.worker.phase = .fatal) :
      RunEnd l s (.halted fault)

namespace World

theorem station?_absorb {w : World cap ε} {id : Nat} {s : Station ε}
    (here : w.station? id = some s) (mode : Mode) (o : Polled cap ε) :
    ∃ held, (w.absorb id mode o).world.station? id =
        some ⟨o.site.worker, o.site.crew, held⟩ ∧
      (∀ suspension, o.progress = .pending suspension → held = some (mode, suspension)) ∧
      ((∀ suspension, o.progress ≠ .pending suspension) → held = none) := by
  obtain ⟨inside, _⟩ := List.getElem?_eq_some_iff.mp (Option.join_eq_some_iff.mp here)
  unfold absorb place station?
  dsimp only
  rw [List.getElem?_set_self inside]
  refine ⟨_, rfl, fun suspension pending => ?_, fun none => ?_⟩
  · rw [pending]
  · cases progress : o.progress with
    | pending suspension => exact absurd progress (none suspension)
    | _ => rfl

end World

/-! ## Histories -/

section Histories

variable [Crew ε]

/-- A history that boots one worker boots it when there is no other. -/
theorem boots_sole {ops : List (Op ε)} (alone : ops.countP Op.isBoot = 1) :
    (World.empty : World cap ε).Boots (fun posts => posts = []) ops :=
  World.boots_alone ops _ rfl alone

/-- Its only worker takes turns with nobody. -/
theorem boots_retired {ops : List (Op ε)} (alone : ops.countP Op.isBoot = 1) :
    (World.empty : World cap ε).Boots Retired ops := by
  refine (boots_sole alone).weaken fun posts none => ?_
  subst none
  intro place there
  cases there

theorem sole_after {ops : List (Op ε)} (alone : ops.countP Op.isBoot = 1) :
    Sole ((World.after cap ops).moment (World.journal cap ops)) := by
  refine World.invariant ?_ (fun _ _ sole next => sole.next next) (boots_sole alone)
  exact ⟨Nat.zero_le 1, fun _ => ⟨rfl, rfl⟩, fun _ _ _ there => (by cases there),
    fun _ _ _ there => (by cases there)⟩

/-- The only worker of a link rests only when no batch is waiting, if no wake
is. -/
theorem idle_of_parked {ops : List (Op ε)} (alone : ops.countP Op.isBoot = 1) {id : Nat}
    {mode : Mode} {s : Station ε} (here : (World.after cap ops).station? id = some s)
    (held : s.held = some (mode, .parked)) (quiet : (World.after cap ops).link.wakes.items = []) :
    (World.after cap ops).link.isIdle = true := by
  by_cases room : 1 ≤ cap
  · obtain ⟨_, heard⟩ :=
      (restful_after room ops alone).heard id s.worker (World.posts_of_held here held)
    refine (Bool.not_eq_false _).mp fun busy => heard.wakes.mpr ?_ quiet
    exact .inl (heard.batches.mp busy)
  · -- without room for a batch none is ever waiting
    have replayed : replay cap [] (events (World.journal cap ops)) =
        some (World.after cap ops).link.waiting := replay_journal ops
    have within := length_of_replay replayed (Nat.zero_le cap)
    have none : (World.after cap ops).link.waiting = [] :=
      List.length_eq_zero_iff.mp (by omega)
    show (World.after cap ops).link.waiting.isEmpty = true
    rw [none]
    rfl

/-- A worker that rests at the end of a poll of a run has nothing left to
do. -/
theorem atRest_after {ops : List (Op ε)} (alone : ops.countP Op.isBoot = 1) {id : Nat}
    {s : Station ε} (here : (World.after cap ops).station? id = some s)
    (held : s.held = some (.run, .parked)) (quiet : (World.after cap ops).link.wakes.items = []) :
    AtRest (World.after cap ops).link s := by
  have there := World.posts_of_held here held
  obtain ⟨⟨phase, allowed⟩, nested⟩ := (everyone_nested ops).here there
  refine ⟨held, phase, idle_of_parked alone here held quiet, quiet, allowed, ?_, ?_⟩
  · exact ((sole_after alone).shown id _ _ there).trans allowed
  · exact nested.free (by rw [phase]; rfl)

end Histories

/-- A poll of a run ends in one of the three ways. -/
theorem run_ends {ops : List (Op Script)} (alone : ops.countP Op.isBoot = 1) {op : Op Script}
    {id : Nat} {s : Station Script} (here : (World.after cap ops).station? id = some s)
    (polls : op.Polls id s .run) (few : Countable (World.journal cap (ops ++ [op])))
    {t : Site cap Script} {q : Point} {es : List Event} {progress : Progress}
    (applied : (World.after cap ops).apply op =
      (World.after cap ops).absorb id .run ⟨(t.move q).site, es, progress⟩)
    (ends : Ends .run (t.move q).site (t.move q).verdict progress) :
    ∃ r, (World.after cap (ops ++ [op])).station? id = some r ∧
      r.worker = (t.move q).site.worker ∧
      RunEnd (World.after cap (ops ++ [op])).link r progress := by
  have still : (ops ++ [op]).countP Op.isBoot = 1 := by
    rw [List.countP_append, alone, List.countP_singleton, polls.isBoot_eq]
    rfl
  have free := uninterrupted ops op (boots_retired alone) few
  obtain ⟨held, there, waits, ended⟩ := World.station?_absorb here .run
    ⟨(t.move q).site, es, progress⟩
  have reply : ((World.after cap ops).apply op).reply = .progress progress := by
    rw [applied]
    rfl
  have link : (World.after cap (ops ++ [op])).link = (t.move q).site.link := by
    rw [World.after_concat, applied]
    rfl
  rw [← applied, ← World.after_concat] at there
  refine ⟨_, there, rfl, ?_⟩
  have moved := t.moved q
  generalize t.move q = m at ends moved there link waits ended ⊢
  cases moved with
  | asked _ | drains _ | parks _ => cases ends
  | misused _ | refused _ _ | overflown _ =>
      cases ends
      obtain ⟨crew, request, text, objection, _⟩ := free _ reply
      cases objection
  | waits _ =>
      cases ends
      exact .waits (waits _ rfl)
  | rests _ quiet =>
      cases ends
      rw [← link] at quiet
      exact .rests (atRest_after still there (waits _ rfl) quiet)
  | finishes _ entered _ =>
      cases ends with
      | stepped other => cases other
      | halted _ halt =>
          refine .halts (ended fun _ other => by cases other) ?_
          exact entered.trans ((Phase.isTerminal_iff _).mp halt)

/-- What an operation announces is no deed. -/
theorem Op.asides_announced (op : Op ε) : Asides op.announced := by
  unfold announced
  split <;> simp [Event.isDeed]

/-- What no turn does twice a poll does no more often than crew and outbox have
it do. -/
theorem count_driven [Crew ε] {mode : Mode} {s t : Site cap ε} {p q : Point} {es : List Event}
    (driven : s.Driven mode p es t q) (op : Op ε) {kind : Event → Bool} (once : OnceOnly kind) :
    (op.announced ++ (es ++ (t.move q).events)).countP kind ≤
      128 * Crew.unrest s.crew + 64 * s.link.queued + 63 := by
  have drive := driven.count_le fun s p => (s.turn_move p).once once
  have last := (t.turn_move q).once once
  have limit := s.effort_lt p
  rw [List.countP_append, countP_asides once op.asides_announced, List.countP_append]
  omega

/-- **Every poll ends.** Whenever a run of the only worker of a link is
started or polled again, its crew following a script, a bounded number of steps
is begun and completed and a bounded number of batches handed over, and then
the worker waits for its crew, or rests with nothing left to do, or has
halted. The bound is in terms of what the script has left and the batches that
are waiting. The retries need no limit for this. -/
theorem every_poll_ends {ops : List (Op Script)} (alone : ops.countP Op.isBoot = 1)
    {op : Op Script} {id : Nat} {s : Station Script}
    (here : (World.after cap ops).station? id = some s) (polls : op.Polls id s .run)
    (few : Countable (World.journal cap (ops ++ [op]))) :
    let world := World.after cap ops
    let outcome := world.apply op
    let happened := events outcome.entries
    let bound := 128 * Crew.unrest s.crew + 64 * world.link.queued + 63
    happened.countP Event.isBegin ≤ bound ∧ happened.countP Event.isEnd ≤ bound ∧
      (handed happened).length ≤ bound ∧
      ∃ t progress, outcome.world.station? id = some t ∧
        outcome.reply = .progress progress ∧ RunEnd outcome.world.link t progress := by
  intro world outcome happened bound
  obtain ⟨es, t, q, progress, driven, applied, ends⟩ := World.apply_driven here polls
  have happens : happened = op.announced ++ (es ++ (t.move q).events) := by
    show events (world.apply op).entries = _
    rw [applied, World.entries_absorb, events_entries]
  have count {kind : Event → Bool} (once : OnceOnly kind) : happened.countP kind ≤ bound := by
    rw [happens]
    exact count_driven driven op once
  refine ⟨count (.inl rfl), count (.inr (.inl rfl)), ?_, ?_⟩
  · rw [length_handed]
    exact count (.inr (.inr rfl))
  · obtain ⟨r, there, _, how⟩ := run_ends alone here polls few applied ends
    rw [World.after_concat] at there how
    refine ⟨r, progress, there, ?_, how⟩
    show (world.apply op).reply = _
    rw [applied]
    rfl

/-- A session is refused once, and while the first batch is published another
one arrives: in the end the worker rests. -/
theorem every_poll_ends_resting :
    let ops : List (Op Script) :=
      [.boot {} { connect := [{ answer := .failed ⟨.other, ""⟩ }]
                  publish := [{ enqueues := [.tagged 8], wakes := 1 }] },
        .offer (.tagged 7)]
    let world := World.after 2 ops
    let outcome := world.apply (.launch 0 .run)
    ops.countP Op.isBoot = 1 ∧
      Countable (World.journal 2 (ops ++ [.launch 0 .run])) ∧
      ∃ s t, world.station? 0 = some s ∧ s.held = none ∧
        (handed (events outcome.entries)).length ≤
          128 * Crew.unrest s.crew + 64 * world.link.queued + 63 ∧
        outcome.world.station? 0 = some t ∧ AtRest outcome.world.link t := by
  intro ops world outcome
  have alone : ops.countP Op.isBoot = 1 := by
    decide
  have few : Countable (World.journal 2 (ops ++ [.launch 0 .run])) := by
    unfold Countable
    decide +kernel
  have free : (world.station? 0).map Station.held = some none := by
    decide +kernel
  have reply : outcome.reply = .progress (.pending .parked) := by
    decide +kernel
  obtain ⟨s, here, free⟩ := Option.map_eq_some_iff.mp free
  obtain ⟨_, _, handed, t, progress, there, same, how⟩ :=
    every_poll_ends alone here (.fresh free) few
  refine ⟨alone, few, s, t, here, free, handed, there, ?_⟩
  rw [reply] at same
  cases same
  cases how with
  | rests rest => exact rest

end StoreForward
