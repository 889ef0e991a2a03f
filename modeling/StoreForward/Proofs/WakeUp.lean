import StoreForward.Crew.Script
import StoreForward.Proofs.Delivery

/-!
# No lost wake-up

Outbox and wakes are two bounded buffers that are updated one after the
other. Wakes are dropped when their buffer is full, and all of them are
discarded when a worker gets ready to rest. None of this loses a batch: the
worker discards the wakes *before* it looks at the outbox, so whatever is
accepted after that look posts a wake that nobody discards, and a wake that
finds no room finds another one waiting.

`Heard` says so about the news for a resting worker, which is whatever has
happened since it last reported that it rests. It holds of no news, and what
comes from outside keeps it (`Heard.fed`). On a link with one worker nothing
else can happen while that worker rests (`Restful`).

## Main definitions

* `Heard` — outbox and wakes hold what the news say.
* `firstStep` — the first step that is completed.
* `Restful` — a worker that rests has heard the news.

## Main results

* `World.poll_parked` — how a rest goes on.
* `no_lost_wakeup` — a rest ends exactly if there is a reason to.
-/

namespace StoreForward

variable {cap : Nat} {ε : Type}

/-! ## News -/

/-- The worker reports that it rests. -/
def Entry.isRest (id : Nat) (e : Entry) : Bool :=
  decide (e = ⟨.worker id, .noticed .resting⟩)

/-- What has happened, by whomever, since a worker last reported that it
rests. -/
def newsFor (id : Nat) (journal : List Entry) : List Event :=
  events (since (Entry.isRest id) journal)

/-- A batch has been accepted. -/
def Supplied (es : List Event) : Prop := ∃ b, .offered b true ∈ es

/-- An external wake has been posted, or merged into others. -/
def Nudged (es : List Event) : Prop := ∃ posted, .nudged posted ∈ es

/-- Batches wait exactly if some have been accepted, wakes exactly if there
is any reason for one, and an external wake has found room unless a batch has
been accepted. -/
structure Heard (l : Link cap) (news : List Event) : Prop where
  batches : l.isIdle = false ↔ Supplied news
  wakes : l.wakes.items ≠ [] ↔ Supplied news ∨ Nudged news
  posted : Nudged news → Supplied news ∨ .nudged true ∈ news

@[simp] theorem supplied_append {es fs : List Event} :
    Supplied (es ++ fs) ↔ Supplied es ∨ Supplied fs := by
  simp [Supplied, exists_or]

@[simp] theorem nudged_append {es fs : List Event} :
    Nudged (es ++ fs) ↔ Nudged es ∨ Nudged fs := by
  simp [Nudged, exists_or]

/-! ## What comes from outside -/

namespace Link

/-- Where a wake finds no room there is another one. -/
theorem wakes_of_full {l : Link cap} (room : 1 ≤ cap) (full : cap ≤ l.wakes.length) :
    l.wakes.items ≠ [] := by
  intro none
  have empty : l.wakes.length = 0 := congrArg List.length none
  omega

/-- There is a wake after one is posted, be it merged. -/
theorem wakes_post (l : Link cap) (w : Wake) (room : 1 ≤ cap) :
    (l.post w).1.wakes.items ≠ [] := by
  rcases l.post_cases w with ⟨_, wakes, items, posted⟩ | ⟨full, posted⟩
  · rw [posted]
    show wakes.items ≠ []
    rw [items]
    simp
  · rw [posted]
    exact wakes_of_full room full

/-- A wake is accepted unless there are others. -/
theorem accepted_post (l : Link cap) (w : Wake) (room : 1 ≤ cap) :
    (l.post w).2.1 = true ∨ l.wakes.items ≠ [] := by
  rcases l.post_cases w with ⟨_, _, _, posted⟩ | ⟨full, _⟩
  · rw [posted]
    exact .inl rfl
  · exact .inr (wakes_of_full room full)

/-- Posting a wake is no news. -/
theorem news_post (l : Link cap) (w : Wake) :
    ¬ Supplied (l.post w).2.2 ∧ ¬ Nudged (l.post w).2.2 := by
  rcases l.post_cases w with ⟨_, _, _, posted⟩ | ⟨_, posted⟩ <;>
    simp [posted, Supplied, Nudged]

end Link

namespace Heard

variable {l l' : Link cap} {news es : List Event}

/-- No news, and nothing waits. -/
theorem nil (idle : l.isIdle = true) (none : l.wakes.items = []) : Heard l [] := by
  constructor
  · simp [idle, Supplied]
  · simp [none, Supplied, Nudged]
  · simp [Nudged]

theorem offer (heard : Heard l news) (b : Batch) (room : 1 ≤ cap) :
    Heard (l.offer b).1 (news ++ (l.offer b).2.2) := by
  rcases l.offer_cases b with ⟨_, m, items, _, _, _, offer⟩ | ⟨_, offer⟩
  · have supplied : Supplied (news ++ .offered b true :: (m.post .dataAvailable).2.2) :=
      ⟨b, by simp⟩
    have outbox : (m.post .dataAvailable).1.outbox = m.outbox := (Link.post_fst _ _).1
    rw [offer]
    refine ⟨?_, ?_, fun _ => .inl supplied⟩
    · refine iff_of_true ?_ supplied
      show (m.post .dataAvailable).1.outbox.waiting.items.isEmpty = false
      rw [outbox, items]
      simp
    · exact iff_of_true (m.wakes_post .dataAvailable room) (.inl supplied)
  · generalize l.outbox.rejected + 1 = n at offer
    have same : Supplied (news ++ [.offered b false, .noticed (.batchRejected n)]) ↔
        Supplied news := by
      simp [Supplied]
    have noNudge : Nudged (news ++ [.offered b false, .noticed (.batchRejected n)]) ↔
        Nudged news := by
      simp [Nudged]
    rw [offer]
    constructor
    · rw [same]
      exact heard.batches
    · rw [same, noNudge]
      exact heard.wakes
    · rw [same, noNudge]
      intro nudged
      rcases heard.posted nudged with supplied | posted
      · exact .inl supplied
      · exact .inr (List.mem_append_left _ posted)

theorem nudge (heard : Heard l news) (room : 1 ≤ cap) :
    Heard l.nudge.1 (news ++ l.nudge.2.2) := by
  obtain ⟨noBatch, noNudge⟩ := l.news_post .external
  have events : l.nudge.2.2 = .nudged (l.post .external).2.1 :: (l.post .external).2.2 := rfl
  have nudged : Nudged (news ++ l.nudge.2.2) := ⟨(l.post .external).2.1, by simp [events]⟩
  have supplied : Supplied (news ++ l.nudge.2.2) ↔ Supplied news := by
    simp [events, Supplied] at noBatch ⊢
    simp [noBatch]
  refine ⟨?_, ?_, fun _ => ?_⟩
  · rw [supplied, ← heard.batches]
    show l.nudge.1.outbox.isEmpty = false ↔ l.outbox.isEmpty = false
    rw [l.nudge_fst.1]
  · exact iff_of_true (l.wakes_post .external room) (.inr nudged)
  · rw [supplied]
    rcases l.accepted_post .external room with accepted | others
    · refine .inr (List.mem_append_right _ ?_)
      rw [events, accepted]
      exact List.mem_cons_self
    · rcases heard.wakes.mp others with batch | before
      · exact .inl batch
      · exact (heard.posted before).imp_right (List.mem_append_left _)

/-- What comes from outside is heard. -/
theorem fed (fed : l.Fed es l') (room : 1 ≤ cap) :
    ∀ {news : List Event}, Heard l news → Heard l' (news ++ es) := by
  induction fed with
  | done l =>
      intro news heard
      rw [List.append_nil]
      exact heard
  | offer b _ ih =>
      intro news heard
      rw [← List.append_assoc]
      exact ih (heard.offer b room)
  | nudge _ ih =>
      intro news heard
      rw [← List.append_assoc]
      exact ih (heard.nudge room)

end Heard

/-! ## A worker that has the link to itself -/

theorem newsFor_producer (id : Nat) (journal : List Entry) (es : List Event) :
    newsFor id (journal ++ entries .producer es) = newsFor id journal ++ es := by
  have others : ∀ e ∈ entries .producer es, e.isRest id = false := by
    simp [entries, Event.causedBy, Entry.isRest]
  rw [newsFor, since_append journal others, events_append, events_entries]
  rfl

/-- There are no news when a worker has just reported that it rests. -/
theorem newsFor_rest (id : Nat) (journal : List Entry) (es : List Event) :
    newsFor id (journal ++ entries (.worker id) (es ++ [.noticed .resting])) = [] := by
  rw [newsFor, entries_append, ← List.append_assoc]
  exact congrArg events (since_append_cons _ (decide_eq_true rfl) (by simp))

/-- There is at most one worker, and if it rests it has said so and has heard
the news. -/
structure Restful (m : Moment cap) : Prop where
  sole : m.posts.length ≤ 1
  heard : ∀ (id : Nat) (w : Worker), m.posts[id]? = some (some ⟨w, .waiting .parked⟩) →
    ⟨.worker id, .noticed .resting⟩ ∈ m.journal ∧ Heard m.link (newsFor id m.journal)

/-- A worker begins to rest when there is nothing to do, and says so; no other
turn leads to a rest. -/
theorem Turn.parks {l l' : Link cap} {w w' : Worker} {p : Point} {es : List Event}
    (turn : Turn l w p es l' w' (.waiting .parked)) :
    (p = .waiting .parked ∧ l' = l ∧ es = []) ∨
      (l'.isIdle = true ∧ l'.wakes.items = [] ∧
        ∃ notes, es = notes ++ [.noticed .resting]) := by
  cases turn with
  | call _ _ next =>
      rcases next with other | ⟨_, _, other⟩ <;> cases other
  | park _ idle => exact .inr ⟨idle, rfl, .began .idle :: _, rfl⟩
  | rest _ => exact .inl ⟨rfl, rfl, rfl⟩

namespace Restful

variable {m : Moment cap}

/-- With one worker it is enough to look at where that one stands. -/
theorem of_sole {n : Moment cap} {id : Nat} {w : Worker} {p : Point}
    (restful : Restful m) (posts : n.posts = m.posts.set id (some ⟨w, p⟩))
    (inside : id < m.posts.length)
    (heard : p = .waiting .parked →
      ⟨.worker id, .noticed .resting⟩ ∈ n.journal ∧ Heard n.link (newsFor id n.journal)) :
    Restful n := by
  have sole := restful.sole
  refine ⟨by rw [posts, List.length_set]; exact sole, fun other v there => ?_⟩
  rw [posts] at there
  rcases post_of_set there with ⟨rfl, same⟩ | ⟨differ, before⟩
  · cases same
    exact heard rfl
  · have second : other < m.posts.length := (List.getElem?_eq_some_iff.mp before).1
    omega

theorem next {n : Moment cap} (restful : Restful m) (room : 1 ≤ cap)
    (next : m.Next (fun posts => posts = []) n) : Restful n := by
  cases next with
  | feed fed =>
      refine ⟨restful.sole, fun id w there => ?_⟩
      obtain ⟨said, heard⟩ := restful.heard id w there
      refine ⟨List.mem_append_left _ said, ?_⟩
      dsimp only
      rw [newsFor_producer]
      exact heard.fed fed room
  | boot settings none =>
      refine ⟨by simp [none], fun id w there => ?_⟩
      dsimp only at there
      rw [none, List.nil_append] at there
      cases List.mem_singleton.mp (List.mem_of_getElem? there)
  | @turn id w w' p q es l here turn =>
      refine restful.of_sole rfl (List.getElem?_eq_some_iff.mp here).1 fun parked => ?_
      subst parked
      dsimp only
      rcases turn.parks with ⟨rfl, rfl, rfl⟩ | ⟨idle, none, notes, rfl⟩
      · rw [entries_nil, List.append_nil]
        exact restful.heard id w here
      · rw [newsFor_rest]
        exact ⟨by simp [entries, Event.causedBy], .nil idle none⟩
  | @announce id w here =>
      obtain ⟨inside, there⟩ := List.getElem?_eq_some_iff.mp here
      have posts : m.posts = m.posts.set id (some ⟨w, .outset⟩) := by
        rw [← there, List.set_getElem_self]
      exact restful.of_sole posts inside fun parked => by cases parked
  | @cancel id w suspension here =>
      have inside := (List.getElem?_eq_some_iff.mp here).1
      exact restful.of_sole rfl inside fun parked => by cases parked
  | drop id =>
      refine ⟨by rw [List.length_set]; exact restful.sole, fun other w there => ?_⟩
      rcases post_of_set there with ⟨_, gone⟩ | ⟨_, before⟩
      · cases gone
      · exact restful.heard other w before

end Restful

/-! ## How a rest goes on -/

/-- The step, if the event is that one is completed. -/
def Event.step? : Event → Option (Phase × Phase)
  | entered source target => some (source, target)
  | _ => none

/-- The first step that is completed. -/
def firstStep (es : List Event) : Option (Phase × Phase) := es.findSome? Event.step?

theorem firstStep_asides {notes : List Event} (asides : Asides notes) (source target : Phase)
    (rest : List Event) :
    firstStep (notes ++ .entered source target :: rest) = some (source, target) := by
  have none : notes.findSome? Event.step? = none := by
    refine List.findSome?_eq_none_iff.mpr fun e there => ?_
    have aside := asides e there
    cases e <;> first | rfl | cases aside
  rw [firstStep, List.findSome?_append, none]
  rfl

/-- The end of an action: what it led to, and what happened. -/
theorem Site.finish_eq (s : Site cap ε) (source : Phase) (notes : List Event) :
    ∃ rest, s.finish source notes = ⟨s.leave source,
      notes ++ .entered source (source.next s.guards) :: rest,
      .finished (source.next s.guards)⟩ := by
  obtain ⟨_, _, events⟩ := s.enter_eq source (source.next s.guards)
  obtain ⟨rest, arrival, _⟩ := arrival_eq s.link.status source (source.next s.guards)
  refine ⟨rest, ?_⟩
  rw [← arrival, ← events]
  rfl

section Poll

variable [Crew ε]

/-- With a wake at hand a rest is over, and the outbox decides where that
leads. -/
theorem Site.listen_awake (s : Site cap ε) (awake : s.link.wakes.items ≠ []) :
    let target := if s.link.isIdle then Phase.idle else .connectNetwork
    (s.move (.waiting .parked)).verdict = .finished target ∧
      ∃ notes rest, Asides notes ∧
        (s.move (.waiting .parked)).events = notes ++ .entered .idle target :: rest := by
  intro target
  show s.listen.verdict = _ ∧ ∃ notes rest, _ ∧ s.listen.events = _
  cases taken : s.link.wakes.take? with
  | none => exact absurd ((Fifo.take?_eq_none_iff _).mp taken) awake
  | some pair =>
      obtain ⟨wake, wakes⟩ := pair
      let found : Site cap ε := { s with link := { s.link with wakes } }
      obtain ⟨_, _, hints⟩ := found.setLowPower_eq false
      obtain ⟨outbox, _⟩ := found.setLowPower_fst false
      have leads : Phase.next .idle (found.setLowPower false).1.guards = target := by
        show (if (found.setLowPower false).1.link.outbox.isEmpty then _ else _) = target
        rw [outbox]
        rfl
      obtain ⟨rest, finish⟩ := (found.setLowPower false).1.finish_eq .idle
        ((found.setLowPower false).2 ++
          [.noticed (.woken wake (found.setLowPower false).1.link.queued)])
      have listen : s.listen = (found.setLowPower false).1.finish .idle
          ((found.setLowPower false).2 ++
            [.noticed (.woken wake (found.setLowPower false).1.link.queued)]) := by
        unfold listen
        rw [taken]
      rw [listen, finish, leads, hints]
      exact ⟨rfl, _, rest, by simp [Event.isDeed], rfl⟩

end Poll

namespace World

variable [Crew ε]

/-- How a rest goes on: without a wake nothing happens, with one it ends. -/
theorem poll_parked (w : World cap ε) {id : Nat} {mode : Mode} {s : Station ε}
    (here : w.station? id = some s) (held : s.held = some (mode, .parked)) :
    let outcome := w.apply (.poll id)
    let target := if w.link.isIdle then Phase.idle else .connectNetwork
    (w.link.wakes.items = [] →
      outcome.reply = .progress (.pending .parked) ∧ outcome.entries = []) ∧
    (w.link.wakes.items ≠ [] → firstStep (events outcome.entries) = some (.idle, target) ∧
      (mode = .step → outcome.reply = .progress (.stepped target))) := by
  intro outcome target
  have resumed : outcome = w.absorb id mode ((w.site s).poll mode (.waiting .parked)) := by
    show w.apply (.poll id) = _
    simp only [apply, here, held]
    rfl
  rw [resumed]
  constructor
  · intro none
    have still : (w.site s).move (.waiting .parked) = ⟨w.site s, [], .suspended .parked⟩ := by
      have taken : (w.site s).link.wakes.take? = Option.none :=
        (Fifo.take?_eq_none_iff _).mpr none
      show (w.site s).listen = _
      unfold Site.listen
      rw [taken]
    rw [Site.poll_of_suspended (congrArg Move.verdict still), still]
    exact ⟨rfl, rfl⟩
  · intro some
    obtain ⟨verdict, notes, rest, asides, happened⟩ := (w.site s).listen_awake some
    have live : target.isTerminal = false := by
      show (if w.link.isIdle then Phase.idle else .connectNetwork).isTerminal = false
      split <;> rfl
    cases mode with
    | step =>
        rw [Site.poll_step_of_finished verdict]
        refine ⟨?_, fun _ => rfl⟩
        show firstStep (events (entries (.worker id) _)) = _
        rw [events_entries, happened]
        exact firstStep_asides asides _ _ rest
    | run =>
        rw [Site.poll_run_of_finished verdict live]
        refine ⟨?_, fun other => by cases other⟩
        show firstStep (events (entries (.worker id) (_ ++ _))) = _
        rw [events_entries, happened, List.append_assoc, List.cons_append]
        exact firstStep_asides asides _ _ _

end World

/-! ## Histories -/

variable [Crew ε]

/-- On a link with one worker, that worker has heard the news while it rests. -/
theorem restful_after (room : 1 ≤ cap) (ops : List (Op ε))
    (alone : ops.countP Op.isBoot = 1) :
    Restful ((World.after cap ops).moment (World.journal cap ops)) := by
  have first : Restful ({} : Moment cap) := by
    refine ⟨Nat.zero_le 1, ?_⟩
    intro id w there
    cases there
  exact World.invariant first (fun m n restful next => restful.next room next)
    (World.boots_alone ops _ rfl alone)

/-- **No lost wake-up.** While the only worker that a link ever had rests,
batches are waiting exactly if some were accepted since it said so, and then a
wake is waiting as well. Its next poll therefore ends the rest and goes on to
bring the network up exactly if batches are waiting; it ends the rest and goes
back to it exactly if there are none and an external wake was posted; and it
finds nothing to do exactly if neither has happened. -/
theorem no_lost_wakeup (room : 1 ≤ cap) (ops : List (Op ε))
    (alone : ops.countP Op.isBoot = 1) {id : Nat} {mode : Mode} {s : Station ε}
    (here : (World.after cap ops).station? id = some s)
    (held : s.held = some (mode, .parked)) :
    let world := World.after cap ops
    let journal := World.journal cap ops
    let news := newsFor id journal
    let outcome := world.apply (.poll id)
    let step := firstStep (events outcome.entries)
    ⟨.worker id, .noticed .resting⟩ ∈ journal ∧
      (world.link.isIdle = false ↔ Supplied news) ∧
      (world.link.isIdle = false → world.link.wakes.items ≠ []) ∧
      (Nudged news → Supplied news ∨ .nudged true ∈ news) ∧
      (step = some (.idle, .connectNetwork) ↔ world.link.isIdle = false) ∧
      (step = some (.idle, .idle) ↔ world.link.isIdle = true ∧ Nudged news) ∧
      (outcome.reply = .progress (.pending .parked) ∧ outcome.entries = [] ↔
        ¬ Supplied news ∧ ¬ Nudged news) ∧
      (mode = .step → ∀ target, step = some (.idle, target) →
        outcome.reply = .progress (.stepped target)) := by
  intro world journal news outcome step
  have there : world.posts[id]? = some (some ⟨s.worker, .waiting .parked⟩) := by
    rw [World.posts_of_station? here, Station.post, held]
  obtain ⟨said, heard⟩ := (restful_after room ops alone).heard id s.worker there
  obtain ⟨asleep, awake⟩ := world.poll_parked here held
  have batches : world.link.isIdle = false ↔ Supplied news := heard.batches
  have wakes : world.link.wakes.items ≠ [] ↔ Supplied news ∨ Nudged news := heard.wakes
  refine ⟨said, batches, fun busy => wakes.mpr (.inl (batches.mp busy)), heard.posted, ?_⟩
  by_cases none : world.link.wakes.items = []
  · have quiet : ¬ (Supplied news ∨ Nudged news) := fun news => wakes.mpr news none
    obtain ⟨noBatch, noNudge⟩ := not_or.mp quiet
    have still : outcome.reply = .progress (.pending .parked) ∧ outcome.entries = [] :=
      asleep none
    have noStep : step = Option.none := by
      show firstStep (events outcome.entries) = Option.none
      rw [still.2]
      rfl
    simp [noStep, batches, noBatch, noNudge, still]
  · obtain ⟨completed, reply⟩ := awake none
    have happened : outcome.entries ≠ [] := by
      intro nothing
      rw [nothing] at completed
      cases completed
    have first : step = _ := completed
    cases idle : world.link.isIdle with
    | true =>
        have noBatch : ¬ Supplied news := fun supplied => by
          rw [batches.mpr supplied] at idle
          cases idle
        have nudged : Nudged news := (wakes.mp none).resolve_left noBatch
        rw [idle, if_pos rfl] at first reply
        simpa [first, noBatch, nudged, happened] using reply
    | false =>
        have supplied : Supplied news := batches.mp idle
        rw [idle, if_neg Bool.false_ne_true] at first reply
        simpa [first, supplied, happened] using reply

/-- The wake of a batch finds the only place taken, and the batch is not
overlooked. -/
theorem no_lost_wakeup_merged :
    let ops : List (Op Script) := [.boot {} {}, .launch 0 .run, .nudge, .offer (.tagged 7)]
    let world := World.after 1 ops
    ops.countP Op.isBoot = 1 ∧
      ∃ s, world.station? 0 = some s ∧ s.held = some (.run, .parked) ∧
        firstStep (events (world.apply (.poll 0)).entries) =
          some (.idle, .connectNetwork) := by
  intro ops world
  have alone : ops.countP Op.isBoot = 1 := by
    decide
  have waits : (world.station? 0).map Station.held = some (some (.run, .parked)) := by
    decide +kernel
  obtain ⟨s, here, held⟩ := Option.map_eq_some_iff.mp waits
  obtain ⟨_, _, _, _, leads, _⟩ := no_lost_wakeup (Nat.le_refl 1) ops alone here held
  refine ⟨alone, s, here, held, leads.mpr ?_⟩
  decide +kernel

end StoreForward
