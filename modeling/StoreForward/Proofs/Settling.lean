import StoreForward.Crew.Script
import StoreForward.Proofs.Concern
import StoreForward.Proofs.Hints

/-!
# Settling down

A worker that comes to `idle` finds on its link whatever wakes have been posted while it
was busy, and on itself the low power that an abandoned rest has left allowed. Neither
says anything about batches. So the worker first discards all wakes, then looks at the
outbox, and only then does it decide: it rests if the outbox is empty, and otherwise it
goes on to bring up the network. The wakes make no difference to that, and low power
makes a difference to the hints only: the crew is told what it has not been told before
(`Site.settle_eq`).

Low power is left allowed in one way only. A worker that rests is in the middle of a
step, and when that step comes to its end low power has been disallowed
(`Turn.parks_of_lowPower`). At the outset of a step it is therefore allowed exactly if the
last thing that the worker did was to abandon a rest (`LeftResting.of_lowPower`,
`LeftResting.lowPower`).

## Main definitions

* `Site.Settled` — what a worker in `idle` has settled on in a poll.
* `LeftResting` — a worker has abandoned a rest, and has done nothing since.

## Main results

* `Site.settled` — the outbox alone decides whether the worker rests.
* `rests_only_if_empty` — stale wakes never cause an empty pass.
-/

namespace StoreForward

variable {cap : Nat} {ε : Type} [Crew ε]

/-! ## One poll in `idle` -/

theorem hints_around {es fs : List Event} (first : hints es = []) (last : hints fs = [])
    (was allowed : Bool) :
    hints (es ++ hinting was allowed ++ fs) = hints (hinting was allowed) := by
  rw [hints_append, hints_append, first, last, List.append_nil]
  rfl

namespace Site

/-- The site once the wakes have been discarded. -/
def cleared (s : Site cap ε) : Site cap ε := { s with link := { s.link with wakes := .empty } }

/-- A crew is told what it has not been told before. -/
theorem crew_setLowPower (s : Site cap ε) (allowed : Bool) :
    (s.setLowPower allowed).1.crew =
      (hints (hinting s.worker.lowPower allowed)).foldl Crew.hint s.crew := by
  rw [hints_hinting]
  unfold setLowPower
  split
  · rfl
  · cases allowed <;> rfl

/-- What is settled in `idle`, once the wakes have been discarded: to rest, or to go on. -/
theorem settle_eq (s : Site cap ε) :
    s.settle =
      if s.link.isIdle then
        ⟨(s.cleared.setLowPower true).1, discarding s.link.wakes.length ++
          hinting s.worker.lowPower true ++ [.noticed .resting], .goOn (.waiting .parked)⟩
      else (s.cleared.setLowPower false).1.finish .idle
        (hinting s.worker.lowPower false ++ [.noticed (.restSkipped s.link.queued)]) := by
  have hinted (allowed : Bool) :
      (s.cleared.setLowPower allowed).2 = hinting s.worker.lowPower allowed :=
    (s.cleared.setLowPower_eq allowed).2.2
  have queued : (s.cleared.setLowPower false).1.link.queued = s.link.queued :=
    congrArg Outbox.length (s.cleared.setLowPower_fst false).1
  rw [← hinted true, ← hinted false, ← queued]
  rfl

omit [Crew ε] in
/-- The end of an action: what it leads to, and what happens. -/
theorem finish_arrival (s : Site cap ε) (source : Phase) (notes : List Event) :
    s.finish source notes = ⟨s.leave source,
      notes ++ arrival s.link.status source (source.next s.guards),
      .finished (source.next s.guards)⟩ := by
  rw [← (s.enter_eq source (source.next s.guards)).2.2]
  rfl

theorem move_idle {s : Site cap ε} (idle : s.worker.phase = .idle) :
    s.move .outset = { s.settle with events := .began .idle :: s.settle.events } := by
  have act : s.act = s.settle := by
    unfold act
    rw [idle]
  exact move_of_act idle rfl act

/-- With nothing to do the worker discards all wakes and rests. -/
theorem poll_rest {s : Site cap ε} (idle : s.worker.phase = .idle)
    (empty : s.link.isIdle = true) (mode : Mode) :
    s.poll mode .outset =
      ⟨(s.cleared.setLowPower true).1, .began .idle :: discarding s.link.wakes.length ++
        hinting s.worker.lowPower true ++ [.noticed .resting], .pending .parked⟩ := by
  have settle := s.settle_eq
  rw [if_pos empty] at settle
  have goOn : (s.move .outset).verdict = .goOn (.waiting .parked) := by
    rw [move_idle idle, settle]
  -- the wakes that would end the rest have just been discarded
  have quiet : (s.move .outset).site.link.wakes.take? = none := by
    rw [move_idle idle, settle]
    exact congrArg Fifo.take? (s.cleared.setLowPower_fst true).2.1
  have rests : (s.move .outset).site.move (.waiting .parked) =
      ⟨(s.move .outset).site, [], .suspended .parked⟩ := by
    show (s.move .outset).site.listen = _
    unfold listen
    rw [quiet]
  rw [poll_of_goOn goOn, poll_of_suspended (congrArg Move.verdict rests), rests, move_idle idle,
    settle]
  simp [Polled.after]

/-- With something to do the worker discards all wakes and goes on. -/
theorem poll_skip {s : Site cap ε} (idle : s.worker.phase = .idle)
    (busy : s.link.isIdle = false) :
    s.poll .step .outset =
      ⟨((s.cleared.setLowPower false).1.enter .idle .connectNetwork).1,
        [.began .idle] ++ hinting s.worker.lowPower false ++
          (.noticed (.restSkipped s.link.queued) ::
            arrival (s.cleared.setLowPower false).1.link.status .idle .connectNetwork),
        .stepped .connectNetwork⟩ := by
  have settle := s.settle_eq
  rw [busy, if_neg Bool.false_ne_true] at settle
  have leads : Phase.next .idle (s.cleared.setLowPower false).1.guards = .connectNetwork := by
    show (if (s.cleared.setLowPower false).1.link.outbox.isEmpty then _ else _) = _
    rw [(s.cleared.setLowPower_fst false).1]
    exact if_neg (ne_true_of_eq_false busy)
  have finish := (s.cleared.setLowPower false).1.finish_arrival .idle
    (hinting s.worker.lowPower false ++ [.noticed (.restSkipped s.link.queued)])
  unfold leave at finish
  rw [leads] at finish
  rw [finish] at settle
  have finished : (s.move .outset).verdict = .finished .connectNetwork := by
    rw [move_idle idle, settle]
  rw [poll_step_of_finished finished, move_idle idle, settle]
  simp

/-- What a worker in `idle` has settled on in a poll. -/
structure Settled (s : Site cap ε) (rests : Bool) (o : Polled cap ε) : Prop where
  wakes : o.site.link.wakes = .empty
  outbox : o.site.link.outbox = s.link.outbox
  given : hints o.events = if s.worker.lowPower = rests then [] else [.of rests]
  shown : Hint.of o.site.link.status.lowPower =
    (hints o.events).getLastD (.of s.link.status.lowPower)
  uncalled : Uncalled o.events
  worker : o.site.worker =
    { s.worker with phase := if rests then .idle else .connectNetwork, lowPower := rests }
  crew : o.site.crew = (hints o.events).foldl Crew.hint s.crew
  progress : o.progress = if rests then .pending .parked else .stepped .connectNetwork

/-- The outbox alone decides whether the worker rests. -/
theorem settled {s : Site cap ε} (idle : s.worker.phase = .idle) :
    s.Settled s.link.isIdle (s.poll .step .outset) := by
  cases empty : s.link.isIdle with
  | true =>
      obtain ⟨link, worker, _⟩ := s.cleared.setLowPower_eq true
      have none : hints (.began .idle :: discarding s.link.wakes.length) = [] :=
        hints_discarding _
      have after : hints [.noticed .resting] = [] := rfl
      have around := hints_around none after s.worker.lowPower true
      rw [poll_rest idle empty]
      constructor
      · exact (s.cleared.setLowPower_fst true).2.1
      · exact (s.cleared.setLowPower_fst true).1
      · exact around.trans (hints_hinting _ _)
      · rw [around, link]
        exact Link.lowPower_hinted_eq _ _ _
      · exact uncalled_of_quiet (by simp [Event.isTraffic])
      · rw [worker, if_pos rfl, ← idle]
        rfl
      · rw [around]
        exact s.cleared.crew_setLowPower true
      · rfl
  | false =>
      obtain ⟨link, worker, _⟩ := s.cleared.setLowPower_eq false
      obtain ⟨enters, phase, _⟩ :=
        (s.cleared.setLowPower false).1.enter_eq .idle .connectNetwork
      obtain ⟨crew, outbox, _⟩ :=
        (s.cleared.setLowPower false).1.enter_fst .idle .connectNetwork
      have none : hints [.began .idle] = [] := rfl
      have after : hints (.noticed (.restSkipped s.link.queued) ::
          arrival (s.cleared.setLowPower false).1.link.status .idle .connectNetwork) = [] :=
        hints_arrival _ _ _
      have around := hints_around none after s.worker.lowPower false
      rw [poll_skip idle empty]
      constructor
      · exact (congrArg Link.wakes enters).trans (s.cleared.setLowPower_fst false).2.1
      · exact outbox.trans (s.cleared.setLowPower_fst false).1
      · exact around.trans (hints_hinting _ _)
      · rw [around, enters, link]
        exact Link.lowPower_hinted_eq _ _ _
      · exact uncalled_of_quiet (by simp [Event.isTraffic])
      · rw [phase, worker]
        rfl
      · rw [around, crew]
        exact s.cleared.crew_setLowPower false
      · rfl

end Site

/-! ## Low power at the outset of a step -/

section Turns

variable {l l' l₁ : Link cap} {w w' w₁ : Worker} {source : Phase} {p q : Point}
  {es : List Event}

/-- Whoever leaves `idle` has disallowed low power. -/
theorem Closing.awake (closing : Closing l w source p es l₁ w₁) (idle : source = .idle) :
    w₁.lowPower = false := by
  cases closing with
  | skipped _ _ | woken _ => rfl
  | succeeded job _ | failed job _ => cases job <;> cases idle
  | _ => cases idle

/-- A turn leaves low power allowed only if it leads to a rest. -/
theorem Turn.parks_of_lowPower (turn : Turn l w p es l' w' q) (stands : w.At p)
    (place : w.lowPower = true → w.phase = .idle) (allowed : w'.lowPower = true) :
    q = .waiting .parked := by
  by_cases idle : w.phase = .idle
  · have nowhere {job : Job} (busy : w.phase = job.phase) : False := by
      rw [idle] at busy
      cases job <;> cases busy
    cases turn with
    | park _ _ | rest _ => rfl
    | leave closing =>
        cases allowed.symm.trans (closing.awake ((closing.phase_eq stands).symm.trans idle))
    | call calling _ _ =>
        exact (nowhere (calling.signal.2.1.symm.trans (calling.held stands).1)).elim
    | wait | published _ | overflown => exact (nowhere stands.1).elim
    | opened here _ | refused here _ | halted here => cases here.symm.trans idle
  · exact absurd (place ((turn.unhinted stands idle).2.1.symm.trans allowed)) idle

end Turns

/-- Low power is confined to `idle` in a drive as it is between polls. -/
theorem Site.Driven.place {mode : Mode} {s t : Site cap ε} {p q : Point} {es : List Event}
    (driven : s.Driven mode p es t q) (stands : s.worker.At p)
    (place : s.worker.lowPower = true → s.worker.phase = .idle) :
    t.worker.At q ∧ (t.worker.lowPower = true → t.worker.phase = .idle) := by
  refine driven.keeps (K := fun _ w p _ => w.At p ∧ (w.lowPower = true → w.phase = .idle)) ?_
    [] ⟨stands, place⟩
  rintro l l' w w' p q past es turn ⟨stands, place⟩
  have next := turn.at_next stands
  refine ⟨next, fun allowed => ?_⟩
  rw [turn.parks_of_lowPower stands place allowed] at next
  exact next.1

/-- A worker has abandoned a rest, and has done nothing since. -/
def LeftResting (cap : Nat) (ops : List (Op ε)) (id : Nat) : Prop :=
  ∃ before later s mode, ops = before ++ .cancel id :: later ∧
    (World.after cap before).station? id = some s ∧ s.held = some (mode, .parked) ∧
    own id ((World.after cap (before ++ [.cancel id])).applyAll later).2 = []

theorem World.own_applyAll_concat (w : World cap ε) (ops : List (Op ε)) (op : Op ε) (id : Nat) :
    own id (w.applyAll (ops ++ [op])).2 =
      own id (w.applyAll ops).2 ++ own id ((w.applyAll ops).1.apply op).entries := by
  rw [applyAll_append, own_append]
  show _ ++ own id (_ ++ []) = _
  rw [List.append_nil]

namespace LeftResting

variable {ops : List (Op ε)} {id : Nat}

/-- An operation in which the worker does nothing leaves it where it is. -/
theorem concat (left : LeftResting cap ops id) {op : Op ε}
    (silent : own id ((World.after cap ops).apply op).entries = []) :
    LeftResting cap (ops ++ [op]) id := by
  obtain ⟨before, later, s, mode, rfl, here, held, nothing⟩ := left
  have same : ((World.after cap (before ++ [.cancel id])).applyAll later).1 =
      World.after cap (before ++ .cancel id :: later) := by
    rw [← World.after_append]
    simp
  refine ⟨before, later ++ [op], s, mode, by simp, here, held, ?_⟩
  rw [World.own_applyAll_concat, nothing, same, silent]
  rfl

/-- Low power that is allowed at the outset of a step has been left allowed. -/
theorem of_lowPower (ops : List (Op ε)) : ∀ {id : Nat} {worker : Worker},
    (World.after cap ops).posts[id]? = some (some ⟨worker, .outset⟩) →
    worker.lowPower = true → LeftResting cap ops id := by
  induction ops using List.reverseRecOn with
  | nil =>
      intro id worker here
      cases here
  | append_singleton ops op ih =>
      intro id worker here allowed
      have known := @poised_after cap _ _ ops
      have concern := (World.after cap ops).concern op id
      rw [World.after_concat] at here
      generalize applied : (World.after cap ops).apply op = o at concern here
      cases concern with
      | spared silent _ stays =>
          rw [← applied] at silent
          exact (ih (stays _ here) allowed).concat silent
      | booted settings crew new _ posts =>
          rw [posts, List.getElem?_append_right new] at here
          cases List.mem_singleton.mp (List.mem_of_getElem? here)
          cases allowed
      | polled there polls =>
          have was := World.posts_of_station? there
          obtain ⟨es, t, q, _, driven, _, _, _, posts⟩ := World.polled there polls
          obtain ⟨stands, _, poised⟩ := known.here was
          obtain ⟨last, place⟩ := driven.place stands poised.place
          rw [posts, List.getElem?_set_self (List.getElem?_eq_some_iff.mp was).1] at here
          obtain ⟨rfl, outset⟩ := Post.mk.inj (Option.some.inj (Option.some.inj here))
          have parked := (t.turn_move q).parks_of_lowPower last place allowed
          cases outset.symm.trans parked
      | @cancelled s mode suspension _ there held silent posts =>
          have was := World.posts_of_held there held
          obtain ⟨stands, _, poised⟩ := known.here was
          rw [posts, List.getElem?_set_self (List.getElem?_eq_some_iff.mp was).1] at here
          cases here
          cases suspension with
          | parked => exact ⟨ops, [], s, mode, rfl, there, held, rfl⟩
          | call job polls answer =>
              have busy : s.worker.phase = job.phase := stands.1
              rw [poised.place allowed] at busy
              cases job <;> cases busy

/-- A worker that has not done anything since it abandoned a step is where it was then. -/
theorem still {w : World cap ε} {worker : Worker} (later : List (Op ε))
    (resting : worker.phase = .idle) (nothing : own id (w.applyAll later).2 = [])
    (stands : ∀ post, w.posts[id]? = some (some post) → post = ⟨worker, .outset⟩) :
    ∀ post, (w.applyAll later).1.posts[id]? = some (some post) → post = ⟨worker, .outset⟩ := by
  induction later generalizing w with
  | nil => exact stands
  | cons op rest ih =>
      have parts : own id ((w.apply op).entries ++ ((w.apply op).world.applyAll rest).2) = [] :=
        nothing
      rw [own_append] at parts
      obtain ⟨first, more⟩ := List.append_eq_nil_iff.mp parts
      refine ih more ?_
      have concern := w.concern op id
      generalize applied : w.apply op = o at concern first
      cases concern with
      | spared _ _ stays => exact fun post there => stands post (stays post there)
      | booted settings crew _ happened _ => cases happened.symm.trans first
      | @polled _ s mode here polls =>
          -- a poll in `idle` begins a step
          have post := stands _ (World.posts_of_station? here)
          have idle : (w.site s).worker.phase = .idle :=
            (congrArg (fun p => p.worker.phase) post).trans resting
          have begins : .began .idle ∈ ((w.site s).move .outset).events := by
            rw [Site.move_idle idle]
            exact List.mem_cons_self
          rw [World.apply_polls here polls, congrArg Post.point post, World.entries_absorb,
            own_entries_self] at first
          have silent : ((w.site s).poll mode .outset).events = [] :=
            (List.append_eq_nil_iff.mp first).2
          have there := Site.mem_poll begins mode
          rw [silent] at there
          cases there
      | cancelled here held _ _ =>
          cases stands _ (World.posts_of_held here held)

/-- A worker that has abandoned a rest remembers that it has allowed low power. -/
theorem lowPower (left : LeftResting cap ops id) {s : Station ε}
    (here : (World.after cap ops).station? id = some s) : s.worker.lowPower = true := by
  obtain ⟨before, later, t, mode, rfl, there, held, nothing⟩ := left
  have parked := World.posts_of_held there held
  obtain ⟨⟨idle, allowed⟩, _⟩ := (poised_after before).here parked
  have abandons : (World.after cap (before ++ [.cancel id])).posts =
      (World.after cap before).posts.set id (some ⟨t.worker, .outset⟩) := by
    rw [World.after_concat]
    simp only [World.apply, there, held]
    exact World.posts_place _ _ _
  have last := still later idle nothing fun post stood => by
    rw [abandons, List.getElem?_set_self (List.getElem?_eq_some_iff.mp parked).1] at stood
    exact (Option.some.inj (Option.some.inj stood)).symm
  rw [← World.after_append, List.append_assoc] at last
  have post := last _ (World.posts_of_station? here)
  exact (congrArg (fun p => p.worker.lowPower) post).trans allowed

end LeftResting

/-! ## The first poll of a step in `idle` -/

section Poll

variable {w : World cap ε} {id : Nat} {s : Station ε}

/-- The first poll of a step, if the worker is free: what it leaves behind. -/
theorem World.launch_step (here : w.station? id = some s) (free : s.held = none)
    {p : Polled cap ε} (polled : (w.site s).poll .step .outset = p) :
    let o := w.apply (.launch id .step)
    o.world.link = p.site.link ∧ o.reply = .progress p.progress ∧ own id o.entries = p.events ∧
      ∃ held, o.world.station? id = some ⟨p.site.worker, p.site.crew, held⟩ ∧
        (∀ suspension, p.progress = .pending suspension → held = some (.step, suspension)) ∧
        ((∀ suspension, p.progress ≠ .pending suspension) → held = none) := by
  intro o
  have applied : o = w.absorb id .step p := by
    rw [← polled]
    show w.apply (.launch id .step) = _
    simp only [World.apply, here, free]
    rfl
  rw [applied, World.entries_absorb, own_entries_self]
  exact ⟨rfl, rfl, rfl, World.station?_absorb here .step p⟩

/-- **Stale wakes never cause an empty pass.** Whatever is on a link, and however many wakes
are stale, a worker that starts a step in `idle` discards the wakes and leaves the outbox
alone. If batches are waiting the step is complete and leads to bringing up the network;
the crew is told that low power is disallowed if it was allowed, and nothing else. If none
is waiting the worker rests with low power allowed; the crew is told so unless it was
allowed. And in every history low power is allowed before the step exactly if the worker
has abandoned a rest and not done anything since. -/
theorem rests_only_if_empty (here : w.station? id = some s) (free : s.held = none)
    (idle : s.worker.phase = .idle) :
    let o := w.apply (.launch id .step)
    let given := hints (own id o.entries)
    let told := given.foldl Crew.hint s.crew
    o.world.link.wakes = .empty ∧ o.world.link.outbox = w.link.outbox ∧
    Uncalled (own id o.entries) ∧
    Hint.of o.world.link.status.lowPower = given.getLastD (.of w.link.status.lowPower) ∧
    (w.link.isIdle = false →
      o.reply = .progress (.stepped .connectNetwork) ∧
      given = (if s.worker.lowPower then [.disallowLowPower] else []) ∧
      o.world.station? id = some
        ⟨{ s.worker with phase := .connectNetwork, lowPower := false }, told, none⟩) ∧
    (w.link.isIdle = true →
      o.reply = .progress (.pending .parked) ∧
      given = (if s.worker.lowPower then [] else [.allowLowPower]) ∧
      o.world.station? id = some
        ⟨{ s.worker with lowPower := true }, told, some (.step, .parked)⟩) ∧
    (∀ ops, w = World.after cap ops → (s.worker.lowPower = true ↔ LeftResting cap ops id)) := by
  intro o given told
  have settled : (w.site s).Settled w.link.isIdle ((w.site s).poll .step .outset) :=
    Site.settled idle
  obtain ⟨link, reply, happened, held, place, waits, ends⟩ := World.launch_step here free rfl
  have shown := settled.shown
  have crew := settled.crew
  rw [← happened] at shown crew
  rw [← link] at shown
  rw [settled.worker, crew] at place
  refine ⟨(congrArg Link.wakes link).trans settled.wakes,
    (congrArg Link.outbox link).trans settled.outbox, ?_, shown, fun busy => ?_,
    fun empty => ?_, ?_⟩
  · rw [happened]
    exact settled.uncalled
  · rw [busy] at settled place
    have progress := settled.progress
    refine ⟨reply.trans (congrArg _ progress), ?_, ?_⟩
    · show hints (own id o.entries) = _
      rw [happened, settled.given]
      show (if s.worker.lowPower = false then _ else _) = _
      cases s.worker.lowPower <;> rfl
    · rw [place, ends fun suspension waits => by cases progress.symm.trans waits]
      rfl
  · rw [empty] at settled place
    have progress := settled.progress
    refine ⟨reply.trans (congrArg _ progress), ?_, ?_⟩
    · show hints (own id o.entries) = _
      rw [happened, settled.given]
      rfl
    · rw [place, waits _ progress, if_pos rfl, ← idle]
      rfl
  · rintro ops rfl
    exact ⟨.of_lowPower ops (World.posts_of_free here free), fun left => left.lowPower here⟩

end Poll

/-- A rest is abandoned and three wakes come, of which there is room for two. With a batch
the next step goes on and takes the hint back; without one it rests again and says nothing. -/
theorem rests_only_if_empty_abandoned :
    let rests : List (Op Script) := [.boot {} .empty, .launch 0 .run, .cancel 0]
    let busy := World.after 2 (rests ++ [.nudge, .offer (.tagged 1), .nudge])
    let empty := World.after 2 (rests ++ [.nudge, .nudge, .nudge])
    (∃ s, busy.station? 0 = some s ∧ s.held = none ∧ s.worker.phase = .idle ∧
      busy.link.wakes.length = 2 ∧ busy.link.isIdle = false ∧
      (busy.apply (.launch 0 .step)).reply = .progress (.stepped .connectNetwork) ∧
      hints (own 0 (busy.apply (.launch 0 .step)).entries) = [.disallowLowPower]) ∧
    (∃ s, empty.station? 0 = some s ∧ s.held = none ∧ s.worker.phase = .idle ∧
      empty.link.wakes.length = 2 ∧ empty.link.isIdle = true ∧
      (empty.apply (.launch 0 .step)).reply = .progress (.pending .parked) ∧
      hints (own 0 (empty.apply (.launch 0 .step)).entries) = [] ∧
      LeftResting 2 (rests ++ [.nudge, .nudge, .nudge]) 0) := by
  intro rests busy empty
  have stands (w : World 2 Script) (look : (w.station? 0).map (fun s =>
      (s.held, s.worker.phase, s.worker.lowPower)) = some (none, .idle, true)) :
      ∃ s, w.station? 0 = some s ∧ s.held = none ∧ s.worker.phase = .idle ∧
        s.worker.lowPower = true := by
    obtain ⟨s, here, same⟩ := Option.map_eq_some_iff.mp look
    simp only [Prod.mk.injEq] at same
    exact ⟨s, here, same⟩
  constructor
  · obtain ⟨s, here, free, idle, allowed⟩ := stands busy (by decide +kernel)
    have full : busy.link.wakes.length = 2 ∧ busy.link.isIdle = false := by
      decide +kernel
    obtain ⟨_, _, _, _, goes, _⟩ := rests_only_if_empty here free idle
    obtain ⟨reply, given, _⟩ := goes full.2
    rw [allowed] at given
    exact ⟨s, here, free, idle, full.1, full.2, reply, given⟩
  · obtain ⟨s, here, free, idle, allowed⟩ := stands empty (by decide +kernel)
    have full : empty.link.wakes.length = 2 ∧ empty.link.isIdle = true := by
      decide +kernel
    obtain ⟨_, _, _, _, _, rests, left⟩ := rests_only_if_empty here free idle
    obtain ⟨reply, given, _⟩ := rests full.2
    rw [allowed] at given
    exact ⟨s, here, free, idle, full.1, full.2, reply, given, (left _ rfl).mp allowed⟩

end StoreForward
