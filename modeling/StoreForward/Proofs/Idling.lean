import StoreForward.Crew.Script
import StoreForward.Proofs.Hints

/-!
# Nothing to do

A worker in `idle` on a link of its own has nothing to do as long as no batch is
offered. It may be stepped and run, polled and abandoned, and woken from outside as
often as anyone likes, before a rest, in it, or between two of them: it completes
steps that lead from `idle` to `idle` and hints that low power is allowed or not,
and that is all. Nobody else can bring it any work. Its crew could offer batches
while it handles a request, but it is asked for nothing.

`Idles` is what turns keep for this. It compares the link with an earlier one, which
is how nothing but low power is seen to change, whatever else is counted and shown.

## Main definitions

* `Event.isWork` — what does not happen while there is nothing to do.
* `Idles` — a worker in `idle`, and a link that has nothing for it.

## Main results

* `Idles.turn`, `World.Idling.apply` — turns and operations keep it so.
* `idle_while_empty` — so does every history without offers.
-/

namespace StoreForward

variable {cap : Nat} {ε : Type}

/-! ## Work -/

/-- The event is part of some work: it is no hint, no report and no wake from outside,
and it does not belong to a step that leads from `idle` to `idle`. -/
def Event.isWork : Event → Bool
  | began phase => decide (phase ≠ .idle)
  | entered source target => decide (source ≠ .idle ∨ target ≠ .idle)
  | hinted _ | noticed _ | nudged _ => false
  | _ => true

/-- No work is done. -/
abbrev Uneventful (es : List Event) : Prop := Without Event.isWork es

theorem uneventful_of_remarks {es : List Event} (remarks : Remarks es) : Uneventful es := by
  refine remarks.weaken fun e remark => ?_
  cases e <;> first | rfl | cases remark

/-- Nothing is asked of a crew without work. -/
theorem uncalled_of_uneventful {es : List Event} (uneventful : Uneventful es) : Uncalled es := by
  refine uneventful.weaken fun e idle => ?_
  cases e <;> first | rfl | cases idle

theorem uneventful_nudge (l : Link cap) : Uneventful l.nudge.2.2 :=
  l.without_nudge (fun _ => rfl) rfl

theorem uneventful_arrival (st : Status) : Uneventful (arrival st .idle .idle) := by
  simp [arrival, Event.isWork, Phase.isTerminal]

/-! ## Turns -/

/-- A worker is in `idle`, without a session, and no batch is waiting for it; and of a
link in comparison with an earlier one, that only wakes and low power have
changed. -/
structure Idles (earlier l : Link cap) (w : Worker) (p : Point) : Prop where
  phase : w.phase = .idle
  free : w.session = none
  stands : w.At p
  shown : l.status.phase = .idle
  empty : l.isIdle = true
  outbox : l.outbox = earlier.outbox
  status : ∃ allowed windows,
    l.status = { earlier.status with lowPower := allowed, lowPowerWindows := windows }

namespace Idles

variable {earlier l l' : Link cap} {w w' : Worker} {p q : Point} {es : List Event}

/-- Wakes are of no concern, and neither is a hint. -/
theorem hinted (idles : Idles earlier l w p) (wakes : Fifo Wake cap) (allowed : Bool)
    (phase : w'.phase = .idle) (free : w'.session = none) (stands : w'.At q) :
    Idles earlier ({ l with wakes }.hinted w.lowPower allowed) w' q where
  phase := phase
  free := free
  stands := stands
  shown := by
    have same := congrArg Picture.phase (Link.picture_hinted { l with wakes } w.lowPower allowed)
    exact same.trans idles.shown
  empty := idles.empty
  outbox := idles.outbox
  status := by
    obtain ⟨was, windows, status⟩ := idles.status
    unfold Link.hinted
    dsimp only
    split
    · exact ⟨was, windows, status⟩
    · exact ⟨_, _, by rw [status]; rfl⟩

/-- To enter `idle` again changes nothing that is shown. -/
theorem enter (idles : Idles earlier l w p) :
    { l with status := l.status.enter .idle .idle } = l := by
  have same : l.status.enter .idle .idle = { l.status with phase := .idle } := rfl
  rw [same, ← idles.shown]

/-- A turn finds nothing to do and does nothing. -/
theorem turn (turn : Turn l w p es l' w' q) (idles : Idles earlier l w p) :
    Idles earlier l' w' q ∧ Uneventful es := by
  have stands := turn.at_next idles.stands
  cases turn.lull idles.stands idles.phase with
  | rest => exact ⟨{ idles with stands }, without_nil⟩
  | park _ =>
      refine ⟨idles.hinted .empty true idles.phase idles.free stands, ?_⟩
      exact without_cons.mpr ⟨rfl, uneventful_of_remarks (by simp [Event.isMatter])⟩
  | @rise opening note wakes m target opens link leads =>
      rw [if_pos idles.empty] at leads
      subst leads
      have awake : Idles earlier m { w with lowPower := false, phase := .idle } q := by
        rw [link]
        exact idles.hinted wakes false rfl idles.free stands
      rw [awake.enter]
      refine ⟨awake, without_append.mpr ⟨?_, uneventful_arrival _⟩⟩
      have said : Uneventful (hinting w.lowPower false ++ [.noticed note]) :=
        uneventful_of_remarks (by simp [Event.isMatter])
      rcases opens with rfl | rfl
      · exact said
      · exact without_cons.mpr ⟨rfl, said⟩

/-- What is not awaited any more is no loss. -/
theorem outset (idles : Idles earlier l w p) : Idles earlier l w .outset :=
  { idles with stands := trivial }

theorem nudge (idles : Idles earlier l w p) : Idles earlier l.nudge.1 w p := by
  obtain ⟨outbox, status⟩ := l.nudge_fst
  refine { idles with shown := ?_, empty := ?_, outbox := ?_, status := ?_ }
  · rw [status]
    exact idles.shown
  · exact (congrArg Outbox.isEmpty outbox).trans idles.empty
  · rw [outbox]
    exact idles.outbox
  · rw [status]
    exact idles.status

/-- A drive finds nothing to do. -/
theorem driven [Crew ε] {mode : Mode} {s t : Site cap ε} (driven : s.Driven mode p es t q)
    (idles : Idles earlier s.link s.worker p) :
    Idles earlier t.link t.worker q ∧ Uneventful es := by
  refine driven.keeps (K := fun l w p es => Idles earlier l w p ∧ Uneventful es) ?_ []
    ⟨idles, without_nil⟩
  rintro l l' w w' p q past es turn ⟨idles, uneventful⟩
  obtain ⟨next, more⟩ := idles.turn turn
  exact ⟨next, without_append.mpr ⟨uneventful, more⟩⟩

end Idles

/-! ## Operations -/

namespace World

variable {w : World cap ε} {earlier : Link cap}

/-- The only worker of a link has nothing to do. -/
def Idling (earlier : Link cap) (w : World cap ε) : Prop :=
  ∃ worker p, w.posts = [some ⟨worker, p⟩] ∧ Idles earlier w.link worker p

/-- Whoever is there stands in the only place. -/
theorem only_of_posts {post : Post} (posts : w.posts = [some post]) {id : Nat} {s : Station ε}
    (here : w.station? id = some s) : id = 0 ∧ s.post = post := by
  have there := posts_of_station? here
  rw [posts] at there
  cases id with
  | zero =>
      cases there
      exact ⟨rfl, rfl⟩
  | succ _ => cases there

namespace Idling

variable [Crew ε]

/-- A poll finds nothing to do. -/
theorem polls {op : Op ε} {s : Station ε} {mode : Mode} {earlier : Link cap} {w : World cap ε}
    (here : w.station? 0 = some s) (posts : w.posts = [some s.post])
    (idles : Idles earlier w.link s.worker s.post.point) (polls : op.Polls 0 s mode) :
    (w.apply op).world.Idling earlier ∧ Uneventful (events (w.apply op).entries) := by
  obtain ⟨es, t, q, progress, driven, applied, ends⟩ := apply_driven here polls
  obtain ⟨drive, uneventful⟩ := Idles.driven driven idles
  obtain ⟨last, more⟩ := drive.turn (t.turn_move q)
  have moment := w.moment_absorb 0 mode
    ⟨(t.move q).site, op.announced ++ (es ++ (t.move q).events), progress⟩ []
  rw [applied]
  refine ⟨⟨(t.move q).site.worker, (t.move q).verdict.next, ?_, last⟩, ?_⟩
  · refine (congrArg Moment.posts moment).trans ?_
    rw [posts, ← ends.next_eq]
    rfl
  · rw [entries_absorb, events_entries]
    have announced : Uneventful op.announced := by
      cases polls with
      | again _ => exact without_nil
      | fresh _ => cases mode <;> simp [Op.announced, Event.isWork]
    exact without_append.mpr ⟨announced, without_append.mpr ⟨uneventful, more⟩⟩

/-- Whatever is done but to offer a batch, the only worker of a link has nothing to
do. -/
theorem apply (idling : w.Idling earlier) {op : Op ε} (use : op.isUse = true)
    (none : op.offered? = none) :
    (w.apply op).world.Idling earlier ∧ Uneventful (events (w.apply op).entries) := by
  have still : w.Idling earlier ∧ Uneventful (events []) := ⟨idling, without_nil⟩
  obtain ⟨worker, p, posts, idles⟩ := idling
  have effect := w.effect op
  generalize w.apply op = o at effect ⊢
  cases effect with
  | boot _ _ | drop _ => cases use
  | offer _ => cases none
  | nudge =>
      refine ⟨⟨worker, p, posts, idles.nudge⟩, ?_⟩
      rw [events_entries]
      exact uneventful_nudge w.link
  | polls here polls =>
      obtain ⟨rfl, stands⟩ := only_of_posts posts here
      cases stands
      exact Idling.polls here posts idles polls
  | @cancel id s _ here _ =>
      obtain ⟨rfl, stands⟩ := only_of_posts posts here
      cases stands
      refine ⟨⟨s.worker, .outset, ?_, idles.outset⟩, without_nil⟩
      rw [posts_place, posts]
      rfl
  | @amend id s here change =>
      obtain ⟨rfl, stands⟩ := only_of_posts posts here
      refine ⟨⟨worker, p, ?_, idles⟩, without_nil⟩
      rw [posts_place, posts, ← stands]
      rfl
  | refused _ _ _ => exact still

/-- So it stays whatever is done after one another. -/
theorem applyAll {later : List (Op ε)} (uses : ∀ op ∈ later, op.isUse = true)
    (none : offers later = []) : ∀ {w : World cap ε}, w.Idling earlier →
      (w.applyAll later).1.Idling earlier ∧ Uneventful (events (w.applyAll later).2) := by
  induction later with
  | nil => exact fun idling => ⟨idling, without_nil⟩
  | cons op rest ih =>
      intro w idling
      have nothing := List.filterMap_eq_nil_iff.mp none
      obtain ⟨first, uneventful⟩ := idling.apply (uses op List.mem_cons_self)
        (nothing op List.mem_cons_self)
      obtain ⟨last, more⟩ := ih (fun op there => uses op (List.mem_cons_of_mem _ there))
        (List.filterMap_eq_nil_iff.mpr fun op there => nothing op (List.mem_cons_of_mem _ there))
        first
      refine ⟨last, ?_⟩
      show Uneventful (events ((w.apply op).entries ++ ((w.apply op).world.applyAll rest).2))
      rw [events_append]
      exact without_append.mpr ⟨uneventful, more⟩

end Idling

end World

/-! ## Histories -/

section Histories

variable [Crew ε]

/-- The only worker of a link has nothing to do once it is found in `idle` and no batch
is waiting. -/
theorem idling_after {ops : List (Op ε)} (alone : ops.countP Op.isBoot = 1) {id : Nat}
    {s : Station ε} (here : (World.after cap ops).station? id = some s)
    (idle : s.worker.phase = .idle) (empty : (World.after cap ops).link.isIdle = true) :
    id = 0 ∧ (World.after cap ops).Idling (World.after cap ops).link := by
  have coherent : Coherent ((World.after cap ops).moment (World.journal cap ops)) :=
    coherent_after (Nat.le_of_eq alone)
  have there := World.posts_of_station? here
  have first := coherent.sole.only there
  subst first
  obtain ⟨stands, nested⟩ := (everyone_nested ops).here there
  refine ⟨rfl, s.worker, s.post.point, ?_, ?_⟩
  · obtain ⟨inside, found⟩ := List.getElem?_eq_some_iff.mp there
    have few : (World.after cap ops).posts.length ≤ 1 := coherent.sole.few
    obtain ⟨post, posts⟩ := List.length_eq_one_iff.mp (Nat.le_antisymm few inside)
    simp only [posts, List.getElem_cons_zero] at found
    rw [posts, found]
    rfl
  · refine ⟨idle, nested.free (by rw [idle]; rfl), stands, ?_, empty, rfl, _, _, rfl⟩
    exact (coherent.candid_worker there).shown.trans idle

/-- **Idle while empty.** Once the only worker of a link is in `idle`, at rest or not,
and no batch is waiting, it may be stepped, run, polled and abandoned, and woken from
outside, in any order and as often as one likes: as long as no batch is offered it
stays in `idle` without a session, and all that happens is that it completes steps from
`idle` to `idle`. Nothing is asked of its crew, which hears of low power only, allowed
and disallowed in turns. Of the link nothing changes but wakes and low power. -/
theorem idle_while_empty {ops : List (Op ε)} (alone : ops.countP Op.isBoot = 1) {id : Nat}
    {s : Station ε} (here : (World.after cap ops).station? id = some s)
    (idle : s.worker.phase = .idle) (empty : (World.after cap ops).link.isIdle = true)
    {later : List (Op ε)} (uses : ∀ op ∈ later, op.isUse = true)
    (unfed : offers later = []) :
    let world := World.after cap ops
    let after := (world.applyAll later).1
    let happened := events (world.applyAll later).2
    (∃ t, after.station? id = some t ∧ t.worker.phase = .idle ∧ t.worker.session = none) ∧
      Uneventful happened ∧ Uncalled happened ∧
      (Hint.of world.link.status.lowPower :: hints happened).IsChain (· ≠ ·) ∧
      after.link.outbox = world.link.outbox ∧
      (∃ allowed windows, after.link.status =
        { world.link.status with lowPower := allowed, lowPowerWindows := windows }) ∧
      after.link.tally =
        { world.link.tally with lowPowerWindows := after.link.tally.lowPowerWindows } := by
  intro world after happened
  obtain ⟨first, idling⟩ := idling_after alone here idle empty
  subst first
  obtain ⟨⟨worker, p, posts, idles⟩, uneventful⟩ := idling.applyAll uses unfed
  obtain ⟨t, there, stands⟩ :=
    World.station?_of_post (congrArg (·[0]?) posts)
  have same : t.worker = worker := congrArg Post.worker stands
  refine ⟨⟨t, there, ?_, ?_⟩, uneventful, uncalled_of_uneventful uneventful, ?_, idles.outbox,
    idles.status, ?_⟩
  · rw [same]
    exact idles.phase
  · rw [same]
    exact idles.free
  · -- the hints of the whole history alternate, and here it goes on from the one in force
    have still : (ops ++ later).countP Op.isBoot = 1 := by
      have unbooted : later.countP Op.isBoot = 0 := List.countP_eq_zero.mpr fun op there => by
        have use := uses op there
        cases op <;> first | exact Bool.false_ne_true | cases use
      rw [List.countP_append, alone, unbooted]
    have whole : (Hint.disallowLowPower ::
        hints (events (World.journal cap (ops ++ later)))).IsChain (· ≠ ·) := alternate_after still
    rw [World.journal_append, events_append, hints_append] at whole
    have shown : Hint.of world.link.status.lowPower = inForce (events (World.journal cap ops)) :=
      (told_after ops).shown
    rw [shown]
    exact (alternate_append.mp whole).2
  · obtain ⟨allowed, windows, status⟩ := idles.status
    show Link.tally ((World.after cap ops).applyAll later).1.link = _
    unfold Link.tally
    rw [idles.outbox, status]

/-- A rest is abandoned after a batch has been published. The wake that comes then is
stale, one that comes in the next rest ends it, and a run rests twice more. -/
theorem idle_while_empty_woken :
    let ops : List (Op Script) :=
      [.boot {} .empty, .offer (.tagged 1), .launch 0 .run, .cancel 0]
    let later : List (Op Script) := [.nudge, .launch 0 .step, .nudge, .poll 0, .launch 0 .run,
      .nudge, .poll 0]
    let world := World.after 2 ops
    let after := (world.applyAll later).1
    ops.countP Op.isBoot = 1 ∧ (∃ s, world.station? 0 = some s ∧ s.worker.phase = .idle) ∧
      world.link.isIdle = true ∧ (∀ op ∈ later, op.isUse = true) ∧ offers later = [] ∧
      hints (events (world.applyAll later).2) =
        [.disallowLowPower, .allowLowPower, .disallowLowPower, .allowLowPower] ∧
      (∃ t, after.station? 0 = some t ∧ t.worker.phase = .idle ∧ t.worker.session = none) ∧
      after.link.tally.published = 1 := by
  intro ops later world after
  have alone : ops.countP Op.isBoot = 1 := by
    decide
  have idle : (world.station? 0).map (fun s => s.worker.phase) = some .idle := by
    decide +kernel
  have empty : world.link.isIdle = true := by
    decide +kernel
  have published : world.link.tally.published = 1 := by
    decide +kernel
  have uses : ∀ op ∈ later, op.isUse = true := by
    decide
  have given : hints (events (world.applyAll later).2) =
      [.disallowLowPower, .allowLowPower, .disallowLowPower, .allowLowPower] := by
    decide +kernel
  obtain ⟨s, here, idle⟩ := Option.map_eq_some_iff.mp idle
  obtain ⟨there, _, _, _, _, _, tally⟩ := idle_while_empty alone here idle empty uses rfl
  refine ⟨alone, ⟨s, here, idle⟩, empty, uses, rfl, given, there, ?_⟩
  -- the worlds stay closed: only what is said of their counters counts
  have same : after.link.tally.published = world.link.tally.published := by
    generalize after.link.tally = t at tally
    generalize world.link.tally = u at tally
    rw [tally]
  rw [same]
  exact published

end Histories

end StoreForward
