import StoreForward.Proofs.Observers
import StoreForward.Proofs.Stepwise

/-!
# Halts are final

A worker halts for one of four reasons: the network could not be brought up, the
clock could not be set, a batch could not be published, or a session could not
be opened once too often. Which one it was the link shows as its fault, although
the failures before and the retries in between have been writing the same
fields; and a worker that halted while it was publishing has its session still.

From then on nothing moves but the producer. Whoever steps or runs the worker
gets the same reply every time, and the crew hears nothing more. The outbox is
all that changes: nobody takes anything out, so that what is offered is appended
as long as there is room, and everything after that is turned away and counted.

## Main definitions

* `World.Halted` — the only worker of a link has halted.
* `Link.Took` — what becomes of offers on a link that nobody empties.

## Main results

* `World.Halted.apply` — whatever is done, a worker that has halted stays so.
* `halted_for_good` — why a worker has halted, and that this is final.
-/

namespace StoreForward

variable {cap : Nat} {ε : Type}

/-! ## Links that nobody empties -/

namespace Link

/-- With room for it, an offer is appended and counted. -/
theorem offer_of_room {l : Link cap} (room : l.queued < cap) (b : Batch) :
    (l.offer b).1.waiting = l.waiting ++ [b] ∧
      (l.offer b).1.outbox.rejected = l.outbox.rejected ∧
      (l.offer b).1.status = { l.status with enqueued := l.status.enqueued + 1 } := by
  rcases l.offer_cases b with ⟨_, m, items, rejected, _, status, offer⟩ | ⟨full, _⟩
  · obtain ⟨outbox, kept⟩ := m.post_fst .dataAvailable
    rw [offer]
    exact ⟨(m.waiting_post _).trans items, (congrArg Outbox.rejected outbox).trans rejected,
      kept.trans status⟩
  · exact absurd room (Nat.not_lt.mpr full)

/-- Without room for it, an offer is turned away and counted. -/
theorem offer_of_full {l : Link cap} (full : cap ≤ l.queued) (b : Batch) :
    (l.offer b).1 = { l with outbox := { l.outbox with rejected := l.outbox.rejected + 1 } } := by
  rcases l.offer_cases b with ⟨room, _⟩ | ⟨_, offer⟩
  · exact absurd room (Nat.not_lt.mpr full)
  · rw [offer]

/-- What becomes of offers on a link that nobody empties: the first of them are
appended while there is room, and all others are turned away; either is
counted. -/
structure Took (l : Link cap) (offers : List Batch) (after : Link cap) : Prop where
  waiting : after.waiting = l.waiting ++ offers.take (cap - l.queued)
  enqueued : after.tally.enqueued =
    l.tally.enqueued + UInt32.ofNat (offers.take (cap - l.queued)).length
  rejected : after.tally.rejected =
    l.tally.rejected + UInt32.ofNat (offers.drop (cap - l.queued)).length
  picture : after.status.picture = l.status.picture

namespace Took

theorem nil (l : Link cap) : l.Took [] l where
  waiting := by simp
  enqueued := by simp
  rejected := by simp
  picture := rfl

theorem nudge {l after : Link cap} {offers : List Batch} (took : l.nudge.1.Took offers after) :
    l.Took offers after := by
  obtain ⟨outbox, status⟩ := l.nudge_fst
  have waiting : l.nudge.1.waiting = l.waiting := congrArg (fun o => o.waiting.items) outbox
  have queued : l.nudge.1.queued = l.queued := congrArg Outbox.length outbox
  refine ⟨?_, ?_, ?_, ?_⟩
  · rw [took.waiting, waiting, queued]
  · rw [took.enqueued, queued]
    show l.nudge.1.status.enqueued + _ = _
    rw [status]
    rfl
  · rw [took.rejected, queued]
    show l.nudge.1.outbox.rejected + _ = _
    rw [outbox]
    rfl
  · rw [took.picture, status]

theorem offer {l after : Link cap} {b : Batch} {offers : List Batch}
    (took : (l.offer b).1.Took offers after) : l.Took (b :: offers) after := by
  by_cases room : l.queued < cap
  · obtain ⟨waiting, rejected, status⟩ := offer_of_room room b
    have queued : (l.offer b).1.queued = l.queued + 1 := by
      have length := congrArg List.length waiting
      rw [List.length_append, List.length_singleton] at length
      exact length
    -- one place less, and one batch less to place
    obtain ⟨free, left⟩ : ∃ free, cap - l.queued = free + 1 :=
      Nat.exists_eq_succ_of_ne_zero (by omega)
    have next : cap - (l.offer b).1.queued = free := by omega
    refine ⟨?_, ?_, ?_, ?_⟩
    · rw [took.waiting, waiting, next, left, List.take_succ_cons, List.append_assoc]
      rfl
    · rw [took.enqueued, next, left, List.take_succ_cons, List.length_cons]
      show (l.offer b).1.status.enqueued + _ = _
      rw [status, Nat.add_comm (List.length _), UInt32.ofNat_add, ← UInt32.add_assoc]
      rfl
    · rw [took.rejected, next, left, List.drop_succ_cons]
      show (l.offer b).1.outbox.rejected + _ = _
      rw [rejected]
      rfl
    · rw [took.picture, status]
      rfl
  · have full : cap ≤ l.queued := Nat.le_of_not_lt room
    have none : cap - l.queued = 0 := Nat.sub_eq_zero_of_le full
    rw [offer_of_full full] at took
    have same : Link.queued { l with
        outbox := { l.outbox with rejected := l.outbox.rejected + 1 } } = l.queued := rfl
    refine ⟨?_, ?_, ?_, took.picture⟩
    · rw [took.waiting, same, none]
      rfl
    · rw [took.enqueued, same, none]
      rfl
    · rw [took.rejected, same, none, List.drop_zero, List.drop_zero, List.length_cons,
        Nat.add_comm, UInt32.ofNat_add, ← UInt32.add_assoc]
      rfl

end Took

end Link

/-! ## Workers that have halted -/

/-- The operation neither boots a worker nor drops one. -/
def Op.isUse : Op ε → Bool
  | boot _ _ | drop _ => false
  | _ => true

/-- The batch that is offered. -/
def Op.offered? : Op ε → Option Batch
  | offer batch => some batch
  | _ => none

/-- The batches that are offered, in order. -/
def offers (ops : List (Op ε)) : List Batch := ops.filterMap Op.offered?

/-- The event reaches the crew: a request or a hint. -/
def Event.reachesCrew : Event → Bool
  | called _ | hinted _ => true
  | _ => false

/-- The crew is left alone. -/
abbrev Undisturbed (es : List Event) : Prop := Without Event.reachesCrew es

theorem Link.undisturbed_offer (l : Link cap) (b : Batch) : Undisturbed (l.offer b).2.2 :=
  l.without_offer b (fun _ => rfl) (fun _ => rfl) rfl

theorem Link.undisturbed_nudge (l : Link cap) : Undisturbed l.nudge.2.2 :=
  l.without_nudge (fun _ => rfl) rfl

namespace World

/-- The only worker of a link has halted. -/
structure Halted (w : World cap ε) (id : Nat) (worker : Worker) : Prop where
  there : ∃ crew, w.station? id = some ⟨worker, crew, none⟩
  phase : worker.phase = .fatal
  alone : ∀ other, other ≠ id → w.station? other = none

/-- What becomes of the link when a worker that has halted is all there is. -/
def fed (l : Link cap) : Op ε → Link cap
  | .offer batch => (l.offer batch).1
  | .nudge => l.nudge.1
  | _ => l

namespace Halted

variable {w : World cap ε} {id : Nat} {worker : Worker}

theorem of_link (halted : w.Halted id worker) (l : Link cap) :
    Halted { w with link := l } id worker :=
  ⟨halted.there, halted.phase, halted.alone⟩

variable [Crew ε]

/-- Whatever is done, a worker that has halted stays so, only the producer changes
anything on the link, and the crew is left alone. -/
theorem apply (halted : w.Halted id worker) {op : Op ε} (use : op.isUse = true) :
    (w.apply op).world.Halted id worker ∧ (w.apply op).world.link = fed w.link op ∧
      Undisturbed (events (w.apply op).entries) := by
  obtain ⟨crew, here⟩ := halted.there
  have still : w.Halted id worker ∧ w.link = w.link ∧ Undisturbed (events []) :=
    ⟨halted, rfl, without_nil⟩
  cases op with
  | boot _ _ | drop _ => cases use
  | offer batch =>
      refine ⟨halted.of_link _, rfl, ?_⟩
      show Undisturbed (events (entries .producer (w.link.offer batch).2.2))
      rw [events_entries]
      exact w.link.undisturbed_offer batch
  | nudge =>
      refine ⟨halted.of_link _, rfl, ?_⟩
      show Undisturbed (events (entries .producer w.link.nudge.2.2))
      rw [events_entries]
      exact w.link.undisturbed_nudge
  | launch other mode =>
      by_cases same : other = id
      · subst same
        rw [launch_of_fatal here rfl halted.phase]
        refine ⟨halted, rfl, ?_⟩
        rw [events_entries]
        cases mode <;> simp [Op.announced, Event.reachesCrew]
      · simp only [World.apply, halted.alone other same]
        exact still
  | poll other =>
      by_cases same : other = id
      · subst same
        simp only [World.apply, here]
        exact still
      · simp only [World.apply, halted.alone other same]
        exact still
  | cancel other =>
      by_cases same : other = id
      · subst same
        simp only [World.apply, here]
        exact still
      · simp only [World.apply, halted.alone other same]
        exact still
  | amend other change =>
      by_cases same : other = id
      · subst same
        simp only [World.apply, here]
        refine ⟨⟨⟨change crew, station?_place here _⟩, halted.phase, fun third differ => ?_⟩, rfl,
          without_nil⟩
        exact (station?_place_of_ne w (Ne.symm differ) _).trans (halted.alone third differ)
      · simp only [World.apply, halted.alone other same]
        exact still

/-- So it stays whatever is done after one another, and the link takes what is
offered. -/
theorem applyAll {later : List (Op ε)} (uses : ∀ op ∈ later, op.isUse = true) :
    ∀ {w : World cap ε}, w.Halted id worker →
      (w.applyAll later).1.Halted id worker ∧ Undisturbed (events (w.applyAll later).2) ∧
        w.link.Took (offers later) (w.applyAll later).1.link := by
  induction later with
  | nil => exact fun {w} halted => ⟨halted, without_nil, .nil w.link⟩
  | cons op rest ih =>
      intro w halted
      obtain ⟨first, link, undisturbed⟩ := halted.apply (uses op List.mem_cons_self)
      obtain ⟨last, more, took⟩ := ih (fun op there => uses op (List.mem_cons_of_mem _ there)) first
      refine ⟨last, ?_, ?_⟩
      · show Undisturbed (events ((w.apply op).entries ++ ((w.apply op).world.applyAll rest).2))
        rw [events_append]
        exact without_append.mpr ⟨undisturbed, more⟩
      · rw [link] at took
        show w.link.Took (offers (op :: rest)) ((w.apply op).world.applyAll rest).1.link
        cases op with
        | offer batch => exact took.offer
        | nudge => exact took.nudge
        | _ => exact took

/-- The replies of a worker that has halted. -/
theorem reply (halted : w.Halted id worker) {fault : Fault}
    (shown : w.link.status.fault = some fault) :
    (w.apply (.launch id .run)).reply = .progress (.halted fault) ∧
      (w.apply (.launch id .step)).reply = .progress (.stepped .fatal) := by
  obtain ⟨crew, here⟩ := halted.there
  rw [launch_of_fatal here rfl halted.phase, launch_of_fatal here rfl halted.phase]
  refine ⟨?_, rfl⟩
  show Reply.progress (.halted (w.link.status.fault.getD .unexpected)) = _
  rw [shown]
  rfl

end Halted

variable [Crew ε]

/-- In a history with one worker, a worker that is found in `fatal` has halted
for good. -/
theorem halted_of_fatal {ops : List (Op ε)} (alone : ops.countP Op.isBoot = 1) {id : Nat}
    {s : Station ε} (here : (after cap ops).station? id = some s)
    (halted : s.worker.phase = .fatal) : (after cap ops).Halted id s.worker := by
  have coherent : Coherent ((after cap ops).moment (journal cap ops)) :=
    coherent_after (Nat.le_of_eq alone)
  refine ⟨⟨s.crew, ?_⟩, halted, fun other differ => ?_⟩
  · cases held : s.held with
    | none => rw [here, ← held]
    | some pair =>
        -- a worker that waits is in the phase that it waits in
        obtain ⟨mode, suspension⟩ := pair
        obtain ⟨stands, _⟩ := coherent.housed.accounted.agree.here (posts_of_held here held)
        cases suspension with
        | call job _ _ =>
            have phase : s.worker.phase = job.phase := stands.1
            rw [halted] at phase
            cases job <;> cases phase
        | parked =>
            have phase : s.worker.phase = .idle := stands.1
            rw [halted] at phase
            cases phase
  · cases there : (after cap ops).station? other with
    | none => rfl
    | some t =>
        have first := coherent.sole.only (posts_of_station? here)
        have second := coherent.sole.only (posts_of_station? there)
        exact absurd (second.trans first.symm) differ

end World

/-! ## Histories -/

section Histories

variable [Crew ε]

/-- **A halt is final.** Once the only worker of a link has halted, the link
shows the fault of the failure that came last, which is that of a request to
start, sync, connect or publish, and the worker still holds a session exactly if
it was to publish. However it is stepped and run from then on, and whatever is
offered and posted: it stays where it is and makes no request and gives no hint,
a run replies at once that it has halted with this fault, and the outbox gives
nothing away. What is offered is appended while there is room, and all else is
turned away and counted. -/
theorem halted_for_good {ops : List (Op ε)} (alone : ops.countP Op.isBoot = 1) {id : Nat}
    {s : Station ε} (here : (World.after cap ops).station? id = some s)
    (halted : s.worker.phase = .fatal) :
    let world := World.after cap ops
    ∃ fault, lastFailure (own id (World.journal cap ops)) = some fault ∧
      world.link.status.fault = some fault ∧
      (s.worker.session.isSome = true ↔ fault = .publish) ∧
      ∀ later : List (Op ε), (∀ op ∈ later, op.isUse = true) →
        let after := (world.applyAll later).1
        (∃ crew, after.station? id = some ⟨s.worker, crew, none⟩) ∧
          after.link.status.fault = some fault ∧
          (after.apply (.launch id .run)).reply = .progress (.halted fault) ∧
          (after.apply (.launch id .step)).reply = .progress (.stepped .fatal) ∧
          Undisturbed (events (world.applyAll later).2) ∧
          world.link.Took (offers later) after.link ∧
          ∀ b, (after.apply (.offer b)).reply = .accepted (decide (after.link.queued < cap)) := by
  intro world
  have coherent : Coherent (world.moment (World.journal cap ops)) :=
    coherent_after (Nat.le_of_eq alone)
  have there := World.posts_of_station? here
  have only := coherent.sole.only there
  subst only
  obtain ⟨fault, shown⟩ := Option.isSome_iff_exists.mp ((coherent.candid_worker there).cause halted)
  have link : world.link.status.fault = some fault := shown
  have last : lastFailure (own 0 (World.journal cap ops)) = some fault :=
    coherent.fault.symm.trans link
  have kept := coherent.kept _ _ there halted
  refine ⟨fault, last, link, ?_, fun later uses => ?_⟩
  · rw [show (world.moment (World.journal cap ops)).link.status.fault = some fault from link]
      at kept
    exact kept.trans Option.some_inj
  · intro after
    obtain ⟨still, undisturbed, took⟩ :=
      World.Halted.applyAll uses (World.halted_of_fatal alone here halted)
    have same : after.link.status.fault = some fault :=
      (congrArg Picture.fault took.picture).trans link
    obtain ⟨run, step⟩ := still.reply same
    exact ⟨still.there, same, run, step, undisturbed, took,
      fun b => congrArg Reply.accepted (after.link.accepts_iff b)⟩

/-- A session is refused, the second batch cannot be published, and the third one
stays behind. Then there is room for two more. -/
theorem halted_for_good_publishing :
    let refused : Response := { answer := .failed ⟨.other, ""⟩ }
    let ops : List (Op Script) :=
      [.boot {} { connect := [refused], publish := [{}, refused] }, .offer (.tagged 1),
        .offer (.tagged 2), .offer (.tagged 3), .launch 0 .run]
    let later : List (Op Script) := [.offer (.tagged 4), .launch 0 .run, .nudge,
      .offer (.tagged 5), .offer (.tagged 6), .launch 0 .step]
    let world := World.after 3 ops
    let after := (world.applyAll later).1
    ops.countP Op.isBoot = 1 ∧
      (∃ s, world.station? 0 = some s ∧ s.worker.phase = .fatal ∧
        s.worker.session.isSome = true) ∧
      (after.apply (.launch 0 .run)).reply = .progress (.halted .publish) ∧
      after.link.waiting = [.tagged 3, .tagged 4, .tagged 5] ∧ after.link.tally.rejected = 1 := by
  intro refused ops later world after
  have alone : ops.countP Op.isBoot = 1 := by
    decide
  have dead : (world.station? 0).map (fun s => s.worker.phase) = some .fatal := by
    decide +kernel
  have left : world.link.waiting = [.tagged 3] ∧ world.link.tally.rejected = 0 ∧
      lastFailure (own 0 (World.journal 3 ops)) = some .publish := by
    decide +kernel
  obtain ⟨waiting, rejected, failure⟩ := left
  obtain ⟨s, here, halted⟩ := Option.map_eq_some_iff.mp dead
  obtain ⟨fault, last, _, session, final⟩ := halted_for_good alone here halted
  cases failure.symm.trans last
  obtain ⟨_, _, run, _, _, took, _⟩ := final later (by decide)
  have queued : world.link.queued = 1 := congrArg List.length waiting
  refine ⟨alone, ⟨s, here, halted, session.mpr rfl⟩, run, ?_, ?_⟩
  · rw [took.waiting, waiting, queued]
    rfl
  · rw [took.rejected, rejected, queued]
    rfl

end Histories

end StoreForward
