import StoreForward.Crew.Script
import StoreForward.Proofs.Tallies

/-!
# Where the batches are

Every batch that was accepted waits in the outbox or has been handed over, and
a publish call that was made has been answered, is suspended, or was cut off: its
worker abandoned the step or was dropped, or the crew objected to the call. The
journal does not say when a call is cut off, so here the operations are counted
and not only what they cause.

With the counters of the link (`Tallies`) this makes an equation that observers can
check, up to the width of the counters.

## Main definitions

* `World.suspended` — the publish calls that are suspended.
* `World.cutOff`, `World.cutOffs` — those that operations cut off.

## Main results

* `Turn.fates` — every turn keeps track of publish calls.
* `counters_count` — the counters, and where the batches are.
-/

namespace StoreForward

variable {cap : Nat} {ε : Type}

/-! ## Publish calls -/

/-- The event is the answer to a publish call. -/
def Event.isPublishAnswer : Event → Bool
  | answered (.publish _ _) _ => true
  | _ => false

/-- A publish call has failed. -/
def Event.isPublishFailure : Event → Bool
  | answered (.publish _ _) (.failed _) => true
  | _ => false

/-- A publish call is being waited for. -/
def Point.isPublishing : Point → Bool
  | .waiting (.call (.publish _ _ _) _ _) => true
  | _ => false

/-- An answered call has succeeded or failed. -/
theorem countP_isPublishAnswer (es : List Event) : es.countP Event.isPublishAnswer =
    (delivered es).length + es.countP Event.isPublishFailure := by
  rw [length_delivered]
  induction es with
  | nil => rfl
  | cons e es ih =>
      have first : (if e.isPublishAnswer then 1 else 0) =
          (if e.isDelivery then 1 else 0) + if e.isPublishFailure then 1 else 0 := by
        cases e with
        | answered request answer => cases request <;> cases answer <;> rfl
        | _ => rfl
      rw [List.countP_cons, List.countP_cons, List.countP_cons, ih, first]
      omega

/-- Without traffic no batch is handed over, and no publish call answered. -/
theorem untouched_of_quiet {es : List Event} (quiet : Quiet es) :
    es.countP Event.isHandover = 0 ∧ es.countP Event.isPublishAnswer = 0 := by
  constructor <;>
    · refine List.countP_eq_zero.mpr fun e there => ?_
      have silent := quiet e there
      cases e <;> first | exact Bool.false_ne_true | cases silent

section Turns

variable {l l' l₁ : Link cap} {w w' w₁ : Worker} {source : Phase} {p q : Point}
  {es : List Event}

/-- The end of an action answers the publish call that was waited for, if it was
one. -/
theorem Closing.fates (closing : Closing l w source p es l₁ w₁) :
    es.countP Event.isHandover = 0 ∧ p.isPublishing.toNat = es.countP Event.isPublishAnswer := by
  cases closing with
  | succeeded job plain =>
      obtain ⟨none, none'⟩ := untouched_of_quiet (quiet_success plain)
      rw [List.countP_cons, List.countP_cons, none, none']
      cases job <;> exact ⟨rfl, rfl⟩
  | failed job error => cases job <;> exact ⟨rfl, rfl⟩
  | connected => exact ⟨rfl, rfl⟩
  | _ => exact (untouched_of_quiet (by simp [Event.isTraffic])).imp id Eq.symm

/-- Every turn keeps track of publish calls: those that are made, or were being
waited for, are answered or still waited for, unless the turn ends at the outset of
a step. -/
theorem Turn.fates (turn : Turn l w p es l' w' q) :
    es.countP Event.isHandover + p.isPublishing.toNat =
      es.countP Event.isPublishAnswer + q.isPublishing.toNat +
        if q = .outset then es.countP Event.isHandover else 0 := by
  cases turn with
  | call calling fed next =>
      obtain ⟨none, none'⟩ := untouched_of_quiet fed.quiet
      rw [List.countP_append, List.countP_append, List.countP_cons, List.countP_cons, none, none']
      rcases next with rfl | ⟨polls, answer, rfl⟩ <;> cases calling <;> rfl
  | leave closing =>
      obtain ⟨none, track⟩ := closing.fates
      obtain ⟨none', none''⟩ := untouched_of_quiet (quiet_arrival _ _ _)
      rw [List.countP_append, List.countP_append, none, none', none'', track]
      simp [Point.isPublishing]
  | park _ _ =>
      have quiet : Quiet (.began .idle :: (discarding l.wakes.length ++ hinting w.lowPower true ++
          [.noticed .resting])) := by
        simp [Event.isTraffic]
      obtain ⟨none, none'⟩ := untouched_of_quiet quiet
      rw [none, none']
      rfl
  | @wait job _ _ => cases job <;> rfl
  | _ => rfl

end Turns

/-! ## Moves and drives -/

/-- A move ends with the crew's objection to a publish call. -/
def Move.objects (m : Move cap ε) : Bool :=
  match m.verdict, m.events.getLast? with
  | .violated (.crew _), some (.called (.publish _ _)) => true
  | _, _ => false

/-- The ways in which a check ends a move: the crew objects to a request that was
just made, or nothing was asked of it. -/
def Move.Checked (m : Move cap ε) : Prop :=
  ∀ violation, m.verdict = .violated violation →
    (Uncalled m.events ∧ ∀ text, violation ≠ .crew text) ∨
      ∃ notes request text, violation = .crew text ∧ m.events = notes ++ [.called request] ∧
        Uncalled notes

theorem unhanded_of_uncalled {es : List Event} (uncalled : Uncalled es) :
    es.countP Event.isHandover = 0 := by
  rw [← length_handed, handed_uncalled uncalled]
  rfl

/-- If a check ends a move, a batch was handed over in it exactly if the crew objects to
that. -/
theorem Move.Checked.objects_eq {m : Move cap ε} (checked : m.Checked) {violation : Violation}
    (verdict : m.verdict = .violated violation) :
    m.events.countP Event.isHandover = m.objects.toNat := by
  unfold objects
  rw [verdict]
  rcases checked violation verdict with
    ⟨uncalled, own⟩ | ⟨notes, request, text, rfl, events, uncalled⟩
  · rw [unhanded_of_uncalled uncalled]
    cases violation with
    | crew text => exact absurd rfl (own text)
    | _ => rfl
  · rw [events, List.countP_append, unhanded_of_uncalled uncalled, List.getLast?_concat]
    cases request <;> rfl

namespace Site

variable [Crew ε]

omit [Crew ε] in
theorem checked_finish (s : Site cap ε) (source : Phase) (notes : List Event) :
    (s.finish source notes).Checked := by
  intro violation verdict
  cases verdict

theorem checked_begin (s : Site cap ε) (job : Job) {notes : List Event}
    (uncalled : Uncalled notes) : (s.begin job notes).Checked := by
  intro violation verdict
  unfold begin at verdict ⊢
  cases reaction : Crew.react s.crew job.request with
  | mk crew result =>
      rw [reaction] at verdict
      cases result with
      | ok r => cases verdict
      | error text =>
          cases verdict
          exact .inr ⟨notes, job.request, text, rfl, rfl, uncalled⟩

theorem checked_act (s : Site cap ε) : s.act.Checked := by
  have silent (note : Notice) : Uncalled [.noticed note] := by
    simp [Event.isCall]
  unfold act
  split
  · exact s.checked_finish _ _
  · exact s.checked_begin _ (silent _)
  · exact checked_begin _ _ (silent _)
  · split
    · intro violation verdict
      cases verdict
      exact .inl ⟨without_nil, fun _ other => by cases other⟩
    · exact s.checked_begin _ without_nil
  · exact s.checked_finish _ _
  · split
    · exact checked_finish _ _ _
    · intro violation verdict
      cases verdict
  · split
    · exact s.checked_finish _ _
    · exact checked_begin _ _ without_nil
  · exact s.checked_begin _ without_nil
  · unfold settle
    dsimp only
    split
    · intro violation verdict
      cases verdict
    · exact checked_finish _ _ _
  · exact checked_finish _ _ _
  · intro violation verdict
    cases verdict

omit [Crew ε] in
/-- Of the answers only a success that a drain cannot count ends at a check. -/
theorem checked_receive (s : Site cap ε) (job : Job) (answer : Answer) :
    (s.receive job answer).Checked := by
  intro violation verdict
  cases job with
  | publish session batch sent =>
      cases answer with
      | failed error => cases verdict
      | ok =>
          left
          change (s.countPublished session batch sent).verdict = _ at verdict
          show Uncalled (.answered (.publish session batch) .ok ::
            (s.countPublished session batch sent).events) ∧ _
          unfold countPublished at verdict ⊢
          by_cases full : sent = 0xffffffff
          · rw [if_pos full] at verdict ⊢
            cases verdict
            exact ⟨by simp [Event.isCall], fun _ other => by cases other⟩
          · rw [if_neg full] at verdict
            cases verdict
  | _ => cases answer <;> cases verdict

/-- A check that ends a move is one of these. -/
theorem checked_move (s : Site cap ε) (p : Point) : (s.move p).Checked := by
  match p with
  | .outset =>
      intro violation verdict
      have opening : Uncalled s.opening := by
        unfold Site.opening
        split
        · exact without_nil
        · simp [Event.isCall]
      rcases s.checked_act violation verdict with
        ⟨uncalled, own⟩ | ⟨notes, request, text, rfl, ends, uncalled⟩
      · exact .inl ⟨without_append.mpr ⟨opening, uncalled⟩, own⟩
      · have said := without_append.mpr ⟨opening, uncalled⟩
        refine .inr ⟨s.opening ++ notes, request, text, rfl, ?_, said⟩
        show s.opening ++ s.act.events = _
        rw [ends, List.append_assoc]
  | .draining session sent =>
      show (s.drain session sent).Checked
      unfold drain
      split
      · exact s.checked_finish _ _
      · exact checked_begin _ _ without_nil
  | .waiting (.call job 0 answer) => exact s.checked_receive job answer
  | .waiting (.call job (polls + 1) answer) =>
      intro violation verdict
      cases verdict
  | .waiting .parked =>
      show s.listen.Checked
      unfold listen
      split
      · intro violation verdict
        cases verdict
      · exact checked_finish _ _ _

/-- Every move keeps track of publish calls, those included to which the crew
objects. -/
theorem fates_move (s : Site cap ε) (p : Point) :
    (s.move p).events.countP Event.isHandover + p.isPublishing.toNat =
      (s.move p).events.countP Event.isPublishAnswer +
        (s.move p).verdict.next.isPublishing.toNat + (s.move p).objects.toNat := by
  rw [(s.turn_move p).fates]
  congr 1
  have moved := s.moved p
  have checked := s.checked_move p
  generalize s.move p = m at moved checked ⊢
  cases moved with
  | finishes _ _ uncalled => exact unhanded_of_uncalled uncalled
  | misused _ | refused _ _ | overflown _ => exact checked.objects_eq rfl
  | _ => rfl

/-- A drive loses no publish call. -/
theorem Driven.fates {mode : Mode} {s t : Site cap ε} {p q : Point} {es : List Event}
    (driven : s.Driven mode p es t q) :
    es.countP Event.isHandover + p.isPublishing.toNat =
      es.countP Event.isPublishAnswer + q.isPublishing.toNat := by
  induction driven with
  | stay s p => simp
  | @move s t p q es onward _ ih =>
      have first := s.fates_move p
      have none : (s.move p).objects = false := by
        unfold Move.objects
        cases verdict : (s.move p).verdict with
        | violated _ =>
            rw [verdict] at onward
            cases onward
        | _ => rfl
      rw [none] at first
      rw [List.countP_append, List.countP_append]
      change _ = _ + _ + 0 at first
      omega

end Site

/-! ## Operations -/

/-- A poll ends with the crew's objection to a publish call. -/
def Outcome.objects (o : Outcome cap ε) : Bool :=
  match o.reply, o.entries.getLast? with
  | .progress (.violated (.crew _)), some ⟨_, .called (.publish _ _)⟩ => true
  | _, _ => false

/-- Who says nothing objects to nothing. -/
theorem Outcome.objects_of_silent (w : World cap ε) (reply : Reply) :
    Outcome.objects ⟨w, reply, []⟩ = false := by
  unfold objects
  split
  · next last => cases last
  · rfl

/-- To put something in a place changes a count by what is put there and by what was
there before. -/
theorem countP_set_add {α : Type} (kind : α → Bool) {a : α} (b : α) :
    ∀ {as : List α} {i : Nat}, as[i]? = some a →
      (as.set i b).countP kind + (kind a).toNat = as.countP kind + (kind b).toNat := by
  intro as
  induction as with
  | nil => exact fun {i} there => by cases there
  | cons c as ih =>
      intro i there
      cases i with
      | zero =>
          cases there
          rw [List.set_cons_zero, List.countP_cons, List.countP_cons]
          cases kind a <;> cases kind b <;> simp
      | succ i =>
          have rest := ih (i := i) there
          rw [List.set_cons_succ, List.countP_cons, List.countP_cons]
          omega

/-- The worker in a place waits for a publish call. -/
def Post.isPublishing (place : Option Post) : Bool := place.any (·.point.isPublishing)

namespace World

/-- The publish calls that are suspended. -/
def suspended (w : World cap ε) : Nat := w.posts.countP Post.isPublishing

theorem suspended_place {w : World cap ε} {id : Nat} {place : Option (Station ε)}
    (here : w.stations[id]? = some place) (s : Option (Station ε)) :
    (w.place id s).suspended + (Post.isPublishing (place.map Station.post)).toNat =
      w.suspended + (Post.isPublishing (s.map Station.post)).toNat := by
  unfold suspended
  rw [posts_place]
  refine countP_set_add Post.isPublishing _ ?_
  rw [posts, List.getElem?_map, here]
  rfl

variable [Crew ε]

/-- The publish calls that an operation cuts off: that of a worker that abandons its
step or is dropped, or one to which the crew objects. -/
def cutOff (w : World cap ε) : Op ε → Nat
  | .cancel id | .drop id => (Post.isPublishing ((w.station? id).map Station.post)).toNat
  | op => (w.apply op).objects.toNat

/-- The publish calls that operations cut off one after another. -/
def cutOffs : World cap ε → List (Op ε) → Nat
  | _, [] => 0
  | w, op :: rest => w.cutOff op + cutOffs (w.apply op).world rest

/-- An operation that tears nobody from a step cuts off only what a crew objects to. -/
theorem cutOff_eq_objects (w : World cap ε) {op : Op ε} (other : op.abandoned? = none) :
    w.cutOff op = (w.apply op).objects.toNat := by
  cases op <;> first | rfl | cases other

/-- Nothing is cut off by tearing away a worker that is in no step. -/
theorem cutOff_of_free {w : World cap ε} {op : Op ε} {id : Nat} (torn : op.abandoned? = some id)
    (free : ∀ s, w.station? id = some s → s.held = none) : w.cutOff op = 0 := by
  have none : Post.isPublishing ((w.station? id).map Station.post) = false := by
    cases here : w.station? id with
    | none => rfl
    | some s =>
        show s.post.point.isPublishing = false
        rw [Station.point_of_free (free s here)]
        rfl
  cases op with
  | cancel _ | drop _ =>
      cases torn
      exact congrArg Bool.toNat none
  | _ => cases torn

omit [Crew ε] in
/-- What a poll ends with is what its last move ends with. -/
theorem objects_absorb (w : World cap ε) (id : Nat) (mode : Mode) {m : Move cap ε}
    (checked : m.Checked) {progress : Progress} (ends : Ends mode m.site m.verdict progress)
    (before : List Event) :
    (w.absorb id mode ⟨m.site, before ++ m.events, progress⟩).objects = m.objects := by
  unfold Outcome.objects Move.objects
  rw [entries_absorb]
  generalize verdict : m.verdict = v at ends
  cases ends with
  | @violated violation =>
      rcases checked _ verdict with ⟨_, own⟩ | ⟨notes, request, text, rfl, events, _⟩
      · cases violation with
        | crew text => exact absurd rfl (own text)
        | _ => rfl
      · have last : (entries (.worker id) (before ++ m.events)).getLast? =
            some ⟨.worker id, .called request⟩ := by
          rw [events, ← List.append_assoc, entries_append]
          exact List.getLast?_concat
        dsimp only
        rw [last, events, List.getLast?_concat]
        cases request <;> rfl
  | _ => rfl

/-- Every poll keeps track of publish calls. -/
theorem fates_polls {w : World cap ε} {op : Op ε} {id : Nat} {s : Station ε} {mode : Mode}
    (here : w.station? id = some s) (polls : op.Polls id s mode) :
    (events (w.apply op).entries).countP Event.isHandover + w.suspended =
      (events (w.apply op).entries).countP Event.isPublishAnswer +
        (w.apply op).world.suspended + (w.apply op).objects.toNat := by
  obtain ⟨es, t, q, progress, driven, applied, ends⟩ := apply_driven here polls
  have drive := driven.fates
  have last := t.fates_move q
  obtain ⟨none, none'⟩ := untouched_of_quiet (quiet_of_asides op.asides_announced)
  -- where the worker stood, and where the last move leaves it
  have moved : (w.apply op).world.suspended + s.post.point.isPublishing.toNat =
      w.suspended + (t.move q).verdict.next.isPublishing.toNat := by
    have posts := congrArg Moment.posts (w.moment_absorb id mode
      ⟨(t.move q).site, op.announced ++ (es ++ (t.move q).events), progress⟩ [])
    rw [← applied] at posts
    change (w.apply op).world.posts = _ at posts
    unfold suspended
    rw [posts, ← ends.next_eq]
    exact countP_set_add Post.isPublishing _ (posts_of_station? here)
  have objects : (w.apply op).objects = (t.move q).objects := by
    rw [applied, ← List.append_assoc]
    exact w.objects_absorb id mode (t.checked_move q) ends _
  rw [objects, applied, entries_absorb, events_entries]
  rw [applied] at moved
  dsimp only at moved ⊢
  rw [List.countP_append, List.countP_append, List.countP_append, List.countP_append, none, none']
  omega

omit [Crew ε] in
/-- Without traffic publish calls are only cut off. -/
theorem fates_quiet {w w' : World cap ε} {es : List Event} {cut : Nat} (quiet : Quiet es)
    (left : w'.suspended + cut = w.suspended) :
    es.countP Event.isHandover + w.suspended =
      es.countP Event.isPublishAnswer + w'.suspended + cut := by
  obtain ⟨none, none'⟩ := untouched_of_quiet quiet
  omega

omit [Crew ε] in
/-- A place that is changed gives up the publish call that was suspended there, if
none is there afterwards. -/
theorem suspended_vacated {w : World cap ε} {id : Nat} {place s : Option (Station ε)}
    (here : w.stations[id]? = some place)
    (vacant : Post.isPublishing (s.map Station.post) = false) :
    (w.place id s).suspended + (Post.isPublishing (place.map Station.post)).toNat =
      w.suspended := by
  rw [suspended_place here, vacant]
  rfl

/-- **Publish calls are accounted for.** Those that an operation makes, or that were
suspended before it, are answered, still suspended, or cut off by it. -/
theorem fates_apply (w : World cap ε) (op : Op ε) :
    (events (w.apply op).entries).countP Event.isHandover + w.suspended =
      (events (w.apply op).entries).countP Event.isPublishAnswer +
        (w.apply op).world.suspended + w.cutOff op := by
  have effect := w.effect op
  have objects : op.abandoned? = none → w.cutOff op = _ := w.cutOff_eq_objects
  generalize w.apply op = o at effect objects ⊢
  cases effect with
  | offer batch =>
      refine fates_quiet ?_ rfl
      rw [events_entries]
      exact (w.link.fed_offer batch).quiet
  | nudge =>
      refine fates_quiet ?_ rfl
      rw [events_entries]
      exact w.link.fed_nudge.quiet
  | boot settings crew =>
      refine fates_quiet (without_cons.mpr ⟨rfl, without_nil⟩) ?_
      unfold suspended posts
      rw [List.map_append, List.countP_append]
      rfl
  | polls here polls =>
      rw [objects (by cases polls <;> rfl)]
      exact fates_polls here polls
  | @cancel id s _ here _ =>
      refine fates_quiet without_nil ?_
      simp only [cutOff, here]
      exact suspended_vacated (Option.join_eq_some_iff.mp here) rfl
  | @amend id s here change =>
      have same := suspended_place (Option.join_eq_some_iff.mp here)
        (some { s with crew := change s.crew })
      rw [objects rfl]
      exact fates_quiet without_nil (Nat.add_right_cancel same)
  | @drop id place there =>
      refine fates_quiet without_nil ?_
      simp only [cutOff, station?, there]
      exact suspended_vacated there rfl
  | @refused _ reply _ _ free =>
      have none : w.cutOff op = 0 := by
        cases torn : op.abandoned? with
        | none => rw [objects torn, Outcome.objects_of_silent]; rfl
        | some id => exact cutOff_of_free torn (free id torn)
      rw [none]
      exact fates_quiet without_nil rfl

/-- So are those of operations one after another. -/
theorem fates_applyAll (ops : List (Op ε)) : ∀ w : World cap ε,
    (events (w.applyAll ops).2).countP Event.isHandover + w.suspended =
      (events (w.applyAll ops).2).countP Event.isPublishAnswer +
        (w.applyAll ops).1.suspended + w.cutOffs ops := by
  induction ops with
  | nil => exact fun w => fates_quiet without_nil rfl
  | cons op rest ih =>
      intro w
      have first := w.fates_apply op
      have more := ih (w.apply op).world
      show (events ((w.apply op).entries ++ ((w.apply op).world.applyAll rest).2)).countP _ + _ =
        (events ((w.apply op).entries ++ ((w.apply op).world.applyAll rest).2)).countP _ +
          ((w.apply op).world.applyAll rest).1.suspended +
          (w.cutOff op + (w.apply op).world.cutOffs rest)
      rw [events_append, List.countP_append, List.countP_append]
      omega

end World

/-! ## Histories -/

section Histories

variable [Crew ε]

/-- **Counters count.** Whatever any number of workers on a link do, and however they
are interrupted, if no step publishes more batches than a drain can count the link
counts every batch that is accepted, turned away or published, every retry, every
failure to tear down, and every time that low power is allowed. So what was accepted
and has not been published is waiting, or belongs to a publish call that failed, was
cut off, or is suspended; and the counters say so, up to their width. -/
theorem counters_count {ops : List (Op ε)} (measured : Measured (World.journal cap ops)) :
    let journal := events (World.journal cap ops)
    let world := World.after cap ops
    let unpublished := world.link.queued + (journal.countP Event.isPublishFailure +
      (World.empty : World cap ε).cutOffs ops + world.suspended)
    world.link.tally = tallied journal ∧
      (accepted journal).length = (delivered journal).length + unpublished ∧
      world.link.tally.enqueued = world.link.tally.published + .ofNat unpublished := by
  intro journal world unpublished
  have counted : world.link.tally = tallied journal := tally_after measured
  have balance : accepted journal = handed journal ++ world.link.waiting :=
    balance_of_replay (replay_journal ops)
  have fates : journal.countP Event.isHandover + 0 = journal.countP Event.isPublishAnswer +
      world.suspended + (World.empty : World cap ε).cutOffs ops :=
    World.fates_applyAll ops World.empty
  have whole : (accepted journal).length = (delivered journal).length + unpublished := by
    have answers := countP_isPublishAnswer journal
    have queued : world.link.waiting.length = world.link.queued := rfl
    rw [balance, List.length_append, length_handed, queued]
    omega
  refine ⟨counted, whole, ?_⟩
  rw [counted]
  show UInt32.ofNat (journal.countP Event.isAcceptance) =
    UInt32.ofNat (journal.countP Event.isDelivery) + UInt32.ofNat unpublished
  rw [← length_accepted, ← length_delivered, whole, UInt32.ofNat_add]

/-- One batch finds no room, a session is refused once, the second publish call is
abandoned, the session cannot be closed, and the rest that follows ends with a batch
whose publish call is suspended. -/
theorem counters_count_abandoned :
    let refused : Response := { answer := .failed ⟨.other, ""⟩ }
    let ops : List (Op Script) :=
      [.boot {} { connect := [refused], publish := [{}, { polls := 1 }, {}, { polls := 1 }]
                  close := [refused] },
        .offer (.tagged 1), .offer (.tagged 2), .offer (.tagged 3), .launch 0 .run, .cancel 0,
        .offer (.tagged 4), .launch 0 .run, .offer (.tagged 5), .poll 0, .offer (.tagged 6)]
    let world := World.after 2 ops
    Measured (World.journal 2 ops) ∧ world.link.tally.toList = [5, 1, 2, 1, 1, 1] ∧
      (World.empty : World 2 Script).cutOffs ops = 1 ∧ world.suspended = 1 ∧
      world.link.queued = 1 := by
  intro refused ops world
  have measured : Measured (World.journal 2 ops) := by
    refine .of_length ?_
    decide +kernel
  have happened : (tallied (events (World.journal 2 ops))).toList = [5, 1, 2, 1, 1, 1] ∧
      (delivered (events (World.journal 2 ops))).length = 2 ∧
      (accepted (events (World.journal 2 ops))).length = 5 ∧
      (events (World.journal 2 ops)).countP Event.isPublishFailure = 0 ∧
      (World.empty : World 2 Script).cutOffs ops = 1 ∧ world.suspended = 1 := by
    decide +kernel
  obtain ⟨tally, published, enqueued, failed, cut, suspended⟩ := happened
  obtain ⟨counted, whole, _⟩ := counters_count measured
  refine ⟨measured, (congrArg Tally.toList counted).trans tally, cut, suspended, ?_⟩
  rw [published, enqueued, failed, cut] at whole
  change 5 = 2 + (world.link.queued + (0 + 1 + world.suspended)) at whole
  omega

end Histories

end StoreForward
