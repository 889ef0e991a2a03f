import StoreForward.Proofs.Patience
import StoreForward.Proofs.Reports
import StoreForward.Proofs.Stepwise

/-!
# Drains

A worker that is to publish takes one batch after another out of the outbox and calls its
crew once for each. The outbox may grow meanwhile, by what the crew puts into it and, while
the worker waits for an answer, by what others do. The drain goes on until the outbox is
found empty or a call fails; the batch of that call is gone, and all that is behind it stays
where it is.

What a drain has done so far is told by the events of its worker alone (`Draining`): one call
after the other, all of them successful but for one that is not answered yet, as many of them
as the worker has counted, and not a word about it so far. Every turn of the worker keeps
this or ends the drain in one of two ways (`DrainEnd`), whatever the link is like. So the
others can do as they please, as long as they leave this worker to itself. Which batches the
calls were for is a fact about the outbox, and needs that nobody else takes any out of it
(`SoleConsumer`).

## Main definitions

* `publications` — the traffic of batches that are published.
* `Draining`, `DrainEnd` — a drain under way, and at its end.
* `SoleConsumer` — one worker is the only one that publishes.
* `Op.spares` — the operation leaves a worker to itself.

## Main results

* `Draining.turn`, `Draining.leave` — a turn goes on with a drain or ends it.
* `World.frame` — what spares a worker leaves it as it was.
* `drain_law` — what becomes of a drain, whatever others do meanwhile.
-/

namespace StoreForward

variable {cap : Nat} {ε : Type}

/-! ## Traffic -/

/-- The requests and answers among some events, in order. -/
def traffic (es : List Event) : List Event := es.filter Event.isTraffic

/-- The traffic of batches that are published in a session, one call each. -/
def publications (session : Nat) (batches : List Batch) : List Event :=
  batches.flatMap fun b => [.called (.publish session b), .answered (.publish session b) .ok]

@[simp] theorem traffic_append (es fs : List Event) :
    traffic (es ++ fs) = traffic es ++ traffic fs :=
  List.filter_append es fs

theorem traffic_quiet {es : List Event} (quiet : Quiet es) : traffic es = [] :=
  List.filter_eq_nil_iff.mpr fun e there => Bool.eq_false_iff.mp (quiet e there)

/-- Batches are handed over in traffic only. -/
theorem handed_traffic (es : List Event) : handed (traffic es) = handed es := by
  unfold handed traffic
  rw [List.filterMap_filter]
  refine List.filterMap_congr fun e _ => ?_
  cases e <;> rfl

@[simp] theorem publications_append (session : Nat) (first second : List Batch) :
    publications session (first ++ second) =
      publications session first ++ publications session second :=
  List.flatMap_append

@[simp] theorem handed_publications (session : Nat) (batches : List Batch) :
    handed (publications session batches) = batches := by
  induction batches with
  | nil => rfl
  | cons b rest ih => exact congrArg (b :: ·) ih

/-! ## A drain under way -/

/-- What a worker has done in a step in which it is to publish in a session. It has made one
call after the other, all of them successful but for the one whose batch it has in hand; it
has counted the successes, and has written no summary of them. -/
structure Draining (session : Nat) (w : Worker) (p : Point) (es : List Event) : Prop where
  stands : w.At p
  publishing : w.phase = .publish
  held : w.session = some session
  fresh : p = .outset → delivered es = []
  counts : ∀ sent, p.drained? = some sent → sent.toNat = (delivered es).length
  calls : traffic es = publications session (delivered es) ++
    p.inHand.map fun b => .called (.publish session b)
  unreported : logged .info es = []

/-- How a drain ends, by the batches that there were for it, those that are left, and what the
worker has done. -/
inductive DrainEnd (session : Nat) (supply left : List Batch) (es : List Event) : Prop where
  /-- Everything has been published. -/
  | emptied (order : supply = delivered es) (none : left = [])
      (calls : traffic es = publications session (delivered es))
      (reported : logged .info es = [Level.info.record
        ("Published " ++ toString (delivered es).length ++ " batches")])
  /-- A call has failed. Its batch is gone, and those behind it are left. -/
  | failed (batch : Batch) (error : CallError) (order : supply = delivered es ++ batch :: left)
      (calls : traffic es = publications session (delivered es) ++
        [.called (.publish session batch), .answered (.publish session batch) (.failed error)])
      (unreported : logged .info es = [])
      (warned : Level.warn.record ("Publish failed after " ++ toString (delivered es).length ++
        " batches: " ++ error.text) ∈ logged .warn es)

/-- If not everything was published, what is behind the first of the rest is left. -/
theorem DrainEnd.left_eq {session : Nat} {supply left : List Batch} {es : List Event}
    (ends : DrainEnd session supply left es) {batch : Batch} {rest : List Batch}
    (more : supply = delivered es ++ batch :: rest) : left = rest := by
  cases ends with
  | emptied order =>
      have none := List.self_eq_append_right.mp (order.symm.trans more)
      cases none
  | failed _ _ order => exact (List.cons.inj (List.append_cancel_left (order.symm.trans more))).2

section Turns

variable {l l' : Link cap} {session : Nat} {w w' : Worker} {p q : Point} {past es : List Event}

theorem Link.Fed.uninformed (fed : l.Fed es l') : logged .info es = [] :=
  logged_silent (fed.without (fun _ _ => rfl) (fun _ => rfl) (fun _ => rfl) (fun _ => rfl))

theorem uninformed_arrival (st : Status) (source target : Phase) :
    logged .info (arrival st source target) = [] := by
  unfold arrival
  cases target <;> rfl

namespace Draining

/-- A drain begins when its step does. -/
theorem outset (publishing : w.phase = .publish) (held : w.session = some session) :
    Draining session w .outset [] where
  stands := trivial
  publishing
  held
  fresh _ := rfl
  counts _ other := by cases other
  calls := rfl
  unreported := rfl

/-- The worker is in no other phase. -/
theorem elsewhere (draining : Draining session w p past) {phase : Phase} (here : w.phase = phase)
    (other : phase ≠ .publish) : False :=
  other (here.symm.trans draining.publishing)

/-- What has been taken out of the outbox is published or in hand. -/
theorem handed_eq (draining : Draining session w p past) :
    handed past = delivered past ++ p.inHand := by
  rw [← handed_traffic, draining.calls, handed_append, handed_publications]
  congr 1
  generalize p.inHand = batches
  induction batches with
  | nil => rfl
  | cons b rest ih => exact congrArg (b :: ·) ih

/-- More events go on with a drain if they answer the call that is open, and leave open the
one whose batch is in hand then. -/
theorem extend (draining : Draining session w p past) (stands : w.At q) (inside : q ≠ .outset)
    (counts : ∀ sent, q.drained? = some sent →
      sent.toNat = (delivered past).length + (delivered es).length)
    (calls : (p.inHand.map fun b => .called (.publish session b)) ++ traffic es =
      publications session (delivered es) ++ q.inHand.map fun b => .called (.publish session b))
    (unreported : logged .info es = []) : Draining session w q (past ++ es) where
  stands
  publishing := draining.publishing
  held := draining.held
  fresh other := absurd other inside
  counts sent there := by
    rw [delivered_append, List.length_append]
    exact counts sent there
  calls := by
    rw [traffic_append, draining.calls, List.append_assoc, calls, delivered_append,
      publications_append, List.append_assoc]
  unreported := by
    rw [logged_append, draining.unreported, unreported]
    rfl

/-- A turn that does not end the step goes on with the drain. -/
theorem turn (draining : Draining session w p past) (turn : Turn l w p es l' w' q)
    (inside : q ≠ .outset) : Draining session w' q (past ++ es) ∧ w' = w := by
  have stands := turn.at_next draining.stands
  cases turn with
  | @call _ job _ offers _ _ _ _ calling fed next =>
      obtain ⟨polls, answer, rfl⟩ := next.resolve_left inside
      cases calling with
      | start here | sync here | connect here _ | close here _ | stop here =>
          exact (draining.elsewhere here Phase.noConfusion).elim
      | @publish owner sent batch _ _ =>
          cases Option.some.inj (draining.held.symm.trans draining.stands.2)
          have none : delivered (.called (.publish session batch) :: offers) = [] :=
            (delivered_quiet fed.quiet).2
          have asked : traffic (.called (.publish session batch) :: offers) =
              [.called (.publish session batch)] :=
            congrArg (List.cons (Event.called _)) (traffic_quiet fed.quiet)
          refine ⟨draining.extend stands inside (fun next there => ?_) ?_ fed.uninformed, rfl⟩
          · exact (draining.counts next there).trans
              (congrArg ((delivered past).length + List.length ·) none).symm
          · exact asked.trans (congrArg (publications session · ++ [_]) none).symm
  | opened here held =>
      cases Option.some.inj (draining.held.symm.trans held)
      -- the step begins here, so it has published nothing yet
      have none : delivered past = [] := draining.fresh rfl
      refine ⟨draining.extend stands inside (fun sent there => ?_) rfl rfl, rfl⟩
      cases there
      rw [none]
      rfl
  | @published owner batch sent room =>
      cases Option.some.inj (draining.held.symm.trans draining.stands.2)
      refine ⟨draining.extend stands inside (fun next there => ?_) rfl rfl, rfl⟩
      cases there
      rw [← draining.counts sent rfl]
      exact toNat_add_one_of_ne room
  | @wait job polls answer =>
      refine ⟨draining.extend stands inside (fun sent there => ?_) ?_ rfl, rfl⟩
      · exact draining.counts sent (by cases job <;> exact there)
      · cases job <;> rfl
  | park here _ => exact (draining.elsewhere here Phase.noConfusion).elim
  | rest _ => exact (draining.elsewhere draining.stands.1 Phase.noConfusion).elim
  | leave _ | overflown | refused _ _ | halted _ => exact absurd rfl inside

/-- A drain cannot be at the end of its count as long as there is room for it. -/
theorem uncounted {owner : Nat} {batch : Batch}
    (draining : Draining session w (.waiting (.call (.publish owner batch 0xffffffff) 0 .ok)) past)
    (few : (delivered (past ++ [.answered (.publish owner batch) .ok])).length < 4294967296) :
    False := by
  have full := draining.counts 0xffffffff rfl
  rw [delivered_append, List.length_append, ← full] at few
  exact Nat.lt_irrefl 4294967296 few

/-- The outbox is found empty. -/
theorem emptied {sent : UInt32} (draining : Draining session w (.draining session sent) past)
    {left : List Batch} (none : left = []) (st : Status) (target : Phase) :
    let es := past ++ ([.noticed (.drained sent)] ++ arrival st .publish target)
    DrainEnd session (handed es ++ left) left es := by
  subst none
  let notes := [.noticed (.drained sent)] ++ arrival st .publish target
  have silent : Quiet notes := without_append.mpr ⟨by simp [Event.isTraffic], quiet_arrival _ _ _⟩
  have same : delivered (past ++ notes) = delivered past := by
    rw [delivered_append, (delivered_quiet silent).2, List.append_nil]
  refine .emptied ?_ rfl ?_ ?_
  · rw [handed_append, draining.handed_eq, (delivered_quiet silent).1, same]
    simp only [List.append_nil]
    exact List.append_nil _
  · rw [same, traffic_append, traffic_quiet silent, List.append_nil, draining.calls]
    exact List.append_nil _
  · rw [same, ← draining.counts sent rfl, logged_append, draining.unreported, logged_append,
      uninformed_arrival]
    rfl

/-- The call for the batch in hand fails. -/
theorem failed {batch : Batch} {sent : UInt32} {polls : Nat} {answer : Answer}
    (draining : Draining session w
      (.waiting (.call (.publish session batch sent) polls answer)) past)
    (error : CallError) (left : List Batch) (st : Status) (target : Phase) :
    let es := past ++ ([.answered (.publish session batch) (.failed error),
      .noticed (.publishFailed sent error)] ++ arrival st .publish target)
    DrainEnd session (handed es ++ left) left es := by
  let notes := .noticed (.publishFailed sent error) :: arrival st .publish target
  let ending := .answered (.publish session batch) (.failed error) :: notes
  have silent : Quiet notes := without_cons.mpr ⟨rfl, quiet_arrival _ _ _⟩
  have same : delivered (past ++ ending) = delivered past := by
    rw [delivered_append]
    exact (congrArg (delivered past ++ ·) (delivered_quiet silent).2).trans (List.append_nil _)
  have taken : handed (past ++ ending) = delivered past ++ [batch] := by
    rw [handed_append, draining.handed_eq]
    exact (congrArg (delivered past ++ [batch] ++ ·) (delivered_quiet silent).1).trans
      (List.append_nil _)
  show DrainEnd session (handed (past ++ ending) ++ left) left (past ++ ending)
  refine .failed batch error ?_ ?_ ?_ ?_
  · rw [same, taken, List.append_assoc]
    rfl
  · rw [same, traffic_append, draining.calls, List.append_assoc]
    show _ ++ ([.called _] ++ .answered _ _ :: traffic notes) = _
    rw [traffic_quiet silent]
    rfl
  · rw [logged_append, draining.unreported]
    exact uninformed_arrival _ _ _
  · rw [same, ← draining.counts sent rfl, logged_append]
    exact List.mem_append_right _ List.mem_cons_self

/-- A turn that ends the step, and is no request, ends the drain, and what happens in it is
counted. -/
theorem leave (draining : Draining session w p past) (turn : Turn l w p es l' w' .outset)
    (uncalled : Uncalled es) (few : (delivered (past ++ es)).length < 4294967296) :
    w' = { w with phase := w'.phase } ∧
      DrainEnd session (handed (past ++ es) ++ l'.waiting) l'.waiting (past ++ es) ∧
      l'.tally = l.tally + tallied es := by
  have tally := turn.tally
  cases turn with
  | call _ _ _ => simp [Event.isCall] at uncalled
  | overflown => exact (draining.uncounted few).elim
  | refused here _ | halted here => exact (draining.elsewhere here Phase.noConfusion).elim
  | leave closing =>
      have phase := closing.phase_eq draining.stands
      cases closing with
      | started here | surveyed here | unheld here _ | skipped here _ | retried here =>
          exact (draining.elsewhere here Phase.noConfusion).elim
      | connected | woken _ => exact (draining.elsewhere phase Phase.noConfusion).elim
      | unopened _ free => cases free.symm.trans draining.held
      | succeeded job plain =>
          cases job with
          | publish _ _ _ => cases plain
          | _ => exact (draining.elsewhere phase Phase.noConfusion).elim
      | drained idle =>
          cases Option.some.inj (draining.held.symm.trans draining.stands.2)
          have empty : l.waiting = [] := List.isEmpty_iff.mp idle
          exact ⟨rfl, draining.emptied empty _ _, tally fun _ _ other => Point.noConfusion other⟩
      | failed job error =>
          cases job with
          | publish owner batch sent =>
              cases Option.some.inj (draining.held.symm.trans draining.stands.2)
              exact ⟨rfl, draining.failed error _ _ _, tally fun _ _ other => (by cases other)⟩
          | _ => exact (draining.elsewhere phase Phase.noConfusion).elim

end Draining

end Turns

/-! ## Polls -/

section Polls

variable {session : Nat} {mode : Mode} {p q : Point} {past es : List Event}

/-- The moves that a poll goes on from are counted. -/
theorem Site.Driven.tally [Crew ε] {s t : Site cap ε} (driven : s.Driven mode p es t q) :
    t.link.tally = s.link.tally + tallied es := by
  induction driven with
  | stay s p => exact (Tally.add_zero _).symm
  | @move s t p q es onward _ ih =>
      have first := (s.turn_move p).tally fun session batch full => by
        subst full
        cases onward
      rw [ih, first, tallied_append, Tally.add_assoc]

/-- The moves that a poll of the step goes on from go on with the drain. -/
theorem Site.Driven.drains [Crew ε] {s t : Site cap ε} (driven : s.Driven .step p es t q) :
    ∀ {past : List Event}, Draining session s.worker p past →
      Draining session t.worker q (past ++ es) ∧ t.worker = s.worker := by
  induction driven with
  | stay s p =>
      intro past draining
      rw [List.append_nil]
      exact ⟨draining, rfl⟩
  | @move s t p q es onward _ ih =>
      intro past draining
      obtain ⟨first, same⟩ := draining.turn (s.turn_move p) (Site.next_ne_outset onward)
      obtain ⟨last, same'⟩ := ih first
      rw [← List.append_assoc]
      exact ⟨last, same'.trans same⟩

/-- A poll of the step leaves the worker waiting for the answer to a call, or ends the drain,
unless that has lost count. What happens in it is counted. -/
theorem Draining.poll {s : Site cap Script} (draining : Draining session s.worker p past) :
    let o := s.poll .step p
    (∃ job polls answer, o.progress = .pending (.call job polls answer) ∧
      o.site.worker = s.worker ∧
      Draining session s.worker (.waiting (.call job polls answer)) (past ++ o.events) ∧
      o.site.link.tally = s.link.tally + tallied o.events) ∨
      (∀ suspension, o.progress ≠ .pending suspension) ∧
      ((delivered (past ++ o.events)).length < 4294967296 → ∃ phase, o.progress = .stepped phase ∧
        o.site.worker = { s.worker with phase } ∧
        DrainEnd session (handed (past ++ o.events) ++ o.site.link.waiting) o.site.link.waiting
          (past ++ o.events) ∧
        o.site.link.tally = s.link.tally + tallied o.events) := by
  intro o
  obtain ⟨es, t, q, progress, driven, poll, ends⟩ := s.poll_driven .step p
  obtain ⟨further, same⟩ := driven.drains draining
  have counted := driven.tally
  have turn := t.turn_move q
  have moved := t.moved q
  rw [show o = _ from poll]
  dsimp only
  rw [← List.append_assoc, tallied_append, ← Tally.add_assoc, ← counted, ← same]
  generalize t.move q = m at turn moved ends ⊢
  cases moved with
  | waits here =>
      cases ends
      subst here
      obtain ⟨waiting, _⟩ := further.turn turn Point.noConfusion
      exact .inl ⟨_, _, _, rfl, rfl, waiting, turn.tally fun _ _ other => (by cases other)⟩
  | rests here _ =>
      subst here
      exact (further.elsewhere further.stands.1 Phase.noConfusion).elim
  | finishes _ entered uncalled =>
      cases ends with
      | halted run _ => cases run
      | stepped _ =>
          refine .inr ⟨fun _ => Progress.noConfusion, fun few => ⟨_, rfl, ?_⟩⟩
          obtain ⟨worker, ended, tally⟩ := further.leave turn uncalled few
          rw [entered] at worker
          exact ⟨worker, ended, tally⟩
  | overflown here =>
      subst here
      cases ends
      obtain ⟨_, happened⟩ := turn.overflows
      rw [happened]
      exact .inr ⟨fun _ => Progress.noConfusion, fun few => (further.uncounted few).elim⟩
  | refused phase _ => exact (further.elsewhere phase Phase.noConfusion).elim
  | misused reaction => cases congrArg Prod.snd reaction
  | asked _ | drains _ | parks _ => cases ends

end Polls

/-! ## What others do -/

/-- The event is part of publishing a batch. -/
def Event.publishes : Event → Bool
  | called (.publish _ _) | answered (.publish _ _) _ => true
  | _ => false

/-- One worker is the only one that publishes. -/
def SoleConsumer (id : Nat) (journal : List Entry) : Prop :=
  ∀ entry ∈ journal, entry.event.publishes = true → entry.cause = .worker id

instance (id : Nat) (journal : List Entry) : Decidable (SoleConsumer id journal) :=
  inferInstanceAs (Decidable (∀ entry ∈ journal, _ → _))

theorem soleConsumer_append {id : Nat} {j k : List Entry} :
    SoleConsumer id (j ++ k) ↔ SoleConsumer id j ∧ SoleConsumer id k :=
  List.forall_mem_append

/-- Publishing is seen among the events of that worker. -/
theorem SoleConsumer.filterMap_own {α : Type} {id : Nat} {journal : List Entry}
    (sole : SoleConsumer id journal) {view : Event → Option α}
    (blind : ∀ e, e.publishes = false → view e = none) :
    (events journal).filterMap view = (own id journal).filterMap view := by
  unfold events own
  rw [List.filterMap_map, List.filterMap_filterMap]
  refine List.filterMap_congr fun entry there => ?_
  unfold Entry.own?
  split
  · rfl
  · next other =>
      exact blind _ (Bool.eq_false_iff.mpr fun publishes => other (sole entry there publishes))

theorem SoleConsumer.handed_own {id : Nat} {journal : List Entry}
    (sole : SoleConsumer id journal) : handed (events journal) = handed (own id journal) := by
  refine sole.filterMap_own fun e idle => ?_
  unfold Event.handed?
  split
  · cases idle
  · rfl

theorem SoleConsumer.delivered_own {id : Nat} {journal : List Entry}
    (sole : SoleConsumer id journal) :
    delivered (events journal) = delivered (own id journal) := by
  refine sole.filterMap_own fun e idle => ?_
  unfold Event.delivered?
  split
  · cases idle
  · rfl

/-- A worker that does nothing leaves the publishing to others. -/
theorem SoleConsumer.unpublished {id : Nat} {journal : List Entry}
    (sole : SoleConsumer id journal) (idle : own id journal = []) :
    Without Event.publishes (events journal) := by
  intro e there
  obtain ⟨entry, among, rfl⟩ := List.mem_map.mp there
  refine Bool.eq_false_iff.mpr fun publishes => ?_
  have mine := List.filterMap_eq_nil_iff.mp idle entry among
  rw [Entry.own?, if_pos (sole entry among publishes)] at mine
  cases mine

/-- From a link to a later one: batches have been waiting as in a queue, and if none was
published, the link has counted what happened. -/
structure Link.Booked (l : Link cap) (es : List Event) (l' : Link cap) : Prop where
  order : replay cap l.waiting es = some l'.waiting
  tally : Without Event.publishes es → l'.tally = l.tally + tallied es

theorem Link.Booked.refl (l : Link cap) : l.Booked [] l where
  order := rfl
  tally _ := (Tally.add_zero _).symm

theorem Link.Booked.trans {l l' l'' : Link cap} {es fs : List Event} (first : l.Booked es l')
    (second : l'.Booked fs l'') : l.Booked (es ++ fs) l'' where
  order := by rw [replay_append, first.order, Option.bind_some, second.order]
  tally unpublished := by
    obtain ⟨before, now⟩ := without_append.mp unpublished
    rw [second.tally now, first.tally before, tallied_append, Tally.add_assoc]

theorem Turn.booked {l l' : Link cap} {w w' : Worker} {p q : Point} {es : List Event}
    (turn : Turn l w p es l' w' q) : l.Booked es l' where
  order := replay_turn turn
  tally unpublished := by
    refine turn.tally fun session batch full => ?_
    -- where a drain loses count, it has just published a batch
    subst full
    obtain ⟨_, rfl⟩ := turn.overflows
    simp [Event.publishes] at unpublished

section Moments

variable {may : List (Option Post) → Prop} {m n : Moment cap}

theorem Moment.Next.booked (next : m.Next may n) :
    ∃ more, n.journal = m.journal ++ more ∧ m.link.Booked (events more) n.link := by
  cases next with
  | feed fed =>
      refine ⟨_, rfl, ?_⟩
      rw [events_entries]
      exact ⟨fed.replay, fun _ => fed.tally⟩
  | turn _ turn =>
      refine ⟨_, rfl, ?_⟩
      rw [events_entries]
      exact turn.booked
  | boot _ _ | announce _ => exact ⟨_, rfl, rfl, fun _ => (Tally.add_zero _).symm⟩
  | cancel _ | drop _ => exact ⟨[], (List.append_nil _).symm, .refl _⟩

theorem Moment.Leads.booked (path : m.Leads may n) :
    ∃ more, n.journal = m.journal ++ more ∧ m.link.Booked (events more) n.link := by
  induction path with
  | refl => exact ⟨[], (List.append_nil _).symm, .refl _⟩
  | tail _ next ih =>
      obtain ⟨past, grown, before⟩ := ih
      obtain ⟨more, grows, now⟩ := next.booked
      refine ⟨past ++ more, by rw [grows, grown, List.append_assoc], ?_⟩
      rw [events_append]
      exact before.trans now

end Moments

/-- If nobody but one worker has published since the counters were read, the link has counted
everything. -/
def Link.Counts (l : Link cap) (before : Tally) (id : Nat) (journal : List Entry) : Prop :=
  SoleConsumer id journal → l.tally = before + tallied (events journal)

theorem Link.Counts.append {l l' : Link cap} {before : Tally} {id : Nat} {past more : List Entry}
    (counts : l.Counts before id past)
    (now : SoleConsumer id more → l'.tally = l.tally + tallied (events more)) :
    l'.Counts before id (past ++ more) := by
  intro sole
  obtain ⟨earlier, later⟩ := soleConsumer_append.mp sole
  rw [now later, counts earlier, events_append, tallied_append, Tally.add_assoc]

/-- The operation leaves a worker to itself. -/
def Op.spares (id : Nat) : Op ε → Bool
  | launch other _ | poll other | cancel other | amend other _ | drop other => other != id
  | _ => true

namespace World

variable {w : World cap ε} {id : Nat} {s : Station ε} [Crew ε]

/-- **Frame rule.** What spares a worker leaves it as it was, and is none of its doing. -/
theorem frame {op : Op ε} (spares : op.spares id = true) (here : w.station? id = some s) :
    (w.apply op).world.station? id = some s ∧ own id (w.apply op).entries = [] := by
  have effect := w.effect op
  generalize w.apply op = o at effect ⊢
  cases effect with
  | offer _ | nudge => exact ⟨here, own_entries_producer id _⟩
  | boot settings crew =>
      -- a number that is given to a new worker was not in use
      obtain ⟨inside, _⟩ := List.getElem?_eq_some_iff.mp (Option.join_eq_some_iff.mp here)
      refine ⟨?_, own_entries_worker_of_ne (Nat.ne_of_lt inside) _⟩
      unfold station?
      dsimp only
      rw [List.getElem?_append_left inside]
      exact here
  | @polls _ other _ mode there polls =>
      have differ : other ≠ id := by
        cases polls <;> exact bne_iff_ne.mp spares
      rw [apply_polls there polls]
      exact ⟨(station?_place_of_ne _ differ _).trans here,
        own_entries_worker_of_ne (Ne.symm differ) _⟩
  | cancel _ _ | amend _ _ | drop _ =>
      exact ⟨(station?_place_of_ne w (bne_iff_ne.mp spares) _).trans here, rfl⟩
  | refused _ _ _ => exact ⟨here, rfl⟩

theorem frame_applyAll {ops : List (Op ε)} (spares : ∀ op ∈ ops, op.spares id = true) :
    ∀ {w : World cap ε}, w.station? id = some s →
      (w.applyAll ops).1.station? id = some s ∧ own id (w.applyAll ops).2 = [] := by
  induction ops with
  | nil => exact fun {w} here => ⟨here, rfl⟩
  | cons op rest ih =>
      intro w here
      obtain ⟨first, idle⟩ := frame (spares op List.mem_cons_self) here
      obtain ⟨last, more⟩ := ih (fun op there => spares op (List.mem_cons_of_mem _ there)) first
      refine ⟨last, ?_⟩
      show own id ((w.apply op).entries ++ ((w.apply op).world.applyAll rest).2) = []
      rw [own_append, idle]
      exact more

/-- Any operations are in order, and counted unless batches are published. -/
theorem booked (w : World cap ε) (ops : List (Op ε)) :
    w.link.Booked (events (w.applyAll ops).2) (w.applyAll ops).1.link := by
  obtain ⟨more, grown, booked⟩ := (leads _ ops w [] (boots_any ops w)).booked
  rw [show (w.applyAll ops).2 = more from grown]
  exact booked

end World

/-! ## Steps with others at work -/

/-- The worker with a number, which is to publish in a session, waits for the answer to a
call, or its drain has come to its end, unless that has lost count. -/
inductive Outcome.Drains (before : Tally) (session id : Nat) (worker : Worker)
    (o : Outcome cap Script) : Prop where
  | waits {job : Job} {polls : Nat} {answer : Answer} {crew : Script}
      (reply : o.reply = .progress (.pending (.call job polls answer)))
      (here : o.world.station? id = some ⟨worker, crew, some (.step, .call job polls answer)⟩)
      (draining : Draining session worker (.waiting (.call job polls answer)) (own id o.entries))
      (counts : o.world.link.Counts before id o.entries)
  | ended (reply : World.isPending o.reply = false)
      (drained : (delivered (own id o.entries)).length < 4294967296 → ∃ phase crew,
        o.reply = .progress (.stepped phase) ∧
        o.world.station? id = some ⟨{ worker with phase }, crew, none⟩ ∧
        DrainEnd session (handed (own id o.entries) ++ o.world.link.waiting)
          o.world.link.waiting (own id o.entries) ∧
        o.world.link.Counts before id o.entries)

/-- One step of a worker, with what others do whenever it is suspended. -/
def World.onceThrough (w : World cap Script) (id : Nat) (rounds : List (List (Op Script))) :
    Outcome cap Script :=
  (w.apply (.launch id .step)).through (fun v => v.apply (.poll id)) rounds

section Steps

variable {before : Tally} {session id : Nat} {worker : Worker}

/-- If the worker waits, it waits for its crew. -/
theorem Outcome.Drains.awaits {o : Outcome cap Script} (drains : o.Drains before session id worker)
    (waits : World.isPending o.reply = true) : o.reply.isAwaiting = true := by
  cases drains with
  | waits reply _ _ _ =>
      rw [reply]
      rfl
  | ended reply _ => cases waits.symm.trans reply

/-- To poll the worker leaves it waiting, or ends its drain. -/
theorem World.drains_polls {w : World cap Script} {s : Station Script} {op : Op Script}
    (here : w.station? id = some s) (polls : op.Polls id s .step) {earlier : List Entry}
    (draining : Draining session s.worker s.post.point (own id earlier))
    (counts : w.link.Counts before id earlier) :
    ((w.apply op).after earlier).Drains before session id s.worker := by
  let o := (w.site s).poll .step s.post.point
  have applied : w.apply op = w.absorb id .step o := by
    rw [apply_polls here polls, show op.announced = [] by cases polls <;> rfl]
    rfl
  have done : own id (earlier ++ (w.absorb id .step o).entries) = own id earlier ++ o.events := by
    rw [own_append]
    exact congrArg (own id earlier ++ ·) (own_entries_self id o.events)
  have tally (now : o.site.link.tally = w.link.tally + tallied o.events) :
      o.site.link.Counts before id (earlier ++ (w.absorb id .step o).entries) := by
    refine counts.append fun _ => now.trans ?_
    exact congrArg (w.link.tally + tallied ·) (events_entries (.worker id) o.events).symm
  obtain ⟨held, there, holds, free⟩ := station?_absorb here .step o
  rw [applied]
  rcases draining.poll (s := w.site s) with
    ⟨job, polls, answer, waits, same, further, now⟩ | ⟨ends, ended⟩
  · rw [same, holds _ waits] at there
    rw [← done] at further
    exact .waits (congrArg Reply.progress waits) there further (tally now)
  · rw [free ends] at there
    refine .ended ?_ fun few => ?_
    · show World.isPending (.progress o.progress) = false
      cases progress : o.progress with
      | pending suspension => exact absurd progress (ends suspension)
      | _ => rfl
    · change (delivered (own id (earlier ++ (w.absorb id .step o).entries))).length < _ at few
      rw [done] at few
      obtain ⟨phase, stepped, same, ends, now⟩ := ended few
      rw [same] at there
      rw [← done] at ends
      exact ⟨phase, _, congrArg Reply.progress stepped, there, ends, tally now⟩

/-- So it goes on from poll to poll, whatever others do before each of them, and comes to an
end if there are polls enough. -/
theorem Outcome.Drains.through {rounds : List (List (Op Script))}
    (spares : ∀ round ∈ rounds, ∀ op ∈ round, op.spares id = true) :
    ∀ {o : Outcome cap Script}, o.Drains before session id worker →
      let last := o.through (fun v => v.apply (.poll id)) rounds
      last.Drains before session id worker ∧
        ((World.isPending o.reply = true → o.world.delay id < rounds.length) →
          World.isPending last.reply = false) := by
  induction rounds with
  | nil =>
      intro o drains
      exact ⟨drains, fun patient =>
        Bool.eq_false_iff.mpr fun waits => Nat.not_lt_zero _ (patient waits)⟩
  | cons round rounds ih =>
      intro o drains
      unfold Outcome.through
      cases drains with
      | ended reply drained =>
          rw [if_neg (Bool.eq_false_iff.mp reply)]
          exact ⟨.ended reply drained, fun _ => reply⟩
      | @waits job polls answer crew reply here draining counts =>
          have waits : World.isPending o.reply = true := by
            rw [reply]
            rfl
          rw [if_pos waits]
          let v := (o.world.applyAll round).1
          let more := (o.world.applyAll round).2
          obtain ⟨there, idle⟩ := World.frame_applyAll (spares round List.mem_cons_self) here
          have further : Draining session worker (.waiting (.call job polls answer))
              (own id (o.entries ++ more)) := by
            rw [own_append, idle, List.append_nil]
            exact draining
          have counted : v.link.Counts before id (o.entries ++ more) :=
            counts.append fun now => (o.world.booked round).tally (now.unpublished idle)
          have next := World.drains_polls there (.again rfl) further counted
          obtain ⟨last, ends⟩ :=
            ih (fun round there => spares round (List.mem_cons_of_mem _ there)) next
          refine ⟨last, fun patient => ends fun again => ?_⟩
          -- others do not change how long the worker has to wait, and the poll does
          have left := patient waits
          rw [World.delay_of_station? here, ← World.delay_of_station? there] at left
          exact Nat.lt_of_lt_of_le (v.delay_apply_lt id (next.awaits again))
            (Nat.le_of_lt_succ left)

/-- What happens on the way is a history like any other. -/
theorem Outcome.through_history {w : World cap Script} (rounds : List (List (Op Script))) :
    ∀ {o : Outcome cap Script} {ops : List (Op Script)}, w.applyAll ops = (o.world, o.entries) →
      let last := o.through (fun v => v.apply (.poll id)) rounds
      ∃ all, w.applyAll all = (last.world, last.entries) := by
  induction rounds with
  | nil => exact fun {o ops} done => ⟨ops, done⟩
  | cons round rounds ih =>
      intro o ops done
      unfold Outcome.through
      split
      · let v := (o.world.applyAll round).1
        have longer : w.applyAll (ops ++ (round ++ [.poll id])) = ((v.apply (.poll id)).world,
            o.entries ++ (o.world.applyAll round).2 ++ (v.apply (.poll id)).entries) := by
          rw [World.applyAll_append, done, World.applyAll_append, ← List.append_assoc]
          exact congrArg (_, o.entries ++ (o.world.applyAll round).2 ++ ·) (List.append_nil _)
        exact ih longer
      · exact ⟨ops, done⟩

theorem World.replay_onceThrough (w : World cap Script) (id : Nat)
    (rounds : List (List (Op Script))) :
    let o := w.onceThrough id rounds
    replay cap w.link.waiting (events o.entries) = some o.world.link.waiting := by
  intro o
  have launched : w.applyAll [.launch id .step] =
      ((w.apply (.launch id .step)).world, (w.apply (.launch id .step)).entries) :=
    congrArg (_, ·) (List.append_nil _)
  obtain ⟨all, history⟩ : ∃ all, w.applyAll all = (o.world, o.entries) :=
    Outcome.through_history rounds launched
  have booked := w.booked all
  rw [history] at booked
  exact booked.order

/-- **The drain law.** A worker that is to publish and holds a session is stepped, whatever is
waiting and whatever its crew does, and while it has to wait others do what they like, as long
as they leave it to itself. If it is polled often enough, the step is completed. Once it is,
and if nobody else has published and no more batches have been published than a drain can
count, then of the batches that were waiting and those that were accepted meanwhile it has
published the first so many, in order and with one call each, until none was left or a call
failed. In the first case it has said how many there were; in the second it has said so too,
one more batch is gone, and those behind it are waiting in order. Either way the session is
still held, the crew was asked for nothing else, and the link has counted what was
published. -/
theorem drain_law {w : World cap Script} {id : Nat} {s : Station Script}
    (here : w.station? id = some s) (free : s.held = none)
    (publishing : s.worker.phase = .publish) {session : Nat}
    (held : s.worker.session = some session) {rounds : List (List (Op Script))}
    (spares : ∀ round ∈ rounds, ∀ op ∈ round, op.spares id = true) :
    let o := w.onceThrough id rounds
    let done := own id o.entries
    (s.crew.delay ≤ rounds.length → World.isPending o.reply = false) ∧
      (World.isPending o.reply = false → SoleConsumer id o.entries →
        (delivered done).length < 4294967296 →
        ∃ phase crew, o.reply = .progress (.stepped phase) ∧
          o.world.station? id = some ⟨{ s.worker with phase }, crew, none⟩ ∧
          DrainEnd session (w.link.waiting ++ accepted (events o.entries)) o.world.link.waiting
            done ∧
          o.world.link.tally.published =
            w.link.tally.published + UInt32.ofNat (delivered done).length) := by
  intro o done
  have draining : Draining session s.worker s.post.point (own id []) := by
    rw [Station.point_of_free free]
    exact .outset publishing held
  have first := World.drains_polls here (.fresh free) draining fun _ =>
    (Tally.add_zero w.link.tally).symm
  obtain ⟨drains, ends⟩ := Outcome.Drains.through spares first
  refine ⟨fun enough => ends fun waits => ?_, fun complete sole few => ?_⟩
  · have less := World.delay_polls_lt here (.fresh free) (first.awaits waits)
    rw [World.delay_of_station? here, Station.point_of_free free] at less
    exact Nat.lt_of_lt_of_le less enough
  · cases drains with
    | waits reply _ _ _ => cases (congrArg World.isPending reply).symm.trans complete
    | ended _ drained =>
        obtain ⟨phase, crew, reply, there, ends, counts⟩ := drained few
        have order : w.link.waiting ++ accepted (events o.entries) =
            handed done ++ o.world.link.waiting := by
          rw [← sole.handed_own]
          exact balance_of_replay (w.replay_onceThrough id rounds)
        rw [order]
        refine ⟨phase, crew, reply, there, ends, ?_⟩
        rw [← sole.delivered_own, length_delivered]
        exact congrArg Tally.published (counts sole)

/-- Two batches are waiting. With the first call a third comes from the crew, and while its
answer is waited for a fourth from the producer, and another worker is booted; the call for
the third fails, while the other worker starts its network and a fifth batch arrives. -/
theorem drain_law_cut_short :
    let failing : Response := { polls := 1, answer := .failed ⟨.other, ""⟩ }
    let crew : Script := { publish := [{ enqueues := [.tagged 3], polls := 1 }, {}, failing] }
    let world := World.after 3 [.boot { syncOnBoot := false } crew, .offer (.tagged 1),
      .offer (.tagged 2), .launch 0 .step, .launch 0 .step, .launch 0 .step, .launch 0 .step]
    let rounds : List (List (Op Script)) :=
      [[.offer (.tagged 4), .boot {} {}, .launch 1 .step],
        [.nudge, .launch 1 .step, .offer (.tagged 5)]]
    (∃ s, world.station? 0 = some s ∧ s.held = none ∧ s.worker.phase = .publish ∧
      s.worker.session = some 1 ∧ s.crew.delay = 2) ∧
      (∀ round ∈ rounds, ∀ op ∈ round, op.spares 0 = true) ∧
      SoleConsumer 0 (world.onceThrough 0 rounds).entries ∧
      delivered (own 0 (world.onceThrough 0 rounds).entries) = [.tagged 1, .tagged 2] ∧
      (∃ phase, (world.onceThrough 0 rounds).reply = .progress (.stepped phase)) ∧
      (world.onceThrough 0 rounds).world.link.waiting = [.tagged 4, .tagged 5] ∧
      (world.onceThrough 0 rounds).world.link.tally.published = 2 := by
  intro failing crew world rounds
  have spares : ∀ round ∈ rounds, ∀ op ∈ round, op.spares 0 = true := by
    decide
  have before : (world.station? 0).map (fun s => (s.held, s.worker.phase, s.worker.session,
      s.crew.delay)) = some (none, .publish, some 1, 2) ∧
      world.link.waiting = [.tagged 1, .tagged 2] ∧ world.link.tally.published = 0 := by
    decide +kernel
  have between : SoleConsumer 0 (world.onceThrough 0 rounds).entries ∧
      delivered (own 0 (world.onceThrough 0 rounds).entries) = [.tagged 1, .tagged 2] ∧
      accepted (events (world.onceThrough 0 rounds).entries) =
        [.tagged 3, .tagged 4, .tagged 5] := by
    decide +kernel
  obtain ⟨stands, waiting, zero⟩ := before
  obtain ⟨sole, published, accepts⟩ := between
  obtain ⟨s, here, facts⟩ := Option.map_eq_some_iff.mp stands
  simp only [Prod.mk.injEq] at facts
  obtain ⟨free, phase, held, delay⟩ := facts
  have law := drain_law here free phase held spares
  obtain ⟨target, _, reply, _, ends, count⟩ :=
    law.2 (law.1 (Nat.le_of_eq delay)) sole (by rw [published]; decide)
  have order : world.link.waiting ++ accepted (events (world.onceThrough 0 rounds).entries) =
      delivered (own 0 (world.onceThrough 0 rounds).entries) ++
        .tagged 3 :: [.tagged 4, .tagged 5] := by
    rw [waiting, accepts, published]
  rw [zero, published] at count
  exact ⟨⟨s, here, free, phase, held, delay⟩, spares, sole, published, ⟨target, reply⟩,
    ends.left_eq order, count⟩

end Steps

end StoreForward
