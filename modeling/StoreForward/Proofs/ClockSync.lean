import StoreForward.Crew.Script
import StoreForward.Proofs.Concern
import StoreForward.Proofs.Conservation

/-!
# Asking for the time

The clock is to be synchronised once after a worker has booted. What a worker
remembers of that is in two places. `syncDue` is cleared *before* the clock is asked, so
that nothing leads to `syncTime` again; the phase is left *after* the answer. A worker
that abandons the step in between stands at the outset of `syncTime` with nothing left
to synchronise, and its next step asks the clock all the same.

So the clock answers once at most, and after that it is left alone (`Clockwork`). But
it is asked until it answers: once, and once more for every call that was given up
(`Asking`), which the journal does not show and which is counted with the operations
here, as with publish calls in `Conservation`.

## Main definitions

* `Worker.Settled` — a worker that is not going to ask for the time.
* `Clockwork` — what the calls and answers so far say of a worker.
* `Asking` — how often the clock has been asked, and how often in vain.
* `World.forsakes`, `World.forsaken` — calls for the time that operations give up.

## Main results

* `clock_asked_until_answered` — one answer at most, and one call more than are given
  up.
* `World.asks_again` — a worker that abandons the call makes it again.
-/

namespace StoreForward

variable {cap : Nat} {ε : Type}

/-! ## Calls and answers -/

/-- The clock is asked. -/
def Event.isSyncCall : Event → Bool
  | called .sync => true
  | _ => false

/-- The clock has answered, or failed to. -/
def Event.isSyncAnswer : Event → Bool
  | answered .sync _ => true
  | _ => false

/-- The event is part of the traffic with the clock. -/
def Event.isSync : Event → Bool
  | called .sync | answered .sync _ => true
  | _ => false

theorem Event.isSync_of_call {e : Event} (call : e.isSyncCall = true) : e.isSync = true := by
  unfold isSyncCall at call
  split at call
  · rfl
  · cases call

theorem Event.isSync_of_answer {e : Event} (answer : e.isSyncAnswer = true) :
    e.isSync = true := by
  unfold isSyncAnswer at answer
  split at answer
  · rfl
  · cases answer

/-- The clock is waited for. -/
def Point.isAsking : Point → Bool
  | .waiting (.call .sync _ _) => true
  | _ => false

/-- Nothing passes between a worker and the clock. -/
abbrev Unclocked (es : List Event) : Prop := Without Event.isSync es

theorem unclocked_of_quiet {es : List Event} (quiet : Quiet es) : Unclocked es := by
  refine quiet.weaken fun e silent => ?_
  cases e <;> first | rfl | cases silent

theorem unanswered_of_unclocked {es : List Event} (silent : Unclocked es) :
    Without Event.isSyncAnswer es := by
  refine silent.weaken fun e other => Bool.eq_false_iff.mpr fun answer => ?_
  cases other.symm.trans (Event.isSync_of_answer answer)

/-! ## What a turn has to do with the clock -/

/-- Nothing leads to `syncTime` once the synchronisation is not due. -/
theorem Phase.syncDue_of_next {source : Phase} {g : Guards} :
    source.next g = .syncTime → g.syncDue = true := by
  revert g
  cases source <;> (apply Guards.of_flags; decide)

/-- The ways in which a turn can have to do with the clock: not at all, asking it, or
hearing from it. -/
inductive Timed (w : Worker) (p : Point) (w' : Worker) (q : Point) : List Event → Prop where
  | apart {es : List Event} (silent : Unclocked es) (due : w'.syncDue = w.syncDue)
      (leads : w'.phase = .syncTime →
        w.syncDue = true ∨ w.phase = .syncTime ∧ q ≠ .outset) :
      Timed w p w' q es
  | asks {notes asides : List Event} (before : Unclocked notes) (after : Unclocked asides)
      (here : w.phase = .syncTime) (outset : p = .outset) (done : w'.syncDue = false) :
      Timed w p w' q (notes ++ .called .sync :: asides)
  | hears {answer : Answer} {notes : List Event} (after : Unclocked notes)
      (here : w.phase = .syncTime) (done : w'.syncDue = false) (left : w'.phase ≠ .syncTime) :
      Timed w p w' q (.answered .sync answer :: notes)

section Turns

variable {l l' l₁ : Link cap} {w w' w₁ : Worker} {source : Phase} {p q : Point}
  {es : List Event}

/-- The end of an action does not touch what is due. -/
theorem Closing.syncDue_eq (closing : Closing l w source p es l₁ w₁) :
    w₁.syncDue = w.syncDue := by
  cases closing <;> rfl

/-- Only in `syncTime` is the end of an action an answer of the clock. -/
theorem Closing.unclocked (closing : Closing l w source p es l₁ w₁)
    (elsewhere : source ≠ .syncTime) : Unclocked es := by
  have other {job : Job} (phase : job.phase ≠ .syncTime) (answer : Answer) :
      Event.isSync (.answered job.request answer) = false := by
    cases job <;> first | rfl | exact absurd rfl phase
  cases closing with
  | succeeded job plain =>
      exact without_cons.mpr ⟨other elsewhere _, unclocked_of_quiet (quiet_success plain)⟩
  | failed job error => exact without_cons.mpr ⟨other elsewhere _, by simp [Event.isSync]⟩
  | connected => simp [Event.isSync]
  | _ => exact unclocked_of_quiet (by simp [Event.isTraffic])

/-- In `syncTime` it is one. -/
theorem Closing.hears (closing : Closing l w source p es l₁ w₁) (here : source = .syncTime) :
    ∃ polls answer notes, p = .waiting (.call .sync polls answer) ∧
      es = .answered .sync answer :: notes ∧ Unclocked notes := by
  cases closing with
  | succeeded job plain =>
      cases job <;> cases here
      exact ⟨0, .ok, _, rfl, rfl, unclocked_of_quiet (quiet_success plain)⟩
  | failed job error =>
      cases job <;> cases here
      exact ⟨0, .failed error, _, rfl, rfl, unclocked_of_quiet (by simp [Event.isTraffic])⟩
  | _ => cases here

/-- A call for anything but the time. -/
theorem Calling.unclocked {job : Job} (calling : Calling l w p job es l₁ w₁)
    (other : job ≠ .sync) : Unclocked (es ++ [.called job.request]) ∧
      w₁.syncDue = w.syncDue ∧ w₁.phase = w.phase := by
  cases calling with
  | sync _ => exact absurd rfl other
  | _ => exact ⟨by simp [Event.isSync, Job.request], rfl, rfl⟩

/-- Every turn is one of these. -/
theorem Turn.timed (turn : Turn l w p es l' w' q) (stands : w.At p) : Timed w p w' q es := by
  cases turn with
  | @call p job es offers l₁ l₂ w₁ q calling fed next =>
      by_cases clock : job = .sync
      · subst clock
        cases calling with
        | sync here =>
            exact .asks (by simp [Event.isSync]) (unclocked_of_quiet fed.quiet) here rfl rfl
      · obtain ⟨silent, due, phase⟩ := calling.unclocked clock
        have whole : Unclocked (es ++ .called job.request :: offers) := by
          rw [← List.singleton_append, ← List.append_assoc]
          exact without_append.mpr ⟨silent, unclocked_of_quiet fed.quiet⟩
        refine .apart whole due fun syncs => ?_
        have own := (calling.held stands).1.symm.trans syncs
        cases job <;> first | exact absurd rfl clock | cases own
  | @leave source p es l₁ w₁ closing =>
      by_cases here : source = .syncTime
      · obtain ⟨polls, answer, notes, rfl, rfl, silent⟩ := closing.hears here
        have phase := (closing.phase_eq stands).trans here
        have done : w₁.syncDue = false := closing.syncDue_eq.trans stands.2
        refine .hears (without_append.mpr ⟨silent, unclocked_of_quiet (quiet_arrival _ _ _)⟩)
          phase done fun again => ?_
        cases done.symm.trans (Phase.syncDue_of_next again)
      · refine .apart (without_append.mpr
          ⟨closing.unclocked here, unclocked_of_quiet (quiet_arrival _ _ _)⟩) closing.syncDue_eq ?_
        intro leads
        rw [← closing.syncDue_eq]
        exact .inl (Phase.syncDue_of_next leads)
  | park here _ =>
      refine .apart (unclocked_of_quiet (by simp [Event.isTraffic])) rfl fun syncs => ?_
      cases here.symm.trans syncs
  | opened here _ | refused here _ | halted here =>
      refine .apart (unclocked_of_quiet (by simp [Event.isTraffic])) rfl fun syncs => ?_
      cases here.symm.trans syncs
  | published _ | overflown =>
      refine .apart (by simp [Event.isSync]) rfl fun syncs => ?_
      cases stands.1.symm.trans syncs
  | rest _ =>
      refine .apart without_nil rfl fun syncs => ?_
      cases stands.1.symm.trans syncs
  | wait => exact .apart without_nil rfl fun syncs => .inr ⟨syncs, by simp⟩

/-! ## Once the clock has answered -/

/-- The synchronisation is not due, and the worker is not at it. -/
structure Worker.Settled (w : Worker) : Prop where
  done : w.syncDue = false
  elsewhere : w.phase ≠ .syncTime

/-- A worker that is done with the clock leaves it alone. -/
theorem Timed.settled (timed : Timed w p w' q es) (settled : w.Settled) :
    w'.Settled ∧ Unclocked es := by
  cases timed with
  | apart silent due leads =>
      refine ⟨⟨due.trans settled.done, fun syncs => ?_⟩, silent⟩
      rcases leads syncs with again | ⟨here, _⟩
      · cases settled.done.symm.trans again
      · exact settled.elsewhere here
  | asks _ _ here _ _ => exact absurd here settled.elsewhere
  | hears _ here _ _ => exact absurd here settled.elsewhere

/-- An answer of the clock settles the matter. -/
theorem Timed.settles (timed : Timed w p w' q es) (answered : ¬ Without Event.isSyncAnswer es) :
    w'.Settled := by
  cases timed with
  | apart silent _ _ => exact absurd (unanswered_of_unclocked silent) answered
  | asks before after _ _ _ =>
      refine absurd ?_ answered
      simpa [Event.isSyncAnswer] using
        ⟨unanswered_of_unclocked before, unanswered_of_unclocked after⟩
  | hears _ _ done left => exact ⟨done, left⟩

/-- Nothing passes between a worker and the clock after an answer. -/
def Clockwise (before : List Event) (e : Event) : Prop :=
  e.isSync = true → Without Event.isSyncAnswer before

theorem clockwise_unclocked (silent : Unclocked es) (past : List Event → List Event) :
    Lawful (fun before => Clockwise (past before)) es := by
  refine .of_forall fun e there before sync => ?_
  cases (silent e there).symm.trans sync

theorem Timed.clockwise {past : List Event} (timed : Timed w p w' q es)
    (unanswered : w.phase = .syncTime → Without Event.isSyncAnswer past) :
    Lawful (fun before => Clockwise (past ++ before)) es := by
  cases timed with
  | apart silent _ _ => exact clockwise_unclocked silent _
  | asks before after here _ _ =>
      refine lawful_append.mpr ⟨clockwise_unclocked before _,
        lawful_cons.mpr ⟨fun _ => ?_, clockwise_unclocked after _⟩⟩
      simpa using ⟨unanswered here, unanswered_of_unclocked before⟩
  | hears after here _ _ =>
      refine lawful_cons.mpr ⟨fun _ => ?_, clockwise_unclocked after _⟩
      simpa using unanswered here

/-- The clock answers once at most. -/
theorem Lawful.countP_isSyncAnswer_le (lawful : Lawful Clockwise es) :
    es.countP Event.isSyncAnswer ≤ 1 := by
  induction es with
  | nil => decide
  | cons e es ih =>
      obtain ⟨_, rest⟩ := lawful_cons.mp lawful
      by_cases answer : e.isSyncAnswer = true
      · have none : es.countP Event.isSyncAnswer = 0 := by
          refine List.countP_eq_zero.mpr fun f there more => ?_
          obtain ⟨before, after, split⟩ := List.append_of_mem there
          have sync := Event.isSync_of_answer more
          have first := (without_cons.mp (rest before f after split sync)).1
          cases first.symm.trans answer
        rw [List.countP_cons, none, if_pos answer]
      · rw [List.countP_cons, if_neg answer]
        refine ih fun before f after split sync => ?_
        exact (without_cons.mp (rest before f after split sync)).2

/-- What the traffic with the clock so far says of a worker. -/
structure Clockwork (w : Worker) (es : List Event) : Prop where
  lawful : Lawful Clockwise es
  settled : ¬ Without Event.isSyncAnswer es → w.Settled
  unwanted : ∀ settings, es.head? = some (.booted settings) → settings.syncOnBoot = false →
    w.Settled ∧ Unclocked es
  begun : es ≠ []

namespace Clockwork

theorem boot (settings : Settings) : Clockwork (.boot settings) [.booted settings] where
  lawful := clockwise_unclocked (by simp [Event.isSync]) id
  settled answered := absurd (by simp [Event.isSyncAnswer]) answered
  unwanted other same without := by
    cases same
    exact ⟨⟨without, by simp [Worker.boot]⟩, by simp [Event.isSync]⟩
  begun := List.cons_ne_nil _ _

theorem turn {past : List Event} (timed : Timed w p w' q es) (clockwork : Clockwork w past) :
    Clockwork w' (past ++ es) where
  lawful := by
    refine lawful_append.mpr ⟨clockwork.lawful, timed.clockwise fun here => ?_⟩
    by_contra answered
    exact (clockwork.settled answered).elsewhere here
  settled answered := by
    by_cases before : Without Event.isSyncAnswer past
    · exact timed.settles fun none => answered (without_append.mpr ⟨before, none⟩)
    · exact (timed.settled (clockwork.settled before)).1
  unwanted settings first without := by
    rw [List.head?_append_of_ne_nil _ clockwork.begun] at first
    obtain ⟨settled, silent⟩ := clockwork.unwanted settings first without
    obtain ⟨still, more⟩ := timed.settled settled
    exact ⟨still, without_append.mpr ⟨silent, more⟩⟩
  begun := by simp [clockwork.begun]

/-- Anything else may happen to a worker. -/
theorem apart {past : List Event} (silent : Unclocked es) (clockwork : Clockwork w past) :
    Clockwork w (past ++ es) := by
  have waits : Timed w .outset w (.waiting .parked) es :=
    .apart silent rfl fun here => .inr ⟨here, by simp⟩
  exact clockwork.turn waits

end Clockwork

/-! ## Until the clock has answered -/

/-- How often the clock is asked. -/
def syncCalls (es : List Event) : Nat := es.countP Event.isSyncCall

theorem syncCalls_append (es fs : List Event) :
    syncCalls (es ++ fs) = syncCalls es + syncCalls fs :=
  List.countP_append

theorem syncCalls_cons (e : Event) (es : List Event) :
    syncCalls (e :: es) = syncCalls es + if e.isSyncCall then 1 else 0 :=
  List.countP_cons

theorem syncCalls_unclocked (silent : Unclocked es) : syncCalls es = 0 := by
  refine List.countP_eq_zero.mpr fun e there call => ?_
  cases (silent e there).symm.trans (Event.isSync_of_call call)

/-- How often a worker has asked the clock, and how many of these calls were given up. At
the outset of `syncTime` all of them were. -/
structure Asking (w : Worker) (p : Point) (calls lost : Nat) : Prop where
  unasked : w.syncDue = true → calls = 0
  anew : w.phase = .syncTime → p = .outset → calls ≤ lost
  few : calls ≤ lost + 1

namespace Asking

variable {calls lost : Nat}

theorem mono (asking : Asking w p calls lost) (more : Nat) : Asking w p calls (lost + more) where
  unasked := asking.unasked
  anew here outset := Nat.le_add_right_of_le (asking.anew here outset)
  few := by
    have := asking.few
    omega

/-- A call is given up where a turn leads back to the outset. -/
theorem turn (timed : Timed w p w' q es) (asking : Asking w p calls lost) :
    Asking w' q (calls + syncCalls es) (lost + if q = .outset then syncCalls es else 0) := by
  have few := asking.few
  cases timed with
  | apart silent due leads =>
      rw [syncCalls_unclocked silent, ite_self]
      refine ⟨fun now => asking.unasked (due.symm.trans now), fun syncs outset => ?_, few⟩
      rcases leads syncs with first | ⟨_, waits⟩
      · rw [asking.unasked first]
        exact Nat.zero_le _
      · exact absurd outset waits
  | @asks notes asides before after here outset done =>
      have once : syncCalls (notes ++ .called .sync :: asides) = 1 := by
        rw [syncCalls_append, syncCalls_cons, syncCalls_unclocked before, syncCalls_unclocked after]
        rfl
      have left := asking.anew here outset
      rw [once]
      refine ⟨fun due => ?_, fun _ again => ?_, by omega⟩
      · cases done.symm.trans due
      · rw [if_pos again]
        omega
  | @hears answer notes after here done left =>
      have none : syncCalls (.answered .sync answer :: notes) = 0 := by
        rw [syncCalls_cons, syncCalls_unclocked after]
        rfl
      rw [none, ite_self]
      refine ⟨fun due => ?_, fun here _ => absurd here left, few⟩
      cases done.symm.trans due

/-- A worker at the outset of a step, where nothing is waited for. -/
theorem abandon {suspension : Suspension} (stands : w.At (.waiting suspension))
    (asking : Asking w (.waiting suspension) calls lost) :
    Asking w .outset calls (lost + (Point.isAsking (.waiting suspension)).toNat) where
  unasked := asking.unasked
  anew here _ := by
    have few := asking.few
    cases suspension with
    | parked => cases stands.1.symm.trans here
    | call job polls answer =>
        have own := stands.1.symm.trans here
        cases job <;> first | exact few | cases own
  few := (asking.mono _).few

end Asking

end Turns

/-! ## Moves and drives -/

section Drives

variable [Crew ε]

/-- The call to which the crew objects at the end of a move. -/
def Move.objection? (m : Move cap ε) : Option Event :=
  match m.verdict with
  | .violated (.crew _) => m.events.getLast?
  | _ => none

theorem syncCalls_uncalled {es : List Event} (uncalled : Uncalled es) : syncCalls es = 0 := by
  refine List.countP_eq_zero.mpr fun e there call => ?_
  have other := uncalled e there
  cases e <;> first | cases call | cases other

omit [Crew ε] in
/-- What the crew objects to is the last thing that happened, and nothing else was asked
of it. -/
theorem Move.Checked.lost_eq {m : Move cap ε} (checked : m.Checked) {violation : Violation}
    (verdict : m.verdict = .violated violation) :
    syncCalls m.events = if m.objection? = some (.called .sync) then 1 else 0 := by
  unfold objection?
  rw [verdict]
  rcases checked violation verdict with
    ⟨uncalled, own⟩ | ⟨notes, request, text, rfl, events, uncalled⟩
  · rw [syncCalls_uncalled uncalled]
    cases violation with
    | crew text => exact absurd rfl (own text)
    | _ => rfl
  · rw [events, syncCalls_append, syncCalls_uncalled uncalled, List.getLast?_concat]
    cases request <;> rfl

/-- A move gives up the calls to which the crew objects. -/
theorem Site.lost_move (s : Site cap ε) (p : Point) :
    (if (s.move p).verdict.next = .outset then syncCalls (s.move p).events else 0) =
      if (s.move p).objection? = some (.called .sync) then 1 else 0 := by
  have moved := s.moved p
  have checked := s.checked_move p
  generalize s.move p = m at moved checked ⊢
  cases moved with
  | finishes _ _ uncalled => simp [syncCalls_uncalled uncalled, Move.objection?]
  | misused _ | refused _ _ | overflown _ => exact checked.lost_eq rfl
  | _ => rfl

theorem Asking.move {s : Site cap ε} {p : Point} {calls lost : Nat} (stands : s.worker.At p)
    (asking : Asking s.worker p calls lost) :
    Asking (s.move p).site.worker (s.move p).verdict.next
      (calls + syncCalls (s.move p).events)
      (lost + if (s.move p).objection? = some (.called .sync) then 1 else 0) := by
  rw [← s.lost_move p]
  exact asking.turn ((s.turn_move p).timed stands)

/-- A drive gives up no call. -/
theorem Site.Driven.asking {mode : Mode} {s t : Site cap ε} {p q : Point} {es : List Event}
    (driven : s.Driven mode p es t q) : ∀ {calls lost : Nat}, s.worker.At p →
      Asking s.worker p calls lost →
      t.worker.At q ∧ Asking t.worker q (calls + syncCalls es) lost := by
  induction driven with
  | stay s p => exact fun stands asking => ⟨stands, asking⟩
  | @move s t p q es onward _ ih =>
      intro calls lost stands asking
      have none : (s.move p).objection? = none := by
        unfold Move.objection?
        cases verdict : (s.move p).verdict with
        | violated _ =>
            rw [verdict] at onward
            cases onward
        | _ => rfl
      have first := asking.move stands
      rw [none] at first
      obtain ⟨last, more⟩ := ih ((s.turn_move p).at_next stands) first
      refine ⟨last, ?_⟩
      rw [syncCalls_append, ← Nat.add_assoc]
      exact more

end Drives

namespace Site

variable [Crew ε]

theorem called_begin (s : Site cap ε) (job : Job) (notes : List Event) :
    .called job.request ∈ (s.begin job notes).events := by
  unfold begin
  split <;> simp

/-- The clock is asked at the outset of `syncTime`, whatever is due. -/
theorem asks_of_syncTime {s : Site cap ε} (here : s.worker.phase = .syncTime) :
    .called .sync ∈ (s.move .outset).events := by
  have act : s.act = begin { s with worker := { s.worker with syncDue := false } } .sync
      [.noticed .syncingTime] := by
    unfold Site.act
    rw [here]
  show _ ∈ s.opening ++ s.act.events
  rw [act]
  exact List.mem_append_right _ (called_begin _ .sync _)

end Site

/-! ## Operations -/

/-- The call to which a crew objects at the end of a poll. -/
def Outcome.objection? (o : Outcome cap ε) : Option Entry :=
  match o.reply with
  | .progress (.violated (.crew _)) => o.entries.getLast?
  | _ => none

namespace World

/-- What a poll ends with is what its last move ends with. -/
theorem objection?_absorb (w : World cap ε) (id : Nat) (mode : Mode) {m : Move cap ε}
    (checked : m.Checked) {progress : Progress} (ends : Ends mode m.site m.verdict progress)
    (before : List Event) :
    (w.absorb id mode ⟨m.site, before ++ m.events, progress⟩).objection? =
      m.objection?.map (·.causedBy (.worker id)) := by
  unfold Outcome.objection? Move.objection?
  rw [entries_absorb]
  generalize verdict : m.verdict = v at ends
  cases ends with
  | @violated violation =>
      rcases checked _ verdict with ⟨_, own⟩ | ⟨notes, request, text, rfl, events, _⟩
      · cases violation with
        | crew text => exact absurd rfl (own text)
        | _ => rfl
      · dsimp only
        rw [events, ← List.append_assoc, entries_append, List.getLast?_concat]
        exact List.getLast?_concat
  | _ => rfl

variable [Crew ε]

/-- The calls of a worker for the time that an operation gives up: the one that was
waited for, if the worker abandons its step, or one to which its crew objects. -/
def forsakes (w : World cap ε) (id : Nat) : Op ε → Nat
  | .cancel other =>
    if other = id then ((w.station? id).any (·.post.point.isAsking)).toNat else 0
  | op => if (w.apply op).objection? = some ⟨.worker id, .called .sync⟩ then 1 else 0

/-- Those that operations give up one after another. -/
def forsaken : World cap ε → Nat → List (Op ε) → Nat
  | _, _, [] => 0
  | w, id, op :: rest => w.forsakes id op + forsaken (w.apply op).world id rest

/-- How often a worker has asked the clock, whether it is there or not. -/
structure Asks (w : World cap ε) (id calls lost : Nat) : Prop where
  unborn : w.posts.length ≤ id → calls = 0
  few : calls ≤ lost + 1
  here : ∀ (worker : Worker) (p : Point), w.posts[id]? = some (some ⟨worker, p⟩) →
    worker.At p ∧ Asking worker p calls lost

namespace Asks

variable {w : World cap ε} {id calls lost : Nat}

omit [Crew ε] in
/-- Who stands elsewhere than it stood has asked as often as it has by then. -/
theorem of_set {v : World cap ε} {worker : Worker} {p : Point} (inside : id < w.posts.length)
    (posts : v.posts = w.posts.set id (some ⟨worker, p⟩)) (stands : worker.At p)
    (asking : Asking worker p calls lost) : v.Asks id calls lost where
  unborn outside := by
    rw [posts, List.length_set] at outside
    omega
  few := asking.few
  here other q there := by
    rw [posts, List.getElem?_set_self inside] at there
    cases there
    exact ⟨stands, asking⟩

theorem polls {op : Op ε} {s : Station ε} {mode : Mode} (here : w.station? id = some s)
    (polls : op.Polls id s mode) (asks : w.Asks id calls lost) :
    (w.apply op).world.Asks id (calls + syncCalls (own id (w.apply op).entries))
      (lost + if (w.apply op).objection? = some ⟨.worker id, .called .sync⟩ then 1 else 0) := by
  obtain ⟨es, t, q, progress, driven, applied, ends, happened, posts⟩ := polled here polls
  have there := posts_of_station? here
  obtain ⟨stands, asking⟩ := asks.here _ _ there
  obtain ⟨last, drive⟩ := driven.asking stands asking
  have silent := syncCalls_unclocked (unclocked_of_quiet (quiet_of_asides op.asides_announced))
  have count : calls + syncCalls (own id (w.apply op).entries) =
      calls + syncCalls es + syncCalls (t.move q).events := by
    rw [happened, own_entries_self, syncCalls_append, syncCalls_append, silent]
    omega
  have objection : (w.apply op).objection? = some ⟨.worker id, .called .sync⟩ ↔
      (t.move q).objection? = some (.called .sync) := by
    rw [applied, ← List.append_assoc, w.objection?_absorb id mode (t.checked_move q) ends]
    cases (t.move q).objection? <;> simp [Event.causedBy]
  rw [count, if_congr objection rfl rfl]
  exact .of_set (List.getElem?_eq_some_iff.mp there).1 posts ((t.turn_move q).at_next last)
    (drive.move last)

theorem apply (asks : w.Asks id calls lost) (op : Op ε) :
    (w.apply op).world.Asks id (calls + syncCalls (own id (w.apply op).entries))
      (lost + w.forsakes id op) := by
  have concern := w.concern op id
  generalize forsakes : w.forsakes id op = more
  generalize w.apply op = o at concern ⊢
  cases concern with
  | spared silent born stays =>
      rw [silent]
      refine ⟨fun outside => asks.unborn (Nat.le_trans born outside), ?_, fun worker p there => ?_⟩
      · exact Nat.le_trans asks.few (by omega)
      · obtain ⟨stands, asking⟩ := asks.here worker p (stays _ there)
        exact ⟨stands, asking.mono more⟩
  | booted settings crew new happened posts =>
      -- whoever is booted has not asked, and nobody with its number has before
      rw [happened, asks.unborn new]
      refine ⟨fun _ => rfl, Nat.zero_le _, fun worker p there => ?_⟩
      rw [posts, List.getElem?_append_right new] at there
      cases List.mem_singleton.mp (List.mem_of_getElem? there)
      exact ⟨trivial, fun _ => rfl, fun _ _ => Nat.zero_le _, Nat.zero_le _⟩
  | polled here polls =>
      rw [← forsakes]
      cases polls with
      | fresh free => exact asks.polls here (.fresh free)
      | again held => exact asks.polls here (.again held)
  | @cancelled s mode suspension o here held silent posts =>
      have there := posts_of_held here held
      obtain ⟨stands, asking⟩ := asks.here _ _ there
      have given : w.forsakes id (.cancel id) = (Point.isAsking (.waiting suspension)).toNat := by
        simp [World.forsakes, here, Station.post, held]
      rw [silent, ← forsakes, given]
      exact .of_set (List.getElem?_eq_some_iff.mp there).1 posts trivial (asking.abandon stands)

theorem applyAll (ops : List (Op ε)) : ∀ {w : World cap ε} {calls lost : Nat},
    w.Asks id calls lost →
    (w.applyAll ops).1.Asks id (calls + syncCalls (own id (w.applyAll ops).2))
      (lost + w.forsaken id ops) := by
  induction ops with
  | nil => exact fun asks => asks
  | cons op rest ih =>
      intro w calls lost asks
      have last := ih (asks.apply op)
      show ((w.apply op).world.applyAll rest).1.Asks id
        (calls + syncCalls (own id ((w.apply op).entries ++ ((w.apply op).world.applyAll rest).2)))
        (lost + (w.forsakes id op + (w.apply op).world.forsaken id rest))
      rw [own_append, syncCalls_append, ← Nat.add_assoc, ← Nat.add_assoc]
      exact last

end Asks

/-- A worker that abandons the call for the time makes it again in its next step. -/
theorem asks_again {w : World cap ε} {id : Nat} {s : Station ε} {mode : Mode} {polls : Nat}
    {answer : Answer} (here : w.station? id = some s)
    (held : s.held = some (mode, .call .sync polls answer)) (stands : s.worker.phase = .syncTime) :
    ⟨.worker id, .called .sync⟩ ∈
      ((w.apply (.cancel id)).world.apply (.launch id .step)).entries := by
  have cancelled : (w.apply (.cancel id)).world = w.place id (some { s with held := none }) := by
    simp only [World.apply, here, held]
  have there := station?_place here (some { s with held := none })
  rw [cancelled, apply_polls there (.fresh rfl), entries_absorb]
  refine List.mem_map.mpr ⟨.called .sync, ?_, rfl⟩
  exact Site.mem_poll (Site.asks_of_syncTime stands) .step

end World

/-! ## Histories -/

section Histories

variable [Crew ε]

theorem clockwork_after (ops : List (Op ε)) :
    Everyone (fun w p es => w.At p ∧ Clockwork w es)
      ((World.after cap ops).moment (World.journal cap ops)) := by
  refine World.own_invariant (K := fun w _ es => Clockwork w es) ?_ ?_ ?_ ?_ ops
  · exact fun settings => .boot settings
  · exact fun w es clockwork => clockwork.apart (by simp [Event.isSync])
  · exact fun _ _ _ clockwork => clockwork
  · exact fun _ _ _ _ _ _ _ _ turn stands clockwork => clockwork.turn (turn.timed stands)

theorem asks_after (ops : List (Op ε)) (id : Nat) :
    (World.after cap ops).Asks id (syncCalls (own id (World.journal cap ops)))
      ((World.empty : World cap ε).forsaken id ops) := by
  have first : (World.empty : World cap ε).Asks id 0 0 :=
    ⟨fun _ => rfl, Nat.zero_le _, fun _ _ there => by cases there⟩
  have last := first.applyAll ops
  rw [Nat.zero_add, Nat.zero_add] at last
  exact last

/-- **The clock is asked until it answers.** Whatever a worker goes through, the clock
answers it once at most, and once it has, nothing more passes between the two; it is
never asked if the settings do not want it; and it is asked once more at most than calls
are given up, because the worker abandons the step or its crew objects. -/
theorem clock_asked_until_answered (ops : List (Op ε)) (id : Nat) :
    let mine := own id (World.journal cap ops)
    Lawful Clockwise mine ∧ mine.countP Event.isSyncAnswer ≤ 1 ∧
      (∀ settings, mine.head? = some (.booted settings) → settings.syncOnBoot = false →
        syncCalls mine = 0) ∧
      syncCalls mine ≤ (World.empty : World cap ε).forsaken id ops + 1 := by
  intro mine
  have asked := (@asks_after cap _ _ ops id).few
  have clockwork : mine = [] ∨ ∃ w, Clockwork w mine := by
    rcases @clockwork_after cap _ _ ops id with ⟨_, none⟩ | ⟨w, _, ⟨_, holds⟩, _⟩
    · exact .inl none
    · exact .inr ⟨w, holds⟩
  rcases clockwork with none | ⟨w, clockwork⟩
  · refine ⟨?_, ?_, fun _ _ _ => ?_, asked⟩ <;> rw [none]
    · exact lawful_nil _
    · exact Nat.zero_le _
    · rfl
  · refine ⟨clockwork.lawful, clockwork.lawful.countP_isSyncAnswer_le, ?_, asked⟩
    intro settings booted without
    exact syncCalls_unclocked (clockwork.unwanted settings booted without).2

/-- The first call is given up, the second one is answered, and the worker goes on until it
rests. So does another one, whose settings do not want the clock to be asked. -/
theorem clock_asked_until_answered_abandoned :
    let ops : List (Op Script) :=
      [.boot {} { sync := [{ polls := 1 }] }, .launch 0 .run, .cancel 0, .launch 0 .run,
        .boot { syncOnBoot := false } {}, .launch 1 .run]
    let calls (id : Nat) := syncCalls (own id (World.journal 2 ops))
    calls 0 = 2 ∧ calls 0 ≤ (World.empty : World 2 Script).forsaken 0 ops + 1 ∧
      (World.empty : World 2 Script).forsaken 0 ops = 1 ∧
      (own 1 (World.journal 2 ops)).head? = some (.booted { syncOnBoot := false }) ∧
      calls 1 = 0 := by
  intro ops calls
  have happened : calls 0 = 2 ∧ (World.empty : World 2 Script).forsaken 0 ops = 1 ∧
      (own 1 (World.journal 2 ops)).head? = some (.booted { syncOnBoot := false }) := by
    decide +kernel
  obtain ⟨twice, once, booted⟩ := happened
  obtain ⟨_, _, _, few⟩ := clock_asked_until_answered ops 0
  obtain ⟨_, _, unwanted, _⟩ := clock_asked_until_answered ops 1
  exact ⟨twice, few, once, booted, unwanted _ booted rfl⟩

/-- The clock is asked a second time, although the settings want it synchronised once: the
first call is suspended, the worker abandons it, and the next step makes it again. -/
theorem clock_asked_twice :
    let ops : List (Op Script) :=
      [.boot { syncOnBoot := true } { sync := [{ polls := 1 }] }, .launch 0 .step, .launch 0 .step,
        .launch 0 .step, .cancel 0, .launch 0 .step]
    ¬ syncCalls (own 0 (World.journal 10 ops)) ≤ 1 ∧
      (own 0 (World.journal 10 ops)).filter Event.isTraffic =
        [.called .start, .answered .start .ok, .called .sync, .called .sync,
          .answered .sync .ok] := by
  decide +kernel

end Histories

end StoreForward
