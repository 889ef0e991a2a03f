import StoreForward.Crew.Rehearsal
import StoreForward.Proofs.Drain

/-!
# Rehearsing with a worker

A rehearsal keeps books of its own. It counts the sessions that it has opened and those that
are live, notes the batches that it is asked to publish, and finds fault with a worker that
opens a second session or uses one that is not the last. The worker that it is rehearsed with
keeps its own count of sessions, and neither sees what the other has counted.

They agree all the same (`Rehearsal.Follows`), but for one moment. A rehearsal counts a
session when it is asked for it and the worker when the answer arrives, so that the worker is
taken as it is once it has been told (`Worker.informed`). It makes no difference what is to
fail. A connect that fails opens no session for either of the two, and a close that fails has
ended the session for both. A batch has been noted when it is refused, and the worker does not
offer it again.

A rehearsal answers at once. Where its worker waits, it waits for a wake, and whoever abandons
a step there abandons no request. So the books agree after every operation, however steps and
runs are polled and cut short. What is left for a rehearsal to object to is the width of its
counter: the session after the last that it has a number for is refused.

## Main definitions

* `Rehearsal.Follows` — the books of a rehearsal agree with its worker.
* `Rehearsal.Obliges` — a request is answered at once, unless no number is left.
* `Op.Rehearsed` — nothing but what is to fail is set from outside.
* `WellUsed` — a poll ends early only for want of a number.

## Main results

* `Rehearsal.Follows.calls` — what a rehearsal makes of the requests of its worker.
* `Site.follows_move`, `Site.Driven.follows` — it keeps up with a move, and with a drive.
* `World.rehearsed_after` — it has kept up with its worker in every history.
* `rehearsals_find_no_misuse` — it never finds that it is being misused.
-/

namespace StoreForward

variable {cap : Nat} {ε : Type}

/-! ## Keeping up with a worker -/

/-- What a rehearsal remembers of what it was asked, whatever is to fail. -/
def Rehearsal.record (r : Rehearsal) : Nat × UInt32 × UInt32 × List Cue :=
  (r.publishes, r.opened, r.live, r.notes)

/-- The worker as it is once an answer that is on its way has reached it. -/
def Worker.informed (w : Worker) : Point → Worker
  | .waiting (.call .connect _ .ok) => w.openSession
  | _ => w

/-- No answer is waited for that is not due. -/
def Point.Due : Point → Prop
  | .waiting (.call _ polls _) => polls = 0
  | _ => True

/-- The counters of a rehearsal are those of its worker, and it has noted the batches
that were handed over. -/
structure Rehearsal.Follows (r : Rehearsal) (w : Worker) (p : Point) (es : List Event) : Prop where
  due : p.Due
  opened : r.opened.toNat = (w.informed p).opened
  live : r.live = if (w.informed p).session.isSome then 1 else 0
  published : r.published = (handed es).map Batch.tag

/-- What a worker is in for when it has put a request: an answer at once, unless there is no
number left for another session. The rehearsal keeps up in both cases. -/
inductive Rehearsal.Obliges (w : Worker) (job : Job) (es : List Event) :
    Rehearsal × Except Misuse Response → Prop where
  | answers {r : Rehearsal} (fails : Bool)
      (follows : r.Follows w (.waiting (.call job 0 (if fails then .failed failure else .ok))) es) :
      Obliges w job es (r, answer fails)
  | exhausts {r : Rehearsal} (last : r.opened = 0xffffffff) (follows : r.Follows w .outset es) :
      Obliges w job es (r, .error .openedOverflow)

/-- The session that a worker holds is the one it has opened last. -/
theorem Books.latest {w : Worker} {es : List Event} (books : Books w es) {session : Nat}
    (held : w.session = some session) : session = w.opened := by
  rw [books.session, sessionOf] at held
  split at held
  · rw [books.opened]
    exact (Option.some.inj held).symm
  · cases held

namespace Rehearsal.Follows

variable {r r' : Rehearsal} {w w' : Worker} {p q : Point} {past es : List Event}

/-- No session is opened or closed, and what is handed over is noted. -/
theorem carry (follows : r.Follows w p past) (due : q.Due)
    (opened : (w'.informed q).opened = (w.informed p).opened)
    (session : (w'.informed q).session = (w.informed p).session)
    (counters : r'.opened = r.opened ∧ r'.live = r.live)
    (noted : r'.published = r.published ++ (handed es).map Batch.tag) :
    r'.Follows w' q (past ++ es) where
  due := due
  opened := by rw [counters.1, opened, follows.opened]
  live := by rw [counters.2, session, follows.live]
  published := by rw [noted, follows.published, handed_append, List.map_append]

theorem live_of_none (follows : r.Follows w .outset past) (free : w.session = none) :
    r.live = 0 := by
  rw [follows.live]
  show (if w.session.isSome then 1 else 0) = (0 : UInt32)
  rw [free]
  rfl

theorem live_of_some (follows : r.Follows w .outset past) {session : Nat}
    (held : w.session = some session) : r.live = 1 := by
  rw [follows.live]
  show (if w.session.isSome then 1 else 0) = (1 : UInt32)
  rw [held]
  rfl

/-- A worker that holds no session is obliged with the next one, or refused. -/
theorem connects (follows : r.Follows w .outset past) (free : w.session = none)
    (silent : handed es = []) : Obliges w .connect (past ++ es) r.connect := by
  have noted : (r.note .connect).published = r.published ++ (handed es).map Batch.tag := by
    rw [published_note, silent]
    rfl
  rcases r.connect_of_none (follows.live_of_none free) with
    ⟨left, refused⟩ | ⟨last, exhausted⟩ | ⟨room, connected⟩
  · rw [refused]
    exact .answers true (follows.carry rfl rfl rfl ⟨rfl, rfl⟩ noted)
  · rw [exhausted]
    exact .exhausts last (follows.carry trivial rfl rfl ⟨rfl, rfl⟩ noted)
  · rw [connected]
    refine .answers false ⟨rfl, ?_, rfl, ?_⟩
    · show (r.opened + 1).toNat = w.opened + 1
      rw [toNat_add_one_of_ne room, follows.opened]
      rfl
    · rw [handed_append, List.map_append, ← follows.published]
      exact noted

/-- A worker that gives up the session it holds has it closed, even if that fails. -/
theorem closes (follows : r.Follows w .outset past) (books : Books w past) {session : Nat}
    (held : w.session = some session) (silent : handed es = []) :
    Obliges { w with session := none } (.close session) (past ++ es) (r.close session) := by
  have latest : session = r.opened.toNat := (books.latest held).trans follows.opened.symm
  rw [r.close_latest latest (follows.live_of_some held)]
  refine .answers r.failClose ⟨rfl, follows.opened, rfl, ?_⟩
  show (r.note .close).published = _
  rw [published_note, follows.published, handed_append, silent, List.append_nil]
  exact List.append_nil _

/-- A rehearsal obliges its worker with every request. -/
theorem calls {l l₁ : Link cap} {w₁ : Worker} {job : Job} {notes : List Event}
    (follows : r.Follows w p past) (stands : w.At p) (books : Books w past)
    (calling : Calling l w p job notes l₁ w₁) :
    Obliges w₁ job (past ++ (notes ++ [.called job.request])) (r.react job.request) := by
  cases calling with
  | start _ =>
      obtain ⟨left, fails, started⟩ := r.start_eq
      show Obliges w .start _ r.start
      rw [started]
      exact .answers fails (follows.carry rfl rfl rfl ⟨rfl, rfl⟩ (r.published_note _))
  | sync _ =>
      exact .answers r.failSync (follows.carry rfl rfl rfl ⟨rfl, rfl⟩ (r.published_note _))
  | stop _ =>
      exact .answers r.failStop (follows.carry rfl rfl rfl ⟨rfl, rfl⟩ (r.published_note _))
  | connect _ free => exact follows.connects free rfl
  | @publish session sent batch _ _ =>
      have latest : session = r.opened.toNat :=
        (books.latest stands.2).trans follows.opened.symm
      show Obliges w (.publish session batch sent) _ (r.publish session batch)
      rw [r.publish_latest latest batch]
      exact .answers _ (follows.carry rfl rfl rfl ⟨rfl, rfl⟩ (r.published_note _))
  | close _ held => exact follows.closes books held rfl

end Rehearsal.Follows

/-! ## Turns that ask for nothing -/

section Turns

variable {l l' : Link cap} {w w' : Worker} {p q : Point} {es : List Event}

/-- A turn in which nothing is asked opens no session and gives none up. -/
theorem Turn.informed_eq (turn : Turn l w p es l' w' q) (uncalled : Uncalled es) :
    (w'.informed q).opened = (w.informed p).opened ∧
      (w'.informed q).session = (w.informed p).session := by
  cases turn with
  | call _ _ _ => simp [Event.isCall] at uncalled
  | leave closing =>
      cases closing with
      | succeeded job plain => cases job <;> cases plain <;> exact ⟨rfl, rfl⟩
      | failed job _ => cases job <;> exact ⟨rfl, rfl⟩
      | _ => exact ⟨rfl, rfl⟩
  | @wait job _ answer => cases job <;> cases answer <;> exact ⟨rfl, rfl⟩
  | _ => exact ⟨rfl, rfl⟩

theorem Turn.due (turn : Turn l w p es l' w' q) (uncalled : Uncalled es) (due : p.Due) :
    q.Due := by
  cases turn with
  | call _ _ _ => simp [Event.isCall] at uncalled
  | wait => cases due
  | _ => trivial

end Turns

/-- A hint is noted and changes nothing else. -/
theorem Rehearsal.counters_of_spared {r r' : Rehearsal} (spared : Spared r r') :
    (r'.opened = r.opened ∧ r'.live = r.live) ∧ r'.published = r.published := by
  rcases spared with rfl | ⟨hint, rfl⟩
  · exact ⟨⟨rfl, rfl⟩, rfl⟩
  · cases hint <;> exact ⟨⟨rfl, rfl⟩, (r.published_note _).trans (List.append_nil _)⟩

/-! ## Moves and drives -/

section Moves

variable {s t : Site cap Rehearsal} {p q : Point} {past es : List Event}

/-- The only check of a rehearsal that fails is whether there is a number left for another
session. -/
def Move.Exhausts (m : Move cap Rehearsal) : Prop :=
  ∀ text, m.verdict = .violated (.crew text) →
    text = Rehearsal.Misuse.openedOverflow.text ∧ m.site.crew.opened = 0xffffffff

/-- A rehearsal keeps up with every move of its worker. -/
theorem Site.follows_move (stands : s.worker.At p) (books : Books s.worker past)
    (follows : s.crew.Follows s.worker p past) :
    (s.move p).site.crew.Follows (s.move p).site.worker (s.move p).verdict.next
        (past ++ (s.move p).events) ∧ (s.move p).Exhausts := by
  have turn := s.turn_move p
  have consults := s.consults p
  generalize s.move p = m at turn consults ⊢
  cases consults with
  | @asks job notes l w calling =>
      have obliges := follows.calls stands books calling
      have reaction : Crew.react s.crew job.request = ((s.crew.react job.request).1,
          (s.crew.react job.request).2.mapError Rehearsal.Misuse.text) := rfl
      unfold Site.begin
      dsimp only
      rw [reaction]
      generalize s.crew.react job.request = reacted at obliges ⊢
      cases obliges with
      | answers fails next => exact ⟨next, fun _ => Verdict.noConfusion⟩
      | exhausts last next =>
          refine ⟨next, fun text verdict => ?_⟩
          cases verdict
          exact ⟨rfl, last⟩
  | spares spared uncalled own =>
      obtain ⟨counters, noted⟩ := Rehearsal.counters_of_spared spared
      obtain ⟨opened, session⟩ := turn.informed_eq uncalled
      refine ⟨follows.carry (turn.due uncalled follows.due) opened session counters ?_,
        fun text verdict => absurd verdict (own text)⟩
      rw [handed_uncalled uncalled, noted]
      exact (List.append_nil _).symm

/-- A rehearsal keeps up with a whole drive. -/
theorem Site.Driven.follows {mode : Mode} (driven : s.Driven mode p es t q) :
    ∀ {past : List Event}, s.worker.At p → Nested s.worker past →
      s.crew.Follows s.worker p past →
      t.worker.At q ∧ Nested t.worker (past ++ es) ∧ t.crew.Follows t.worker q (past ++ es) := by
  induction driven with
  | stay s p =>
      intro past stands nested follows
      rw [List.append_nil]
      exact ⟨stands, nested, follows⟩
  | @move s t p q es _ _ ih =>
      intro past stands nested follows
      have turn := s.turn_move p
      rw [← List.append_assoc]
      exact ih (turn.at_next stands) (nested.turn turn stands)
        (s.follows_move stands nested.books follows).1

end Moves

/-! ## Histories -/

/-- A worker is booted with a rehearsal that has not been asked for anything, and what is
changed in a rehearsal is only what is to fail. -/
def Op.Rehearsed : Op Rehearsal → Prop
  | .boot _ crew => crew.record = Rehearsal.record {}
  | .amend _ change => ∀ r : Rehearsal, (change r).record = r.record
  | _ => True

/-- The rehearsal at a station has kept up with its worker, which waits for nothing but a
wake. -/
structure Station.Rehearsed (s : Station Rehearsal) (es : List Event) : Prop where
  follows : s.crew.Follows s.worker s.post.point es
  parked : ∀ mode suspension, s.held = some (mode, suspension) → suspension = .parked

/-- A rehearsal has its answers ready, so that its worker waits only while it rests. -/
theorem Site.parked_of_due {s : Site cap Rehearsal} {p : Point} (due : p.Due)
    {suspension : Suspension} (waits : (s.move p).verdict = .suspended suspension) :
    suspension = .parked := by
  have moved := s.moved p
  generalize s.move p = m at moved waits
  cases moved with
  | waits here =>
      subst here
      cases due
  | rests _ _ =>
      cases waits
      rfl
  | _ => cases waits

namespace Rehearsal.Follows

variable {r r' : Rehearsal} {w : Worker} {p : Point} {past es : List Event}

/-- What is only noticed, or done to a worker from outside, leaves a rehearsal up to date. -/
theorem aside (follows : r.Follows w p past) (asides : Asides es) : r.Follows w p (past ++ es) := by
  refine follows.carry follows.due rfl rfl ⟨rfl, rfl⟩ ?_
  rw [handed_uncalled (uncalled_of_quiet (quiet_of_asides asides))]
  exact (List.append_nil _).symm

theorem of_record (follows : r.Follows w p past) (same : r'.record = r.record) :
    r'.Follows w p past := by
  obtain ⟨_, opened, live, notes⟩ : _ ∧ r'.opened = r.opened ∧ r'.live = r.live ∧
      r'.notes = r.notes := by
    simpa [record] using same
  have noted : r'.published = r.published := congrArg (List.filterMap Cue.tag?) notes
  exact ⟨follows.due, opened ▸ follows.opened, live ▸ follows.live,
    noted.trans follows.published⟩

theorem boot (settings : Settings) (fresh : r.record = record {}) :
    r.Follows (.boot settings) .outset [.booted settings] := by
  have unasked : Follows {} (.boot settings) .outset [.booted settings] :=
    ⟨trivial, rfl, rfl, rfl⟩
  exact unasked.of_record fresh

end Rehearsal.Follows

namespace World

variable {w : World cap Rehearsal} {op : Op Rehearsal} {id : Nat} {s : Station Rehearsal}
  {mode : Mode} {past : List Event}

/-- What a poll leaves behind has kept up, if it has until the end of the poll. -/
theorem rehearsed_absorb (here : w.station? id = some s) {t : Site cap Rehearsal} {q : Point}
    {progress : Progress} (due : q.Due)
    (ends : Ends mode (t.move q).site (t.move q).verdict progress)
    (follows : (t.move q).site.crew.Follows (t.move q).site.worker (t.move q).verdict.next past)
    (es : List Event) :
    ∃ r, (w.absorb id mode ⟨(t.move q).site, es, progress⟩).world.station? id = some r ∧
      r.crew = (t.move q).site.crew ∧ r.Rehearsed past := by
  obtain ⟨held, there, waits, free⟩ := station?_absorb here mode ⟨(t.move q).site, es, progress⟩
  refine ⟨_, there, rfl, ?_⟩
  rw [← ends.next_eq] at follows
  cases progress with
  | pending suspension =>
      have parked : suspension = .parked := by
        generalize verdict : (t.move q).verdict = v at ends
        cases ends
        exact t.parked_of_due due verdict
      rw [waits suspension rfl]
      refine ⟨follows, fun _ _ same => ?_⟩
      cases same
      exact parked
  | stepped _ | halted _ | violated _ =>
      rw [free fun _ => Progress.noConfusion]
      exact ⟨follows, fun _ _ other => by cases other⟩

/-- A rehearsal keeps up with a poll, and finds fault with it only if there is no number left
for another session. -/
theorem rehearsed_polls (here : w.station? id = some s) (polls : op.Polls id s mode)
    (stands : s.worker.At s.post.point) (nested : Nested s.worker past)
    (follows : s.crew.Follows s.worker s.post.point past) :
    ∃ r, (w.apply op).world.station? id = some r ∧
      r.Rehearsed (past ++ own id (w.apply op).entries) ∧
      ∀ text, (w.apply op).reply = .progress (.violated (.crew text)) →
        text = Rehearsal.Misuse.openedOverflow.text ∧ r.crew.opened = 0xffffffff := by
  obtain ⟨es, t, q, progress, driven, applied, ends⟩ := apply_driven here polls
  obtain ⟨stands', nested', follows'⟩ := driven.follows stands
    (nested.quiet (quiet_of_asides op.asides_announced)) (follows.aside op.asides_announced)
  obtain ⟨next, exhausts⟩ := t.follows_move stands' nested'.books follows'
  rw [List.append_assoc, List.append_assoc] at next
  rw [applied, entries_absorb, own_entries_self]
  obtain ⟨r, there, crew, rehearsed⟩ := rehearsed_absorb here follows'.due ends next
    (op.announced ++ (es ++ (t.move q).events))
  refine ⟨r, there, rehearsed, fun text reply => ?_⟩
  have violated : (t.move q).verdict = .violated (.crew text) := by
    cases reply
    generalize (t.move q).verdict = v at ends
    cases ends
    rfl
  rw [crew]
  exact exhausts text violated

/-- The station that has come with a boot. -/
theorem station?_born {w : World cap ε} {l : Link cap} {new r : Station ε} {id : Nat}
    (young : ¬ id < w.stations.length)
    (there : (⟨l, w.stations ++ [some new]⟩ : World cap ε).station? id = some r) :
    id = w.stations.length ∧ r = new := by
  have inside := (List.getElem?_eq_some_iff.mp (Option.join_eq_some_iff.mp there)).1
  rw [List.length_append, List.length_singleton] at inside
  obtain rfl : id = w.stations.length := by omega
  unfold station? at there
  dsimp only at there
  rw [List.getElem?_concat_length] at there
  exact ⟨rfl, (Option.some.inj there).symm⟩

/-- A rehearsal keeps up with every operation. -/
theorem rehearsed_next {ops : List (Op Rehearsal)} (proper : op.Rehearsed)
    (all : ∀ id s, (after cap ops).station? id = some s →
      s.Rehearsed (own id (journal cap ops))) {r : Station Rehearsal}
    (there : ((after cap ops).apply op).world.station? id = some r) :
    r.Rehearsed (own id (journal cap (ops ++ [op]))) := by
  rw [journal_concat, own_append]
  have effect := (after cap ops).effect op
  generalize applied : (after cap ops).apply op = o at effect there ⊢
  -- what is done to another worker, or to the link
  have kept (same : o.world.station? id = (after cap ops).station? id)
      (silent : own id o.entries = []) :
      r.Rehearsed (own id (journal cap ops) ++ own id o.entries) := by
    rw [silent, List.append_nil]
    exact all id r (same.symm.trans there)
  cases effect with
  | offer _ | nudge => exact kept rfl (own_entries_producer id _)
  | boot settings crew =>
      by_cases old : id < (after cap ops).stations.length
      · refine kept ?_ (own_entries_worker_of_ne (Nat.ne_of_lt old) _)
        unfold station?
        dsimp only
        rw [List.getElem?_append_left old]
      · obtain ⟨rfl, rfl⟩ := station?_born old there
        have unborn : own (after cap ops).stations.length (journal cap ops) = [] :=
          (everyone_nested ops).own_eq_nil (Nat.le_of_eq (List.length_map _))
        rw [unborn, own_entries_self]
        exact ⟨.boot settings proper, fun _ _ other => by cases other⟩
  | @polls _ other s mode here polls =>
      by_cases same : other = id
      · subst same
        obtain ⟨stands, nested⟩ := (everyone_nested ops).here (posts_of_station? here)
        obtain ⟨_, there', rehearsed, _⟩ :=
          rehearsed_polls here polls stands nested (all _ _ here).follows
        rw [applied] at there' rehearsed
        cases there'.symm.trans there
        exact rehearsed
      · rw [← applied, apply_polls here polls] at kept ⊢
        exact kept (station?_place_of_ne _ same _) (own_entries_worker_of_ne (Ne.symm same) _)
  | @cancel other s held here waits =>
      by_cases same : other = id
      · subst same
        rw [station?_place here] at there
        cases there
        have before := all _ _ here
        obtain ⟨mode, suspension⟩ := held
        -- no answer is lost with the step, for none was waited for
        obtain rfl := before.parked mode suspension waits
        have follows := before.follows
        simp only [Station.post, waits] at follows
        rw [own_nil, List.append_nil]
        exact ⟨⟨trivial, follows.opened, follows.live, follows.published⟩,
          fun _ _ other => by cases other⟩
      · exact kept (station?_place_of_ne _ same _) rfl
  | @amend other s here change =>
      by_cases same : other = id
      · subst same
        rw [station?_place here] at there
        cases there
        have before := all _ _ here
        rw [own_nil, List.append_nil]
        exact ⟨before.follows.of_record (proper s.crew), before.parked⟩
      · exact kept (station?_place_of_ne _ same _) rfl
  | @drop other _ found =>
      by_cases same : other = id
      · subst same
        have inside := (List.getElem?_eq_some_iff.mp found).1
        unfold place station? at there
        dsimp only at there
        rw [List.getElem?_set_self inside] at there
        cases there
      · exact kept (station?_place_of_ne _ same _) rfl
  | refused _ _ _ => exact kept rfl rfl

/-- A rehearsal keeps up with its worker in every history. -/
theorem rehearsed_after {ops : List (Op Rehearsal)} (proper : ∀ op ∈ ops, op.Rehearsed) :
    ∀ id s, (after cap ops).station? id = some s → s.Rehearsed (own id (journal cap ops)) := by
  induction ops using List.reverseRecOn with
  | nil =>
      intro id s here
      cases here
  | append_singleton ops op ih =>
      intro id s here
      rw [after_concat] at here
      exact rehearsed_next (proper op (by simp))
        (ih fun other there => proper other (List.mem_append_left _ there)) here

end World

/-- What waits for nothing but a wake has been told everything. -/
theorem Station.Rehearsed.informed {s : Station Rehearsal} {es : List Event}
    (rehearsed : s.Rehearsed es) : s.worker.informed s.post.point = s.worker := by
  unfold Station.post
  cases held : s.held with
  | none => rfl
  | some waits =>
      obtain ⟨mode, suspension⟩ := waits
      obtain rfl := rehearsed.parked mode suspension held
      rfl

/-- On a link with one worker all traffic is its own. -/
theorem traffic_own [Crew ε] {ops : List (Op ε)} (once : ops.countP Op.isBoot ≤ 1) :
    traffic (events (World.journal cap ops)) = traffic (own 0 (World.journal cap ops)) := by
  let holds (m : Moment cap) : Prop :=
    Coherent m ∧ traffic (events m.journal) = traffic (own 0 m.journal)
  -- that no other worker turns is known only together with the journal
  have both : holds ((World.after cap ops).moment (World.journal cap ops)) := by
    refine World.invariant ⟨.start, rfl⟩ (fun m n before next => ⟨before.1.next next, ?_⟩)
      (boots_once once)
    obtain ⟨coherent, same⟩ := before
    cases next with
    | feed fed => simp [same, traffic_quiet fed.quiet]
    | boot settings none => simp [same, none]
    | turn here _ | announce here =>
        obtain rfl := coherent.sole.only here
        simp [same]
    | cancel _ | drop _ => exact same
  exact both.2

theorem opened_traffic (es : List Event) : opened (traffic es) = opened es :=
  List.count_filter rfl

/-- A rehearsal has opened the sessions that the journal knows of. -/
theorem World.opened_after {ops : List (Op Rehearsal)} (once : ops.countP Op.isBoot ≤ 1)
    (proper : ∀ op ∈ ops, op.Rehearsed) {id : Nat} {s : Station Rehearsal}
    (here : (after cap ops).station? id = some s) :
    s.crew.opened.toNat = opened (events (journal cap ops)) := by
  have rehearsed := rehearsed_after proper id s here
  obtain ⟨_, nested⟩ := (everyone_nested ops).here (posts_of_station? here)
  obtain rfl := (coherent_after once).sole.only (posts_of_station? here)
  rw [rehearsed.follows.opened, rehearsed.informed, ← opened_traffic, traffic_own once,
    opened_traffic]
  exact nested.books.opened

/-- An operation ends early only if there is no number left for another session. -/
def WellUsed (cap : Nat) (before : List (Op Rehearsal)) (op : Op Rehearsal) : Prop :=
  ∀ violation, ((World.after cap before).apply op).reply = .progress (.violated violation) →
    violation = .crew Rehearsal.Misuse.openedOverflow.text ∧
      opened (events (World.journal cap (before ++ [op]))) = 4294967295

theorem wellUsed {ops : List (Op Rehearsal)} {op : Op Rehearsal}
    (once : (ops ++ [op]).countP Op.isBoot ≤ 1) (proper : ∀ other ∈ ops ++ [op], other.Rehearsed)
    (successive : (World.empty : World cap Rehearsal).Boots Retired ops)
    (few : Countable (World.journal cap (ops ++ [op]))) : WellUsed cap ops op := by
  intro violation reply
  -- the checks of the worker itself hold for every crew
  obtain ⟨_, _, text, _, rfl⟩ := uninterrupted ops op successive few violation reply
  obtain ⟨id, s, mode, here, polls⟩ := World.polls_of_progress reply
  obtain ⟨stands, nested⟩ := (everyone_nested ops).here (World.posts_of_station? here)
  have rehearsed := World.rehearsed_after
    (fun other there => proper other (List.mem_append_left _ there)) id s here
  obtain ⟨r, there, _, objects⟩ :=
    World.rehearsed_polls here polls stands nested rehearsed.follows
  obtain ⟨rfl, exhausted⟩ := objects text reply
  rw [← World.after_concat] at there
  refine ⟨rfl, ?_⟩
  rw [← World.opened_after once proper there, exhausted]
  rfl

/-- **Rehearsals find no misuse.** Let one worker be rehearsed with, whatever it is set to do
and whatever is to fail, and let its steps and runs be called, polled again and abandoned in
any order while batches are offered and wakes are posted. As long as the batches accepted can
be counted, no request of the worker violates a check: it opens no session while one is live,
publishes in no session and closes none but the last, and closes none that is not live. A poll
can end early only when it asks for a session and all the numbers there are have been given
out.

At all times one session is live if the worker holds one, and otherwise none. It is the session
that was opened last, and as many have been opened as the journal tells of. The batches that
were published are those that have been accepted and are not waiting any more, in the order in
which they were accepted. And a worker that waits does so at rest, so that to poll it once and
then abandon what it was doing takes nothing away from the rehearsal. -/
theorem rehearsals_find_no_misuse (ops : List (Op Rehearsal))
    (alone : ops.countP Op.isBoot = 1) (proper : ∀ op ∈ ops, op.Rehearsed)
    (few : Countable (World.journal cap ops)) :
    let journal := events (World.journal cap ops)
    let world := World.after cap ops
    Lawful (WellUsed cap) ops ∧
      ∀ id s, world.station? id = some s →
        s.crew.live = (if s.worker.session.isSome then 1 else 0) ∧
        (∀ session, s.worker.session = some session → session = s.crew.opened.toNat) ∧
        s.crew.opened.toNat = opened journal ∧
        (∃ gone, accepted journal = gone ++ world.link.waiting ∧
          s.crew.published = gone.map Batch.tag) ∧
        ∀ mode suspension, s.held = some (mode, suspension) → suspension = .parked := by
  intro journal world
  refine ⟨?_, fun id s here => ?_⟩
  · rintro before op after rfl
    rw [List.append_cons] at alone proper few
    rw [World.journal_append] at few
    rw [List.countP_append] at alone
    have successive : (World.empty : World cap Rehearsal).Boots Retired (before ++ [op] ++ after) :=
      boots_retired (by rw [List.countP_append]; exact alone)
    exact wellUsed (by omega) (fun other there => proper other (List.mem_append_left _ there))
      successive.of_append.of_append few.of_append
  · have once : ops.countP Op.isBoot ≤ 1 := Nat.le_of_eq alone
    have rehearsed := World.rehearsed_after proper id s here
    have there := World.posts_of_station? here
    obtain ⟨_, nested⟩ := (everyone_nested ops).here there
    obtain rfl := (coherent_after once).sole.only there
    have counted := rehearsed.follows.opened
    have lives := rehearsed.follows.live
    rw [rehearsed.informed] at counted lives
    have noted : s.crew.published = (handed journal).map Batch.tag := by
      rw [rehearsed.follows.published, ← handed_traffic journal, traffic_own once, handed_traffic]
    have balance : accepted journal = handed journal ++ world.link.waiting :=
      balance_of_replay (replay_journal ops)
    exact ⟨lives, fun session held => (nested.books.latest held).trans counted.symm,
      World.opened_after once proper here, ⟨handed journal, balance, noted⟩, rehearsed.parked⟩

/-- Two sessions are opened and the first one is closed, though that fails. The worker halts
with the second, in which the batch with tag 8 has been refused; an empty batch is left. -/
theorem rehearsals_find_no_misuse_halting :
    let ops : List (Op Rehearsal) :=
      [.boot {} { failConnects := 1, failPublishAt := some 1, failClose := true, failStop := true },
        .offer (.tagged 7), .launch 0 .run, .cancel 0, .offer (.tagged 8), .offer .empty,
        .launch 0 .run]
    let world := World.after 2 ops
    ops.countP Op.isBoot = 1 ∧ (∀ op ∈ ops, op.Rehearsed) ∧ Countable (World.journal 2 ops) ∧
      ∃ s, world.station? 0 = some s ∧ s.worker.phase = .fatal ∧ s.worker.session = some 2 ∧
        s.crew.live = 1 ∧ s.crew.opened = 2 ∧ s.crew.published = [7, 8] ∧
        world.link.waiting = [.empty] := by
  intro ops world
  have alone : ops.countP Op.isBoot = 1 := rfl
  have proper : ∀ op ∈ ops, op.Rehearsed := by
    simp [ops, Op.Rehearsed, Rehearsal.record]
  have few : Countable (World.journal 2 ops) := by
    unfold Countable
    decide +kernel
  have stands : (world.station? 0).map (fun s => (s.worker.phase, s.worker.session)) =
      some (.fatal, some 2) := by
    decide +kernel
  have queue : accepted (events (World.journal 2 ops)) = [.tagged 7, .tagged 8, .empty] ∧
      world.link.waiting = [.empty] := by
    decide +kernel
  obtain ⟨s, here, same⟩ := Option.map_eq_some_iff.mp stands
  obtain ⟨phase, session⟩ := Prod.mk.inj same
  obtain ⟨_, books⟩ := rehearsals_find_no_misuse ops alone proper few
  obtain ⟨live, latest, _, ⟨gone, balance, published⟩, _⟩ := books 0 s here
  have opened : s.crew.opened = 2 := UInt32.toNat.inj (latest 2 session).symm
  have tags : gone = [.tagged 7, .tagged 8] := by
    change _ = gone ++ world.link.waiting at balance
    rw [queue.1, queue.2] at balance
    have split : [.tagged 7, .tagged 8] ++ [.empty] = gone ++ [.empty] := balance
    exact (List.append_cancel_right split).symm
  rw [session] at live
  rw [tags] at published
  exact ⟨alone, proper, few, s, here, phase, session, live, opened, published, queue.2⟩

end StoreForward
