import Mathlib.Logic.Relation
import StoreForward.Proofs.Drive

/-!
# Moments of a history

An operation on a world may make a worker go through any number of moves, and
what is claimed of a link is mostly claimed of every moment, those between
two moves included. A `Moment` is a world without crews, with every worker at
the point where it stands, together with the journal so far; `Moment.Next` is
the smallest change there is: one turn of one worker, batches or wakes from
the producer, a worker booted, abandoning a step, or dropped.

`World.leads` shows that a history of operations goes through moments only,
so that whatever holds at first and is kept by `Moment.Next` holds after
every history (`World.invariant`). A history may be restricted in when it
boots workers: `World.Boots may ops` says that each boot finds the workers in
use as `may` demands. What may happen between two moments depends on it only
for boots.

An operation that polls a worker, be it the first poll of a step or run or a
later one, is a drive and a last move like any poll (`World.apply_driven`), and
the drive goes from moment to moment as well. So the last move is made at a
moment of the history, where every invariant holds.

## Main definitions

* `Moment`, `Moment.Next` — moments, and what leads from one to the next.
* `Op.Polls` — the operation polls a worker.
* `World.Effect` — the ways in which an operation ends.
* `World.Boots` — when a history boots workers.

## Main results

* `World.effect` — what an operation can come to.
* `World.apply_driven`, `World.driven_leads` — what an operation does that
  polls a worker, and that its drive goes from moment to moment.
* `World.leads` — a history goes from moment to moment.
* `World.invariant` — what every next moment keeps holds after a history.
-/

namespace StoreForward

variable {cap : Nat} {ε : Type}

/-- A worker and where it stands. -/
structure Post where
  worker : Worker
  point : Point

/-- A link, the workers on it where they stand, and the journal so far. -/
structure Moment (cap : Nat) where
  link : Link cap := .fresh
  posts : List (Option Post) := []
  journal : List Entry := []

/-- A worker found after something was put in a place is what was put there,
or stood elsewhere before. -/
theorem post_of_set {posts : List (Option Post)} {id other : Nat} {place : Option Post}
    {post : Post} (there : (posts.set id place)[other]? = some (some post)) :
    (id = other ∧ place = some post) ∨ (id ≠ other ∧ posts[other]? = some (some post)) := by
  by_cases same : id = other
  · subst same
    obtain ⟨inside, found⟩ := List.getElem?_eq_some_iff.mp there
    rw [List.getElem_set_self] at found
    exact .inl ⟨rfl, found⟩
  · rw [List.getElem?_set_ne same] at there
    exact .inr ⟨same, there⟩

/-- Events with their common cause. -/
def entries (cause : Cause) (es : List Event) : List Entry := es.map fun e => e.causedBy cause

@[simp] theorem entries_nil (cause : Cause) : entries cause [] = [] := rfl

@[simp] theorem entries_append (cause : Cause) (es fs : List Event) :
    entries cause (es ++ fs) = entries cause es ++ entries cause fs :=
  List.map_append

/-- What leads from a moment to the next, where workers are booted only if
the workers in use are as `may` demands. -/
inductive Moment.Next (may : List (Option Post) → Prop) (m : Moment cap) :
    Moment cap → Prop where
  /-- The producer offers batches, the platform posts wakes. -/
  | feed {l : Link cap} {es : List Event} (fed : m.link.Fed es l) :
      Next may m ⟨l, m.posts, m.journal ++ entries .producer es⟩
  | boot (settings : Settings) (allowed : may m.posts) :
      Next may m ⟨{ m.link with status := { m.link.status with phase := .start } },
        m.posts ++ [some ⟨.boot settings, .outset⟩],
        m.journal ++ entries (.worker m.posts.length) [.booted settings]⟩
  | turn {id : Nat} {w w' : Worker} {p q : Point} {es : List Event} {l : Link cap}
      (here : m.posts[id]? = some (some ⟨w, p⟩)) (turn : Turn m.link w p es l w' q) :
      Next may m ⟨l, m.posts.set id (some ⟨w', q⟩), m.journal ++ entries (.worker id) es⟩
  /-- A run announces itself. -/
  | announce {id : Nat} {w : Worker} (here : m.posts[id]? = some (some ⟨w, .outset⟩)) :
      Next may m ⟨m.link, m.posts, m.journal ++ entries (.worker id) [.noticed .workerStarted]⟩
  | cancel {id : Nat} {w : Worker} {suspension : Suspension}
      (here : m.posts[id]? = some (some ⟨w, .waiting suspension⟩)) :
      Next may m ⟨m.link, m.posts.set id (some ⟨w, .outset⟩), m.journal⟩
  | drop (id : Nat) : Next may m ⟨m.link, m.posts.set id none, m.journal⟩

/-- From one moment to a later one. -/
abbrev Moment.Leads (may : List (Option Post) → Prop) : Moment cap → Moment cap → Prop :=
  Relation.ReflTransGen (Moment.Next may)

/-- What every next moment keeps holds at all later ones. -/
theorem Moment.Leads.keeps {may : List (Option Post) → Prop} {m n : Moment cap}
    {I : Moment cap → Prop} (path : m.Leads may n)
    (next : ∀ m n : Moment cap, I m → m.Next may n → I n) (holds : I m) : I n := by
  induction path with
  | refl => exact holds
  | tail _ step ih => exact next _ _ ih step

/-! ## Polls -/

/-- Where a worker stands after a poll. -/
def Progress.next : Progress → Point
  | pending suspension => .waiting suspension
  | stepped _ => .outset
  | halted _ => .outset
  | violated _ => .outset

section Poll

/-- Where a poll leaves a worker is where its last move leads. -/
theorem Ends.next_eq {mode : Mode} {t : Site cap ε} {verdict : Verdict} {progress : Progress}
    (ends : Ends mode t verdict progress) : progress.next = verdict.next := by
  cases ends <;> rfl

variable [Crew ε] (may : List (Option Post) → Prop)

/-- A move leads to the next moment. -/
theorem Site.move_next (s : Site cap ε) (p : Point) {posts : List (Option Post)}
    (journal : List Entry) {id : Nat} (here : posts[id]? = some (some ⟨s.worker, p⟩)) :
    Moment.Next may ⟨s.link, posts, journal⟩
      ⟨(s.move p).site.link,
        posts.set id (some ⟨(s.move p).site.worker, (s.move p).verdict.next⟩),
        journal ++ entries (.worker id) (s.move p).events⟩ :=
  .turn here (s.turn_move p)

/-- A drive goes from moment to moment. -/
theorem Site.Driven.leads {mode : Mode} {s t : Site cap ε}
    {p q : Point} {es : List Event} (driven : s.Driven mode p es t q) :
    ∀ {posts : List (Option Post)} (journal : List Entry) {id : Nat},
      posts[id]? = some (some ⟨s.worker, p⟩) →
      Moment.Leads may ⟨s.link, posts, journal⟩
        ⟨t.link, posts.set id (some ⟨t.worker, q⟩), journal ++ entries (.worker id) es⟩ := by
  induction driven with
  | stay s p =>
      intro posts journal id here
      obtain ⟨inside, there⟩ := List.getElem?_eq_some_iff.mp here
      rw [← there, List.set_getElem_self, entries_nil, List.append_nil]
  | @move s t p q es onward _ ih =>
      intro posts journal id here
      have first := s.move_next may p journal here
      have rest := ih (journal ++ entries (.worker id) (s.move p).events)
        (List.getElem?_set_self (List.getElem?_eq_some_iff.mp here).1)
      rw [List.set_set, List.append_assoc, ← entries_append] at rest
      exact .head first rest

end Poll

/-! ## Operations -/

/-- The outcome with what happened before it. -/
def Outcome.after (o : Outcome cap ε) (before : List Entry) : Outcome cap ε :=
  { o with entries := before ++ o.entries }

theorem Outcome.after_after (o : Outcome cap ε) (before earlier : List Entry) :
    (o.after before).after earlier = o.after (earlier ++ before) := by
  unfold after
  rw [List.append_assoc]

/-- Where a worker that is not in the middle of a poll stands. -/
def Station.post (s : Station ε) : Post where
  worker := s.worker
  point := match s.held with
    | none => .outset
    | some (_, suspension) => .waiting suspension

theorem Station.point_of_free {s : Station ε} (free : s.held = none) : s.post.point = .outset := by
  rw [post, free]

/-- The operation boots a worker. -/
def Op.isBoot : Op ε → Bool
  | .boot _ _ => true
  | _ => false

/-- The operation polls a worker: it starts a step or a run of one that is not
held, or goes on with the one that is. -/
inductive Op.Polls (id : Nat) (s : Station ε) (mode : Mode) : Op ε → Prop where
  | fresh (free : s.held = none) : Polls id s mode (.launch id mode)
  | again {suspension : Suspension} (held : s.held = some (mode, suspension)) :
      Polls id s mode (.poll id)

/-- What an operation announces before anything else happens. -/
def Op.announced : Op ε → List Event
  | .launch _ .run => [.noticed .workerStarted]
  | _ => []

/-- The worker that an operation tears away from its step, if it is in one. -/
def Op.abandoned? : Op ε → Option Nat
  | .cancel id | .drop id => some id
  | _ => none

theorem Op.Polls.isBoot_eq {op : Op ε} {id : Nat} {s : Station ε} {mode : Mode}
    (polls : op.Polls id s mode) : op.isBoot = false := by
  cases polls <;> rfl

namespace World

/-- The workers of a world where they stand. -/
def posts (w : World cap ε) : List (Option Post) := w.stations.map (Option.map Station.post)

/-- A world with a journal as a moment. -/
def moment (w : World cap ε) (journal : List Entry) : Moment cap :=
  ⟨w.link, w.posts, journal⟩

theorem posts_of_station? {w : World cap ε} {id : Nat} {s : Station ε}
    (here : w.station? id = some s) : w.posts[id]? = some (some s.post) := by
  have there : w.stations[id]? = some (some s) := Option.join_eq_some_iff.mp here
  simp [posts, there]

/-- Whoever stands in a place is the worker with that number. -/
theorem station?_of_post {w : World cap ε} {id : Nat} {post : Post}
    (there : w.posts[id]? = some (some post)) : ∃ s, w.station? id = some s ∧ s.post = post := by
  rw [posts, List.getElem?_map] at there
  obtain ⟨place, found, same⟩ := Option.map_eq_some_iff.mp there
  obtain ⟨s, rfl, stands⟩ := Option.map_eq_some_iff.mp same
  exact ⟨s, Option.join_eq_some_iff.mpr found, stands⟩

/-- A worker that is not held stands at the outset of a step. -/
theorem posts_of_free {w : World cap ε} {id : Nat} {s : Station ε}
    (here : w.station? id = some s) (free : s.held = none) :
    w.posts[id]? = some (some ⟨s.worker, .outset⟩) := by
  rw [posts_of_station? here, Station.post, free]

/-- One that is held stands where it waits. -/
theorem posts_of_held {w : World cap ε} {id : Nat} {mode : Mode} {suspension : Suspension}
    {s : Station ε} (here : w.station? id = some s) (held : s.held = some (mode, suspension)) :
    w.posts[id]? = some (some ⟨s.worker, .waiting suspension⟩) := by
  rw [posts_of_station? here, Station.post, held]

theorem posts_place (w : World cap ε) (id : Nat) (s : Option (Station ε)) :
    (w.place id s).posts = w.posts.set id (s.map Station.post) :=
  List.map_set

/-- What a poll leaves behind. -/
theorem moment_absorb (w : World cap ε) (id : Nat) (mode : Mode) (p : Polled cap ε)
    (journal : List Entry) :
    (w.absorb id mode p).world.moment journal =
      ⟨p.site.link, w.posts.set id (some ⟨p.site.worker, p.progress.next⟩), journal⟩ := by
  unfold absorb moment
  dsimp only
  rw [posts_place]
  cases p.progress <;> rfl

theorem entries_absorb (w : World cap ε) (id : Nat) (mode : Mode) (o : Polled cap ε) :
    (w.absorb id mode o).entries = entries (.worker id) o.events := rfl

/-- What a poll leaves behind replaces what the one before has left. -/
theorem absorb_absorb (w : World cap ε) (id : Nat) (mode : Mode)
    (o o' : Polled cap ε) :
    (w.absorb id mode o).world.absorb id mode o' = w.absorb id mode o' := by
  unfold absorb place
  dsimp only
  rw [List.set_set]

theorem absorb_after (w : World cap ε) (id : Nat) (mode : Mode) (o : Polled cap ε)
    (es : List Event) :
    w.absorb id mode (o.after es) =
      (w.absorb id mode o).after (entries (.worker id) es) := by
  unfold absorb Polled.after Outcome.after
  dsimp only
  rw [List.map_append]
  rfl

variable [Crew ε]

/-- Every boot in a history finds the workers in use as `may` demands. -/
def Boots (may : List (Option Post) → Prop) : World cap ε → List (Op ε) → Prop
  | _, [] => True
  | w, op :: rest => (op.isBoot = true → may w.posts) ∧ Boots may (w.apply op).world rest

instance decidableBoots (may : List (Option Post) → Prop) [DecidablePred may] :
    ∀ (w : World cap ε) (ops : List (Op ε)), Decidable (w.Boots may ops)
  | _, [] => isTrue trivial
  | w, op :: rest =>
    have := decidableBoots may (w.apply op).world rest
    inferInstanceAs
      (Decidable ((op.isBoot = true → may w.posts) ∧ (w.apply op).world.Boots may rest))

/-- A history may boot workers whenever it likes. -/
theorem boots_any (ops : List (Op ε)) :
    ∀ w : World cap ε, w.Boots (fun _ => True) ops := by
  induction ops with
  | nil => exact fun _ => trivial
  | cons op rest ih => exact fun w => ⟨fun _ => trivial, ih _⟩

/-- A history that boots no worker. -/
theorem boots_none (ops : List (Op ε)) (may : List (Option Post) → Prop) :
    ∀ w : World cap ε, ops.countP Op.isBoot = 0 → w.Boots may ops := by
  induction ops with
  | nil => exact fun _ _ => trivial
  | cons op rest ih =>
      intro w none
      rw [List.countP_cons] at none
      refine ⟨fun boot => ?_, ih _ (by omega)⟩
      rw [if_pos boot] at none
      omega

/-- A history that boots one worker finds no other in use. -/
theorem boots_alone (ops : List (Op ε)) : ∀ w : World cap ε, w.stations = [] →
    ops.countP Op.isBoot = 1 → w.Boots (fun posts => posts = []) ops := by
  induction ops with
  | nil => exact fun _ _ _ => trivial
  | cons op rest ih =>
      intro w none once
      rw [List.countP_cons] at once
      have alone : w.posts = [] := by rw [posts, none]; rfl
      refine ⟨fun _ => alone, ?_⟩
      by_cases boot : op.isBoot = true
      · rw [if_pos boot] at once
        exact boots_none rest _ _ (by omega)
      · rw [if_neg boot] at once
        have absent : ∀ id, w.station? id = Option.none := fun id => by
          rw [station?, none]
          rfl
        refine ih _ ?_ once
        cases op with
        | boot _ _ => exact absurd rfl boot
        | drop id => simp [apply, none]
        | offer _ | nudge => exact none
        | launch id _ | poll id | cancel id | amend id _ => simp [apply, absent id, none]

section Polls

variable {w : World cap ε} {op : Op ε} {id : Nat} {s : Station ε} {mode : Mode}

/-- What polls a worker is one poll of it, from where it stands. -/
theorem apply_polls (here : w.station? id = some s) (polls : op.Polls id s mode) :
    w.apply op = w.absorb id mode (((w.site s).poll mode s.post.point).after op.announced) := by
  cases polls with
  | fresh free =>
      simp only [apply, here, free, Station.post]
      cases mode <;> rfl
  | again held =>
      simp only [apply, here, held, Station.post]
      rfl

/-- What an operation comes to. A worker is polled, abandons its step, gets another crew
or is dropped only if it is there and, where it matters, held; what cannot be carried
out is refused, and changes nothing. -/
inductive Effect (w : World cap ε) : Op ε → Outcome cap ε → Prop where
  | offer (batch : Batch) :
      Effect w (.offer batch) ⟨{ w with link := (w.link.offer batch).1 },
        .accepted (w.link.offer batch).2.1, entries .producer (w.link.offer batch).2.2⟩
  | nudge :
      Effect w .nudge ⟨{ w with link := w.link.nudge.1 }, .accepted w.link.nudge.2.1,
        entries .producer w.link.nudge.2.2⟩
  | boot (settings : Settings) (crew : ε) :
      Effect w (.boot settings crew)
        ⟨⟨{ w.link with status := { w.link.status with phase := .start } },
          w.stations ++ [some ⟨.boot settings, crew, none⟩]⟩,
          .booted w.stations.length, entries (.worker w.stations.length) [.booted settings]⟩
  | polls {op : Op ε} {id : Nat} {s : Station ε} {mode : Mode}
      (here : w.station? id = some s) (polls : op.Polls id s mode) : Effect w op (w.apply op)
  | cancel {id : Nat} {s : Station ε} {held : Mode × Suspension}
      (here : w.station? id = some s) (waits : s.held = some held) :
      Effect w (.cancel id) ⟨w.place id (some { s with held := none }), .cancelled, []⟩
  | amend {id : Nat} {s : Station ε} (here : w.station? id = some s) (change : ε → ε) :
      Effect w (.amend id change)
        ⟨w.place id (some { s with crew := change s.crew }), .done, []⟩
  | drop {id : Nat} {place : Option (Station ε)} (there : w.stations[id]? = some place) :
      Effect w (.drop id) ⟨w.place id none, .done, []⟩
  | refused {op : Op ε} {reply : Reply} (unbooted : op.isBoot = false)
      (unpolled : ∀ progress, reply ≠ .progress progress)
      (free : ∀ id, op.abandoned? = some id → ∀ s, w.station? id = some s → s.held = none) :
      Effect w op ⟨w, reply, []⟩

/-- There is nothing else that an operation can come to. -/
theorem effect (w : World cap ε) (op : Op ε) : w.Effect op (w.apply op) := by
  have gone {id : Nat} (nobody : w.station? id = none) :
      ∀ s, w.station? id = some s → s.held = none := by
    intro s here
    rw [nobody] at here
    cases here
  cases op with
  | offer batch => exact .offer batch
  | nudge => exact .nudge
  | boot settings crew => exact .boot settings crew
  | launch id mode =>
      cases here : w.station? id with
      | none =>
          simp only [apply, here]
          exact .refused rfl (fun _ => Reply.noConfusion) fun _ other => by cases other
      | some s =>
          cases held : s.held with
          | none => exact .polls here (.fresh held)
          | some _ =>
              simp only [apply, here, held]
              exact .refused rfl (fun _ => Reply.noConfusion) fun _ other => by cases other
  | poll id =>
      cases here : w.station? id with
      | none =>
          simp only [apply, here]
          exact .refused rfl (fun _ => Reply.noConfusion) fun _ other => by cases other
      | some s =>
          cases held : s.held with
          | none =>
              simp only [apply, here, held]
              exact .refused rfl (fun _ => Reply.noConfusion) fun _ other => by cases other
          | some _ => exact .polls here (.again held)
  | cancel id =>
      cases here : w.station? id with
      | none =>
          simp only [apply, here]
          refine .refused rfl (fun _ => Reply.noConfusion) fun _ same => ?_
          cases same
          exact gone here
      | some s =>
          cases held : s.held with
          | none =>
              simp only [apply, here, held]
              refine .refused rfl (fun _ => Reply.noConfusion) fun _ same t there => ?_
              cases same
              cases here.symm.trans there
              exact held
          | some _ =>
              simp only [apply, here, held]
              exact .cancel here held
  | amend id change =>
      cases here : w.station? id with
      | none =>
          simp only [apply, here]
          exact .refused rfl (fun _ => Reply.noConfusion) fun _ other => by cases other
      | some s =>
          simp only [apply, here]
          exact .amend here change
  | drop id =>
      cases there : w.stations[id]? with
      | none =>
          simp only [apply, there]
          refine .refused rfl (fun _ => Reply.noConfusion) fun _ same => ?_
          cases same
          exact gone (by rw [station?, there]; rfl)
      | some _ =>
          simp only [apply, there]
          exact .drop there

/-- Only an operation that polls a worker replies how far it got. -/
theorem polls_of_progress {progress : Progress}
    (reply : (w.apply op).reply = .progress progress) :
    ∃ id s mode, w.station? id = some s ∧ op.Polls id s mode := by
  have effect := w.effect op
  generalize w.apply op = o at effect reply
  cases effect with
  | polls here polls => exact ⟨_, _, _, here, polls⟩
  | refused _ unpolled _ => exact absurd reply (unpolled progress)
  | _ => cases reply

/-- What polls a worker drives it, and is over with a last move. -/
theorem apply_driven (here : w.station? id = some s) (polls : op.Polls id s mode) :
    ∃ es t q progress, (w.site s).Driven mode s.post.point es t q ∧
      w.apply op = w.absorb id mode
        ⟨(t.move q).site, op.announced ++ (es ++ (t.move q).events), progress⟩ ∧
      Ends mode (t.move q).site (t.move q).verdict progress := by
  obtain ⟨es, t, q, progress, driven, poll, ends⟩ := (w.site s).poll_driven mode s.post.point
  refine ⟨es, t, q, progress, driven, ?_, ends⟩
  rw [apply_polls here polls, poll]
  rfl

variable (may : List (Option Post) → Prop)

/-- A drive goes from moment to moment, and so does what is announced before
it. -/
theorem driven_leads (here : w.station? id = some s)
    (polls : op.Polls id s mode) {es : List Event} {t : Site cap ε} {q : Point}
    (driven : (w.site s).Driven mode s.post.point es t q) (journal : List Entry) :
    Moment.Leads may (w.moment journal)
      ⟨t.link, w.posts.set id (some ⟨t.worker, q⟩),
        journal ++ entries (.worker id) (op.announced ++ es)⟩ := by
  have there := posts_of_station? here
  have drive := driven.leads may (journal ++ entries (.worker id) op.announced) there
  rw [List.append_assoc, ← entries_append] at drive
  refine .trans ?_ drive
  cases polls with
  | again _ =>
      show Moment.Leads may _ ⟨w.link, w.posts, journal ++ []⟩
      rw [List.append_nil]
      exact .refl
  | fresh free =>
      cases mode with
      | step =>
          show Moment.Leads may _ ⟨w.link, w.posts, journal ++ []⟩
          rw [List.append_nil]
          exact .refl
      | run =>
          simp only [Station.post, free] at there
          exact .single (.announce there)

/-- An operation that polls a worker goes from moment to moment. -/
theorem polls_leads (here : w.station? id = some s) (polls : op.Polls id s mode)
    (journal : List Entry) :
    Moment.Leads may (w.moment journal)
      ((w.apply op).world.moment (journal ++ (w.apply op).entries)) := by
  obtain ⟨es, t, q, progress, driven, applied, ends⟩ := apply_driven here polls
  have drive := driven_leads may here polls driven journal
  have last := t.move_next may q (journal ++ entries (.worker id) (op.announced ++ es))
    (List.getElem?_set_self (List.getElem?_eq_some_iff.mp (posts_of_station? here)).1)
  rw [List.set_set, List.append_assoc, ← entries_append, List.append_assoc,
    ← ends.next_eq] at last
  rw [applied, moment_absorb, entries_absorb]
  exact drive.tail last

end Polls

variable (may : List (Option Post) → Prop)

/-- An operation goes from moment to moment. -/
theorem apply_leads (w : World cap ε) (op : Op ε) (journal : List Entry)
    (allowed : op.isBoot = true → may w.posts) :
    Moment.Leads may (w.moment journal)
      ((w.apply op).world.moment (journal ++ (w.apply op).entries)) := by
  have effect := w.effect op
  generalize w.apply op = o at effect ⊢
  cases effect with
  | offer batch => exact .single (.feed (w.link.fed_offer batch))
  | nudge => exact .single (.feed w.link.fed_nudge)
  | boot settings crew =>
      have next := Moment.Next.boot (m := w.moment journal) settings (allowed rfl)
      unfold moment posts at next ⊢
      rw [List.length_map] at next
      dsimp only at next ⊢
      rw [List.map_append]
      exact .single next
  | polls here polls => exact polls_leads may here polls journal
  | cancel here held =>
      have there := posts_of_held here held
      simp only [List.append_nil, moment, posts_place]
      exact .single (.cancel there)
  | @amend id s here change =>
      have same : (w.place id (some { s with crew := change s.crew })).posts = w.posts := by
        obtain ⟨inside, there⟩ := List.getElem?_eq_some_iff.mp (posts_of_station? here)
        rw [posts_place]
        show w.posts.set id (some s.post) = w.posts
        rw [← there, List.set_getElem_self]
      simp only [moment, same, List.append_nil]
      exact .refl
  | @drop id _ _ =>
      simp only [moment, posts_place, List.append_nil]
      exact .single (.drop id)
  | refused _ _ _ => rw [List.append_nil]

/-- A history goes from moment to moment. -/
theorem leads (ops : List (Op ε)) : ∀ (w : World cap ε) (journal : List Entry),
    w.Boots may ops →
    Moment.Leads may (w.moment journal)
      ((w.applyAll ops).1.moment (journal ++ (w.applyAll ops).2)) := by
  induction ops with
  | nil =>
      intro w journal _
      show Moment.Leads may (w.moment journal) (w.moment (journal ++ []))
      rw [List.append_nil]
  | cons op rest ih =>
      intro w journal boots
      have first := w.apply_leads may op journal boots.1
      have more := ih _ (journal ++ (w.apply op).entries) boots.2
      rw [List.append_assoc] at more
      exact first.trans more

/-- The world after a history on a fresh link. -/
def after (cap : Nat) (ops : List (Op ε)) : World cap ε := (empty.applyAll ops).1

/-- The journal of a history on a fresh link. -/
def journal (cap : Nat) (ops : List (Op ε)) : List Entry :=
  ((empty : World cap ε).applyAll ops).2

theorem after_append (first second : List (Op ε)) :
    after cap (first ++ second) = ((after cap first).applyAll second).1 := by
  unfold after
  rw [applyAll_append]

theorem journal_append (first second : List (Op ε)) :
    journal cap (first ++ second) =
      journal cap first ++ ((after cap first).applyAll second).2 := by
  unfold after journal
  rw [applyAll_append]

/-- A history with one more operation. -/
theorem after_concat (ops : List (Op ε)) (op : Op ε) :
    after cap (ops ++ [op]) = ((after cap ops).apply op).world :=
  after_append ops [op]

theorem journal_concat (ops : List (Op ε)) (op : Op ε) :
    journal cap (ops ++ [op]) = journal cap ops ++ ((after cap ops).apply op).entries := by
  rw [journal_append]
  exact congrArg _ (List.append_nil _)

variable {may}

/-- The beginning of a history boots workers as the whole does. -/
theorem Boots.of_append {first second : List (Op ε)} : ∀ {w : World cap ε},
    w.Boots may (first ++ second) → w.Boots may first := by
  induction first with
  | nil => exact fun _ => trivial
  | cons op rest ih => exact fun boots => ⟨boots.1, ih boots.2⟩

/-- And so does the rest of it, in the world that the beginning has led to. -/
theorem Boots.rest {first second : List (Op ε)} : ∀ {w : World cap ε},
    w.Boots may (first ++ second) → (w.applyAll first).1.Boots may second := by
  induction first with
  | nil => exact fun boots => boots
  | cons op rest ih => exact fun boots => ih boots.2

/-- A history that boots workers under a stricter condition. -/
theorem Boots.weaken {other : List (Option Post) → Prop}
    (weaker : ∀ posts, may posts → other posts) {ops : List (Op ε)} :
    ∀ {w : World cap ε}, w.Boots may ops → w.Boots other ops := by
  induction ops with
  | nil => exact fun _ => trivial
  | cons op rest ih => exact fun boots => ⟨fun boot => weaker _ (boots.1 boot), ih boots.2⟩

/-- A history leads from nothing to its end. -/
theorem leads_after {ops : List (Op ε)} (boots : (empty : World cap ε).Boots may ops) :
    Moment.Leads may {} ((after cap ops).moment (journal cap ops)) :=
  leads may ops empty [] boots

/-- What holds at first and is kept from each moment to the next holds after
every history. -/
theorem invariant {I : Moment cap → Prop} (first : I {})
    (next : ∀ m n : Moment cap, I m → Moment.Next may m n → I n) {ops : List (Op ε)}
    (boots : (empty : World cap ε).Boots may ops) :
    I ((after cap ops).moment (journal cap ops)) :=
  (leads_after boots).keeps next first

end World

end StoreForward
