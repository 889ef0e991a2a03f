import StoreForward.Proofs.Moment

/-!
# Reading a journal

Statements about histories are statements about their journals: what a
worker has called for, which batches have been accepted, what happened since
a step began. A rule that every event has to obey, given the events before
it, is a `Lawful` journal; it then holds at every moment at which anything
happens, and not only where an operation ends.

Most rules concern one worker and look only at its `own` events. For those
`World.own_invariant` is enough: a property of a worker, the point where it
stands and its own events that every turn keeps holds for every worker of
every history, however the workers, the producer and the crews get in each
other's way, and for the worker that has been dropped it holds as it was.

## Main definitions

* `Lawful` — every event obeys a rule, given those before it.
* `own` — the events of one worker.
* `Without` — lists without events of some kind: `Remarks`, `Asides`, `Quiet`.

## Main results

* `World.own_invariant` — from turns of one worker to histories of many.
-/

namespace StoreForward

variable {cap : Nat} {ε : Type}

/-! ## Rules -/

section Rules

variable {α : Type}

/-- Every event obeys a rule, given the events before it. -/
def Lawful (rule : List α → α → Prop) (es : List α) : Prop :=
  ∀ before e after, es = before ++ e :: after → rule before e

theorem lawful_nil (rule : List α → α → Prop) : Lawful rule [] := by
  intro before e after split
  cases before <;> cases split

theorem lawful_cons {rule : List α → α → Prop} {e : α} {es : List α} :
    Lawful rule (e :: es) ↔ rule [] e ∧ Lawful (fun before => rule (e :: before)) es := by
  constructor
  · intro law
    refine ⟨law [] e es rfl, ?_⟩
    intro before f after split
    exact law (e :: before) f after (by rw [split]; rfl)
  · rintro ⟨first, rest⟩ before f after split
    cases before with
    | nil =>
        cases split
        exact first
    | cons g before =>
        cases split
        exact rest before f after rfl

theorem lawful_append {es fs : List α} : ∀ {rule : List α → α → Prop},
    Lawful rule (es ++ fs) ↔
      Lawful rule es ∧ Lawful (fun before => rule (es ++ before)) fs := by
  induction es with
  | nil => simp [lawful_nil]
  | cons e es ih => simp [lawful_cons, ih, and_assoc]

/-- A rule that holds whatever came before. -/
theorem Lawful.of_forall {rule : List α → α → Prop} {es : List α}
    (each : ∀ e ∈ es, ∀ before, rule before e) : Lawful rule es := by
  rintro before e after rfl
  exact each e (by simp) before

end Rules

/-! ## The last stretch of a list -/

section Since

variable {α : Type}

/-- One more element, which may mark a new beginning. -/
def sinceStep (mark : α → Bool) (seen : List α) (e : α) : List α :=
  if mark e then [] else seen ++ [e]

/-- What comes after the last element that marks a new beginning; everything
if there is none. -/
def since (mark : α → Bool) (es : List α) : List α := es.foldl (sinceStep mark) []

theorem foldl_sinceStep {mark : α → Bool} {fs : List α} :
    ∀ seen : List α, (∀ e ∈ fs, mark e = false) →
      fs.foldl (sinceStep mark) seen = seen ++ fs := by
  induction fs with
  | nil => simp
  | cons e fs ih =>
      intro seen none
      have first : sinceStep mark seen e = seen ++ [e] := by
        simp [sinceStep, none e]
      rw [List.foldl_cons, first, ih _ fun f there => none f (by simp [there])]
      simp

/-- Nothing marks a new beginning. -/
theorem since_append {mark : α → Bool} {fs : List α} (es : List α)
    (none : ∀ e ∈ fs, mark e = false) : since mark (es ++ fs) = since mark es ++ fs := by
  rw [since, List.foldl_append, foldl_sinceStep _ none]
  rfl

/-- After a mark everything else is gone, if no other mark follows. -/
theorem since_append_cons {mark : α → Bool} {e : α} {fs : List α} (es : List α)
    (here : mark e = true) (none : ∀ f ∈ fs, mark f = false) :
    since mark (es ++ e :: fs) = fs := by
  rw [since, List.foldl_append, List.foldl_cons, foldl_sinceStep _ none]
  simp [sinceStep, here]

end Since

/-! ## Events of no kind -/

/-- No event is of a kind. -/
def Without (kind : Event → Bool) (es : List Event) : Prop := ∀ e ∈ es, kind e = false

section Without

variable {kind : Event → Bool} {e : Event} {es fs : List Event}

@[simp] theorem without_nil : Without kind [] := by simp [Without]

@[simp] theorem without_cons :
    Without kind (e :: es) ↔ kind e = false ∧ Without kind es := by
  simp [Without]

@[simp] theorem without_append :
    Without kind (es ++ fs) ↔ Without kind es ∧ Without kind fs := by
  simp [Without, or_imp, forall_and]

/-- What ignores events of no kind ignores any number of them. -/
theorem foldl_without {α : Type} {f : α → Event → α}
    (ignores : ∀ a e, kind e = false → f a e = a) (without : Without kind es) :
    ∀ a : α, es.foldl f a = a := by
  induction es with
  | nil => exact fun _ => rfl
  | cons e es ih =>
      intro a
      obtain ⟨first, rest⟩ := without_cons.mp without
      rw [List.foldl_cons, ignores a e first]
      exact ih rest a

theorem Without.weaken (without : Without kind es) {other : Event → Bool}
    (weaker : ∀ e, kind e = false → other e = false) : Without other es :=
  fun e there => weaker e (without e there)

/-! What is put together in several places is of no kind if its parts are not. -/

theorem without_hinting (hinted : ∀ hint, kind (.hinted hint) = false)
    (on : kind (.noticed .lowPowerAllowed) = false)
    (off : kind (.noticed .lowPowerDisallowed) = false) (was allowed : Bool) :
    Without kind (hinting was allowed) := by
  unfold hinting
  split
  · exact without_nil
  · split
    · exact without_cons.mpr ⟨hinted _, without_cons.mpr ⟨on, without_nil⟩⟩
    · exact without_cons.mpr ⟨hinted _, without_cons.mpr ⟨off, without_nil⟩⟩

theorem without_discarding (stale : Nat) (noted : kind (.noticed (.wakesDiscarded stale)) = false) :
    Without kind (discarding stale) := by
  unfold discarding
  split
  · exact without_nil
  · exact without_cons.mpr ⟨noted, without_nil⟩

theorem Link.without_post (l : Link cap) {wake : Wake}
    (merged : kind (.noticed (.wakeMerged wake)) = false) : Without kind (l.post wake).2.2 := by
  rcases l.post_cases wake with ⟨_, _, _, posted⟩ | ⟨_, posted⟩
  · rw [posted]
    exact without_nil
  · rw [posted]
    exact without_cons.mpr ⟨merged, without_nil⟩

theorem Link.without_offer (l : Link cap) (b : Batch)
    (offered : ∀ room, kind (.offered b room) = false)
    (rejected : ∀ n, kind (.noticed (.batchRejected n)) = false)
    (merged : kind (.noticed (.wakeMerged .dataAvailable)) = false) :
    Without kind (l.offer b).2.2 := by
  rcases l.offer_cases b with ⟨_, m, _, _, _, _, offer⟩ | ⟨_, offer⟩
  · rw [offer]
    exact without_cons.mpr ⟨offered true, m.without_post merged⟩
  · rw [offer]
    exact without_cons.mpr ⟨offered false, without_cons.mpr ⟨rejected _, without_nil⟩⟩

theorem Link.without_nudge (l : Link cap) (nudged : ∀ room, kind (.nudged room) = false)
    (merged : kind (.noticed (.wakeMerged .external)) = false) : Without kind l.nudge.2.2 :=
  without_cons.mpr ⟨nudged _, l.without_post merged⟩

theorem Link.Fed.without {l l' : Link cap} (fed : l.Fed es l')
    (offered : ∀ b room, kind (.offered b room) = false)
    (nudged : ∀ room, kind (.nudged room) = false)
    (rejected : ∀ n, kind (.noticed (.batchRejected n)) = false)
    (merged : ∀ wake, kind (.noticed (.wakeMerged wake)) = false) : Without kind es := by
  induction fed with
  | done => exact without_nil
  | @offer l b _ _ _ ih =>
      exact without_append.mpr ⟨l.without_offer b (offered b) rejected (merged _), ih⟩
  | @nudge l _ _ _ ih =>
      exact without_append.mpr ⟨l.without_nudge nudged (merged _), ih⟩

end Without

/-! ## Remarks and asides -/

/-- Reports and hints only say what a worker does. -/
def Event.isMatter : Event → Bool
  | hinted _ | noticed _ => false
  | _ => true

/-- Nothing but reports and hints. -/
abbrev Remarks (es : List Event) : Prop := Without Event.isMatter es

@[simp] theorem remarks_hinting (was allowed : Bool) : Remarks (hinting was allowed) :=
  without_hinting (fun _ => rfl) rfl rfl was allowed

@[simp] theorem remarks_discarding (stale : Nat) : Remarks (discarding stale) :=
  without_discarding stale rfl

theorem remarks_success {job : Job} {es : List Event} (plain : job.success? = some es) :
    Remarks es := by
  cases job <;> cases plain <;> simp [Event.isMatter]

/-- What a worker does in the course of its steps. What is reported, hinted,
or comes from outside is not. -/
def Event.isDeed : Event → Bool
  | offered _ _ | nudged _ | hinted _ | noticed _ => false
  | _ => true

/-- Nothing but asides. -/
abbrev Asides (es : List Event) : Prop := Without Event.isDeed es

theorem asides_of_remarks {es : List Event} (remarks : Remarks es) : Asides es := by
  refine remarks.weaken fun e remark => ?_
  cases e <;> first | rfl | cases remark

@[simp] theorem asides_hinting (was allowed : Bool) : Asides (hinting was allowed) :=
  asides_of_remarks (remarks_hinting was allowed)

@[simp] theorem asides_discarding (stale : Nat) : Asides (discarding stale) :=
  asides_of_remarks (remarks_discarding stale)

theorem asides_success {job : Job} {es : List Event} (plain : job.success? = some es) :
    Asides es :=
  asides_of_remarks (remarks_success plain)

/-- What follows the news that a phase was entered. -/
theorem arrival_eq (st : Status) (source target : Phase) :
    ∃ asides, arrival st source target = .entered source target :: asides ∧ Asides asides := by
  refine ⟨_, rfl, ?_⟩
  split <;> simp [Event.isDeed]

/-- What comes from outside is an aside. -/
theorem Link.Fed.asides {l l' : Link cap} {es : List Event} (fed : l.Fed es l') :
    Asides es :=
  fed.without (fun _ _ => rfl) (fun _ => rfl) (fun _ => rfl) (fun _ => rfl)

/-! ## Traffic -/

/-- The event is part of the traffic between a worker and its crew. -/
def Event.isTraffic : Event → Bool
  | called _ | answered _ _ => true
  | _ => false

/-- Nothing is called for, and nothing answered. -/
abbrev Quiet (es : List Event) : Prop := Without Event.isTraffic es

theorem quiet_of_asides {es : List Event} (asides : Asides es) : Quiet es := by
  refine asides.weaken fun e aside => ?_
  cases e <;> first | rfl | cases aside

@[simp] theorem quiet_hinting (was allowed : Bool) : Quiet (hinting was allowed) :=
  quiet_of_asides (asides_hinting was allowed)

@[simp] theorem quiet_discarding (stale : Nat) : Quiet (discarding stale) :=
  quiet_of_asides (asides_discarding stale)

theorem quiet_success {job : Job} {es : List Event} (plain : job.success? = some es) :
    Quiet es :=
  quiet_of_asides (asides_success plain)

@[simp] theorem quiet_arrival (st : Status) (source target : Phase) :
    Quiet (arrival st source target) := by
  obtain ⟨asides, here, rest⟩ := arrival_eq st source target
  rw [here]
  exact without_cons.mpr ⟨rfl, quiet_of_asides rest⟩

theorem Link.Fed.quiet {l l' : Link cap} {es : List Event} (fed : l.Fed es l') : Quiet es :=
  quiet_of_asides fed.asides

/-! ## The events of a journal, and of one worker -/

/-- The events of a journal, whoever caused them. -/
def events (journal : List Entry) : List Event := journal.map Entry.event

@[simp] theorem events_nil : events [] = [] := rfl

@[simp] theorem events_append (j k : List Entry) : events (j ++ k) = events j ++ events k :=
  List.map_append

@[simp] theorem events_entries (cause : Cause) (es : List Event) :
    events (entries cause es) = es := by
  simp [events, entries, Event.causedBy, Function.comp_def]

/-- The event, if a worker has caused it. -/
def Entry.own? (id : Nat) (e : Entry) : Option Event :=
  if e.cause = .worker id then some e.event else none

/-- The events that a worker has caused. -/
def own (id : Nat) (journal : List Entry) : List Event := journal.filterMap (Entry.own? id)

@[simp] theorem own_nil (id : Nat) : own id [] = [] := rfl

@[simp] theorem own_append (id : Nat) (j k : List Entry) :
    own id (j ++ k) = own id j ++ own id k :=
  List.filterMap_append

@[simp] theorem own_entries_self (id : Nat) (es : List Event) :
    own id (entries (.worker id) es) = es := by
  simp [own, entries, Entry.own?, Event.causedBy, Function.comp_def]

theorem own_entries_of_ne {id : Nat} {cause : Cause} (other : cause ≠ .worker id)
    (es : List Event) : own id (entries cause es) = [] := by
  simp [own, entries, Entry.own?, Event.causedBy, other]

@[simp] theorem own_entries_producer (id : Nat) (es : List Event) :
    own id (entries .producer es) = [] :=
  own_entries_of_ne (by simp) es

theorem own_entries_worker_of_ne {id other : Nat} (differ : id ≠ other) (es : List Event) :
    own id (entries (.worker other) es) = [] :=
  own_entries_of_ne (by simpa using Ne.symm differ) es

/-! ## From turns to histories -/

/-- A property of every worker that was ever booted: as it stands, and of one
that was dropped, as it stood then. -/
def Everyone (K : Worker → Point → List Event → Prop) (m : Moment cap) : Prop :=
  ∀ id, (m.posts.length ≤ id ∧ own id m.journal = []) ∨
    ∃ w p, K w p (own id m.journal) ∧
      (m.posts[id]? = some none ∨ m.posts[id]? = some (some ⟨w, p⟩))

namespace Everyone

variable {K : Worker → Point → List Event → Prop} {m : Moment cap}

/-- A worker that is still there. -/
theorem here (all : Everyone K m) {id : Nat} {w : Worker} {p : Point}
    (there : m.posts[id]? = some (some ⟨w, p⟩)) : K w p (own id m.journal) := by
  rcases all id with ⟨outside, _⟩ | ⟨w', p', holds, gone | same⟩
  · rw [List.getElem?_eq_none outside] at there
    cases there
  · rw [gone] at there
    cases there
  · rw [same] at there
    cases there
    exact holds

/-- A worker that has not been booted has done nothing. -/
theorem own_eq_nil (all : Everyone K m) {id : Nat} (new : m.posts.length ≤ id) :
    own id m.journal = [] := by
  rcases all id with ⟨_, nothing⟩ | ⟨_, _, _, there | there⟩
  · exact nothing
  all_goals exact absurd (List.getElem?_eq_some_iff.mp there).1 (Nat.not_lt.mpr new)

/-- Nothing changes for a worker whose events and place do not. -/
theorem frame {n : Moment cap} {id : Nat} (all : Everyone K m)
    (events : own id n.journal = own id m.journal) (place : n.posts[id]? = m.posts[id]?) :
    (n.posts.length ≤ id ∧ own id n.journal = []) ∨
      ∃ w p, K w p (own id n.journal) ∧
        (n.posts[id]? = some none ∨ n.posts[id]? = some (some ⟨w, p⟩)) := by
  rw [events, place]
  rcases all id with ⟨outside, none⟩ | holds
  · rw [List.getElem?_eq_none outside] at place
    exact .inl ⟨List.getElem?_eq_none_iff.mp place, none⟩
  · exact .inr holds

/-- What one worker does and where that leads leaves the others alone. -/
theorem turn_of_one {n : Moment cap} {id : Nat} {w : Worker} {p : Point} {es : List Event}
    (all : Everyone K m) (inside : id < m.posts.length)
    (holds : K w p (own id m.journal ++ es))
    (posts : n.posts = m.posts.set id (some ⟨w, p⟩))
    (journal : n.journal = m.journal ++ entries (.worker id) es) : Everyone K n := by
  intro other
  by_cases same : other = id
  · subst same
    refine .inr ⟨w, p, ?_, .inr ?_⟩
    · rw [journal, own_append, own_entries_self]
      exact holds
    · rw [posts]
      exact List.getElem?_set_self inside
  · apply all.frame
    · rw [journal, own_append, own_entries_worker_of_ne same, List.append_nil]
    · rw [posts]
      exact List.getElem?_set_ne (Ne.symm same)

end Everyone

/-- What every worker has when it is booted, and what its turns, its announcing
a run and its abandoning a step keep, is kept from moment to moment. -/
theorem Everyone.next {K : Worker → Point → List Event → Prop}
    {may : List (Option Post) → Prop} {m n : Moment cap}
    (boot : ∀ settings, K (.boot settings) .outset [.booted settings])
    (announce : ∀ w es, K w .outset es → K w .outset (es ++ [.noticed .workerStarted]))
    (cancel : ∀ w suspension es, K w (.waiting suspension) es → K w .outset es)
    (turn : ∀ (l l' : Link cap) (w w' : Worker) (p q : Point) (past es : List Event),
      Turn l w p es l' w' q → K w p past → K w' q (past ++ es))
    (all : Everyone K m) (next : m.Next may n) : Everyone K n := by
  cases next with
  | feed _ =>
      intro id
      exact all.frame (by simp) rfl
  | boot settings _ =>
      intro id
      by_cases new : id = m.posts.length
      · subst new
        refine .inr ⟨.boot settings, .outset, ?_, .inr ?_⟩
        · rcases all m.posts.length with ⟨_, none⟩ | ⟨_, _, _, there⟩
          · simpa [none] using boot settings
          · simp at there
        · simp
      · rcases all id with ⟨outside, none⟩ | ⟨w, p, holds, there⟩
        · refine .inl ⟨?_, ?_⟩
          · simp
            omega
          · simp [none, own_entries_worker_of_ne new]
        · refine .inr ⟨w, p, ?_, ?_⟩
          · simpa [own_entries_worker_of_ne new] using holds
          · have inside : id < m.posts.length := by
              rcases there with there | there <;>
                exact (List.getElem?_eq_some_iff.mp there).1
            rw [List.getElem?_append_left inside]
            exact there
  | @turn id w w' p q es l here turn' =>
      have inside := (List.getElem?_eq_some_iff.mp here).1
      exact all.turn_of_one inside (turn _ _ _ _ _ _ _ _ turn' (all.here here)) rfl rfl
  | @announce id w here =>
      obtain ⟨inside, there⟩ := List.getElem?_eq_some_iff.mp here
      refine all.turn_of_one inside (announce w _ (all.here here)) ?_ rfl
      rw [← there, List.set_getElem_self]
  | @cancel id w suspension here =>
      have inside := (List.getElem?_eq_some_iff.mp here).1
      have holds := cancel w suspension _ (all.here here)
      rw [← List.append_nil (own id m.journal)] at holds
      exact all.turn_of_one inside holds rfl (List.append_nil _).symm
  | drop id =>
      intro other
      by_cases same : other = id
      · subst same
        rcases all other with ⟨outside, none⟩ | ⟨w, p, holds, there⟩
        · exact .inl ⟨by simpa using outside, none⟩
        · have inside : other < m.posts.length := by
            rcases there with there | there <;>
              exact (List.getElem?_eq_some_iff.mp there).1
          exact .inr ⟨w, p, holds, .inl (List.getElem?_set_self inside)⟩
      · exact all.frame rfl (List.getElem?_set_ne (Ne.symm same))

/-- How a worker has come to stand where it stands at the next moment. -/
inductive Moment.Fate (m n : Moment cap) (id : Nat) (w : Worker) (p : Point) : Prop where
  | stayed (there : m.posts[id]? = some (some ⟨w, p⟩)) (same : own id n.journal = own id m.journal)
  | booted (settings : Settings) (new : id = m.posts.length) (worker : w = .boot settings)
      (outset : p = .outset)
      (journal : n.journal = m.journal ++ entries (.worker id) [.booted settings])
  | turned {v : Worker} {q : Point} {es : List Event} (there : m.posts[id]? = some (some ⟨v, q⟩))
      (turn : Turn m.link v q es n.link w p)
      (journal : n.journal = m.journal ++ entries (.worker id) es)
  | announced (there : m.posts[id]? = some (some ⟨w, p⟩)) (outset : p = .outset)
      (journal : n.journal = m.journal ++ entries (.worker id) [.noticed .workerStarted])
  | cancelled {suspension : Suspension}
      (there : m.posts[id]? = some (some ⟨w, .waiting suspension⟩)) (outset : p = .outset)
      (journal : n.journal = m.journal)

/-- Every worker has come from somewhere. -/
theorem Moment.Next.fate {may : List (Option Post) → Prop} {m n : Moment cap}
    (next : m.Next may n) {id : Nat} {w : Worker} {p : Point}
    (there : n.posts[id]? = some (some ⟨w, p⟩)) : m.Fate n id w p := by
  have apart {other : Nat} (differ : other ≠ id) (es : List Event) :
      own id (m.journal ++ entries (.worker other) es) = own id m.journal := by
    rw [own_append, own_entries_worker_of_ne (Ne.symm differ), List.append_nil]
  cases next with
  | feed _ => exact .stayed there (by simp)
  | boot settings _ =>
      dsimp only at there
      by_cases old : id < m.posts.length
      · rw [List.getElem?_append_left old] at there
        exact .stayed there (apart (Nat.ne_of_gt old) _)
      · rw [List.getElem?_append_right (Nat.le_of_not_lt old)] at there
        have last : id - m.posts.length < 1 := (List.getElem?_eq_some_iff.mp there).1
        have new : id = m.posts.length := by omega
        cases List.mem_singleton.mp (List.mem_of_getElem? there)
        exact .booted settings new rfl rfl (by rw [new])
  | turn here turn =>
      rcases post_of_set there with ⟨rfl, same⟩ | ⟨differ, before⟩
      · cases same
        exact .turned here turn rfl
      · exact .stayed before (apart differ _)
  | @announce other v here =>
      by_cases same : other = id
      · subst same
        rw [here] at there
        cases there
        exact .announced here rfl rfl
      · exact .stayed there (apart same _)
  | cancel here =>
      rcases post_of_set there with ⟨rfl, same⟩ | ⟨_, before⟩
      · cases same
        exact .cancelled here rfl rfl
      · exact .stayed before rfl
  | drop other =>
      rcases post_of_set there with ⟨_, gone⟩ | ⟨_, before⟩
      · cases gone
      · exact .stayed before rfl

/-- Nothing is ever struck from a journal. -/
theorem Moment.Next.journal_grows {may : List (Option Post) → Prop} {m n : Moment cap}
    (next : m.Next may n) : ∃ more, n.journal = m.journal ++ more := by
  cases next with
  | feed _ | boot _ _ | turn _ _ | announce _ => exact ⟨_, rfl⟩
  | cancel _ | drop _ => exact ⟨[], (List.append_nil _).symm⟩

/-- What turns keep of every worker, after a whole history, with what the worker
remembers where it stands at hand. -/
theorem World.own_invariant [Crew ε] {K : Worker → Point → List Event → Prop}
    (boot : ∀ settings, K (.boot settings) .outset [.booted settings])
    (announce : ∀ w es, K w .outset es → K w .outset (es ++ [.noticed .workerStarted]))
    (cancel : ∀ w suspension es, K w (.waiting suspension) es → K w .outset es)
    (turn : ∀ (l l' : Link cap) (w w' : Worker) (p q : Point) (past es : List Event),
      Turn l w p es l' w' q → w.At p → K w p past → K w' q (past ++ es)) (ops : List (Op ε)) :
    Everyone (fun w p es => w.At p ∧ K w p es)
      ((after cap ops).moment (journal cap ops)) := by
  refine World.invariant (fun id => .inl ⟨Nat.zero_le id, rfl⟩) ?_ (boots_any ops _)
  intro m n
  refine Everyone.next (fun settings => ⟨trivial, boot settings⟩) ?_ ?_ ?_
  · exact fun w es holds => ⟨trivial, announce w es holds.2⟩
  · exact fun w suspension es holds => ⟨trivial, cancel w suspension es holds.2⟩
  · intro l l' w w' p q past es step holds
    exact ⟨step.at_next holds.1, turn l l' w w' p q past es step holds.1 holds.2⟩

end StoreForward
