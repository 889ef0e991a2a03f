import StoreForward.Proofs.Observers

/-!
# Sticky signals

Two signals of a link are raised once and never lowered: that a session has been
established, and that a worker has halted. They outlive the worker that raised them,
and a worker that is booted later finds them raised. So they do not tell what the link
is doing but what has happened on it, and this they tell exactly: the first is up if a
connect of some worker has succeeded, the second if some worker has entered `fatal`,
whatever was suspended, abandoned or dropped in the meantime (`Signals`).

The first signal also decides how a new session is reported. A connect that succeeds
reports in the same turn in which it raises the signal, so that no other worker can
come between the two: of all the sessions on a link, by whichever workers, one is
reported as the first, and it is the first (`Greeted`).

## Main definitions

* `greeting` — how a session is reported, from what has happened before.
* `Greeted` — every session is reported at once and as it should be.
* `Signals` — what the signals say, from the journal.
* `records` — the wording of all that was reported.

## Main results

* `Turn.greets`, `Turn.halts` — what a turn does to the signals.
* `signals_are_sticky` — what the signals say after every history.
-/

namespace StoreForward

variable {cap : Nat} {ε : Type}

/-! ## Sessions are reported -/

/-- How the opening of a session is reported, given what has happened on the link
before. -/
def greeting (es : List Event) : Notice := if 0 < opened es then .sessionOpened else .firstSession

/-- The event is the opening of a session, or the report of one. -/
def Event.isGreeting (e : Event) : Bool :=
  decide (e = .answered .connect .ok ∨ e = .noticed .firstSession ∨ e = .noticed .sessionOpened)

/-- No session is opened, and none is reported. -/
abbrev Ungreeted (es : List Event) : Prop := Without Event.isGreeting es

@[simp] theorem ungreeted_hinting (was allowed : Bool) : Ungreeted (hinting was allowed) :=
  without_hinting (fun hint => by cases hint <;> rfl) rfl rfl was allowed

@[simp] theorem ungreeted_discarding (stale : Nat) : Ungreeted (discarding stale) :=
  without_discarding stale (by simp [Event.isGreeting])

@[simp] theorem ungreeted_arrival (st : Status) (source target : Phase) :
    Ungreeted (arrival st source target) := by
  unfold arrival
  split <;> simp [Event.isGreeting]

theorem ungreeted_success {job : Job} {es : List Event} (plain : job.success? = some es) :
    Ungreeted (.answered job.request .ok :: es) := by
  cases job <;> cases plain <;> simp [Event.isGreeting, Job.request]

theorem Link.Fed.ungreeted {l l' : Link cap} {es : List Event} (fed : l.Fed es l') :
    Ungreeted es :=
  fed.without (by simp [Event.isGreeting]) (by simp [Event.isGreeting])
    (by simp [Event.isGreeting]) (by simp [Event.isGreeting])

section Turns

variable {l l' l₁ : Link cap} {w w' w₁ : Worker} {source : Phase} {p q : Point}
  {es : List Event}

theorem Link.everConnected_hinted (l : Link cap) (was allowed : Bool) :
    (l.hinted was allowed).status.everConnected = l.status.everConnected := by
  unfold hinted
  dsimp only
  split <;> rfl

theorem Status.everConnected_enter (st : Status) (source target : Phase) :
    (st.enter source target).everConnected = st.everConnected := by
  unfold enter
  split <;> rfl

/-- A session is opened and reported first of all in a turn, or nothing of the kind
happens. -/
theorem Turn.greets (turn : Turn l w p es l' w' q) :
    (Ungreeted es ∧ l'.status.everConnected = l.status.everConnected) ∨
      ∃ rest, es = .answered .connect .ok ::
          .noticed (if l.status.everConnected then .sessionOpened else .firstSession) :: rest ∧
        Ungreeted rest ∧ l'.status.everConnected = true := by
  cases turn with
  | call calling fed _ =>
      obtain ⟨_, status⟩ := fed.status_eq
      refine .inl ⟨without_append.mpr ⟨?_, without_cons.mpr
        ⟨by simp [Event.isGreeting], fed.ungreeted⟩⟩, ?_⟩
      · cases calling <;> simp [Event.isGreeting]
      · rw [status]
        cases calling <;> rfl
  | @leave source _ es l₁ _ closing =>
      dsimp only
      rw [Status.everConnected_enter]
      cases closing with
      | connected => exact .inr ⟨_, rfl, ungreeted_arrival _ _ _, rfl⟩
      | succeeded job plain =>
          exact .inl ⟨without_append.mpr ⟨ungreeted_success plain, ungreeted_arrival _ _ _⟩, rfl⟩
      | failed job error =>
          refine .inl ⟨without_append.mpr ⟨?_, ungreeted_arrival _ _ _⟩, ?_⟩
          · cases job <;> simp [Event.isGreeting, Job.failure]
          · cases job <;> rfl
      | skipped _ _ | woken _ =>
          exact .inl ⟨by simp [Event.isGreeting], Link.everConnected_hinted _ _ _⟩
      | _ => exact .inl ⟨by simp [Event.isGreeting], rfl⟩
  | park _ _ => exact .inl ⟨by simp [Event.isGreeting], Link.everConnected_hinted _ _ _⟩
  | _ => exact .inl ⟨by simp [Event.isGreeting], rfl⟩

/-- The event is that a worker halts. -/
def Event.isHalt : Event → Bool
  | entered _ .fatal => true
  | _ => false

theorem unhalted_of_unended (unended : Without Event.isEnd es) : Without Event.isHalt es := by
  refine unended.weaken fun e goesOn => ?_
  cases e <;> first | rfl | cases goesOn

theorem any_without {kind : Event → Bool} (without : Without kind es) : es.any kind = false := by
  refine List.any_eq_false.mpr fun e there => ?_
  rw [without e there]
  exact Bool.false_ne_true

theorem any_arrival (st : Status) (source target : Phase) :
    (arrival st source target).any Event.isHalt = target.isTerminal := by
  unfold arrival
  cases target <;> rfl

/-- The mark of a halt is left in the turn in which a worker halts, and never
taken away. -/
theorem Turn.halts (turn : Turn l w p es l' w' q) :
    l'.status.halted = (l.status.halted || es.any Event.isHalt) := by
  rcases turn.unended_or_leaves with
    ⟨unended, _, picture⟩ | ⟨source, ds, l₁, w₁, closing, rfl, rfl, _, _⟩
  · rw [any_without (unhalted_of_unended unended), Bool.or_false]
    exact congrArg Picture.halted picture
  · have before := unhalted_of_unended (unended_of_opens closing.opens)
    rw [List.any_append, any_without before, any_arrival, Bool.false_or, ← closing.halted_eq]
    unfold Status.enter
    split
    · rename_i halts
      rw [halts, Bool.or_true]
      rfl
    · rename_i live
      rw [(Bool.not_eq_true _).mp live, Bool.or_false]

end Turns

/-! ## Every session on a link -/

/-- Every session is reported at once by the worker that has opened it: as the first if
no other has been opened on the link before, by whichever worker. -/
def Greeted (journal : List Entry) : Prop :=
  ∀ before cause after, journal = before ++ ⟨cause, .answered .connect .ok⟩ :: after →
    after.head? = some ⟨cause, .noticed (greeting (events before))⟩

/-- What is found in the middle of some entries is one of their events. -/
theorem mem_of_split {cause other : Cause} {es : List Event} {e : Event} {before after : List Entry}
    (split : entries cause es = before ++ ⟨other, e⟩ :: after) : e ∈ es := by
  rw [← events_entries cause es, split]
  simp [events]

namespace Greeted

/-- The rest of a journal is greeted if it is greeted as it stands, after what has
happened before. -/
theorem append {journal more : List Entry} (greeted : Greeted journal)
    (rest : ∀ before cause after, more = before ++ ⟨cause, .answered .connect .ok⟩ :: after →
      after.head? = some ⟨cause, .noticed (greeting (events (journal ++ before)))⟩) :
    Greeted (journal ++ more) := by
  intro before cause after split
  rcases List.append_eq_append_iff.mp split with ⟨inside, rfl, there⟩ | ⟨tail, old, new⟩
  · exact rest inside cause after there
  · cases tail with
    | nil =>
        rw [List.append_nil] at old
        subst old
        have here := rest [] cause after new.symm
        rwa [List.append_nil] at here
    | cons e tail =>
        obtain ⟨rfl, rfl⟩ := List.cons.inj new
        show (tail ++ more).head? = _
        rw [List.head?_append, greeted before cause tail old]
        rfl

/-- Nothing new is opened. -/
theorem quiet {journal : List Entry} (greeted : Greeted journal) (cause : Cause) {es : List Event}
    (ungreeted : Ungreeted es) : Greeted (journal ++ entries cause es) := by
  refine greeted.append fun before other after split => ?_
  cases ungreeted _ (mem_of_split split)

/-- A session is opened and reported, and no other after it. -/
theorem welcome {journal : List Entry} (greeted : Greeted journal) (cause : Cause)
    {rest : List Event} (ungreeted : Ungreeted rest) :
    Greeted (journal ++ entries cause (.answered .connect .ok ::
      .noticed (greeting (events journal)) :: rest)) := by
  refine greeted.append fun before other after split => ?_
  cases before with
  | nil =>
      cases split
      rw [List.append_nil]
      rfl
  | cons e before =>
      have later : entries cause (.noticed (greeting (events journal)) :: rest) =
          before ++ ⟨other, .answered .connect .ok⟩ :: after := (List.cons.inj split).2
      rcases List.mem_cons.mp (mem_of_split later) with same | there
      · cases same
      · cases ungreeted _ there

end Greeted

/-! ## What the signals say -/

theorem opened_append (es fs : List Event) : opened (es ++ fs) = opened es + opened fs :=
  List.count_append

/-- Where nothing is opened or reported there is nothing to count. -/
theorem count_of_ungreeted {e : Event} (greets : e.isGreeting = true) {es : List Event}
    (ungreeted : Ungreeted es) : es.count e = 0 := by
  refine List.count_eq_zero.mpr fun there => ?_
  rw [ungreeted e there] at greets
  cases greets

/-- The signals say whether a session has been opened and whether a worker has halted,
whichever worker it was. One of the sessions has been reported as the first, and it was
the first. -/
structure Signals (m : Moment cap) : Prop where
  connected : m.link.status.everConnected = decide (0 < opened (events m.journal))
  halted : m.link.status.halted = (events m.journal).any Event.isHalt
  greeted : Greeted m.journal
  first : (events m.journal).count (.noticed .firstSession) = min 1 (opened (events m.journal))
  others : (events m.journal).count (.noticed .sessionOpened) = opened (events m.journal) - 1
  workers : ∀ entry ∈ m.journal, entry.event.isDeed = true → ∃ id, entry.cause = .worker id

namespace Signals

variable {m n : Moment cap}

theorem start : Signals ({} : Moment cap) where
  connected := rfl
  halted := rfl
  greeted before cause after split := by cases before <;> cases split
  first := rfl
  others := rfl
  workers _ there := by cases there

theorem workers_append {journal : List Entry} {cause : Cause} {es : List Event}
    (old : ∀ entry ∈ journal, entry.event.isDeed = true → ∃ id, entry.cause = .worker id)
    (deeds : Asides es ∨ ∃ id, cause = .worker id) :
    ∀ entry ∈ journal ++ entries cause es, entry.event.isDeed = true →
      ∃ id, entry.cause = .worker id := by
  intro entry there deed
  rcases List.mem_append.mp there with before | new
  · exact old entry before deed
  · obtain ⟨e, inside, rfl⟩ := List.mem_map.mp new
    rcases deeds with asides | worker
    · exact absurd ((asides e inside).symm.trans deed) Bool.false_ne_true
    · exact worker

/-- No session is opened: the first signal stays as it is. -/
theorem quiet (signals : Signals m) (cause : Cause) {es : List Event}
    (journal : n.journal = m.journal ++ entries cause es) (ungreeted : Ungreeted es)
    (connected : n.link.status.everConnected = m.link.status.everConnected)
    (halted : n.link.status.halted = (m.link.status.halted || es.any Event.isHalt))
    (deeds : Asides es ∨ ∃ id, cause = .worker id) : Signals n := by
  have none : opened es = 0 := count_of_ungreeted rfl ungreeted
  have same : opened (events n.journal) = opened (events m.journal) := by
    rw [journal, events_append, events_entries, opened_append, none, Nat.add_zero]
  refine ⟨?_, ?_, ?_, ?_, ?_, ?_⟩
  · rw [connected, same, signals.connected]
  · rw [halted, journal, events_append, events_entries, List.any_append, signals.halted]
  · rw [journal]
    exact signals.greeted.quiet cause ungreeted
  · rw [same, ← signals.first, journal, events_append, events_entries, List.count_append,
      count_of_ungreeted rfl ungreeted, Nat.add_zero]
  · rw [same, ← signals.others, journal, events_append, events_entries, List.count_append,
      count_of_ungreeted rfl ungreeted, Nat.add_zero]
  · rw [journal]
    exact workers_append signals.workers deeds

/-- A session is opened, and reported as what it is. -/
theorem welcome (signals : Signals m) (id : Nat) {rest : List Event}
    (journal : n.journal = m.journal ++ entries (.worker id) (.answered .connect .ok ::
      .noticed (greeting (events m.journal)) :: rest)) (ungreeted : Ungreeted rest)
    (connected : n.link.status.everConnected = true)
    (halted : n.link.status.halted = (m.link.status.halted || rest.any Event.isHalt)) :
    Signals n := by
  have more : opened (events n.journal) = opened (events m.journal) + 1 := by
    have none : rest.count (.answered .connect .ok) = 0 := count_of_ungreeted rfl ungreeted
    rw [journal, events_append, events_entries, opened_append]
    simp [opened, none]
  have reported (note : Notice) (greets : (Event.noticed note).isGreeting = true) :
      (events n.journal).count (.noticed note) = (events m.journal).count (.noticed note) +
        if greeting (events m.journal) = note then 1 else 0 := by
    rw [journal, events_append, events_entries, List.count_append, List.count_cons, List.count_cons,
      count_of_ungreeted greets ungreeted]
    simp
  refine ⟨?_, ?_, ?_, ?_, ?_, ?_⟩
  · rw [connected, more]
    simp
  · rw [halted, journal, events_append, events_entries, List.any_append, signals.halted]
    rfl
  · rw [journal]
    exact signals.greeted.welcome (.worker id) ungreeted
  · rw [reported _ rfl, signals.first, more]
    unfold greeting
    split <;> simp <;> omega
  · rw [reported _ rfl, signals.others, more]
    unfold greeting
    split <;> simp <;> omega
  · rw [journal]
    exact workers_append signals.workers (.inr ⟨id, rfl⟩)

/-- What the signals say stays right from moment to moment, whoever boots workers
when. -/
theorem next {may : List (Option Post) → Prop} (signals : Signals m) (next : m.Next may n) :
    Signals n := by
  cases next with
  | feed fed =>
      obtain ⟨_, status⟩ := fed.status_eq
      have unhalted := unhalted_of_unended (unended_of_asides fed.asides)
      refine signals.quiet .producer rfl fed.ungreeted ?_ ?_ (.inl fed.asides)
      · rw [status]
      · rw [status, any_without unhalted, Bool.or_false]
  | boot settings _ =>
      exact signals.quiet _ rfl (by simp [Event.isGreeting]) rfl (Bool.or_false _).symm
        (.inr ⟨_, rfl⟩)
  | @turn id w w' p q es l here turn =>
      rcases turn.greets with ⟨ungreeted, same⟩ | ⟨rest, rfl, ungreeted, raised⟩
      · exact signals.quiet _ rfl ungreeted same turn.halts (.inr ⟨id, rfl⟩)
      · have report : (if m.link.status.everConnected then Notice.sessionOpened
            else .firstSession) = greeting (events m.journal) := by
          rw [signals.connected]
          simp [greeting]
        rw [report] at turn
        exact signals.welcome id (by rw [report]) ungreeted raised turn.halts
  | announce _ =>
      exact signals.quiet _ rfl (by simp [Event.isGreeting]) rfl (Bool.or_false _).symm
        (.inr ⟨_, rfl⟩)
  | cancel _ | drop _ =>
      exact signals.quiet .producer (List.append_nil _).symm (without_nil : Ungreeted []) rfl
        (Bool.or_false _).symm (.inl without_nil)

end Signals

/-! ## The log -/

/-- The wording of all that was reported, in order. -/
def records (es : List Event) : List String := (noticesOf es).map Notice.text

theorem append_ne_of_head {a b : String} (apart : ¬ a.toList <+: b.toList) (s : String) :
    a ++ s ≠ b := by
  rintro rfl
  refine apart ?_
  rw [String.toList_append]
  exact List.prefix_append _ _

theorem append_ne_of_tail {a b : String} (apart : ¬ a.toList <:+ b.toList) (s : String) :
    s ++ a ≠ b := by
  rintro rfl
  refine apart ?_
  rw [String.toList_append]
  exact List.suffix_append _ _

/-- No other notice is worded like the report of a session. -/
theorem Notice.text_ne_greeting {note : Notice} (first : note ≠ .firstSession)
    (later : note ≠ .sessionOpened) :
    note.text ≠ "First session established" ∧ note.text ≠ "Session established" := by
  cases note with
  | firstSession => exact absurd rfl first
  | sessionOpened => exact absurd rfl later
  | entered source target =>
      show source.name ++ " -> " ++ target.name ≠ _ ∧ source.name ++ " -> " ++ target.name ≠ _
      rw [String.append_assoc]
      constructor <;> (refine append_ne_of_head ?_ _; cases source <;> decide)
  | restSkipped _ => exact ⟨append_ne_of_tail (by decide) _, append_ne_of_tail (by decide) _⟩
  | _ =>
      unfold text
      simp only [String.append_assoc]
      first
        | decide
        | exact ⟨append_ne_of_head (by decide) _, append_ne_of_head (by decide) _⟩

/-- A wording that only one notice has is found in the records as often as this notice
has been reported. -/
theorem count_records {note : Notice}
    (alone : ∀ other : Notice, other.text = note.text → other = note) (es : List Event) :
    (records es).count note.text = es.count (.noticed note) := by
  induction es with
  | nil => rfl
  | cons e es ih =>
      rw [List.count_cons]
      cases e with
      | noticed other =>
          show (other.text :: records es).count note.text = _
          rw [List.count_cons, ih]
          by_cases same : other = note
          · simp [same]
          · have differ : other.text ≠ note.text := fun text => same (alone other text)
            simp [same, differ]
      | _ => exact ih

theorem text_firstSession {note : Notice} (same : note.text = Notice.firstSession.text) :
    note = .firstSession := by
  by_contra first
  by_cases later : note = .sessionOpened
  · rw [later] at same
    exact absurd same (by decide)
  · exact (Notice.text_ne_greeting first later).1 same

theorem text_sessionOpened {note : Notice} (same : note.text = Notice.sessionOpened.text) :
    note = .sessionOpened := by
  by_contra later
  by_cases first : note = .firstSession
  · rw [first] at same
    exact absurd same (by decide)
  · exact (Notice.text_ne_greeting first later).2 same

/-! ## Histories -/

theorem mem_own {id : Nat} {e : Event} {journal : List Entry} :
    e ∈ own id journal ↔ ⟨.worker id, e⟩ ∈ journal := by
  unfold own
  rw [List.mem_filterMap]
  constructor
  · rintro ⟨⟨cause, event⟩, there, same⟩
    unfold Entry.own? at same
    split at same
    · rename_i worker
      cases same
      rw [← show cause = .worker id from worker]
      exact there
    · cases same
  · exact fun there => ⟨_, there, by simp [Entry.own?]⟩

/-- A deed on a link is the deed of some worker. -/
theorem Signals.deed_iff {m : Moment cap} (signals : Signals m) {e : Event}
    (deed : e.isDeed = true) : e ∈ events m.journal ↔ ∃ id, e ∈ own id m.journal := by
  constructor
  · intro there
    obtain ⟨⟨cause, _⟩, entry, rfl⟩ := List.mem_map.mp there
    obtain ⟨id, worker⟩ := signals.workers _ entry deed
    refine ⟨id, mem_own.mpr ?_⟩
    rw [← show cause = .worker id from worker]
    exact entry
  · rintro ⟨id, there⟩
    exact List.mem_map.mpr ⟨_, mem_own.mp there, rfl⟩

section Histories

variable [Crew ε]

theorem signals_after (ops : List (Op ε)) :
    Signals ((World.after cap ops).moment (World.journal cap ops)) :=
  World.invariant .start (fun _ _ signals next => signals.next next) (World.boots_any ops _)

/-- **Signals are sticky.** Whatever any number of workers on a link do, the link shows
that a session has been established exactly if a connect of some worker has succeeded,
and that a worker has halted exactly if some worker has entered `fatal`. No operation
takes either back. The log has one record of a first session if there has been one and
none otherwise, and as many records of other sessions as there have been; each is
written by the worker that has opened the session, as the next thing it does, and the
first session on the link is the one that is recorded as the first. -/
theorem signals_are_sticky (ops : List (Op ε)) :
    let world := World.after cap ops
    let journal := World.journal cap ops
    let shown := world.link.status
    (shown.everConnected = true ↔ ∃ id, .answered .connect .ok ∈ own id journal) ∧
    (shown.halted = true ↔ ∃ id source, .entered source .fatal ∈ own id journal) ∧
    (∀ later : List (Op ε),
      let status := (world.applyAll later).1.link.status
      (shown.everConnected = true → status.everConnected = true) ∧
        (shown.halted = true → status.halted = true)) ∧
    (records (events journal)).count "First session established" =
      (if shown.everConnected = true then 1 else 0) ∧
    (records (events journal)).count "Session established" = opened (events journal) - 1 ∧
    Greeted journal := by
  intro world journal shown
  have signals : Signals (world.moment journal) := signals_after ops
  have connected : shown.everConnected = decide (0 < opened (events journal)) := signals.connected
  have halted : shown.halted = (events journal).any Event.isHalt := signals.halted
  have somebody {e : Event} (deed : e.isDeed = true) :
      e ∈ events journal ↔ ∃ id, e ∈ own id journal := signals.deed_iff deed
  refine ⟨?_, ?_, fun later => ?_, ?_, ?_, signals.greeted⟩
  · rw [connected, decide_eq_true_iff]
    exact List.count_pos_iff.trans (somebody rfl)
  · rw [halted, List.any_eq_true]
    constructor
    · rintro ⟨e, there, halt⟩
      cases e with
      | entered source target =>
          cases target with
          | fatal =>
              obtain ⟨id, own⟩ := (somebody rfl).mp there
              exact ⟨id, source, own⟩
          | _ => cases halt
      | _ => cases halt
    · rintro ⟨id, source, own⟩
      exact ⟨_, (somebody rfl).mpr ⟨id, own⟩, rfl⟩
  · intro status
    have after : Signals ((World.after cap (ops ++ later)).moment
        (World.journal cap (ops ++ later))) := signals_after _
    rw [World.after_append, World.journal_append] at after
    have connected' : status.everConnected =
        decide (0 < opened (events (journal ++ (world.applyAll later).2))) := after.connected
    have halted' : status.halted =
        (events (journal ++ (world.applyAll later).2)).any Event.isHalt := after.halted
    rw [connected, connected', halted, halted', events_append, opened_append, List.any_append,
      decide_eq_true_iff, decide_eq_true_iff, Bool.or_eq_true]
    exact ⟨fun before => Nat.add_pos_left before _, .inl⟩
  · refine (count_records (fun _ => text_firstSession) _).trans (signals.first.trans ?_)
    rw [connected]
    show min 1 (opened (events journal)) = _
    by_cases some : 0 < opened (events journal)
    · rw [if_pos (decide_eq_true some)]
      omega
    · rw [if_neg (by simpa using some)]
      omega
  · exact (count_records (fun _ => text_sessionOpened) _).trans signals.others

end Histories

end StoreForward
