import Mathlib.Data.List.Chain
import StoreForward.Crew.Script
import StoreForward.Proofs.Halt

/-!
# Hints

A crew is told when the core may sleep and when it may not, and it has to be
told in turns: whoever manages power counts what is allowed against what is
disallowed. A worker hints in `idle` only, but from several places. A rest that
is abandoned leaves low power allowed; the next step of the worker may find
batches waiting and take the hint back, or find none and must not give it twice.

A turn in `idle` is one of three (`Lull`): the worker rests on, it goes to rest,
or it rises. Every other turn hints nothing (`Turn.unhinted`). So the hint that
was given last is what the worker remembers, and while that is to allow low power
the worker has not left `idle`.

The link shows the hint that was given last by any of its workers, which is a
worker's own hint only as long as the link has no other.

## Main definitions

* `hints`, `inForce` — the hints in some events, and the one that was given last.
* `Lull` — what a worker in `idle` does in a turn.
* `Confined` — while low power is allowed nothing is done but resting.

## Main results

* `Turn.lull`, `Turn.unhinted` — turns in `idle` and elsewhere.
* `hints_take_turns` — hints alternate and are confined to `idle`.
-/

namespace StoreForward

variable {cap : Nat} {ε : Type}

/-! ## The hints in some events -/

/-- The hint that says whether the core may sleep. -/
def Hint.of : Bool → Hint
  | true => .allowLowPower
  | false => .disallowLowPower

theorem Hint.of_ne_of_not (allowed : Bool) : Hint.of allowed ≠ .of (!allowed) := by
  cases allowed <;> simp [of]

/-- The hint, if the event is one. -/
def Event.hint? : Event → Option Hint
  | hinted hint => some hint
  | _ => none

/-- The hints in some events, in order. -/
def hints (es : List Event) : List Hint := es.filterMap Event.hint?

/-- The hint that was given last. Before the first one low power is not
allowed. -/
def inForce (es : List Event) : Hint := (hints es).getLastD .disallowLowPower

@[simp] theorem hints_nil : hints [] = [] := rfl

@[simp] theorem hints_append (es fs : List Event) : hints (es ++ fs) = hints es ++ hints fs :=
  List.filterMap_append

theorem hints_eq_nil_iff {es : List Event} : hints es = [] ↔ ∀ e ∈ es, e.hint? = none :=
  List.filterMap_eq_nil_iff

theorem inForce_append (es fs : List Event) :
    inForce (es ++ fs) = (hints fs).getLastD (inForce es) := by
  unfold inForce
  simp only [hints_append, List.getLastD_eq_getLast?, List.getLast?_append]
  cases (hints fs).getLast? <;> rfl

theorem inForce_append_of_nil (es : List Event) {fs : List Event} (none : hints fs = []) :
    inForce (es ++ fs) = inForce es := by
  rw [inForce_append, none]
  rfl

/-- What alternates goes on alternating from the hint that was given last. -/
theorem alternate_append {was : Hint} {hs ks : List Hint} :
    (was :: (hs ++ ks)).IsChain (· ≠ ·) ↔
      (was :: hs).IsChain (· ≠ ·) ∧ (hs.getLastD was :: ks).IsChain (· ≠ ·) := by
  have last : (was :: hs).getLast? = some (hs.getLastD was) := by
    rw [List.getLastD_eq_getLast?, List.getLast?_cons]
  rw [← List.cons_append, List.isChain_append, List.isChain_cons (l := ks), last]
  constructor
  · rintro ⟨first, rest, seam⟩
    exact ⟨first, seam _ rfl, rest⟩
  · rintro ⟨first, seam, rest⟩
    refine ⟨first, rest, fun hint same => ?_⟩
    cases same
    exact seam

/-- To hint is to give the hint, unless it is in force. -/
theorem hints_hinting (was allowed : Bool) :
    hints (hinting was allowed) = if was = allowed then [] else [.of allowed] := by
  unfold hinting
  split
  · rfl
  · cases allowed <;> rfl

theorem hints_of_undisturbed {es : List Event} (undisturbed : Undisturbed es) : hints es = [] := by
  refine hints_eq_nil_iff.mpr fun e there => ?_
  have spared := undisturbed e there
  cases e <;> first | rfl | cases spared

theorem Link.Fed.undisturbed {l l' : Link cap} {es : List Event} (fed : l.Fed es l') :
    Undisturbed es :=
  fed.without (fun _ _ => rfl) (fun _ => rfl) (fun _ => rfl) (fun _ => rfl)

@[simp] theorem hints_arrival (st : Status) (source target : Phase) :
    hints (arrival st source target) = [] := by
  unfold arrival
  split <;> rfl

@[simp] theorem hints_discarding (stale : Nat) : hints (discarding stale) = [] := by
  unfold discarding
  split <;> rfl

theorem Status.lowPower_enter (st : Status) (source target : Phase) :
    (st.enter source target).lowPower = st.lowPower := by
  unfold enter
  split <;> rfl

/-! ## Turns in `idle` and elsewhere -/

/-- What a worker in `idle` does in a turn. -/
inductive Lull (l : Link cap) (w : Worker) : List Event → Link cap → Worker → Prop where
  /-- It rests on. -/
  | rest : Lull l w [] l w
  /-- It goes to rest, since there is nothing to do. -/
  | park (idle : l.isIdle = true) :
      Lull l w
        (.began .idle :: (discarding l.wakes.length ++ hinting w.lowPower true ++
          [.noticed .resting]))
        ({ l with wakes := .empty }.hinted w.lowPower true) { w with lowPower := true }
  /-- It rises: low power is disallowed, and then the table is consulted. -/
  | rise {opening : List Event} {note : Notice} {wakes : Fifo Wake cap} {m : Link cap}
      {target : Phase} (opens : opening = [] ∨ opening = [.began .idle])
      (link : m = { l with wakes }.hinted w.lowPower false)
      (leads : target = if l.isIdle then .idle else .connectNetwork) :
      Lull l w (opening ++ (hinting w.lowPower false ++ [.noticed note]) ++
          arrival m.status .idle target)
        { m with status := m.status.enter .idle target }
        { w with lowPower := false, phase := target }

section Turns

variable {l l' : Link cap} {w w' : Worker} {p q : Point} {past es : List Event}

/-- A turn in `idle` is one of these. -/
theorem Turn.lull (turn : Turn l w p es l' w' q) (stands : w.At p) (idle : w.phase = .idle) :
    Lull l w es l' w' := by
  have elsewhere {phase : Phase} (here : w.phase = phase) (other : phase ≠ .idle) : False :=
    other (here.symm.trans idle)
  cases turn with
  | call calling _ _ =>
      cases calling with
      | publish _ => exact (elsewhere stands.1 (by simp)).elim
      | start here | sync here | connect here _ | close here _ | stop here =>
          exact (elsewhere here (by simp)).elim
  | leave closing =>
      cases closing with
      | skipped _ _ =>
          have opens : [Event.began .idle] = [] ∨ [Event.began .idle] = [.began .idle] := .inr rfl
          exact .rise opens rfl rfl
      | woken _ =>
          have opens : ([] : List Event) = [] ∨ [] = [Event.began .idle] := .inl rfl
          exact .rise opens rfl rfl
      | succeeded job _ | failed job _ =>
          exact (elsewhere stands.1 (by cases job <;> simp [Job.phase])).elim
      | connected | drained _ => exact (elsewhere stands.1 (by simp [Job.phase])).elim
      | started here | surveyed here | unopened here _ | unheld here _ | retried here =>
          exact (elsewhere here (by simp)).elim
  | park _ empty => exact .park empty
  | rest _ => exact .rest
  | wait => exact .rest
  | opened here _ | refused here _ | halted here => exact (elsewhere here (by simp)).elim
  | published _ | overflown => exact (elsewhere stands.1 (by simp [Job.phase])).elim

/-- A turn elsewhere hints nothing. -/
theorem Turn.unhinted (turn : Turn l w p es l' w' q) (stands : w.At p) (busy : w.phase ≠ .idle) :
    hints es = [] ∧ w'.lowPower = w.lowPower ∧ l'.status.lowPower = l.status.lowPower := by
  cases turn with
  | call calling fed _ =>
      obtain ⟨_, status⟩ := fed.status_eq
      rw [hints_append, status]
      have offers := hints_of_undisturbed fed.undisturbed
      cases calling <;> exact ⟨offers, rfl, rfl⟩
  | leave closing =>
      rw [hints_append, hints_arrival, List.append_nil]
      dsimp only
      rw [Status.lowPower_enter]
      cases closing with
      | skipped here _ => exact absurd here busy
      | woken _ => exact absurd stands.1 busy
      | succeeded job plain => cases job <;> cases plain <;> exact ⟨rfl, rfl, rfl⟩
      | failed job _ => cases job <;> exact ⟨rfl, rfl, rfl⟩
      | _ => exact ⟨rfl, rfl, rfl⟩
  | park here _ => exact absurd here busy
  | _ => exact ⟨rfl, rfl, rfl⟩

/-- To hint is to have the hint in force, whichever it was. -/
theorem getLastD_hinting (was allowed : Bool) :
    (hints (hinting was allowed)).getLastD (.of was) = .of allowed := by
  rw [hints_hinting]
  split
  · rename_i same
    rw [same]
    rfl
  · rfl

theorem isChain_hinting (was allowed : Bool) :
    (Hint.of was :: hints (hinting was allowed)).IsChain (· ≠ ·) := by
  rw [hints_hinting]
  split
  · exact .singleton _
  · rename_i differ
    refine List.isChain_pair.mpr ?_
    rw [show allowed = !was from (Bool.eq_not_of_ne (Ne.symm differ))]
    exact Hint.of_ne_of_not was

theorem Link.lowPower_hinted_eq (l : Link cap) (was allowed : Bool) :
    Hint.of (l.hinted was allowed).status.lowPower =
      (hints (hinting was allowed)).getLastD (.of l.status.lowPower) := by
  rw [hints_hinting]
  unfold hinted
  dsimp only
  split <;> rfl

theorem Lull.hints_eq (lull : Lull l w es l' w') :
    hints es = hints (hinting w.lowPower w'.lowPower) ∧
      Hint.of l'.status.lowPower = (hints es).getLastD (.of l.status.lowPower) := by
  cases lull with
  | rest => simp [hints_hinting]
  | park _ =>
      have same : hints (.began .idle :: (discarding l.wakes.length ++ hinting w.lowPower true ++
          [.noticed .resting])) = hints (hinting w.lowPower true) := by
        show hints (discarding l.wakes.length ++ hinting w.lowPower true ++ [.noticed .resting]) = _
        rw [hints_append, hints_append, hints_discarding]
        exact List.append_nil _
      rw [same]
      exact ⟨rfl, Link.lowPower_hinted_eq _ _ _⟩
  | @rise opening note wakes m target opens link leads =>
      have same : hints (opening ++ (hinting w.lowPower false ++ [.noticed note]) ++
          arrival m.status .idle target) = hints (hinting w.lowPower false) := by
        have none : hints opening = [] := by
          rcases opens with rfl | rfl <;> rfl
        rw [hints_append, hints_arrival, hints_append, none, hints_append, List.append_nil]
        exact List.append_nil _
      rw [same]
      dsimp only
      rw [Status.lowPower_enter, link]
      exact ⟨rfl, Link.lowPower_hinted_eq _ _ _⟩

/-- A turn hints what the worker then remembers, if that is news, and the link
shows it. -/
theorem Turn.hints_eq (turn : Turn l w p es l' w' q) (stands : w.At p) :
    hints es = hints (hinting w.lowPower w'.lowPower) ∧
      Hint.of l'.status.lowPower = (hints es).getLastD (.of l.status.lowPower) := by
  by_cases idle : w.phase = .idle
  · exact (turn.lull stands idle).hints_eq
  · obtain ⟨none, remembers, shown⟩ := turn.unhinted stands idle
    rw [none, remembers, shown, hints_hinting, if_pos rfl]
    exact ⟨rfl, rfl⟩

end Turns

/-! ## Low power is confined to rests -/

/-- While low power is allowed a worker is in `idle`, and it makes no request. -/
def Confined (before : List Event) (e : Event) : Prop :=
  inForce before = .allowLowPower → (ledger before).phase = .idle ∧ e.isCall = false

/-- The event does not belong to a rest: a request reaches the crew, or a phase is
entered. -/
def Event.stirs : Event → Bool
  | called _ | entered _ _ | booted _ => true
  | _ => false

/-- Nothing but what belongs to a rest. -/
abbrev Still (es : List Event) : Prop := Without Event.stirs es

@[simp] theorem still_hinting (was allowed : Bool) : Still (hinting was allowed) :=
  without_hinting (fun _ => rfl) rfl rfl was allowed

@[simp] theorem still_discarding (stale : Nat) : Still (discarding stale) :=
  without_discarding stale rfl

theorem Ledger.phase_still {es : List Event} (still : Still es) :
    ∀ r : Ledger, (r.read es).phase = r.phase := by
  induction es with
  | nil => exact fun _ => rfl
  | cons e es ih =>
      intro r
      obtain ⟨first, rest⟩ := without_cons.mp still
      have same : (r.enter e).phase = r.phase := by
        cases e with
        | answered request answer => cases answer <;> cases request <;> rfl
        | called _ | entered _ _ | booted _ => cases first
        | _ => rfl
      rw [read_cons, ih rest, same]

/-- With low power disallowed, what hints nothing is confined. -/
theorem confined_unhinted {past es : List Event} (off : inForce past = .disallowLowPower)
    (none : hints es = []) : Lawful (fun before => Confined (past ++ before)) es := by
  rintro before e after rfl allowed
  rw [hints_append] at none
  rw [inForce_append_of_nil past (List.append_eq_nil_iff.mp none).1, off] at allowed
  cases allowed

/-- A rest is confined. -/
theorem confined_still {past es : List Event} (idle : (ledger past).phase = .idle)
    (still : Still es) : Lawful (fun before => Confined (past ++ before)) es := by
  rintro before e after rfl _
  obtain ⟨first, rest⟩ := without_append.mp still
  obtain ⟨here, _⟩ := without_cons.mp rest
  refine ⟨?_, ?_⟩
  · rw [ledger_append, Ledger.phase_still first]
    exact idle
  · cases e <;> first | rfl | cases here

/-- A worker remembers the hint that it gave last and has not left `idle` while
that is to allow low power. -/
structure Poised (w : Worker) (es : List Event) : Prop where
  told : inForce es = .of w.lowPower
  place : w.lowPower = true → w.phase = .idle
  alternate : (Hint.disallowLowPower :: hints es).IsChain (· ≠ ·)
  confined : Lawful Confined es

namespace Poised

variable {l l' : Link cap} {w w' : Worker} {p q : Point} {past es : List Event}

theorem boot (settings : Settings) : Poised (.boot settings) [.booted settings] where
  told := rfl
  place allowed := by cases allowed
  alternate := .singleton _
  confined := @confined_unhinted [] _ rfl rfl

/-- What neither hints nor stirs changes nothing. -/
theorem remark (poised : Poised w past) (phase : w.phase = (ledger past).phase)
    (none : hints es = []) (still : Still es) : Poised w (past ++ es) where
  told := by rw [inForce_append_of_nil past none, poised.told]
  place := poised.place
  alternate := by
    rw [hints_append, none, List.append_nil]
    exact poised.alternate
  confined := by
    refine lawful_append.mpr ⟨poised.confined, ?_⟩
    by_cases allowed : w.lowPower = true
    · exact confined_still (phase.symm.trans (poised.place allowed)) still
    · refine confined_unhinted ?_ none
      rw [poised.told, (Bool.not_eq_true _).mp allowed]
      rfl

/-- A turn in `idle` is a rest, up to a transition. -/
theorem confined_lull (poised : Poised w past) (idle : (ledger past).phase = .idle)
    (lull : Lull l w es l' w') :
    Lawful (fun before => Confined (past ++ before)) es ∧
      (w'.lowPower = true → w.phase = w'.phase) := by
  cases lull with
  | rest => exact ⟨lawful_nil _, fun _ => rfl⟩
  | park _ => exact ⟨confined_still idle (by simp [Event.stirs]), fun _ => rfl⟩
  | @rise opening note _ m target opens _ _ =>
      have still : Still (opening ++ (hinting w.lowPower false ++ [.noticed note])) := by
        rcases opens with rfl | rfl <;> simp [Event.stirs]
      have off : inForce (past ++ (opening ++ (hinting w.lowPower false ++ [.noticed note]))) =
          .disallowLowPower := by
        have none : hints opening = [] := by
          rcases opens with rfl | rfl <;> rfl
        rw [inForce_append, hints_append, none, hints_append, poised.told]
        show (hints (hinting w.lowPower false) ++ []).getLastD _ = _
        rw [List.append_nil, getLastD_hinting]
        rfl
      refine ⟨lawful_append.mpr ⟨confined_still idle still, ?_⟩, fun other => by cases other⟩
      have rest := confined_unhinted off (hints_arrival m.status .idle target)
      simp only [List.append_assoc] at rest ⊢
      exact rest

/-- Every turn keeps low power confined to rests. -/
theorem turn (turn : Turn l w p es l' w' q) (stands : w.At p)
    (phase : w.phase = (ledger past).phase) (poised : Poised w past) :
    Poised w' (past ++ es) := by
  obtain ⟨hinted, _⟩ := turn.hints_eq stands
  have told : inForce (past ++ es) = .of w'.lowPower := by
    rw [inForce_append, hinted, poised.told, getLastD_hinting]
  have alternate : (Hint.disallowLowPower :: hints (past ++ es)).IsChain (· ≠ ·) := by
    rw [hints_append]
    refine alternate_append.mpr ⟨poised.alternate, ?_⟩
    rw [show (hints past).getLastD .disallowLowPower = .of w.lowPower from poised.told, hinted]
    exact isChain_hinting _ _
  by_cases idle : w.phase = .idle
  · obtain ⟨confined, still⟩ := poised.confined_lull (phase.symm.trans idle) (turn.lull stands idle)
    exact ⟨told, fun allowed => (still allowed).symm.trans idle, alternate,
      lawful_append.mpr ⟨poised.confined, confined⟩⟩
  · obtain ⟨none, remembers, _⟩ := turn.unhinted stands idle
    have off : w.lowPower = false :=
      Bool.eq_false_iff.mpr fun allowed => idle (poised.place allowed)
    refine ⟨told, fun allowed => ?_, alternate, lawful_append.mpr ⟨poised.confined, ?_⟩⟩
    · rw [remembers, off] at allowed
      cases allowed
    · refine confined_unhinted ?_ none
      rw [poised.told, off]
      rfl

end Poised

/-- Every worker agrees with its ledger and is poised. -/
def AllPoised (m : Moment cap) : Prop :=
  Everyone (fun w p es => w.At p ∧ Agrees w p (ledger es) ∧ Poised w es) m

/-- Workers stay poised from moment to moment. -/
theorem AllPoised.next {may : List (Option Post) → Prop} {m n : Moment cap} (all : AllPoised m)
    (next : m.Next may n) : AllPoised n := by
  refine Everyone.next ?_ ?_ ?_ ?_ all next
  · exact fun settings => ⟨trivial, .boot settings, .boot settings⟩
  · rintro w es ⟨stands, agrees, poised⟩
    refine ⟨stands, ?_, poised.remark agrees.keeps.phase rfl (by simp [Event.stirs])⟩
    rw [ledger_append]
    exact agrees
  · exact fun w suspension es ⟨_, agrees, poised⟩ => ⟨trivial, agrees.outset, poised⟩
  · rintro l l' w w' p q past es turn ⟨stands, agrees, poised⟩
    refine ⟨turn.at_next stands, ?_, poised.turn turn stands agrees.keeps.phase⟩
    rw [ledger_append]
    exact agrees.turn turn stands

/-! ## What the link shows -/

/-- Every worker agrees with its ledger, and the link shows the hint that was given
last. -/
structure Told (m : Moment cap) : Prop where
  agree : AllAgree m
  shown : Hint.of m.link.status.lowPower = inForce (events m.journal)

theorem Told.next {may : List (Option Post) → Prop} {m n : Moment cap} (told : Told m)
    (next : m.Next may n) : Told n := by
  refine ⟨told.agree.next next, ?_⟩
  have shown := told.shown
  cases next with
  | feed fed =>
      obtain ⟨_, status⟩ := fed.status_eq
      rw [events_append, events_entries,
        inForce_append_of_nil _ (hints_of_undisturbed fed.undisturbed), ← shown, status]
  | turn here turn =>
      obtain ⟨stands, _⟩ := told.agree.here here
      rw [events_append, events_entries, inForce_append, ← shown]
      exact (turn.hints_eq stands).2
  | boot _ _ | announce _ =>
      rw [events_append, events_entries, inForce_append_of_nil _ rfl]
      exact shown
  | cancel _ | drop _ => exact shown

/-- There is at most one worker, and it has given all the hints. -/
structure OneVoice (m : Moment cap) : Prop where
  few : m.posts.length ≤ 1
  all : hints (events m.journal) = hints (own 0 m.journal)

namespace OneVoice

variable {m n : Moment cap}

/-- What the only worker does is done by the only worker. -/
theorem of_worker (voice : OneVoice m) {id : Nat} {es : List Event} (first : id = 0) :
    hints (events (m.journal ++ entries (.worker id) es)) =
      hints (own 0 (m.journal ++ entries (.worker id) es)) := by
  rw [first, events_append, events_entries, own_append, own_entries_self, hints_append,
    hints_append, voice.all]

theorem next (voice : OneVoice m) (next : m.Next (fun posts => posts = []) n) : OneVoice n := by
  have few := voice.few
  have only {id : Nat} {post : Option Post} (here : m.posts[id]? = some post) : id = 0 := by
    have inside := (List.getElem?_eq_some_iff.mp here).1
    omega
  have length {id : Nat} {post : Option Post} : (m.posts.set id post).length ≤ 1 := by
    rw [List.length_set]
    exact few
  cases next with
  | feed fed =>
      refine ⟨few, ?_⟩
      rw [events_append, events_entries, own_append, own_entries_producer, List.append_nil,
        hints_append, hints_of_undisturbed fed.undisturbed, List.append_nil]
      exact voice.all
  | boot settings none =>
      have first : m.posts.length = 0 := List.length_eq_zero_iff.mpr none
      refine ⟨?_, voice.of_worker first⟩
      rw [List.length_append, first]
      exact Nat.le_refl 1
  | turn here _ => exact ⟨length, voice.of_worker (only here)⟩
  | announce here => exact ⟨few, voice.of_worker (only here)⟩
  | cancel _ | drop _ => exact ⟨length, voice.all⟩

end OneVoice

/-! ## Histories -/

section Histories

variable [Crew ε]

theorem poised_after (ops : List (Op ε)) :
    Everyone (fun w p es => w.At p ∧ Agrees w p (ledger es) ∧ Poised w es)
      ((World.after cap ops).moment (World.journal cap ops)) :=
  World.invariant (I := AllPoised) (fun id => .inl ⟨Nat.zero_le id, rfl⟩)
    (fun _ _ all next => all.next next) (World.boots_any ops _)

theorem told_after (ops : List (Op ε)) :
    Told ((World.after cap ops).moment (World.journal cap ops)) := by
  refine World.invariant ?_ (fun _ _ told next => told.next next) (World.boots_any ops _)
  exact ⟨fun id => .inl ⟨Nat.zero_le id, rfl⟩, rfl⟩

/-- The hints of a worker alternate, even if it has been dropped, and low power is
confined to its rests. -/
theorem confined_after (ops : List (Op ε)) (id : Nat) :
    (Hint.disallowLowPower :: hints (own id (World.journal cap ops))).IsChain (· ≠ ·) ∧
      Lawful Confined (own id (World.journal cap ops)) := by
  rcases @poised_after cap _ _ ops id with ⟨_, none⟩ | ⟨w, p, ⟨_, _, poised⟩, _⟩
  · have nothing : own id (World.journal cap ops) = [] := none
    rw [nothing]
    exact ⟨.singleton _, lawful_nil _⟩
  · exact ⟨poised.alternate, poised.confined⟩

theorem voice_after {ops : List (Op ε)} (alone : ops.countP Op.isBoot = 1) :
    OneVoice ((World.after cap ops).moment (World.journal cap ops)) :=
  World.invariant ⟨Nat.zero_le 1, rfl⟩ (fun _ _ voice next => voice.next next) (boots_sole alone)

/-- The hints on a link with one worker alternate. -/
theorem alternate_after {ops : List (Op ε)} (alone : ops.countP Op.isBoot = 1) :
    (Hint.disallowLowPower :: hints (events (World.journal cap ops))).IsChain (· ≠ ·) := by
  have voice : hints (events (World.journal cap ops)) = hints (own 0 (World.journal cap ops)) :=
    (voice_after alone).all
  rw [voice]
  exact (confined_after ops 0).1

theorem Hint.of_eq_allow_iff (allowed : Bool) :
    Hint.of allowed = .allowLowPower ↔ allowed = true := by
  cases allowed <;> simp [of]

end Histories

end StoreForward
