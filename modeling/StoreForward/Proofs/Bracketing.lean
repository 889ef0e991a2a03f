import Mathlib.Data.List.Induction
import StoreForward.Crew.Script
import StoreForward.Proofs.Chronicle

/-!
# Well-bracketed calls

A worker brings the network up before it opens a session, opens a session
before it publishes, and undoes both in the reverse order. It does so on its
own: its calls are well bracketed whatever the other workers on the link do
to the failure signal, however its crew fails, and wherever it abandons a
step and begins it again.

The rule `Bracketed` says when a request may be made, by what the worker has
called for before and how that ended. Sessions go by the order in which the
worker opened them, so that the latest session has the number of connects
that have succeeded (`opened`).

`Nested` ties the rule to the worker. The phase says whether the network is
up, except for a worker that has halted, and the session that a worker
remembers is the one its events leave open. A transition can be led astray by
a failure signal that another worker has raised or lowered, but only to a
phase that the same events allow.

## Main results

* `Nested.turn` — every turn keeps the calls nested.
* `calls_well_bracketed` — the calls of every worker are well bracketed.
-/

namespace StoreForward

variable {cap : Nat} {ε : Type}

/-! ## What the events of a worker say about network and session -/

/-- The network has been taken down, or at least the attempt is over. -/
def Event.endsNetwork : Event → Bool
  | answered .stop _ => true
  | _ => false

/-- A start has succeeded since the last completed stop. -/
def NetworkUp (es : List Event) : Prop :=
  .answered .start .ok ∈ since Event.endsNetwork es

/-- How many sessions have been opened; the latest one has this number. -/
def opened (es : List Event) : Nat := es.count (.answered .connect .ok)

/-- The latest session, unless it was never opened or has been passed to a
close. -/
def sessionOf (es : List Event) : Option Nat :=
  if 0 < opened es ∧ .called (.close (opened es)) ∉ es then some (opened es) else none

/-- When a request may be made, given the events before it. -/
def Bracketed (before : List Event) : Event → Prop
  | .called .start => ¬ NetworkUp before
  | .called .sync => NetworkUp before
  | .called .connect => NetworkUp before ∧ sessionOf before = none
  | .called (.publish session _) => NetworkUp before ∧ sessionOf before = some session
  | .called (.close session) => NetworkUp before ∧ sessionOf before = some session
  | .called .stop => NetworkUp before ∧ sessionOf before = none
  | _ => True

theorem bracketed_of_not_called {before : List Event} {e : Event}
    (other : ∀ request, e ≠ .called request) : Bracketed before e := by
  cases e with
  | called request => exact absurd rfl (other request)
  | _ => trivial

/-! ### Events that make no difference -/

theorem networkUp_append {es fs : List Event} (none : ∀ e ∈ fs, e.endsNetwork = false)
    (noStart : .answered .start .ok ∉ fs) : NetworkUp (es ++ fs) ↔ NetworkUp es := by
  rw [NetworkUp, since_append es none, List.mem_append, or_iff_left noStart]
  rfl

theorem networkUp_quiet {es fs : List Event} (quiet : Quiet fs) :
    NetworkUp (es ++ fs) ↔ NetworkUp es := by
  refine networkUp_append ?_ ?_
  · intro e there
    have := quiet e there
    cases e <;> first | rfl | cases this
  · intro there
    cases quiet _ there

theorem networkUp_called {es : List Event} (request : Request) :
    NetworkUp (es ++ [.called request]) ↔ NetworkUp es :=
  networkUp_append (by simp [Event.endsNetwork]) (by simp)

theorem networkUp_answered {es : List Event} {request : Request} {answer : Answer}
    (noStop : request ≠ .stop) (noStart : ¬ (request = .start ∧ answer = .ok)) :
    NetworkUp (es ++ [.answered request answer]) ↔ NetworkUp es := by
  refine networkUp_append ?_ ?_
  · intro e there
    rw [List.mem_singleton.mp there]
    cases request <;> first | rfl | exact absurd rfl noStop
  · intro there
    simp at there
    exact noStart ⟨there.1.symm, there.2.symm⟩

theorem networkUp_started (es : List Event) : NetworkUp (es ++ [.answered .start .ok]) := by
  rw [NetworkUp, since_append es (by simp [Event.endsNetwork])]
  simp

theorem not_networkUp_stopped (es : List Event) (answer : Answer) :
    ¬ NetworkUp (es ++ [.answered .stop answer]) := by
  rw [NetworkUp, since_append_cons es rfl (by simp)]
  simp

theorem sessionOf_append (es : List Event) {fs : List Event}
    (noConnect : .answered .connect .ok ∉ fs)
    (noClose : ∀ session, .called (.close session) ∉ fs) :
    opened (es ++ fs) = opened es ∧ sessionOf (es ++ fs) = sessionOf es := by
  have same : opened (es ++ fs) = opened es := by
    rw [opened, List.count_append, List.count_eq_zero.mpr noConnect]
    rfl
  refine ⟨same, ?_⟩
  simp [sessionOf, same, noClose]

/-! ## What a worker knows of its own calls -/

/-- The session that a worker remembers is the one its events leave open, no
session has been closed before it was opened, and every call so far was in
order. -/
structure Books (w : Worker) (es : List Event) : Prop where
  session : w.session = sessionOf es
  opened : w.opened = opened es
  closed : ∀ session, .called (.close session) ∈ es → session ≤ StoreForward.opened es
  lawful : Lawful Bracketed es

namespace Books

variable {w : Worker} {es : List Event}

/-- Events that neither open nor close a session. -/
theorem append (books : Books w es) {fs : List Event}
    (noConnect : .answered .connect .ok ∉ fs)
    (noClose : ∀ session, .called (.close session) ∉ fs)
    (lawful : Lawful (fun before => Bracketed (es ++ before)) fs) : Books w (es ++ fs) := by
  obtain ⟨same, kept⟩ := sessionOf_append es noConnect noClose
  refine ⟨by rw [kept, books.session], by rw [same, books.opened], ?_, ?_⟩
  · intro session there
    rw [same]
    rcases List.mem_append.mp there with there | there
    · exact books.closed session there
    · exact absurd there (noClose session)
  · exact lawful_append.mpr ⟨books.lawful, lawful⟩

/-- Books are about the sessions of a worker only. -/
theorem of_eq {v : Worker} (books : Books w es) (session : v.session = w.session)
    (opened : v.opened = w.opened) : Books v es :=
  ⟨session.trans books.session, opened.trans books.opened, books.closed, books.lawful⟩

theorem quiet (books : Books w es) {fs : List Event} (quiet : Quiet fs) :
    Books w (es ++ fs) := by
  refine books.append ?_ ?_ (.of_forall ?_)
  · intro there
    cases quiet _ there
  · intro session there
    cases quiet _ there
  · intro e there before
    refine bracketed_of_not_called fun request same => ?_
    subst same
    cases quiet _ there

/-- A request in order, other than a close. -/
theorem call (books : Books w es) {request : Request}
    (other : ∀ session, request ≠ .close session) (rule : Bracketed es (.called request)) :
    Books w (es ++ [.called request]) := by
  refine books.append (by simp) (fun session there => ?_) ?_
  · simp at there
    exact other session there.symm
  · exact lawful_cons.mpr ⟨by simpa using rule, lawful_nil _⟩

/-- A close in order: the session is given up with it. -/
theorem close (books : Books w es) {session : Nat}
    (rule : Bracketed es (.called (.close session))) :
    Books { w with session := none } (es ++ [.called (.close session)]) := by
  have latest : StoreForward.opened es = session := by
    have open' := rule.2
    unfold sessionOf at open'
    split at open' <;> cases open'
    rfl
  have same : StoreForward.opened (es ++ [.called (.close session)]) = session := by
    rw [StoreForward.opened, List.count_append, ← latest]
    simp [StoreForward.opened]
  constructor
  · simp [sessionOf, same]
  · rw [same, ← latest]
    exact books.opened
  · intro other there
    rw [same]
    rcases List.mem_append.mp there with there | there
    · rw [← latest]
      exact books.closed other there
    · simp at there
      omega
  · exact lawful_append.mpr
      ⟨books.lawful, lawful_cons.mpr ⟨by simpa using rule, lawful_nil _⟩⟩

/-- An answer that does not open a session. -/
theorem answer (books : Books w es) {request : Request} {answer : Answer}
    (other : ¬ (request = .connect ∧ answer = .ok)) :
    Books w (es ++ [.answered request answer]) := by
  refine books.append ?_ (by simp) (.of_forall ?_)
  · simp
    exact fun connect ok => other ⟨connect.symm, ok.symm⟩
  · intro e there before
    refine bracketed_of_not_called fun request same => ?_
    subst same
    simp at there

/-- A session is opened. It has not been closed, for no session with its
number was ever closed. -/
theorem connected (books : Books w es) :
    Books w.openSession (es ++ [.answered .connect .ok]) := by
  have more : StoreForward.opened (es ++ [.answered .connect .ok]) =
      StoreForward.opened es + 1 := by
    simp [StoreForward.opened]
  have fresh : .called (.close (StoreForward.opened es + 1)) ∉ es := by
    intro there
    have := books.closed _ there
    omega
  constructor
  · simp [sessionOf, more, fresh, Worker.openSession, books.opened]
  · simp [more, Worker.openSession, books.opened]
  · intro session there
    have old : .called (.close session) ∈ es := by simpa using there
    have := books.closed _ old
    omega
  · refine lawful_append.mpr ⟨books.lawful, lawful_cons.mpr ⟨trivial, lawful_nil _⟩⟩

end Books

/-! ## Phases, network and session -/

namespace Phase

/-- Whether the network is up in a phase; a worker may halt either way. -/
def online? : Phase → Option Bool
  | start | connectNetwork | idle => some false
  | fatal => none
  | _ => some true

/-- Whether the network is up at the end of the action of a phase that
succeeds. -/
def leavesOnline : Phase → Bool
  | start | disconnectNetwork | idle => false
  | _ => true

/-- No session is held in the phase. -/
def isOutside : Phase → Bool
  | start | connectNetwork | syncTime | disconnectNetwork | idle => true
  | _ => false

/-- Whatever the guards are, a transition leads to a phase that fits the
network, or to a halt. -/
theorem online?_next (source : Phase) (g : Guards) :
    (source.next g).online? = none ∨ (source.next g).online? = some source.leavesOnline := by
  revert g
  cases source <;> (apply Guards.of_flags; decide)

/-- Only from these phases does a transition lead to one without a session. -/
theorem isOutside_of_next {source : Phase} {g : Guards}
    (outside : (source.next g).isOutside = true) :
    source.isOutside = true ∨ source = closeSession := by
  revert g
  cases source <;> (apply Guards.of_flags; decide)

end Phase

/-! ## Nesting -/

/-- A worker knows of its calls, and its phase fits them. -/
structure Nested (w : Worker) (es : List Event) : Prop where
  books : Books w es
  network : ∀ up, w.phase.online? = some up → (NetworkUp es ↔ up = true)
  free : w.phase.isOutside = true → w.session = none

section Closing

variable {l l₁ : Link cap} {w w₁ : Worker} {source : Phase} {p : Point} {past es : List Event}

theorem Closing.books (closing : Closing l w source p es l₁ w₁) (books : Books w past) :
    Books w₁ (past ++ es) := by
  cases closing with
  | succeeded job plain =>
      rw [List.append_cons]
      refine (books.answer ?_).quiet (quiet_success plain)
      rintro ⟨connect, -⟩
      cases job <;> cases connect
      cases plain
  | connected =>
      rw [List.append_cons]
      exact books.connected.quiet (by simp [Event.isTraffic])
  | failed job error =>
      rw [List.append_cons]
      exact (books.answer (by simp)).quiet (by simp [Event.isTraffic])
  | _ =>
      refine Books.of_eq (w := w) ?_ rfl rfl
      exact books.quiet (by simp [Event.isTraffic])

/-- The end of an action leaves the network as the phase has it. A start that
failed leaves it down, but also leaves the failure signal up. -/
theorem Closing.network (closing : Closing l w source p es l₁ w₁) (stands : w.At p)
    (nested : Nested w past) :
    (NetworkUp (past ++ es) ↔ source.leavesOnline = true) ∨
      (source = .connectNetwork ∧ l₁.status.failed = true) := by
  have before := nested.network
  rw [closing.phase_eq stands] at before
  cases closing with
  | succeeded job plain =>
      left
      rw [List.append_cons, networkUp_quiet (quiet_success plain)]
      cases job with
      | start => simp [Job.request, Job.phase, Phase.leavesOnline, networkUp_started]
      | sync =>
          exact (networkUp_answered (by simp [Job.request]) (by simp [Job.request])).trans
            (before true rfl)
      | close session =>
          exact (networkUp_answered (by simp [Job.request]) (by simp [Job.request])).trans
            (before true rfl)
      | stop => simp [Job.request, Job.phase, Phase.leavesOnline, not_networkUp_stopped]
      | _ => cases plain
  | connected =>
      left
      rw [List.append_cons, networkUp_quiet (by simp [Event.isTraffic])]
      exact (networkUp_answered (by simp) (by simp)).trans (before true rfl)
  | failed job error =>
      rw [List.append_cons, networkUp_quiet (by simp [Event.isTraffic])]
      cases job with
      | start => exact .inr ⟨rfl, rfl⟩
      | stop =>
          left
          simp [Job.request, Job.phase, Phase.leavesOnline, not_networkUp_stopped]
      | _ =>
          left
          exact (networkUp_answered (by simp [Job.request]) (by simp)).trans (before true rfl)
  | _ =>
      left
      rw [networkUp_quiet (by simp [Event.isTraffic])]
      exact before _ rfl

/-- At the end of an action after which no session may be held, none is. -/
theorem Closing.free (closing : Closing l w source p es l₁ w₁) (stands : w.At p)
    (nested : Nested w past) (outside : source.isOutside = true ∨ source = .closeSession) :
    w₁.session = none := by
  have free := nested.free
  rw [closing.phase_eq stands] at free
  cases closing with
  | unheld _ none => exact none
  | succeeded job _ =>
      rcases outside with outside | closing
      · exact free outside
      · cases job <;> cases closing
        exact stands.2
  | failed job _ =>
      rcases outside with outside | closing
      · exact free outside
      · cases job <;> cases closing
        exact stands.2
  | _ =>
      rcases outside with outside | closing
      · first | exact free outside | cases outside
      · cases closing

end Closing

namespace Nested

variable {w w₁ : Worker} {past es : List Event}

theorem quiet (nested : Nested w past) (quiet : Quiet es) : Nested w (past ++ es) :=
  ⟨nested.books.quiet quiet,
    fun up here => (networkUp_quiet quiet).trans (nested.network up here), nested.free⟩

/-- A transition keeps the calls nested, even one that a failure signal from
elsewhere has led astray. -/
theorem leave {l l₁ : Link cap} {source : Phase} {p : Point} (nested : Nested w past)
    (stands : w.At p) (closing : Closing l w source p es l₁ w₁) {fs : List Event}
    (quiet : Quiet fs) :
    Nested { w₁ with phase := source.next (l₁.guards w₁) } (past ++ (es ++ fs)) := by
  constructor
  · rw [← List.append_assoc]
    exact ((closing.books nested.books).quiet quiet).of_eq rfl rfl
  · intro up here
    rw [← List.append_assoc, networkUp_quiet quiet]
    rcases closing.network stands nested with fits | ⟨rfl, failed⟩
    · rcases Phase.online?_next source (l₁.guards w₁) with halted | leads
      · rw [halted] at here
        cases here
      · rw [leads] at here
        cases here
        exact fits
    · have halted : Phase.next .connectNetwork (l₁.guards w₁) = .fatal := if_pos failed
      rw [halted] at here
      cases here
  · exact fun outside => closing.free stands nested (Phase.isOutside_of_next outside)

/-- A request of the worker's phase is in order. -/
theorem bracketed_call {l l₁ : Link cap} {p : Point} {job : Job} (nested : Nested w past)
    (stands : w.At p) (calling : Calling l w p job es l₁ w₁) :
    Bracketed past (.called job.request) := by
  have session := nested.books.session
  cases calling with
  | start here =>
      have down := nested.network false (by rw [here]; rfl)
      simpa [Bracketed, Job.request] using down
  | sync here => exact (nested.network true (by rw [here]; rfl)).mpr rfl
  | connect here free =>
      exact ⟨(nested.network true (by rw [here]; rfl)).mpr rfl, session.symm.trans free⟩
  | publish _ =>
      exact ⟨(nested.network true (by rw [stands.1]; rfl)).mpr rfl,
        session.symm.trans stands.2⟩
  | close here held =>
      exact ⟨(nested.network true (by rw [here]; rfl)).mpr rfl, session.symm.trans held⟩
  | stop here =>
      exact ⟨(nested.network true (by rw [here]; rfl)).mpr rfl,
        session.symm.trans (nested.free (by rw [here]; rfl))⟩

/-- A request keeps the calls nested, whatever the crew makes of it. -/
theorem call {l l₁ : Link cap} {p : Point} {job : Job} (nested : Nested w past)
    (stands : w.At p) (calling : Calling l w p job es l₁ w₁) {fs : List Event}
    (quiet : Quiet fs) : Nested w₁ (past ++ (es ++ .called job.request :: fs)) := by
  have silent : Quiet es := by
    cases calling <;> simp [Event.isTraffic]
  have before := nested.quiet silent
  have rule := before.bracketed_call stands calling
  rw [show past ++ (es ++ .called job.request :: fs) =
    ((past ++ es) ++ [.called job.request]) ++ fs by simp]
  have network : ∀ up, w.phase.online? = some up →
      (NetworkUp (((past ++ es) ++ [.called job.request]) ++ fs) ↔ up = true) := by
    intro up here
    rw [networkUp_quiet quiet, networkUp_called]
    exact before.network up here
  cases calling with
  | close here _ =>
      exact ⟨(before.books.close rule).quiet quiet, network, fun _ => rfl⟩
  | sync here =>
      have books := (before.books.call (by simp [Job.request]) rule).quiet quiet
      exact ⟨books.of_eq rfl rfl, network, nested.free⟩
  | _ =>
      have books := (before.books.call (by simp [Job.request]) rule).quiet quiet
      exact ⟨books, network, nested.free⟩

/-- Every turn keeps the calls nested. -/
theorem turn {l l' : Link cap} {w' : Worker} {p q : Point} (turn : Turn l w p es l' w' q)
    (stands : w.At p) (nested : Nested w past) : Nested w' (past ++ es) := by
  cases turn with
  | call calling fed _ => exact nested.call stands calling fed.quiet
  | leave closing => exact nested.leave stands closing (quiet_arrival _ _ _)
  | published _ | overflown =>
      rw [List.append_cons]
      refine Nested.quiet ?_ (by simp [Event.isTraffic])
      refine ⟨nested.books.answer (by simp), fun up here => ?_, nested.free⟩
      exact (networkUp_answered (by simp) (by simp)).trans (nested.network up here)
  | park _ _ =>
      have silent : Quiet (.began .idle :: (discarding l.wakes.length ++
          hinting w.lowPower true ++ [.noticed .resting])) := by
        simp [Event.isTraffic]
      obtain ⟨books, network, free⟩ := nested.quiet silent
      exact ⟨books.of_eq rfl rfl, network, free⟩
  | _ => exact nested.quiet (by simp [Event.isTraffic])

theorem boot (settings : Settings) : Nested (.boot settings) [.booted settings] := by
  refine ⟨⟨rfl, rfl, by simp, lawful_cons.mpr ⟨trivial, lawful_nil _⟩⟩, ?_, fun _ => rfl⟩
  intro up here
  cases here
  simp [NetworkUp, since, sinceStep, Event.endsNetwork]

end Nested

/-! ## Histories -/

theorem not_closed_of_sessionOf {es : List Event} {session : Nat}
    (held : sessionOf es = some session) : .called (.close session) ∉ es := by
  unfold sessionOf at held
  split at held
  · rename_i live
    cases held
    exact live.2
  · cases held

/-- No session is closed twice, if every close is for the session that is
open. -/
theorem count_close_le_one {es : List Event} (lawful : Lawful Bracketed es) (session : Nat) :
    es.count (.called (.close session)) ≤ 1 := by
  induction es using List.reverseRecOn with
  | nil => exact Nat.zero_le 1
  | append_singleton es e ih =>
      obtain ⟨before, last⟩ := lawful_append.mp lawful
      rw [List.count_append]
      by_cases close : e = .called (.close session)
      · subst close
        have rule := (lawful_cons.mp last).1
        rw [List.append_nil] at rule
        have never := not_closed_of_sessionOf rule.2
        rw [List.count_eq_zero.mpr never]
        simp
      · have other : [e].count (.called (.close session)) = 0 :=
          List.count_eq_zero.mpr (by simpa using Ne.symm close)
        rw [other]
        exact ih before

variable [Crew ε]

/-- Every worker of every history is nested. -/
theorem everyone_nested (ops : List (Op ε)) :
    Everyone (fun w p es => w.At p ∧ Nested w es)
      ((World.after cap ops).moment (World.journal cap ops)) := by
  refine World.own_invariant Nested.boot ?_ ?_ ?_ ops
  · exact fun w es nested => nested.quiet (by simp [Event.isTraffic])
  · exact fun w suspension es nested => nested
  · exact fun l l' w w' p q past es turn stands nested => nested.turn turn stands

/-- **Well-bracketed calls.** Whatever the crews answer, whatever other
workers do on the link, and wherever steps are abandoned or end at a check,
the calls of every worker are well bracketed: a request other than a start is
made only while the network is up, and a start only while it is not; a
connect and a stop are made only while no session is held, a publish and a
close only for the session that is; and no session is passed to a close
twice. The session that a worker holds is the one that its calls leave open. -/
theorem calls_well_bracketed (ops : List (Op ε)) (id : Nat) :
    let calls := own id (World.journal cap ops)
    Lawful Bracketed calls ∧
      (∀ session, calls.count (.called (.close session)) ≤ 1) ∧
      ∀ s, (World.after cap ops).station? id = some s →
        s.worker.session = sessionOf calls := by
  intro calls
  have all : Everyone _ ((World.after cap ops).moment (World.journal cap ops)) :=
    everyone_nested ops
  have lawful : Lawful Bracketed calls := by
    rcases all id with ⟨_, none⟩ | ⟨w, p, ⟨_, nested⟩, _⟩
    · have nothing : calls = [] := none
      rw [nothing]
      exact lawful_nil _
    · exact nested.books.lawful
  refine ⟨lawful, count_close_le_one lawful, fun s here => ?_⟩
  exact (all.here (World.posts_of_station? here)).2.books.session

/-- A worker in the middle of its first publish holds its first session. -/
theorem calls_well_bracketed_publishing :
    let ops : List (Op Script) :=
      [.boot {} { publish := [{ polls := 1 }] }, .offer (.tagged 7), .launch 0 .run]
    Lawful Bracketed (own 0 (World.journal 2 ops)) ∧
      ∃ s, (World.after 2 ops).station? 0 = some s ∧ s.worker.session = some 1 := by
  intro ops
  have present : ((World.after 2 ops).station? 0).isSome = true := by
    decide +kernel
  obtain ⟨s, here⟩ := Option.isSome_iff_exists.mp present
  obtain ⟨lawful, _, session⟩ := @calls_well_bracketed 2 Script _ ops 0
  refine ⟨lawful, s, here, ?_⟩
  rw [session s here]
  decide +kernel

end StoreForward
