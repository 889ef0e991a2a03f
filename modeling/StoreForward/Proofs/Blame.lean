import StoreForward.Proofs.Table

/-!
# Who is to blame

The publish action looks whether there is a session, and signals a failure to
publish if there is none. This never happens, on any link: a worker that is
ready or publishing holds a session whatever the other workers do, because
the step that would have led it there without one has raised the failure
signal in the same turn in which it consulted the table, so that nobody could
lower it in between. A worker that abandons the close of its session has given
the session up, but is still in `closeSession`, from where there is no way
back.

What is left to raise the failure signal and to set the fault are the answers
to requests. `blamed` reads the fault off a journal from the requests that
failed and the halts alone, and the fault of a link is always the one that its
journal has to blame. An answer in turn is always to the request that its
worker has made last, in the same step.

## Main definitions

* `blamed` — the fault, from the journal.
* `Awaited` — an answer is to the request made last, in the same step.
* `Blamed` — signal and fault are what the journal has to blame.

## Main results

* `Turn.blame` — every turn keeps the fault what the journal says.
* `failures_are_answers` — nothing but a failed request raises a fault.
-/

namespace StoreForward

variable {cap : Nat} {ε : Type}

/-! ## The fault -/

/-- The fault that a failure of the request is, unless it is part of tearing
down. -/
def Request.fault? : Request → Option Fault
  | start => some .networkStart
  | sync => some .timeSync
  | connect => some .sessionConnect
  | publish _ _ => some .publish
  | close _ => none
  | stop => none

/-- What an event makes of the fault. A halt keeps the fault that led to it; a
worker that halts at once was stopped by a failure that it did not expect. -/
def Event.blame (fault : Option Fault) : Event → Option Fault
  | .answered request (.failed _) => request.fault?.or fault
  | .entered source .fatal =>
    some (if source = .start then .unexpected else fault.getD .unexpected)
  | _ => fault

/-- The fault after some events, by whichever workers. -/
def blamed (es : List Event) : Option Fault := es.foldl Event.blame none

theorem blamed_append (es fs : List Event) :
    blamed (es ++ fs) = fs.foldl Event.blame (blamed es) :=
  List.foldl_append

theorem blame_asides {es : List Event} (asides : Asides es) (fault : Option Fault) :
    es.foldl Event.blame fault = fault := by
  refine foldl_without ?_ asides fault
  intro fault e aside
  cases e <;> first | rfl | cases aside

theorem blame_arrival (st : Status) (source target : Phase) :
    (arrival st source target).foldl Event.blame st.fault = (st.enter source target).fault := by
  obtain ⟨asides, here, rest⟩ := arrival_eq st source target
  rw [here, List.foldl_cons, blame_asides rest]
  cases target <;> rfl

/-- Only a publish that fails makes publishing the fault. -/
theorem failed_of_blame {es : List Event} : ∀ {fault : Option Fault},
    es.foldl Event.blame fault = some .publish → fault = some .publish ∨
      ∃ session batch error, .answered (.publish session batch) (.failed error) ∈ es := by
  induction es with
  | nil => exact fun blamed => .inl blamed
  | cons e es ih =>
      intro fault blamed
      rcases ih blamed with here | ⟨session, batch, error, there⟩
      · unfold Event.blame at here
        split at here
        · rename_i request error
          cases request with
          | publish session batch => exact .inr ⟨session, batch, error, List.mem_cons_self⟩
          | close _ | stop => exact .inl here
          | start | sync | connect => cases here
        · left
          split at here
          · cases here
          · cases fault with
            | none => cases here
            | some _ => exact here
        · exact .inl here
      · exact .inr ⟨session, batch, error, List.mem_cons_of_mem e there⟩

section Turns

variable {l l' l₁ : Link cap} {w w' w₁ : Worker} {source : Phase} {p q : Point}
  {es : List Event}

theorem Link.fault_hinted (l : Link cap) (was allowed : Bool) :
    (l.hinted was allowed).status.fault = l.status.fault := by
  unfold hinted
  dsimp only
  split <;> rfl

/-- A request leaves the fault alone. -/
theorem Calling.blame (calling : Calling l w p job es l₁ w₁) :
    l₁.status.fault = l.status.fault ∧ ∀ fault, es.foldl Event.blame fault = fault := by
  cases calling <;> exact ⟨rfl, fun _ => rfl⟩

/-- The fault at the end of an action is what the journal says. -/
theorem Closing.blame (closing : Closing l w source p es l₁ w₁)
    (held : w.phase = .publish → w.session.isSome = true) :
    l₁.status.fault = es.foldl Event.blame l.status.fault := by
  cases closing with
  | unopened here free =>
      have session := held here
      rw [free] at session
      cases session
  | skipped _ _ =>
      rw [List.foldl_cons, blame_asides (by simp [Event.isDeed]), Link.fault_hinted]
      rfl
  | succeeded job plain =>
      rw [List.foldl_cons, blame_asides (asides_success plain)]
      rfl
  | failed job error => cases job <;> rfl
  | woken _ =>
      rw [blame_asides (by simp [Event.isDeed]), Link.fault_hinted]
  | _ => rfl

/-- Every turn keeps the fault what the journal says. -/
theorem Turn.blame (turn : Turn l w p es l' w' q)
    (held : w.phase = .publish → w.session.isSome = true) :
    l'.status.fault = es.foldl Event.blame l.status.fault := by
  cases turn with
  | call calling fed _ =>
      obtain ⟨same, silent⟩ := calling.blame
      obtain ⟨n, status⟩ := fed.status_eq
      rw [List.foldl_append, silent, List.foldl_cons, blame_asides fed.asides, status, ← same]
      rfl
  | leave closing =>
      rw [List.foldl_append, ← closing.blame held, blame_arrival]
  | park _ _ =>
      rw [List.foldl_cons, blame_asides (by simp [Event.isDeed]), Link.fault_hinted]
      rfl
  | _ => rfl

end Turns

/-! ## A session that is missing -/

/-- The event is the report that there is no session to publish in. -/
def Event.isMissing (e : Event) : Bool := decide (e = .noticed .sessionMissing)

/-- Nothing reports that there is no session to publish in. -/
abbrev Attended (es : List Event) : Prop := Without Event.isMissing es

@[simp] theorem attended_hinting (was allowed : Bool) : Attended (hinting was allowed) :=
  without_hinting (fun _ => rfl) rfl rfl was allowed

@[simp] theorem attended_discarding (stale : Nat) : Attended (discarding stale) :=
  without_discarding stale rfl

@[simp] theorem attended_arrival (st : Status) (source target : Phase) :
    Attended (arrival st source target) := by
  unfold arrival
  split <;> simp [Event.isMissing]

theorem attended_success {job : Job} {es : List Event} (plain : job.success? = some es) :
    Attended es := by
  cases job <;> cases plain <;> simp [Event.isMissing]

theorem Link.Fed.attended {l l' : Link cap} {es : List Event} (fed : l.Fed es l') :
    Attended es :=
  fed.without (fun _ _ => rfl) (fun _ => rfl) (fun _ => rfl) (fun _ => rfl)

/-- A worker that holds a session while it publishes does not miss it. -/
theorem Turn.attended {l l' : Link cap} {w w' : Worker} {p q : Point} {es : List Event}
    (turn : Turn l w p es l' w' q) (held : w.phase = .publish → w.session.isSome = true) :
    Attended es := by
  cases turn with
  | call calling fed _ =>
      refine without_append.mpr ⟨?_, without_cons.mpr ⟨rfl, fed.attended⟩⟩
      cases calling <;> simp [Event.isMissing]
  | leave closing =>
      refine without_append.mpr ⟨?_, attended_arrival _ _ _⟩
      cases closing with
      | unopened here free =>
          have session := held here
          rw [free] at session
          cases session
      | succeeded job plain => exact without_cons.mpr ⟨rfl, attended_success plain⟩
      | failed job _ => cases job <;> simp [Event.isMissing, Job.failure]
      | connected =>
          refine without_cons.mpr ⟨rfl, without_cons.mpr ⟨?_, without_nil⟩⟩
          split <;> rfl
      | _ => simp [Event.isMissing]
  | _ => simp [Event.isMissing]

/-! ## Answers to requests -/

/-- What an event makes of the request that a worker waits for. -/
def Event.inFlight (flight : Option Request) : Event → Option Request
  | .called request => some request
  | .answered _ _ => none
  | .began _ => none
  | _ => flight

/-- The request that a worker has made last in the step it is in, unless it
has been answered; from its own events. -/
def inFlight (es : List Event) : Option Request := es.foldl Event.inFlight none

theorem inFlight_called (es : List Event) (request : Request) {asides : List Event}
    (rest : Asides asides) : inFlight (es ++ .called request :: asides) = some request := by
  rw [inFlight, List.foldl_append, List.foldl_cons]
  refine foldl_without ?_ rest _
  intro flight e aside
  cases e <;> first | rfl | cases aside

/-- A turn that leads to a request being waited for has made it, or goes on waiting. -/
theorem Turn.flight {l l' : Link cap} {w w' : Worker} {p : Point} {past es : List Event}
    {job : Job} {polls : Nat} {answer : Answer}
    (turn : Turn l w p es l' w' (.waiting (.call job polls answer)))
    (flight : p = .waiting (.call job (polls + 1) answer) → inFlight past = some job.request) :
    inFlight (past ++ es) = some job.request := by
  cases turn with
  | call _ fed next =>
      rcases next with other | ⟨_, _, here⟩
      · cases other
      · cases here
        rw [← List.append_assoc]
        exact inFlight_called _ _ fed.asides
  | wait =>
      rw [List.append_nil]
      exact flight rfl

/-- When an answer may arrive, given the events of the worker before it: it is
to the request that was made last, in the step that is under way. -/
def Awaited (before : List Event) : Event → Prop
  | .answered request _ =>
    inFlight before = some request ∧ (ledger before).begun = some request.phase
  | _ => True

/-- The event is an answer. -/
def Event.isAnswer : Event → Bool
  | answered _ _ => true
  | _ => false

theorem unanswered_of_quiet {es : List Event} (quiet : Quiet es) : Without Event.isAnswer es := by
  refine quiet.weaken fun e silent => ?_
  cases e <;> first | rfl | cases silent

/-- A turn answers nothing but the request that is waited for, and does so
first of all. -/
theorem Turn.answers {l l' : Link cap} {w w' : Worker} {p q : Point} {es : List Event}
    (turn : Turn l w p es l' w' q) :
    Without Event.isAnswer es ∨ ∃ job answer rest, p = .waiting (.call job 0 answer) ∧
      es = .answered job.request answer :: rest ∧ Without Event.isAnswer rest := by
  cases turn with
  | call calling fed _ =>
      left
      refine without_append.mpr
        ⟨?_, without_cons.mpr ⟨rfl, unanswered_of_quiet fed.quiet⟩⟩
      cases calling <;> simp [Event.isAnswer]
  | leave closing =>
      have arrival (st : Status) (source target : Phase) :
          Without Event.isAnswer (arrival st source target) :=
        unanswered_of_quiet (quiet_arrival st source target)
      cases closing with
      | succeeded job plain =>
          exact .inr ⟨job, .ok, _, rfl, rfl, without_append.mpr
            ⟨unanswered_of_quiet (quiet_success plain), arrival _ _ _⟩⟩
      | connected =>
          exact .inr ⟨.connect, .ok, _, rfl, rfl, without_cons.mpr ⟨rfl, arrival _ _ _⟩⟩
      | failed job error =>
          exact .inr ⟨job, .failed error, _, rfl, rfl, without_cons.mpr ⟨rfl, arrival _ _ _⟩⟩
      | _ =>
          exact .inl (without_append.mpr
            ⟨unanswered_of_quiet (by simp [Event.isTraffic]), arrival _ _ _⟩)
  | @published session batch sent _ =>
      exact .inr ⟨.publish session batch sent, .ok, _, rfl, rfl, by simp [Event.isAnswer]⟩
  | @overflown session batch =>
      exact .inr ⟨.publish session batch 0xffffffff, .ok, _, rfl, rfl, without_nil⟩
  | _ => exact .inl (unanswered_of_quiet (by simp [Event.isTraffic]))

/-- A turn keeps a law about answers if it gives the answer that is waited for when
that is lawful. -/
theorem Turn.lawful {l l' : Link cap} {w w' : Worker} {p q : Point} {past es : List Event}
    (turn : Turn l w p es l' w' q) {law : List Event → Event → Prop}
    (others : ∀ before e, e.isAnswer = false → law before e)
    (answer : ∀ job answer, p = .waiting (.call job 0 answer) →
      law past (.answered job.request answer)) :
    Lawful (fun before => law (past ++ before)) es := by
  rcases turn.answers with none | ⟨job, given, rest, here, rfl, none⟩
  · exact .of_forall fun e there before => others _ e (none e there)
  · refine lawful_cons.mpr ⟨?_, .of_forall fun e there before => others _ e (none e there)⟩
    rw [List.append_nil]
    exact answer job given here

/-- A worker that waits for an answer has asked for it last, and every answer
so far was awaited. -/
structure Awaits (w : Worker) (p : Point) (es : List Event) : Prop where
  agrees : Agrees w p (ledger es)
  flight : ∀ (job : Job) (polls : Nat) (answer : Answer), p = .waiting (.call job polls answer) →
    inFlight es = some job.request
  awaited : Lawful Awaited es

namespace Awaits

theorem boot (settings : Settings) : Awaits (.boot settings) .outset [.booted settings] where
  agrees := .boot settings
  flight _ _ _ waits := by cases waits
  awaited := lawful_cons.mpr ⟨trivial, lawful_nil _⟩

theorem announce {w : Worker} {es : List Event} (awaits : Awaits w .outset es) :
    Awaits w .outset (es ++ [.noticed .workerStarted]) where
  agrees := by
    rw [ledger_append]
    exact awaits.agrees
  flight _ _ _ waits := by cases waits
  awaited := lawful_append.mpr ⟨awaits.awaited, lawful_cons.mpr ⟨trivial, lawful_nil _⟩⟩

theorem cancel {w : Worker} {suspension : Suspension} {es : List Event}
    (awaits : Awaits w (.waiting suspension) es) : Awaits w .outset es where
  agrees := awaits.agrees.outset
  flight _ _ _ waits := by cases waits
  awaited := awaits.awaited

/-- Every turn keeps answers awaited. -/
theorem turn {l l' : Link cap} {w w' : Worker} {p q : Point} {past es : List Event}
    (turn : Turn l w p es l' w' q) (stands : w.At p) (awaits : Awaits w p past) :
    Awaits w' q (past ++ es) := by
  refine ⟨?_, ?_, ?_⟩
  · rw [ledger_append]
    exact awaits.agrees.turn turn stands
  · rintro job polls answer rfl
    exact turn.flight (awaits.flight _ _ _)
  · refine lawful_append.mpr ⟨awaits.awaited, turn.lawful ?_ ?_⟩
    · intro before e other
      cases e <;> first | exact trivial | cases other
    · rintro job answer rfl
      have begun := (awaits.agrees.amid (by simp)).1
      rw [stands.1, ← job.phase_request] at begun
      exact ⟨awaits.flight _ _ _ rfl, begun⟩

end Awaits

/-! ## Histories -/

/-- Every worker agrees with its ledger, nothing was missing, and the signal
and the fault of the link are what its journal says. -/
structure Blamed (m : Moment cap) : Prop where
  agree : AllAgree m
  signal : m.link.status.failed = signalled (events m.journal)
  fault : m.link.status.fault = blamed (events m.journal)
  attended : Attended (events m.journal)

namespace Blamed

variable {may : List (Option Post) → Prop} {m n : Moment cap}

theorem fault_next (before : Blamed m) (next : m.Next may n) :
    n.link.status.fault = blamed (events n.journal) := by
  cases next with
  | feed fed =>
      obtain ⟨_, status⟩ := fed.status_eq
      rw [events_append, events_entries, blamed_append, blame_asides fed.asides, ← before.fault,
        status]
  | turn here turn =>
      obtain ⟨_, agrees⟩ := before.agree.here here
      rw [events_append, events_entries, blamed_append, ← before.fault]
      exact turn.blame fun publish => agrees.session (.inr publish)
  | boot _ _ | announce _ =>
      rw [events_append, events_entries, blamed_append, ← before.fault]
      rfl
  | cancel _ | drop _ => exact before.fault

theorem attended_next (before : Blamed m) (next : m.Next may n) :
    Attended (events n.journal) := by
  cases next with
  | feed fed =>
      rw [events_append, events_entries]
      exact without_append.mpr ⟨before.attended, fed.attended⟩
  | turn here turn =>
      obtain ⟨_, agrees⟩ := before.agree.here here
      rw [events_append, events_entries]
      exact without_append.mpr
        ⟨before.attended, turn.attended fun publish => agrees.session (.inr publish)⟩
  | boot _ _ | announce _ =>
      rw [events_append, events_entries]
      exact without_append.mpr ⟨before.attended, by simp [Event.isMissing]⟩
  | cancel _ | drop _ => exact before.attended

theorem next (before : Blamed m) (next : m.Next may n) : Blamed n where
  agree := before.agree.next next
  signal := before.agree.signal_next before.signal next
  fault := before.fault_next next
  attended := before.attended_next next

end Blamed

variable [Crew ε]

theorem blamed_after (ops : List (Op ε)) :
    Blamed ((World.after cap ops).moment (World.journal cap ops)) := by
  refine World.invariant ?_ (fun _ _ before next => before.next next) (World.boots_any ops _)
  exact ⟨fun id => .inl ⟨Nat.zero_le id, rfl⟩, rfl, rfl, without_nil⟩

/-- No worker of a history is ever answered out of turn. -/
theorem awaits_after (ops : List (Op ε)) :
    Everyone (fun w p es => w.At p ∧ Awaits w p es)
      ((World.after cap ops).moment (World.journal cap ops)) := by
  refine World.own_invariant .boot ?_ ?_ ?_ ops
  · exact fun w es awaits => awaits.announce
  · exact fun w suspension es awaits => awaits.cancel
  · exact fun l l' w w' p q past es turn stands awaits => awaits.turn turn stands

/-- **Failures are answers.** Whatever any number of workers on a link do, a
worker that is ready or publishing holds a session, and none ever reports that
it has none to publish in. The failure signal and the fault are those that the
answers in the journal account for, and an answer is to the request that its
worker has made last, in the same step. So publishing becomes the fault of a
link only through a publish call that failed. -/
theorem failures_are_answers (ops : List (Op ε)) :
    let journal := World.journal cap ops
    let world := World.after cap ops
    (∀ id s, world.station? id = some s →
      s.worker.phase = .ready ∨ s.worker.phase = .publish → s.worker.session.isSome = true) ∧
    .noticed .sessionMissing ∉ events journal ∧
    world.link.status.failed = signalled (events journal) ∧
    world.link.status.fault = blamed (events journal) ∧
    (∀ id, Lawful Awaited (own id journal)) ∧
    ∀ op, (world.apply op).world.link.status.fault = some .publish →
      world.link.status.fault = some .publish ∨
        ∃ session batch error, .answered (.publish session batch) (.failed error) ∈
          events (world.apply op).entries := by
  intro journal world
  have before : Blamed (world.moment journal) := blamed_after ops
  have accounts : world.link.status.fault = blamed (events journal) := before.fault
  refine ⟨fun id s here => ?_, fun missing => ?_, before.signal, accounts, fun id => ?_,
    fun op fault => ?_⟩
  · exact (before.agree.here (World.posts_of_station? here)).2.session
  · cases before.attended _ missing
  · rcases awaits_after ops id with ⟨_, none⟩ | ⟨_, _, ⟨_, awaits⟩, _⟩
    · have nothing : own id journal = [] := none
      rw [nothing]
      exact lawful_nil _
    · exact awaits.awaited
  · have after : Blamed ((World.after cap (ops ++ [op])).moment
        (World.journal cap (ops ++ [op]))) := blamed_after _
    rw [World.after_concat, World.journal_concat] at after
    have blame : (world.apply op).world.link.status.fault =
        blamed (events (journal ++ (world.apply op).entries)) := after.fault
    rw [events_append, blamed_append, ← accounts, fault] at blame
    exact failed_of_blame blame.symm

end StoreForward
