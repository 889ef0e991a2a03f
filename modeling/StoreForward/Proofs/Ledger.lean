import StoreForward.Proofs.Chronicle

/-!
# Ledgers

The transition table looks at flags and counters that a worker and its link
carry from step to step. What they ought to say can be read off what the
worker has done so far, and a `Ledger` does so: it is kept from the worker's
own events alone, one event at a time, and knows nothing of the link, of
other workers, or of what the worker remembers.

That a worker and its ledger agree is an invariant of turns (`Agrees.turn`).
It needs nothing about the other workers on the link. In particular a worker
is ready, or publishing, only with a session in hand: the step that opened
none has raised the failure signal in the same turn in which it consulted the
table.

## Main definitions

* `Ledger`, `ledger` — what the events of a worker say about it.
* `Keeps`, `Agrees` — a worker and its ledger say the same.

## Main results

* `Agrees.turn` — every turn keeps a worker and its ledger in agreement.
-/

namespace StoreForward

variable {cap : Nat} {ε : Type}

/-! ## Ledgers -/

/-- The phase whose action makes the request. -/
def Request.phase : Request → Phase
  | start => .connectNetwork
  | stop => .disconnectNetwork
  | sync => .syncTime
  | connect => .connectSession
  | publish _ _ => .publish
  | close _ => .closeSession

theorem Job.phase_request (job : Job) : job.request.phase = job.phase := by
  cases job <;> rfl

/-- What the events of a worker say about it. -/
structure Ledger where
  /-- The settings it was booted with. -/
  settings : Settings := {}
  /-- The phase it has entered last. -/
  phase : Phase := .start
  /-- The phase whose step it has begun last and not completed. -/
  begun : Option Phase := none
  /-- A request that belongs to this step has failed in it. -/
  failed : Bool := false
  /-- A step of `syncTime` has been begun. -/
  synced : Bool := false
  /-- Steps of `retrySession` begun since a session was last opened. -/
  retries : Nat := 0

namespace Ledger

/-- One more event. -/
def enter (r : Ledger) : Event → Ledger
  | .booted settings => { settings }
  | .began phase =>
    { r with
      begun := some phase
      failed := false
      synced := r.synced || decide (phase = .syncTime)
      retries := if phase = .retrySession then r.retries + 1 else r.retries }
  | .answered request (.failed _) =>
    { r with failed := r.failed || decide (r.begun = some request.phase) }
  | .answered .connect .ok => { r with retries := 0 }
  | .entered _ target => { r with phase := target, begun := none }
  | _ => r

/-- More events. -/
def read (r : Ledger) (es : List Event) : Ledger := es.foldl enter r

@[simp] theorem read_nil (r : Ledger) : r.read [] = r := rfl

@[simp] theorem read_cons (r : Ledger) (e : Event) (es : List Event) :
    r.read (e :: es) = (r.enter e).read es := rfl

@[simp] theorem read_append (r : Ledger) (es fs : List Event) :
    r.read (es ++ fs) = (r.read es).read fs :=
  List.foldl_append

/-- Asides are not entered. -/
theorem read_asides {es : List Event} (asides : Asides es) (r : Ledger) : r.read es = r := by
  refine foldl_without ?_ asides r
  intro r e aside
  cases e <;> first | rfl | cases aside

theorem read_arrival (r : Ledger) (st : Status) (source target : Phase) :
    r.read (arrival st source target) = { r with phase := target, begun := none } := by
  obtain ⟨asides, here, rest⟩ := arrival_eq st source target
  rw [here, read_cons, read_asides rest]
  rfl

end Ledger

/-- The ledger of a worker, from its own events. -/
def ledger (es : List Event) : Ledger := Ledger.read {} es

@[simp] theorem ledger_append (es fs : List Event) :
    ledger (es ++ fs) = (ledger es).read fs :=
  Ledger.read_append {} es fs

/-! ## Agreement -/

/-- The largest count of retries. -/
def maxRetries : Nat := 0xffffffff

/-- A worker counts its retries up to the largest count there is. -/
theorem Worker.retries_countRetry {w : Worker} {retries : Nat}
    (counts : w.retries.toNat = min retries maxRetries) :
    w.countRetry.retries.toNat = min (retries + 1) maxRetries := by
  have largest : (0xffffffff : UInt32).toNat = maxRetries := rfl
  show (if w.retries = 0xffffffff then w.retries else w.retries + 1).toNat = _
  split
  · rename_i full
    rw [full, largest] at counts ⊢
    omega
  · rename_i room
    have small : w.retries.toNat ≠ maxRetries := fun same =>
      room (UInt32.toNat.inj (same.trans largest.symm))
    have bound : w.retries.toNat < 4294967296 := w.retries.toNat_lt
    have limit : maxRetries = 4294967295 := rfl
    rw [UInt32.toNat_add, show (1 : UInt32).toNat = 1 from rfl, Nat.mod_eq_of_lt (by omega)]
    omega

/-- A worker remembers between steps what its ledger says. -/
structure Keeps (w : Worker) (r : Ledger) : Prop where
  settings : w.settings = r.settings
  phase : w.phase = r.phase
  syncDue : w.syncDue = (r.settings.syncOnBoot && !r.synced)
  retries : w.retries.toNat = min r.retries maxRetries

/-- A worker agrees with its ledger where it stands: what it remembers is
right, it holds the session that its phase needs, and in the middle of a step
nothing has failed yet. -/
structure Agrees (w : Worker) (p : Point) (r : Ledger) : Prop where
  keeps : Keeps w r
  session : w.phase = .ready ∨ w.phase = .publish → w.session.isSome = true
  amid : p ≠ .outset → r.begun = some w.phase ∧ r.failed = false

namespace Keeps

variable {w : Worker} {r : Ledger}

/-- The begin of a step that says nothing about the clock or the retries. -/
theorem began (keeps : Keeps w r) {phase : Phase} (sync : phase ≠ .syncTime)
    (retry : phase ≠ .retrySession) : Keeps w (r.enter (.began phase)) := by
  refine ⟨keeps.settings, keeps.phase, ?_, ?_⟩
  · simp [Ledger.enter, sync, keeps.syncDue]
  · simp [Ledger.enter, retry, keeps.retries]

theorem syncing (keeps : Keeps w r) :
    Keeps { w with syncDue := false } (r.enter (.began .syncTime)) :=
  ⟨keeps.settings, keeps.phase, by simp [Ledger.enter], keeps.retries⟩

theorem retrying (keeps : Keeps w r) :
    Keeps w.countRetry (r.enter (.began .retrySession)) := by
  refine ⟨keeps.settings, keeps.phase, ?_, ?_⟩
  · simp [Ledger.enter, Worker.countRetry, keeps.syncDue]
  · exact Worker.retries_countRetry keeps.retries

/-- An answer that does not open a session. -/
theorem answered (keeps : Keeps w r) {request : Request} {answer : Answer}
    (other : ¬ (request = .connect ∧ answer = .ok)) :
    Keeps w (r.enter (.answered request answer)) := by
  cases answer with
  | failed error => exact ⟨keeps.settings, keeps.phase, keeps.syncDue, keeps.retries⟩
  | ok =>
      have skipped : r.enter (.answered request .ok) = r := by
        cases request <;> first | rfl | exact absurd ⟨rfl, rfl⟩ other
      rw [skipped]
      exact keeps

theorem connected (keeps : Keeps w r) :
    Keeps w.openSession (r.enter (.answered .connect .ok)) :=
  ⟨keeps.settings, keeps.phase, keeps.syncDue, rfl⟩

/-- Neither the session nor the hint is in the ledger. -/
theorem of_eq (keeps : Keeps w r) {w' : Worker} (settings : w'.settings = w.settings)
    (phase : w'.phase = w.phase) (syncDue : w'.syncDue = w.syncDue)
    (retries : w'.retries = w.retries) : Keeps w' r := by
  refine ⟨settings.trans keeps.settings, phase.trans keeps.phase, ?_, ?_⟩
  · exact syncDue.trans keeps.syncDue
  · rw [retries]
    exact keeps.retries

end Keeps

section Closing

variable {l l₁ : Link cap} {w w₁ : Worker} {source : Phase} {p : Point} {es : List Event}
  {r : Ledger}

/-- At the end of an action worker and ledger agree, and the ledger knows
which step is ending. -/
theorem Closing.keeps (closing : Closing l w source p es l₁ w₁) (stands : w.At p)
    (agrees : Agrees w p r) : Keeps w₁ (r.read es) ∧ (r.read es).begun = some source := by
  have keeps := agrees.keeps
  have amid := agrees.amid
  rw [closing.phase_eq stands] at amid
  cases closing with
  | started _ => exact ⟨keeps.began (by simp) (by simp), rfl⟩
  | surveyed _ => exact ⟨keeps.began (by simp) (by simp), rfl⟩
  | unopened _ _ => exact ⟨keeps.began (by simp) (by simp), rfl⟩
  | unheld _ _ => exact ⟨keeps.began (by simp) (by simp), rfl⟩
  | skipped _ _ =>
      rw [Ledger.read_cons, Ledger.read_asides (by simp [Event.isDeed])]
      exact ⟨(keeps.began (by simp) (by simp)).of_eq rfl rfl rfl rfl, rfl⟩
  | retried _ => exact ⟨keeps.retrying, rfl⟩
  | succeeded job plain =>
      rw [Ledger.read_cons, Ledger.read_asides (asides_success plain)]
      constructor
      · apply keeps.answered
        rintro ⟨connect, -⟩
        cases job <;> cases connect
        cases plain
      · have same : (r.enter (.answered job.request .ok)).begun = r.begun := by
          cases job <;> rfl
        rw [same]
        exact (amid (by simp)).1
  | connected => exact ⟨keeps.connected, (amid (by simp)).1⟩
  | failed job error =>
      rw [Ledger.read_cons, Ledger.read_asides (by simp [Event.isDeed])]
      exact ⟨keeps.answered (by simp), (amid (by simp)).1⟩
  | drained _ => exact ⟨keeps, (amid (by simp)).1⟩
  | woken _ =>
      rw [Ledger.read_asides (by simp [Event.isDeed])]
      exact ⟨keeps.of_eq rfl rfl rfl rfl, (amid (by simp)).1⟩

/-- A session is at hand when `ready` is entered next, unless a failure is
signalled. -/
theorem Closing.session (closing : Closing l w source p es l₁ w₁) (stands : w.At p)
    (agrees : Agrees w p r)
    (open' : source = .ready ∨ source = .publish ∨
      (source = .connectSession ∧ l₁.status.failed = false)) : w₁.session.isSome = true := by
  have session := agrees.session
  rw [closing.phase_eq stands] at session
  cases closing with
  | surveyed _ => exact session (.inl rfl)
  | unopened _ free =>
      have held := session (.inr rfl)
      rw [free] at held
      cases held
  | succeeded job plain =>
      cases job <;> first | cases plain; done | simp [Job.phase] at open'
  | connected => rfl
  | failed job error =>
      cases job with
      | publish held batch sent =>
          show w.session.isSome = true
          rw [stands.2]
          rfl
      | _ => simp [Job.phase, Status.blame, Job.fault?, Status.signal] at open'
  | drained _ =>
      rw [stands.2]
      rfl
  | _ => simp at open'

end Closing

namespace Phase

/-- Where the table may lead to `ready` or `publish` from. -/
theorem source_of_open {source : Phase} {g : Guards}
    (open' : source.next g = ready ∨ source.next g = publish) :
    source = ready ∨ source = publish ∨ (source = connectSession ∧ g.failed = false) := by
  revert g
  cases source <;> (apply Guards.of_flags; decide)

end Phase

namespace Agrees

variable {l l₁ : Link cap} {w w₁ : Worker} {p : Point} {es : List Event} {r : Ledger}

/-- A request is made in the course of its own step, and what comes with it
is not entered. -/
theorem call {job : Job} (agrees : Agrees w p r) (stands : w.At p)
    (calling : Calling l w p job es l₁ w₁) {offers : List Event} (asides : Asides offers)
    (q : Point) : Agrees w₁ q (r.read (es ++ .called job.request :: offers)) := by
  rw [Ledger.read_append, Ledger.read_cons, Ledger.read_asides asides]
  show Agrees w₁ q (r.read es)
  have keeps := agrees.keeps
  have session := agrees.session
  cases calling with
  | start here =>
      rw [here] at session
      exact ⟨keeps.began (by simp) (by simp), by rw [here]; simp, fun _ => ⟨by rw [here]; rfl, rfl⟩⟩
  | sync here =>
      exact ⟨keeps.syncing, by rw [here]; simp, fun _ => ⟨by rw [here]; rfl, rfl⟩⟩
  | connect here free =>
      exact ⟨keeps.began (by simp) (by simp), by rw [here]; simp, fun _ => ⟨by rw [here]; rfl, rfl⟩⟩
  | publish _ => exact ⟨keeps, session, fun _ => agrees.amid (by simp)⟩
  | close here _ =>
      exact ⟨(keeps.began (by simp) (by simp)).of_eq rfl rfl rfl rfl, by rw [here]; simp,
        fun _ => ⟨by rw [here]; rfl, rfl⟩⟩
  | stop here =>
      exact ⟨keeps.began (by simp) (by simp), by rw [here]; simp, fun _ => ⟨by rw [here]; rfl, rfl⟩⟩

/-- A transition is entered as it is made. -/
theorem leave {source : Phase} (agrees : Agrees w p r) (stands : w.At p)
    (closing : Closing l w source p es l₁ w₁) (st : Status) :
    Agrees { w₁ with phase := source.next (l₁.guards w₁) } .outset
      (r.read (es ++ arrival st source (source.next (l₁.guards w₁)))) := by
  obtain ⟨keeps, _⟩ := closing.keeps stands agrees
  rw [Ledger.read_append, Ledger.read_arrival]
  refine ⟨⟨keeps.settings, rfl, keeps.syncDue, keeps.retries⟩, ?_, fun amid => absurd rfl amid⟩
  exact fun open' => closing.session stands agrees (Phase.source_of_open open')

/-- Every turn keeps a worker and its ledger in agreement. -/
theorem turn {l' : Link cap} {w' : Worker} {q : Point} (turn : Turn l w p es l' w' q)
    (stands : w.At p) (agrees : Agrees w p r) : Agrees w' q (r.read es) := by
  have keeps := agrees.keeps
  have session := agrees.session
  cases turn with
  | call calling fed _ => exact agrees.call stands calling fed.asides q
  | leave closing => exact agrees.leave stands closing _
  | opened here _ =>
      refine ⟨keeps.began (by simp) (by simp), session, fun _ => ?_⟩
      rw [here]
      exact ⟨rfl, rfl⟩
  | published _ =>
      exact ⟨keeps, session, fun _ => agrees.amid (by simp)⟩
  | overflown =>
      exact ⟨keeps, session, fun amid => absurd rfl amid⟩
  | refused _ _ =>
      exact ⟨keeps.began (by simp) (by simp), session, fun amid => absurd rfl amid⟩
  | park here _ =>
      rw [Ledger.read_cons, Ledger.read_asides (by simp [Event.isDeed])]
      refine ⟨(keeps.began (by simp) (by simp)).of_eq rfl rfl rfl rfl, session, fun _ => ?_⟩
      rw [here]
      exact ⟨rfl, rfl⟩
  | wait => exact ⟨keeps, session, fun _ => agrees.amid (by simp)⟩
  | rest _ => exact agrees
  | halted _ => exact agrees

theorem boot (settings : Settings) :
    Agrees (.boot settings) .outset (ledger [.booted settings]) := by
  refine ⟨⟨rfl, rfl, ?_, rfl⟩, ?_, fun amid => absurd rfl amid⟩
  · show settings.syncOnBoot = (settings.syncOnBoot && !false)
    simp
  · rintro (here | here) <;> cases here

/-- At the outset of a step it does not matter what was left behind. -/
theorem outset (agrees : Agrees w p r) : Agrees w .outset r :=
  ⟨agrees.keeps, agrees.session, fun amid => absurd rfl amid⟩

end Agrees

/-- Every worker agrees with the ledger of its own events. -/
def AllAgree (m : Moment cap) : Prop :=
  Everyone (fun w p es => w.At p ∧ Agrees w p (ledger es)) m

/-- Workers and ledgers stay in agreement from moment to moment. -/
theorem AllAgree.next {may : List (Option Post) → Prop} {m n : Moment cap} (all : AllAgree m)
    (next : m.Next may n) : AllAgree n := by
  refine Everyone.next ?_ ?_ ?_ ?_ all next
  · exact fun settings => ⟨trivial, .boot settings⟩
  · intro w es ⟨_, agrees⟩
    rw [ledger_append]
    exact ⟨trivial, agrees⟩
  · exact fun w suspension es ⟨_, agrees⟩ => ⟨trivial, agrees.outset⟩
  · intro l l' w w' p q past es turn ⟨stands, agrees⟩
    rw [ledger_append]
    exact ⟨turn.at_next stands, agrees.turn turn stands⟩

end StoreForward
