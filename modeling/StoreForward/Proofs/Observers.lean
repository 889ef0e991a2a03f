import StoreForward.Proofs.Blame
import StoreForward.Proofs.Rest

/-!
# What observers see

Observers read the status of a link field by field, and the worker writes the
fields at different places: the signal and the fault in the action of a phase,
the phase and the mark of a halt in the transition that follows. As long as the
link has one worker what they see fits together all the same, whenever they
look, because an action is left only at a wait, with no failure under way, or
through its transition.

What is seen of the course of the worker makes a `Picture`. It shows the phase
of the worker; the signal is up in `retrySession` and after most halts, and it
does not matter that a halt for want of retries finds it lowered again, since
the halt has a mark of its own (`Candid`). The fault is that of the failure that
came last. It survives the retries, which lower the signal, and the halts, which
record a fault once more: one that halts has always met with a failure before.

## Main definitions

* `Picture` — what observers see of the course of the worker.
* `lastFailure` — the fault of the failure that came last.
* `Candid` — a picture that fits the phase of the worker.

## Main results

* `Closing.raised` — the signal is up only where a request has just failed.
* `Turn.candid`, `Turn.fault_eq` — every turn keeps the picture right.
* `observers_see_the_worker` — so does every history with one worker.
-/

namespace StoreForward

variable {cap : Nat} {ε : Type}

/-! ## Pictures -/

/-- What observers see of the course of the worker. -/
structure Picture where
  phase : Phase
  failed : Bool
  halted : Bool
  fault : Option Fault
  deriving DecidableEq

def Status.picture (st : Status) : Picture := ⟨st.phase, st.failed, st.halted, st.fault⟩

/-- A picture that fits the phase of the worker. The failure signal is up in
`retrySession`, where a session could not be opened, and otherwise only after a
halt; and whoever has halted has a fault. -/
structure Candid (v : Picture) (phase : Phase) : Prop where
  shown : v.phase = phase
  halted : v.halted = true ↔ phase = .fatal
  failed : v.failed = true → phase = .retrySession ∨ phase = .fatal
  retry : phase = .retrySession → v.failed = true ∧ v.fault = some .sessionConnect
  cause : phase = .fatal → v.fault.isSome = true

namespace Candid

variable {v : Picture} {phase : Phase}

theorem start : Candid (Status.picture {}) .start where
  shown := rfl
  halted := by simp [Status.picture]
  failed up := by cases up
  retry other := by cases other
  cause other := by cases other

/-- A worker that goes on has left no mark of a halt. -/
theorem live (candid : Candid v phase) (goesOn : phase.isTerminal = false) :
    v.halted = false := by
  refine Bool.eq_false_iff.mpr fun halted => ?_
  rw [candid.halted.mp halted] at goesOn
  cases goesOn

/-- Where a failure decides, none is signalled yet. -/
theorem down (candid : Candid v phase) (vital : phase.isVital = true) : v.failed = false := by
  refine Bool.eq_false_iff.mpr fun up => ?_
  rcases candid.failed up with other | other <;>
    · rw [other] at vital
      cases vital

/-- An error is seen while a session is to be tried again and after a halt. -/
theorem error_iff (candid : Candid v phase) :
    (v.halted || v.failed) = true ↔ phase = .retrySession ∨ phase = .fatal := by
  rw [Bool.or_eq_true]
  constructor
  · rintro (halted | failed)
    · exact .inr (candid.halted.mp halted)
    · exact candid.failed failed
  · rintro (retry | fatal)
    · exact .inr (candid.retry retry).1
    · exact .inl (candid.halted.mpr fatal)

end Candid

namespace Link

theorem picture_hinted (l : Link cap) (was allowed : Bool) :
    (l.hinted was allowed).status.picture = l.status.picture := by
  unfold hinted
  dsimp only
  split <;> rfl

theorem Fed.picture {l l' : Link cap} {es : List Event} (fed : l.Fed es l') :
    l'.status.picture = l.status.picture := by
  obtain ⟨_, status⟩ := fed.status_eq
  rw [status]
  rfl

end Link

theorem Calling.picture {l l₁ : Link cap} {w w₁ : Worker} {p : Point} {job : Job}
    {es : List Event} (calling : Calling l w p job es l₁ w₁) :
    l₁.status.picture = l.status.picture := by
  cases calling <;> rfl

/-! ## The failure that came last -/

/-- The fault that the failure of a request is, if the event is one and the
request is not part of tearing down. -/
def Event.failure? : Event → Option Fault
  | .answered request (.failed _) => request.fault?
  | _ => none

/-- The fault of the failure that came last, from the events of the worker. -/
def lastFailure (es : List Event) : Option Fault := (es.filterMap Event.failure?).getLast?

theorem lastFailure_append (es fs : List Event) :
    lastFailure (es ++ fs) = (lastFailure fs).or (lastFailure es) := by
  unfold lastFailure
  rw [List.filterMap_append, List.getLast?_append]

theorem lastFailure_eq_none_iff (es : List Event) :
    lastFailure es = none ↔ ∀ e ∈ es, e.failure? = none := by
  unfold lastFailure
  rw [List.getLast?_eq_none_iff, List.filterMap_eq_nil_iff]

theorem lastFailure_unanswered {es : List Event} (none : Without Event.isAnswer es) :
    lastFailure es = .none := by
  refine (lastFailure_eq_none_iff es).mpr fun e there => ?_
  have other := none e there
  cases e <;> first | rfl | cases other

theorem Request.isTeardown_iff (request : Request) :
    request.isTeardown = true ↔ request.fault? = none := by
  cases request <;> simp [isTeardown, fault?]

/-- There is none as long as nothing has failed but requests that tear down. -/
theorem lastFailure_eq_none_iff_teardown (es : List Event) :
    lastFailure es = none ↔
      ∀ request error, .answered request (.failed error) ∈ es → request.isTeardown = true := by
  rw [lastFailure_eq_none_iff]
  constructor
  · intro none request error there
    exact (Request.isTeardown_iff request).mpr (none _ there)
  · intro teardown e there
    cases e with
    | answered request answer =>
        cases answer with
        | ok => rfl
        | failed error =>
            exact (Request.isTeardown_iff request).mp (teardown request error there)
    | _ => rfl

/-! ## The end of an action -/

namespace Phase

/-- Only a failure halts a worker, or a retry too many. -/
theorem next_eq_fatal {source : Phase} {g : Guards} (live : source.isTerminal = false)
    (halts : source.next g = fatal) : g.failed = true ∨ source = retrySession := by
  revert g
  cases source <;> first | cases live; done | (apply Guards.of_flags; decide)

/-- Only a session that could not be opened is tried again. -/
theorem next_eq_retrySession {source : Phase} {g : Guards}
    (retries : source.next g = retrySession) : source = connectSession ∧ g.failed = true := by
  revert g
  cases source <;> (apply Guards.of_flags; decide)

/-- Where a failure decides, it leads to a retry or to a halt. -/
theorem next_of_failed {source : Phase} {g : Guards} (vital : source.isVital = true)
    (failed : g.failed = true) : source.next g = retrySession ∨ source.next g = fatal := by
  revert g
  cases source <;> first | cases vital; done | (apply Guards.of_flags; decide)

end Phase

theorem Job.isVital_phase {job : Job} {fault : Fault} (named : job.fault? = some fault) :
    job.phase.isVital = true := by
  cases job <;> first | rfl | cases named

section Turns

variable {l l' l₁ : Link cap} {w w' w₁ : Worker} {source : Phase} {p q : Point}
  {past es : List Event}

/-- At the end of an action the signal is up only where a request of the action
has just failed, and the fault is that of the request. -/
theorem Closing.raised (closing : Closing l w source p es l₁ w₁) (stands : w.At p)
    (held : w.phase = .publish → w.session.isSome = true)
    (candid : Candid l.status.picture w.phase) (up : l₁.status.failed = true) :
    ∃ (job : Job) (error : CallError) (fault : Fault),
      p = .waiting (.call job 0 (.failed error)) ∧ source = job.phase ∧
        job.fault? = some fault ∧ l₁.status.fault = some fault ∧ w₁ = w := by
  have phase := closing.phase_eq stands
  by_cases vital : source.isVital = true
  · have down : l.status.failed = false := candid.down (by rw [phase]; exact vital)
    have same (still : l₁.status.failed = l.status.failed) : False := by
      rw [still, down] at up
      cases up
    cases closing with
    | failed job error =>
        cases job with
        | start | sync | connect | publish _ _ _ =>
            exact ⟨_, error, _, rfl, rfl, rfl, rfl, rfl⟩
        | close _ | stop => cases vital
    | unopened here free =>
        have session := held here
        rw [free] at session
        cases session
    | succeeded _ _ | connected | drained _ => exact (same rfl).elim
    | _ => cases vital
  · have calm : source.isVital = false := (Bool.not_eq_true _).mp vital
    have live := closing.live
    obtain ⟨before, noRetry⟩ := closing.still_failed calm up
    rcases candid.failed before with other | other
    · exact absurd (phase.symm.trans other) noRetry
    · rw [← phase, other] at live
      cases live

/-- Up to its transition an action leaves no mark of a halt. -/
theorem Closing.halted_eq (closing : Closing l w source p es l₁ w₁) :
    l₁.status.halted = l.status.halted := by
  cases closing with
  | skipped _ _ | woken _ => exact congrArg Picture.halted (Link.picture_hinted _ _ _)
  | failed job _ => cases job <;> rfl
  | _ => rfl

/-- A transition leads to a picture that fits. -/
theorem Closing.candid (closing : Closing l w source p es l₁ w₁) (stands : w.At p)
    (held : w.phase = .publish → w.session.isSome = true)
    (candid : Candid l.status.picture w.phase) :
    Candid (l₁.status.enter source (source.next (l₁.guards w₁))).picture
      (source.next (l₁.guards w₁)) := by
  have raised := closing.raised stands held candid
  have still : l₁.status.halted = false := by
    rw [closing.halted_eq]
    refine candid.live ?_
    rw [closing.phase_eq stands]
    exact closing.live
  by_cases halts : source.next (l₁.guards w₁) = .fatal
  · rw [halts]
    exact ⟨rfl, iff_of_true rfl rfl, fun _ => .inr rfl, fun other => (by cases other),
      fun _ => rfl⟩
  · have live : ¬ (source.next (l₁.guards w₁)).isTerminal = true := fun terminal =>
      halts ((Phase.isTerminal_iff _).mp terminal)
    have plain : l₁.status.enter source (source.next (l₁.guards w₁)) =
        { l₁.status with phase := source.next (l₁.guards w₁) } := if_neg live
    rw [plain]
    refine ⟨rfl, iff_of_false (Bool.eq_false_iff.mp still) halts, fun up => ?_, fun retries => ?_,
      fun other => absurd other halts⟩
    · obtain ⟨job, _, fault, _, rfl, named, _, _⟩ := raised up
      exact Phase.next_of_failed (Job.isVital_phase named) up
    · obtain ⟨connects, up⟩ := Phase.next_eq_retrySession retries
      obtain ⟨job, _, fault, _, source, named, blamed, _⟩ := raised up
      refine ⟨up, blamed.trans ?_⟩
      rw [connects] at source
      cases job <;> first | cases source; done | cases named; rfl

/-- A halt records the fault that is there. -/
theorem Closing.culprit (closing : Closing l w source p es l₁ w₁) (stands : w.At p)
    (held : w.phase = .publish → w.session.isSome = true)
    (candid : Candid l.status.picture w.phase)
    (halts : source.next (l₁.guards w₁) = .fatal) :
    l₁.status.fault = some (l₁.status.culprit source) := by
  have blamed {fault : Fault} (shown : l₁.status.fault = some fault) (later : source ≠ .start) :
      l₁.status.fault = some (l₁.status.culprit source) := by
    unfold Status.culprit
    rw [if_neg later, shown]
    rfl
  rcases Phase.next_eq_fatal closing.live halts with up | retries
  · obtain ⟨job, _, fault, _, source, named, shown, _⟩ := closing.raised stands held candid up
    refine blamed shown ?_
    rw [source]
    cases job <;> simp [Job.phase]
  · have phase := closing.phase_eq stands
    obtain ⟨_, shown⟩ := candid.retry (phase.trans retries)
    refine blamed (show l₁.status.fault = some .sessionConnect from ?_) (by rw [retries]; simp)
    cases closing with
    | retried _ => exact shown
    | succeeded job _ | failed job _ => cases job <;> cases retries
    | _ => cases retries

/-- Up to a transition the fault is settled. -/
theorem Closing.fault_enter (closing : Closing l w source p es l₁ w₁) (stands : w.At p)
    (held : w.phase = .publish → w.session.isSome = true)
    (candid : Candid l.status.picture w.phase) :
    (l₁.status.enter source (source.next (l₁.guards w₁))).fault = l₁.status.fault := by
  unfold Status.enter
  split
  · rename_i halts
    exact (closing.culprit stands held candid ((Phase.isTerminal_iff _).mp halts)).symm
  · rfl

/-! ## Turns -/

theorem unended_of_opens {phase : Phase} (opens : Opens phase es) : Without Event.isEnd es := by
  have plain {es : List Event} (unmarked : Unmarked es) : Without Event.isEnd es := by
    refine unmarked.weaken fun e none => ?_
    cases e <;> first | rfl | cases none
  rcases opens with unmarked | ⟨first, unmarked⟩
  · exact plain unmarked
  · obtain ⟨rest, rfl⟩ := List.head?_eq_some_iff.mp first
    exact without_cons.mpr ⟨rfl, plain unmarked⟩

theorem unended_of_asides (asides : Asides es) : Without Event.isEnd es := by
  refine asides.weaken fun e aside => ?_
  cases e <;> first | rfl | cases aside

/-- A turn completes a step, or it goes on with it and is not seen in the picture. -/
theorem Turn.unended_or_leaves (turn : Turn l w p es l' w' q) :
    (Without Event.isEnd es ∧ w'.phase = w.phase ∧ l'.status.picture = l.status.picture) ∨
      ∃ source ds l₁ w₁, Closing l w source p ds l₁ w₁ ∧
        es = ds ++ arrival l₁.status source (source.next (l₁.guards w₁)) ∧
        l' = { l₁ with status := l₁.status.enter source (source.next (l₁.guards w₁)) } ∧
        w' = { w₁ with phase := source.next (l₁.guards w₁) } ∧ q = .outset := by
  cases turn with
  | call calling fed _ =>
      obtain ⟨_, phase, _⟩ := calling.signal
      exact .inl ⟨unended_of_opens (calling.opens fed.asides), phase,
        fed.picture.trans calling.picture⟩
  | leave closing => exact .inr ⟨_, _, _, _, closing, rfl, rfl, rfl, rfl⟩
  | park _ _ =>
      exact .inl ⟨without_cons.mpr ⟨rfl, unended_of_asides (by simp [Event.isDeed])⟩, rfl,
        Link.picture_hinted _ _ _⟩
  | _ => exact .inl ⟨by simp [Event.isEnd], rfl, rfl⟩

/-- Every turn keeps the picture fitting. -/
theorem Turn.candid (turn : Turn l w p es l' w' q) (stands : w.At p)
    (held : w.phase = .publish → w.session.isSome = true)
    (candid : Candid l.status.picture w.phase) : Candid l'.status.picture w'.phase := by
  rcases turn.unended_or_leaves with
    ⟨_, phase, picture⟩ | ⟨source, ds, l₁, w₁, closing, _, rfl, rfl, _⟩
  · rw [phase, picture]
    exact candid
  · exact closing.candid stands held candid

/-- What no halt interferes with, a journal blames on the failure that came
last. -/
theorem blame_eq {es : List Event} (unended : Without Event.isEnd es) :
    ∀ fault, es.foldl Event.blame fault = (lastFailure es).or fault := by
  induction es with
  | nil => exact fun _ => rfl
  | cons e es ih =>
      intro fault
      obtain ⟨first, rest⟩ := without_cons.mp unended
      have one : Event.blame fault e = (lastFailure [e]).or fault := by
        unfold lastFailure
        rw [List.filterMap_cons]
        cases e with
        | answered request answer =>
            cases answer with
            | ok => rfl
            | failed error => cases request <;> rfl
        | entered _ _ => cases first
        | _ => rfl
      rw [List.foldl_cons, ih rest, one, show e :: es = [e] ++ es from rfl, lastFailure_append,
        Option.or_assoc]

/-- Every turn keeps the fault that of the failure that came last. -/
theorem Turn.fault_eq (turn : Turn l w p es l' w' q) (stands : w.At p)
    (held : w.phase = .publish → w.session.isSome = true)
    (candid : Candid l.status.picture w.phase)
    (fault : l.status.fault = lastFailure past) :
    l'.status.fault = lastFailure (past ++ es) := by
  -- short of a transition, what the journal blames is the failure that came last
  rcases turn.unended_or_leaves with
    ⟨unended, _⟩ | ⟨source, ds, l₁, w₁, closing, rfl, rfl, rfl, _⟩
  · rw [turn.blame held, fault, blame_eq unended, lastFailure_append]
  · have before : l₁.status.fault = lastFailure (past ++ ds) := by
      rw [closing.blame held, fault, blame_eq (unended_of_opens closing.opens),
        lastFailure_append]
    have silent : lastFailure (arrival l₁.status source (source.next (l₁.guards w₁))) = none :=
      lastFailure_unanswered (unanswered_of_quiet (quiet_arrival _ _ _))
    rw [← List.append_assoc, lastFailure_append, silent, Option.none_or, ← before]
    exact closing.fault_enter stands held candid

/-- A worker halts with its session if it could not publish, and only then. -/
theorem Closing.kept_iff (closing : Closing l w source p es l₁ w₁) (stands : w.At p)
    (held : w.phase = .publish → w.session.isSome = true)
    (candid : Candid l.status.picture w.phase)
    (inside : w.session.isSome = true → w.phase.isInside = true)
    (halts : source.next (l₁.guards w₁) = .fatal) :
    w₁.session.isSome = true ↔ l₁.status.fault = some .publish := by
  have phase := closing.phase_eq stands
  have outside (other : w.phase.isInside = false) : ¬ w.session.isSome = true := fun session => by
    rw [inside session] at other
    cases other
  rcases Phase.next_eq_fatal closing.live halts with up | retries
  · obtain ⟨job, error, fault, rfl, source, named, shown, rfl⟩ :=
      closing.raised stands held candid up
    rw [shown]
    cases job with
    | publish session _ _ =>
        cases named
        refine iff_of_true ?_ rfl
        rw [stands.2]
        rfl
    | start | sync | connect =>
        cases named
        refine iff_of_false (outside ?_) (by simp)
        rw [stands.1]
        rfl
    | close _ | stop => cases named
  · have place : w.phase = .retrySession := phase.trans retries
    obtain ⟨_, shown⟩ := candid.retry place
    have free := outside (by rw [place]; rfl)
    cases closing with
    | retried _ =>
        refine iff_of_false free ?_
        show ¬ l.status.picture.fault = _
        rw [shown]
        simp
    | succeeded job _ | failed job _ => cases job <;> cases retries
    | _ => cases retries

/-- A worker that has halted holds a session if it could not publish, and only
then. -/
theorem Turn.kept_iff (turn : Turn l w p es l' w' q) (stands : w.At p)
    (held : w.phase = .publish → w.session.isSome = true)
    (candid : Candid l.status.picture w.phase) (heldIn : HeldIn w past)
    (kept : w.phase = .fatal → (w.session.isSome = true ↔ l.status.fault = some .publish))
    (halted : w'.phase = .fatal) : w'.session.isSome = true ↔ l'.status.fault = some .publish := by
  by_cases already : w.phase = .fatal
  · obtain ⟨rfl, rfl, _⟩ := turn.eq_of_fatal stands already
    exact kept already
  · have inside : w.session.isSome = true → w.phase.isInside = true := fun session =>
      (heldIn session).resolve_right fun fatal => already fatal.1
    rcases turn.unended_or_leaves with
      ⟨_, phase, _⟩ | ⟨source, ds, l₁, w₁, closing, _, rfl, rfl, _⟩
    · exact absurd (phase.symm.trans halted) already
    · dsimp only
      rw [closing.fault_enter stands held candid]
      exact closing.kept_iff stands held candid inside halted

end Turns

/-! ## Links with one worker -/

theorem Moment.Next.weaken {may other : List (Option Post) → Prop}
    (weaker : ∀ posts, may posts → other posts) {m n : Moment cap} (next : m.Next may n) :
    m.Next other n := by
  cases next with
  | feed fed => exact .feed fed
  | boot settings allowed => exact .boot settings (weaker _ allowed)
  | turn here turn => exact .turn here turn
  | announce here => exact .announce here
  | cancel here => exact .cancel here
  | drop id => exact .drop id

theorem Sole.only {m : Moment cap} (sole : Sole m) {id : Nat} {post : Post}
    (here : m.posts[id]? = some (some post)) : id = 0 := by
  have few := sole.few
  have inside : id < m.posts.length := (List.getElem?_eq_some_iff.mp here).1
  omega

/-- The picture of a link fits its only worker, the fault is that of the failure
that came last, and a worker that has halted holds a session if that was to
publish. -/
structure Coherent (m : Moment cap) : Prop where
  sole : Sole m
  housed : Housed m
  candid : Candid m.link.status.picture (ledger (own 0 m.journal)).phase
  fault : m.link.status.fault = lastFailure (own 0 m.journal)
  kept : ∀ w p, m.posts[0]? = some (some ⟨w, p⟩) → w.phase = .fatal →
    (w.session.isSome = true ↔ m.link.status.fault = some .publish)

namespace Coherent

variable {m n : Moment cap}

/-- The phase shown is that of the worker. -/
theorem candid_worker (coherent : Coherent m) {w : Worker} {p : Point}
    (here : m.posts[0]? = some (some ⟨w, p⟩)) : Candid m.link.status.picture w.phase := by
  obtain ⟨_, agrees⟩ := coherent.housed.accounted.agree.here here
  rw [agrees.keeps.phase]
  exact coherent.candid

/-- Before the worker is booted it has done nothing. -/
theorem own_eq_nil (coherent : Coherent m) (none : m.posts = []) : own 0 m.journal = [] := by
  refine coherent.housed.accounted.agree.own_eq_nil ?_
  rw [none]
  exact Nat.le_refl 0

theorem candid_next (coherent : Coherent m) (next : m.Next (fun posts => posts = []) n) :
    Candid n.link.status.picture (ledger (own 0 n.journal)).phase := by
  have after := coherent.housed.accounted.agree.next next
  cases next with
  | feed fed =>
      rw [fed.picture, own_append, own_entries_producer, List.append_nil]
      exact coherent.candid
  | boot settings none =>
      have before := coherent.candid
      rw [coherent.own_eq_nil none] at before
      have shown : m.link.status.phase = .start := before.shown
      have same : Status.picture { m.link.status with phase := .start } =
          m.link.status.picture := by
        unfold Status.picture
        rw [shown]
      rw [own_append, coherent.own_eq_nil none, none]
      dsimp only
      rw [same]
      exact before
  | @turn id w w' p q es l here turn =>
      have only := coherent.sole.only here
      subst only
      obtain ⟨stands, agrees⟩ := coherent.housed.accounted.agree.here here
      have inside := (List.getElem?_eq_some_iff.mp here).1
      obtain ⟨_, agrees'⟩ := after.here (List.getElem?_set_self inside)
      rw [← agrees'.keeps.phase]
      exact turn.candid stands (fun publish => agrees.session (.inr publish))
        (coherent.candid_worker here)
  | announce here =>
      have only := coherent.sole.only here
      subst only
      rw [own_append, own_entries_self, ledger_append]
      exact coherent.candid
  | cancel _ | drop _ => exact coherent.candid

theorem fault_next (coherent : Coherent m) (next : m.Next (fun posts => posts = []) n) :
    n.link.status.fault = lastFailure (own 0 n.journal) := by
  cases next with
  | feed fed =>
      rw [own_append, own_entries_producer, List.append_nil, ← coherent.fault]
      exact congrArg Picture.fault fed.picture
  | boot settings none =>
      rw [own_append, none, lastFailure_append, ← coherent.fault]
      rfl
  | turn here turn =>
      have only := coherent.sole.only here
      subst only
      obtain ⟨stands, agrees⟩ := coherent.housed.accounted.agree.here here
      rw [own_append, own_entries_self]
      exact turn.fault_eq stands (fun publish => agrees.session (.inr publish))
        (coherent.candid_worker here) coherent.fault
  | announce here =>
      have only := coherent.sole.only here
      subst only
      rw [own_append, own_entries_self, lastFailure_append, ← coherent.fault]
      rfl
  | cancel _ | drop _ => exact coherent.fault

theorem kept_next (coherent : Coherent m) (next : m.Next (fun posts => posts = []) n)
    {w : Worker} {p : Point} (there : n.posts[0]? = some (some ⟨w, p⟩))
    (halted : w.phase = .fatal) :
    w.session.isSome = true ↔ n.link.status.fault = some .publish := by
  cases next with
  | @feed l es fed =>
      have same : l.status.fault = m.link.status.fault := congrArg Picture.fault fed.picture
      dsimp only
      rw [same]
      exact coherent.kept w p there halted
  | boot settings none =>
      rw [none] at there
      cases there
      cases halted
  | turn here turn =>
      have only := coherent.sole.only here
      subst only
      obtain ⟨stands, agrees⟩ := coherent.housed.accounted.agree.here here
      rcases post_of_set there with ⟨_, same⟩ | ⟨differ, _⟩
      · cases same
        exact turn.kept_iff stands (fun publish => agrees.session (.inr publish))
          (coherent.candid_worker here) (coherent.housed.held 0 _ _ here) (coherent.kept _ _ here)
          halted
      · exact absurd rfl differ
  | announce _ => exact coherent.kept w p there halted
  | cancel here =>
      rcases post_of_set there with ⟨rfl, same⟩ | ⟨_, before⟩
      · cases same
        exact coherent.kept _ _ here halted
      · exact coherent.kept w p before halted
  | drop _ =>
      rcases post_of_set there with ⟨_, gone⟩ | ⟨_, before⟩
      · cases gone
      · exact coherent.kept w p before halted

/-- A link with one worker stays coherent from moment to moment. -/
theorem next (coherent : Coherent m) (next : m.Next (fun posts => posts = []) n) :
    Coherent n where
  sole := coherent.sole.next next
  housed := by
    refine coherent.housed.next (next.weaken ?_)
    rintro _ rfl place there
    cases there
  candid := coherent.candid_next next
  fault := coherent.fault_next next
  kept _ _ there halted := coherent.kept_next next there halted

theorem start : Coherent ({} : Moment cap) where
  sole := ⟨Nat.zero_le 1, fun _ => ⟨rfl, rfl⟩, fun _ _ _ there => (by cases there),
    fun _ _ _ there => (by cases there)⟩
  housed := .start
  candid := .start
  fault := rfl
  kept _ _ there := by cases there

end Coherent

section Histories

variable [Crew ε]

/-- A history that boots one worker at most boots it when there is no other. -/
theorem boots_once {ops : List (Op ε)} (once : ops.countP Op.isBoot ≤ 1) :
    (World.empty : World cap ε).Boots (fun posts => posts = []) ops := by
  by_cases none : ops.countP Op.isBoot = 0
  · exact World.boots_none ops _ _ none
  · exact boots_sole (by omega)

/-- A link is coherent after every history that boots one worker at most. -/
theorem coherent_after {ops : List (Op ε)} (once : ops.countP Op.isBoot ≤ 1) :
    Coherent ((World.after cap ops).moment (World.journal cap ops)) :=
  World.invariant .start (fun _ _ coherent next => coherent.next next) (boots_once once)

/-! ## Workers that were dropped -/

/-- The only worker has been dropped, and a phase is shown. -/
def Gone (phase : Phase) (m : Moment cap) : Prop :=
  m.posts = [none] ∧ m.link.status.phase = phase

omit [Crew ε] in
/-- Nobody is left to change what is shown. -/
theorem Gone.next {phase : Phase} {m n : Moment cap} (gone : Gone phase m)
    (next : m.Next (fun posts => posts = []) n) : Gone phase n := by
  obtain ⟨left, shown⟩ := gone
  have nobody {id : Nat} {post : Post} (here : m.posts[id]? = some (some post)) : False := by
    rw [left] at here
    have there := List.mem_of_getElem? here
    simp at there
  cases next with
  | feed fed => exact ⟨left, (congrArg Picture.phase fed.picture).trans shown⟩
  | boot _ none =>
      rw [left] at none
      cases none
  | turn here _ | announce here | cancel here => exact (nobody here).elim
  | drop id =>
      refine ⟨?_, shown⟩
      dsimp only
      rw [left]
      cases id <;> rfl

/-- To drop the only worker leaves its phase shown. -/
theorem gone_of_drop {ops : List (Op ε)} (once : ops.countP Op.isBoot ≤ 1) {id : Nat}
    {s : Station ε} (here : (World.after cap ops).station? id = some s) :
    Gone s.worker.phase (((World.after cap ops).apply (.drop id)).world.moment []) := by
  have coherent : Coherent ((World.after cap ops).moment (World.journal cap ops)) :=
    coherent_after once
  have there := World.posts_of_station? here
  have only := coherent.sole.only there
  subst only
  have few : (World.after cap ops).posts.length ≤ 1 := coherent.sole.few
  have inside : 0 < (World.after cap ops).posts.length := (List.getElem?_eq_some_iff.mp there).1
  obtain ⟨place, alone⟩ := List.length_eq_one_iff.mp (Nat.le_antisymm few inside)
  have dropped : ((World.after cap ops).apply (.drop 0)).world =
      (World.after cap ops).place 0 none := by
    have place : (World.after cap ops).stations[0]? = some (some s) :=
      Option.join_eq_some_iff.mp here
    simp only [World.apply, place]
  rw [dropped]
  refine ⟨?_, (coherent.candid_worker there).shown⟩
  show ((World.after cap ops).place 0 none).posts = [none]
  rw [World.posts_place, alone]
  rfl

/-- A worker that was dropped is shown in the phase in which it was dropped. -/
theorem shown_of_dropped {before later : List (Op ε)} {id : Nat} {s : Station ε}
    (once : (before ++ .drop id :: later).countP Op.isBoot ≤ 1)
    (here : (World.after cap before).station? id = some s) :
    (World.after cap (before ++ .drop id :: later)).link.status.phase = s.worker.phase := by
  have first : before.countP Op.isBoot ≤ 1 := by
    rw [List.countP_append] at once
    omega
  have whole : World.after cap (before ++ .drop id :: later) =
      (((World.after cap before).apply (.drop id)).world.applyAll later).1 :=
    World.after_append before (.drop id :: later)
  have boots : ((World.after cap before).apply (.drop id)).world.Boots
      (fun posts => posts = []) later := (World.Boots.rest (boots_once once)).2
  have path := World.leads (fun posts => posts = []) later _ [] boots
  have still := path.keeps (fun _ _ gone next => Gone.next gone next) (gone_of_drop first here)
  rw [whole]
  exact still.2

/-! ## Failures while tearing down -/

omit [Crew ε] in
/-- A failure to close or to stop is counted, and nothing else comes of it. -/
theorem Site.conclude_teardown (s : Site cap ε) {job : Job} (error : CallError)
    (teardown : job.request.isTeardown = true) :
    (s.conclude job (.failed error)).site = (s.conclude job .ok).site.countTeardownFailure := by
  cases job with
  | close _ | stop => rfl
  | _ => cases teardown

/-- **Observers see a coherent picture.** On a link that never has more than one
worker, after every operation of every history, whatever is suspended, abandoned
or dropped: the phase shown is the one that the worker has entered last, be it
there or dropped in that phase, a halt is shown if that is `fatal`, and an error
if it is `retrySession` or `fatal`. The fault is that of the failure that came
last, and there is none if nothing has failed but requests to close or to stop.
Whether such a request fails makes no difference but that it is counted. -/
theorem observers_see_the_worker {ops : List (Op ε)} (once : ops.countP Op.isBoot ≤ 1) :
    let world := World.after cap ops
    let es := own 0 (World.journal cap ops)
    let shown := world.link.status
    shown.phase = (ledger es).phase ∧
      (∀ id s, world.station? id = some s → shown.phase = s.worker.phase) ∧
      (∀ before later id s, ops = before ++ .drop id :: later →
        (World.after cap before).station? id = some s → shown.phase = s.worker.phase) ∧
      (shown.halted = true ↔ shown.phase = .fatal) ∧
      (shown.hasError = true ↔ shown.phase = .retrySession ∨ shown.phase = .fatal) ∧
      shown.fault = lastFailure es ∧
      (shown.fault = none ↔
        ∀ request error, .answered request (.failed error) ∈ es → request.isTeardown = true) ∧
      ∀ (s : Site cap ε) (job : Job) (error : CallError), job.request.isTeardown = true →
        (s.move (.waiting (.call job 0 (.failed error)))).site =
          (s.move (.waiting (.call job 0 .ok))).site.countTeardownFailure := by
  intro world es shown
  have coherent : Coherent (world.moment (World.journal cap ops)) := coherent_after once
  have candid : Candid shown.picture (ledger es).phase := coherent.candid
  have phase : shown.phase = (ledger es).phase := candid.shown
  have fault : shown.fault = lastFailure es := coherent.fault
  refine ⟨phase, fun id s here => ?_, ?_, ?_, ?_, fault, ?_, fun s job error teardown => ?_⟩
  · have there := World.posts_of_station? here
    have only := coherent.sole.only there
    subst only
    exact (coherent.candid_worker there).shown
  · rintro before later id s rfl here
    exact shown_of_dropped once here
  · rw [phase]
    exact candid.halted
  · rw [phase]
    exact candid.error_iff
  · rw [fault]
    exact lastFailure_eq_none_iff_teardown es
  · exact s.conclude_teardown error teardown

/-- A session is refused and then opened, and its close fails. The worker gives
up waiting for the network to go down, takes it down in one more step, and is
dropped. -/
theorem observers_see_the_worker_dropped :
    let refused : Response := { answer := .failed ⟨.other, ""⟩ }
    let ops : List (Op Script) :=
      [.boot {} { connect := [refused], close := [refused], stop := [{ polls := 1 }] },
        .launch 0 .run, .cancel 0, .launch 0 .step, .drop 0]
    let shown := (World.after 2 ops).link.status
    ops.countP Op.isBoot ≤ 1 ∧ shown.phase = .idle ∧ shown.hasError = false ∧
      shown.fault = some .sessionConnect ∧ shown.teardownFailures = 1 := by
  intro refused ops shown
  have once : ops.countP Op.isBoot ≤ 1 := by
    decide
  obtain ⟨phase, _, _, _, error, fault, _⟩ := @observers_see_the_worker 2 Script _ ops once
  have idle : shown.phase = .idle := by
    rw [phase]
    decide +kernel
  have calm : shown.hasError = false := by
    refine Bool.eq_false_iff.mpr fun wrong => ?_
    rcases error.mp wrong with other | other <;>
      · rw [idle] at other
        cases other
  refine ⟨once, idle, calm, ?_, by decide +kernel⟩
  rw [fault]
  decide +kernel

end Histories

end StoreForward
