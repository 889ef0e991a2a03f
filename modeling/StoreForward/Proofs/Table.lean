import StoreForward.Crew.Script
import StoreForward.Proofs.Delivery
import StoreForward.Proofs.Ledger

/-!
# The transition table, step by step

The transition table decides by the failure signal, and there is only one for
the link: it is raised by any of four phases, is lowered by `retrySession`
alone, and outlives the worker that raised it. The table is meant to be read
differently: a step goes where the outcome of its *own* requests leads, and
`Phase.due` says it like this.

The two readings are the same as long as workers use the link one after
another. A worker that has signalled a failure halts or goes to
`retrySession` in the same turn, which lowers the signal; one that is booted
while the signal is up halts at once. So wherever the table looks at the
signal, except in `start`, it was down when the step began (`Orderly`).

## Main definitions

* `signalled` — the failure signal, from the journal.
* `Findings`, `Phase.due` — the table in terms of the journal.
* `Tabled` — every completed step goes where the table says.
* `Retired` — the condition under which another worker may be booted.

## Main results

* `Closing.due` — the end of an action follows the table.
* `steps_follow_table` — so does every step of every history.
-/

namespace StoreForward

variable {cap : Nat} {ε : Type}

/-! ## The failure signal -/

namespace Request

/-- A failure of the request is not signalled. -/
def isTeardown : Request → Bool
  | close _ | stop => true
  | _ => false

end Request

/-- What an event makes of the failure signal. -/
def Event.signal (up : Bool) : Event → Bool
  | .answered request (.failed _) => up || !request.isTeardown
  | .began .retrySession => false
  | _ => up

/-- The failure signal after some events, by whichever workers. -/
def signalled (es : List Event) : Bool := es.foldl Event.signal false

theorem signal_asides {es : List Event} (asides : Asides es) (up : Bool) :
    es.foldl Event.signal up = up := by
  refine foldl_without ?_ asides up
  intro up e aside
  cases e <;> first | rfl | cases aside

theorem signal_arrival (up : Bool) (st : Status) (source target : Phase) :
    (arrival st source target).foldl Event.signal up = up := by
  obtain ⟨asides, here, rest⟩ := arrival_eq st source target
  rw [here, List.foldl_cons, signal_asides rest]
  rfl

theorem signalled_append (es fs : List Event) :
    signalled (es ++ fs) = fs.foldl Event.signal (signalled es) :=
  List.foldl_append

section Turns

variable {l l' l₁ : Link cap} {w w' w₁ : Worker} {source : Phase} {p q : Point}
  {es : List Event} {r : Ledger}

theorem Link.Fed.failed (fed : l.Fed es l') : l'.status.failed = l.status.failed := by
  obtain ⟨n, same⟩ := fed.status_eq
  rw [same]

theorem Link.failed_hinted (l : Link cap) (was allowed : Bool) :
    (l.hinted was allowed).status.failed = l.status.failed := by
  unfold hinted
  dsimp only
  split <;> rfl

/-- A request leaves the signal alone. -/
theorem Calling.signal (calling : Calling l w p job es l₁ w₁) :
    l₁.status.failed = l.status.failed ∧ w₁.phase = w.phase ∧
      ∀ up, es.foldl Event.signal up = up := by
  cases calling <;> exact ⟨rfl, rfl, fun _ => rfl⟩

/-- The signal at the end of an action is what the journal says. -/
theorem Closing.signal (closing : Closing l w source p es l₁ w₁)
    (held : w.phase = .publish → w.session.isSome = true) :
    l₁.status.failed = es.foldl Event.signal l.status.failed := by
  cases closing with
  | unopened here free =>
      have session := held here
      rw [free] at session
      cases session
  | skipped _ _ =>
      rw [List.foldl_cons, signal_asides (by simp [Event.isDeed]), Link.failed_hinted]
      rfl
  | succeeded job plain =>
      rw [List.foldl_cons, signal_asides (asides_success plain)]
      rfl
  | failed job error =>
      cases job <;> simp [Status.blame, Job.fault?, Status.signal, Event.signal, Job.request,
        Request.isTeardown]
  | woken _ =>
      rw [signal_asides (by simp [Event.isDeed]), Link.failed_hinted]
  | _ => rfl

/-- Every turn keeps the signal what the journal says. -/
theorem Turn.signal (turn : Turn l w p es l' w' q)
    (held : w.phase = .publish → w.session.isSome = true) :
    l'.status.failed = es.foldl Event.signal l.status.failed := by
  cases turn with
  | call calling fed _ =>
      obtain ⟨same, _, silent⟩ := calling.signal
      rw [List.foldl_append, silent, List.foldl_cons, signal_asides fed.asides, fed.failed,
        same]
      rfl
  | leave closing =>
      rw [List.foldl_append, signal_arrival, ← closing.signal held, Status.failed_enter]
  | park _ _ =>
      rw [List.foldl_cons, signal_asides (by simp [Event.isDeed]), Link.failed_hinted]
      rfl
  | _ => rfl

end Turns

/-! ## The table -/

/-- What the journal says when an action comes to its end. -/
structure Findings where
  /-- The failure signal is up. -/
  signalled : Bool
  /-- A request of the step itself has failed. -/
  failed : Bool
  /-- The clock is to be synchronised, and no step has begun to do so. -/
  syncDue : Bool
  /-- Every batch accepted so far has been handed over. -/
  queueEmpty : Bool
  /-- More retries since a session was last opened than the settings allow. -/
  budgetSpent : Bool
  deriving DecidableEq

/-- What the journal says about the step that a worker is in. -/
def findings (id : Nat) (before : List Entry) : Findings :=
  let r := ledger (own id before)
  { signalled := signalled (events before)
    failed := r.failed
    syncDue := r.settings.syncOnBoot && !r.synced
    queueEmpty := (backlog (events before)).isEmpty
    budgetSpent := r.settings.retryLimit.any fun limit =>
      decide (limit.toNat < min r.retries maxRetries) }

namespace Phase

/-- The transition table, by the outcome of the step itself. Only `start`
looks at a failure that is not its own. -/
def due : Phase → Findings → Phase
  | start, f => if f.signalled then fatal else connectNetwork
  | connectNetwork, f =>
    if f.failed then fatal else if f.syncDue then syncTime else connectSession
  | syncTime, f => if f.failed then fatal else connectSession
  | connectSession, f => if f.failed then retrySession else ready
  | ready, f => if f.queueEmpty then closeSession else publish
  | publish, f => if f.failed then fatal else ready
  | closeSession, _ => disconnectNetwork
  | disconnectNetwork, _ => idle
  | idle, f => if f.queueEmpty then idle else connectNetwork
  | retrySession, f => if f.budgetSpent then fatal else connectSession
  | fatal, _ => fatal

/-- A failure in the phase decides where its step leads. -/
def isVital : Phase → Bool
  | connectNetwork | syncTime | connectSession | publish => true
  | _ => false

/-- A worker may be in the phase while the failure signal is up. -/
def bearsFailure : Phase → Bool
  | start | retrySession | fatal => true
  | _ => false

/-- The two readings of the table are the same, if the signal is the step's
own doing wherever a failure decides. -/
theorem next_eq_due {source : Phase} {g : Guards} {f : Findings}
    (own : source.isVital = true → g.failed = f.failed) (signalled : g.failed = f.signalled)
    (syncDue : g.syncDue = f.syncDue) (queueEmpty : g.queueEmpty = f.queueEmpty)
    (budgetSpent : g.retriesExhausted = f.budgetSpent) : source.next g = source.due f := by
  cases source with
  | start => simp only [next, due, signalled]
  | connectNetwork => simp only [next, due, own rfl, syncDue]
  | syncTime | connectSession | publish => simp only [next, due, own rfl]
  | ready | idle => simp only [next, due, queueEmpty]
  | retrySession => simp only [next, due, budgetSpent]
  | closeSession | disconnectNetwork | fatal => rfl

theorem down_of_isVital {phase : Phase} {up : Bool} (vital : phase.isVital = true)
    (clear : up = true → phase.bearsFailure = true) : up = false := by
  refine Bool.eq_false_iff.mpr fun failed => ?_
  have bears := clear failed
  cases phase <;> first | cases vital; done | cases bears

end Phase

section Closing

variable {l l₁ : Link cap} {w w₁ : Worker} {source : Phase} {p : Point} {es : List Event}
  {r : Ledger}

/-- Where the signal decides, it was raised by the step itself. -/
theorem Closing.failed_eq (closing : Closing l w source p es l₁ w₁) (stands : w.At p)
    (agrees : Agrees w p r) (vital : source.isVital = true)
    (down : l.status.failed = false) : l₁.status.failed = (r.read es).failed := by
  have amid := agrees.amid
  have session := agrees.session
  rw [closing.phase_eq stands] at amid session
  cases closing with
  | unopened _ free =>
      have held := session (.inr rfl)
      rw [free] at held
      cases held
  | succeeded job plain =>
      have same : (r.enter (.answered job.request .ok)).failed = r.failed := by
        cases job <;> rfl
      rw [Ledger.read_cons, Ledger.read_asides (asides_success plain), same, down,
        (amid (by simp)).2]
  | connected => exact down.trans (amid (by simp)).2.symm
  | failed job error =>
      have own : (r.enter (.answered job.request (.failed error))).failed = true := by
        simp [Ledger.enter, job.phase_request, (amid (by simp)).1]
      rw [Ledger.read_cons, Ledger.read_asides (by simp [Event.isDeed]), own]
      cases job <;> first | rfl | cases vital
  | drained _ => exact down.trans (amid (by simp)).2.symm
  | _ => cases vital

/-- Where a failure does not decide, the signal is up only if it was up
before, and never after a retry. -/
theorem Closing.still_failed (closing : Closing l w source p es l₁ w₁)
    (calm : source.isVital = false) (up : l₁.status.failed = true) :
    l.status.failed = true ∧ source ≠ .retrySession := by
  cases closing with
  | skipped _ _ =>
      rw [Link.failed_hinted] at up
      exact ⟨up, by simp⟩
  | retried _ => cases up
  | succeeded job _ => exact ⟨up, by cases job <;> simp [Job.phase]⟩
  | failed job _ => cases job <;> first | exact ⟨up, by simp [Job.phase]⟩ | cases calm
  | woken _ =>
      rw [Link.failed_hinted] at up
      exact ⟨up, by simp⟩
  | unopened _ _ => cases calm
  | connected => cases calm
  | drained _ => cases calm
  | _ => exact ⟨up, by simp⟩

/-- The end of an action follows the table, if the signal was down where it
must be. -/
theorem Closing.due (closing : Closing l w source p es l₁ w₁) (stands : w.At p)
    (agrees : Agrees w p r)
    (clear : l.status.failed = true → w.phase.bearsFailure = true) {f : Findings}
    (signalled : l₁.status.failed = f.signalled) (failed : (r.read es).failed = f.failed)
    (syncDue : w₁.syncDue = f.syncDue) (queueEmpty : l₁.isIdle = f.queueEmpty)
    (budgetSpent : w₁.retriesExhausted = f.budgetSpent) :
    source.next (l₁.guards w₁) = source.due f := by
  refine Phase.next_eq_due ?_ signalled syncDue queueEmpty budgetSpent
  intro vital
  rw [closing.phase_eq stands] at clear
  have down := Phase.down_of_isVital vital clear
  exact (closing.failed_eq stands agrees vital down).trans failed

/-- With the signal up a step leads only where a worker may be then. -/
theorem Closing.bears (closing : Closing l w source p es l₁ w₁) (stands : w.At p)
    (clear : l.status.failed = true → w.phase.bearsFailure = true)
    (up : l₁.status.failed = true) : (source.next (l₁.guards w₁)).bearsFailure = true := by
  rw [closing.phase_eq stands] at clear
  by_cases vital : source.isVital = true
  · cases source <;>
      first
      | cases vital; done
      | simp [Phase.next, Link.guards, up, Phase.bearsFailure]
  · obtain ⟨before, noRetry⟩ := closing.still_failed ((Bool.not_eq_true _).mp vital) up
    have bears := clear before
    cases source <;>
      first
      | cases bears; done
      | exact absurd rfl noRetry
      | simp [Phase.next, Link.guards, up, Phase.bearsFailure]

end Closing

/-! ## Steps in the journal -/

/-- What an entry says about steps, given the journal before it. A step that
a worker begins is that of the phase it has entered last, and a step that it
completes is the one it has begun last and leads where the table says. -/
def Tabled (before : List Entry) : Entry → Prop
  | ⟨.worker id, .began phase⟩ => (ledger (own id before)).phase = phase
  | ⟨.worker id, .entered source target⟩ =>
    (ledger (own id before)).begun = some source ∧ target = source.due (findings id before)
  | _ => True

/-- The event begins or completes a step. -/
def Event.isMilestone : Event → Bool
  | began _ | entered _ _ => true
  | _ => false

/-- No step is begun or completed. -/
abbrev Unmarked (es : List Event) : Prop := Without Event.isMilestone es

theorem unmarked_asides {es : List Event} (asides : Asides es) : Unmarked es := by
  refine asides.weaken fun e aside => ?_
  cases e <;> first | rfl | cases aside

/-- No step is completed, and only one of the phase is begun, before anything
else. -/
def Opens (phase : Phase) (es : List Event) : Prop :=
  Unmarked es ∨ (es.head? = some (.began phase) ∧ Unmarked es.tail)

theorem tabled_unmarked (journal : List Entry) (cause : Cause) {es : List Event}
    (unmarked : Unmarked es) :
    Lawful (fun before => Tabled (journal ++ before)) (entries cause es) := by
  refine .of_forall fun entry there before => ?_
  obtain ⟨e, inside, rfl⟩ := List.mem_map.mp there
  have plain := unmarked e inside
  cases cause with
  | producer => cases e <;> exact trivial
  | worker id => cases e <;> first | exact trivial | cases plain

theorem tabled_opens {journal : List Entry} {id : Nat} {es : List Event}
    (opens : Opens (ledger (own id journal)).phase es) :
    Lawful (fun before => Tabled (journal ++ before)) (entries (.worker id) es) := by
  rcases opens with unmarked | ⟨first, unmarked⟩
  · exact tabled_unmarked journal _ unmarked
  · obtain ⟨rest, rfl⟩ := List.head?_eq_some_iff.mp first
    refine lawful_cons.mpr ⟨?_, ?_⟩
    · show (ledger (own id (journal ++ []))).phase = _
      rw [List.append_nil]
    · have more := tabled_unmarked
        (journal ++ entries (.worker id) [.began (ledger (own id journal)).phase]) (.worker id)
        unmarked
      simp only [List.append_assoc] at more
      exact more

section Turns

variable {l l' l₁ : Link cap} {w w' w₁ : Worker} {source : Phase} {p q : Point}
  {es : List Event}

theorem Calling.opens {job : Job} (calling : Calling l w p job es l₁ w₁) {offers : List Event}
    (asides : Asides offers) : Opens w.phase (es ++ .called job.request :: offers) := by
  have rest := unmarked_asides asides
  cases calling with
  | publish _ => exact .inl (by simp [Event.isMilestone, rest])
  | start here | sync here | connect here _ | close here _ | stop here =>
      exact .inr ⟨by rw [here]; rfl, by simp [Event.isMilestone, rest]⟩

theorem Closing.opens (closing : Closing l w source p es l₁ w₁) : Opens w.phase es := by
  cases closing with
  | skipped here _ =>
      exact .inr ⟨by rw [here]; rfl, unmarked_asides (by simp [Event.isDeed])⟩
  | succeeded job plain =>
      exact .inl (without_cons.mpr ⟨rfl, unmarked_asides (asides_success plain)⟩)
  | connected | failed _ _ | drained _ => exact .inl (by simp [Event.isMilestone])
  | woken _ => exact .inl (unmarked_asides (by simp [Event.isDeed]))
  | started here | surveyed here | unopened here _ | unheld here _ | retried here =>
      exact .inr ⟨by rw [here]; rfl, by simp [Event.isMilestone]⟩

/-- No action ends in the terminal phase. -/
theorem Closing.live (closing : Closing l w source p es l₁ w₁) :
    source.isTerminal = false := by
  cases closing with
  | succeeded job _ | failed job _ => cases job <;> rfl
  | _ => rfl

/-- A worker that has halted does nothing. -/
theorem Turn.eq_of_fatal (turn : Turn l w p es l' w' q) (stands : w.At p)
    (halted : w.phase = .fatal) : l' = l ∧ w' = w ∧ es = [] := by
  have moved : ∀ phase : Phase, w.phase = phase → phase = .fatal := by
    rintro phase rfl
    exact halted
  cases turn with
  | call calling _ _ =>
      cases calling with
      | publish _ => cases moved _ stands.1
      | start here | sync here | connect here _ | close here _ | stop here =>
          cases moved _ here
  | leave closing =>
      have live := closing.live
      rw [moved _ (closing.phase_eq stands)] at live
      cases live
  | opened here _ | refused here _ | park here _ => cases moved _ here
  | published _ | overflown => cases moved _ stands.1
  | wait | rest _ | halted _ => exact ⟨rfl, rfl, rfl⟩

/-- With the signal up a turn leads only where a worker may be then. -/
theorem Turn.bears (turn : Turn l w p es l' w' q) (stands : w.At p)
    (clear : l.status.failed = true → w.phase.bearsFailure = true)
    (up : l'.status.failed = true) : w'.phase.bearsFailure = true := by
  cases turn with
  | call calling fed _ =>
      obtain ⟨same, phase, _⟩ := calling.signal
      rw [fed.failed, same] at up
      rw [phase]
      exact clear up
  | leave closing =>
      rw [Status.failed_enter] at up
      exact closing.bears stands clear up
  | park _ _ =>
      rw [Link.failed_hinted] at up
      exact clear up
  | _ => exact clear up

end Turns

/-! ## Workers that take turns -/

/-- Another worker may be booted: those still there have halted. -/
def Retired (posts : List (Option Post)) : Prop :=
  ∀ place ∈ posts, ∀ post ∈ place, post.worker.phase = .fatal

instance : DecidablePred Retired := fun posts =>
  inferInstanceAs (Decidable (∀ place ∈ posts, ∀ post ∈ place, post.worker.phase = .fatal))

/-- Only the worker booted last can be other than halted, and while the
failure signal is up it is only where it may be then. -/
def Orderly (m : Moment cap) : Prop :=
  ∀ id w p, m.posts[id]? = some (some ⟨w, p⟩) →
    (id + 1 < m.posts.length → w.phase = .fatal) ∧
      (m.link.status.failed = true → w.phase.bearsFailure = true)

/-- Workers keep taking turns where nothing is done but to stand elsewhere or
to leave. -/
theorem Orderly.of_workers {m n : Moment cap} (orderly : Orderly m)
    (length : n.posts.length = m.posts.length) (link : n.link = m.link)
    (workers : ∀ (id : Nat) (w : Worker) (p : Point), n.posts[id]? = some (some ⟨w, p⟩) →
      ∃ p', m.posts[id]? = some (some ⟨w, p'⟩)) : Orderly n := by
  intro id w p there
  obtain ⟨p', before⟩ := workers id w p there
  rw [length, link]
  exact orderly id w p' before

/-- The signal stays what the journal accounts for, whenever workers are booted. -/
theorem AllAgree.signal_next {may : List (Option Post) → Prop} {m n : Moment cap}
    (agree : AllAgree m) (signal : m.link.status.failed = signalled (events m.journal))
    (next : m.Next may n) : n.link.status.failed = signalled (events n.journal) := by
  cases next with
  | feed fed =>
      rw [events_append, events_entries, signalled_append, ← signal, signal_asides fed.asides]
      exact fed.failed
  | turn here turn =>
      obtain ⟨_, agrees⟩ := agree.here here
      rw [events_append, events_entries, signalled_append, ← signal]
      exact turn.signal fun publish => agrees.session (.inr publish)
  | boot _ _ | announce _ =>
      rw [events_append, events_entries, signalled_append, ← signal]
      rfl
  | cancel _ | drop _ => exact signal

/-- A moment at which every step so far went where the table says. -/
structure Accounted (m : Moment cap) : Prop where
  replayed : Replayed m
  agree : AllAgree m
  signal : m.link.status.failed = signalled (events m.journal)
  orderly : Orderly m
  tabled : Lawful Tabled m.journal

/-- What the table looks at is what the journal says. -/
theorem guards_eq_findings {l : Link cap} {w : Worker} {id : Nat} {before : List Entry}
    (keeps : Keeps w (ledger (own id before)))
    (replayed : replay cap [] (events before) = some l.waiting) :
    w.syncDue = (findings id before).syncDue ∧ l.isIdle = (findings id before).queueEmpty ∧
      w.retriesExhausted = (findings id before).budgetSpent := by
  refine ⟨keeps.syncDue, ?_, ?_⟩
  · show l.outbox.waiting.items.isEmpty = (backlog (events before)).isEmpty
    rw [backlog_of_replay replayed]
    rfl
  · unfold Worker.retriesExhausted Settings.exhausted findings
    rw [keeps.settings]
    dsimp only
    cases (ledger (own id before)).settings.retryLimit with
    | none => rfl
    | some limit => simp [UInt32.lt_iff_toNat_lt, keeps.retries]

namespace Accounted

variable {m : Moment cap} {id : Nat} {w w' : Worker} {p q : Point} {es : List Event}
  {l : Link cap}

/-- A transition says of a step what the table says. -/
theorem tabled_leave (accounted : Accounted m) (here : m.posts[id]? = some (some ⟨w, p⟩))
    {source : Phase} {l₁ : Link cap} {w₁ : Worker}
    (closing : Closing m.link w source p es l₁ w₁) :
    Tabled (m.journal ++ entries (.worker id) es)
      ⟨.worker id, .entered source (source.next (l₁.guards w₁))⟩ := by
  obtain ⟨stands, agrees⟩ := accounted.agree.here here
  obtain ⟨_, clear⟩ := accounted.orderly id w p here
  obtain ⟨keeps, begun⟩ := closing.keeps stands agrees
  let before := m.journal ++ entries (.worker id) es
  have own : ledger (own id before) = (ledger (own id m.journal)).read es := by
    simp [before]
  have events : events before = events m.journal ++ es := by
    simp [before]
  have signal : l₁.status.failed = signalled (StoreForward.events before) := by
    rw [events, signalled_append, ← accounted.signal]
    exact closing.signal fun publish => agrees.session (.inr publish)
  have replayed : replay cap [] (StoreForward.events before) = some l₁.waiting := by
    rw [events, replay_append, accounted.replayed, Option.bind_some, closing.replay]
  rw [← own] at keeps begun
  obtain ⟨syncDue, queueEmpty, budgetSpent⟩ := guards_eq_findings keeps replayed
  refine ⟨begun, ?_⟩
  refine closing.due stands agrees clear signal ?_ syncDue queueEmpty budgetSpent
  rw [← own]
  rfl

/-- What a turn says about steps is so. -/
theorem tabled_turn (accounted : Accounted m) (here : m.posts[id]? = some (some ⟨w, p⟩))
    (turn : Turn m.link w p es l w' q) :
    Lawful (fun before => Tabled (m.journal ++ before)) (entries (.worker id) es) := by
  obtain ⟨_, agrees⟩ := accounted.agree.here here
  have phase := agrees.keeps.phase
  cases turn with
  | call calling fed _ =>
      apply tabled_opens
      rw [← phase]
      exact calling.opens fed.asides
  | @leave source _ es l₁ w₁ closing =>
      obtain ⟨asides, arrival, rest⟩ :=
        arrival_eq l₁.status source (source.next (l₁.guards w₁))
      rw [arrival, entries_append]
      refine lawful_append.mpr ⟨?_, lawful_cons.mpr ⟨?_, ?_⟩⟩
      · apply tabled_opens
        rw [← phase]
        exact closing.opens
      · rw [List.append_nil]
        exact accounted.tabled_leave here closing
      · have more := tabled_unmarked (m.journal ++ entries (.worker id) (es ++
          [.entered source (source.next (l₁.guards w₁))])) (.worker id) (unmarked_asides rest)
        simp only [entries_append, List.append_assoc] at more
        exact more
  | opened here' _ | refused here' _ =>
      apply tabled_opens
      rw [← phase]
      exact .inr ⟨by rw [here']; rfl, by simp⟩
  | park here' _ =>
      apply tabled_opens
      rw [← phase]
      exact .inr ⟨by rw [here']; rfl, unmarked_asides (by simp [Event.isDeed])⟩
  | published _ | overflown | wait | rest _ | halted _ =>
      exact tabled_unmarked m.journal _ (by simp [Event.isMilestone])

/-- Workers still take turns after a turn. -/
theorem orderly_turn (accounted : Accounted m) (here : m.posts[id]? = some (some ⟨w, p⟩))
    (turn : Turn m.link w p es l w' q) (journal : List Entry) :
    Orderly ⟨l, m.posts.set id (some ⟨w', q⟩), journal⟩ := by
  obtain ⟨stands, _⟩ := accounted.agree.here here
  obtain ⟨last, clear⟩ := accounted.orderly id w p here
  have inside : id < m.posts.length := (List.getElem?_eq_some_iff.mp here).1
  intro other v point there
  dsimp only at there ⊢
  rw [List.length_set]
  rcases post_of_set there with ⟨rfl, same⟩ | ⟨_, there⟩
  · cases same
    refine ⟨fun more => ?_, turn.bears stands clear⟩
    obtain ⟨_, still, _⟩ := turn.eq_of_fatal stands (last more)
    rw [still]
    exact last more
  · obtain ⟨halted, bears⟩ := accounted.orderly other v point there
    refine ⟨halted, fun up => ?_⟩
    -- one of the two is not the last, and has therefore halted
    by_cases more : other + 1 < m.posts.length
    · rw [halted more]
      rfl
    · have before : other < m.posts.length := (List.getElem?_eq_some_iff.mp there).1
      obtain ⟨unchanged, _, _⟩ := turn.eq_of_fatal stands (last (by omega))
      rw [unchanged] at up
      exact bears up

section Next

variable {n : Moment cap}

/-- A worker is booted when the others have halted, and is then the last. -/
theorem orderly_boot (settings : Settings) (retired : Retired m.posts) (link : Link cap)
    (journal : List Entry) :
    Orderly ⟨link, m.posts ++ [some ⟨.boot settings, .outset⟩], journal⟩ := by
  intro id w p there
  dsimp only at there ⊢
  by_cases old : id < m.posts.length
  · rw [List.getElem?_append_left old] at there
    have halted : w.phase = .fatal := retired _ (List.mem_of_getElem? there) _ rfl
    exact ⟨fun _ => halted, fun _ => by rw [halted]; rfl⟩
  · rw [List.length_append, List.length_singleton]
    rw [List.getElem?_append_right (Nat.le_of_not_lt old)] at there
    obtain ⟨_, new⟩ := List.mem_singleton.mp (List.mem_of_getElem? there)
    exact ⟨fun more => absurd more (by omega), fun _ => rfl⟩

theorem orderly_next (accounted : Accounted m) (next : m.Next Retired n) : Orderly n := by
  cases next with
  | feed fed =>
      intro id w p there
      rw [fed.failed]
      exact accounted.orderly id w p there
  | turn here turn => exact accounted.orderly_turn here turn _
  | announce _ => exact accounted.orderly
  | boot settings retired => exact orderly_boot settings retired _ _
  | @cancel id w suspension here =>
      refine accounted.orderly.of_workers List.length_set rfl fun other v p there => ?_
      rcases post_of_set there with ⟨rfl, same⟩ | ⟨_, before⟩
      · cases same
        exact ⟨_, here⟩
      · exact ⟨p, before⟩
  | drop id =>
      refine accounted.orderly.of_workers List.length_set rfl fun other v p there => ?_
      rcases post_of_set there with ⟨_, gone⟩ | ⟨_, before⟩
      · cases gone
      · exact ⟨p, before⟩

theorem tabled_next (accounted : Accounted m) (next : m.Next Retired n) :
    Lawful Tabled n.journal := by
  cases next with
  | feed fed =>
      exact lawful_append.mpr
        ⟨accounted.tabled, tabled_unmarked _ _ (unmarked_asides fed.asides)⟩
  | turn here turn =>
      exact lawful_append.mpr ⟨accounted.tabled, accounted.tabled_turn here turn⟩
  | boot _ _ | announce _ =>
      exact lawful_append.mpr
        ⟨accounted.tabled, tabled_unmarked _ _ (by simp [Event.isMilestone])⟩
  | cancel _ | drop _ => exact accounted.tabled

/-- Every step goes where the table says from moment to moment, as long as a
worker is booted only when the others have halted or are gone. -/
theorem next (accounted : Accounted m) (next : m.Next Retired n) : Accounted n where
  replayed := accounted.replayed.next next
  agree := accounted.agree.next next
  signal := accounted.agree.signal_next accounted.signal next
  orderly := accounted.orderly_next next
  tabled := accounted.tabled_next next

end Next

/-- Nothing has happened, and all of it is accounted for. -/
theorem start : Accounted ({} : Moment cap) where
  replayed := rfl
  agree id := .inl ⟨Nat.zero_le id, rfl⟩
  signal := rfl
  orderly id w p there := by cases there
  tabled := lawful_nil _

end Accounted

variable [Crew ε]

/-- At every moment of a history that boots a worker only when the others
have halted or are gone, every step went where the table says. -/
theorem accounted_after (ops : List (Op ε))
    (successive : (World.empty : World cap ε).Boots Retired ops) :
    Accounted ((World.after cap ops).moment (World.journal cap ops)) :=
  World.invariant .start (fun _ _ accounted next => accounted.next next) successive

/-- **Every step follows the table.** On a link whose workers are used one
after another, every step that any of them completes goes where the outcome
of its own requests leads, whatever the crews answer, when and how often
steps are abandoned, and whatever the workers before have left behind. The
phase of every worker is the one that its last completed step led to, and the
failure signal is the one that the journal accounts for. -/
theorem steps_follow_table (ops : List (Op ε))
    (successive : (World.empty : World cap ε).Boots Retired ops) :
    let journal := World.journal cap ops
    let world := World.after cap ops
    Lawful Tabled journal ∧ world.link.status.failed = signalled (events journal) ∧
      ∀ id s, world.station? id = some s →
        s.worker.phase = (ledger (own id journal)).phase := by
  intro journal world
  have accounted := accounted_after ops successive
  refine ⟨accounted.tabled, accounted.signal, fun id s here => ?_⟩
  obtain ⟨_, agrees⟩ := accounted.agree.here (World.posts_of_station? here)
  exact agrees.keeps.phase

/-- A worker whose crew refuses the first session and the first batch retries,
publishes and halts; its successor finds the signal up. -/
theorem steps_follow_table_replaced :
    let ops : List (Op Script) :=
      [.offer (.tagged 7),
        .boot {} { connect := [{ answer := .failed ⟨.other, ""⟩ }]
                   publish := [{ answer := .failed ⟨.other, ""⟩ }] },
        .launch 0 .run, .boot {} {}, .launch 1 .step]
    (World.empty : World 2 Script).Boots Retired ops ∧
      (World.after 2 ops).link.status.failed = true ∧
      ⟨.worker 1, .entered .start .fatal⟩ ∈ World.journal 2 ops ∧
      Lawful Tabled (World.journal 2 ops) := by
  intro ops
  have successive : (World.empty : World 2 Script).Boots Retired ops := by
    decide +kernel
  obtain ⟨tabled, signal, _⟩ := steps_follow_table ops successive
  refine ⟨successive, ?_, by decide +kernel, tabled⟩
  rw [signal]
  decide +kernel

end StoreForward
