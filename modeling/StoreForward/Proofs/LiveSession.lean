import StoreForward.Proofs.Table
import StoreForward.Proofs.Verdict
import StoreForward.Proofs.WakeUp

/-!
# At most one live session

A worker checks that it holds no session before it opens one, and it counts
the batches of a drain in 32 bits with a check. On a link whose workers take
turns neither check ever fails, so that a step or a run ends early only where
a crew finds that it is being misused.

The first check would fail if a worker came back to `connectSession` with the
session that it has just opened, which takes a failure signal that is up when
the session is there. `Orderly` rules that out: the signal is down while a
session is being opened, so the session leads to `ready`, and from there
either the session is given up before the network is taken down, or a batch
could not be published and the worker halts with it (`HeldIn`). The second
check would fail if one drain handed over more batches than were ever
accepted.

## Main definitions

* `HeldIn` — where a worker may hold a session.
* `Point.sent` — how many batches a drain has handed over.
* `Uninterrupted` — an operation ends at no check of the worker's own.

## Main results

* `Turn.heldIn` — every turn keeps a session where it may be held.
* `at_most_one_live_session` — no check of a worker's own ever fails.
-/

namespace StoreForward

variable {cap : Nat} {ε : Type}

/-! ## Where a session is held -/

/-- A session may be held in the phase by a worker that goes on. -/
def Phase.isInside : Phase → Bool
  | ready | publish | closeSession => true
  | _ => false

/-- The step that was completed last: from where, and where it led. -/
def lastStep (es : List Event) : Option (Phase × Phase) := (es.filterMap Event.step?).getLast?

theorem lastStep_arrival (es : List Event) (st : Status) (source target : Phase) :
    lastStep (es ++ arrival st source target) = some (source, target) := by
  obtain ⟨asides, here, rest⟩ := arrival_eq st source target
  have none : asides.filterMap Event.step? = [] := by
    refine List.filterMap_eq_nil_iff.mpr fun e there => ?_
    have aside := rest e there
    cases e <;> first | rfl | cases aside
  rw [lastStep, here, List.filterMap_append, List.filterMap_cons, none]
  simp [Event.step?]

/-- A worker that holds a session is in one of the three phases inside it, or
has halted because a batch could not be published. -/
def HeldIn (w : Worker) (es : List Event) : Prop :=
  w.session.isSome = true →
    w.phase.isInside = true ∨ (w.phase = .fatal ∧ lastStep es = some (.publish, .fatal))

section Turns

variable {l l' l₁ : Link cap} {w w' w₁ : Worker} {source : Phase} {p q : Point}
  {past es : List Event}

/-- A session that is held when an action comes to its end was held before, or
has just been opened with the failure signal down. -/
theorem Closing.inside (closing : Closing l w source p es l₁ w₁) (stands : w.At p)
    (clear : l.status.failed = true → w.phase.bearsFailure = true)
    (inside : w.session.isSome = true → w.phase.isInside = true)
    (held : w₁.session.isSome = true) :
    source = .ready ∨ source = .publish ∨
      (source = .connectSession ∧ l₁.status.failed = false) := by
  rw [closing.phase_eq stands] at clear inside
  cases closing with
  | surveyed _ => exact .inl rfl
  | unopened _ _ | drained _ => exact .inr (.inl rfl)
  | unheld _ free =>
      rw [free] at held
      cases held
  | connected => exact .inr (.inr ⟨rfl, Phase.down_of_isVital rfl clear⟩)
  | succeeded job plain =>
      cases job with
      | close session =>
          have free : w.session = none := stands.2
          rw [free] at held
          cases held
      | start | sync | stop => cases inside held
      | connect | publish _ _ _ => cases plain
  | failed job error =>
      cases job with
      | publish _ _ _ => exact .inr (.inl rfl)
      | connect | close _ =>
          have free : w.session = none := stands.2
          rw [free] at held
          cases held
      | start | sync | stop => cases inside held
  | started _ | skipped _ _ | retried _ | woken _ => cases inside held

/-- A transition keeps a session where it may be held. -/
theorem Closing.heldIn (closing : Closing l w source p es l₁ w₁) (stands : w.At p)
    (clear : l.status.failed = true → w.phase.bearsFailure = true)
    (inside : w.session.isSome = true → w.phase.isInside = true) (past : List Event) :
    HeldIn { w₁ with phase := source.next (l₁.guards w₁) }
      (past ++ (es ++ arrival l₁.status source (source.next (l₁.guards w₁)))) := by
  intro held
  rw [← List.append_assoc, lastStep_arrival]
  rcases closing.inside stands clear inside held with rfl | rfl | ⟨rfl, down⟩
  · left
    show (if _ then _ else _ : Phase).isInside = true
    split <;> rfl
  · by_cases failed : l₁.status.failed = true
    · have halts : Phase.next .publish (l₁.guards w₁) = .fatal := if_pos failed
      rw [halts]
      exact .inr ⟨rfl, rfl⟩
    · have goesOn : Phase.next .publish (l₁.guards w₁) = .ready := if_neg failed
      rw [goesOn]
      exact .inl rfl
  · have opened : Phase.next .connectSession (l₁.guards w₁) = .ready :=
      if_neg (Bool.eq_false_iff.mp down)
    rw [opened]
    exact .inl rfl

/-- Every turn keeps a session where it may be held, if the failure signal is
up only where it may be. -/
theorem Turn.heldIn (turn : Turn l w p es l' w' q) (stands : w.At p)
    (clear : l.status.failed = true → w.phase.bearsFailure = true) (held : HeldIn w past) :
    HeldIn w' (past ++ es) := by
  by_cases halted : w.phase = .fatal
  · obtain ⟨_, rfl, rfl⟩ := turn.eq_of_fatal stands halted
    rw [List.append_nil]
    exact held
  · have inside : w.session.isSome = true → w.phase.isInside = true := fun session =>
      (held session).resolve_right fun fatal => halted fatal.1
    cases turn with
    | leave closing => exact closing.heldIn stands clear inside past
    | call calling _ _ =>
        cases calling with
        | close _ _ => exact fun session => by cases session
        | _ => exact fun session => .inl (inside session)
    | _ => exact fun session => .inl (inside session)

end Turns

/-! ## How many batches a drain has handed over -/

/-- How many batches the drain that a worker is in has handed over. -/
def Point.sent : Point → Nat
  | .draining _ sent => sent.toNat
  | .waiting (.call (.publish _ _ sent) _ _) => sent.toNat + 1
  | _ => 0

/-- A drain hands over what it counts. -/
theorem Turn.sent_le {l l' : Link cap} {w w' : Worker} {p q : Point} {es : List Event}
    (turn : Turn l w p es l' w' q) : q.sent ≤ p.sent + (handed es).length := by
  cases turn with
  | @call _ job es offers _ _ _ _ calling _ next =>
      rcases next with rfl | ⟨polls, answer, rfl⟩
      · exact Nat.zero_le _
      · cases calling with
        | @publish session sent batch _ _ =>
            have one : (handed (.called (.publish session batch) :: offers)).length =
                (handed offers).length + 1 := rfl
            show sent.toNat + 1 ≤ sent.toNat +
              (handed (.called (.publish session batch) :: offers)).length
            omega
        | _ => exact Nat.zero_le _
  | @published session batch sent room =>
      have wraps : (sent + 1).toNat ≤ sent.toNat + 1 := by
        rw [UInt32.toNat_add]
        exact Nat.mod_le _ _
      exact wraps
  | opened _ _ | leave _ | overflown | refused _ _ | park _ _ | rest _ | halted _ =>
      exact Nat.zero_le _
  | @wait job _ _ => cases job <;> exact Nat.le_add_right _ _

/-! ## Moments -/

/-- A moment of a link whose workers take turns, with every session where it
may be held, every drain in count, and the failure signal the doing of the
worker booted last. -/
structure Housed (m : Moment cap) : Prop where
  accounted : Accounted m
  held : ∀ (id : Nat) (w : Worker) (p : Point), m.posts[id]? = some (some ⟨w, p⟩) →
    HeldIn w (own id m.journal)
  counted : ∀ (id : Nat) (w : Worker) (p : Point), m.posts[id]? = some (some ⟨w, p⟩) →
    p.sent ≤ (handed (events m.journal)).length
  latest : m.link.status.failed = true → ∃ last, m.posts.length = last + 1 ∧
    (ledger (own last m.journal)).phase.bearsFailure = true

/-- While the failure signal is up, every worker is where it may be then. -/
theorem Accounted.bears_of_post {m : Moment cap} (accounted : Accounted m) {id : Nat}
    {w : Worker} {p : Point} (here : m.posts[id]? = some (some ⟨w, p⟩))
    (up : m.link.status.failed = true) :
    (ledger (own id m.journal)).phase.bearsFailure = true := by
  obtain ⟨_, agrees⟩ := accounted.agree.here here
  obtain ⟨_, clear⟩ := accounted.orderly id w p here
  rw [← agrees.keeps.phase]
  exact clear up

namespace Housed

variable {m n : Moment cap}

theorem held_next (housed : Housed m) (next : m.Next Retired n) {id : Nat} {w : Worker}
    {p : Point} (there : n.posts[id]? = some (some ⟨w, p⟩)) : HeldIn w (own id n.journal) := by
  cases next.fate there with
  | stayed there same =>
      rw [same]
      exact housed.held id w p there
  | booted settings _ worker _ _ =>
      rw [worker]
      exact fun session => by cases session
  | turned before turn journal =>
      obtain ⟨stands, _⟩ := housed.accounted.agree.here before
      obtain ⟨_, clear⟩ := housed.accounted.orderly _ _ _ before
      rw [journal, own_append, own_entries_self]
      exact turn.heldIn stands clear (housed.held _ _ _ before)
  | announced before _ journal =>
      have same : lastStep (own id m.journal ++ [.noticed .workerStarted]) =
          lastStep (own id m.journal) := by
        simp [lastStep, Event.step?]
      rw [journal, own_append, own_entries_self, HeldIn, same]
      exact housed.held _ _ _ before
  | cancelled before _ journal =>
      rw [journal]
      exact housed.held _ _ _ before

theorem counted_next (housed : Housed m) (next : m.Next Retired n) {id : Nat} {w : Worker}
    {p : Point} (there : n.posts[id]? = some (some ⟨w, p⟩)) :
    p.sent ≤ (handed (events n.journal)).length := by
  obtain ⟨more, grown⟩ := next.journal_grows
  cases next.fate there with
  | stayed there _ =>
      have before := housed.counted id w p there
      rw [grown, events_append, handed_append, List.length_append]
      omega
  | turned before turn journal =>
      have known := housed.counted _ _ _ before
      have step := turn.sent_le
      rw [journal, events_append, handed_append, List.length_append, events_entries]
      omega
  | booted _ _ _ outset _ | announced _ outset _ | cancelled _ outset _ =>
      rw [outset]
      exact Nat.zero_le _

/-- While the failure signal is up, the worker booted last is where it may be
then, and one that was dropped was there. -/
theorem latest_next (housed : Housed m) (next : m.Next Retired n)
    (up : n.link.status.failed = true) : ∃ last, n.posts.length = last + 1 ∧
      (ledger (own last n.journal)).phase.bearsFailure = true := by
  have accounted := housed.accounted.next next
  cases next with
  | feed fed =>
      rw [fed.failed] at up
      obtain ⟨last, length, bears⟩ := housed.latest up
      exact ⟨last, length, by simpa using bears⟩
  | boot settings _ =>
      have there : (m.posts ++ [some ⟨.boot settings, .outset⟩])[m.posts.length]? =
          some (some ⟨.boot settings, .outset⟩) := List.getElem?_concat_length
      exact ⟨m.posts.length, by simp, accounted.bears_of_post there up⟩
  | @turn id w w' p q es l here turn =>
      obtain ⟨inside, _⟩ := List.getElem?_eq_some_iff.mp here
      by_cases more : id + 1 < m.posts.length
      · obtain ⟨stands, _⟩ := housed.accounted.agree.here here
        obtain ⟨halted, _⟩ := housed.accounted.orderly _ _ _ here
        obtain ⟨rfl, _, rfl⟩ := turn.eq_of_fatal stands (halted more)
        obtain ⟨last, length, bears⟩ := housed.latest up
        exact ⟨last, by simpa using length, by simpa using bears⟩
      · have there := List.getElem?_set_self (a := some (⟨w', q⟩ : Post)) inside
        exact ⟨id, by simp; omega, accounted.bears_of_post there up⟩
  | @announce id w here =>
      obtain ⟨last, length, bears⟩ := housed.latest up
      refine ⟨last, length, ?_⟩
      by_cases same : last = id
      · subst same
        rw [own_append, own_entries_self, ledger_append]
        exact bears
      · simpa [own_entries_worker_of_ne same] using bears
  | cancel _ | drop _ =>
      obtain ⟨last, length, bears⟩ := housed.latest up
      exact ⟨last, by simpa using length, bears⟩

theorem next (housed : Housed m) (next : m.Next Retired n) : Housed n where
  accounted := housed.accounted.next next
  held _ _ _ there := housed.held_next next there
  counted _ _ _ there := housed.counted_next next there
  latest up := housed.latest_next next up

theorem start : Housed ({} : Moment cap) where
  accounted := Accounted.start
  held _ _ _ there := by cases there
  counted _ _ _ there := by cases there
  latest up := by cases up

end Housed

/-! ## Histories -/

variable [Crew ε]

theorem housed_after (ops : List (Op ε))
    (successive : (World.empty : World cap ε).Boots Retired ops) :
    Housed ((World.after cap ops).moment (World.journal cap ops)) :=
  World.invariant .start (fun _ _ housed next => housed.next next) successive

/-- An operation ends early only where a crew finds that it is being misused:
at no check of the worker's own. -/
def Uninterrupted (cap : Nat) (before : List (Op ε)) (op : Op ε) : Prop :=
  ∀ violation, ((World.after cap before).apply op).reply = .progress (.violated violation) →
    ∃ (crew : ε) (request : Request) (text : String),
      (Crew.react crew request).2 = .error text ∧ violation = .crew text

/-- Fewer batches than a drain can count have been accepted. -/
def Countable (journal : List Entry) : Prop := (accepted (events journal)).length < 4294967296

theorem Countable.of_append {journal more : List Entry} (few : Countable (journal ++ more)) :
    Countable journal := by
  unfold Countable at few ⊢
  rw [events_append, accepted_append, List.length_append] at few
  omega

/-- No drain loses count, if the batches accepted so far can be counted. -/
theorem Housed.not_overflown {m : Moment cap} (housed : Housed m) (few : Countable m.journal)
    {id : Nat} {w : Worker} {session : Nat} {batch : Batch} {answer : Answer}
    (there : m.posts[id]? =
      some (some ⟨w, .waiting (.call (.publish session batch 0xffffffff) 0 answer)⟩)) :
    False := by
  have sent : 4294967296 ≤ (handed (events m.journal)).length := housed.counted _ _ _ there
  have balance := congrArg List.length (balance_of_replay housed.accounted.replayed)
  rw [List.nil_append, List.length_append] at balance
  unfold Countable at few
  omega

/-- The next operation of a history ends at no check of the worker's own. -/
theorem uninterrupted (ops : List (Op ε)) (op : Op ε)
    (successive : (World.empty : World cap ε).Boots Retired ops)
    (few : Countable (World.journal cap (ops ++ [op]))) : Uninterrupted cap ops op := by
  intro violation reply
  obtain ⟨id, s, mode, here, polls⟩ := World.polls_of_progress reply
  obtain ⟨es, t, q, progress, driven, applied, ends⟩ := World.apply_driven here polls
  -- the last move is made at a moment of the history
  have housed := (World.driven_leads Retired here polls driven (World.journal cap ops)).keeps
    (fun _ _ housed next => housed.next next) (housed_after ops successive)
  have there := List.getElem?_set_self (a := some (⟨t.worker, q⟩ : Post))
    (List.getElem?_eq_some_iff.mp (World.posts_of_station? here)).1
  rw [World.journal_concat, applied, World.entries_absorb, ← List.append_assoc, entries_append,
    ← List.append_assoc] at few
  rw [applied] at reply
  cases reply
  have moved := t.moved q
  generalize t.move q = m at ends moved
  cases moved with
  | misused reaction =>
      cases ends
      exact ⟨_, _, _, congrArg Prod.snd reaction, rfl⟩
  | refused phase held =>
      have stays : t.worker.phase.isInside = true ∨ t.worker.phase = .fatal :=
        (housed.held id t.worker q there held).imp_right And.left
      rw [phase] at stays
      simp [Phase.isInside] at stays
  | overflown full =>
      subst full
      exact (housed.not_overflown few.of_append there).elim
  | _ => cases ends

/-- **At most one live session.** On a link whose workers are used one after
another, and on which fewer batches have been accepted than a drain can
count, no step and no run ends at a check of the worker's own: a session is
opened only when none is held, and no drain loses count, whatever the crews
answer and wherever steps are abandoned. The failure signal is up only while
the worker booted last is in `start`, `retrySession` or `fatal`, or was when it
was dropped. A worker that is ready or publishing holds a session, and one
that holds a session is ready, publishing, or closing it, or has halted after
a batch could not be published. -/
theorem at_most_one_live_session (ops : List (Op ε))
    (successive : (World.empty : World cap ε).Boots Retired ops)
    (few : Countable (World.journal cap ops)) :
    let journal := World.journal cap ops
    let world := World.after cap ops
    Lawful (Uninterrupted cap) ops ∧
      (world.link.status.failed = true → ∃ last, world.stations.length = last + 1 ∧
        (ledger (own last journal)).phase.bearsFailure = true) ∧
      ∀ id s, world.station? id = some s →
        s.worker.phase = (ledger (own id journal)).phase ∧
        (s.worker.phase = .ready ∨ s.worker.phase = .publish →
          s.worker.session.isSome = true) ∧
        (s.worker.session.isSome = true →
          s.worker.phase = .ready ∨ s.worker.phase = .publish ∨
          s.worker.phase = .closeSession ∨
          (s.worker.phase = .fatal ∧
            lastStep (own id journal) = some (.publish, .fatal))) := by
  intro journal world
  have housed : Housed (world.moment journal) := housed_after ops successive
  refine ⟨?_, fun up => ?_, fun id s here => ?_⟩
  · rintro before op after rfl
    rw [List.append_cons] at successive few
    rw [World.journal_append] at few
    exact uninterrupted before op successive.of_append.of_append few.of_append
  · obtain ⟨last, length, bears⟩ := housed.latest up
    refine ⟨last, ?_, bears⟩
    rw [← length]
    exact (List.length_map _).symm
  · have there := World.posts_of_station? here
    obtain ⟨_, agrees⟩ := housed.accounted.agree.here there
    refine ⟨agrees.keeps.phase, agrees.session, fun held => ?_⟩
    rcases housed.held id _ _ there held with inside | halted
    · cases phase : s.worker.phase <;> simp [phase, Phase.isInside] at inside ⊢
    · exact .inr (.inr (.inr halted))

/-- A worker opens its session after a retry and halts with it when a batch is
refused; its successor finds the failure signal up. -/
theorem at_most_one_live_session_replaced :
    let ops : List (Op Script) :=
      [.offer (.tagged 7),
        .boot {} { connect := [{ answer := .failed ⟨.other, ""⟩ }]
                   publish := [{ answer := .failed ⟨.other, ""⟩ }] },
        .launch 0 .run, .boot {} {}]
    let journal := World.journal 2 ops
    (World.empty : World 2 Script).Boots Retired ops ∧
      (accepted (events journal)).length < 4294967296 ∧
      (∃ s, (World.after 2 ops).station? 0 = some s ∧ s.worker.session = some 1 ∧
        lastStep (own 0 journal) = some (.publish, .fatal)) ∧
      (World.after 2 ops).link.status.failed = true ∧
      (ledger (own 1 journal)).phase.bearsFailure = true := by
  intro ops journal
  have successive : (World.empty : World 2 Script).Boots Retired ops := by
    decide +kernel
  have few : Countable journal := by
    unfold Countable
    decide +kernel
  have held : ((World.after 2 ops).station? 0).map (fun s => (s.worker.session, s.worker.phase)) =
      some (some 1, .fatal) := by
    decide +kernel
  have up : (World.after 2 ops).link.status.failed = true := by
    decide +kernel
  obtain ⟨_, latest, each⟩ := at_most_one_live_session ops successive few
  obtain ⟨s, here, facts⟩ := Option.map_eq_some_iff.mp held
  obtain ⟨session, phase⟩ := Prod.mk.inj facts
  obtain ⟨_, _, places⟩ := each 0 s here
  obtain ⟨last, length, bears⟩ := latest up
  have second : last = 1 := by
    have two : (World.after 2 ops).stations.length = 2 := by
      decide +kernel
    omega
  subst second
  refine ⟨successive, few, ⟨s, here, session, ?_⟩, up, bears⟩
  have place := places (by rw [session]; rfl)
  rw [phase] at place
  simpa using place

end StoreForward
