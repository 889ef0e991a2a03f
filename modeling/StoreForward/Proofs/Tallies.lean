import StoreForward.Proofs.Hints
import StoreForward.Proofs.Recovery

/-!
# Tallies

A link counts six things, in six places and in 32 bits each: batches taken in and
turned away, batches published, retries, failures to tear down, and how often low
power was allowed. What it ought to have counted can be read off its journal, and
every turn counts exactly what happens in it (`Turn.tally`). An answer that never
arrives is counted nowhere.

There is one exception. A drain counts for itself what it has published, without
wrapping, and where that count is full it stops before the link counts the batch.
`Drained` says that the count of a drain is the number of batches published since
its step began, so this needs a step that publishes more batches than fit into a
count (`Measured`).

## Main definitions

* `tallied` — the counters, from the journal.
* `Drained` — a drain has counted the batches published in its step.
* `Measured` — no step publishes more batches than a drain can count.

## Main results

* `Turn.tally` — every turn counts what happens in it.
* `tally_after` — so does every history.
-/

namespace StoreForward

variable {cap : Nat} {ε : Type}

/-! ## Counting events -/

namespace Event

/-- A batch is accepted. -/
def isAcceptance (e : Event) : Bool := e.accepted?.isSome

/-- A batch is turned away. -/
def isRejection : Event → Bool
  | offered _ false => true
  | _ => false

/-- A batch has been published. -/
def isDelivery (e : Event) : Bool := e.delivered?.isSome

/-- A step of `retrySession` is complete. -/
def isRetry : Event → Bool
  | entered .retrySession _ => true
  | _ => false

/-- A request to tear down has failed. -/
def isTeardownFailure : Event → Bool
  | answered request (.failed _) => request.isTeardown
  | _ => false

/-- Low power is allowed. -/
def isAllowance : Event → Bool
  | hinted .allowLowPower => true
  | _ => false

/-- The event is counted. -/
def isCounted (e : Event) : Bool :=
  e.isAcceptance || e.isRejection || e.isDelivery || e.isRetry || e.isTeardownFailure ||
    e.isAllowance

end Event

theorem length_accepted (es : List Event) : (accepted es).length = es.countP Event.isAcceptance :=
  List.length_filterMap_eq_countP

theorem length_delivered (es : List Event) : (delivered es).length = es.countP Event.isDelivery :=
  List.length_filterMap_eq_countP

/-- The number of events of a kind, as far as a counter can tell. -/
def count (kind : Event → Bool) (es : List Event) : UInt32 := .ofNat (es.countP kind)

theorem count_append (kind : Event → Bool) (es fs : List Event) :
    count kind (es ++ fs) = count kind es + count kind fs := by
  unfold count
  rw [List.countP_append, UInt32.ofNat_add]

theorem count_without {kind : Event → Bool} {es : List Event} (none : Without kind es) :
    count kind es = 0 := by
  have zero : es.countP kind = 0 :=
    List.countP_eq_zero.mpr fun e there => Bool.eq_false_iff.mp (none e there)
  rw [count, zero]
  rfl

/-- What the counters ought to show after some events. -/
def tallied (es : List Event) : Tally where
  enqueued := count Event.isAcceptance es
  rejected := count Event.isRejection es
  published := count Event.isDelivery es
  retries := count Event.isRetry es
  teardownFailures := count Event.isTeardownFailure es
  lowPowerWindows := count Event.isAllowance es

namespace Tally

instance : Zero Tally := ⟨{}⟩

instance : Add Tally where
  add t u :=
    { enqueued := t.enqueued + u.enqueued
      rejected := t.rejected + u.rejected
      published := t.published + u.published
      retries := t.retries + u.retries
      teardownFailures := t.teardownFailures + u.teardownFailures
      lowPowerWindows := t.lowPowerWindows + u.lowPowerWindows }

theorem add_eq (t u : Tally) : t + u =
    { enqueued := t.enqueued + u.enqueued
      rejected := t.rejected + u.rejected
      published := t.published + u.published
      retries := t.retries + u.retries
      teardownFailures := t.teardownFailures + u.teardownFailures
      lowPowerWindows := t.lowPowerWindows + u.lowPowerWindows } := rfl

theorem zero_eq : (0 : Tally) = {} := rfl

@[simp] theorem add_zero (t : Tally) : t + 0 = t := by
  simp [add_eq, zero_eq]

@[simp] theorem zero_add (t : Tally) : 0 + t = t := by
  simp [add_eq, zero_eq]

theorem add_assoc (t u v : Tally) : t + u + v = t + (u + v) := by
  simp only [add_eq, UInt32.add_assoc]

end Tally

@[simp] theorem tallied_nil : tallied [] = 0 := rfl

@[simp] theorem tallied_append (es fs : List Event) :
    tallied (es ++ fs) = tallied es + tallied fs := by
  simp only [tallied, count_append, Tally.add_eq]

theorem tallied_cons (e : Event) (es : List Event) : tallied (e :: es) = tallied [e] + tallied es :=
  tallied_append [e] es

/-- Nothing is counted. -/
abbrev Uncounted (es : List Event) : Prop := Without Event.isCounted es

theorem tallied_uncounted {es : List Event} (uncounted : Uncounted es) : tallied es = 0 := by
  have none {kind : Event → Bool} (part : ∀ e, e.isCounted = false → kind e = false) :
      count kind es = 0 :=
    count_without (uncounted.weaken part)
  unfold tallied
  rw [none fun e spared => ?_, none fun e spared => ?_, none fun e spared => ?_,
    none fun e spared => ?_, none fun e spared => ?_, none fun e spared => ?_]
  · rfl
  all_goals
    simp only [Event.isCounted, Bool.or_eq_false_iff] at spared
    simp only [spared]

@[simp] theorem uncounted_discarding (stale : Nat) : Uncounted (discarding stale) :=
  without_discarding stale rfl

theorem uncounted_success {job : Job} {es : List Event} (plain : job.success? = some es) :
    Uncounted (.answered job.request .ok :: es) := by
  cases job <;> cases plain <;> simp [Event.isCounted, Event.isAcceptance, Event.accepted?,
    Event.isRejection, Event.isDelivery, Event.delivered?, Event.isRetry, Event.isTeardownFailure,
    Event.isAllowance, Job.request]

/-- Of what happens when a phase is entered only the transition counts. -/
theorem tallied_arrival (st : Status) (source target : Phase) :
    tallied (arrival st source target) = tallied [.entered source target] := by
  unfold arrival
  split <;> rfl

/-! ## Feeding a link -/

namespace Link

variable {l l' : Link cap}

theorem tally_of_eq {l l' : Link cap} (rejected : l'.outbox.rejected = l.outbox.rejected)
    (status : l'.status = l.status) : l'.tally = l.tally := by
  unfold tally
  rw [rejected, status]

/-- An offer is counted as accepted or as turned away. -/
theorem tally_offer (l : Link cap) (b : Batch) :
    (l.offer b).1.tally = l.tally + tallied (l.offer b).2.2 := by
  rcases l.offer_cases b with ⟨_, m, _, rejected, _, status, offer⟩ | ⟨_, offer⟩
  · rw [offer, tallied_cons, tallied_uncounted (without_post _ rfl), Tally.add_zero,
      tally_of_eq (congrArg Outbox.rejected (post_fst _ _).1) (post_fst _ _).2]
    show _ = l.tally + { enqueued := 1 }
    simp [tally, Tally.add_eq, rejected, status]
  · rw [offer]
    show _ = l.tally + { rejected := 1 }
    simp [tally, Tally.add_eq]

theorem tally_nudge (l : Link cap) : l.nudge.1.tally = l.tally + tallied l.nudge.2.2 := by
  have uncounted : Uncounted l.nudge.2.2 := l.without_nudge (fun _ => rfl) rfl
  obtain ⟨outbox, status⟩ := l.nudge_fst
  rw [tallied_uncounted uncounted, Tally.add_zero]
  exact tally_of_eq (congrArg Outbox.rejected outbox) status

/-- What a link is fed with is counted. -/
theorem Fed.tally {es : List Event} (fed : l.Fed es l') : l'.tally = l.tally + tallied es := by
  induction fed with
  | done => rw [tallied_nil, Tally.add_zero]
  | @offer l b _ _ _ ih => rw [ih, tally_offer, tallied_append, Tally.add_assoc]
  | @nudge l _ _ _ ih => rw [ih, tally_nudge, tallied_append, Tally.add_assoc]

/-- To allow low power opens a window, unless it is allowed already. -/
theorem tally_hinted (l : Link cap) (was allowed : Bool) :
    (l.hinted was allowed).tally = l.tally + tallied (hinting was allowed) := by
  unfold hinted hinting
  by_cases same : was = allowed
  · rw [if_pos same, if_pos same]
    simp [tally]
  · rw [if_neg same, if_neg same]
    cases allowed with
    | false => exact (Tally.add_zero _).symm
    | true =>
        show _ = l.tally + { lowPowerWindows := 1 }
        simp [tally, Tally.add_eq, Status.setLowPower]

/-- To enter a phase changes no counter. -/
theorem tally_enter (l : Link cap) (source target : Phase) :
    Link.tally { l with status := l.status.enter source target } = l.tally := by
  unfold Status.enter
  split <;> rfl

end Link

/-! ## Turns -/

section Turns

variable {l l' l₁ : Link cap} {w w' w₁ : Worker} {source : Phase} {p q : Point}
  {es : List Event}

/-- Getting ready to put a request to the crew is not counted. -/
theorem Calling.tally {job : Job} (calling : Calling l w p job es l₁ w₁) :
    l₁.tally = l.tally ∧ tallied es = 0 := by
  cases calling with
  | publish taken =>
      exact ⟨Link.tally_of_eq (Outbox.items_take? taken).2 rfl, rfl⟩
  | _ => exact ⟨rfl, rfl⟩

/-- The end of an action counts a failure to tear down, a retry, or the low power
that is allowed, and nothing else. -/
theorem Closing.tally (closing : Closing l w source p es l₁ w₁) (target : Phase) :
    l₁.tally = l.tally + (tallied es + tallied [.entered source target]) := by
  have same {t u : Tally} (zero : t = 0) (counted : u = 0) : l.tally = l.tally + (t + u) := by
    rw [zero, counted, Tally.add_zero, Tally.add_zero]
  cases closing with
  | skipped _ _ =>
      rw [Link.tally_hinted, tallied_cons, tallied_append]
      show _ = l.tally + (0 + (tallied (hinting w.lowPower false) + 0) + 0)
      simp only [Tally.add_zero, Tally.zero_add]
      rfl
  | woken _ =>
      rw [Link.tally_hinted, tallied_append]
      show _ = l.tally + (tallied (hinting w.lowPower false) + 0 + 0)
      simp only [Tally.add_zero]
      rfl
  | retried _ =>
      show _ = l.tally + (0 + { retries := 1 })
      simp [Link.tally, Tally.add_eq, Tally.zero_eq, Status.lower]
  | succeeded job plain =>
      refine same (tallied_uncounted (uncounted_success plain)) ?_
      cases job <;> rfl
  | failed job error =>
      cases job with
      | close _ | stop =>
          show _ = l.tally + ({ teardownFailures := 1 } + 0)
          simp [Link.tally, Tally.add_eq, Tally.zero_eq, Status.blame, Job.fault?]
      | _ => exact same rfl rfl
  | connected => exact same (by split <;> rfl) rfl
  | _ => exact same rfl rfl

/-- **Turns count.** Every turn counts what happens in it, except where a drain
loses count. -/
theorem Turn.tally (turn : Turn l w p es l' w' q)
    (kept : ∀ session batch, p ≠ .waiting (.call (.publish session batch 0xffffffff) 0 .ok)) :
    l'.tally = l.tally + tallied es := by
  cases turn with
  | call calling fed _ =>
      obtain ⟨same, none⟩ := calling.tally
      rw [fed.tally, same, tallied_append, tallied_cons, none]
      show _ = l.tally + (0 + (0 + _))
      simp only [Tally.zero_add]
  | leave closing =>
      rw [Link.tally_enter, tallied_append, tallied_arrival]
      exact closing.tally _
  | published _ =>
      show _ = l.tally + { published := 1 }
      simp [Link.tally, Tally.add_eq]
  | overflown => exact absurd rfl (kept _ _)
  | park _ _ =>
      rw [Link.tally_hinted, tallied_cons, tallied_append, tallied_append,
        tallied_uncounted (uncounted_discarding _)]
      show _ = l.tally + (0 + (0 + tallied (hinting w.lowPower true) + 0))
      simp only [Tally.add_zero, Tally.zero_add]
      rfl
  | _ => exact (Tally.add_zero _).symm

/-- Where a drain loses count nothing is done about the batch that it has published. -/
theorem Turn.overflows {session : Nat} {batch : Batch}
    (turn : Turn l w (.waiting (.call (.publish session batch 0xffffffff) 0 .ok)) es l' w' q) :
    l' = l ∧ es = [.answered (.publish session batch) .ok] := by
  cases turn with
  | overflown => exact ⟨rfl, rfl⟩
  | published room => exact absurd rfl room
  | call calling _ _ => cases calling
  | leave closing =>
      cases closing with
      | succeeded _ plain => cases plain

end Turns

/-! ## The count of a drain -/

/-- The count of the drain that a worker is in. -/
def Point.drained? : Point → Option UInt32
  | .draining _ sent => some sent
  | .waiting (.call (.publish _ _ sent) _ _) => some sent
  | _ => none

/-- What comes from outside begins no step. -/
theorem unbegun_of_asides {es : List Event} (asides : Asides es) : Without Event.isBegin es := by
  refine asides.weaken fun e aside => ?_
  cases e <;> first | rfl | cases aside

/-- A count that is not full does not wrap. -/
theorem toNat_add_one_of_ne {n : UInt32} (room : n ≠ 0xffffffff) :
    (n + 1).toNat = n.toNat + 1 := by
  have bound : n.toNat < 4294967296 := n.toNat_lt
  have below : n.toNat ≠ 4294967295 := fun full => room (UInt32.toNat.inj full)
  rw [UInt32.toNat_add, show (1 : UInt32).toNat = 1 from rfl, Nat.mod_eq_of_lt (by omega)]

/-- The number of batches that a worker has published in the step that it has begun
last; from its own events. -/
def publishedInStep (es : List Event) : Nat := (delivered (since Event.isBegin es)).length

theorem publishedInStep_append (past : List Event) {es : List Event}
    (unbegun : Without Event.isBegin es) :
    publishedInStep (past ++ es) = publishedInStep past + (delivered es).length := by
  unfold publishedInStep
  rw [since_append past unbegun, delivered_append, List.length_append]

/-- A drain has counted the batches published in its step. -/
def Drained (p : Point) (es : List Event) : Prop :=
  ∀ sent, p.drained? = some sent → sent.toNat = publishedInStep es

namespace Drained

variable {l l' : Link cap} {w w' : Worker} {p q : Point} {past es : List Event}

theorem elsewhere (none : p.drained? = none) (es : List Event) : Drained p es := by
  intro sent some
  rw [none] at some
  cases some

/-- While nothing is published in the step, the count of a drain stays. -/
theorem same (drained : Drained p past) (point : q.drained? = p.drained?)
    (unbegun : Without Event.isBegin es) (none : delivered es = []) : Drained q (past ++ es) := by
  intro sent there
  rw [publishedInStep_append past unbegun, none, ← drained sent (point.symm.trans there)]
  rfl

/-- Every turn keeps the count of a drain. -/
theorem turn (turn : Turn l w p es l' w' q) (drained : Drained p past) :
    Drained q (past ++ es) := by
  cases turn with
  | call calling fed next =>
      rcases next with rfl | ⟨polls, answer, rfl⟩
      · exact elsewhere rfl _
      · cases calling with
        | publish _ =>
            refine drained.same rfl (without_cons.mpr ⟨rfl, unbegun_of_asides fed.asides⟩) ?_
            exact (delivered_quiet fed.quiet).2
        | _ => exact elsewhere rfl _
  | opened _ _ =>
      intro sent there
      cases there
      unfold publishedInStep
      rw [since_append_cons past rfl (by simp)]
      rfl
  | @published session batch sent room =>
      intro next there
      cases there
      have before : sent.toNat = publishedInStep past := drained sent rfl
      have unbegun : Without Event.isBegin
          [.answered (.publish session batch) .ok, .noticed (.batchPublished batch.length)] := by
        simp [Event.isBegin]
      rw [publishedInStep_append past unbegun, ← before]
      exact toNat_add_one_of_ne room
  | @wait job _ _ =>
      refine drained.same ?_ without_nil rfl
      cases job <;> rfl
  | _ => exact elsewhere rfl _

end Drained

/-! ## Histories -/

/-- No step of a worker publishes more batches than a drain can count. -/
def Measured (journal : List Entry) : Prop :=
  ∀ id before, before <+: own id journal → publishedInStep before < 4294967296

theorem Measured.of_append {journal more : List Entry} (measured : Measured (journal ++ more)) :
    Measured journal := by
  intro id before beginning
  refine measured id before (beginning.trans ?_)
  rw [own_append]
  exact List.prefix_append _ _

theorem length_since_le {α : Type} (mark : α → Bool) (es : List α) :
    (since mark es).length ≤ es.length := by
  have step : ∀ (fs seen : List α),
      (fs.foldl (sinceStep mark) seen).length ≤ seen.length + fs.length := by
    intro fs
    induction fs with
    | nil => exact fun seen => Nat.le_refl _
    | cons e fs ih =>
        intro seen
        have rest := ih (sinceStep mark seen e)
        have first : (sinceStep mark seen e).length ≤ seen.length + 1 := by
          unfold sinceStep
          split <;> simp
        rw [List.foldl_cons, List.length_cons]
        omega
  simpa [since] using step es []

/-- A journal that can be counted is measured. -/
theorem Measured.of_length {journal : List Entry} (short : journal.length < 4294967296) :
    Measured journal := by
  intro id before beginning
  have published : publishedInStep before ≤ (since Event.isBegin before).length :=
    List.length_filterMap_le _ _
  have step := length_since_le Event.isBegin before
  have own : before.length ≤ journal.length :=
    beginning.length_le.trans (List.length_filterMap_le _ _)
  omega

/-- The counts of all drains stay right from moment to moment. -/
theorem Drained.next {may : List (Option Post) → Prop} {m n : Moment cap}
    (drained : Everyone (fun _ p es => Drained p es) m) (next : m.Next may n) :
    Everyone (fun _ p es => Drained p es) n := by
  refine Everyone.next ?_ ?_ ?_ ?_ drained next
  · exact fun _ => .elsewhere rfl _
  · exact fun _ es _ => .elsewhere rfl _
  · exact fun _ _ es _ => .elsewhere rfl _
  · exact fun _ _ _ _ _ _ _ _ turn drained => drained.turn turn

/-- The counts of all drains are right, and so are the counters of the link if no
drain has lost count. -/
structure Counted (m : Moment cap) : Prop where
  drained : Everyone (fun _ p es => Drained p es) m
  tally : Measured m.journal → m.link.tally = tallied (events m.journal)

namespace Counted

variable {may : List (Option Post) → Prop} {m n : Moment cap}

/-- No drain loses count in a step that is measured. -/
theorem kept (counted : Counted m) {id : Nat} {w w' : Worker} {p q : Point} {l : Link cap}
    {es : List Event} (here : m.posts[id]? = some (some ⟨w, p⟩))
    (turn : Turn m.link w p es l w' q) (measured : Measured (m.journal ++ entries (.worker id) es))
    (session : Nat) (batch : Batch) :
    p ≠ .waiting (.call (.publish session batch 0xffffffff) 0 .ok) := by
  rintro rfl
  have full : publishedInStep (own id m.journal) = 4294967295 :=
    (counted.drained.here here 0xffffffff rfl).symm
  obtain ⟨_, answered⟩ := turn.overflows
  have more := measured id _ List.prefix_rfl
  rw [own_append, own_entries_self, answered,
    publishedInStep_append _ (by simp [Event.isBegin]), full] at more
  exact absurd more (Nat.lt_irrefl _)

theorem tally_next (counted : Counted m) (next : m.Next may n) (measured : Measured n.journal) :
    n.link.tally = tallied (events n.journal) := by
  cases next with
  | feed fed =>
      rw [events_append, events_entries, tallied_append, ← counted.tally measured.of_append,
        fed.tally]
  | turn here turn =>
      rw [events_append, events_entries, tallied_append, ← counted.tally measured.of_append]
      exact turn.tally (counted.kept here turn measured)
  | boot _ _ | announce _ =>
      rw [events_append, events_entries, tallied_append, ← counted.tally measured.of_append]
      exact (Tally.add_zero _).symm
  | cancel _ | drop _ => exact counted.tally measured

theorem next (counted : Counted m) (next : m.Next may n) : Counted n where
  drained := Drained.next counted.drained next
  tally := counted.tally_next next

end Counted

variable [Crew ε]

theorem counted_after (ops : List (Op ε)) :
    Counted ((World.after cap ops).moment (World.journal cap ops)) := by
  refine World.invariant ?_ (fun _ _ counted next => counted.next next) (World.boots_any ops _)
  exact ⟨fun id => .inl ⟨Nat.zero_le id, rfl⟩, fun _ => rfl⟩

/-- If no step publishes more batches than a drain can count, the counters of a link
show what has happened on it. -/
theorem tally_after {ops : List (Op ε)} (measured : Measured (World.journal cap ops)) :
    (World.after cap ops).link.tally = tallied (events (World.journal cap ops)) :=
  (counted_after ops).tally measured

end StoreForward
