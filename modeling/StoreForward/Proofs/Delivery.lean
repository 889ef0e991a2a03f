import StoreForward.Proofs.Chronicle

/-!
# Delivery in order

Batches are accepted from the producer and from crews, at any time, and are
handed over for publishing by any of the workers on a link, any of which may
be suspended, abandon its drain, or be dropped. Through all of this the link
behaves as one bounded queue: what has been handed over and what is waiting
are together what has been accepted, in order.

The proof does not follow the batches. `replay` reads a journal as the input
of an abstract queue, which refuses an entry that a queue of that capacity
would not have produced. Every turn and every feed is replayed from the
outbox before it to the outbox after it, so the journal of a history is
replayed from nothing to the outbox at its end, and the order of delivery is
a fact about the abstract queue.

## Main results

* `replay_turn` — every turn is replayed.
* `replay_journal` — so is every history.
* `delivery_in_order` — nothing is lost, duplicated or reordered on the way
  to a publish call.
-/

namespace StoreForward

variable {cap : Nat} {ε : Type}

/-! ## What a journal says about batches -/

/-- The batch, if the event is that one was accepted. -/
def Event.accepted? : Event → Option Batch
  | offered b true => some b
  | _ => none

/-- The batch, if the event is that one was handed over for publishing. -/
def Event.handed? : Event → Option Batch
  | called (.publish _ b) => some b
  | _ => none

/-- The batches accepted by the outbox, in order. -/
def accepted (es : List Event) : List Batch := es.filterMap Event.accepted?

/-- The batches handed over for publishing, in order. -/
def handed (es : List Event) : List Batch := es.filterMap Event.handed?

@[simp] theorem accepted_nil : accepted [] = [] := rfl

@[simp] theorem handed_nil : handed [] = [] := rfl

theorem accepted_cons (e : Event) (es : List Event) :
    accepted (e :: es) = e.accepted?.toList ++ accepted es := by
  unfold accepted
  cases kind : e.accepted? <;> simp [kind]

theorem handed_cons (e : Event) (es : List Event) :
    handed (e :: es) = e.handed?.toList ++ handed es := by
  unfold handed
  cases kind : e.handed? <;> simp [kind]

@[simp] theorem accepted_append (es fs : List Event) :
    accepted (es ++ fs) = accepted es ++ accepted fs :=
  List.filterMap_append

@[simp] theorem handed_append (es fs : List Event) :
    handed (es ++ fs) = handed es ++ handed fs :=
  List.filterMap_append

/-- The batches that have been accepted and not yet handed over. -/
def backlog (es : List Event) : List Batch := (accepted es).drop (handed es).length

/-! ## The abstract queue -/

/-- What an event makes of the waiting batches of a queue of a capacity;
`none` if no such queue could have caused it. -/
def stock (cap : Nat) (waiting : List Batch) : Event → Option (List Batch)
  | .offered b true => if waiting.length < cap then some (waiting ++ [b]) else none
  | .offered _ false => if waiting.length < cap then none else some waiting
  | .called (.publish _ b) => if waiting.head? = some b then some waiting.tail else none
  | _ => some waiting

/-- What a journal makes of the waiting batches. -/
def replay (cap : Nat) (waiting : List Batch) (es : List Event) : Option (List Batch) :=
  es.foldlM (stock cap) waiting

@[simp] theorem replay_nil (cap : Nat) (waiting : List Batch) :
    replay cap waiting [] = some waiting := rfl

@[simp] theorem replay_cons (cap : Nat) (waiting : List Batch) (e : Event) (es : List Event) :
    replay cap waiting (e :: es) = (stock cap waiting e).bind fun next => replay cap next es :=
  rfl

@[simp] theorem replay_append (cap : Nat) (waiting : List Batch) (es fs : List Event) :
    replay cap waiting (es ++ fs) =
      (replay cap waiting es).bind fun next => replay cap next fs :=
  List.foldlM_append

theorem replay_remarks (cap : Nat) (waiting : List Batch) {es : List Event}
    (remarks : Remarks es) : replay cap waiting es = some waiting := by
  induction es with
  | nil => rfl
  | cons e es ih =>
      obtain ⟨first, rest⟩ := without_cons.mp remarks
      have kept : stock cap waiting e = some waiting := by
        cases e <;> first | rfl | cases first
      rw [replay_cons, kept]
      exact ih rest

@[simp] theorem replay_hinting (cap : Nat) (waiting : List Batch) (was allowed : Bool) :
    replay cap waiting (hinting was allowed) = some waiting :=
  replay_remarks cap waiting (remarks_hinting was allowed)

@[simp] theorem replay_discarding (cap : Nat) (waiting : List Batch) (stale : Nat) :
    replay cap waiting (discarding stale) = some waiting :=
  replay_remarks cap waiting (remarks_discarding stale)

@[simp] theorem replay_arrival (cap : Nat) (waiting : List Batch) (st : Status)
    (source target : Phase) :
    replay cap waiting (arrival st source target) = some waiting := by
  unfold arrival
  split <;> rfl

theorem balance_of_stock {cap : Nat} {before after : List Batch} {e : Event}
    (stocked : stock cap before e = some after) :
    before ++ e.accepted?.toList = e.handed?.toList ++ after := by
  unfold stock at stocked
  split at stocked
  · split at stocked <;> cases stocked
    rfl
  · split at stocked <;> cases stocked
    exact List.append_nil _
  · split at stocked <;> cases stocked
    rename_i b first
    obtain ⟨rest, rfl⟩ := List.head?_eq_some_iff.mp first
    exact List.append_nil _
  · rename_i notAccepted _ notHanded
    cases stocked
    have neither : e.accepted? = none ∧ e.handed? = none := by
      constructor
      · unfold Event.accepted?
        split
        · exact absurd rfl (notAccepted _)
        · rfl
      · unfold Event.handed?
        split
        · exact absurd rfl (notHanded _ _)
        · rfl
    simp [neither]

/-- A queue that could have caused some events has kept all batches, in
order. -/
theorem balance_of_replay {cap : Nat} {es : List Event} : ∀ {before after : List Batch},
    replay cap before es = some after → before ++ accepted es = handed es ++ after := by
  induction es with
  | nil =>
      intro before after replayed
      simpa using replayed
  | cons e es ih =>
      intro before after replayed
      rw [replay_cons] at replayed
      obtain ⟨middle, first, rest⟩ := Option.bind_eq_some_iff.mp replayed
      have one := balance_of_stock first
      have more := ih rest
      calc
        before ++ accepted (e :: es) = (before ++ e.accepted?.toList) ++ accepted es := by
          rw [accepted_cons, List.append_assoc]
        _ = e.handed?.toList ++ (middle ++ accepted es) := by rw [one, List.append_assoc]
        _ = handed (e :: es) ++ after := by rw [more, handed_cons, List.append_assoc]

/-- No queue ever holds more than its capacity. -/
theorem length_of_replay {cap : Nat} {es : List Event} : ∀ {before after : List Batch},
    replay cap before es = some after → before.length ≤ cap → after.length ≤ cap := by
  induction es with
  | nil =>
      intro before after replayed within
      cases replayed
      exact within
  | cons e es ih =>
      intro before after replayed within
      rw [replay_cons] at replayed
      obtain ⟨middle, first, rest⟩ := Option.bind_eq_some_iff.mp replayed
      refine ih rest ?_
      unfold stock at first
      split at first
      · split at first <;> cases first
        rw [List.length_append, List.length_singleton]
        omega
      · split at first <;> cases first
        exact within
      · split at first <;> cases first
        rw [List.length_tail]
        omega
      · cases first
        exact within

/-- What a queue that started empty still holds is the backlog. -/
theorem backlog_of_replay {cap : Nat} {es : List Event} {waiting : List Batch}
    (replayed : replay cap [] es = some waiting) : backlog es = waiting := by
  have balance := balance_of_replay replayed
  rw [List.nil_append] at balance
  rw [backlog, balance, List.drop_left]

/-- What an event says about batches, given the events before it. The batches
handed over so far and the backlog are the batches accepted so far; a batch is
accepted if and only if the backlog is below the capacity; and a batch that is
handed over is the first of the backlog. -/
def InOrder (cap : Nat) (before : List Event) (e : Event) : Prop :=
  accepted before = handed before ++ backlog before ∧
    match e with
    | .offered _ room => room = true ↔ (backlog before).length < cap
    | .called (.publish _ b) => (backlog before).head? = some b
    | _ => True

theorem inOrder_of_replay {cap : Nat} {es : List Event} {waiting : List Batch}
    (replayed : replay cap [] es = some waiting) : Lawful (InOrder cap) es := by
  rintro before e after rfl
  rw [replay_append] at replayed
  obtain ⟨middle, first, rest⟩ := Option.bind_eq_some_iff.mp replayed
  rw [replay_cons] at rest
  obtain ⟨next, stocked, _⟩ := Option.bind_eq_some_iff.mp rest
  have held := backlog_of_replay first
  refine ⟨by simpa [held] using balance_of_replay first, ?_⟩
  rw [held]
  cases e with
  | offered b room =>
      have count := stocked
      cases room <;> simp [stock] at count ⊢ <;> exact count.1
  | called request =>
      cases request with
      | publish session b =>
          have both : middle.head? = some b ∧ middle.tail = next := by
            simpa [stock] using stocked
          exact both.1
      | _ => trivial
  | _ => trivial

/-! ## Turns are replayed -/

/-- The batches that wait in the outbox of a link. -/
def Link.waiting (l : Link cap) : List Batch := l.outbox.waiting.items

@[simp] theorem Link.waiting_post (l : Link cap) (w : Wake) : (l.post w).1.waiting = l.waiting :=
  congrArg (fun o : Outbox cap => o.waiting.items) (post_fst l w).1

theorem Link.replay_post (l : Link cap) (w : Wake) (waiting : List Batch) :
    replay cap waiting (l.post w).2.2 = some waiting :=
  replay_remarks cap waiting (l.without_post rfl)

theorem Link.replay_offer (l : Link cap) (b : Batch) :
    replay cap l.waiting (l.offer b).2.2 = some (l.offer b).1.waiting := by
  rcases l.offer_cases b with ⟨room, m, items, _, _, _, offer⟩ | ⟨full, offer⟩
  · have free : l.waiting.length < cap := room
    rw [offer, replay_cons, stock, if_pos free, Option.bind_some, replay_post, waiting_post]
    exact congrArg some items.symm
  · have none : ¬ l.waiting.length < cap := Nat.not_lt.mpr full
    rw [offer, replay_cons, stock, if_neg none]
    rfl

/-- A batch is accepted exactly if there is room. -/
theorem Link.accepts_iff (l : Link cap) (b : Batch) :
    (l.offer b).2.1 = decide (l.queued < cap) := by
  rcases l.offer_cases b with ⟨room, m, _, _, _, _, offer⟩ | ⟨full, offer⟩
  · rw [offer, decide_eq_true room]
  · rw [offer, decide_eq_false (Nat.not_lt.mpr full)]

theorem Link.replay_nudge (l : Link cap) :
    replay cap l.waiting l.nudge.2.2 = some l.nudge.1.waiting := by
  have kept : l.nudge.1.waiting = l.waiting := l.waiting_post .external
  rw [kept]
  show replay cap l.waiting (.nudged _ :: (l.post .external).2.2) = _
  rw [replay_cons]
  exact l.replay_post .external l.waiting

/-- What a link is fed with is replayed. -/
theorem Link.Fed.replay {l l' : Link cap} {es : List Event} (fed : l.Fed es l') :
    replay cap l.waiting es = some l'.waiting := by
  induction fed with
  | done => rfl
  | offer b _ ih => rw [replay_append, replay_offer, Option.bind_some, ih]
  | nudge _ ih => rw [replay_append, replay_nudge, Option.bind_some, ih]

/-- A request is replayed: a publish takes the oldest batch, and no other
request takes any. -/
theorem Calling.replay {l l₁ : Link cap} {w w₁ : Worker} {p : Point} {job : Job}
    {es : List Event} (calling : Calling l w p job es l₁ w₁) :
    replay cap l.waiting (es ++ [.called job.request]) = some l₁.waiting := by
  cases calling with
  | publish taken =>
      have items : l.waiting = _ := (Outbox.items_take? taken).1
      simp [stock, items, Job.request]
      rfl
  | _ => rfl

theorem Closing.replay {l l₁ : Link cap} {w w₁ : Worker} {source : Phase} {p : Point}
    {es : List Event} (closing : Closing l w source p es l₁ w₁) :
    replay cap l.waiting es = some l₁.waiting := by
  cases closing with
  | skipped _ _ => simp [stock]; rfl
  | woken _ => simp [stock]; rfl
  | succeeded job plain =>
      rw [replay_cons]
      exact replay_remarks cap l.waiting (remarks_success plain)
  | failed job error =>
      unfold Status.blame
      split <;> rfl
  | _ => rfl

/-- Every turn is replayed, from the outbox before it to the one after it. -/
theorem replay_turn {l l' : Link cap} {w w' : Worker} {p q : Point} {es : List Event}
    (turn : Turn l w p es l' w' q) : replay cap l.waiting es = some l'.waiting := by
  cases turn with
  | @call _ job es offers l₁ _ _ _ calling fed _ =>
      rw [show es ++ .called job.request :: offers = (es ++ [.called job.request]) ++ offers by
        simp]
      rw [replay_append, calling.replay, Option.bind_some, fed.replay]
  | leave closing =>
      rw [replay_append, closing.replay, Option.bind_some, replay_arrival]
      rfl
  | park _ _ => simp [stock]; rfl
  | _ => rfl

/-! ## Histories are replayed -/

/-- The journal so far is replayed to the outbox. -/
def Replayed (m : Moment cap) : Prop := replay cap [] (events m.journal) = some m.link.waiting

theorem Replayed.next {may : List (Option Post) → Prop} {m n : Moment cap}
    (replayed : Replayed m) (next : m.Next may n) : Replayed n := by
  unfold Replayed at replayed ⊢
  cases next with
  | feed fed => simp [replayed, fed.replay]
  | boot settings _ => simp [replayed, stock]; rfl
  | turn _ turn => simp [replayed, replay_turn turn]
  | announce _ => simp [replayed, stock]
  | cancel _ => exact replayed
  | drop _ => exact replayed

variable [Crew ε]

/-- Every history is replayed, from nothing to the outbox at its end. -/
theorem replay_journal (ops : List (Op ε)) :
    replay cap [] (events (World.journal cap ops)) =
      some (World.after cap ops).link.waiting :=
  World.invariant (I := Replayed) rfl (fun _ _ => Replayed.next) (World.boots_any ops _)

/-- **Delivery in order.** Whatever the producer, the platform, the crews and
any number of workers do on a link, the batches accepted so far are those
handed over for publishing so far, by whichever worker, followed by those in
the outbox. This holds before every single event of the history, where a
batch is accepted exactly if there is room, and handed over only as the
oldest of those waiting; so no batch is handed over more often than it was
accepted. -/
theorem delivery_in_order (ops : List (Op ε)) :
    let journal := events (World.journal cap ops)
    let world := World.after cap ops
    accepted journal = handed journal ++ world.link.waiting ∧
      Lawful (InOrder cap) journal ∧
      (∀ b, (handed journal).count b ≤ (accepted journal).count b) ∧
      ∀ b, (world.apply (.offer b)).reply = .accepted (decide (world.link.queued < cap)) := by
  intro journal world
  have replayed : replay cap [] journal = some world.link.waiting := replay_journal ops
  have balance : accepted journal = handed journal ++ world.link.waiting :=
    balance_of_replay replayed
  refine ⟨balance, inOrder_of_replay replayed, ?_, ?_⟩
  · intro b
    rw [balance, List.count_append]
    exact Nat.le_add_right _ _
  · intro b
    exact congrArg Reply.accepted (world.link.accepts_iff b)

end StoreForward
