import StoreForward.Crew.Script
import StoreForward.Proofs.Stepwise

/-!
# Replies

Whoever offers a batch or posts a wake is told at once whether there was room. Statements
about histories do not look at these replies. They look at the journal, where every offer
and every wake is noted with a flag, among them those that crews make in the middle of a
request and that have no reply in a world at all.

So the two have to be tied together. An operation of the producer or the platform is noted
by one receipt, and the flag of the receipt is the reply (`World.apply_offer`,
`World.apply_nudge`); no other operation notes any in the producer's name. From this follows
for any number of operations that the receipts in a journal are the replies, one for one and
in the same order (`World.receipts_applyAll`), so that what the journal says about the
producer can be said about the replies as well.

Neither flag is a mere promise. A batch that is accepted is the last one in the outbox and
leaves a wake waiting, and one that is refused leaves the outbox as it was. A wake for which
there is no room leaves another one waiting, so that its flag says that it has been merged
and not that it has been lost.

## Main definitions

* `receipts` — the offers and wakes that a journal notes in the producer's name.
* `World.replied` — what is replied to offers and wakes, operation by operation.

## Main results

* `World.apply_offer`, `World.apply_nudge` — reply, receipt, and what becomes of the link.
* `World.receipts_applyAll` — the receipts of a history are its replies.
-/

namespace StoreForward

variable {cap : Nat} {ε : Type}

/-! ## Receipts -/

/-- The event is that a batch was offered or an external wake posted. -/
def Event.isReceipt : Event → Bool
  | offered _ _ | nudged _ => true
  | _ => false

/-- The event, if it notes an offer or a wake of the producer or the platform. -/
def Entry.receipt? (e : Entry) : Option Event :=
  if e.cause = .producer ∧ e.event.isReceipt = true then some e.event else none

/-- The offers and wakes that a journal notes in the producer's name. -/
def receipts (journal : List Entry) : List Event := journal.filterMap Entry.receipt?

@[simp] theorem receipts_append (j k : List Entry) :
    receipts (j ++ k) = receipts j ++ receipts k :=
  List.filterMap_append

/-- What a worker causes is noted in its own name. -/
@[simp] theorem receipts_worker (id : Nat) (es : List Event) :
    receipts (entries (.worker id) es) = [] := by
  refine List.filterMap_eq_nil_iff.mpr fun e there => ?_
  obtain ⟨_, _, rfl⟩ := List.mem_map.mp there
  exact if_neg fun both => Cause.noConfusion both.1

theorem receipts_cons {e : Event} (receipt : e.isReceipt = true) (es : List Event) :
    receipts (entries .producer (e :: es)) = e :: receipts (entries .producer es) :=
  List.filterMap_cons_some (if_pos ⟨rfl, receipt⟩)

theorem receipts_without {es : List Event} (without : Without Event.isReceipt es) :
    receipts (entries .producer es) = [] := by
  refine List.filterMap_eq_nil_iff.mpr fun e there => ?_
  obtain ⟨event, among, rfl⟩ := List.mem_map.mp there
  exact if_neg fun both => Bool.eq_false_iff.mp (without event among) both.2

/-! ## One operation -/

namespace World

variable [Crew ε] (w : World cap ε)

/-- The reply to an offer is the flag of its only receipt. A batch that is accepted is put
last in the outbox and leaves a wake waiting. -/
theorem apply_offer (b : Batch) :
    let o := w.apply (.offer b)
    let room := decide (w.link.queued < cap)
    o.reply = .accepted room ∧ receipts o.entries = [.offered b room] ∧
      o.world.link.waiting = w.link.waiting ++ (if room then [b] else []) ∧
      (room = true → o.world.link.wakes.items ≠ []) := by
  intro o room
  have applied : o = ⟨{ w with link := (w.link.offer b).1 }, .accepted (w.link.offer b).2.1,
      entries .producer (w.link.offer b).2.2⟩ := rfl
  rcases w.link.offer_cases b with ⟨free, m, items, _, _, _, offer⟩ | ⟨full, offer⟩
  · have accepted : room = true := decide_eq_true free
    rw [applied, offer, accepted]
    refine ⟨rfl, ?_, (m.waiting_post _).trans items, fun _ => m.wakes_post _ (by omega)⟩
    rw [receipts_cons rfl, receipts_without (m.without_post rfl)]
  · have refused : room = false := decide_eq_false (Nat.not_lt.mpr full)
    rw [applied, offer, refused]
    exact ⟨rfl, rfl, (List.append_nil _).symm, Bool.noConfusion⟩

/-- The reply to a wake is the flag of its only receipt. A wake is posted last, or it is
merged into others; where there is any room at all one is left waiting. -/
theorem apply_nudge :
    let o := w.apply .nudge
    let room := decide (w.link.wakes.length < cap)
    o.reply = .accepted room ∧ receipts o.entries = [.nudged room] ∧
      o.world.link.wakes.items = w.link.wakes.items ++ (if room then [.external] else []) ∧
      (1 ≤ cap → o.world.link.wakes.items ≠ []) := by
  intro o room
  have applied : o = ⟨{ w with link := w.link.nudge.1 }, .accepted w.link.nudge.2.1,
      entries .producer w.link.nudge.2.2⟩ := rfl
  have left (some : 1 ≤ cap) : o.world.link.wakes.items ≠ [] :=
    w.link.wakes_post .external some
  rcases w.link.nudge_cases with ⟨free, wakes, items, nudge⟩ | ⟨full, nudge⟩
  · have posted : room = true := decide_eq_true free
    rw [applied, nudge] at left ⊢
    rw [posted]
    exact ⟨rfl, rfl, items, left⟩
  · have merged : room = false := decide_eq_false (Nat.not_lt.mpr full)
    rw [applied, nudge] at left ⊢
    rw [merged]
    exact ⟨rfl, rfl, (List.append_nil _).symm, left⟩

end World

/-- The reply to an operation of the producer or the platform, as a receipt. -/
def Op.receipt? : Op ε → Reply → Option Event
  | .offer b, .accepted room => some (.offered b room)
  | .nudge, .accepted room => some (.nudged room)
  | _, _ => none

namespace World

variable [Crew ε]

/-- What others do is noted in the name of a worker, if it is noted at all. -/
theorem receipts_of_other (w : World cap ε) {op : Op ε} (other : op.feeds = false) :
    receipts (w.apply op).entries = [] := by
  have effect := w.effect op
  generalize applied : w.apply op = o at effect ⊢
  cases effect with
  | offer _ | nudge => cases other
  | boot _ _ => exact receipts_worker _ _
  | @polls _ id _ _ here polls =>
      rw [← applied, apply_polls here polls]
      exact receipts_worker id _
  | cancel _ _ | amend _ _ | drop _ | refused _ _ _ => rfl

/-- An operation notes a receipt for what it replies, and no other. -/
theorem receipts_apply (w : World cap ε) (op : Op ε) :
    receipts (w.apply op).entries = (op.receipt? (w.apply op).reply).toList := by
  cases op with
  | offer b =>
      obtain ⟨reply, noted, _⟩ := w.apply_offer b
      rw [reply, noted]
      rfl
  | nudge =>
      obtain ⟨reply, noted, _⟩ := w.apply_nudge
      rw [reply, noted]
      rfl
  | _ => exact w.receipts_of_other rfl

/-! ## Histories -/

/-- What is replied to offers and wakes, operation by operation. -/
def replied : World cap ε → List (Op ε) → List Event
  | _, [] => []
  | w, op :: rest => (op.receipt? (w.apply op).reply).toList ++ replied (w.apply op).world rest

/-- **Replies are receipts.** Whatever is done with a world, the offers and wakes that the
journal notes in the producer's name are those that were made, in order, each with the flag
that was replied. -/
theorem receipts_applyAll (ops : List (Op ε)) :
    ∀ w : World cap ε, receipts (w.applyAll ops).2 = w.replied ops := by
  induction ops with
  | nil => exact fun _ => rfl
  | cons op rest ih =>
      intro w
      show receipts ((w.apply op).entries ++ ((w.apply op).world.applyAll rest).2) = _
      rw [receipts_append, receipts_apply, ih]
      rfl

/-- The wake of the first batch takes up the only place, so that the external one is merged. -/
example : (empty : World 1 Script).replied [.offer (.tagged 7), .offer (.tagged 8), .nudge] =
    [.offered (.tagged 7) true, .offered (.tagged 8) false, .nudged false] := by
  decide +kernel

end World

end StoreForward
