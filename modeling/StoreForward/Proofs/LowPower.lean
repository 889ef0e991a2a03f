import StoreForward.Proofs.Refusal

/-!
# Who has allowed low power

Whoever looks after power reads from the link whether the core may sleep, without
asking any worker. What the link shows is the hint that was given last, and a worker
takes its hint back before it leaves `idle`; so one might expect that the link never
shows low power allowed and another phase than `idle`.

A worker that has been dropped takes nothing back. The hint that it gave last stays on
the link when its successor is booted, which begins with the belief that low power is
not allowed, hints nothing as long as that seems to be so, and brings up the network
meanwhile.

That is the only way in which what is shown gets out of date. Low power that is shown
has been allowed by some worker after which no other has given a hint (`Vouches`), and
either this worker was booted last, and the link shows its phase, or it was dropped in
`idle` and others have been booted since. Every turn keeps it so, because on a link
whose workers are used one after another only the one booted last has anything to do.

## Main definitions

* `Vouches` — the worker has allowed low power, and no later one has given a hint.
* `Vouched` — low power that is shown has a worker that vouches for it.

## Main results

* `Turn.shows` — a turn shows the phase that it leads to.
* `Vouched.next` — every next moment leaves somebody to vouch for low power.
* `low_power_is_vouched_for` — low power is shown in `idle`, unless it was left behind.
* `low_power_left_behind` — a successor works under the hint of a worker that is gone.
-/

namespace StoreForward

variable {cap : Nat} {ε : Type}

/-! ## Hints, worker by worker -/

/-- What hints nothing leaves the hints of every worker as they were. -/
theorem hints_own_unhinted {es : List Event} (none : hints es = []) (journal : List Entry)
    (cause : Cause) (id : Nat) :
    hints (own id (journal ++ entries cause es)) = hints (own id journal) := by
  rw [own_append, hints_append]
  by_cases mine : cause = .worker id
  · rw [mine, own_entries_self, none, List.append_nil]
  · rw [own_entries_of_ne mine, hints_nil, List.append_nil]

theorem inForce_congr {es fs : List Event} (same : hints es = hints fs) :
    inForce es = inForce fs :=
  congrArg (fun hs => hs.getLastD .disallowLowPower) same

/-- A turn shows the phase that it leads to. -/
theorem Turn.shows {l l' : Link cap} {w w' : Worker} {p q : Point} {es : List Event}
    (turn : Turn l w p es l' w' q) (shown : l.status.phase = w.phase) :
    l'.status.phase = w'.phase := by
  rcases turn.unended_or_leaves with
    ⟨_, phase, picture⟩ | ⟨source, _, l₁, w₁, _, _, rfl, rfl, _⟩
  · exact (congrArg Picture.phase picture).trans (shown.trans phase.symm)
  · show (l₁.status.enter source (source.next (l₁.guards w₁))).phase = _
    unfold Status.enter
    split <;> rfl

/-- A turn after which low power is shown has found it shown and hints nothing, or it
has just allowed it. -/
theorem Turn.allows {l l' : Link cap} {w w' : Worker} {p q : Point} {es : List Event}
    (turn : Turn l w p es l' w' q) (stands : w.At p) (shown : l'.status.lowPower = true) :
    (hints es = [] ∧ l.status.lowPower = true) ∨ (hints es ≠ [] ∧ w'.lowPower = true) := by
  obtain ⟨given, link⟩ := turn.hints_eq stands
  rw [shown] at link
  rw [hints_hinting] at given
  split at given
  · rw [given] at link ⊢
    exact .inl ⟨rfl, (Hint.of_eq_allow_iff _).mp link.symm⟩
  · rw [given] at link ⊢
    exact .inr ⟨List.cons_ne_nil _ _, (Hint.of_eq_allow_iff _).mp link.symm⟩

/-! ## Workers that are gone -/

/-- A worker that is gone stays so, whatever becomes of one that is there. -/
theorem gone_set {posts : List (Option Post)} {id other : Nat} {post : Post}
    (here : posts[id]? = some (some post)) (place : Option Post)
    (gone : posts[other]? = some none) : (posts.set id place)[other]? = some none := by
  have differ : id ≠ other := fun same => by
    rw [← same, here] at gone
    cases gone
  exact (List.getElem?_set_ne differ).trans gone

theorem World.stations_of_gone {w : World cap ε} {id : Nat} (gone : w.posts[id]? = some none) :
    w.stations[id]? = some none := by
  rw [posts, List.getElem?_map] at gone
  obtain ⟨place, there, nobody⟩ := Option.map_eq_some_iff.mp gone
  rw [there, Option.map_eq_none_iff.mp nobody]

/-! ## Who vouches for low power -/

/-- A worker has allowed low power, and none booted after it has given a hint. It was
booted last, or it has been dropped. -/
structure Vouches (m : Moment cap) (id : Nat) : Prop where
  allows : inForce (own id m.journal) = .allowLowPower
  latest : ∀ later, id < later → hints (own later m.journal) = []
  place : id + 1 = m.posts.length ∨ (id + 1 < m.posts.length ∧ m.posts[id]? = some none)

namespace Vouches

variable {m n : Moment cap} {id : Nat}

/-- A worker goes on vouching while nobody hints and nobody is booted. -/
theorem of_unhinted (vouches : Vouches m id) (length : n.posts.length = m.posts.length)
    (gone : m.posts[id]? = some none → n.posts[id]? = some none)
    (same : ∀ id, hints (own id n.journal) = hints (own id m.journal)) : Vouches n id where
  allows := (inForce_congr (same id)).trans vouches.allows
  latest later after := (same later).trans (vouches.latest later after)
  place := by
    rw [length]
    exact vouches.place.imp_right fun dropped => ⟨dropped.1, gone dropped.2⟩

theorem inside (vouches : Vouches m id) : id < m.posts.length := by
  have place := vouches.place
  omega

/-- Whoever vouches for low power has entered `idle` last. -/
theorem phase (vouches : Vouches m id) (poised : AllPoised m) :
    (ledger (own id m.journal)).phase = .idle := by
  rcases poised id with ⟨outside, _⟩ | ⟨w, p, ⟨_, agrees, poised⟩, _⟩
  · exact absurd vouches.inside (Nat.not_lt.mpr outside)
  · have allowed : Hint.of w.lowPower = .allowLowPower := poised.told.symm.trans vouches.allows
    rw [← agrees.keeps.phase]
    exact poised.place ((Hint.of_eq_allow_iff _).mp allowed)

/-- Where another worker may be booted, whoever vouches for low power has been dropped, for
it was in `idle` and cannot have halted. -/
theorem gone (vouches : Vouches m id) (poised : AllPoised m) (retired : Retired m.posts) :
    m.posts[id]? = some none := by
  match there : m.posts[id]? with
  | none => exact absurd vouches.inside (Nat.not_lt.mpr (List.getElem?_eq_none_iff.mp there))
  | some none => rfl
  | some (some post) =>
      obtain ⟨_, agrees, _⟩ := poised.here there
      have halted : post.worker.phase = .fatal := retired _ (List.mem_of_getElem? there) post rfl
      rw [agrees.keeps.phase, vouches.phase poised] at halted
      cases halted

end Vouches

/-- Workers take turns, the link shows the phase of the one booted last, and low power that
is shown has a worker that vouches for it. -/
structure Vouched (m : Moment cap) : Prop where
  accounted : Accounted m
  poised : AllPoised m
  shown : ∀ last, m.posts.length = last + 1 →
    m.link.status.phase = (ledger (own last m.journal)).phase
  vouched : m.link.status.lowPower = true → ∃ id, Vouches m id

namespace Vouched

variable {m n : Moment cap}

/-- Whoever has anything to do was booted last. -/
theorem last_of_live (vouched : Vouched m) {id : Nat} {w : Worker} {p : Point}
    (here : m.posts[id]? = some (some ⟨w, p⟩)) (live : w.phase ≠ .fatal) :
    id + 1 = m.posts.length := by
  have inside : id < m.posts.length := (List.getElem?_eq_some_iff.mp here).1
  have last : ¬ id + 1 < m.posts.length := fun more =>
    live ((vouched.accounted.orderly id w p here).1 more)
  omega

theorem shown_next (vouched : Vouched m) (next : m.Next Retired n) {last : Nat}
    (length : n.posts.length = last + 1) :
    n.link.status.phase = (ledger (own last n.journal)).phase := by
  have agree := vouched.accounted.agree
  have agree' := agree.next next
  cases next with
  | feed fed =>
      rw [own_append, own_entries_producer, List.append_nil, ← vouched.shown last length]
      exact congrArg Picture.phase fed.picture
  | boot settings _ =>
      have new : m.posts.length = last := by
        rw [List.length_append] at length
        exact Nat.succ.inj length
      rw [new, own_append, own_entries_self, agree.own_eq_nil (Nat.le_of_eq new)]
      rfl
  | @turn id w w' p q es l here turn =>
      rw [List.length_set] at length
      obtain ⟨stands, agrees⟩ := agree.here here
      by_cases halted : w.phase = .fatal
      · obtain ⟨rfl, _, rfl⟩ := turn.eq_of_fatal stands halted
        rw [entries_nil, List.append_nil]
        exact vouched.shown last length
      · have same : id = last := Nat.succ.inj ((vouched.last_of_live here halted).trans length)
        subst same
        have inside := (List.getElem?_eq_some_iff.mp here).1
        obtain ⟨_, agrees'⟩ := agree'.here (List.getElem?_set_self inside)
        rw [← agrees'.keeps.phase]
        exact turn.shows ((vouched.shown id length).trans agrees.keeps.phase.symm)
  | @announce id w here =>
      rw [vouched.shown last length, own_append, ledger_append]
      by_cases same : last = id
      · rw [same, own_entries_self]
        rfl
      · rw [own_entries_worker_of_ne same]
        rfl
  | cancel _ | drop _ =>
      rw [List.length_set] at length
      exact vouched.shown last length

theorem vouched_next (vouched : Vouched m) (next : m.Next Retired n)
    (shown : n.link.status.lowPower = true) : ∃ id, Vouches n id := by
  have poised' := vouched.poised.next next
  cases next with
  | feed fed =>
      obtain ⟨_, status⟩ := fed.status_eq
      rw [status] at shown
      obtain ⟨id, vouches⟩ := vouched.vouched shown
      exact ⟨id, vouches.of_unhinted rfl (fun gone => gone)
        (hints_own_unhinted (hints_of_undisturbed fed.undisturbed) _ _)⟩
  | boot settings retired =>
      obtain ⟨id, vouches⟩ := vouched.vouched shown
      have unhinted : hints [.booted settings] = [] := rfl
      have same := hints_own_unhinted unhinted m.journal (.worker m.posts.length)
      refine ⟨id, (inForce_congr (same id)).trans vouches.allows,
        fun later after => (same later).trans (vouches.latest later after), .inr ?_⟩
      have inside := vouches.inside
      rw [List.length_append, List.getElem?_append_left inside]
      exact ⟨Nat.succ_lt_succ inside, vouches.gone vouched.poised retired⟩
  | @turn id w w' p q es l here turn =>
      obtain ⟨stands, _⟩ := vouched.accounted.agree.here here
      have inside := (List.getElem?_eq_some_iff.mp here).1
      rcases turn.allows stands shown with ⟨none, before⟩ | ⟨hinted, allowed⟩
      · obtain ⟨other, vouches⟩ := vouched.vouched before
        exact ⟨other, vouches.of_unhinted List.length_set (gone_set here _)
          (hints_own_unhinted none _ _)⟩
      · have live : w.phase ≠ .fatal := fun halted => by
          obtain ⟨_, _, rfl⟩ := turn.eq_of_fatal stands halted
          exact hinted rfl
        have last := vouched.last_of_live here live
        obtain ⟨_, _, poised⟩ := poised'.here (List.getElem?_set_self inside)
        refine ⟨id, ?_, fun later after => ?_, .inl ?_⟩
        · rw [poised.told, allowed]
          rfl
        · rw [own_append, own_entries_worker_of_ne (Nat.ne_of_gt after),
            vouched.accounted.agree.own_eq_nil (by omega)]
          rfl
        · rw [List.length_set]
          exact last
  | @announce id w here =>
      obtain ⟨other, vouches⟩ := vouched.vouched shown
      exact ⟨other, vouches.of_unhinted rfl (fun gone => gone) (hints_own_unhinted rfl _ _)⟩
  | @cancel id w suspension here =>
      obtain ⟨other, vouches⟩ := vouched.vouched shown
      exact ⟨other, vouches.of_unhinted List.length_set (gone_set here _) fun _ => rfl⟩
  | drop id =>
      obtain ⟨other, vouches⟩ := vouched.vouched shown
      refine ⟨other, vouches.of_unhinted List.length_set (fun gone => ?_) fun _ => rfl⟩
      by_cases same : id = other
      · rw [same]
        exact List.getElem?_set_self vouches.inside
      · exact (List.getElem?_set_ne same).trans gone

/-- Every next moment leaves somebody to vouch for low power. -/
theorem next (vouched : Vouched m) (next : m.Next Retired n) : Vouched n where
  accounted := vouched.accounted.next next
  poised := vouched.poised.next next
  shown _ length := vouched.shown_next next length
  vouched shown := vouched.vouched_next next shown

theorem start : Vouched ({} : Moment cap) where
  accounted := .start
  poised id := .inl ⟨Nat.zero_le id, rfl⟩
  shown _ length := by cases length
  vouched shown := by cases shown

end Vouched

/-! ## Histories -/

section Histories

variable [Crew ε]

theorem vouched_after {ops : List (Op ε)}
    (successive : (World.empty : World cap ε).Boots Retired ops) :
    Vouched ((World.after cap ops).moment (World.journal cap ops)) :=
  World.invariant .start (fun _ _ vouched next => vouched.next next) successive

/-- **Low power is vouched for.** On a link whose workers are used one after another, let
low power be shown after any history. Then some worker has allowed it and not taken it
back, and none booted after it has given a hint. If it was booted last, the link shows
`idle`. If not, it has been dropped, and what is shown was left behind by it. So unless a
worker was dropped that had allowed low power, and another one booted after it, low power
is shown in `idle` only. -/
theorem low_power_is_vouched_for {ops : List (Op ε)}
    (successive : (World.empty : World cap ε).Boots Retired ops)
    (shown : (World.after cap ops).link.status.lowPower = true) :
    let journal := World.journal cap ops
    let world := World.after cap ops
    (∃ id, inForce (own id journal) = .allowLowPower ∧
      (∀ later, id < later → hints (own later journal) = []) ∧
      ((id + 1 = world.stations.length ∧ world.link.status.phase = .idle) ∨
        (id + 1 < world.stations.length ∧ world.stations[id]? = some none))) ∧
    ((∀ id, id + 1 < world.stations.length → world.stations[id]? = some none →
        inForce (own id journal) = .disallowLowPower) →
      world.link.status.phase = .idle) := by
  intro journal world
  have vouched : Vouched (world.moment journal) := vouched_after successive
  obtain ⟨id, vouches⟩ := vouched.vouched shown
  have length : world.posts.length = world.stations.length := List.length_map _
  have place : (id + 1 = world.stations.length ∧ world.link.status.phase = .idle) ∨
      (id + 1 < world.stations.length ∧ world.stations[id]? = some none) := by
    rw [← length]
    refine vouches.place.imp (fun last => ⟨last, ?_⟩) fun ⟨more, gone⟩ => ⟨more, ?_⟩
    · exact (vouched.shown id last.symm).trans (vouches.phase vouched.poised)
    · exact World.stations_of_gone gone
  refine ⟨⟨id, vouches.allows, vouches.latest, place⟩, fun none => ?_⟩
  rcases place with ⟨_, idle⟩ | ⟨more, gone⟩
  · exact idle
  · cases (none id more gone).symm.trans vouches.allows

/-- A worker is dropped while it rests. Its successor finds a batch waiting when it comes to
rest, so that it has been through all its phases without a hint, and is about to do so
again. -/
theorem low_power_is_vouched_for_left :
    let ops : List (Op Script) :=
      [.boot {} .empty, .launch 0 .run, .drop 0,
        .boot {} { stop := [{ enqueues := [.tagged 7] }], publish := [{ polls := 1 }] },
        .launch 1 .run]
    let world := World.after 2 ops
    (World.empty : World 2 Script).Boots Retired ops ∧ world.link.status.lowPower = true ∧
      world.link.status.phase = .publish ∧ world.stations[0]? = some none ∧
      inForce (own 0 (World.journal 2 ops)) = .allowLowPower := by
  intro ops world
  have successive : (World.empty : World 2 Script).Boots Retired ops := by
    decide +kernel
  have shown : world.link.status.lowPower = true ∧ world.link.status.phase = .publish ∧
      world.stations.length = 2 := by
    decide +kernel
  obtain ⟨on, publishing, two⟩ := shown
  obtain ⟨⟨id, allows, _, place⟩, _⟩ := low_power_is_vouched_for successive on
  rcases place with ⟨_, idle⟩ | ⟨more, gone⟩
  · cases publishing.symm.trans idle
  · have first : id = 0 := by
      have two : (World.after 2 ops).stations.length = 2 := two
      omega
    subst first
    exact ⟨successive, on, publishing, gone, allows⟩

/-- A worker comes to rest and is dropped. Its successor is booted, brings up the network and
opens a session, and the link still shows low power allowed. -/
theorem low_power_left_behind :
    let settings : Settings := { syncOnBoot := false }
    let ops : List (Op Script) :=
      [.boot settings .empty, .launch 0 .run, .drop 0, .boot settings .empty,
        .launch 1 .step, .launch 1 .step, .launch 1 .step]
    let shown := (World.after 10 ops).link.status
    (World.empty : World 10 Script).Boots Retired ops ∧
      ¬ (shown.lowPower = true → shown.phase = .idle) ∧ shown.phase = .ready := by
  decide +kernel

end Histories

end StoreForward
