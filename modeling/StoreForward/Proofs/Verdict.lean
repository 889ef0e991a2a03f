import StoreForward.Proofs.Chronicle

/-!
# Verdicts

A turn says what a move does to link and worker. How a poll ends depends on
two more things, the verdict of the move and what became of the crew, and
`Site.Moved` adds them: which verdicts there are, what each says about the
point and the site, and that the crew is changed only by a hint or by the
request that the verdict speaks of. A move that completes a step makes no
request.

A statement about one kind of crew needs to know which request that is, and
what the worker remembers when it makes it. `Site.Consults` has it the other way
round: a move is a request with all that comes before it, or it spares the crew.

## Main definitions

* `Site.Moved` — the verdict of a move, and what became of the crew.
* `Site.Consults` — what a move has to do with the crew.

## Main results

* `Site.moved` — every move is one of these.
* `Site.consults` — every move makes one request, or none.
-/

namespace StoreForward

variable {cap : Nat} {ε : Type} [Crew ε]

/-- The event is a request to a crew. -/
def Event.isCall : Event → Bool
  | called _ => true
  | _ => false

/-- Nothing is asked of a crew. -/
abbrev Uncalled (es : List Event) : Prop := Without Event.isCall es

theorem uncalled_of_quiet {es : List Event} (quiet : Quiet es) : Uncalled es := by
  refine quiet.weaken fun e silent => ?_
  cases e <;> first | rfl | cases silent

/-- A crew that was asked for nothing has got a hint at most. -/
def Spared (before after : ε) : Prop := after = before ∨ ∃ hint, after = Crew.hint before hint

/-- What a move from a point of a site can be, by its verdict. -/
inductive Site.Moved (s : Site cap ε) (p : Point) : Move cap ε → Prop where
  /-- A request has been put to the crew, and the answer is waited for. -/
  | asked {t : Site cap ε} {es : List Event} {job : Job} {r : Response}
      (reaction : Crew.react s.crew job.request = (t.crew, .ok r)) :
      Moved s p ⟨t, es, .goOn (.waiting (.call job r.polls r.answer))⟩
  /-- The crew has found that it is being misused. -/
  | misused {t : Site cap ε} {es : List Event} {job : Job} {text : String}
      (reaction : Crew.react s.crew job.request = (t.crew, .error text)) :
      Moved s p ⟨t, es, .violated (.crew text)⟩
  | drains {t : Site cap ε} {es : List Event} {session : Nat} {sent : UInt32}
      (spared : Spared s.crew t.crew) : Moved s p ⟨t, es, .goOn (.draining session sent)⟩
  | parks {t : Site cap ε} {es : List Event} (spared : Spared s.crew t.crew) :
      Moved s p ⟨t, es, .goOn (.waiting .parked)⟩
  | finishes {t : Site cap ε} {es : List Event} {phase : Phase} (spared : Spared s.crew t.crew)
      (entered : t.worker.phase = phase) (uncalled : Uncalled es) :
      Moved s p ⟨t, es, .finished phase⟩
  /-- An answer is not due yet. -/
  | waits {job : Job} {polls : Nat} {answer : Answer}
      (here : p = .waiting (.call job (polls + 1) answer)) :
      Moved s p ⟨s, [], .suspended (.call job polls answer)⟩
  /-- There is no wake to end a rest. -/
  | rests (here : p = .waiting .parked) (quiet : s.link.wakes.items = []) :
      Moved s p ⟨s, [], .suspended .parked⟩
  /-- A session is held that must not be. -/
  | refused {t : Site cap ε} {es : List Event} (phase : s.worker.phase = .connectSession)
      (held : s.worker.session.isSome = true) : Moved s p ⟨t, es, .violated .sessionHeld⟩
  /-- A drain has lost count. -/
  | overflown {t : Site cap ε} {es : List Event} {session : Nat} {batch : Batch}
      (here : p = .waiting (.call (.publish session batch 0xffffffff) 0 .ok)) :
      Moved s p ⟨t, es, .violated .countOverflow⟩

namespace Site

variable {s : Site cap ε} {p : Point}

/-- What is recorded before a move. -/
theorem Moved.after {t : Site cap ε} {es : List Event} {verdict : Verdict}
    (moved : s.Moved p ⟨t, es, verdict⟩) (before : List Event) (uncalled : Uncalled before)
    (due : ∀ suspension, verdict ≠ .suspended suspension) :
    s.Moved p ⟨t, before ++ es, verdict⟩ := by
  cases moved with
  | asked reaction => exact .asked reaction
  | misused reaction => exact .misused reaction
  | drains spared => exact .drains spared
  | parks spared => exact .parks spared
  | finishes spared entered more =>
      exact .finishes spared entered (without_append.mpr ⟨uncalled, more⟩)
  | refused phase held => exact .refused phase held
  | overflown here => exact .overflown here
  | waits _ | rests _ _ => exact absurd rfl (due _)

theorem moved_finish (t : Site cap ε) (source : Phase) {notes : List Event}
    (spared : Spared s.crew t.crew) (uncalled : Uncalled notes) :
    s.Moved p (t.finish source notes) := by
  obtain ⟨crew, _, _, phase⟩ := t.enter_fst source (source.next t.guards)
  obtain ⟨_, _, events⟩ := t.enter_eq source (source.next t.guards)
  have same : Spared s.crew (t.enter source (source.next t.guards)).1.crew := by
    rw [crew]
    exact spared
  have silent : Uncalled (notes ++ (t.enter source (source.next t.guards)).2) := by
    rw [events]
    exact without_append.mpr ⟨uncalled, uncalled_of_quiet (quiet_arrival _ _ _)⟩
  exact .finishes same phase silent

theorem moved_begin (t : Site cap ε) (job : Job) (notes : List Event) (crew : t.crew = s.crew) :
    s.Moved p (t.begin job notes) := by
  unfold begin
  rw [crew]
  cases reaction : Crew.react s.crew job.request with
  | mk after result =>
      cases result with
      | error text => exact .misused reaction
      | ok r => exact .asked reaction

theorem spared_setLowPower (t : Site cap ε) (allowed : Bool) (crew : t.crew = s.crew) :
    Spared s.crew (t.setLowPower allowed).1.crew := by
  unfold setLowPower
  split
  · exact .inl crew
  · rw [crew]
    exact .inr ⟨_, rfl⟩

theorem uncalled_setLowPower (t : Site cap ε) (allowed : Bool) :
    Uncalled (t.setLowPower allowed).2 := by
  obtain ⟨_, _, events⟩ := t.setLowPower_eq allowed
  rw [events]
  exact uncalled_of_quiet (quiet_hinting _ _)

theorem moved_settle (s : Site cap ε) : s.Moved .outset s.settle := by
  unfold settle
  dsimp only
  split
  · exact .parks (spared_setLowPower _ _ rfl)
  · refine moved_finish _ _ (spared_setLowPower _ _ rfl) ?_
    exact without_append.mpr ⟨uncalled_setLowPower _ _, by simp [Event.isCall]⟩

theorem moved_listen (s : Site cap ε) : s.Moved (.waiting .parked) s.listen := by
  unfold listen
  cases taken : s.link.wakes.take? with
  | none => exact .rests rfl ((Fifo.take?_eq_none_iff _).mp taken)
  | some pair =>
      refine moved_finish _ _ (spared_setLowPower _ _ rfl) ?_
      exact without_append.mpr ⟨uncalled_setLowPower _ _, by simp [Event.isCall]⟩

theorem moved_drain (s : Site cap ε) (session : Nat) (sent : UInt32) :
    s.Moved (.draining session sent) (s.drain session sent) := by
  unfold drain
  split
  · exact moved_finish s _ (.inl rfl) (by simp [Event.isCall])
  · exact moved_begin _ _ _ rfl

theorem moved_conclude (s : Site cap ε) (job : Job) (answer : Answer) :
    s.Moved (.waiting (.call job 0 answer)) (s.conclude job answer) ∧
      ∀ suspension, (s.conclude job answer).verdict ≠ .suspended suspension := by
  cases job with
  | publish session batch sent =>
      cases answer with
      | ok =>
          show s.Moved _ (s.countPublished session batch sent) ∧
            ∀ suspension, (s.countPublished session batch sent).verdict ≠ .suspended suspension
          unfold countPublished
          by_cases full : sent = 0xffffffff
          · rw [if_pos full, full]
            exact ⟨.overflown rfl, fun _ other => by cases other⟩
          · rw [if_neg full]
            exact ⟨.drains (.inl rfl), fun _ other => by cases other⟩
      | failed error =>
          refine ⟨?_, fun _ other => by cases other⟩
          exact moved_finish (s.signal .publish) .publish (.inl rfl) (by simp [Event.isCall])
  | _ =>
      cases answer <;> simp only [conclude] <;>
        refine ⟨moved_finish _ _ ?_ ?_, fun _ other => by cases other⟩ <;>
        first | exact .inl rfl | simp [Event.isCall]

theorem moved_act (s : Site cap ε) : s.Moved .outset s.act := by
  unfold act
  split
  · exact moved_finish s _ (.inl rfl) without_nil
  · exact moved_begin _ _ _ rfl
  · exact moved_begin _ _ _ rfl
  · rename_i phase
    split
    · exact .refused phase ‹_›
    · exact moved_begin _ _ _ rfl
  · exact moved_finish s _ (.inl rfl) without_nil
  · split
    · exact moved_finish (s.signal .publish) _ (.inl rfl) (by simp [Event.isCall])
    · exact .drains (.inl rfl)
  · split
    · exact moved_finish s _ (.inl rfl) (by simp [Event.isCall])
    · exact moved_begin _ _ _ rfl
  · exact moved_begin _ _ _ rfl
  · exact s.moved_settle
  · exact moved_finish _ _ (.inl rfl) (by simp [Event.isCall])
  · exact .finishes (.inl rfl) ‹_› without_nil

/-- The outset of an action does not wait. -/
theorem act_ne_suspended (s : Site cap ε) (suspension : Suspension) :
    s.act.verdict ≠ .suspended suspension := by
  intro waits
  have moved := s.moved_act
  generalize s.act = m at moved waits
  cases moved with
  | waits here => cases here
  | rests here _ => cases here
  | _ => cases waits

/-- Every move is one of these. -/
theorem moved (s : Site cap ε) (p : Point) : s.Moved p (s.move p) := by
  match p with
  | .outset =>
      refine s.moved_act.after s.opening ?_ s.act_ne_suspended
      unfold opening
      split
      · exact without_nil
      · simp [Event.isCall]
  | .draining session sent => exact s.moved_drain session sent
  | .waiting (.call job 0 answer) =>
      obtain ⟨moved, due⟩ := s.moved_conclude job answer
      exact moved.after [.answered job.request answer] (by simp [Event.isCall]) due
  | .waiting (.call job (polls + 1) answer) => exact .waits rfl
  | .waiting .parked => exact s.moved_listen

/-- A move that a step goes on from does not end it. -/
theorem next_ne_outset {s : Site cap ε} {p : Point}
    (onward : (s.move p).verdict.goesOn .step = true) : (s.move p).verdict.next ≠ .outset := by
  have moved := s.moved p
  generalize s.move p = m at moved onward ⊢
  cases moved with
  | asked _ | drains _ | parks _ => exact Point.noConfusion
  | _ => cases onward

end Site

/-! ## What a move asks -/

/-- What a move has to do with the crew. The worker gets ready for a request and makes it, or
the crew is spared. -/
inductive Site.Consults (s : Site cap ε) (p : Point) : Move cap ε → Prop where
  | asks {job : Job} {notes : List Event} {l : Link cap} {w : Worker}
      (calling : Calling s.link s.worker p job notes l w) :
      Consults s p ((⟨l, w, s.crew⟩ : Site cap ε).begin job notes)
  | spares {m : Move cap ε} (spared : Spared s.crew m.site.crew) (uncalled : Uncalled m.events)
      (own : ∀ text, m.verdict ≠ .violated (.crew text)) : Consults s p m

namespace Site

variable {s : Site cap ε} {p : Point}

/-- A move that completes a step spares the crew. -/
theorem Moved.consults {m : Move cap ε} (moved : s.Moved p m) {phase : Phase}
    (verdict : m.verdict = .finished phase) : s.Consults p m := by
  cases moved with
  | finishes spared _ uncalled => exact .spares spared uncalled fun _ => Verdict.noConfusion
  | _ => cases verdict

/-- The beginning of a step goes with the request that it makes. -/
theorem move_of_begin {phase : Phase} (here : s.worker.phase = phase)
    (live : phase.isTerminal = false) {t : Site cap ε} {job : Job} {notes : List Event}
    (act : s.act = t.begin job notes) : s.move .outset = t.begin job (.began phase :: notes) := by
  rw [move_of_act here live act]
  unfold begin
  cases Crew.react t.crew job.request with
  | mk crew result => cases result <;> rfl

theorem consults_settle (here : s.worker.phase = .idle) : s.Consults .outset (s.move .outset) := by
  have act : s.act = s.settle := by
    unfold act
    rw [here]
  have moved := s.moved .outset
  rw [move_of_act here rfl act] at moved ⊢
  unfold settle at moved ⊢
  dsimp only at moved ⊢
  split
  · refine .spares (spared_setLowPower _ _ rfl) ?_ fun _ => Verdict.noConfusion
    have discarded (stale : Nat) : Uncalled (discarding stale) :=
      uncalled_of_quiet (quiet_discarding stale)
    exact without_cons.mpr ⟨rfl, without_append.mpr
      ⟨without_append.mpr ⟨discarded _, uncalled_setLowPower _ _⟩, by simp [Event.isCall]⟩⟩
  · rename_i busy
    rw [if_neg busy] at moved
    exact moved.consults rfl

theorem consults_outset (s : Site cap ε) : s.Consults .outset (s.move .outset) := by
  have moved := s.moved .outset
  cases here : s.worker.phase with
  | start => exact moved.consults (show s.act.verdict = _ by unfold act; rw [here]; rfl)
  | connectNetwork =>
      rw [move_of_begin here rfl (show s.act = _ by unfold act; rw [here])]
      exact .asks (.start here)
  | syncTime =>
      have act : s.act = begin { s with worker := { s.worker with syncDue := false } } .sync
          [.noticed .syncingTime] := by
        unfold act
        rw [here]
      rw [move_of_begin here rfl act]
      exact .asks (.sync here)
  | connectSession =>
      cases held : s.worker.session with
      | none =>
          have act : s.act = s.begin .connect [] := by
            simp [act, here, held]
          rw [move_of_begin here rfl act]
          exact .asks (.connect here held)
      | some session =>
          have act : s.act = ⟨s, [], .violated .sessionHeld⟩ := by
            simp [act, here, held]
          rw [move_of_act here rfl act]
          exact .spares (.inl rfl) (by simp [Event.isCall]) fun _ other => by cases other
  | ready => exact moved.consults (show s.act.verdict = _ by unfold act; rw [here]; rfl)
  | publish =>
      cases held : s.worker.session with
      | none => exact moved.consults (show s.act.verdict = _ by simp only [act, here, held]; rfl)
      | some session =>
          have act : s.act = ⟨s, [], .goOn (.draining session 0)⟩ := by
            simp only [act, here, held]
          rw [move_of_act here rfl act]
          exact .spares (.inl rfl) (by simp [Event.isCall]) fun _ => Verdict.noConfusion
  | closeSession =>
      cases held : s.worker.session with
      | none => exact moved.consults (show s.act.verdict = _ by simp only [act, here, held]; rfl)
      | some session =>
          have act : s.act = begin { s with worker := { s.worker with session := none } }
              (.close session) [] := by
            simp only [act, here, held]
          rw [move_of_begin here rfl act]
          exact .asks (.close here held)
  | disconnectNetwork =>
      rw [move_of_begin here rfl (show s.act = _ by unfold act; rw [here])]
      exact .asks (.stop here)
  | idle => exact consults_settle here
  | retrySession => exact moved.consults (show s.act.verdict = _ by unfold act; rw [here]; rfl)
  | fatal => exact moved.consults (show s.act.verdict = _ by unfold act; rw [here])

theorem consults_drain (s : Site cap ε) (session : Nat) (sent : UInt32) :
    s.Consults (.draining session sent) (s.drain session sent) := by
  cases taken : s.link.outbox.take? with
  | none => exact (s.moved_drain session sent).consults (by unfold drain; rw [taken]; rfl)
  | some pair =>
      unfold drain
      rw [taken]
      exact .asks (.publish taken)

theorem consults_receive (s : Site cap ε) (job : Job) (answer : Answer) :
    s.Consults (.waiting (.call job 0 answer)) (s.receive job answer) := by
  have moved := s.moved (.waiting (.call job 0 answer))
  cases job with
  | publish session batch sent =>
      cases answer with
      | failed error => exact moved.consults rfl
      | ok =>
          show s.Consults _ { s.countPublished session batch sent with
            events := .answered (.publish session batch) .ok ::
              (s.countPublished session batch sent).events }
          unfold countPublished
          split <;>
            exact .spares (.inl rfl) (by simp [Event.isCall]) fun _ other => by cases other
  | _ => cases answer <;> exact moved.consults rfl

theorem consults_listen (s : Site cap ε) : s.Consults (.waiting .parked) s.listen := by
  cases taken : s.link.wakes.take? with
  | none =>
      unfold listen
      rw [taken]
      exact .spares (.inl rfl) without_nil fun _ => Verdict.noConfusion
  | some pair => exact s.moved_listen.consults (by unfold listen; rw [taken]; rfl)

/-- Every move makes one request, or none. -/
theorem consults (s : Site cap ε) (p : Point) : s.Consults p (s.move p) := by
  match p with
  | .outset => exact s.consults_outset
  | .draining session sent => exact s.consults_drain session sent
  | .waiting (.call job 0 answer) => exact s.consults_receive job answer
  | .waiting (.call job (polls + 1) answer) =>
      exact .spares (.inl rfl) without_nil fun _ => Verdict.noConfusion
  | .waiting .parked => exact s.consults_listen

end Site

end StoreForward
