import StoreForward.Proofs.Turn

/-!
# Drives

A poll is a *drive* followed by a last move. A drive is a row of moves each
of which the poll goes on from; in a run these include the moves that
complete a step without halting the worker. What a poll does is proved by
induction on its drive, and how it ends is read off its last move. Since
every move of a drive leaves less effort, the effort at the outset bounds how
often anything can happen in it.

## Main definitions

* `Site.Driven` — the moves that a poll goes on from.
* `Ends` — how the last move ends a poll.

## Main results

* `Site.poll_driven` — a poll is a drive and a last move.
* `Site.Driven.keeps` — what turns keep is kept in a drive.
* `Site.Driven.count_le` — the effort bounds what happens in a drive.
-/

namespace StoreForward

variable {cap : Nat} {ε : Type} [Crew ε]

/-- A poll goes on after a move with this verdict. -/
def Verdict.goesOn (mode : Mode) : Verdict → Bool
  | .goOn _ => true
  | .finished phase => decide (mode = .run) && !phase.isTerminal
  | _ => false

/-- The moves that a poll goes on from lead from a point at a site to
another, and what happens on the way. -/
inductive Site.Driven (mode : Mode) :
    Site cap ε → Point → List Event → Site cap ε → Point → Prop where
  | stay (s : Site cap ε) (p : Point) : Driven mode s p [] s p
  | move {s t : Site cap ε} {p q : Point} {es : List Event}
      (onward : (s.move p).verdict.goesOn mode = true)
      (rest : Driven mode (s.move p).site (s.move p).verdict.next es t q) :
      Driven mode s p ((s.move p).events ++ es) t q

/-- How a move with a verdict, which led to a site, ends a poll. -/
inductive Ends (mode : Mode) (t : Site cap ε) : Verdict → Progress → Prop where
  | suspended {suspension : Suspension} :
      Ends mode t (.suspended suspension) (.pending suspension)
  | violated {violation : Violation} :
      Ends mode t (.violated violation) (.violated violation)
  | stepped {phase : Phase} (step : mode = .step) : Ends mode t (.finished phase) (.stepped phase)
  | halted {phase : Phase} (run : mode = .run) (halt : phase.isTerminal = true) :
      Ends mode t (.finished phase) (.halted t.reportedFault)

omit [Crew ε] in
theorem Polled.after_after (o : Polled cap ε) (before earlier : List Event) :
    (o.after before).after earlier = o.after (earlier ++ before) := by
  unfold after
  rw [List.append_assoc]

namespace Site

/-- A poll is a drive and a last move. -/
theorem poll_driven (mode : Mode) (s : Site cap ε) (p : Point) :
    ∃ es t q progress, Driven mode s p es t q ∧
      s.poll mode p = ⟨(t.move q).site, es ++ (t.move q).events, progress⟩ ∧
      Ends mode (t.move q).site (t.move q).verdict progress := by
  -- the first move and the drive of the rest make the drive of the whole
  have onward {mode : Mode} {s : Site cap ε} {p : Point} {o : Polled cap ε}
      (goesOn : (s.move p).verdict.goesOn mode = true)
      (whole : s.poll mode p = o.after (s.move p).events)
      (rest : ∃ es t q progress, Driven mode (s.move p).site (s.move p).verdict.next es t q ∧
        o = ⟨(t.move q).site, es ++ (t.move q).events, progress⟩ ∧
        Ends mode (t.move q).site (t.move q).verdict progress) :
      ∃ es t q progress, Driven mode s p es t q ∧
        s.poll mode p = ⟨(t.move q).site, es ++ (t.move q).events, progress⟩ ∧
        Ends mode (t.move q).site (t.move q).verdict progress := by
    obtain ⟨es, t, q, progress, driven, rfl, ends⟩ := rest
    refine ⟨_, t, q, progress, .move goesOn driven, ?_, ends⟩
    rw [whole, List.append_assoc]
    rfl
  induction mode, s, p using Site.poll.induct with
  | case1 mode s p q goOn ih =>
      refine onward (by rw [goOn]; rfl) (poll_of_goOn goOn) ?_
      rw [goOn]
      exact ih
  | case2 mode s p suspension suspended =>
      refine ⟨[], s, p, _, .stay s p, poll_of_suspended suspended, ?_⟩
      rw [suspended]
      exact .suspended
  | case3 mode s p violation violated =>
      refine ⟨[], s, p, _, .stay s p, poll_of_violated violated, ?_⟩
      rw [violated]
      exact .violated
  | case4 s p phase finished =>
      refine ⟨[], s, p, _, .stay s p, poll_step_of_finished finished, ?_⟩
      rw [finished]
      exact .stepped rfl
  | case5 s p phase finished live ih =>
      have goesOn : (s.move p).verdict.goesOn .run = true := by
        simp [finished, Verdict.goesOn, live]
      refine onward goesOn (poll_run_of_finished finished live) ?_
      rw [finished]
      exact ih
  | case6 s p phase finished halt =>
      have halted : phase.isTerminal = true := (Bool.not_eq_false _).mp halt
      refine ⟨[], s, p, _, .stay s p, poll_run_of_halted finished halted, ?_⟩
      rw [finished]
      exact .halted rfl halted

/-- A poll begins with the first of its moves. -/
theorem mem_poll {s : Site cap ε} {p : Point} {e : Event} (first : e ∈ (s.move p).events)
    (mode : Mode) : e ∈ (s.poll mode p).events := by
  rw [poll]
  split
  · exact List.mem_append_left _ first
  · exact first
  · exact first
  · split
    · exact first
    · split
      · exact List.mem_append_left _ first
      · exact first

/-- What turns keep is kept in a drive. -/
theorem Driven.keeps {K : Link cap → Worker → Point → List Event → Prop}
    (turn : ∀ (l l' : Link cap) (w w' : Worker) (p q : Point) (past es : List Event),
      Turn l w p es l' w' q → K l w p past → K l' w' q (past ++ es))
    {mode : Mode} {s t : Site cap ε} {p q : Point} {es : List Event}
    (driven : Driven mode s p es t q) : ∀ past : List Event,
      K s.link s.worker p past → K t.link t.worker q (past ++ es) := by
  induction driven with
  | stay s p =>
      intro past holds
      rw [List.append_nil]
      exact holds
  | @move s t p q es _ _ ih =>
      intro past holds
      rw [← List.append_assoc]
      exact ih _ (turn _ _ _ _ _ _ _ _ (s.turn_move p) holds)

/-- A move that a poll goes on from leaves less to do. -/
theorem effort_next_lt (s : Site cap ε) (p : Point) {mode : Mode}
    (onward : (s.move p).verdict.goesOn mode = true) :
    (s.move p).site.effort (s.move p).verdict.next < s.effort p := by
  cases verdict : (s.move p).verdict with
  | goOn q => exact s.effort_move_lt p verdict
  | finished phase =>
      rw [verdict] at onward
      simp [Verdict.goesOn] at onward
      exact s.effort_finished_lt p verdict onward.2
  | suspended _ | violated _ =>
      rw [verdict] at onward
      cases onward

/-- What happens in no move more than once happens in a drive no more often
than the effort allows. -/
theorem Driven.count_le {mode : Mode} {s t : Site cap ε} {p q : Point} {es : List Event}
    (driven : Driven mode s p es t q) {kind : Event → Bool}
    (once : ∀ (s : Site cap ε) (p : Point), (s.move p).events.countP kind ≤ 1) :
    es.countP kind + t.effort q ≤ s.effort p := by
  induction driven with
  | stay s p => simp
  | @move s t p q es onward _ ih =>
      have first := once s p
      have less := s.effort_next_lt p onward
      rw [List.countP_append]
      omega

/-- No effort is above what crew, outbox and the ranks allow. -/
theorem effort_lt (s : Site cap ε) (p : Point) :
    s.effort p < 128 * Crew.unrest s.crew + 64 * s.link.queued + 63 := by
  have rank : s.rank p < 63 := by
    unfold Site.rank
    split
    · exact Phase.rank_lt _ _ _
    · split <;> decide
    · exact Nat.lt_of_le_of_lt (Nat.sub_le _ _) (Phase.rank_lt _ _ _)
    · split
      · decide
      · split <;> decide
  unfold effort
  omega

end Site

end StoreForward
