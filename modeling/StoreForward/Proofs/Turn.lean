import StoreForward.World

/-!
# Turns

A move of a worker depends on its crew, but most of what there is to say
about moves holds whatever the crew does. A `Turn` is a move with the crew
taken out: link, worker and point before it, what happened, and link, worker
and point after it. The answer to a request, the batches that come with it,
the wakes and the number of polls may be anything.

Turns come in three kinds. A `Calling` puts a request to the crew, a
`Closing` ends the action of a phase so that the transition table decides
what follows, and a few turns do neither. `Site.turn_move` shows that every
move is a turn. An invariant of all workers is therefore proved by cases on
turns, and no proof beyond this module looks into a move again.

## Main definitions

* `Link.Fed` — what batches and wakes from outside do to a link.
* `Calling`, `Closing`, `Turn` — the kinds of turns.
* `Worker.At` — what a worker remembers where it stands.

## Main results

* `Site.turn_move` — every move is a turn.
* `Turn.at_next` — a turn leads to a point that the worker remembers.
-/

namespace StoreForward

variable {cap : Nat} {ε : Type}

/-! ## Feeding a link -/

/-- A link fed with batches and wakes in any order, and what happened. The
producer and the crews do nothing else to a link. -/
inductive Link.Fed : Link cap → List Event → Link cap → Prop where
  | done (l : Link cap) : Fed l [] l
  | offer {l : Link cap} (b : Batch) {es : List Event} {l' : Link cap}
      (rest : Fed (l.offer b).1 es l') : Fed l ((l.offer b).2.2 ++ es) l'
  | nudge {l : Link cap} {es : List Event} {l' : Link cap}
      (rest : Fed l.nudge.1 es l') : Fed l (l.nudge.2.2 ++ es) l'

namespace Link

theorem Fed.trans {l m n : Link cap} {es fs : List Event} (first : l.Fed es m)
    (second : m.Fed fs n) : l.Fed (es ++ fs) n := by
  induction first with
  | done => exact second
  | offer b _ ih =>
      rw [List.append_assoc]
      exact .offer b (ih second)
  | nudge _ ih =>
      rw [List.append_assoc]
      exact .nudge (ih second)

theorem fed_offer (l : Link cap) (b : Batch) : l.Fed (l.offer b).2.2 (l.offer b).1 := by
  simpa using Fed.offer b (.done (l.offer b).1)

theorem fed_nudge (l : Link cap) : l.Fed l.nudge.2.2 l.nudge.1 := by
  simpa using Fed.nudge (.done l.nudge.1)

theorem fed_offerAll (bs : List Batch) :
    ∀ l : Link cap, l.Fed (l.offerAll bs).2 (l.offerAll bs).1 := by
  induction bs with
  | nil => exact fun l => .done l
  | cons b rest ih => exact fun l => .offer b (ih (l.offer b).1)

theorem fed_nudgeTimes (n : Nat) :
    ∀ l : Link cap, l.Fed (l.nudgeTimes n).2 (l.nudgeTimes n).1 := by
  induction n with
  | zero => exact fun l => .done l
  | succ n ih => exact fun l => .nudge (ih l.nudge.1)

theorem status_offer (l : Link cap) (b : Batch) :
    ∃ n, (l.offer b).1.status = { l.status with enqueued := n } := by
  rcases l.offer_cases b with ⟨_, m, _, _, _, status, offer⟩ | ⟨_, offer⟩
  · rw [offer]
    exact ⟨_, (post_fst _ _).2.trans status⟩
  · rw [offer]
    exact ⟨_, rfl⟩

/-- Of its status, feeding a link changes only the count of accepted
batches. -/
theorem Fed.status_eq {l l' : Link cap} {es : List Event} (fed : l.Fed es l') :
    ∃ n, l'.status = { l.status with enqueued := n } := by
  induction fed with
  | done => exact ⟨_, rfl⟩
  | @offer l b es l' _ ih =>
      obtain ⟨n, last⟩ := ih
      obtain ⟨m, first⟩ := status_offer l b
      exact ⟨n, by rw [last, first]⟩
  | nudge _ ih =>
      rw [(nudge_fst _).2] at ih
      exact ih

/-- What the transition table looks at when a worker is at a link. -/
def guards (l : Link cap) (w : Worker) : Guards where
  failed := l.status.failed
  syncDue := w.syncDue
  queueEmpty := l.isIdle
  retriesExhausted := w.retriesExhausted

/-- The link after a worker has told its crew whether the core may sleep,
if that is news. -/
def hinted (l : Link cap) (was allowed : Bool) : Link cap :=
  { l with status := if was = allowed then l.status else l.status.setLowPower allowed }

end Link

/-- What happens when a worker tells its crew whether the core may sleep. -/
def hinting (was allowed : Bool) : List Event :=
  if was = allowed then []
  else if allowed then [.hinted .allowLowPower, .noticed .lowPowerAllowed]
  else [.hinted .disallowLowPower, .noticed .lowPowerDisallowed]

/-- What happens when stale wakes are discarded. -/
def discarding (stale : Nat) : List Event :=
  if stale = 0 then [] else [.noticed (.wakesDiscarded stale)]

/-! ## Answers -/

namespace Job

/-- The fault that a failure of the job is, unless it is part of tearing
down. -/
def fault? : Job → Option Fault
  | start => some .networkStart
  | sync => some .timeSync
  | connect => some .sessionConnect
  | publish _ _ _ => some .publish
  | close _ => none
  | stop => none

/-- How a failure of the job is reported. -/
def failure : Job → CallError → Notice
  | start, e => .networkFailed e
  | sync, e => .syncFailed e
  | connect, e => .connectFailed e
  | publish _ _ sent, e => .publishFailed sent e
  | close _, e => .closeFailed e
  | stop, e => .stopFailed e

/-- How success is reported by the jobs that change nothing else. -/
def success? : Job → Option (List Event)
  | start => some []
  | sync => some [.noticed .timeSynced]
  | connect => none
  | publish _ _ _ => none
  | close _ => some [.noticed .sessionClosed]
  | stop => some [.noticed .networkDown]

end Job

/-- The status after a job has failed. -/
def Status.blame (st : Status) (job : Job) : Status :=
  match job.fault? with
  | some f => st.signal f
  | none => { st with teardownFailures := st.teardownFailures + 1 }

/-! ## Transitions -/

/-- To look at all guards is to look at all flags. -/
theorem Guards.of_flags {P : Guards → Prop}
    (all : ∀ failed syncDue queueEmpty exhausted, P ⟨failed, syncDue, queueEmpty, exhausted⟩) :
    ∀ g, P g :=
  fun g => all g.failed g.syncDue g.queueEmpty g.retriesExhausted

namespace Status

/-- The fault that a halt is attributed to. -/
def culprit (st : Status) (source : Phase) : Fault :=
  if source = .start then .unexpected else st.fault.getD .unexpected

/-- The status after a phase has been entered. -/
def enter (st : Status) (source target : Phase) : Status :=
  if target.isTerminal then { st with phase := target }.halt (st.culprit source)
  else { st with phase := target }

@[simp] theorem failed_enter (st : Status) (source target : Phase) :
    (st.enter source target).failed = st.failed := by
  unfold enter
  split <;> rfl

end Status

/-- What happens when a phase is entered. -/
def arrival (st : Status) (source target : Phase) : List Event :=
  .entered source target :: .noticed (.entered source target) ::
    if target.isTerminal then [.noticed (.halted source (st.culprit source))] else []

/-! ## The kinds of turns -/

/-- A worker at a point gets ready to put a request to its crew: the point,
the job, what happened, and link and worker when the request is made. -/
inductive Calling (l : Link cap) (w : Worker) :
    Point → Job → List Event → Link cap → Worker → Prop where
  | start (here : w.phase = .connectNetwork) :
      Calling l w .outset .start [.began .connectNetwork, .noticed .startingNetwork] l w
  | sync (here : w.phase = .syncTime) :
      Calling l w .outset .sync [.began .syncTime, .noticed .syncingTime] l
        { w with syncDue := false }
  | connect (here : w.phase = .connectSession) (free : w.session = none) :
      Calling l w .outset .connect [.began .connectSession] l w
  | publish {session : Nat} {sent : UInt32} {batch : Batch} {outbox : Outbox cap}
      (taken : l.outbox.take? = some (batch, outbox)) :
      Calling l w (.draining session sent) (.publish session batch sent) []
        { l with outbox } w
  | close {session : Nat} (here : w.phase = .closeSession) (held : w.session = some session) :
      Calling l w .outset (.close session) [.began .closeSession] l
        { w with session := none }
  | stop (here : w.phase = .disconnectNetwork) :
      Calling l w .outset .stop [.began .disconnectNetwork] l w

/-- The action of a phase comes to its end: the phase, the point, what
happened, and link and worker when the transition table is consulted. -/
inductive Closing (l : Link cap) (w : Worker) :
    Phase → Point → List Event → Link cap → Worker → Prop where
  | started (here : w.phase = .start) :
      Closing l w .start .outset [.began .start] l w
  | surveyed (here : w.phase = .ready) :
      Closing l w .ready .outset [.began .ready] l w
  | unopened (here : w.phase = .publish) (free : w.session = none) :
      Closing l w .publish .outset [.began .publish, .noticed .sessionMissing]
        { l with status := l.status.signal .publish } w
  | unheld (here : w.phase = .closeSession) (free : w.session = none) :
      Closing l w .closeSession .outset [.began .closeSession, .noticed .nothingToClose] l w
  | skipped (here : w.phase = .idle) (busy : l.isIdle = false) :
      Closing l w .idle .outset
        (.began .idle :: (hinting w.lowPower false ++ [.noticed (.restSkipped l.queued)]))
        ({ l with wakes := .empty }.hinted w.lowPower false) { w with lowPower := false }
  | retried (here : w.phase = .retrySession) :
      Closing l w .retrySession .outset
        [.began .retrySession, .noticed (.retrying w.countRetry.retries)]
        { l with status := { l.status.lower with retries := l.status.retries + 1 } }
        w.countRetry
  | succeeded (job : Job) {es : List Event} (plain : job.success? = some es) :
      Closing l w job.phase (.waiting (.call job 0 .ok)) (.answered job.request .ok :: es) l w
  | connected :
      Closing l w .connectSession (.waiting (.call .connect 0 .ok))
        [.answered .connect .ok,
          .noticed (if l.status.everConnected then .sessionOpened else .firstSession)]
        { l with status := { l.status with everConnected := true } } w.openSession
  | failed (job : Job) (error : CallError) :
      Closing l w job.phase (.waiting (.call job 0 (.failed error)))
        [.answered job.request (.failed error), .noticed (job.failure error)]
        { l with status := l.status.blame job } w
  | drained {session : Nat} {sent : UInt32} (idle : l.isIdle = true) :
      Closing l w .publish (.draining session sent) [.noticed (.drained sent)] l w
  | woken {wake : Wake} {wakes : Fifo Wake cap} (taken : l.wakes.take? = some (wake, wakes)) :
      Closing l w .idle (.waiting .parked)
        (hinting w.lowPower false ++ [.noticed (.woken wake l.queued)])
        ({ l with wakes }.hinted w.lowPower false) { w with lowPower := false }

/-- A move of a worker at a point, whatever its crew does: the point, what
happened, and link, worker and point after it. -/
inductive Turn (l : Link cap) (w : Worker) :
    Point → List Event → Link cap → Worker → Point → Prop where
  /-- A request reaches the crew, which may find that it is being misused. -/
  | call {p : Point} {job : Job} {es offers : List Event} {l₁ l₂ : Link cap} {w₁ : Worker}
      {q : Point} (calling : Calling l w p job es l₁ w₁) (fed : l₁.Fed offers l₂)
      (next : q = .outset ∨ ∃ polls answer, q = .waiting (.call job polls answer)) :
      Turn l w p (es ++ .called job.request :: offers) l₂ w₁ q
  /-- A step is completed. -/
  | leave {source : Phase} {p : Point} {es : List Event} {l₁ : Link cap} {w₁ : Worker}
      (closing : Closing l w source p es l₁ w₁) :
      Turn l w p (es ++ arrival l₁.status source (source.next (l₁.guards w₁)))
        { l₁ with status := l₁.status.enter source (source.next (l₁.guards w₁)) }
        { w₁ with phase := source.next (l₁.guards w₁) } .outset
  /-- A drain begins. -/
  | opened {session : Nat} (here : w.phase = .publish) (held : w.session = some session) :
      Turn l w .outset [.began .publish] l w (.draining session 0)
  /-- A batch has been published. -/
  | published {session : Nat} {batch : Batch} {sent : UInt32} (room : sent ≠ 0xffffffff) :
      Turn l w (.waiting (.call (.publish session batch sent) 0 .ok))
        [.answered (.publish session batch) .ok, .noticed (.batchPublished batch.length)]
        { l with status := { l.status with published := l.status.published + 1 } } w
        (.draining session (sent + 1))
  /-- A batch has been published, and the drain has lost count. -/
  | overflown {session : Nat} {batch : Batch} :
      Turn l w (.waiting (.call (.publish session batch 0xffffffff) 0 .ok))
        [.answered (.publish session batch) .ok] l w .outset
  /-- A worker that holds a session must not open another. -/
  | refused (here : w.phase = .connectSession) (held : w.session.isSome = true) :
      Turn l w .outset [.began .connectSession] l w .outset
  /-- A worker goes to rest. -/
  | park (here : w.phase = .idle) (idle : l.isIdle = true) :
      Turn l w .outset
        (.began .idle :: (discarding l.wakes.length ++ hinting w.lowPower true ++
          [.noticed .resting]))
        ({ l with wakes := .empty }.hinted w.lowPower true) { w with lowPower := true }
        (.waiting .parked)
  /-- An answer is not due yet. -/
  | wait {job : Job} {polls : Nat} {answer : Answer} :
      Turn l w (.waiting (.call job (polls + 1) answer)) [] l w
        (.waiting (.call job polls answer))
  /-- There is no wake to end a rest. -/
  | rest (quiet : l.wakes.items = []) :
      Turn l w (.waiting .parked) [] l w (.waiting .parked)
  /-- A worker that has halted does nothing. -/
  | halted (here : w.phase = .fatal) :
      Turn l w .outset [] l w .outset

/-- Where a worker stands after a move. Where a check failed it stands at the
outset of its phase again, as it does after a complete step. -/
def Verdict.next : Verdict → Point
  | goOn q => q
  | suspended suspension => .waiting suspension
  | finished _ => .outset
  | violated _ => .outset

/-! ## Every move is a turn -/

namespace Site

theorem enter_eq (s : Site cap ε) (source target : Phase) :
    (s.enter source target).1.link =
        { s.link with status := s.link.status.enter source target } ∧
      (s.enter source target).1.worker = { s.worker with phase := target } ∧
      (s.enter source target).2 = arrival s.link.status source target := by
  unfold enter Status.enter arrival
  dsimp only
  split <;> exact ⟨rfl, rfl, rfl⟩

/-- The end of an action completes a turn, whatever was noted before it. -/
theorem turn_finish {l : Link cap} {w : Worker} {source : Phase} {p : Point}
    (s : Site cap ε) (before : List Event) {notes : List Event}
    (closing : Closing l w source p (before ++ notes) s.link s.worker) :
    Turn l w p (before ++ (s.finish source notes).events) (s.finish source notes).site.link
      (s.finish source notes).site.worker (s.finish source notes).verdict.next := by
  obtain ⟨link, worker, events⟩ := s.enter_eq source (source.next s.guards)
  show Turn l w p (before ++ (notes ++ (s.enter source (source.next s.guards)).2))
    (s.enter source (source.next s.guards)).1.link
    (s.enter source (source.next s.guards)).1.worker .outset
  rw [link, worker, events, ← List.append_assoc]
  exact .leave closing

variable [Crew ε]

/-- A request completes a turn, whatever the crew makes of it. -/
theorem turn_begin {l : Link cap} {w : Worker} {p : Point} {job : Job}
    (s : Site cap ε) (before : List Event) {notes : List Event}
    (calling : Calling l w p job (before ++ notes) s.link s.worker) :
    Turn l w p (before ++ (s.begin job notes).events) (s.begin job notes).site.link
      (s.begin job notes).site.worker (s.begin job notes).verdict.next := by
  unfold begin
  cases Crew.react s.crew job.request with
  | mk crew result =>
      cases result with
      | error text =>
          dsimp only
          rw [← List.append_assoc]
          exact .call calling (.done s.link) (.inl rfl)
      | ok r =>
          dsimp only
          rw [← List.append_assoc]
          exact .call calling ((s.link.fed_offerAll r.enqueues).trans
            (Link.fed_nudgeTimes r.wakes _)) (.inr ⟨r.polls, r.answer, rfl⟩)

/-- What a hint does to link and worker, and what happens. -/
theorem setLowPower_eq (s : Site cap ε) (allowed : Bool) :
    (s.setLowPower allowed).1.link = s.link.hinted s.worker.lowPower allowed ∧
      (s.setLowPower allowed).1.worker = { s.worker with lowPower := allowed } ∧
      (s.setLowPower allowed).2 = hinting s.worker.lowPower allowed := by
  unfold setLowPower Link.hinted hinting
  split
  · rename_i same
    subst same
    exact ⟨rfl, rfl, rfl⟩
  · cases allowed <;> exact ⟨rfl, rfl, rfl⟩

theorem turn_settle (s : Site cap ε) (here : s.worker.phase = .idle) :
    Turn s.link s.worker .outset (.began .idle :: s.settle.events) s.settle.site.link
      s.settle.site.worker s.settle.verdict.next := by
  unfold settle
  dsimp only
  split
  · rename_i idle
    obtain ⟨link, worker, events⟩ :=
      setLowPower_eq { s with link := { s.link with wakes := .empty } } true
    rw [link, worker, events]
    exact .park here idle
  · rename_i busy
    obtain ⟨link, worker, events⟩ :=
      setLowPower_eq { s with link := { s.link with wakes := .empty } } false
    refine turn_finish (setLowPower _ false).1 [.began .idle] ?_
    rw [link, worker, events]
    exact .skipped here (Bool.eq_false_iff.mpr busy)

omit [Crew ε] in
theorem opening_of_phase {s : Site cap ε} {phase : Phase} (here : s.worker.phase = phase)
    (live : phase.isTerminal = false) : s.opening = [.began phase] := by
  unfold opening
  rw [here, live]
  rfl

/-- The first move of a step is the action of the phase, with the beginning of the step before
it. -/
theorem move_of_act {s : Site cap ε} {phase : Phase} (here : s.worker.phase = phase)
    (live : phase.isTerminal = false) {m : Move cap ε} (act : s.act = m) :
    s.move .outset = { m with events := .began phase :: m.events } := by
  show { s.act with events := s.opening ++ s.act.events } = _
  rw [opening_of_phase here live, act]
  rfl

theorem turn_act (s : Site cap ε) :
    Turn s.link s.worker .outset (s.opening ++ s.act.events) s.act.site.link
      s.act.site.worker s.act.verdict.next := by
  cases here : s.worker.phase with
  | start =>
      rw [opening_of_phase here rfl, show s.act = _ by unfold act; rw [here]]
      exact turn_finish s [_] (.started here)
  | connectNetwork =>
      rw [opening_of_phase here rfl, show s.act = _ by unfold act; rw [here]]
      exact turn_begin s [_] (.start here)
  | syncTime =>
      have act : s.act = begin { s with worker := { s.worker with syncDue := false } } .sync
          [.noticed .syncingTime] := by
        unfold act
        rw [here]
      rw [opening_of_phase here rfl, act]
      exact turn_begin _ [_] (.sync here)
  | connectSession =>
      rw [opening_of_phase here rfl, show s.act = _ by unfold act; rw [here]]
      dsimp only
      split
      · exact .refused here ‹_›
      · rename_i free
        exact turn_begin s [_] (.connect here (by simpa using free))
  | ready =>
      rw [opening_of_phase here rfl, show s.act = _ by unfold act; rw [here]]
      exact turn_finish s [_] (.surveyed here)
  | publish =>
      rw [opening_of_phase here rfl, show s.act = _ by unfold act; rw [here]]
      dsimp only
      split
      · exact turn_finish (s.signal .publish) [_] (.unopened here ‹_›)
      · exact .opened here ‹_›
  | closeSession =>
      rw [opening_of_phase here rfl]
      cases held : s.worker.session with
      | none =>
          have act : s.act = s.finish .closeSession [.noticed .nothingToClose] := by
            simp only [act, here, held]
          rw [act]
          exact turn_finish s [_] (.unheld here held)
      | some session =>
          have act : s.act = begin { s with worker := { s.worker with session := none } }
              (.close session) [] := by
            simp only [act, here, held]
          rw [act]
          exact turn_begin _ [_] (.close here held)
  | disconnectNetwork =>
      rw [opening_of_phase here rfl, show s.act = _ by unfold act; rw [here]]
      exact turn_begin s [_] (.stop here)
  | idle =>
      rw [opening_of_phase here rfl, show s.act = _ by unfold act; rw [here]]
      exact s.turn_settle here
  | retrySession =>
      rw [opening_of_phase here rfl, show s.act = _ by unfold act; rw [here]]
      exact turn_finish _ [_] (.retried here)
  | fatal =>
      unfold opening act
      rw [here]
      exact .halted here

theorem turn_drain (s : Site cap ε) (session : Nat) (sent : UInt32) :
    Turn s.link s.worker (.draining session sent) (s.drain session sent).events
      (s.drain session sent).site.link (s.drain session sent).site.worker
      (s.drain session sent).verdict.next := by
  unfold drain
  cases taken : s.link.outbox.take? with
  | none =>
      have idle : s.link.isIdle = true := (Outbox.take?_eq_none_iff _).mp taken
      exact turn_finish s [] (.drained idle)
  | some p => exact turn_begin _ [] (.publish taken)

omit [Crew ε] in
/-- What the failure of a request leads to. -/
theorem conclude_failed (s : Site cap ε) (job : Job) (error : CallError) :
    s.conclude job (.failed error) =
      (s.mapStatus (·.blame job)).finish job.phase [.noticed (job.failure error)] := by
  cases job <;> rfl

omit [Crew ε] in
/-- What success leads to, if it changes nothing else. -/
theorem conclude_plain (s : Site cap ε) {job : Job} {es : List Event}
    (plain : job.success? = some es) : s.conclude job .ok = s.finish job.phase es := by
  cases job <;> cases plain <;> rfl

omit [Crew ε] in
theorem turn_receive (s : Site cap ε) (job : Job) (answer : Answer) :
    Turn s.link s.worker (.waiting (.call job 0 answer)) (s.receive job answer).events
      (s.receive job answer).site.link (s.receive job answer).site.worker
      (s.receive job answer).verdict.next := by
  cases answer with
  | ok =>
      cases job with
      | start => exact turn_finish s [_] (.succeeded .start rfl)
      | sync => exact turn_finish s [_] (.succeeded .sync rfl)
      | connect => exact turn_finish s.welcome.1 [_] .connected
      | publish session batch sent =>
          show Turn _ _ _ (_ :: (s.countPublished session batch sent).events)
            (s.countPublished session batch sent).site.link
            (s.countPublished session batch sent).site.worker
            (s.countPublished session batch sent).verdict.next
          unfold countPublished
          split
          · rename_i full
            subst full
            exact .overflown
          · exact .published ‹_›
      | close session => exact turn_finish s [_] (.succeeded (.close session) rfl)
      | stop => exact turn_finish s [_] (.succeeded .stop rfl)
  | failed error =>
      cases job with
      | start => exact turn_finish (s.signal _) [_] (.failed .start error)
      | sync => exact turn_finish (s.signal _) [_] (.failed .sync error)
      | connect => exact turn_finish (s.signal _) [_] (.failed .connect error)
      | publish session batch sent =>
          exact turn_finish (s.signal _) [_] (.failed (.publish session batch sent) error)
      | close session =>
          exact turn_finish s.countTeardownFailure [_] (.failed (.close session) error)
      | stop => exact turn_finish s.countTeardownFailure [_] (.failed .stop error)

theorem turn_listen (s : Site cap ε) :
    Turn s.link s.worker (.waiting .parked) s.listen.events s.listen.site.link
      s.listen.site.worker s.listen.verdict.next := by
  unfold listen
  cases taken : s.link.wakes.take? with
  | none => exact .rest ((Fifo.take?_eq_none_iff _).mp taken)
  | some p =>
      obtain ⟨wake, wakes⟩ := p
      obtain ⟨link, worker, events⟩ :=
        setLowPower_eq { s with link := { s.link with wakes } } false
      dsimp only
      refine turn_finish (setLowPower _ false).1 [] ?_
      rw [link, worker, events]
      exact .woken taken

/-- Every move is a turn. -/
theorem turn_move (s : Site cap ε) (p : Point) :
    Turn s.link s.worker p (s.move p).events (s.move p).site.link
      (s.move p).site.worker (s.move p).verdict.next := by
  match p with
  | .outset => exact s.turn_act
  | .draining session sent => exact s.turn_drain session sent
  | .waiting (.call job 0 answer) => exact s.turn_receive job answer
  | .waiting (.call job (polls + 1) answer) => exact .wait
  | .waiting .parked => exact s.turn_listen

end Site

/-! ## Where a worker stands -/

/-- What a worker remembers while a job is under way. -/
def Job.Held (w : Worker) : Job → Prop
  | start => True
  | sync => w.syncDue = false
  | connect => w.session = none
  | publish session _ _ => w.session = some session
  | close _ => w.session = none
  | stop => True

/-- What a worker remembers where it stands. -/
def Worker.At (w : Worker) : Point → Prop
  | .outset => True
  | .draining session _ => w.phase = .publish ∧ w.session = some session
  | .waiting (.call job _ _) => w.phase = job.phase ∧ job.Held w
  | .waiting .parked => w.phase = .idle ∧ w.lowPower = true

theorem Calling.held {l l₁ : Link cap} {w w₁ : Worker} {p : Point} {job : Job}
    {es : List Event} (calling : Calling l w p job es l₁ w₁) (stands : w.At p) :
    w₁.phase = job.phase ∧ job.Held w₁ := by
  cases calling with
  | start here => exact ⟨here, trivial⟩
  | sync here => exact ⟨here, rfl⟩
  | connect here free => exact ⟨here, free⟩
  | publish _ => exact stands
  | close here _ => exact ⟨here, rfl⟩
  | stop here => exact ⟨here, trivial⟩

/-- A turn leads to a point that the worker remembers. -/
theorem Turn.at_next {l l' : Link cap} {w w' : Worker} {p q : Point} {es : List Event}
    (turn : Turn l w p es l' w' q) (stands : w.At p) : w'.At q := by
  cases turn with
  | call calling _ next =>
      rcases next with rfl | ⟨polls, answer, rfl⟩
      · trivial
      · exact calling.held stands
  | opened here held => exact ⟨here, held⟩
  | published _ => exact stands
  | park here _ => exact ⟨here, rfl⟩
  | wait => exact stands
  | rest _ => exact stands
  | leave _ => trivial
  | overflown => trivial
  | refused _ _ => trivial
  | halted _ => trivial

/-- The action that comes to its end is that of the worker's phase. -/
theorem Closing.phase_eq {l l₁ : Link cap} {w w₁ : Worker} {source : Phase} {p : Point}
    {es : List Event} (closing : Closing l w source p es l₁ w₁) (stands : w.At p) :
    w.phase = source := by
  cases closing with
  | started here => exact here
  | surveyed here => exact here
  | unopened here _ => exact here
  | unheld here _ => exact here
  | skipped here _ => exact here
  | retried here => exact here
  | succeeded _ _ => exact stands.1
  | connected => exact stands.1
  | failed _ _ => exact stands.1
  | drained _ => exact stands.1
  | woken _ => exact stands.1

end StoreForward
