import StoreForward.Crew

/-!
# Rehearsals

A rehearsal stands in for a crew while a worker is tried out. It can be told
to fail: the first so many network starts, the first so many connects, one
particular publish, every stop, every synchronisation, every close. It
answers at once, notes every request and hint it gets, and checks that it is
used properly: at most one session is live, and a session is used only while
it is the last one that was opened.

Its counters are 32 bits wide and checked.

## Main definitions

* `Rehearsal` — what is to fail, and what has been asked so far.
* `Rehearsal.react` — the reaction to a request.
* `Rehearsal.Misuse` — the checks a request can violate.

## Main results

* `Rehearsal.connect_of_none`, `Rehearsal.publish_latest`, `Rehearsal.close_latest` — what comes
  of a request that opens the only live session, or that uses the session opened last.
-/

namespace StoreForward

/-- One line of the notes of a rehearsal. -/
inductive Cue where
  | networkStart
  | networkStop
  | timeSync
  | connect
  /-- A batch was published; the tag is that of its oldest sample. -/
  | publish (tag : UInt64)
  | close
  | allowLowPower
  | disallowLowPower
  deriving DecidableEq

namespace Cue

/-- The cue as it is written in diagnostics. -/
def text : Cue → String
  | networkStart => "NetworkStart"
  | networkStop => "NetworkStop"
  | timeSync => "TimeSync"
  | connect => "Connect"
  | publish tag => Text.wrapped "Publish" (toString tag.toNat)
  | close => "Close"
  | allowLowPower => "AllowLowPower"
  | disallowLowPower => "DisallowLowPower"

/-- The cue came from a hint and not from a request. -/
def isHint : Cue → Bool
  | allowLowPower | disallowLowPower => true
  | _ => false

/-- The tag of a publish. -/
def tag? : Cue → Option UInt64
  | publish tag => some tag
  | _ => none

end Cue

/-- A crew that is being rehearsed with. -/
structure Rehearsal where
  /-- How many starts are still to fail. -/
  failStarts : UInt32 := 0
  failStop : Bool := false
  failSync : Bool := false
  /-- How many connects are still to fail. -/
  failConnects : UInt32 := 0
  /-- Which publish is to fail, counted from zero. -/
  failPublishAt : Option Nat := none
  failClose : Bool := false
  /-- Publishes so far. -/
  publishes : Nat := 0
  /-- Sessions opened so far; the last one has this number. -/
  opened : UInt32 := 0
  /-- Sessions open at the moment. -/
  live : UInt32 := 0
  /-- What has been asked so far, oldest first. -/
  notes : List Cue := []
  deriving DecidableEq

namespace Rehearsal

/-- The checks that a request can violate. -/
inductive Misuse where
  | secondSession
  | stalePublish
  | staleClose
  | openedOverflow
  | liveUnderflow
  deriving DecidableEq

/-- The report of a violated check, in one line. -/
def Misuse.text : Misuse → String
  | secondSession => "assertion `left == right` failed: second session opened while one is live"
  | stalePublish => "assertion `left == right` failed: publish on a stale session"
  | staleClose => "assertion `left == right` failed: closing a stale session"
  | openedOverflow => "attempt to add with overflow"
  | liveUnderflow => "attempt to subtract with overflow"

/-- The one error a rehearsal fails with. -/
def failure : CallError := ⟨.other, "MockError"⟩

/-- The error in words. -/
def failureText : String := "scripted failure"

/-- Succeed or fail, at once. -/
def answer (fails : Bool) : Except Misuse Response :=
  .ok { answer := if fails then .failed failure else .ok }

/-- Note a cue. -/
def note (r : Rehearsal) (c : Cue) : Rehearsal := { r with notes := r.notes ++ [c] }

def start (r : Rehearsal) : Rehearsal × Except Misuse Response :=
  let noted := r.note .networkStart
  if r.failStarts = 0 then (noted, answer false)
  else ({ noted with failStarts := r.failStarts - 1 }, answer true)

def stop (r : Rehearsal) : Rehearsal × Except Misuse Response :=
  (r.note .networkStop, answer r.failStop)

def sync (r : Rehearsal) : Rehearsal × Except Misuse Response :=
  (r.note .timeSync, answer r.failSync)

def connect (r : Rehearsal) : Rehearsal × Except Misuse Response :=
  let noted := r.note .connect
  if r.failConnects ≠ 0 then
    ({ noted with failConnects := r.failConnects - 1 }, answer true)
  else if r.live ≠ 0 then (noted, .error .secondSession)
  else if r.opened = 0xffffffff then (noted, .error .openedOverflow)
  else ({ noted with opened := r.opened + 1, live := r.live + 1 }, answer false)

def publish (r : Rehearsal) (session : Nat) (batch : Batch) :
    Rehearsal × Except Misuse Response :=
  if session ≠ r.opened.toNat then (r, .error .stalePublish)
  else
    ({ r.note (.publish batch.tag) with publishes := r.publishes + 1 },
      answer (r.failPublishAt == some r.publishes))

def close (r : Rehearsal) (session : Nat) : Rehearsal × Except Misuse Response :=
  if session ≠ r.opened.toNat then (r, .error .staleClose)
  else
    let noted := r.note .close
    if r.live = 0 then (noted, .error .liveUnderflow)
    else ({ noted with live := r.live - 1 }, answer r.failClose)

/-- The reaction to a request. A request that violates a check may have been
noted by then. -/
def react (r : Rehearsal) : Request → Rehearsal × Except Misuse Response
  | .start => r.start
  | .stop => r.stop
  | .sync => r.sync
  | .connect => r.connect
  | .publish session batch => r.publish session batch
  | .close session => r.close session

/-- The reaction to a hint. -/
def hint (r : Rehearsal) : Hint → Rehearsal
  | .allowLowPower => r.note .allowLowPower
  | .disallowLowPower => r.note .disallowLowPower

/-! ## Views of the notes -/

/-- What was asked for, hints left out. -/
def requests (r : Rehearsal) : List Cue := r.notes.filter fun c => !c.isHint

/-- The tags of the batches published, in order. -/
def published (r : Rehearsal) : List UInt64 := r.notes.filterMap Cue.tag?

/-- How often a cue was noted. -/
def count (r : Rehearsal) (c : Cue) : Nat := r.notes.count c

/-! ## What comes of a request -/

/-- A note adds its tag, if it has one, to the batches published. -/
theorem published_note (r : Rehearsal) (c : Cue) :
    (r.note c).published = r.published ++ c.tag?.toList := by
  unfold published note
  rw [List.filterMap_append]
  cases tag : c.tag? <;> simp [tag]

/-- A start may fail; nothing else comes of it. -/
theorem start_eq (r : Rehearsal) : ∃ left fails,
    r.start = ({ r.note .networkStart with failStarts := left }, answer fails) := by
  unfold start
  dsimp only
  split
  · exact ⟨r.failStarts, false, rfl⟩
  · exact ⟨r.failStarts - 1, true, rfl⟩

/-- While no session is live a connect is refused, or it opens the session with the next
number, if there is one. -/
theorem connect_of_none (r : Rehearsal) (none : r.live = 0) :
    (∃ left, r.connect = ({ r.note .connect with failConnects := left }, answer true)) ∨
    (r.opened = 0xffffffff ∧ r.connect = (r.note .connect, .error .openedOverflow)) ∨
    (r.opened ≠ 0xffffffff ∧
      r.connect = ({ r.note .connect with opened := r.opened + 1, live := 1 }, answer false)) := by
  unfold connect
  dsimp only
  rw [if_neg (not_not_intro none)]
  split
  · exact .inl ⟨_, rfl⟩
  · split
    · exact .inr (.inl ⟨‹_›, rfl⟩)
    · refine .inr (.inr ⟨‹_›, ?_⟩)
      rw [none]
      rfl

/-- A batch that is published in the session opened last is noted. -/
theorem publish_latest (r : Rehearsal) {session : Nat} (latest : session = r.opened.toNat)
    (batch : Batch) : r.publish session batch =
      ({ r.note (.publish batch.tag) with publishes := r.publishes + 1 },
        answer (r.failPublishAt == some r.publishes)) :=
  if_neg (not_not_intro latest)

/-- The session opened last is closed while it is live, even if that fails. -/
theorem close_latest (r : Rehearsal) {session : Nat} (latest : session = r.opened.toNat)
    (one : r.live = 1) :
    r.close session = ({ r.note .close with live := 0 }, answer r.failClose) := by
  unfold close
  rw [if_neg (not_not_intro latest), one]
  rfl

/-! ## A rehearsal is a crew -/

/-- An answer comes without batches. -/
theorem enqueues_of_answer {fails : Bool} {resp : Response}
    (h : answer fails = .ok resp) : resp.enqueues = [] := by
  cases h
  rfl

/-- Every reaction but that to a connect leaves the failures to come as they
are. -/
theorem react_of_ne_connect (r : Rehearsal) (req : Request) (resp : Response)
    (other : req ≠ .connect) (answered : (r.react req).2 = .ok resp) :
    (r.react req).1.failConnects = r.failConnects ∧ resp.enqueues = [] := by
  cases req with
  | connect => exact absurd rfl other
  | start =>
      unfold react start at answered ⊢
      dsimp only at answered ⊢
      split at answered <;> rename_i h
      · rw [if_pos h]
        exact ⟨rfl, enqueues_of_answer answered⟩
      · rw [if_neg h]
        exact ⟨rfl, enqueues_of_answer answered⟩
  | stop => exact ⟨rfl, enqueues_of_answer answered⟩
  | sync => exact ⟨rfl, enqueues_of_answer answered⟩
  | publish session batch =>
      unfold react publish at answered ⊢
      dsimp only at answered ⊢
      split at answered <;> rename_i h
      · cases answered
      · rw [if_neg h]
        exact ⟨rfl, enqueues_of_answer answered⟩
  | close session =>
      unfold react close at answered ⊢
      dsimp only at answered ⊢
      split at answered <;> rename_i h
      · cases answered
      · rw [if_neg h]
        split at answered <;> rename_i live
        · cases answered
        · rw [if_neg live]
          exact ⟨rfl, enqueues_of_answer answered⟩

/-- A connect that fails uses up one of the failures to come. -/
theorem connect_failConnects (r : Rehearsal) (resp : Response)
    (answered : r.connect.2 = .ok resp) :
    r.connect.1.failConnects.toNat + resp.cost .connect ≤ r.failConnects.toNat := by
  unfold connect at answered ⊢
  dsimp only at answered ⊢
  split at answered <;> rename_i failing
  · rw [if_pos failing]
    cases answered
    have some : 1 ≤ r.failConnects := by
      rw [UInt32.le_iff_toNat_le]
      exact Nat.one_le_iff_ne_zero.mpr fun h => failing (UInt32.toNat_inj.mp h)
    show (r.failConnects - 1).toNat + 1 ≤ _
    rw [UInt32.toNat_sub_of_le _ _ some]
    have := UInt32.le_iff_toNat_le.mp some
    exact Nat.le_of_eq (Nat.sub_add_cancel this)
  · rw [if_neg failing]
    split at answered <;> rename_i live
    · cases answered
    · rw [if_neg live]
      split at answered <;> rename_i many
      · cases answered
      · rw [if_neg many]
        cases answered
        exact Nat.le_refl _

theorem failConnects_react (r : Rehearsal) (req : Request) (resp : Response)
    (answered : (r.react req).2 = .ok resp) :
    (r.react req).1.failConnects.toNat + resp.cost req ≤ r.failConnects.toNat := by
  by_cases connecting : req = .connect
  · subst connecting
    exact r.connect_failConnects resp answered
  · obtain ⟨same, none⟩ := r.react_of_ne_connect req resp connecting answered
    have free : resp.cost req = 0 := by
      cases req <;> first | exact absurd rfl connecting | exact congrArg List.length none
    rw [same, free]
    exact Nat.le_refl _

instance : Crew Rehearsal where
  react r req := ((r.react req).1, (r.react req).2.mapError Misuse.text)
  hint := hint
  unrest r := r.failConnects.toNat
  unrest_react := by
    intro r req resp h
    refine r.failConnects_react req resp ?_
    cases answered : (r.react req).2 with
    | error misuse =>
        rw [answered] at h
        cases h
    | ok other =>
        rw [answered] at h
        cases h
        rfl
  unrest_hint r h := by
    cases h <;> exact Nat.le_refl _

end Rehearsal

end StoreForward
