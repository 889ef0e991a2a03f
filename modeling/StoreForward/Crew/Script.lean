import StoreForward.Crew

/-!
# Scripted crews

A script fixes in advance how a crew handles its requests: for each kind of
request a list of responses, used up one per request. When a list is used
up, every further request of its kind succeeds at once and does nothing else.
Any behaviour of any crew over a finite time can be written as a script.

Requests are used up when they are made, so an abandoned request has cost
its response. Hints leave a script as it is.
-/

namespace StoreForward

/-- Responses to come, by the kind of request. -/
structure Script where
  start : List Response := []
  stop : List Response := []
  sync : List Response := []
  connect : List Response := []
  publish : List Response := []
  close : List Response := []
  deriving DecidableEq

namespace Script

/-- A crew with which everything succeeds at once. -/
def empty : Script := {}

/-- The first of the responses, if any, and the others. -/
def draw : List Response → Response × List Response
  | [] => (.prompt, [])
  | r :: rest => (r, rest)

/-- Use up the response to a request. -/
def respond (s : Script) : Request → Script × Response
  | .start => ({ s with start := (draw s.start).2 }, (draw s.start).1)
  | .stop => ({ s with stop := (draw s.stop).2 }, (draw s.stop).1)
  | .sync => ({ s with sync := (draw s.sync).2 }, (draw s.sync).1)
  | .connect => ({ s with connect := (draw s.connect).2 }, (draw s.connect).1)
  | .publish _ _ => ({ s with publish := (draw s.publish).2 }, (draw s.publish).1)
  | .close _ => ({ s with close := (draw s.close).2 }, (draw s.close).1)

/-- A script followed by another, request kind by request kind. -/
def append (s t : Script) : Script where
  start := s.start ++ t.start
  stop := s.stop ++ t.stop
  sync := s.sync ++ t.sync
  connect := s.connect ++ t.connect
  publish := s.publish ++ t.publish
  close := s.close ++ t.close

instance : Append Script := ⟨append⟩

/-! ## Unrest -/

/-- One for every response, and one for every batch that comes with it. -/
def pending : List Response → Nat
  | [] => 0
  | r :: rest => r.enqueues.length + 1 + pending rest

/-- What a script can still do to keep its worker busy. -/
def unrest (s : Script) : Nat :=
  pending s.start + pending s.stop + pending s.sync + pending s.connect +
    pending s.publish + pending s.close

theorem pending_draw (rs : List Response) (req : Request) :
    pending (draw rs).2 + (draw rs).1.cost req ≤ pending rs := by
  cases rs with
  | nil => cases req <;> exact Nat.le_refl _
  | cons r rest =>
      have := r.cost_le req
      show pending rest + r.cost req ≤ r.enqueues.length + 1 + pending rest
      omega

theorem unrest_respond (s : Script) (req : Request) :
    unrest (s.respond req).1 + (s.respond req).2.cost req ≤ s.unrest := by
  have start := pending_draw s.start req
  have stop := pending_draw s.stop req
  have sync := pending_draw s.sync req
  have connect := pending_draw s.connect req
  have publish := pending_draw s.publish req
  have close := pending_draw s.close req
  cases req <;> simp only [unrest, respond] <;> omega

instance : Crew Script where
  react s req := ((s.respond req).1, .ok (s.respond req).2)
  hint s _ := s
  unrest := unrest
  unrest_react := by
    intro s req r h
    cases h
    exact unrest_respond s req
  unrest_hint _ _ := Nat.le_refl _

end Script

end StoreForward
