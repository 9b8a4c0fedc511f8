import Switchboard.Event

/-!
One subscription to an execution.

An event reaches its reader through four places: the replay (what was in the ring at the moment of
subscribing) and the live queue, then the hand of the forwarder, then the slot in front of the
reader.  `step?` is one move of the forwarder.  Every move brings an event nearer to the reader or
ends the forwarder, so the moves come to rest; `settle` makes them all.
-/

namespace Switchboard

structure Subscriber where
  number : Nat
  execution : ExecutionId
  /-- A token whose cancellation ends the subscription too. -/
  parent : Option String
  replay : List Event
  queue : List Event := []
  hand : Option Event := none
  slot : Option Event := none
  /-- Whether publishing offers events to it. -/
  registered : Bool := true
  cancelled : Bool
  /-- Whether the reader still holds the stream. -/
  held : Bool := true
  running : Bool := true
  dropped : Nat := 0
deriving Repr, Inhabited

namespace Subscriber

/-- Offers a live event: it is queued if there is room and dropped otherwise. -/
def offer (capacity : Nat) (event : Event) (s : Subscriber) : Subscriber :=
  if s.queue.length < capacity then { s with queue := s.queue ++ [event] }
  else { s with dropped := s.dropped + 1 }

/-- The forwarder ends: what has not reached the slot is lost, and the subscription is gone from
the bus before the reader can see the end. -/
def exit (s : Subscriber) : Subscriber :=
  { s with replay := [], queue := [], hand := none, registered := false, running := false }

/-- One move of the forwarder, if it can make one.  A cancellation goes before everything else. -/
def step? (s : Subscriber) : Option Subscriber :=
  if !s.running then none
  else if s.cancelled then some s.exit
  else
    match s.hand with
    | some event =>
      if !s.held then some s.exit
      else if s.slot.isNone then some { s with hand := none, slot := some event }
      else none
    | none =>
      match s.replay with
      | event :: rest => some { s with hand := some event, replay := rest }
      | [] =>
        if !s.held then some s.exit
        else
          match s.queue with
          | event :: rest => some { s with hand := some event, queue := rest }
          | [] => if s.registered then none else some s.exit

/-- An upper bound of the moves that are left. -/
def weight (s : Subscriber) : Nat :=
  2 * (s.replay.length + s.queue.length) + (if s.hand.isSome then 1 else 0) +
    (if s.running then 1 else 0)

theorem weight_lt_of_step? {s next : Subscriber} (moved : s.step? = some next) :
    next.weight < s.weight := by
  unfold step? at moved
  split at moved
  · contradiction
  rename_i running
  split at moved
  · cases moved
    cases h : s.running <;> simp_all [weight, exit]
  split at moved
  · split at moved
    · cases moved
      cases h : s.running <;> simp_all [weight, exit]
    · split at moved
      · cases moved
        simp_all [weight]
      · contradiction
  · split at moved
    · cases moved
      simp_all [weight]
      omega
    · split at moved
      · cases moved
        cases h : s.running <;> simp_all [weight, exit]
      · split at moved
        · cases moved
          simp_all [weight]
          omega
        · split at moved
          · contradiction
          · cases moved
            cases h : s.running <;> simp_all [weight, exit]

/-- All the moves that are left. -/
def settle (s : Subscriber) : Subscriber :=
  match _ : s.step? with
  | some next => next.settle
  | none => s
termination_by s.weight
decreasing_by exact weight_lt_of_step? ‹_›

inductive Reading where
  | event (event : Event)
  | nothing
  | ended
deriving Repr, Inhabited

/-- The reader takes the event in the slot.  The end shows only after the forwarder has ended and
the slot is empty. -/
def read (s : Subscriber) : Reading × Subscriber :=
  match s.slot with
  | some event => (.event event, { s with slot := none })
  | none => (if s.running then .nothing else .ended, s)

/-- Ends the subscription at the reader's request. -/
def cancel (s : Subscriber) : Subscriber := { s with cancelled := true, registered := false }

def cancelByParent (s : Subscriber) : Subscriber := { s with cancelled := true }

def drop (s : Subscriber) : Subscriber := { s with held := false, slot := none }

end Subscriber

end Switchboard
