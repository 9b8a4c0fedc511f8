import Switchboard.Bus.Subscriber

/-!
The bus: for each execution a ring of its latest events, and the subscriptions.

Publishing never waits.  It puts the event into the ring, from which the oldest event falls once
the ring is full, and offers it to every registered subscriber of the execution.  Subscribing copies
the ring and registers in one step, so no event falls between the replay and the live queue.
-/

namespace Switchboard

structure Bus where
  ringCapacity : Nat
  queueCapacity : Nat
  /-- The ring of each execution that has had an event, oldest event first. -/
  rings : List (ExecutionId × List Event) := []
  /-- All subscriptions ever made, by number. -/
  subscribers : List Subscriber := []
  cancelledTokens : List String := []
  /-- Events dropped for any subscriber. -/
  dropped : Nat := 0
deriving Repr, Inhabited

namespace Bus

/-- A bus whose ring and queues hold one event at least. -/
def create (ring queue : Nat) : Bus := { ringCapacity := max ring 1, queueCapacity := max queue 1 }

def lookupRing (execution : ExecutionId) : List (ExecutionId × List Event) → List Event
  | [] => []
  | (e, events) :: rest => if e = execution then events else lookupRing execution rest

def storeRing (execution : ExecutionId) (events : List Event) :
    List (ExecutionId × List Event) → List (ExecutionId × List Event)
  | [] => [(execution, events)]
  | (e, old) :: rest =>
    if e = execution then (e, events) :: rest else (e, old) :: storeRing execution events rest

def ring (bus : Bus) (execution : ExecutionId) : List Event := lookupRing execution bus.rings

def keepLatest (capacity : Nat) (events : List Event) : List Event :=
  events.drop (events.length - capacity)

/-- Whether publishing for an execution reaches a subscriber. -/
def reaches (execution : ExecutionId) (s : Subscriber) : Bool :=
  s.registered && s.execution == execution

def publish (event : Event) (bus : Bus) : Bus :=
  let hit := bus.subscribers.filter (reaches event.execution)
  let full := hit.filter fun s => !(s.queue.length < bus.queueCapacity)
  { bus with
    rings := storeRing event.execution
      (keepLatest bus.ringCapacity (bus.ring event.execution ++ [event])) bus.rings
    subscribers := bus.subscribers.map fun s =>
      if reaches event.execution s then s.offer bus.queueCapacity event else s
    dropped := bus.dropped + full.length }

def publishAll (events : List Event) (bus : Bus) : Bus :=
  events.foldl (fun bus event => bus.publish event) bus

/-- The buffered events that a client at `cursor` still needs. -/
def recent (bus : Bus) (execution : ExecutionId) (cursor : Int) : List Event :=
  (bus.ring execution).filter (·.sequence.isAfter cursor)

/-- A new subscription and its number.  The cursor selects the replay; live events all arrive. -/
def subscribe (execution : ExecutionId) (cursor : Int) (parent : Option String) (bus : Bus) :
    Nat × Bus :=
  let s : Subscriber :=
    { number := bus.subscribers.length
      execution := execution
      parent := parent
      replay := bus.recent execution cursor
      cancelled := parent.any (· ∈ bus.cancelledTokens) }
  (s.number, { bus with subscribers := bus.subscribers ++ [s] })

def find? (bus : Bus) (number : Nat) : Option Subscriber :=
  bus.subscribers.find? (·.number == number)

def modify (number : Nat) (change : Subscriber → Subscriber) (bus : Bus) : Bus :=
  { bus with subscribers := bus.subscribers.map fun s => if s.number = number then change s else s }

def forward (number : Nat) (bus : Bus) : Bus :=
  bus.modify number fun s => s.step?.getD s

def settle (bus : Bus) : Bus := { bus with subscribers := bus.subscribers.map Subscriber.settle }

def read (number : Nat) (bus : Bus) : Subscriber.Reading × Bus :=
  match bus.find? number with
  | some s => (s.read.1, bus.modify number fun s => s.read.2)
  | none => (.ended, bus)

def cancel (number : Nat) (bus : Bus) : Bus := bus.modify number Subscriber.cancel

def dropStream (number : Nat) (bus : Bus) : Bus := bus.modify number Subscriber.drop

/-- Cancels a token, and with it all subscriptions under it, also later ones. -/
def cancelToken (token : String) (bus : Bus) : Bus :=
  { bus with
    cancelledTokens := token :: bus.cancelledTokens
    subscribers := bus.subscribers.map fun s =>
      if s.parent = some token then s.cancelByParent else s }

def subscriberCount (bus : Bus) (execution : ExecutionId) : Nat :=
  (bus.subscribers.filter (reaches execution)).length

end Bus

end Switchboard
