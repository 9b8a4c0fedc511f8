import Switchboard.Proofs.Bus.Ring

/-!
What the bus does not look at.

Of an event the bus reads the execution and, for a replay, the place in the stream; of the number of
a subscription it asks only whether a step is meant for it.  Events may be altered in all other
respects and subscriptions numbered anew, and every step does the same.
-/

namespace Switchboard

namespace Subscriber

variable {s : Subscriber} {number : Nat} {f : Event → Event}

/-- The same subscription under another number and with altered events. -/
def relabel (number : Nat) (f : Event → Event) (s : Subscriber) : Subscriber :=
  { s with
    number := number
    replay := s.replay.map f
    queue := s.queue.map f
    hand := s.hand.map f
    slot := s.slot.map f }

theorem offer_relabel {capacity : Nat} {event : Event} :
    (s.relabel number f).offer capacity (f event) = (s.offer capacity event).relabel number f := by
  by_cases room : s.queue.length < capacity <;> simp [offer, relabel, room]

theorem step?_relabel : (s.relabel number f).step? = s.step?.map (relabel number f) := by
  cases running : s.running with
  | false => simp [step?, relabel, running]
  | true =>
      cases cancelled : s.cancelled with
      | true => simp [step?, relabel, running, cancelled, exit]
      | false =>
          cases inHand : s.hand with
          | some event =>
              cases held : s.held <;> cases full : s.slot <;>
                simp [step?, relabel, running, cancelled, inHand, held, full, exit]
          | none =>
              cases replayed : s.replay with
              | cons event rest => simp [step?, relabel, running, cancelled, inHand, replayed]
              | nil =>
                  cases held : s.held <;> cases waiting : s.queue <;>
                    cases registered : s.registered <;>
                    simp [step?, relabel, running, cancelled, inHand, replayed, held, waiting,
                      registered, exit]

def Reading.map (f : Event → Event) : Reading → Reading
  | .event posted => .event (f posted)
  | .nothing => .nothing
  | .ended => .ended

theorem read_relabel :
    (s.relabel number f).read = (s.read.1.map f, s.read.2.relabel number f) := by
  cases full : s.slot with
  | some event => simp [read, relabel, full, Reading.map]
  | none => cases running : s.running <;> simp [read, relabel, full, running, Reading.map]

end Subscriber

namespace Bus

/-- The subscription a step is meant for, if it is meant for one. -/
def Step.addressee : Step → Option Nat
  | .move (.forward number) | .move (.read number) | .move (.dropStream number)
  | .move (.cancel number) => some number
  | .publish _ | .move (.subscribe _ _ _) | .move (.cancelToken _) => none

def Move.renumber (numbering : Nat → Nat) : Move → Move
  | .subscribe execution cursor parent => .subscribe execution cursor parent
  | .forward number => .forward (numbering number)
  | .read number => .read (numbering number)
  | .dropStream number => .dropStream (numbering number)
  | .cancel number => .cancel (numbering number)
  | .cancelToken token => .cancelToken token

def Step.relabel (numbering : Nat → Nat) (f : Event → Event) : Step → Step
  | .publish event => .publish (f event)
  | .move m => .move (m.renumber numbering)

variable {s : Subscriber} {step : Step} {numbering : Nat → Nat} {f : Event → Event} {capacity : Nat}

theorem Step.onSubscriber_of_addressee {number : Nat} (meant : step.addressee = some number)
    (other : s.number ≠ number) : step.onSubscriber capacity s = s := by
  cases step with
  | publish event => contradiction
  | move move =>
      cases move with
      | subscribe | cancelToken => contradiction
      | forward | read | dropStream | cancel =>
          cases meant
          exact if_neg other

theorem Step.onSubscriber_relabel (execution : ∀ event, (f event).execution = event.execution)
    (meant : ∀ number, step.addressee = some number →
      (numbering s.number = numbering number ↔ s.number = number)) :
    (step.relabel numbering f).onSubscriber capacity (s.relabel (numbering s.number) f) =
      (step.onSubscriber capacity s).relabel (numbering s.number) f := by
  cases step with
  | publish event =>
      have reached : reaches (f event).execution (s.relabel (numbering s.number) f) =
          reaches event.execution s := by
        rw [execution]
        rfl
      simp only [relabel, onSubscriber, reached]
      split
      · exact Subscriber.offer_relabel
      · rfl
  | move move =>
      cases move with
      | subscribe => rfl
      | cancelToken token =>
          have under : (s.relabel (numbering s.number) f).parent = s.parent := rfl
          simp only [relabel, Move.renumber, onSubscriber, under]
          split <;> rfl
      | forward number =>
          have hit : (s.relabel (numbering s.number) f).number = numbering number ↔
              s.number = number := meant number rfl
          simp only [relabel, Move.renumber, onSubscriber, hit, Subscriber.step?_relabel]
          split
          · cases s.step? <;> rfl
          · rfl
      | read number =>
          have hit : (s.relabel (numbering s.number) f).number = numbering number ↔
              s.number = number := meant number rfl
          simp only [relabel, Move.renumber, onSubscriber, hit, Subscriber.read_relabel]
          split <;> rfl
      | dropStream number =>
          have hit : (s.relabel (numbering s.number) f).number = numbering number ↔
              s.number = number := meant number rfl
          simp only [relabel, Move.renumber, onSubscriber, hit]
          split <;> rfl
      | cancel number =>
          have hit : (s.relabel (numbering s.number) f).number = numbering number ↔
              s.number = number := meant number rfl
          simp only [relabel, Move.renumber, onSubscriber, hit]
          split <;> rfl

/-- The same bus with altered events. -/
def altered (f : Event → Event) (bus : Bus) : Bus :=
  { bus with
    rings := bus.rings.map fun entry => (entry.1, entry.2.map f)
    subscribers := bus.subscribers.map fun s => s.relabel s.number f }

variable {bus : Bus} {event : Event}

theorem lookupRing_altered {execution : ExecutionId} {rings : List (ExecutionId × List Event)} :
    lookupRing execution (rings.map fun entry => (entry.1, entry.2.map f)) =
      (lookupRing execution rings).map f := by
  induction rings with
  | nil => rfl
  | cons entry rings ih =>
      simp only [List.map_cons, lookupRing, ih]
      split <;> rfl

theorem storeRing_altered {execution : ExecutionId} {events : List Event}
    {rings : List (ExecutionId × List Event)} :
    storeRing execution (events.map f) (rings.map fun entry => (entry.1, entry.2.map f)) =
      (storeRing execution events rings).map fun entry => (entry.1, entry.2.map f) := by
  induction rings with
  | nil => rfl
  | cons entry rings ih =>
      simp only [List.map_cons, storeRing, ih]
      split <;> rfl

theorem ring_altered (execution : ExecutionId) :
    (bus.altered f).ring execution = (bus.ring execution).map f :=
  lookupRing_altered

theorem keepLatest_map (capacity : Nat) (events : List Event) :
    keepLatest capacity (events.map f) = (keepLatest capacity events).map f := by
  rw [keepLatest, keepLatest, List.length_map, List.map_drop]

theorem recent_altered (sequence : ∀ event, (f event).sequence = event.sequence)
    (execution : ExecutionId) (cursor : Int) :
    (bus.altered f).recent execution cursor = (bus.recent execution cursor).map f := by
  have same : (fun event : Event => event.sequence.isAfter cursor) ∘ f =
      fun event => event.sequence.isAfter cursor := by
    funext event
    rw [Function.comp_apply, sequence]
  rw [recent, recent, ring_altered, List.filter_map, same]

theorem Step.onSubscriber_relabel_id (execution : ∀ event, (f event).execution = event.execution) :
    (step.relabel id f).onSubscriber capacity (s.relabel s.number f) =
      (step.onSubscriber capacity s).relabel s.number f :=
  Step.onSubscriber_relabel execution fun _ _ => Iff.rfl

theorem subscribers_altered (execution : ∀ event, (f event).execution = event.execution)
    (sequence : ∀ event, (f event).sequence = event.sequence) (bus : Bus) (step : Step) :
    ((step.apply bus).altered f).subscribers =
      ((step.relabel id f).apply (bus.altered f)).subscribers := by
  have old : (bus.subscribers.map fun s => step.onSubscriber bus.queueCapacity s).map
        (fun s => s.relabel s.number f) =
      (bus.subscribers.map fun s => s.relabel s.number f).map
        fun s => (step.relabel id f).onSubscriber bus.queueCapacity s := by
    rw [List.map_map, List.map_map]
    refine List.map_congr_left fun s _ => ?_
    rw [Function.comp_apply, Function.comp_apply, Step.number_onSubscriber,
      Step.onSubscriber_relabel_id execution]
  have new : (step.newSubscribers bus).map (fun s => s.relabel s.number f) =
      (step.relabel id f).newSubscribers (bus.altered f) := by
    cases step with
    | publish => rfl
    | move move =>
        cases move with
        | subscribe execution cursor parent =>
            have count : (bus.altered f).subscribers.length = bus.subscribers.length :=
              List.length_map _
            simp only [Step.newSubscribers, Step.relabel, Move.renumber, recent_altered sequence, count]
            rfl
        | _ => rfl
  rw [subscribers_apply, ← new]
  simp only [altered, subscribers_apply, List.map_append, old]

theorem altered_publish (execution : ∀ event, (f event).execution = event.execution)
    (sequence : ∀ event, (f event).sequence = event.sequence) :
    (bus.publish event).altered f = (bus.altered f).publish (f event) := by
  have subscribers : ((bus.publish event).altered f).subscribers =
      ((bus.altered f).publish (f event)).subscribers :=
    subscribers_altered execution sequence bus (.publish event)
  have rings : ((bus.publish event).altered f).rings = ((bus.altered f).publish (f event)).rings := by
    have ring : keepLatest bus.ringCapacity ((bus.altered f).ring event.execution ++ [f event]) =
        (keepLatest bus.ringCapacity (bus.ring event.execution ++ [event])).map f := by
      rw [ring_altered, ← List.map_singleton, ← List.map_append, keepLatest_map]
    simp only [altered, publish, execution]
    exact ring ▸ storeRing_altered.symm
  have dropped : (bus.publish event).dropped = ((bus.altered f).publish (f event)).dropped := by
    have reached : reaches (f event).execution ∘ (fun s => s.relabel s.number f) =
        reaches event.execution := by
      funext s
      rw [execution]
      rfl
    have waiting (s : Subscriber) : (s.relabel s.number f).queue.length = s.queue.length :=
      List.length_map _
    simp only [publish, altered, List.filter_map, reached, List.length_map, Function.comp_def, waiting]
  calc (bus.publish event).altered f
    _ = { bus with
          rings := ((bus.publish event).altered f).rings
          subscribers := ((bus.publish event).altered f).subscribers
          dropped := (bus.publish event).dropped } := rfl
    _ = (bus.altered f).publish (f event) := by
      rw [rings, subscribers, dropped]
      rfl

/-- Of a move the altered bus shows the same as the bus itself. -/
theorem altered_move (execution : ∀ event, (f event).execution = event.execution)
    (sequence : ∀ event, (f event).sequence = event.sequence) (move : Move) :
    (move.apply bus).altered f = move.apply (bus.altered f) := by
  have same : move.renumber id = move := by cases move <;> rfl
  have subscribers : ((move.apply bus).altered f).subscribers =
      (move.apply (bus.altered f)).subscribers := by
    have all := subscribers_altered execution sequence bus (.move move)
    rwa [Step.relabel, same] at all
  obtain ⟨moved, left⟩ := move.apply_eq bus
  obtain ⟨moved', right⟩ := move.apply_eq (bus.altered f)
  rw [left, right] at subscribers ⊢
  have relabelled : moved.map (fun s => s.relabel s.number f) = moved' := subscribers
  rw [← relabelled]
  rfl

theorem read_altered (number : Nat) :
    ((bus.altered f).read number).1 = (bus.read number).1.map f := by
  have found : (bus.altered f).find? number =
      (bus.find? number).map fun s => s.relabel s.number f := by
    rw [find?, altered, List.find?_map]
    rfl
  rw [Bus.read, Bus.read, found]
  cases bus.find? number with
  | none => rfl
  | some s =>
      simp only [Option.map_some]
      rw [Subscriber.read_relabel]

end Bus

end Switchboard
