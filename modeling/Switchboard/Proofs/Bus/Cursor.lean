import Switchboard.Proofs.Bus.Stream

/-!
The cursor of a subscription.

The cursor selects the replay.  It says nothing about what is published later: workers number their
events themselves, may repeat a number and need not count upwards, and a live event reaches the
reader whatever its number is.
-/

namespace Switchboard.Bus

variable {bus : Bus} {execution : ExecutionId} {cursor : Int} {event : Event}

theorem isAfter_of_mem_recent (member : event ∈ bus.recent execution cursor) :
    event.sequence.isAfter cursor :=
  (List.mem_filter.mp member).2

theorem published_of_accepted {capacity : Nat} {s : Subscriber} {step : Step}
    (accepted : step.accepted capacity s = some event) :
    step = .publish event ∧ event.execution = s.execution := by
  cases step with
  | publish posted =>
      simp only [Step.accepted] at accepted
      split at accepted
      · rename_i taken
        cases accepted
        have reached := taken.1
        simp only [reaches, Bool.and_eq_true, beq_iff_eq] at reached
        exact ⟨rfl, reached.2.symm⟩
      · contradiction
  | move => contradiction

theorem published_of_mem_accepted {number : Nat} {s : Subscriber} {steps : List Step}
    (found : bus.find? number = some s)
    (member : event ∈ bus.history Step.accepted number steps) :
    .publish event ∈ steps ∧ event.execution = s.execution := by
  induction steps generalizing bus s with
  | nil => contradiction
  | cons step steps ih =>
      simp only [history, found, Option.bind_some] at member
      rcases List.mem_append.mp member with now | later
      · have accepted : step.accepted bus.queueCapacity s = some event := Option.mem_toList.mp now
        obtain ⟨rfl, same⟩ := published_of_accepted accepted
        exact ⟨List.mem_cons_self, same⟩
      · obtain ⟨published, same⟩ := ih (find?_apply step found) later
        rw [(step.onSubscriber_eq bus.queueCapacity s).2.1] at same
        exact ⟨List.mem_cons_of_mem _ published, same⟩

/-- How far a subscription keeps to its cursor: what it delivers is a first part of the replay, all of
it after the cursor, and then events that were published for its execution after it was made. -/
theorem replay_keeps_to_cursor (ring queue : Nat) (before later : List Step)
    (execution : ExecutionId) (cursor : Int) (parent : Option String) :
    let bus := (create ring queue).run before
    let number := (bus.subscribe execution cursor parent).1
    let start := (bus.subscribe execution cursor parent).2
    ∃ replayed live, start.history Step.received number later = replayed ++ live ∧
      replayed <+: bus.recent execution cursor ∧
      (∀ event ∈ replayed, event.sequence.isAfter cursor) ∧
      ∀ event ∈ live, .publish event ∈ later ∧ event.execution = execution := by
  intro bus number start
  have numbered : bus.Numbered := numbered_run (numbered_create ring queue) before
  have found := find?_subscribe numbered execution cursor parent
  obtain ⟨s, -, streams⟩ := streams_subscribe numbered execution cursor parent later
  have inOrder : start.history Step.received number later <+:
      bus.recent execution cursor ++ start.history Step.accepted number later :=
    (List.prefix_append _ _).trans streams.inOrder
  have cut := List.prefix_iff_eq_take.mp inOrder
  rw [List.take_append] at cut
  refine ⟨_, _, cut, List.take_prefix _ _, ?_, ?_⟩
  · intro event replayed
    exact isAfter_of_mem_recent (List.mem_of_mem_take replayed)
  · intro event live
    exact published_of_mem_accepted found (List.mem_of_mem_take live)

/-- The steps by which an event published now comes to the reader of an idle subscription. -/
def passage (number : Nat) (event : Event) : List Step :=
  [.publish event, .move (.forward number), .move (.forward number), .move (.read number)]

theorem received_passage {number : Nat} {s : Subscriber} (found : bus.find? number = some s)
    (same : s.number = number) (reached : reaches event.execution s) (room : 0 < bus.queueCapacity)
    (idle : s.running ∧ s.held ∧ ¬ s.cancelled ∧ s.replay = [] ∧ s.queue = [] ∧ s.hand = none ∧
      s.slot = none) :
    bus.history Step.received number (passage number event) = [event] := by
  obtain ⟨running, held, going, replay, queue, hand, slot⟩ := idle
  have queued := find?_apply (.publish event) found
  have inHand := find?_apply (.move (.forward number)) queued
  have inSlot := find?_apply (.move (.forward number)) inHand
  simp only [passage, history, found, queued, inHand, inSlot, Option.bind_some]
  simp [Step.received, Step.onSubscriber, reached, Subscriber.offer, room, same, Subscriber.step?,
    running, held, going, replay, queue, hand, slot, Subscriber.read, Subscriber.Reading.event?]

/-- A live event is delivered whatever the cursor of the subscription was. -/
theorem live_event_passes (ring queue : Nat) (cursor : Int) (event : Event) :
    ((create ring queue).subscribe event.execution cursor none).2.history Step.received 0
      (passage 0 event) = [event] := by
  have found := find?_subscribe (numbered_create ring queue) event.execution cursor none
  have room : 0 < max queue 1 := by omega
  refine received_passage found rfl ?_ room ⟨rfl, rfl, by simp, rfl, rfl, rfl, rfl⟩
  simp [reaches]

/-- The cursor is not kept for the whole life of a subscription: after cursor 5 an event with number 3
arrives. -/
theorem cursor_is_passed_by_live_events :
    ¬ ∀ (ring queue : Nat) (before later : List Step) (execution : ExecutionId) (cursor : Int)
        (parent : Option String),
      let bus := (create ring queue).run before
      let number := (bus.subscribe execution cursor parent).1
      let start := (bus.subscribe execution cursor parent).2
      ∀ event ∈ start.history Step.received number later, ∀ position : UInt64,
        event.sequence = .ordinal position → cursor < position.toNat := by
  intro kept
  let event : Event := ⟨"e1", none, .ordinal 3, "", "text_delta", .null⟩
  have arrives : event ∈ ((create 1 1).subscribe event.execution 5 none).2.history Step.received 0
      (passage 0 event) := by
    rw [live_event_passes]
    exact List.mem_singleton_self _
  have late : (5 : Int) < (3 : UInt64).toNat :=
    kept 1 1 [] (passage 0 event) "e1" 5 none event arrives 3 rfl
  exact absurd late (by decide)

end Switchboard.Bus
