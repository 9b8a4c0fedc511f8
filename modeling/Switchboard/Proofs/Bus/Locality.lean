import Switchboard.Proofs.Bus.Ring

/-!
The streams of a bus.

A ring belongs to one execution, and so does a subscription.  What is published for one execution does
not show in the stream of another: a stream is made by its own events in their order, whatever else
is published in between.
-/

namespace Switchboard.Bus

/-- What a bus has for the readers of one execution. -/
structure Stream where
  ring : List Event
  subscribers : List Subscriber

def stream (execution : ExecutionId) (bus : Bus) : Stream :=
  ⟨bus.ring execution, bus.subscribers.filter (·.execution = execution)⟩

def Stream.publish (ringCapacity queueCapacity : Nat) (stream : Stream) (event : Event) : Stream where
  ring := keepLatest ringCapacity (stream.ring ++ [event])
  subscribers := stream.subscribers.map fun s =>
    if s.registered then s.offer queueCapacity event else s

variable {bus : Bus} {execution : ExecutionId} {event : Event} {events : List Event}

theorem stream_publish :
    (bus.publish event).stream execution =
      if event.execution = execution then
        (bus.stream execution).publish bus.ringCapacity bus.queueCapacity event
      else bus.stream execution := by
  have subscribers : (bus.publish event).subscribers.filter (·.execution = execution) =
      (bus.subscribers.filter (·.execution = execution)).map fun s =>
        (Step.publish event).onSubscriber bus.queueCapacity s := by
    have own : (fun s : Subscriber => decide (s.execution = execution)) ∘
        (fun s => (Step.publish event).onSubscriber bus.queueCapacity s) =
          fun s => decide (s.execution = execution) := by
      funext s
      have same := ((Step.publish event).onSubscriber_eq bus.queueCapacity s).2.1
      simp only [Function.comp_apply, same]
    have published : (bus.publish event).subscribers = bus.subscribers.map fun s =>
        (Step.publish event).onSubscriber bus.queueCapacity s :=
      (subscribers_apply bus (.publish event)).trans (List.append_nil _)
    rw [published, List.filter_map, own]
  by_cases about : event.execution = execution
  · rw [if_pos about, stream, ring_publish, if_pos about, subscribers, Stream.publish, stream]
    refine congrArg (Stream.mk _) (List.map_congr_left fun s member => ?_)
    have own : s.execution = execution := by simpa using (List.mem_filter.mp member).2
    simp [Step.onSubscriber, reaches, own, about]
  · rw [if_neg about, stream, ring_publish, if_neg about, subscribers, stream]
    refine congrArg (Stream.mk _) ((List.map_congr_left fun s member => ?_).trans (List.map_id _))
    have own : s.execution = execution := by simpa using (List.mem_filter.mp member).2
    have apart : execution ≠ event.execution := Ne.symm about
    simp [Step.onSubscriber, reaches, own, apart]

/-- A stream is made by the events of its execution. -/
theorem stream_publishAll :
    (bus.publishAll events).stream execution =
      (events.filter (·.execution = execution)).foldl
        (Stream.publish bus.ringCapacity bus.queueCapacity) (bus.stream execution) := by
  induction events generalizing bus with
  | nil => rfl
  | cons event events ih =>
      have step : bus.publishAll (event :: events) = (bus.publish event).publishAll events := rfl
      have ringCapacity : (bus.publish event).ringCapacity = bus.ringCapacity := rfl
      have queueCapacity : (bus.publish event).queueCapacity = bus.queueCapacity := rfl
      rw [step, ih, ringCapacity, queueCapacity, stream_publish]
      by_cases about : event.execution = execution
      · rw [if_pos about, List.filter_cons_of_pos (by simpa using about), List.foldl_cons]
      · rw [if_neg about, List.filter_cons_of_neg (by simpa using about)]

theorem stream_publishAll_of_filter {events' : List Event}
    (same : events.filter (·.execution = execution) = events'.filter (·.execution = execution)) :
    (bus.publishAll events).stream execution = (bus.publishAll events').stream execution := by
  rw [stream_publishAll, stream_publishAll, same]

theorem stream_publishAll_of_others (others : ∀ event ∈ events, event.execution ≠ execution) :
    (bus.publishAll events).stream execution = bus.stream execution := by
  have none : events.filter (·.execution = execution) = [] := by simpa using others
  rw [stream_publishAll, none, List.foldl_nil]

end Switchboard.Bus
