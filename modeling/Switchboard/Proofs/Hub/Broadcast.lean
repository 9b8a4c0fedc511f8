import Switchboard.Proofs.Bus.Origin
import Switchboard.Proofs.Hub.Arrival
import Switchboard.Proofs.Hub.Call

/-!
Who speaks on the bus of a hub.

An event is published by an operation: the hub announces a cancellation, a failed dispatch, a timeout
or a decision, or it passes on what a worker has posted.  The hub keeps to the numbers below zero.
Workers are not kept out of them: the number that a worker gives is taken as it comes.
-/

namespace Switchboard

/-- Whether an event can be seen on a bus: in a ring, or as the next that a reader takes. -/
def Bus.Exposes (bus : Bus) (event : Event) : Prop :=
  (∃ execution, event ∈ bus.ring execution) ∨ ∃ number, (bus.read number).1 = .event event

theorem Bus.Carries.of_exposes {bus : Bus} {Shows : ExecutionId → Event → Prop} {event : Event}
    (carries : bus.Carries Shows) (exposed : bus.Exposes event) :
    ∃ execution, Shows execution event := by
  rcases exposed with ⟨execution, member⟩ | ⟨number, taken⟩
  · exact ⟨execution, carries.rings execution event member⟩
  · unfold read at taken
    cases found : bus.find? number with
    | none =>
        rw [found] at taken
        contradiction
    | some s =>
        rw [found] at taken
        exact ⟨s.execution, carries.of_read found taken⟩

/-- The form of the hub's own events: a notice of what has happened, or the end of a stream. -/
inductive Event.Control (event : Event) : Prop where
  | notice (place : event.sequence = .notice)
      (named : event.type = EventType.cancelled ∨ event.type = EventType.error ∨
        event.type = EventType.confirmationDecision)
  | ending (place : event.sequence = .terminal) (named : event.type = EventType.done)

theorem Event.Control.isSynthetic {event : Event} (control : event.Control) :
    event.sequence.isSynthetic := by
  cases control with
  | notice place | ending place =>
      rw [place]
      rfl

theorem Bus.run_publish (bus : Bus) (events : List Event) :
    bus.run (events.map .publish) = bus.publishAll events := by
  rw [run, List.foldl_map]
  rfl

namespace Operation

variable (w : World) (h : Hub)

/-- The events that an operation announces in the hub's own name. -/
def announced : Operation → List Event
  | .ingest _ _ => []
  | operation => operation.published w h

/-- What an operation does to the bus. -/
def busSteps : Operation → List Bus.Step
  | .listen move => [.move move]
  | operation => (operation.published w h).map .publish

end Operation

namespace Hub

variable {w : World} {h : Hub} {row : Execution} {event : Event}

theorem of_recoveryPosts (told : event ∈ h.recoveryPosts w row) :
    event.Control ∧ event.execution = row.execution ∧ event.trace = some row.trace := by
  unfold recoveryPosts timeoutPosts at told
  split at told
  · rcases List.mem_cons.mp told with rfl | told
    · exact ⟨.notice rfl (.inr (.inl rfl)), rfl, rfl⟩
    · cases List.mem_singleton.mp told
      exact ⟨.ending rfl rfl, rfl, rfl⟩
  · contradiction

theorem of_sweepPosts {rows : List Execution} (told : event ∈ h.sweepPosts w rows) :
    ∃ row ∈ rows, event.Control ∧ event.execution = row.execution ∧ event.trace = some row.trace := by
  induction rows generalizing h with
  | nil => contradiction
  | cons row rows ih =>
      rcases List.mem_append.mp told with first | later
      · exact ⟨row, List.mem_cons_self, of_recoveryPosts first⟩
      · obtain ⟨other, member, about⟩ := ih later
        exact ⟨other, List.mem_cons_of_mem row member, about⟩

end Hub

namespace Operation

variable {w : World} {h : Hub} {operation : Operation} {event : Event}

theorem control_of_announced (told : event ∈ operation.announced w h) : event.Control := by
  cases operation with
  | answerDispatch execution outcome =>
      cases outcome with
      | ok => contradiction
      | error reason =>
          simp only [announced, published] at told
          split at told
          · cases List.mem_singleton.mp told
            exact .notice rfl (.inr (.inl rfl))
          · contradiction
  | cancel workspace execution =>
      simp only [announced, published] at told
      split at told
      · cases List.mem_singleton.mp told
        exact .notice rfl (.inl rfl)
      · contradiction
  | decide execution call answer user =>
      simp only [announced, published] at told
      split at told
      · cases List.mem_singleton.mp told
        exact .notice rfl (.inr (.inr rfl))
      · contradiction
  | sweep seconds nanos =>
      simp only [announced, published] at told
      split at told
      · obtain ⟨_, -, control, -⟩ := Hub.of_sweepPosts told
        exact control
      · contradiction
  | _ => contradiction

theorem of_posts (undisturbed : h.db.Undisturbed) (told : event ∈ operation.posts w h) :
    ∃ execution raws, operation = .ingest execution raws ∧
      ∃ raw ∈ raws, ∃ trace now, event = raw.toEvent execution trace now := by
  cases operation with
  | ingest execution raws =>
      refine ⟨execution, raws, rfl, ?_⟩
      simp only [posts] at told
      rcases outcome : h.transact w (Hub.takeBatch execution raws) with ⟨e | batch, after⟩
      · rw [Hub.posts_of_error outcome] at told
        contradiction
      · obtain ⟨row, taken, -, about, -, -, fresh, -⟩ := Hub.of_batch_eq_ok undisturbed outcome
        rw [Hub.posts_of_ok outcome, fresh] at told
        have from_raws : ∀ event ∈ taken.map (·.1),
            ∃ raw ∈ raws, ∃ trace now, event = raw.toEvent execution trace now :=
          Hub.forall_of_posted about fun raw member now => ⟨raw, member, row.traceIfAny, now, rfl⟩
        exact from_raws event (Event.unseen_sublist.subset told)
  | _ => contradiction

theorem published_of_mem_busSteps (step : .publish event ∈ operation.busSteps w h) :
    event ∈ operation.published w h := by
  cases operation with
  | listen move => simp [busSteps] at step
  | _ => simpa [busSteps] using step

theorem of_publish_mem_busSteps (step : .publish event ∈ operation.busSteps w h) :
    event ∈ operation.announced w h ∨ event ∈ operation.posts w h := by
  have told := published_of_mem_busSteps step
  cases operation with
  | ingest => exact .inr told
  | _ => exact .inl told

theorem bus_apply_eq_run : (operation.apply w h).bus = h.bus.run (operation.busSteps w h) := by
  cases operation with
  | listen move => rfl
  | _ =>
      rw [bus_apply _ (by simp), ← Bus.run_publish]
      rfl

end Operation

namespace Hub

variable {w : World} {h : Hub} {operations : List Operation} {event : Event}

/-- The events that a hub announces in its own name in a run, in order. -/
def announced (w : World) : Hub → List Operation → List Event
  | _, [] => []
  | h, operation :: operations =>
    operation.announced w h ++ announced w (operation.apply w h) operations

/-- What a run does to the bus. -/
def busSteps (w : World) : Hub → List Operation → List Bus.Step
  | _, [] => []
  | h, operation :: operations =>
    operation.busSteps w h ++ busSteps w (operation.apply w h) operations

/-- The bus of a hub is that of a run of its own. -/
theorem bus_run : (h.run w operations).bus = h.bus.run (h.busSteps w operations) := by
  induction operations generalizing h with
  | nil => rfl
  | cons operation operations ih =>
      calc (h.run w (operation :: operations)).bus
        _ = ((operation.apply w h).run w operations).bus := rfl
        _ = (operation.apply w h).bus.run ((operation.apply w h).busSteps w operations) := ih
        _ = (h.bus.run (operation.busSteps w h)).run
              ((operation.apply w h).busSteps w operations) := by
          rw [Operation.bus_apply_eq_run]
        _ = h.bus.run (h.busSteps w (operation :: operations)) := List.foldl_append.symm

/-- What all events show that a run publishes is shown by all that are found on its bus. -/
theorem carries_run {limit ring queue : Nat} {Shows : ExecutionId → Event → Prop}
    (shows : ∀ event, .publish event ∈ (create limit ring queue).busSteps w operations →
      Shows event.execution event) :
    ((create limit ring queue).run w operations).bus.Carries Shows := by
  have same : ((create limit ring queue).run w operations).bus =
      (Bus.create ring queue).run ((create limit ring queue).busSteps w operations) := bus_run
  rw [same]
  exact Bus.carries_run (Bus.carries_create ring queue) shows

theorem of_publish_mem_busSteps (step : .publish event ∈ h.busSteps w operations) :
    event ∈ h.announced w operations ∨ event ∈ h.posted w operations := by
  induction operations generalizing h with
  | nil => contradiction
  | cons operation operations ih =>
      rw [announced, posted, List.mem_append, List.mem_append]
      rcases List.mem_append.mp step with now | later
      · exact (Operation.of_publish_mem_busSteps now).imp .inl .inl
      · exact (ih later).imp .inr .inr

theorem control_of_announced (told : event ∈ h.announced w operations) : event.Control := by
  induction operations generalizing h with
  | nil => contradiction
  | cons operation operations ih =>
      rcases List.mem_append.mp told with now | later
      · exact Operation.control_of_announced now
      · exact ih later

theorem of_posted (undisturbed : h.db.Undisturbed) (told : event ∈ h.posted w operations) :
    ∃ execution raws, .ingest execution raws ∈ operations ∧
      ∃ raw ∈ raws, ∃ trace now, event = raw.toEvent execution trace now := by
  induction operations generalizing h with
  | nil => contradiction
  | cons operation operations ih =>
      rcases List.mem_append.mp told with now | later
      · obtain ⟨execution, raws, rfl, from_raws⟩ := Operation.of_posts undisturbed now
        exact ⟨execution, raws, List.mem_cons_self, from_raws⟩
      · obtain ⟨execution, raws, member, from_raws⟩ :=
          ih ((operation.leads undisturbed).undisturbed undisturbed) later
        exact ⟨execution, raws, List.mem_cons_of_mem operation member, from_raws⟩

/-- Who speaks below zero.  Whatever can be seen on the bus after a run, in a ring or by a reader, was
announced by the hub, and then it is a notice or an end and stands below zero, or it was posted by a
worker under its number, and then it stands below zero if the number does.  If no worker posts a number
below zero, everything there is the hub's own. -/
theorem who_speaks_below_zero (w : World) (limit ring queue : Nat) (operations : List Operation) :
    let start := create limit ring queue
    let h := start.run w operations
    (∀ event, h.bus.Exposes event →
      (event ∈ start.announced w operations ∧ event.Control ∧ event.sequence.isSynthetic) ∨
      (event ∈ start.posted w operations ∧
        ∃ execution raws, .ingest execution raws ∈ operations ∧ ∃ raw ∈ raws,
          (∃ trace now, event = raw.toEvent execution trace now) ∧
            (event.sequence.isSynthetic ↔ raw.wire < 0))) ∧
    ((∀ execution raws, .ingest execution raws ∈ operations → ∀ raw ∈ raws, 0 ≤ raw.wire) →
      ∀ event, h.bus.Exposes event → event.sequence.isSynthetic →
        event ∈ start.announced w operations ∧ event ∉ start.posted w operations) := by
  intro start h
  have spoken : h.bus.Carries fun _ event =>
      event ∈ start.announced w operations ∨ event ∈ start.posted w operations :=
    carries_run fun _ => of_publish_mem_busSteps
  have passed_on : ∀ event ∈ start.posted w operations,
      ∃ execution raws, .ingest execution raws ∈ operations ∧ ∃ raw ∈ raws,
        (∃ trace now, event = raw.toEvent execution trace now) ∧
          (event.sequence.isSynthetic ↔ raw.wire < 0) := by
    intro event posted
    obtain ⟨execution, raws, member, raw, among, trace, now, rfl⟩ := of_posted undisturbed_create posted
    exact ⟨execution, raws, member, raw, among, ⟨trace, now, rfl⟩, Sequence.isSynthetic_ofWire⟩
  refine ⟨?_, ?_⟩
  · intro event exposed
    obtain ⟨_, announced | posted⟩ := spoken.of_exposes exposed
    · have control := control_of_announced announced
      exact .inl ⟨announced, control, control.isSynthetic⟩
    · exact .inr ⟨posted, passed_on event posted⟩
  · intro numbered event exposed synthetic
    have unposted : event ∉ start.posted w operations := by
      intro posted
      obtain ⟨execution, raws, member, raw, among, -, below⟩ := passed_on event posted
      exact absurd (numbered execution raws member raw among) (Int.not_le.mpr (below.mp synthetic))
    obtain ⟨_, announced | posted⟩ := spoken.of_exposes exposed
    · exact ⟨announced, unposted⟩
    · exact absurd posted unposted

/-- A worker says that its execution was cancelled, which nobody has done. -/
private def impersonating : List Operation :=
  [.createSession ⟨some "session", "ws", "p", none, none, false, none, none, none, "user"⟩,
    .execute ⟨"ws", "session", "hello", "user"⟩,
    .ingest "exec_" [⟨-1, "2999-01-01T00:00:00Z", "cancelled", none⟩]]

/-- Not all that stands below zero is the hub's own. -/
theorem worker_speaks_below_zero :
    ¬ ∀ (w : World) (limit ring queue : Nat) (operations : List Operation) (event : Event),
      let start := create limit ring queue
      (start.run w operations).bus.Exposes event → event.sequence.isSynthetic →
        event ∈ start.announced w operations ∧ event ∉ start.posted w operations := by
  intro all
  have seen : (((create 1 8 8).run .plain impersonating).bus.ring "exec_").map (·.sequence) =
      [.synthetic 1] := by
    decide +kernel
  have silent : ((create 1 8 8).announced .plain impersonating).length = 0 := by decide +kernel
  obtain ⟨event, member, below⟩ : ∃ event ∈ ((create 1 8 8).run .plain impersonating).bus.ring "exec_",
      event.sequence = .synthetic 1 := by
    rw [← List.mem_map, seen]
    exact List.mem_singleton_self _
  have synthetic : event.sequence.isSynthetic := by rw [below]; rfl
  have exposed : ((create 1 8 8).run .plain impersonating).bus.Exposes event := .inl ⟨"exec_", member⟩
  obtain ⟨announced, -⟩ := all .plain 1 8 8 impersonating event exposed synthetic
  rw [List.eq_nil_of_length_eq_zero silent] at announced
  exact List.not_mem_nil announced

end Hub

end Switchboard
