import Switchboard.Proofs.Bus.Reconnect

/-!
Where the events on a bus come from.

A bus makes no events of its own.  What lies in the ring of an execution, what is on the way to one of
its readers and what a reader takes was published for that execution.  So whatever holds of all events
that are published holds of all that are found on the bus.
-/

namespace Switchboard

namespace Subscriber

variable {s next : Subscriber} {event other : Event}

theorem mem_pending :
    event ∈ s.pending ↔
      s.slot = some event ∨ s.hand = some event ∨ event ∈ s.replay ∨ event ∈ s.queue := by
  simp [pending]

theorem pending_offer {capacity : Nat} (member : other ∈ (s.offer capacity event).pending) :
    other ∈ s.pending ∨ other = event := by
  rw [mem_pending] at member ⊢
  unfold offer at member
  split at member
  · simpa [or_assoc] using member
  · exact .inl member

/-- The forwarder moves events on and may lose them, but brings none. -/
theorem pending_step? (moved : s.step? = some next) (member : event ∈ next.pending) :
    event ∈ s.pending := by
  rw [mem_pending] at member ⊢
  obtain ⟨-, rfl | ⟨first, inHand, -, -, rfl⟩ | ⟨first, rest, -, waiting, rfl⟩ |
    ⟨first, rest, -, -, waiting, rfl⟩⟩ := step?_cases moved
  · exact .inl (by simpa [exit] using member)
  · rcases member with same | absent | later
    · exact .inr (.inl (inHand.trans same))
    · contradiction
    · exact .inr (.inr later)
  · rw [waiting, List.mem_cons]
    rcases member with inSlot | same | later | queued
    · exact .inl inSlot
    · exact .inr (.inr (.inl (.inl (Option.some.inj same).symm)))
    · exact .inr (.inr (.inl (.inr later)))
    · exact .inr (.inr (.inr queued))
  · rw [waiting, List.mem_cons]
    rcases member with inSlot | same | later | queued
    · exact .inl inSlot
    · exact .inr (.inr (.inr (.inl (Option.some.inj same).symm)))
    · exact .inr (.inr (.inl later))
    · exact .inr (.inr (.inr (.inr queued)))

theorem slot_of_read (taken : s.read.1 = .event event) : s.slot = some event := by
  unfold read at taken
  split at taken
  · rename_i first full
    cases taken
    exact full
  · split at taken <;> contradiction

end Subscriber

namespace Bus

variable {bus : Bus} {Shows : ExecutionId → Event → Prop} {s : Subscriber} {number : Nat}
  {event : Event}

/-- Whether all events on a bus show something of the execution under which they are found. -/
structure Carries (Shows : ExecutionId → Event → Prop) (bus : Bus) : Prop where
  rings : ∀ execution, ∀ event ∈ bus.ring execution, Shows execution event
  pending : ∀ s ∈ bus.subscribers, ∀ event ∈ s.pending, Shows s.execution event

theorem carries_create (ring queue : Nat) : (create ring queue).Carries Shows :=
  ⟨fun _ _ absent => absurd absent List.not_mem_nil, fun _ absent => absurd absent List.not_mem_nil⟩

namespace Carries

theorem ring_apply (carries : bus.Carries Shows) (step : Step)
    (published : ∀ event, step = .publish event → Shows event.execution event)
    {execution : ExecutionId} (member : event ∈ (step.apply bus).ring execution) :
    Shows execution event := by
  cases step with
  | publish posted =>
      simp only [Step.apply, ring_publish] at member
      split at member
      · rename_i same
        rcases List.mem_append.mp (List.mem_of_mem_drop member) with old | new
        · exact carries.rings execution event old
        · cases List.mem_singleton.mp new
          exact same ▸ published _ rfl
      · exact carries.rings execution event member
  | move move =>
      have kept : ((Step.move move).apply bus).ring execution = bus.ring execution := ring_move move
      exact carries.rings execution event (kept ▸ member)

theorem onSubscriber (carries : ∀ event ∈ s.pending, Shows s.execution event) (capacity : Nat)
    (step : Step) (published : ∀ event, step = .publish event → Shows event.execution event) :
    ∀ event ∈ (step.onSubscriber capacity s).pending, Shows s.execution event := by
  have emptied : ∀ event, s.hand = some event ∨ event ∈ s.replay ∨ event ∈ s.queue →
      Shows s.execution event :=
    fun event left => carries event (Subscriber.mem_pending.mpr (.inr left))
  refine step.keeps_onSubscriber (fun t => ∀ event ∈ t.pending, Shows s.execution event)
    carries ?_ ?_ ?_ ?_ carries carries
  · intro posted same reached event member
    rcases Subscriber.pending_offer member with old | rfl
    · exact carries event old
    · simp only [reaches, Bool.and_eq_true, beq_iff_eq] at reached
      exact reached.2 ▸ published _ same
  · intro next moved event member
    exact carries event (Subscriber.pending_step? moved member)
  · intro event member
    unfold Subscriber.read at member
    split at member
    · exact emptied event (by simpa [Subscriber.mem_pending] using member)
    · exact carries event member
  · intro event member
    exact emptied event (by simpa [Subscriber.mem_pending, Subscriber.drop] using member)

theorem apply (carries : bus.Carries Shows) (step : Step)
    (published : ∀ event, step = .publish event → Shows event.execution event) :
    (step.apply bus).Carries Shows := by
  refine ⟨fun execution event member => carries.ring_apply step published member, ?_⟩
  intro s member event found
  rw [subscribers_apply] at member
  rcases List.mem_append.mp member with old | new
  · obtain ⟨stored, present, rfl⟩ := List.mem_map.mp old
    rw [(step.onSubscriber_eq bus.queueCapacity stored).2.1]
    exact onSubscriber (carries.pending stored present) bus.queueCapacity step published event found
  · cases step with
    | publish => contradiction
    | move move =>
        cases move with
        | subscribe execution cursor parent =>
            cases List.mem_singleton.mp new
            have replayed : event ∈ bus.recent execution cursor := by
              simpa [Subscriber.mem_pending] using found
            exact carries.rings execution event (List.mem_of_mem_filter replayed)
        | _ => contradiction

/-- What a reader takes shows it too. -/
theorem of_read (carries : bus.Carries Shows) (found : bus.find? number = some s)
    (taken : s.read.1 = .event event) : Shows s.execution event := by
  have waiting : event ∈ s.pending := Subscriber.mem_pending.mpr (.inl (Subscriber.slot_of_read taken))
  exact carries.pending s (List.mem_of_find?_eq_some found) event waiting

end Carries

theorem carries_run {steps : List Step} (carries : bus.Carries Shows)
    (published : ∀ event, .publish event ∈ steps → Shows event.execution event) :
    (bus.run steps).Carries Shows := by
  induction steps generalizing bus with
  | nil => exact carries
  | cons step steps ih =>
      refine ih (carries.apply step ?_) fun event later =>
        published event (List.mem_cons_of_mem step later)
      rintro event rfl
      exact published event List.mem_cons_self

end Bus

end Switchboard
