import Switchboard.Proofs.Bus.Origin
import Switchboard.Proofs.Bus.Separation

/-!
The end of a subscription.

A subscription ends when its reader cancels it or lets go of the stream, or when a token above it is
cancelled.  A cancellation takes it off the bus at once; the other two leave that to the forwarder,
which ends at its next turn.  Either way the subscription is off the bus before the reader can see the
end, and nothing brings it back: no step registers a subscription that is not registered.
-/

namespace Switchboard

namespace Subscriber

variable {s next : Subscriber} {moves more : Nat}

/-- Whether a subscription leaves the bus no later than its forwarder ends. -/
def Orderly (s : Subscriber) : Prop := s.registered → s.running

theorem Orderly.onSubscriber (orderly : s.Orderly) (capacity : Nat) (step : Bus.Step) :
    (step.onSubscriber capacity s).Orderly := by
  refine step.keeps_onSubscriber Orderly orderly ?_ ?_ ?_ orderly ?_ orderly
  · intro event _ _
    unfold offer
    split <;> exact orderly
  · intro next moved
    obtain ⟨running, rfl | ⟨_, _, _, _, rfl⟩ | ⟨_, _, _, _, rfl⟩ | ⟨_, _, _, _, _, rfl⟩⟩ :=
      step?_cases moved
    · intro registered
      contradiction
    · exact fun _ => running
    · exact fun _ => running
    · exact fun _ => running
  · unfold read
    split <;> exact orderly
  · intro registered
    contradiction

theorem eq_exit_of_cancelled (cancelled : s.cancelled) (moved : s.step? = some next) :
    next = s.exit := by
  unfold step? at moved
  split at moved
  · contradiction
  · exact (Option.some.inj moved).symm

theorem cancelled_onSubscriber (cancelled : s.cancelled) (capacity : Nat) (step : Bus.Step) :
    (step.onSubscriber capacity s).cancelled := by
  refine step.keeps_onSubscriber (·.cancelled) cancelled ?_ ?_ ?_ cancelled rfl rfl
  · intro event _ _
    unfold offer
    split <;> exact cancelled
  · intro next moved
    rw [eq_exit_of_cancelled cancelled moved]
    exact cancelled
  · unfold read
    split <;> exact cancelled

/-- Whether a subscription is off the bus after so many moves of its forwarder.  One whose stream nobody
holds may take a replayed event into the hand before it notices. -/
def EndsWithin (moves : Nat) (s : Subscriber) : Prop :=
  s.registered = false ∨
    0 < moves ∧ (s.cancelled ∨ s.held = false ∧ (s.hand.isSome ∨ 1 < moves))

namespace EndsWithin

theorem mono (within : s.EndsWithin moves) (le : moves ≤ more) : s.EndsWithin more := by
  rcases within with gone | ⟨some, cancelled | ⟨alone, inHand | two⟩⟩
  · exact .inl gone
  · exact .inr ⟨by omega, .inl cancelled⟩
  · exact .inr ⟨by omega, .inr ⟨alone, .inl inHand⟩⟩
  · exact .inr ⟨by omega, .inr ⟨alone, .inr (by omega)⟩⟩

theorem advance (within : s.EndsWithin (moves + 1)) (moved : s.step? = some next) :
    next.EndsWithin moves := by
  rcases within with gone | ⟨-, ending⟩
  · left
    obtain ⟨-, rfl | ⟨_, _, _, _, rfl⟩ | ⟨_, _, _, _, rfl⟩ | ⟨_, _, _, _, _, rfl⟩⟩ :=
      step?_cases moved
    · rfl
    · exact gone
    · exact gone
    · exact gone
  unfold step? at moved
  split at moved
  · contradiction
  split at moved
  · cases moved
    exact .inl rfl
  rename_i going
  rcases ending with cancelled | ⟨alone, ready⟩
  · exact absurd cancelled going
  split at moved
  · rw [alone] at moved
    cases moved
    exact .inl rfl
  -- With nothing in the hand it looks at the replay first, and only then at its reader.
  rename_i empty
  have two : 1 < moves + 1 := ready.resolve_left (by simp [empty])
  split at moved
  · cases moved
    exact .inr ⟨by omega, .inr ⟨alone, .inl rfl⟩⟩
  · rw [alone] at moved
    cases moved
    exact .inl rfl

theorem onSubscriber (within : s.EndsWithin moves) (capacity : Nat) (step : Bus.Step) :
    (step.onSubscriber capacity s).EndsWithin moves := by
  refine step.keeps_onSubscriber (EndsWithin moves) within ?_ ?_ ?_ ?_ (.inl rfl) ?_
  · intro event _ _
    unfold offer
    split <;> exact within
  · intro next moved
    exact ((within.mono (Nat.le_succ _)).advance moved)
  · unfold read
    split <;> exact within
  · rcases within with gone | ⟨some, cancelled | ⟨-, ready⟩⟩
    · exact .inl gone
    · exact .inr ⟨some, .inl cancelled⟩
    · exact .inr ⟨some, .inr ⟨rfl, ready⟩⟩
  · rcases within with gone | ⟨some, -⟩
    · exact .inl gone
    · exact .inr ⟨some, .inl rfl⟩

end EndsWithin

end Subscriber

namespace Bus

variable {bus : Bus} {number moves : Nat} {s : Subscriber} {steps : List Step}

/-- Under a cancelled token all subscriptions are cancelled. -/
def Heeds (bus : Bus) : Prop :=
  ∀ s ∈ bus.subscribers, ∀ token, s.parent = some token → token ∈ bus.cancelledTokens → s.cancelled

theorem Heeds.apply (heeds : bus.Heeds) (step : Step) : (step.apply bus).Heeds := by
  have stays (s : Subscriber) (cancelled : s.cancelled) :
      (step.onSubscriber bus.queueCapacity s).cancelled :=
    Subscriber.cancelled_onSubscriber cancelled bus.queueCapacity step
  intro s member token under fallen
  rw [subscribers_apply] at member
  rcases List.mem_append.mp member with old | new
  · obtain ⟨stored, present, rfl⟩ := List.mem_map.mp old
    rw [(step.onSubscriber_eq bus.queueCapacity stored).2.2] at under
    cases step with
    | publish event => exact stays stored (heeds stored present token under fallen)
    | move move =>
        obtain ⟨_, same⟩ := move.apply_eq bus
        rw [Step.apply, same] at fallen
        rcases List.mem_append.mp fallen with now | before
        · cases move with
          | cancelToken other =>
              cases List.mem_singleton.mp now
              simp [Step.onSubscriber, under, Subscriber.cancelByParent]
          | _ => contradiction
        · exact stays stored (heeds stored present token under before)
  · cases step with
    | publish => contradiction
    | move move =>
        cases move with
        | subscribe execution cursor parent =>
            cases List.mem_singleton.mp new
            have above : parent = some token := under
            have before : token ∈ bus.cancelledTokens := fallen
            simp [above, before]
        | _ => contradiction

end Bus

end Switchboard
