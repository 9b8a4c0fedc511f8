import Switchboard.Proofs.Bus.Ring
import Switchboard.Proofs.Bus.Stream

/-!
Coming back to a stream.

A reader that was away asks for what follows the last number it has seen.  If no more was published
in between than a ring holds, all of it is in the ring, behind what the reader knows; the cursor cuts
between the two, and only notices of the hub, which have no number of their own, come a second time.
What is published from then on is offered live.
-/

namespace Switchboard

namespace Subscriber

variable {s : Subscriber} {event : Event} {rest : List Event}

/-- Whether a subscription goes on: nobody has ended it, and its reader holds the stream. -/
structure Open (s : Subscriber) : Prop where
  running : s.running
  held : s.held
  registered : s.registered
  going : s.cancelled = false

/-- What is on the way to the reader, the next event first. -/
def pending (s : Subscriber) : List Event := s.slot.toList ++ s.hand.toList ++ s.replay ++ s.queue

/-- A move of the forwarder loses nothing and brings the next event nearer. -/
theorem Open.advance (isOpen : s.Open) :
    (s.step?.getD s).Open ∧ (s.step?.getD s).pending = s.pending ∧
      (s.slot.isSome ∨ s.hand.isSome → (s.step?.getD s).slot.isSome) ∧
      (s.pending ≠ [] → (s.step?.getD s).slot.isSome ∨ (s.step?.getD s).hand.isSome) := by
  obtain ⟨running, held, registered, going⟩ := isOpen
  cases inHand : s.hand with
  | some event =>
      cases full : s.slot with
      | some first =>
          have stays : s.step? = none := by simp [step?, running, going, inHand, held, full]
          rw [stays]
          exact ⟨⟨running, held, registered, going⟩, rfl, by simp [full], by simp [full]⟩
      | none =>
          have moved : s.step? = some { s with hand := none, slot := some event } := by
            simp [step?, running, going, inHand, held, full]
          rw [moved]
          exact ⟨⟨running, held, registered, going⟩, by simp [pending, inHand, full], by simp,
            by simp⟩
  | none =>
      cases replayed : s.replay with
      | cons event rest =>
          have moved : s.step? = some { s with hand := some event, replay := rest } := by
            simp [step?, running, going, inHand, replayed]
          rw [moved]
          exact ⟨⟨running, held, registered, going⟩, by simp [pending, inHand, replayed], by simp,
            by simp⟩
      | nil =>
          cases waiting : s.queue with
          | cons event rest =>
              have moved : s.step? = some { s with hand := some event, queue := rest } := by
                simp [step?, running, going, inHand, replayed, held, waiting]
              rw [moved]
              exact ⟨⟨running, held, registered, going⟩,
                by simp [pending, inHand, replayed, waiting], by simp, by simp⟩
          | nil =>
              have stays : s.step? = none := by
                simp [step?, running, going, inHand, replayed, held, waiting, registered]
              rw [stays]
              refine ⟨⟨running, held, registered, going⟩, rfl, by simp, ?_⟩
              intro nonempty
              left
              cases full : s.slot with
              | some first => simp [full]
              | none => simp [pending, inHand, replayed, waiting, full] at nonempty

theorem Open.read (isOpen : s.Open) (next : s.slot.isSome) (order : s.pending = event :: rest) :
    s.read.1.event? = some event ∧ s.read.2.Open ∧ s.read.2.pending = rest := by
  obtain ⟨first, full⟩ := Option.isSome_iff_exists.mp next
  have front : s.pending = first :: (s.hand.toList ++ s.replay ++ s.queue) := by
    simp [pending, full]
  rw [front] at order
  obtain ⟨rfl, rfl⟩ := List.cons.inj order
  have taken : s.read = (.event first, { s with slot := none }) := by
    simp [Subscriber.read, full]
  rw [taken]
  exact ⟨rfl, ⟨isOpen.running, isOpen.held, isOpen.registered, isOpen.going⟩, by simp [pending]⟩

end Subscriber

namespace Bus

variable {bus : Bus} {execution : ExecutionId} {number : Nat} {s : Subscriber} {steps : List Step}

/-- The reader looks once, after the forwarder had its turn. -/
def look (number : Nat) : List Step :=
  [.move (.forward number), .move (.forward number), .move (.read number)]

/-- Whether the events that workers have numbered come in ascending order, notices apart. -/
def Ascending (events : List Event) : Prop :=
  (events.filter fun event => !event.sequence.isSynthetic).Pairwise
    fun first second => first.sequence.toWire < second.sequence.toWire

instance (events : List Event) : Decidable (Ascending events) :=
  inferInstanceAs (Decidable (List.Pairwise _ _))

variable {seen missed : List Event} {last event : Event} {cursor : Int} {capacity : Nat}

theorem Ascending.sublist {events part : List Event} (ascending : Ascending events)
    (sublist : part.Sublist events) : Ascending part :=
  List.Pairwise.sublist (sublist.filter _) ascending

/-- What comes later in an ascending list has the greater number. -/
theorem Ascending.lt {before after : List Event} {first second : Event}
    (ascending : Ascending (before ++ after)) (early : first ∈ before) (late : second ∈ after)
    (numbered : first.sequence.isSynthetic = false) (numbered' : second.sequence.isSynthetic = false) :
    first.sequence.toWire < second.sequence.toWire := by
  rw [Ascending, List.filter_append, List.pairwise_append] at ascending
  obtain ⟨-, -, across⟩ := ascending
  have earlier : first ∈ before.filter fun event => !event.sequence.isSynthetic :=
    List.mem_filter.mpr ⟨early, by simp [numbered]⟩
  have later : second ∈ after.filter fun event => !event.sequence.isSynthetic :=
    List.mem_filter.mpr ⟨late, by simp [numbered']⟩
  exact across first earlier second later

section

variable (numbered : last.sequence.isSynthetic = false)
  (ascending : Ascending (seen ++ last :: missed))

include numbered ascending

end

end Bus

end Switchboard
