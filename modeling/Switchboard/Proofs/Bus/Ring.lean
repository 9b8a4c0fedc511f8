import Mathlib.Data.List.DropRight
import Switchboard.Proofs.Bus.Run

/-!
The ring of an execution against its history.

A ring is kept event by event, and a full one loses its oldest event whenever another is published.
Over a run it is the last part of everything that was published for its execution, as long as the
ring may be, whatever else was published and whoever listened.  A cursor selects from it by number,
and of the notices, which stand outside the numbering, all for a reader that has seen an event.
-/

namespace Switchboard

/-- Where an event stands to be still needed by a reader at a cursor. -/
inductive Sequence.Follows (cursor : Int) : Sequence → Prop where
  | ordinal {position : UInt64} (above : cursor < (Sequence.ordinal position).toWire) :
      Follows cursor (.ordinal position)
  /-- The reader has seen worker events only. -/
  | notice {slot : UInt32} (seen : 0 ≤ cursor) : Follows cursor (.synthetic slot)
  | synthetic {slot : UInt32} (above : cursor < (Sequence.synthetic slot).toWire) :
      Follows cursor (.synthetic slot)

theorem Sequence.isAfter_iff_follows {sequence : Sequence} {cursor : Int} :
    sequence.isAfter cursor ↔ sequence.Follows cursor := by
  constructor
  · intro after
    cases sequence with
    | ordinal position => exact .ordinal (by simpa [isAfter] using after)
    | synthetic slot =>
        simp only [isAfter, Bool.or_eq_true, decide_eq_true_eq] at after
        exact after.elim .notice .synthetic
  · intro follows
    cases follows with
    | ordinal above => simpa [isAfter] using above
    | notice seen => simp [isAfter, seen]
    | synthetic above => simp [isAfter, above]

theorem Sequence.Follows.lt_toWire {sequence : Sequence} {cursor : Int}
    (follows : sequence.Follows cursor) (numbered : sequence.isSynthetic = false) :
    cursor < sequence.toWire := by
  cases follows with
  | ordinal above => exact above
  | notice | synthetic => contradiction

instance (sequence : Sequence) (cursor : Int) : Decidable (sequence.Follows cursor) :=
  decidable_of_iff _ Sequence.isAfter_iff_follows

namespace Bus

variable {bus : Bus} {execution : ExecutionId} {event : Event} {steps : List Step}

/-- What a step publishes for an execution. -/
def Step.publishes (execution : ExecutionId) : Step → Option Event
  | .publish event => if event.execution = execution then some event else none
  | .move _ => none

/-- Everything that a run publishes for an execution, in order. -/
def published (execution : ExecutionId) (steps : List Step) : List Event :=
  steps.filterMap (Step.publishes execution)

theorem published_cons (step : Step) :
    published execution (step :: steps) =
      (step.publishes execution).toList ++ published execution steps := by
  cases shown : step.publishes execution with
  | none => simp [published, shown]
  | some event => simp [published, shown]

variable {capacity : Nat} {before later : List Event}

/-- What has fallen from a ring is not missed when more is published. -/
theorem keepLatest_keepLatest_append :
    keepLatest capacity (keepLatest capacity before ++ later) =
      keepLatest capacity (before ++ later) := by
  simp only [keepLatest, List.drop_append, List.length_append, List.drop_drop, List.length_drop]
  congr 2 <;> omega

theorem lookupRing_storeRing {other : ExecutionId} {events : List Event}
    {rings : List (ExecutionId × List Event)} :
    lookupRing other (storeRing execution events rings) =
      if execution = other then events else lookupRing other rings := by
  induction rings with
  | nil => rfl
  | cons entry rings ih =>
      obtain ⟨e, old⟩ := entry
      by_cases found : e = execution
      · subst found
        by_cases same : e = other <;> simp [storeRing, lookupRing, same]
      · by_cases same : e = other
        · subst same
          have apart : execution ≠ e := fun equal => found equal.symm
          simp [storeRing, lookupRing, found, apart]
        · simp [storeRing, lookupRing, found, same, ih]

theorem ring_publish :
    (bus.publish event).ring execution =
      if event.execution = execution then
        keepLatest bus.ringCapacity (bus.ring execution ++ [event])
      else bus.ring execution := by
  simp only [ring, publish, lookupRing_storeRing]
  split
  · rename_i same
    rw [same]
  · rfl

theorem ring_move (move : Move) : (move.apply bus).ring execution = bus.ring execution := by
  obtain ⟨_, same⟩ := move.apply_eq bus
  rw [same]
  rfl

/-- Whether rings hold `capacity` events and that of an execution holds the last of a history. -/
structure Remembers (capacity : Nat) (execution : ExecutionId) (history : List Event) (bus : Bus) :
    Prop where
  room : bus.ringCapacity = capacity
  latest : bus.ring execution = keepLatest capacity history

theorem Remembers.apply {history : List Event}
    (remembers : bus.Remembers capacity execution history) (step : Step) :
    (step.apply bus).Remembers capacity execution
      (history ++ (step.publishes execution).toList) := by
  obtain ⟨rfl, latest⟩ := remembers
  refine ⟨ringCapacity_apply step, ?_⟩
  cases step with
  | publish event =>
      simp only [Step.apply, ring_publish, Step.publishes]
      split
      · rw [latest, keepLatest_keepLatest_append]
        rfl
      · rw [latest, Option.toList_none, List.append_nil]
  | move move =>
      have kept : ((Step.move move).apply bus).ring execution = bus.ring execution := ring_move move
      rw [kept, latest, Step.publishes, Option.toList_none, List.append_nil]

theorem remembers_run {history : List Event}
    (remembers : bus.Remembers capacity execution history) (steps : List Step) :
    (bus.run steps).Remembers capacity execution (history ++ published execution steps) := by
  induction steps generalizing bus history with
  | nil =>
      rw [published, List.filterMap_nil, List.append_nil]
      exact remembers
  | cons step steps ih =>
      rw [published_cons, ← List.append_assoc]
      exact ih (remembers.apply step)

/-- A bus that was empty at the start holds the latest events of every execution. -/
theorem ring_run (ring queue : Nat) (execution : ExecutionId) (steps : List Step) :
    ((create ring queue).run steps).ring execution =
      keepLatest (max ring 1) (published execution steps) := by
  have empty : (create ring queue).Remembers (max ring 1) execution [] := ⟨rfl, List.drop_nil.symm⟩
  exact (remembers_run empty steps).latest

/-- What a bus gives back to a reader.  After any run it is, for every execution and every cursor, what
follows the cursor among the last events that were published for that execution, in the order of their
publication: as many as a ring holds, and one at least. -/
theorem recent_run (ring queue : Nat) (steps : List Step) (execution : ExecutionId) (cursor : Int) :
    ((create ring queue).run steps).recent execution cursor =
      ((published execution steps).rtake (max ring 1)).filter
        fun event => decide (event.sequence.Follows cursor) := by
  have rule (event : Event) :
      event.sequence.isAfter cursor = decide (event.sequence.Follows cursor) := by
    rw [Bool.eq_iff_iff, Sequence.isAfter_iff_follows, decide_eq_true_eq]
  calc ((create ring queue).run steps).recent execution cursor
    _ = (((create ring queue).run steps).ring execution).filter (·.sequence.isAfter cursor) := rfl
    _ = ((published execution steps).rtake (max ring 1)).filter (·.sequence.isAfter cursor) := by
      rw [ring_run]
      rfl
    _ = _ := List.filter_congr fun event _ => rule event

end Bus

end Switchboard
