import Mathlib.Data.List.Nodup
import Switchboard.Proofs.Bus.Relabel
import Switchboard.Proofs.Bus.Ring
import Switchboard.Proofs.Bus.Stream

/-!
A bus without one of its subscriptions.

Subscriptions share the rings, the numbering and the count of drops, but no step on one of them
touches another.  So if one subscription had never been made, the others would be as they are, under
numbers that close the gap.  A run and the same run without the steps of that subscription are
compared step by step.
-/

namespace Switchboard.Bus

variable {gone number : Nat} {full cut : Bus} {s : Subscriber} {step : Step} {steps : List Step}

/-- The number of a subscription if the one numbered `gone` had never been made. -/
def closeGap (gone number : Nat) : Nat := if number < gone then number else number - 1

theorem closeGap_eq_iff {other : Nat} (stays : number ≠ gone) (stays' : other ≠ gone) :
    closeGap gone number = closeGap gone other ↔ number = other := by
  unfold closeGap
  split <;> split <;> omega

/-- A step as it is taken where the subscription numbered `gone` was never made; nothing if it is a
step of that subscription. -/
def Step.without (gone : Nat) (step : Step) : Option Step :=
  if step.addressee = some gone then none else some (step.relabel (closeGap gone) id)

def others (gone : Nat) (subscribers : List Subscriber) : List Subscriber :=
  (subscribers.filter (·.number != gone)).map fun s => s.relabel (closeGap gone s.number) id

theorem others_append {before later : List Subscriber} :
    others gone (before ++ later) = others gone before ++ others gone later := by
  simp only [others, List.filter_append, List.map_append]

/-- What a step that reads from a subscription gets. -/
def Step.reading (number : Nat) (bus : Bus) : Step → Option Subscriber.Reading
  | .move (.read asked) => if asked = number then some (bus.read number).1 else none
  | _ => none

/-- What the reads from one subscription get in a run, in order. -/
def readings (number : Nat) : Bus → List Step → List Subscriber.Reading
  | _, [] => []
  | bus, step :: steps => (step.reading number bus).toList ++ readings number (step.apply bus) steps

/-- Numbers are places. -/
def Ordered (bus : Bus) : Prop :=
  bus.subscribers.map (·.number) = List.range bus.subscribers.length

theorem Ordered.apply {bus : Bus} (ordered : bus.Ordered) (step : Step) :
    (step.apply bus).Ordered := by
  have kept : (bus.subscribers.map fun s => step.onSubscriber bus.queueCapacity s).map (·.number) =
      List.range bus.subscribers.length := by
    rw [List.map_map, ← ordered]
    exact List.map_congr_left fun s _ => step.number_onSubscriber bus.queueCapacity s
  have added : (step.newSubscribers bus).map (·.number) =
      (List.range (step.newSubscribers bus).length).map (bus.subscribers.length + ·) := by
    cases step with
    | publish => rfl
    | move move => cases move <;> rfl
  rw [Ordered, subscribers_apply, List.map_append, kept, added, List.length_append,
    List.length_map, List.range_add]

theorem Ordered.distinct {bus : Bus} (ordered : bus.Ordered) :
    (bus.subscribers.map (·.number)).Nodup := by
  rw [ordered]
  exact List.nodup_range

theorem ordered_run {bus : Bus} (ordered : bus.Ordered) (steps : List Step) :
    (bus.run steps).Ordered := by
  induction steps generalizing bus with
  | nil => exact ordered
  | cons step steps ih => exact ih (ordered.apply step)

theorem Ordered.numbered {bus : Bus} (ordered : bus.Ordered) : bus.Numbered := by
  intro s member
  have among : s.number ∈ bus.subscribers.map (·.number) := List.mem_map_of_mem member
  rw [ordered] at among
  exact List.mem_range.mp among

theorem Ordered.length_others {bus : Bus} (ordered : bus.Ordered)
    (present : gone < bus.subscribers.length) :
    (others gone bus.subscribers).length + 1 = bus.subscribers.length := by
  have numbers : (bus.subscribers.filter (·.number != gone)).map (·.number) =
      (List.range bus.subscribers.length).erase gone := by
    rw [List.nodup_range.erase_eq_filter, ← ordered, List.filter_map]
    rfl
  have shorter := congrArg List.length numbers
  rw [List.length_map, List.length_erase_of_mem (List.mem_range.mpr present),
    List.length_range] at shorter
  rw [others, List.length_map, shorter]
  omega

/-- Whether a bus is another one without the subscription numbered `gone`. -/
structure Lacks (gone : Nat) (full cut : Bus) : Prop where
  present : gone < full.subscribers.length
  ringCapacity : cut.ringCapacity = full.ringCapacity
  queueCapacity : cut.queueCapacity = full.queueCapacity
  rings : cut.rings = full.rings
  cancelledTokens : cut.cancelledTokens = full.cancelledTokens
  subscribers : cut.subscribers = others gone full.subscribers

theorem Lacks.recent_eq (lacks : Lacks gone full cut) (execution : ExecutionId) (cursor : Int) :
    cut.recent execution cursor = full.recent execution cursor := by
  simp only [recent, ring, lacks.rings]

/-- Of a subscription that stays, everything but the number is the same. -/
theorem Lacks.find?_eq (lacks : Lacks gone full cut) (stays : number ≠ gone) :
    cut.find? (closeGap gone number) =
      (full.find? number).map fun s => s.relabel (closeGap gone number) id := by
  have sought (s : Subscriber) : decide ((s.number != gone) = true ∧
      (closeGap gone s.number == closeGap gone number) = true) = (s.number == number) := by
    by_cases own : s.number = gone
    · simp [own, Ne.symm stays]
    · have same := closeGap_eq_iff own stays
      simp [own, same, Bool.beq_eq_decide_eq]
  have chosen : cut.find? (closeGap gone number) =
      (full.find? number).map fun s => s.relabel (closeGap gone s.number) id := by
    rw [find?, lacks.subscribers, others, List.find?_map, List.find?_filter]
    exact congrArg (fun test => (full.subscribers.find? test).map _) (funext sought)
  rw [chosen]
  cases found : full.find? number with
  | none => rfl
  | some s =>
      rw [Option.map_some, Option.map_some, number_of_find? found]

theorem others_map {subscribers : List Subscriber} {change : Subscriber → Subscriber}
    (same : ∀ s, (change s).number = s.number) :
    others gone (subscribers.map change) = (subscribers.filter (·.number != gone)).map
      fun s => (change s).relabel (closeGap gone s.number) id := by
  have test : (fun s : Subscriber => s.number != gone) ∘ change = fun s => s.number != gone := by
    funext s
    simp only [Function.comp_apply, same]
  rw [others, List.filter_map, test, List.map_map]
  exact List.map_congr_left fun s _ => by rw [Function.comp_apply, same]

/-- A step of the subscription itself does nothing where it was never made. -/
theorem Lacks.own (lacks : Lacks gone full cut) (own : step.addressee = some gone) :
    Lacks gone (step.apply full) cut := by
  cases step with
  | publish event => contradiction
  | move move =>
      have adds : (Step.move move).newSubscribers full = [] := by
        cases move <;> first | rfl | contradiction
      have tokens : move.tokens = [] := by
        cases move <;> first | rfl | contradiction
      have subscribers : (move.apply full).subscribers = full.subscribers.map fun s =>
          (Step.move move).onSubscriber full.queueCapacity s := by
        have all := subscribers_apply full (.move move)
        rwa [adds, List.append_nil] at all
      have stay : others gone (move.apply full).subscribers = others gone full.subscribers := by
        rw [subscribers, others_map (Step.number_onSubscriber _ · _), others]
        refine List.map_congr_left fun s member => ?_
        have other : s.number ≠ gone := by simpa using (List.mem_filter.mp member).2
        rw [Step.onSubscriber_of_addressee own other]
      have length : (move.apply full).subscribers.length = full.subscribers.length := by
        rw [subscribers, List.length_map]
      obtain ⟨_, same⟩ := move.apply_eq full
      refine ⟨length ▸ lacks.present, ?_, ?_, ?_, ?_, lacks.subscribers.trans stay.symm⟩
      · rw [Step.apply, same, lacks.ringCapacity]
      · rw [Step.apply, same, lacks.queueCapacity]
      · rw [Step.apply, same, lacks.rings]
      · rw [Step.apply, same, tokens, lacks.cancelledTokens]
        rfl

/-- A step that is not one of the subscription does the same without it. -/
theorem Lacks.kept (lacks : Lacks gone full cut) (ordered : full.Ordered)
    (other : step.addressee ≠ some gone) :
    Lacks gone (step.apply full) ((step.relabel (closeGap gone) id).apply cut) := by
  have present : gone < (step.apply full).subscribers.length := by
    have before := lacks.present
    rw [subscribers_apply, List.length_append, List.length_map]
    omega
  have old : others gone
      (full.subscribers.map fun s => step.onSubscriber full.queueCapacity s) =
        cut.subscribers.map fun s =>
          (step.relabel (closeGap gone) id).onSubscriber cut.queueCapacity s := by
    rw [others_map (Step.number_onSubscriber _ · _), lacks.subscribers, lacks.queueCapacity, others,
      List.map_map]
    refine List.map_congr_left fun s member => ?_
    have stays : s.number ≠ gone := by simpa using (List.mem_filter.mp member).2
    refine (Step.onSubscriber_relabel (fun _ => rfl) fun number meant => ?_).symm
    have kept : number ≠ gone := by
      rintro rfl
      exact other meant
    exact closeGap_eq_iff stays kept
  have new : others gone (step.newSubscribers full) =
      (step.relabel (closeGap gone) id).newSubscribers cut := by
    cases step with
    | publish event => rfl
    | move move =>
        cases move with
        | subscribe execution cursor parent =>
            have shorter := ordered.length_others lacks.present
            have before := lacks.present
            have last : full.subscribers.length ≠ gone := by omega
            have place : closeGap gone full.subscribers.length =
                (others gone full.subscribers).length := by
              unfold closeGap
              split <;> omega
            simp [others, Step.newSubscribers, Step.relabel, Move.renumber, last, Subscriber.relabel,
              place, lacks.recent_eq, lacks.cancelledTokens, lacks.subscribers]
        | _ => rfl
  have subscribers : ((step.relabel (closeGap gone) id).apply cut).subscribers =
      others gone (step.apply full).subscribers := by
    rw [subscribers_apply, subscribers_apply, others_append, old, new]
  refine ⟨present, ?_, ?_, ?_, ?_, subscribers⟩
  · rw [ringCapacity_apply, ringCapacity_apply, lacks.ringCapacity]
  · rw [queueCapacity_apply, queueCapacity_apply, lacks.queueCapacity]
  · cases step with
    | publish event =>
        simp only [Step.relabel, Step.apply, publish, ring, lacks.rings, lacks.ringCapacity, id]
    | move move =>
        obtain ⟨_, same⟩ := move.apply_eq full
        obtain ⟨_, same'⟩ := (move.renumber (closeGap gone)).apply_eq cut
        rw [Step.relabel, Step.apply, Step.apply, same, same', lacks.rings]
  · cases step with
    | publish event => exact lacks.cancelledTokens
    | move move =>
        have tokens : (move.renumber (closeGap gone)).tokens = move.tokens := by cases move <;> rfl
        obtain ⟨_, same⟩ := move.apply_eq full
        obtain ⟨_, same'⟩ := (move.renumber (closeGap gone)).apply_eq cut
        rw [Step.relabel, Step.apply, Step.apply, same, same', tokens, lacks.cancelledTokens]

theorem Lacks.reading_eq (lacks : Lacks gone full cut) (stays : number ≠ gone)
    (other : step.addressee ≠ some gone) :
    (step.relabel (closeGap gone) id).reading (closeGap gone number) cut =
      step.reading number full := by
  cases step with
  | publish => rfl
  | move move =>
      cases move with
      | read asked =>
          have asks : asked ≠ gone := fun same => other (congrArg some same)
          have same := closeGap_eq_iff asks stays
          simp only [Step.relabel, Move.renumber, Step.reading, same, Bus.read, lacks.find?_eq stays]
          cases found : full.find? number with
          | none => rfl
          | some s =>
              have read : (s.relabel (closeGap gone number) id).read.1 = s.read.1 := by
                rw [Subscriber.read_relabel]
                cases s.read.1 <;> rfl
              simp only [Option.map_some, read]
      | _ => rfl

theorem lacks_run (lacks : Lacks gone full cut) (ordered : full.Ordered) (steps : List Step) :
    Lacks gone (full.run steps) (cut.run (steps.filterMap (Step.without gone))) := by
  induction steps generalizing full cut with
  | nil => exact lacks
  | cons step steps ih =>
      by_cases own : step.addressee = some gone
      · have omitted : step.without gone = none := if_pos own
        rw [List.filterMap_cons_none omitted]
        exact ih (lacks.own own) (ordered.apply step)
      · have taken : step.without gone = some (step.relabel (closeGap gone) id) := if_neg own
        rw [List.filterMap_cons_some taken]
        exact ih (lacks.kept ordered own) (ordered.apply step)

theorem readings_without (lacks : Lacks gone full cut) (ordered : full.Ordered)
    (stays : number ≠ gone) (steps : List Step) :
    cut.readings (closeGap gone number) (steps.filterMap (Step.without gone)) =
      full.readings number steps := by
  induction steps generalizing full cut with
  | nil => rfl
  | cons step steps ih =>
      by_cases own : step.addressee = some gone
      · have silent : step.reading number full = none := by
          cases step with
          | publish => rfl
          | move move =>
              cases move with
              | read asked =>
                  cases own
                  exact if_neg stays.symm
              | _ => rfl
        have omitted : step.without gone = none := if_pos own
        rw [List.filterMap_cons_none omitted, readings, silent]
        exact ih (lacks.own own) (ordered.apply step)
      · have taken : step.without gone = some (step.relabel (closeGap gone) id) := if_neg own
        rw [List.filterMap_cons_some taken, readings, readings, lacks.reading_eq stays own,
          ih (lacks.kept ordered own) (ordered.apply step)]

theorem find?_run {bus : Bus} (found : bus.find? number = some s) (steps : List Step) :
    ∃ later, (bus.run steps).find? number = some later := by
  obtain ⟨later, present, -⟩ :=
    keeps_run (fun _ => True) (fun _ _ _ _ => trivial) found trivial steps
  exact ⟨later, present⟩

/-- Just after a subscription the bus as it was lacks nothing else. -/
theorem lacks_subscribe {bus : Bus} (ordered : bus.Ordered) (execution : ExecutionId)
    (cursor : Int) (parent : Option String) :
    Lacks bus.subscribers.length (bus.subscribe execution cursor parent).2 bus := by
  have older : ∀ s ∈ bus.subscribers, s.number < bus.subscribers.length := ordered.numbered
  have kept : bus.subscribers.filter (·.number != bus.subscribers.length) = bus.subscribers := by
    rw [List.filter_eq_self]
    intro s member
    simpa using Nat.ne_of_lt (older s member)
  have same : others bus.subscribers.length bus.subscribers = bus.subscribers := by
    rw [others, kept]
    refine (List.map_congr_left fun s member => ?_).trans (List.map_id _)
    have place : closeGap bus.subscribers.length s.number = s.number := if_pos (older s member)
    simp [Subscriber.relabel, place]
  refine ⟨?_, rfl, rfl, rfl, rfl, ?_⟩
  · simp [subscribe]
  · rw [subscribe, others_append, same]
    simp [others]

/-- What the other subscriptions have dropped is what the bus has dropped less the drops of one. -/
theorem Ordered.sum_dropped {bus : Bus} (ordered : bus.Ordered) (found : bus.find? gone = some s) :
    (bus.subscribers.map (·.dropped)).sum =
      ((others gone bus.subscribers).map (·.dropped)).sum + s.dropped := by
  obtain ⟨-, before, later, parts, kept⟩ := parts_of_find? ordered.distinct found
  have drops (subscribers : List Subscriber) :
      (subscribers.map fun t => t.relabel (closeGap gone t.number) id).map (·.dropped) =
        subscribers.map (·.dropped) := by
    rw [List.map_map]
    rfl
  rw [others, drops, kept, parts]
  simp only [List.map_append, List.map_cons, List.sum_append, List.sum_cons]
  omega

/-- A slow reader harms nobody else.  Take a run, and the same run without one subscription and
without its forwarder's and its reader's steps.  Every read on another subscription gets the same,
every other subscription has dropped as much, the rings answer the same, and the count of drops is
less by exactly what the removed subscription had dropped. -/
theorem slow_reader_harms_nobody (ring queue : Nat) (before later : List Step)
    (execution : ExecutionId) (cursor : Int) (parent : Option String) :
    let bus := (create ring queue).run before
    let gone := (bus.subscribe execution cursor parent).1
    let full := (bus.subscribe execution cursor parent).2
    let rest := later.filterMap (Step.without gone)
    (∀ number, number ≠ gone →
        bus.readings (closeGap gone number) rest = full.readings number later ∧
          ((bus.run rest).find? (closeGap gone number)).map (·.dropped) =
            ((full.run later).find? number).map (·.dropped)) ∧
      (∀ asked since, (bus.run rest).recent asked since = (full.run later).recent asked since) ∧
      ∃ s, (full.run later).find? gone = some s ∧
        (full.run later).dropped = (bus.run rest).dropped + s.dropped := by
  intro bus gone full rest
  have created : (create ring queue).Ordered := rfl
  have ordered : bus.Ordered := ordered_run created before
  have orderedFull : full.Ordered := ordered.apply (.move (.subscribe execution cursor parent))
  have start : Lacks gone full bus := lacks_subscribe ordered execution cursor parent
  have lacks : Lacks gone (full.run later) (bus.run rest) := lacks_run start orderedFull later
  have empty : (create ring queue).Tallied := rfl
  have tallied : bus.Tallied := tallied_run empty before
  have talliedFull : full.Tallied := tallied.apply (.move (.subscribe execution cursor parent))
  refine ⟨?_, lacks.recent_eq, ?_⟩
  · intro number stays
    refine ⟨readings_without start orderedFull stays later, ?_⟩
    rw [lacks.find?_eq stays, Option.map_map]
    rfl
  · have made := find?_subscribe ordered.numbered execution cursor parent
    obtain ⟨s, found⟩ := find?_run made later
    refine ⟨s, found, ?_⟩
    rw [tallied_run talliedFull later, tallied_run tallied rest, lacks.subscribers]
    exact (ordered_run orderedFull later).sum_dropped found

end Switchboard.Bus
