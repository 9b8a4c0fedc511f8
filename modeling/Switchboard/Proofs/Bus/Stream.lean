import Mathlib.Algebra.Ring.Nat
import Switchboard.Proofs.Bus.Run

/-!
What a reader gets.

A subscription starts from a replay and is offered the events of its execution as long as it is
registered; it accepts those that find room in its queue and counts the others.  While its forwarder
runs and its stream is held, what was received and what is on the way are the replay and the accepted
events, in this order; what was received is a first part of them for ever.
-/

namespace Switchboard

def Subscriber.Reading.event? : Reading → Option Event
  | .event posted => some posted
  | .nothing | .ended => none

namespace Bus

namespace Step

/-- What a step offers to a subscription: an event of its execution while it is registered. -/
def offered (_ : Nat) (s : Subscriber) : Step → Option Event
  | .publish event => if reaches event.execution s then some event else none
  | .move _ => none

/-- What a subscription accepts of it. -/
def accepted (capacity : Nat) (s : Subscriber) : Step → Option Event
  | .publish event =>
    if reaches event.execution s ∧ s.queue.length < capacity then some event else none
  | .move _ => none

/-- What a step brings to the reader of a subscription. -/
def received (_ : Nat) (s : Subscriber) : Step → Option Event
  | .move (.read number) => if s.number = number then s.read.1.event? else none
  | _ => none

end Step

def history (see : Nat → Subscriber → Step → Option Event) (number : Nat) :
    Bus → List Step → List Event
  | _, [] => []
  | bus, step :: steps =>
    ((bus.find? number).bind fun s => see bus.queueCapacity s step).toList ++
      history see number (step.apply bus) steps

section

variable {capacity number : Nat} {bus : Bus} {s : Subscriber}
  (Kept : List Event → List Event → List Event → Subscriber → Prop)

/-- What holds of a subscription and of what it was offered, accepted and gave away holds after a step
if it is kept by all that a step can do. -/
theorem Step.keeps_seen (step : Step) (offered accepted received : List Event)
    (kept : Kept offered accepted received s)
    (accepts : ∀ event, s.registered → s.queue.length < capacity →
      Kept (offered ++ [event]) (accepted ++ [event]) received
        { s with queue := s.queue ++ [event] })
    (loses : ∀ event, capacity ≤ s.queue.length →
      Kept (offered ++ [event]) accepted received { s with dropped := s.dropped + 1 })
    (moves : ∀ next, s.step? = some next → Kept offered accepted received next)
    (reads : Kept offered accepted (received ++ s.read.1.event?.toList) s.read.2)
    (drops : Kept offered accepted received s.drop)
    (cancels : Kept offered accepted received s.cancel)
    (cancelsByParent : Kept offered accepted received s.cancelByParent) :
    Kept (offered ++ (step.offered capacity s).toList) (accepted ++ (step.accepted capacity s).toList)
      (received ++ (step.received capacity s).toList) (step.onSubscriber capacity s) := by
  cases step with
  | publish event =>
      simp only [Step.onSubscriber, Step.offered, Step.accepted, Step.received, Option.toList_none,
        List.append_nil]
      by_cases reached : reaches event.execution s
      · have registered : s.registered := (Bool.and_eq_true_iff.mp reached).1
        simp only [reached, if_true, true_and, Option.toList_some, Subscriber.offer]
        split
        · rename_i room
          exact accepts event registered room
        · rename_i full
          simp only [Option.toList_none, List.append_nil]
          exact loses event (Nat.not_lt.mp full)
      · simpa [reached] using kept
  | move move =>
      simp only [Step.offered, Step.accepted, Option.toList_none, List.append_nil]
      cases move with
      | subscribe =>
          simp only [Step.onSubscriber, Step.received, Option.toList_none, List.append_nil]
          exact kept
      | forward number =>
          simp only [Step.onSubscriber, Step.received, Option.toList_none, List.append_nil]
          split
          · cases moved : s.step? with
            | none => exact kept
            | some next => exact moves next moved
          · exact kept
      | read number =>
          simp only [Step.onSubscriber, Step.received]
          split
          · exact reads
          · simpa using kept
      | dropStream number =>
          simp only [Step.onSubscriber, Step.received, Option.toList_none, List.append_nil]
          split
          · exact drops
          · exact kept
      | cancel number =>
          simp only [Step.onSubscriber, Step.received, Option.toList_none, List.append_nil]
          split
          · exact cancels
          · exact kept
      | cancelToken token =>
          simp only [Step.onSubscriber, Step.received, Option.toList_none, List.append_nil]
          split
          · exact cancelsByParent
          · exact kept

/-- What every step keeps is kept over a run. -/
theorem keeps_history (room : bus.queueCapacity = capacity)
    (step : ∀ (step : Step) (s : Subscriber) (offered accepted received : List Event),
      Kept offered accepted received s →
        Kept (offered ++ (step.offered capacity s).toList)
          (accepted ++ (step.accepted capacity s).toList)
          (received ++ (step.received capacity s).toList) (step.onSubscriber capacity s))
    {offered accepted received : List Event} (found : bus.find? number = some s)
    (kept : Kept offered accepted received s) (steps : List Step) :
    ∃ s', (bus.run steps).find? number = some s' ∧
      Kept (offered ++ bus.history Step.offered number steps)
        (accepted ++ bus.history Step.accepted number steps)
        (received ++ bus.history Step.received number steps) s' := by
  induction steps generalizing bus s offered accepted received with
  | nil => exact ⟨s, found, by simpa [history] using kept⟩
  | cons next steps ih =>
      subst room
      obtain ⟨s', found', kept'⟩ := ih (queueCapacity_apply next) (find?_apply next found)
        (step next s offered accepted received kept)
      refine ⟨s', found', ?_⟩
      simpa only [history, found, Option.bind_some, List.append_assoc] using kept'

end

end Bus

namespace Subscriber

/-- A subscription that started from a replay, by what it was offered, accepted and gave away. -/
structure Streams (replay offered accepted received : List Event) (s : Subscriber) : Prop where
  sublist : accepted.Sublist offered
  counted : offered.length = accepted.length + s.dropped
  whole : s.running → s.held →
    received ++ s.slot.toList ++ s.hand.toList ++ s.replay ++ s.queue = replay ++ accepted
  inOrder : received ++ s.slot.toList <+: replay ++ accepted

namespace Streams

variable {replay offered accepted received : List Event} {s next : Subscriber}

/-- A subscription that has not moved streams from the replay it has. -/
theorem fresh (all : s.replay = replay) (queue : s.queue = []) (hand : s.hand = none)
    (slot : s.slot = none) (dropped : s.dropped = 0) : s.Streams replay [] [] [] := by
  refine ⟨List.Sublist.refl _, ?_, fun _ _ => ?_, ?_⟩
  · simp [dropped]
  · simp [all, queue, hand, slot]
  · simp [slot]

theorem accept (streams : s.Streams replay offered accepted received) (event : Event) :
    { s with queue := s.queue ++ [event] }.Streams replay (offered ++ [event]) (accepted ++ [event])
      received := by
  refine ⟨streams.sublist.append_right [event], ?_, ?_, ?_⟩
  · have counted := streams.counted
    simp only [List.length_append]
    omega
  · intro running held
    simp only [← List.append_assoc]
    rw [streams.whole running held]
  · rw [← List.append_assoc]
    exact streams.inOrder.trans (List.prefix_append _ _)

theorem lose (streams : s.Streams replay offered accepted received) (event : Event) :
    { s with dropped := s.dropped + 1 }.Streams replay (offered ++ [event]) accepted received := by
  refine ⟨streams.sublist.trans (List.sublist_append_left _ _), ?_, streams.whole, streams.inOrder⟩
  rw [List.length_append, streams.counted]
  rfl

theorem forward (streams : s.Streams replay offered accepted received)
    (moved : s.step? = some next) : next.Streams replay offered accepted received := by
  obtain ⟨sublist, counted, whole, inOrder⟩ := streams
  obtain ⟨running, moves⟩ := step?_cases moved
  rcases moves with rfl | ⟨event, inHand, held, empty, rfl⟩ | ⟨event, rest, inHand, waiting, rfl⟩ |
    ⟨event, rest, inHand, replayed, waiting, rfl⟩
  · exact ⟨sublist, counted, fun runs => absurd runs Bool.false_ne_true, inOrder⟩
  · have order := whole running held
    simp only [inHand, empty, Option.toList_some, Option.toList_none, List.append_nil] at order
    refine ⟨sublist, counted, ?_, ?_⟩
    · intro _ _
      simpa using order
    · rw [← order, List.append_assoc]
      exact List.prefix_append _ _
  · refine ⟨sublist, counted, ?_, inOrder⟩
    intro _ held
    rw [← whole running held]
    simp [inHand, waiting]
  · refine ⟨sublist, counted, ?_, inOrder⟩
    intro _ held
    rw [← whole running held]
    simp [inHand, replayed, waiting]

theorem read (streams : s.Streams replay offered accepted received) :
    s.read.2.Streams replay offered accepted (received ++ s.read.1.event?.toList) := by
  obtain ⟨sublist, counted, whole, inOrder⟩ := streams
  unfold Subscriber.read
  cases full : s.slot with
  | none =>
      have nothing : (if s.running then Reading.nothing else Reading.ended).event? = none := by
        split <;> rfl
      simp only [nothing, Option.toList_none, List.append_nil]
      exact ⟨sublist, counted, whole, inOrder⟩
  | some event =>
      simp only [full, Option.toList_some] at whole inOrder
      refine ⟨sublist, counted, ?_, ?_⟩
      · intro running held
        simpa [Reading.event?] using whole running held
      · simpa [Reading.event?] using inOrder

/-- Without the stream there is nothing in front of the reader any more. -/
theorem drop (streams : s.Streams replay offered accepted received) :
    s.drop.Streams replay offered accepted received := by
  obtain ⟨sublist, counted, -, inOrder⟩ := streams
  refine ⟨sublist, counted, fun _ held => absurd held Bool.false_ne_true, ?_⟩
  change received ++ [] <+: replay ++ accepted
  rw [List.append_nil]
  exact (List.prefix_append _ _).trans inOrder

/-- A step adds to the lists what it shows of the subscription. -/
theorem step (streams : s.Streams replay offered accepted received) (capacity : Nat)
    (step : Bus.Step) :
    (step.onSubscriber capacity s).Streams replay (offered ++ (step.offered capacity s).toList)
      (accepted ++ (step.accepted capacity s).toList)
      (received ++ (step.received capacity s).toList) := by
  have same (ended : Bool) (registered : Bool) :
      { s with cancelled := ended, registered := registered }.Streams replay offered accepted
        received :=
    ⟨streams.sublist, streams.counted, streams.whole, streams.inOrder⟩
  refine step.keeps_seen (Streams replay) _ _ _ streams ?_ ?_ ?_ streams.read streams.drop
    (same _ _) (same _ _)
  · exact fun event _ _ => streams.accept event
  · exact fun event _ => streams.lose event
  · exact fun next moved => streams.forward moved

end Streams

end Subscriber

namespace Bus

theorem streams_run {replay offered accepted received : List Event} {number : Nat} {bus : Bus}
    {s : Subscriber} (found : bus.find? number = some s)
    (streams : s.Streams replay offered accepted received) (steps : List Step) :
    ∃ s', (bus.run steps).find? number = some s' ∧
      s'.Streams replay (offered ++ bus.history Step.offered number steps)
        (accepted ++ bus.history Step.accepted number steps)
        (received ++ bus.history Step.received number steps) :=
  keeps_history (Subscriber.Streams replay) rfl
    (fun step _ _ _ _ streams => streams.step bus.queueCapacity step) found streams steps

/-- A new subscription streams from its replay whatever follows. -/
theorem streams_subscribe {bus : Bus} (numbered : bus.Numbered) (execution : ExecutionId)
    (cursor : Int) (parent : Option String) (steps : List Step) :
    let number := (bus.subscribe execution cursor parent).1
    let start := (bus.subscribe execution cursor parent).2
    ∃ s, (start.run steps).find? number = some s ∧
      s.Streams (bus.recent execution cursor) (start.history Step.offered number steps)
        (start.history Step.accepted number steps) (start.history Step.received number steps) := by
  intro number start
  have found := find?_subscribe numbered execution cursor parent
  obtain ⟨s, found', streams⟩ := streams_run found (.fresh rfl rfl rfl rfl rfl) steps
  simp only [List.nil_append] at streams
  exact ⟨s, found', streams⟩

/-- The bus counts a drop exactly when a subscription does. -/
def Tallied (bus : Bus) : Prop := bus.dropped = (bus.subscribers.map (·.dropped)).sum

theorem dropped_offer (capacity : Nat) (s : Subscriber) (event : Event) :
    (s.offer capacity event).dropped = s.dropped + if s.queue.length < capacity then 0 else 1 := by
  unfold Subscriber.offer
  split <;> rfl

theorem sum_dropped_publish (capacity : Nat) (event : Event) (subscribers : List Subscriber) :
    ((subscribers.map fun s =>
        if reaches event.execution s then s.offer capacity event else s).map (·.dropped)).sum =
      (subscribers.map (·.dropped)).sum +
        ((subscribers.filter (reaches event.execution)).filter
          fun s => !(s.queue.length < capacity)).length := by
  rw [← List.countP_eq_length_filter, List.countP_filter]
  induction subscribers with
  | nil => rfl
  | cons s subscribers ih =>
      simp only [List.map_cons, List.sum_cons, List.countP_cons, ih]
      by_cases reached : reaches event.execution s
      · by_cases room : s.queue.length < capacity
        · simp [reached, room, dropped_offer, Nat.add_assoc]
        · simp [reached, room, dropped_offer]
          omega
      · simp [reached, Nat.add_assoc]

theorem sum_dropped_of_same {subscribers : List Subscriber} {change : Subscriber → Subscriber}
    (same : ∀ s, (change s).dropped = s.dropped) :
    ((subscribers.map change).map (·.dropped)).sum = (subscribers.map (·.dropped)).sum := by
  rw [List.map_map]
  exact congrArg List.sum (List.map_congr_left fun s _ => same s)

theorem Step.dropped_onSubscriber_move (capacity : Nat) (s : Subscriber) (move : Move) :
    ((Step.move move).onSubscriber capacity s).dropped = s.dropped := by
  cases move with
  | subscribe => rfl
  | forward number =>
      simp only [onSubscriber]
      split
      · cases moved : s.step? with
        | none => rfl
        | some next =>
            obtain ⟨-, rfl | ⟨_, _, _, _, rfl⟩ | ⟨_, _, _, _, rfl⟩ | ⟨_, _, _, _, _, rfl⟩⟩ :=
              Subscriber.step?_cases moved <;> rfl
      · rfl
  | read number =>
      simp only [onSubscriber, Subscriber.read]
      split
      · split <;> rfl
      · rfl
  | dropStream | cancel | cancelToken =>
      simp only [onSubscriber]
      split <;> rfl

theorem Tallied.apply {bus : Bus} (tallied : bus.Tallied) (step : Step) :
    (step.apply bus).Tallied := by
  unfold Tallied at tallied ⊢
  cases step with
  | publish event =>
      simp only [Step.apply, publish]
      rw [sum_dropped_publish, tallied]
  | move move =>
      have same : ∀ s, ((Step.move move).onSubscriber bus.queueCapacity s).dropped = s.dropped :=
        fun s => Step.dropped_onSubscriber_move bus.queueCapacity s move
      have start : (((Step.move move).newSubscribers bus).map (·.dropped)).sum = 0 := by
        cases move <;> rfl
      rw [subscribers_apply, List.map_append, List.sum_append, sum_dropped_of_same same, ← tallied,
        start]
      cases move with
      | read number =>
          simp only [Step.apply, Move.apply, read_eq_modify]
          rfl
      | _ => rfl

theorem tallied_run {bus : Bus} (tallied : bus.Tallied) (steps : List Step) :
    (bus.run steps).Tallied := by
  induction steps generalizing bus with
  | nil => exact tallied
  | cons step steps ih => exact ih (tallied.apply step)

theorem numbered_create (ring queue : Nat) : (create ring queue).Numbered :=
  fun _ absent => absurd absent List.not_mem_nil

/-- The integrity of a stream.  Until its forwarder ends or its reader lets go of it, what was
received, what lies in the slot and in the hand, what is left of the replay and what is queued are
together the replay and then the accepted events, which are the events offered less those that are
counted as dropped; and what was received is a first part of them at any time, also after the end. -/
theorem stream_integrity (ring queue : Nat) (before later : List Step) (execution : ExecutionId)
    (cursor : Int) (parent : Option String) :
    let bus := (create ring queue).run before
    let replay := bus.recent execution cursor
    let number := (bus.subscribe execution cursor parent).1
    let start := (bus.subscribe execution cursor parent).2
    let offered := start.history Step.offered number later
    let accepted := start.history Step.accepted number later
    let received := start.history Step.received number later
    accepted.Sublist offered ∧ received <+: replay ++ accepted ∧
      (start.run later).dropped = ((start.run later).subscribers.map (·.dropped)).sum ∧
      ∃ s, (start.run later).find? number = some s ∧
        offered.length = accepted.length + s.dropped ∧
        (s.running → s.held →
          received ++ s.slot.toList ++ s.hand.toList ++ s.replay ++ s.queue = replay ++ accepted) := by
  intro bus replay number start offered accepted received
  have numbered : bus.Numbered := numbered_run (numbered_create ring queue) before
  obtain ⟨s, found, streams⟩ := streams_subscribe numbered execution cursor parent later
  have created : (create ring queue).Tallied := rfl
  have tallied : start.Tallied :=
    (tallied_run created before).apply (.move (.subscribe execution cursor parent))
  refine ⟨streams.sublist, ?_, tallied_run tallied later, s, found, streams.counted, streams.whole⟩
  exact (List.prefix_append _ _).trans streams.inOrder

end Bus

end Switchboard
