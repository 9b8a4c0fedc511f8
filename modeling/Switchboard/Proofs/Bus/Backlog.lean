import Switchboard.Proofs.Bus.Ending

/-!
How far a reader falls behind.

A live event that is accepted waits in the queue.  Past the queue there are two places, the hand of the
forwarder and the slot, and the replay passes through both of them first.  So a reader lags behind by
two events more than a queue holds and no further, and what is dropped is dropped behind a full queue
of which the reader has received nothing yet.
-/

namespace Switchboard

namespace Subscriber

variable {capacity : Nat} {replay offered accepted received : List Event} {s next : Subscriber}

/-- How many live events may have left the queue without having been received: one in the hand, and
one in the slot or lost with it. -/
def ahead (s : Subscriber) : Nat :=
  s.hand.toList.length + if s.held then s.slot.toList.length else 1

theorem ahead_le (s : Subscriber) : s.ahead ≤ 2 := by
  have hand : s.hand.toList.length ≤ 1 := by cases s.hand <;> simp
  have slot : s.slot.toList.length ≤ 1 := by cases s.slot <;> simp
  unfold ahead
  split <;> omega

/-- A subscription by what it accepted and its reader has received, the replay before all else. -/
structure Backlog (capacity : Nat) (replay accepted received : List Event) (s : Subscriber) :
    Prop where
  room : s.queue.length ≤ capacity
  /-- No live event leaves the queue before the replay is forwarded. -/
  replayFirst : s.replay ≠ [] → accepted.length ≤ s.queue.length
  letGo : s.held = false → s.slot = none
  queued : s.running → received.length - replay.length + s.queue.length ≤ accepted.length
  near : s.running →
    accepted.length ≤ received.length - replay.length + s.queue.length + s.ahead
  /-- This holds also when the forwarder has ended and its queue is gone. -/
  bounded : accepted.length ≤ received.length - replay.length + capacity + 2

namespace Backlog

theorem fresh (queue : s.queue = []) (letGo : s.held = false → s.slot = none) :
    s.Backlog capacity replay [] [] := by
  refine ⟨?_, fun _ => Nat.zero_le _, letGo, fun _ => ?_, fun _ => Nat.zero_le _, Nat.zero_le _⟩
  · rw [queue]
    exact Nat.zero_le _
  · simp [queue]

theorem accept (backlog : s.Backlog capacity replay accepted received) (running : s.running)
    (room : s.queue.length < capacity) (event : Event) :
    { s with queue := s.queue ++ [event] }.Backlog capacity replay (accepted ++ [event])
      received := by
  have queued := backlog.queued running
  have near := backlog.near running
  have ahead := s.ahead_le
  refine ⟨?_, ?_, backlog.letGo, fun _ => ?_, fun _ => ?_, ?_⟩
  · simp only [List.length_append, List.length_singleton]
    omega
  · intro waiting
    have only := backlog.replayFirst waiting
    simp only [List.length_append]
    omega
  · simp only [List.length_append, List.length_singleton]
    omega
  · change _ ≤ _ + s.ahead
    simp only [List.length_append, List.length_singleton]
    omega
  · simp only [List.length_append, List.length_singleton]
    omega

theorem forward (backlog : s.Backlog capacity replay accepted received)
    (moved : s.step? = some next) : next.Backlog capacity replay accepted received := by
  obtain ⟨room, replayFirst, letGo, queued, near, bounded⟩ := backlog
  obtain ⟨running, moves⟩ := step?_cases moved
  have queued := queued running
  have near := near running
  rcases moves with rfl | ⟨event, inHand, held, empty, rfl⟩ | ⟨event, rest, inHand, waiting, rfl⟩ |
    ⟨event, rest, inHand, replayed, waiting, rfl⟩
  · exact ⟨Nat.zero_le _, fun left => absurd rfl left, letGo,
      fun runs => absurd runs Bool.false_ne_true, fun runs => absurd runs Bool.false_ne_true, bounded⟩
  · refine ⟨room, replayFirst, ?_, fun _ => queued, fun _ => ?_, bounded⟩
    · intro alone
      rw [held] at alone
      contradiction
    · simpa [ahead, inHand, held, empty] using near
  · refine ⟨room, fun _ => replayFirst (by simp [waiting]), letGo, fun _ => queued, fun _ => ?_,
      bounded⟩
    have more : s.ahead ≤ { s with hand := some event, replay := rest }.ahead := by
      simp [ahead, inHand]
    exact Nat.le_trans near (Nat.add_le_add_left more _)
  · rw [waiting, List.length_cons] at room queued near
    refine ⟨?_, fun left => absurd replayed left, letGo, fun _ => ?_, fun _ => ?_, bounded⟩
    · exact Nat.le_of_succ_le room
    · change _ + rest.length ≤ _
      omega
    · have more : { s with hand := some event, queue := rest }.ahead = s.ahead + 1 := by
        simp [ahead, inHand, Nat.add_comm]
      rw [more]
      change _ ≤ _ + rest.length + _
      omega

theorem read (backlog : s.Backlog capacity replay accepted received)
    (streams : s.Streams replay offered accepted received) :
    s.read.2.Backlog capacity replay accepted (received ++ s.read.1.event?.toList) := by
  obtain ⟨room, replayFirst, letGo, queued, near, bounded⟩ := backlog
  unfold Subscriber.read
  cases full : s.slot with
  | none =>
      have nothing : (if s.running then Reading.nothing else Reading.ended).event? = none := by
        split <;> rfl
      simp only [nothing, Option.toList_none, List.append_nil]
      exact ⟨room, replayFirst, letGo, queued, near, bounded⟩
  | some event =>
      have held : s.held := by
        by_contra alone
        have empty := letGo (by simpa using alone)
        rw [full] at empty
        contradiction
      -- every event has its place: the two lists are equally long
      have places (running : s.running) :
          received.length + 1 + s.hand.toList.length + s.replay.length + s.queue.length =
            replay.length + accepted.length := by
        have lengths := congrArg List.length (streams.whole running held)
        simpa only [full, List.length_append, Option.toList_some, List.length_singleton] using lengths
      have passed (running : s.running) : s.replay = [] ∨ accepted.length ≤ s.queue.length := by
        by_cases waiting : s.replay = []
        · exact .inl waiting
        · exact .inr (replayFirst waiting)
      simp only [Reading.event?, Option.toList_some]
      refine ⟨room, replayFirst, fun _ => rfl, fun running => ?_, fun running => ?_, ?_⟩
      · have queued := queued running
        have places := places running
        simp only [List.length_append, List.length_singleton]
        omega
      · have places := places running
        have ahead : { s with slot := none }.ahead = s.hand.toList.length := by
          simp [ahead, held]
        rw [ahead, List.length_append, List.length_singleton]
        rcases passed running with replayed | only
        · rw [replayed, List.length_nil] at places
          change _ ≤ _ + s.queue.length + _
          omega
        · change _ ≤ _ + s.queue.length + _
          omega
      · rw [List.length_append]
        omega

theorem drop (backlog : s.Backlog capacity replay accepted received) :
    s.drop.Backlog capacity replay accepted received := by
  have more : s.ahead ≤ s.drop.ahead := by
    have slot : s.slot.toList.length ≤ 1 := by cases s.slot <;> simp
    simp only [ahead, Subscriber.drop]
    split <;> simp [slot]
  refine ⟨backlog.room, backlog.replayFirst, fun _ => rfl, backlog.queued, fun running => ?_,
    backlog.bounded⟩
  exact Nat.le_trans (backlog.near running) (Nat.add_le_add_left more _)

theorem step (backlog : s.Backlog capacity replay accepted received)
    (streams : s.Streams replay offered accepted received) (orderly : s.Orderly)
    (step : Bus.Step) :
    (step.onSubscriber capacity s).Backlog capacity replay
      (accepted ++ (step.accepted capacity s).toList)
      (received ++ (step.received capacity s).toList) := by
  have same (cancelled registered : Bool) (dropped : Nat) :
      { s with cancelled, registered, dropped }.Backlog capacity replay accepted received :=
    ⟨backlog.room, backlog.replayFirst, backlog.letGo, backlog.queued, backlog.near, backlog.bounded⟩
  refine step.keeps_seen (fun _ => Backlog capacity replay) offered accepted received backlog ?_ ?_
    ?_ (backlog.read streams) backlog.drop (same _ _ _) (same _ _ _)
  · exact fun event registered room => backlog.accept (orderly registered) room event
  · exact fun _ _ => same _ _ _
  · exact fun _ moved => backlog.forward moved

end Backlog

/-- What is dropped is dropped behind a full queue. -/
theorem full_of_dropped {step : Bus.Step}
    (more : s.dropped < (step.onSubscriber capacity s).dropped) :
    s.registered ∧ capacity ≤ s.queue.length := by
  cases step with
  | publish event =>
      simp only [Bus.Step.onSubscriber] at more
      split at more
      · rename_i reached
        rw [Bus.dropped_offer] at more
        split at more
        · omega
        · rename_i full
          exact ⟨(Bool.and_eq_true_iff.mp reached).1, Nat.not_lt.mp full⟩
      · omega
  | move move =>
      rw [Bus.Step.dropped_onSubscriber_move] at more
      omega

end Subscriber

namespace Bus

variable {bus : Bus} {number : Nat} {replay : List Event} {steps : List Step} {s : Subscriber}

/-- The live events of a run that a subscription has accepted and its reader has not received.  It
receives the replay first. -/
def unread (replay : List Event) (number : Nat) (bus : Bus) (steps : List Step) : List Event :=
  (bus.history Step.accepted number steps).drop
    ((bus.history Step.received number steps).length - replay.length)

/-- What a reader has received is a part of the replay, or all of it and the accepted events that are
not unread. -/
theorem parts_of_accepted
    (inOrder : bus.history Step.received number steps <+:
      replay ++ bus.history Step.accepted number steps) :
    ∃ read, bus.history Step.accepted number steps = read ++ bus.unread replay number steps ∧
      (bus.history Step.received number steps = replay ++ read ∨
        read = [] ∧ bus.history Step.received number steps <+: replay) := by
  have cut := List.prefix_iff_eq_take.mp inOrder
  rw [List.take_append] at cut
  refine ⟨_, (List.take_append_drop _ _).symm, ?_⟩
  rcases Nat.le_total replay.length (bus.history Step.received number steps).length with
    past | within
  · left
    rwa [List.take_of_length_le past] at cut
  · right
    rw [Nat.sub_eq_zero_of_le within, List.take_zero] at cut ⊢
    rw [List.append_nil] at cut
    exact ⟨rfl, List.prefix_iff_eq_take.mpr cut⟩

theorem backlog_subscribe (numbered : bus.Numbered) (execution : ExecutionId) (cursor : Int)
    (parent : Option String) (steps : List Step) :
    let replay := bus.recent execution cursor
    let number := (bus.subscribe execution cursor parent).1
    let start := (bus.subscribe execution cursor parent).2
    ∃ s, (start.run steps).find? number = some s ∧ s.Orderly ∧
      s.Streams replay (start.history Step.offered number steps)
        (start.history Step.accepted number steps) (start.history Step.received number steps) ∧
      s.Backlog bus.queueCapacity replay (start.history Step.accepted number steps)
        (start.history Step.received number steps) := by
  intro replay number start
  let Kept (offered accepted received : List Event) (s : Subscriber) : Prop :=
    s.Orderly ∧ s.Streams replay offered accepted received ∧
      s.Backlog bus.queueCapacity replay accepted received
  have room : start.queueCapacity = bus.queueCapacity := rfl
  have found := find?_subscribe numbered execution cursor parent
  obtain ⟨s, present, kept⟩ := keeps_history Kept room
    (fun step s offered accepted received ⟨orderly, streams, backlog⟩ =>
      ⟨orderly.onSubscriber _ step, streams.step _ step, backlog.step streams orderly step⟩)
    found ⟨fun _ => rfl, .fresh rfl rfl rfl rfl rfl, .fresh rfl fun _ => rfl⟩ steps
  simp only [List.nil_append] at kept
  exact ⟨s, present, kept⟩

theorem length_unread :
    (bus.unread replay number steps).length =
      (bus.history Step.accepted number steps).length -
        ((bus.history Step.received number steps).length - replay.length) :=
  List.length_drop

theorem queueCapacity_run (bus : Bus) (steps : List Step) :
    (bus.run steps).queueCapacity = bus.queueCapacity := by
  induction steps generalizing bus with
  | nil => rfl
  | cons step steps ih => exact (ih _).trans (queueCapacity_apply step)

/-- A step that drops an event for a subscription finds as many unread as the queue holds. -/
theorem full_of_drop (numbered : bus.Numbered) (execution : ExecutionId) (cursor : Int)
    (parent : Option String) (steps : List Step) (step : Step) (s s' : Subscriber) :
    let replay := bus.recent execution cursor
    let number := (bus.subscribe execution cursor parent).1
    let start := (bus.subscribe execution cursor parent).2
    (start.run steps).find? number = some s →
      (step.apply (start.run steps)).find? number = some s' → s.dropped < s'.dropped →
        bus.queueCapacity ≤ (start.unread replay number steps).length := by
  intro replay number start found found' drops
  obtain ⟨_, found'', orderly, -, backlog⟩ :=
    backlog_subscribe numbered execution cursor parent steps
  obtain rfl := Option.some.inj (found.symm.trans found'')
  obtain rfl := Option.some.inj ((find?_apply step found).symm.trans found')
  have capacity : (start.run steps).queueCapacity = bus.queueCapacity := queueCapacity_run start steps
  rw [capacity] at drops
  obtain ⟨registered, full⟩ := Subscriber.full_of_dropped drops
  have queued : (start.history Step.received number steps).length - replay.length + s.queue.length ≤
      (start.history Step.accepted number steps).length := backlog.queued (orderly registered)
  rw [length_unread]
  omega

theorem nothing_dropped (numbered : bus.Numbered) (execution : ExecutionId) (cursor : Int)
    (parent : Option String) (steps : List Step) :
    let replay := bus.recent execution cursor
    let number := (bus.subscribe execution cursor parent).1
    let start := (bus.subscribe execution cursor parent).2
    (∀ sofar, sofar <+: steps →
      (start.unread replay number sofar).length < bus.queueCapacity) →
      ∀ s, (start.run steps).find? number = some s → s.dropped = 0 := by
  intro replay number start keepsUp
  induction steps using List.reverseRecOn with
  | nil =>
      intro s found
      have new := find?_subscribe numbered execution cursor parent
      obtain rfl := Option.some.inj (new.symm.trans found)
      rfl
  | append_singleton steps step ih =>
      intro s' found'
      obtain ⟨s, found, -⟩ := backlog_subscribe numbered execution cursor parent steps
      have none : s.dropped = 0 :=
        ih (fun sofar part => keepsUp sofar (part.trans (List.prefix_append _ _))) s found
      have moved : start.run (steps ++ [step]) = step.apply (start.run steps) :=
        List.foldl_concat ..
      rw [moved] at found'
      have room := keepsUp steps (List.prefix_append _ _)
      by_contra some
      have full := full_of_drop numbered execution cursor parent steps step s s' found found'
        (by omega)
      exact absurd room (Nat.not_lt.mpr full)

/-- The backlog of a reader.  Of the live events that were accepted for it, those it has not read are
the last ones, at most two more than its queue holds; and an event is dropped for it only while as many
as the queue holds are unread.  A reader that never is that far behind loses nothing. -/
theorem backlog_is_bounded (ring queue : Nat) (before steps : List Step) (execution : ExecutionId)
    (cursor : Int) (parent : Option String) :
    let bus := (create ring queue).run before
    let replay := bus.recent execution cursor
    let number := (bus.subscribe execution cursor parent).1
    let start := (bus.subscribe execution cursor parent).2
    let accepted := start.history Step.accepted number steps
    let received := start.history Step.received number steps
    let unread := start.unread replay number
    ∃ s, (start.run steps).find? number = some s ∧
      (∃ read, accepted = read ++ unread steps ∧
        (received = replay ++ read ∨ read = [] ∧ received <+: replay)) ∧
      (unread steps).length ≤ max queue 1 + 2 ∧
      (∀ (step : Step) (s' : Subscriber), (step.apply (start.run steps)).find? number = some s' →
        s.dropped < s'.dropped → max queue 1 ≤ (unread steps).length) ∧
      ((∀ sofar, sofar <+: steps → (unread sofar).length < max queue 1) →
        s.dropped = 0 ∧ accepted = start.history Step.offered number steps) := by
  intro bus replay number start accepted received unread
  have numbered : bus.Numbered := numbered_run (numbered_create ring queue) before
  have capacity : bus.queueCapacity = max queue 1 := queueCapacity_run _ before
  obtain ⟨s, found, -, streams, backlog⟩ :=
    backlog_subscribe numbered execution cursor parent steps
  have bounded : accepted.length ≤ received.length - replay.length + bus.queueCapacity + 2 :=
    backlog.bounded
  rw [← capacity]
  refine ⟨s, found, ?_, ?_, fun step s' => ?_, fun keepsUp => ?_⟩
  · exact parts_of_accepted ((List.prefix_append _ _).trans streams.inOrder)
  · have left : (unread steps).length = accepted.length - (received.length - replay.length) :=
      length_unread
    omega
  · exact full_of_drop numbered execution cursor parent steps step s s' found
  · have none : s.dropped = 0 :=
      nothing_dropped numbered execution cursor parent steps keepsUp s found
    have counted := streams.counted
    rw [none] at counted
    exact ⟨none, streams.sublist.eq_of_length counted.symm⟩

private def progressEvent (position : UInt64) : Event :=
  ⟨"exec", none, .ordinal position, "", "progress", .null⟩

/-- A queue of one: three events stay unread, one in each of the three places. -/
example :
    let start := ((create 4 1).subscribe "exec" 0 none).2
    let steps : List Step :=
      [.publish (progressEvent 1), .move (.forward 0), .move (.forward 0),
        .publish (progressEvent 2), .move (.forward 0), .publish (progressEvent 3)]
    (start.unread [] 0 steps).length = 3 := by
  rfl

end Bus

end Switchboard
