import Switchboard.Bus.Basic

/-!
Runs of a bus.

Publishing is the hub's part; the moves are those of readers and forwarders.  A run is any sequence of
both.  A step changes the subscriptions one by one, so that each of them can be followed on its own.
-/

namespace Switchboard

/-- The entry with a key, where keys occur once: without it the list is what stands before it and
after it. -/
theorem parts_of_find? {α κ : Type} [BEq κ] [LawfulBEq κ] {key : α → κ} {k : κ} {a : α}
    {entries : List α} (distinct : (entries.map key).Nodup)
    (found : entries.find? (key · == k) = some a) :
    key a = k ∧ ∃ before later, entries = before ++ a :: later ∧
      entries.filter (key · != k) = before ++ later := by
  obtain ⟨own, before, later, parts, apart⟩ := List.find?_eq_some_iff_append.mp found
  have same : key a = k := by simpa using own
  subst parts
  rw [List.map_append, List.map_cons, List.nodup_append, List.nodup_cons] at distinct
  have front : before.filter (key · != k) = before := by
    rw [List.filter_eq_self]
    intro other member
    simpa using apart other member
  have back : later.filter (key · != k) = later := by
    rw [List.filter_eq_self]
    intro other member
    have differs : key other ≠ key a := fun equal =>
      distinct.2.1.1 (equal ▸ List.mem_map_of_mem member)
    simpa [same] using differs
  refine ⟨same, before, later, rfl, ?_⟩
  rw [List.filter_append, List.filter_cons_of_neg (by simp [same]), front, back]

end Switchboard

namespace Switchboard.Bus

inductive Move where
  | subscribe (execution : ExecutionId) (cursor : Int) (parent : Option String)
  | forward (number : Nat)
  | read (number : Nat)
  | dropStream (number : Nat)
  | cancel (number : Nat)
  | cancelToken (token : String)

inductive Step where
  | publish (event : Event)
  | move (move : Move)

def Move.apply (bus : Bus) : Move → Bus
  | .subscribe execution cursor parent => (bus.subscribe execution cursor parent).2
  | .forward number => bus.forward number
  | .read number => (bus.read number).2
  | .dropStream number => bus.dropStream number
  | .cancel number => bus.cancel number
  | .cancelToken token => bus.cancelToken token

def Step.apply (bus : Bus) : Step → Bus
  | .publish event => bus.publish event
  | .move m => m.apply bus

def run (bus : Bus) (steps : List Step) : Bus := steps.foldl Step.apply bus

/-- What a step makes of a subscription on a bus whose queues hold `capacity` events. -/
def Step.onSubscriber (capacity : Nat) (s : Subscriber) : Step → Subscriber
  | .publish event => if reaches event.execution s then s.offer capacity event else s
  | .move (.subscribe _ _ _) => s
  | .move (.forward number) => if s.number = number then s.step?.getD s else s
  | .move (.read number) => if s.number = number then s.read.2 else s
  | .move (.dropStream number) => if s.number = number then s.drop else s
  | .move (.cancel number) => if s.number = number then s.cancel else s
  | .move (.cancelToken token) => if s.parent = some token then s.cancelByParent else s

def Step.newSubscribers (bus : Bus) : Step → List Subscriber
  | .move (.subscribe execution cursor parent) =>
    [{ number := bus.subscribers.length
       execution := execution
       parent := parent
       replay := bus.recent execution cursor
       cancelled := parent.any (· ∈ bus.cancelledTokens) }]
  | _ => []

theorem modify_of_absent {bus : Bus} {number : Nat} {change : Subscriber → Subscriber}
    (absent : bus.find? number = none) : bus.modify number change = bus := by
  have others : ∀ s ∈ bus.subscribers, s.number ≠ number := by
    simpa [find?] using absent
  have same : bus.subscribers.map (fun s => if s.number = number then change s else s) =
      bus.subscribers.map id :=
    List.map_congr_left fun s member => if_neg (others s member)
  simp only [modify, same, List.map_id]

theorem read_eq_modify {bus : Bus} {number : Nat} :
    (bus.read number).2 = bus.modify number fun s => s.read.2 := by
  unfold read
  cases found : bus.find? number with
  | none => exact (modify_of_absent found).symm
  | some s => rfl

theorem subscribers_apply (bus : Bus) (step : Step) :
    (step.apply bus).subscribers =
      bus.subscribers.map (fun s => step.onSubscriber bus.queueCapacity s) ++
        step.newSubscribers bus := by
  cases step with
  | publish event => simp [Step.apply, publish, Step.onSubscriber, Step.newSubscribers]
  | move move =>
      cases move with
      | subscribe execution cursor parent =>
          simp [Step.apply, Move.apply, subscribe, Step.onSubscriber, Step.newSubscribers]
      | read number =>
          simp [Step.apply, Move.apply, read_eq_modify, modify, Step.onSubscriber,
            Step.newSubscribers]
      | _ =>
          simp [Step.apply, Move.apply, forward, dropStream, cancel, cancelToken, modify,
            Step.onSubscriber, Step.newSubscribers]

/-- The tokens that a move cancels. -/
def Move.tokens : Move → List String
  | .cancelToken token => [token]
  | _ => []

/-- A move changes nothing but subscriptions and tokens. -/
theorem Move.apply_eq (bus : Bus) (move : Move) :
    ∃ subscribers, move.apply bus =
      { bus with subscribers, cancelledTokens := move.tokens ++ bus.cancelledTokens } := by
  cases move with
  | read number => exact ⟨_, read_eq_modify⟩
  | _ => exact ⟨_, rfl⟩

@[simp] theorem ringCapacity_apply {bus : Bus} (step : Step) :
    (step.apply bus).ringCapacity = bus.ringCapacity := by
  cases step with
  | publish event => rfl
  | move move =>
      obtain ⟨_, same⟩ := move.apply_eq bus
      rw [Step.apply, same]

@[simp] theorem queueCapacity_apply {bus : Bus} (step : Step) :
    (step.apply bus).queueCapacity = bus.queueCapacity := by
  cases step with
  | publish event => rfl
  | move move =>
      obtain ⟨_, same⟩ := move.apply_eq bus
      rw [Step.apply, same]

end Switchboard.Bus

namespace Switchboard.Subscriber

theorem step?_cases {s next : Subscriber} (moved : s.step? = some next) :
    s.running ∧
      (next = s.exit ∨
        (∃ event, s.hand = some event ∧ s.held ∧ s.slot = none ∧
          next = { s with hand := none, slot := some event }) ∨
        (∃ event rest, s.hand = none ∧ s.replay = event :: rest ∧
          next = { s with hand := some event, replay := rest }) ∨
        (∃ event rest, s.hand = none ∧ s.replay = [] ∧ s.queue = event :: rest ∧
          next = { s with hand := some event, queue := rest })) := by
  unfold step? at moved
  split at moved
  · contradiction
  rename_i running
  refine ⟨by simpa using running, ?_⟩
  split at moved
  · exact .inl (Option.some.inj moved).symm
  split at moved
  · rename_i event inHand
    split at moved
    · exact .inl (Option.some.inj moved).symm
    rename_i held
    split at moved
    · rename_i empty
      refine .inr (.inl ⟨event, inHand, by simpa using held, by simpa using empty, ?_⟩)
      exact (Option.some.inj moved).symm
    · contradiction
  · rename_i inHand
    split at moved
    · rename_i event rest waiting
      exact .inr (.inr (.inl ⟨event, rest, inHand, waiting, (Option.some.inj moved).symm⟩))
    rename_i replayed
    split at moved
    · exact .inl (Option.some.inj moved).symm
    split at moved
    · rename_i event rest waiting
      exact .inr (.inr (.inr ⟨event, rest, inHand, replayed, waiting, (Option.some.inj moved).symm⟩))
    · split at moved
      · contradiction
      · exact .inl (Option.some.inj moved).symm

end Switchboard.Subscriber

namespace Switchboard.Bus

/-- What holds of a subscription holds of it after a step if it is kept by all that a step can do. -/
theorem Step.keeps_onSubscriber {capacity : Nat} {s : Subscriber} (step : Step)
    (Kept : Subscriber → Prop) (kept : Kept s)
    (offers : ∀ event, step = .publish event → reaches event.execution s →
      Kept (s.offer capacity event))
    (moves : ∀ next, s.step? = some next → Kept next) (reads : Kept s.read.2) (drops : Kept s.drop)
    (cancels : Kept s.cancel) (cancelsByParent : Kept s.cancelByParent) :
    Kept (step.onSubscriber capacity s) := by
  cases step with
  | publish event =>
      simp only [onSubscriber]
      split
      · rename_i reached
        exact offers event rfl reached
      · exact kept
  | move move =>
      cases move with
      | subscribe => exact kept
      | forward number =>
          simp only [onSubscriber]
          split
          · cases moved : s.step? with
            | none => exact kept
            | some next => exact moves next moved
          · exact kept
      | read number =>
          simp only [onSubscriber]
          split
          · exact reads
          · exact kept
      | dropStream number =>
          simp only [onSubscriber]
          split
          · exact drops
          · exact kept
      | cancel number =>
          simp only [onSubscriber]
          split
          · exact cancels
          · exact kept
      | cancelToken token =>
          simp only [onSubscriber]
          split
          · exact cancelsByParent
          · exact kept

/-- A step leaves a subscription its number, its execution and its parent token. -/
theorem Step.onSubscriber_eq (capacity : Nat) (s : Subscriber) (step : Step) :
    (step.onSubscriber capacity s).number = s.number ∧
      (step.onSubscriber capacity s).execution = s.execution ∧
      (step.onSubscriber capacity s).parent = s.parent := by
  refine step.keeps_onSubscriber
    (fun t => t.number = s.number ∧ t.execution = s.execution ∧ t.parent = s.parent)
    ⟨rfl, rfl, rfl⟩ ?_ ?_ ?_ ⟨rfl, rfl, rfl⟩ ⟨rfl, rfl, rfl⟩ ⟨rfl, rfl, rfl⟩
  · intro event _ _
    unfold Subscriber.offer
    split <;> exact ⟨rfl, rfl, rfl⟩
  · intro next moved
    obtain ⟨-, rfl | ⟨_, _, _, _, rfl⟩ | ⟨_, _, _, _, rfl⟩ | ⟨_, _, _, _, _, rfl⟩⟩ :=
      Subscriber.step?_cases moved <;> exact ⟨rfl, rfl, rfl⟩
  · unfold Subscriber.read
    split <;> exact ⟨rfl, rfl, rfl⟩

@[simp] theorem Step.number_onSubscriber (capacity : Nat) (s : Subscriber) (step : Step) :
    (step.onSubscriber capacity s).number = s.number :=
  (step.onSubscriber_eq capacity s).1

theorem number_of_find? {bus : Bus} {number : Nat} {s : Subscriber}
    (found : bus.find? number = some s) : s.number = number := by
  simpa using List.find?_some found

/-- A subscription that is there stays there, changed by the step. -/
theorem find?_apply {bus : Bus} {number : Nat} {s : Subscriber} (step : Step)
    (found : bus.find? number = some s) :
    (step.apply bus).find? number = some (step.onSubscriber bus.queueCapacity s) := by
  unfold find? at found ⊢
  rw [subscribers_apply, List.find?_append, List.find?_map]
  simp only [Function.comp_def, Step.number_onSubscriber, found, Option.map_some, Option.some_or]

/-- What every step keeps of a subscription is kept over a run. -/
theorem keeps_run {bus : Bus} {number : Nat} {s : Subscriber} (Kept : Subscriber → Prop)
    (step : ∀ (capacity : Nat) (s : Subscriber) (step : Step),
      Kept s → Kept (step.onSubscriber capacity s))
    (found : bus.find? number = some s) (kept : Kept s) (steps : List Step) :
    ∃ later, (bus.run steps).find? number = some later ∧ Kept later := by
  induction steps generalizing bus s with
  | nil => exact ⟨s, found, kept⟩
  | cons next steps ih => exact ih (find?_apply next found) (step _ _ next kept)

/-- Numbers are given out in order. -/
def Numbered (bus : Bus) : Prop := ∀ s ∈ bus.subscribers, s.number < bus.subscribers.length

theorem Numbered.apply {bus : Bus} (numbered : bus.Numbered) (step : Step) :
    (step.apply bus).Numbered := by
  intro s member
  rw [subscribers_apply] at member ⊢
  rw [List.length_append, List.length_map]
  rcases List.mem_append.mp member with old | new
  · obtain ⟨stored, present, rfl⟩ := List.mem_map.mp old
    rw [Step.number_onSubscriber]
    exact Nat.lt_of_lt_of_le (numbered stored present) (Nat.le_add_right _ _)
  · cases step with
    | publish => contradiction
    | move move =>
        cases move with
        | subscribe =>
            cases List.mem_singleton.mp new
            exact Nat.lt_succ_self _
        | _ => contradiction

theorem numbered_run {bus : Bus} (numbered : bus.Numbered) (steps : List Step) :
    (bus.run steps).Numbered := by
  induction steps generalizing bus with
  | nil => exact numbered
  | cons step steps ih => exact ih (numbered.apply step)

theorem find?_subscribe {bus : Bus} (numbered : bus.Numbered) (execution : ExecutionId)
    (cursor : Int) (parent : Option String) :
    (bus.subscribe execution cursor parent).2.find? (bus.subscribe execution cursor parent).1 =
      some
        { number := bus.subscribers.length
          execution := execution
          parent := parent
          replay := bus.recent execution cursor
          cancelled := parent.any (· ∈ bus.cancelledTokens) } := by
  have others : bus.subscribers.find? (·.number == bus.subscribers.length) = none := by
    rw [List.find?_eq_none]
    intro s member
    have below := numbered s member
    simpa using Nat.ne_of_lt below
  simp only [find?, subscribe, List.find?_append, others, Option.none_or]
  simp

end Switchboard.Bus
