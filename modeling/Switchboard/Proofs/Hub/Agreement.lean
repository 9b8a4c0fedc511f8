import Switchboard.Proofs.Bus.Relabel
import Switchboard.Proofs.Hub.Call
import Switchboard.Proofs.Hub.InStep

/-!
Operations on hubs that show the same.

Two hubs that show the same go on showing the same under the same calls, whatever their clocks say, and
the callers are answered alike.  The second hub may be waiting for an answer to a dispatch that the
first has had, as long as no call is that answer.
-/

namespace Switchboard

open Transaction

variable {L : Leeway} {waiting : Option Assignment} {w w' : World} {h h' : Hub}

def Bus.shown (L : Leeway) (bus : Bus) : Bus := bus.altered (Event.shown L)

def Answer.shown (L : Leeway) : Answer → Answer
  | .project result => .project (result.map (ProjectRow.shown L))
  | .session result => .session (result.map (Session.shown L))
  | .read reading => .read (reading.map (Event.shown L))
  | answer => answer

def Outcome.shown (L : Leeway) (outcome : Outcome) : Outcome :=
  ⟨outcome.answer.shown L, outcome.published.map (Event.shown L)⟩

namespace Bus

variable {bus bus' : Bus}

theorem shown_publishAll (bus : Bus) (events : List Event) :
    (bus.publishAll events).shown L = (bus.shown L).publishAll (events.map (Event.shown L)) := by
  induction events generalizing bus with
  | nil => rfl
  | cons event events ih =>
      have first : (bus.publish event).shown L = (bus.shown L).publish (event.shown L) :=
        altered_publish (fun _ => rfl) (fun _ => rfl)
      have rest := ih (bus.publish event)
      rw [first] at rest
      exact rest

theorem shown_move (move : Move) : (move.apply bus).shown L = move.apply (bus.shown L) :=
  altered_move (f := Event.shown L) (fun _ => rfl) (fun _ => rfl) move

theorem answer_shown (move : Move) : move.answer (bus.shown L) = (move.answer bus).shown L := by
  cases move with
  | subscribe execution cursor parent =>
      have count : (bus.shown L).subscribers.length = bus.subscribers.length := List.length_map _
      exact congrArg Answer.subscribed count
  | read number => exact congrArg Answer.read (read_altered number)
  | _ => rfl

end Bus

namespace Hub

/-- Whether the same assignments wait in two lists, but for one that waits in the second only. -/
structure AllBut (waiting : Option Assignment) (mine others : List Assignment) : Prop where
  mine : mine = others.filter fun a => waiting.all (·.execution != a.execution)
  waits : ∀ a ∈ waiting, others.find? (·.execution == a.execution) = some a

namespace AllBut

variable {a : Assignment} {execution : ExecutionId} {mine others : List Assignment}

theorem none_iff : AllBut none mine others ↔ mine = others := by
  constructor
  · intro all
    simpa using all.mine
  · intro same
    exact ⟨by simp [same], by simp⟩

/-- One list has had the answer that the other waits for. -/
theorem of_find? (found : others.find? (·.execution == a.execution) = some a) :
    AllBut (some a) (others.filter (·.execution != a.execution)) others := by
  refine ⟨List.filter_congr fun b _ => ?_, ?_⟩
  · simp only [Option.all_some, bne_comm]
  · intro b member
    cases member
    exact found

private theorem kept_of_ne {b : Assignment} (apart : ∀ a ∈ waiting, a.execution ≠ b.execution) :
    waiting.all (·.execution != b.execution) = true := by
  cases waiting with
  | none => rfl
  | some a => simpa using apart a rfl

variable (all : AllBut waiting mine others)

include all

theorem append (apart : ∀ b ∈ waiting, b.execution ≠ a.execution) :
    AllBut waiting (mine ++ [a]) (others ++ [a]) := by
  refine ⟨?_, fun b member => ?_⟩
  · rw [List.filter_append, ← all.mine, List.filter_singleton, kept_of_ne apart]
    rfl
  · rw [List.find?_append, all.waits b member]
    rfl

variable (apart : ∀ b ∈ waiting, b.execution ≠ execution)

include apart

theorem find?_eq :
    mine.find? (·.execution == execution) = others.find? (·.execution == execution) := by
  rw [all.mine, List.find?_filter]
  congr 1
  funext b
  by_cases same : b.execution = execution
  · subst same
    simp [kept_of_ne apart]
  · simp [same]

theorem filter : AllBut waiting (mine.filter (·.execution != execution))
    (others.filter (·.execution != execution)) := by
  refine ⟨?_, fun b member => ?_⟩
  · rw [all.mine, List.filter_filter, List.filter_filter]
    simp only [Bool.and_comm]
  · rw [← all.waits b member, List.find?_filter]
    congr 1
    funext other
    by_cases same : other.execution = b.execution
    · simp [same, apart b member]
    · simp [same]

end AllBut

/-- Whether two hubs show the same and the same dispatches wait for an answer in both, but for one that
waits in the second only. -/
structure Alike (L : Leeway) (waiting : Option Assignment) (h h' : Hub) : Prop where
  limit : h.limit = h'.limit
  db : h.db.Alike L h'.db
  outstanding : AllBut waiting h.outstanding h'.outstanding

/-- Answers that correspond, with the hubs they leave. -/
inductive Answered {ε α α' : Type} (L : Leeway) (waiting : Option Assignment)
    (Same : α → α' → Prop) : Except ε α × Hub → Except ε α' × Hub → Prop where
  | error (e : ε) {h h' : Hub} : h.meter = h'.meter → h.Alike L waiting h' →
      Answered L waiting Same (.error e, h) (.error e, h')
  | ok {a : α} {a' : α'} {h h' : Hub} : Same a a' → h.meter = h'.meter → h.Alike L waiting h' →
      Answered L waiting Same (.ok a, h) (.ok a', h')

namespace Answered

variable {ε α α' β : Type} {Same : α → α' → Prop} {r : Except ε α × Hub} {r' : Except ε α' × Hub}

theorem meter (answered : Answered L waiting Same r r') : r.2.meter = r'.2.meter := by
  cases answered with
  | error _ meters _ => exact meters
  | ok _ meters _ => exact meters

theorem after (answered : Answered L waiting Same r r') : r.2.Alike L waiting r'.2 := by
  cases answered with
  | error _ _ alike => exact alike
  | ok _ _ alike => exact alike

theorem result {r' : Except ε α × Hub} (answered : Answered L waiting Eq r r') : r.1 = r'.1 := by
  cases answered with
  | error => rfl
  | ok same => exact congrArg Except.ok same

theorem map_eq {f : α → β} {f' : α' → β}
    (answered : Answered L waiting (fun a a' => f a = f' a') r r') :
    r.1.map f = r'.1.map f' := by
  cases answered with
  | error => rfl
  | ok same => exact congrArg Except.ok same

end Answered

theorem Alike.transact {ε α α' : Type} {t : Transaction ε α} {t' : Transaction ε α'}
    {Same : α → α' → Prop} (alike : h.Alike L waiting h') (meters : h.meter = h'.meter)
    (worlds : w.Alike L w') (steps : InStep L Same t t') :
    Answered L waiting Same (h.transact w t) (h'.transact w' t') := by
  obtain ⟨used, matched⟩ := steps w w' h.meter h.db h'.db worlds alike.db
  unfold Hub.transact
  rw [← meters]
  generalize t w h.meter h.db = outcome at used matched ⊢
  generalize t' w' h.meter h'.db = outcome' at used matched ⊢
  obtain ⟨m, result⟩ := outcome
  obtain ⟨m', result'⟩ := outcome'
  cases used
  cases matched with
  | error e => exact .error e rfl ⟨alike.limit, alike.db, alike.outstanding⟩
  | ok same tables => exact .ok same rfl ⟨alike.limit, tables, alike.outstanding⟩

end Hub

/-- The events that an operation posts without a time, by execution and number. -/
def Operation.undated : Operation → List (ExecutionId × Int)
  | .ingest execution events =>
    (events.filter fun raw => (normalize raw.timestamp).isNone).map fun raw =>
      (execution, (Sequence.ofWire raw.wire).toWire)
  | _ => []

/-- Whether an operation leaves two hubs alike and is seen alike. -/
structure Operation.Agrees (L : Leeway) (waiting : Option Assignment) (w w' : World) (h h' : Hub)
    (operation : Operation) : Prop where
  after : (operation.apply w h).Alike L waiting (operation.apply w' h')
  answer : (operation.answer w h).shown L = (operation.answer w' h').shown L
  published : (operation.published w h).map (Event.shown L) =
    (operation.published w' h').map (Event.shown L)

theorem Operation.Agrees.bus {operation : Operation} (agrees : operation.Agrees L waiting w w' h h')
    (buses : h.bus.shown L = h'.bus.shown L) :
    (operation.apply w h).bus.shown L = (operation.apply w' h').bus.shown L := by
  by_cases speaks : ∀ move, operation ≠ .listen move
  · rw [operation.bus_apply speaks, operation.bus_apply speaks, Bus.shown_publishAll,
      Bus.shown_publishAll, buses, agrees.published]
  · push Not at speaks
    obtain ⟨move, rfl⟩ := speaks
    calc (move.apply h.bus).shown L
      _ = move.apply (h.bus.shown L) := Bus.shown_move move
      _ = move.apply (h'.bus.shown L) := by rw [buses]
      _ = (move.apply h'.bus).shown L := (Bus.shown_move move).symm

namespace Operation

variable (alike : h.Alike L waiting h') (meters : h.meter = h'.meter) (worlds : w.Alike L w')
  {execution : ExecutionId}

include alike meters worlds

theorem agrees_createProject (new : NewProject) :
    (createProject new).Agrees L waiting w w' h h' := by
  have answered := alike.transact meters worlds (ProjectRow.inStep_create new)
  exact ⟨answered.after, congrArg Answer.project answered.map_eq, rfl⟩

theorem agrees_createSession (new : NewSession) :
    (createSession new).Agrees L waiting w w' h h' := by
  have answered := alike.transact meters worlds (Session.inStep_create new)
  exact ⟨answered.after, congrArg Answer.session answered.map_eq, rfl⟩

/-- An execution that is admitted is none that waits for its acknowledgement. -/
theorem agrees_execute (request : ExecuteRequest)
    (known : ∀ a ∈ waiting, ∃ row ∈ h.db.executions, row.execution = a.execution) :
    (execute request).Agrees L waiting w w' h h' := by
  have answered := alike.transact meters worlds (Hub.inStep_admission h.limit request)
  have fresh : ∀ a after, h.transact w (Hub.admission h.limit request) = (.ok a, after) →
      ∀ b ∈ waiting, b.execution ≠ a.execution := by
    intro a after admitted b member same
    obtain ⟨_, _, done, -⟩ := Hub.of_transact_eq_ok admitted
    obtain ⟨_, _, _, _, rfl, -, ⟨-, -, -, -, unknown, -⟩, -⟩ :=
      Hub.of_admission alike.db.undisturbed done
    obtain ⟨row, present, key⟩ := known b member
    exact unknown row present (key.trans same)
  rcases outcome : h.transact w (Hub.admission h.limit request) with ⟨result, after⟩
  rcases outcome' : h'.transact w' (Hub.admission h.limit request) with ⟨result', after'⟩
  rw [outcome, outcome'] at answered
  cases answered with
  | error e _ left =>
      refine ⟨?_, ?_, rfl⟩ <;> simp only [apply, answer, Hub.execute, ← alike.limit, outcome, outcome']
      exact left
  | @ok a _ _ _ same _ left =>
      subst same
      refine ⟨?_, ?_, rfl⟩ <;> simp only [apply, answer, Hub.execute, ← alike.limit, outcome, outcome']
      exact ⟨left.limit, left.db, left.outstanding.append (fresh a after outcome)⟩

theorem agrees_answerDispatch (execution : ExecutionId) (outcome : Except DispatchError Unit)
    (apart : ∀ a ∈ waiting, a.execution ≠ execution) (merged : L.ahead → execution ≠ L.moved) :
    (answerDispatch execution outcome).Agrees L waiting w w' h h' := by
  have found := alike.outstanding.find?_eq apart
  have told : ((answerDispatch execution outcome).answer w h).shown L =
      ((answerDispatch execution outcome).answer w' h').shown L := by
    rw [answer_answerDispatch, answer_answerDispatch, found]
  cases taken : h'.outstanding.find? (·.execution == execution) with
  | none =>
      rw [taken] at found
      refine ⟨?_, told, ?_⟩
      · simp only [apply, Hub.answerDispatch, Hub.takeOutstanding, found, taken]
        exact alike
      · cases outcome <;> simp only [published, Hub.takeOutstanding, found, taken]
  | some a =>
      rw [taken] at found
      obtain rfl : a.execution = execution := by simpa using List.find?_some taken
      have rest : { h with outstanding := h.outstanding.filter (·.execution != a.execution) }.Alike L
          waiting { h' with outstanding := h'.outstanding.filter (·.execution != a.execution) } :=
        ⟨alike.limit, alike.db, alike.outstanding.filter apart⟩
      cases outcome with
      | ok =>
          have marked := (inStep_now (L := L)).bind fun at_ at' stamps =>
            Execution.inStep_markExecuting merged stamps
          have answered := rest.transact meters worlds marked
          refine ⟨?_, told, rfl⟩
          simp only [apply, Hub.answerDispatch, Hub.takeOutstanding, found, taken]
          exact answered.after
      | error reason =>
          have answered := rest.transact meters worlds (Hub.inStep_compensate a.execution)
          refine ⟨?_, told, ?_⟩
          · simp only [apply, Hub.answerDispatch, Hub.takeOutstanding, found, taken]
            have left := answered.after
            exact ⟨left.limit, left.db, left.outstanding⟩
          · simp only [published, Hub.takeOutstanding, found, taken]
            simp only [List.map_singleton, Event.error, Event.shown_notice, answered.meter,
              worlds.stamp_now]

theorem agrees_cancel (workspace : WorkspaceId) (execution : ExecutionId) :
    (cancel workspace execution).Agrees L waiting w w' h h' := by
  have answered := alike.transact meters worlds (Hub.inStep_cancelRow workspace execution)
  rcases outcome : h.transact w (Hub.cancelRow workspace execution) with ⟨result, after⟩
  rcases outcome' : h'.transact w' (Hub.cancelRow workspace execution) with ⟨result', after'⟩
  rw [outcome, outcome'] at answered
  cases answered with
  | error e _ left =>
      constructor <;> simp only [apply, answer, published, Hub.cancel, outcome, outcome']
      exact left
  | @ok row row' _ _ same used left =>
      have traces : row.trace = row'.trace := (congrArg ExecutionRow.trace same :)
      constructor <;> simp only [apply, answer, published, Hub.cancel, outcome, outcome']
      · exact ⟨left.limit, left.db, left.outstanding⟩
      · simp only [List.map_singleton, Event.shown_notice, traces, used, worlds.stamp_now]

theorem agrees_complete (execution : ExecutionId) (reported : String) :
    (complete execution reported).Agrees L waiting w w' h h' := by
  have done : (h.complete w execution reported).1 = (h'.complete w' execution reported).1 ∧
      (h.complete w execution reported).2.Alike L waiting (h'.complete w' execution reported).2 := by
    unfold Hub.complete
    cases Hub.terminalState reported with
    | error reason => exact ⟨rfl, alike⟩
    | ok state =>
        have answered := alike.transact meters worlds (Hub.inStep_completeRow execution state)
        exact ⟨answered.result, answered.after⟩
  exact ⟨done.2, congrArg Answer.ended done.1, rfl⟩

theorem agrees_decide (execution : ExecutionId) (call answer : String) (user : UserId) :
    (decide execution call answer user).Agrees L waiting w w' h h' := by
  have answered := alike.transact meters worlds (Hub.inStep_resume execution)
  rcases outcome : h.transact w (Hub.resume execution) with ⟨result, after⟩
  rcases outcome' : h'.transact w' (Hub.resume execution) with ⟨result', after'⟩
  rw [outcome, outcome'] at answered
  by_cases known : answer ∉ Hub.answers
  · constructor <;> simp only [apply, Operation.answer, published, Hub.decide, if_pos known]
    exact alike
  · cases answered with
    | error e _ left =>
        constructor <;>
          simp only [apply, Operation.answer, published, Hub.decide, known, if_false, outcome, outcome']
        exact left
    | ok same used left =>
        subst same
        constructor <;>
          simp only [apply, Operation.answer, published, Hub.decide, known, if_false, outcome, outcome']
        · exact ⟨left.limit, left.db, left.outstanding⟩
        · simp only [List.map_singleton, Event.shown_notice, used, worlds.stamp_now]

theorem agrees_ingest (execution : ExecutionId) (events : List WorkerEvent)
    (undated : ∀ key ∈ (ingest execution events).undated, key ∈ L.undated) :
    (ingest execution events).Agrees L waiting w w' h h' := by
  have listed : ∀ raw ∈ events, normalize raw.timestamp = none →
      (execution, (Sequence.ofWire raw.wire).toWire) ∈ L.undated := by
    intro raw member read
    refine undated _ (List.mem_map.mpr ⟨raw, ?_, rfl⟩)
    simp [member, read]
  have answered := alike.transact meters worlds (Hub.inStep_takeBatch listed)
  rcases outcome : h.transact w (Hub.takeBatch execution events) with ⟨result, after⟩
  rcases outcome' : h'.transact w' (Hub.takeBatch execution events) with ⟨result', after'⟩
  rw [outcome, outcome'] at answered
  cases answered with
  | error e _ left =>
      refine ⟨?_, ?_, ?_⟩
      · simp only [apply, Hub.ingest_of_error outcome, Hub.ingest_of_error outcome']
        exact left
      · simp only [answer, Hub.ingest_of_error outcome, Hub.ingest_of_error outcome']
      · simp only [published, Hub.posts_of_error outcome, Hub.posts_of_error outcome']
  | @ok batch batch' _ _ same used left =>
      have posted : { after with bus := after.bus.publishAll batch.fresh }.Alike L waiting
          { after' with bus := after'.bus.publishAll batch'.fresh } :=
        ⟨left.limit, left.db, left.outstanding⟩
      have counted : batch.fresh.length = batch'.fresh.length := by
        have lengths := congrArg List.length same.fresh
        simpa only [List.length_map] using lengths
      have done : (h.ingest w execution events).1 = (h'.ingest w' execution events).1 ∧
          (h.ingest w execution events).2.Alike L waiting (h'.ingest w' execution events).2 := by
        rw [Hub.ingest_of_ok outcome, Hub.ingest_of_ok outcome', ← same.outcome, ← same.duplicates,
          ← counted]
        cases batch.outcome with
        | none => exact ⟨rfl, posted⟩
        | some reported =>
            have concluded := posted.transact used worlds
              (Hub.inStep_completeRow execution (Hub.concluding reported))
            exact ⟨congrArg (Except.map _) concluded.result, concluded.after⟩
      refine ⟨done.2, congrArg Answer.ingested done.1, ?_⟩
      simp only [published, Hub.posts_of_ok outcome, Hub.posts_of_ok outcome']
      exact same.fresh

omit worlds meters in
theorem agrees_listen (move : Bus.Move) (buses : h.bus.shown L = h'.bus.shown L) :
    (listen move).Agrees L waiting w w' h h' := by
  refine ⟨⟨alike.limit, alike.db, alike.outstanding⟩, ?_, rfl⟩
  simp only [Operation.answer, ← Bus.answer_shown, buses]

/-- Whether an operation is neither a sweep nor an answer that is waited for. -/
def Passes (waiting : Option Assignment) : Operation → Prop
  | .sweep _ _ => False
  | .answerDispatch execution _ => ∀ a ∈ waiting, a.execution ≠ execution
  | _ => True

/-- Hubs that show the same do the same, as far as it shows. -/
theorem agrees (operation : Operation) (passes : operation.Passes waiting)
    (merged : L.ahead → ∃ a ∈ waiting, a.execution = L.moved)
    (known : ∀ a ∈ waiting, ∃ row ∈ h.db.executions, row.execution = a.execution)
    (undated : ∀ key ∈ operation.undated, key ∈ L.undated)
    (buses : h.bus.shown L = h'.bus.shown L) : operation.Agrees L waiting w w' h h' := by
  cases operation with
  | createProject new => exact agrees_createProject alike meters worlds new
  | createSession new => exact agrees_createSession alike meters worlds new
  | execute request => exact agrees_execute alike meters worlds request known
  | answerDispatch execution outcome =>
      refine agrees_answerDispatch alike meters worlds execution outcome passes fun ahead same => ?_
      obtain ⟨a, member, moved⟩ := merged ahead
      exact passes a member (moved.trans same.symm)
  | cancel workspace execution => exact agrees_cancel alike meters worlds workspace execution
  | complete execution reported => exact agrees_complete alike meters worlds execution reported
  | ingest execution events => exact agrees_ingest alike meters worlds execution events undated
  | decide execution call answer user =>
      exact agrees_decide alike meters worlds execution call answer user
  | sweep => exact passes.elim
  | listen move => exact agrees_listen alike move buses

omit alike meters worlds in
theorem passes_of_unanswered {operation : Operation}
    (unswept : ∀ seconds nanos, operation ≠ .sweep seconds nanos)
    (unanswered : ∀ a ∈ waiting, ∀ outcome, operation ≠ .answerDispatch a.execution outcome) :
    operation.Passes waiting := by
  cases operation with
  | sweep seconds nanos => exact absurd rfl (unswept seconds nanos)
  | answerDispatch execution outcome =>
      intro a member same
      exact unanswered a member outcome (by rw [same])
  | _ => trivial

end Operation

/-- Whether two calls are of the same operation and meet the same, but for the clock if it is not
compared. -/
structure Call.Similar (clocks : Bool) (call call' : Call) : Prop where
  operation : call'.operation = call.operation
  meter : call'.meter = call.meter
  unique : call.world.unique = call'.world.unique
  refuses : call.world.refuses = call'.world.refuses
  clock : clocks → call.world.clock = call'.world.clock

variable {call call' : Call} {calls calls' : List Call}

theorem Call.Similar.agrees (similar : call.Similar L.clocks call') (alike : h.Alike L waiting h')
    (merged : L.ahead → ∃ a ∈ waiting, a.execution = L.moved)
    (known : ∀ a ∈ waiting, ∃ row ∈ h.db.executions, row.execution = a.execution)
    (buses : h.bus.shown L = h'.bus.shown L) (passes : call.operation.Passes waiting)
    (undated : ∀ key ∈ call.operation.undated, key ∈ L.undated) :
    (call.apply h).Alike L waiting (call'.apply h') ∧
      (call.apply h).bus.shown L = (call'.apply h').bus.shown L ∧
      (call.outcome h).shown L = (call'.outcome h').shown L := by
  have worlds : call.world.Alike L call'.world :=
    ⟨similar.unique, similar.refuses, similar.clock⟩
  have start : { h with meter := call.meter }.Alike L waiting { h' with meter := call.meter } :=
    ⟨alike.limit, alike.db, alike.outstanding⟩
  have agrees := call.operation.agrees start rfl worlds passes merged known undated buses
  unfold Call.apply Call.outcome
  rw [similar.operation, similar.meter]
  refine ⟨agrees.after, agrees.bus buses, ?_⟩
  rw [Outcome.shown, Outcome.shown, agrees.answer, agrees.published]

/-- Calls that do not concern the dispatch that one of the hubs waits for. -/
theorem Hub.carryOut_agrees (similar : List.Forall₂ (Call.Similar L.clocks) calls calls')
    (alike : h.Alike L waiting h') (merged : L.ahead → ∃ a ∈ waiting, a.execution = L.moved)
    (known : ∀ a ∈ waiting, ∃ row ∈ h.db.executions, row.execution = a.execution)
    (buses : h.bus.shown L = h'.bus.shown L)
    (passes : ∀ call ∈ calls, call.operation.Passes waiting)
    (undated : ∀ call ∈ calls, ∀ key ∈ call.operation.undated, key ∈ L.undated) :
    (h.carryOut calls).Alike L waiting (h'.carryOut calls') ∧
      (h.carryOut calls).bus.shown L = (h'.carryOut calls').bus.shown L ∧
      (h.outcomes calls).map (Outcome.shown L) = (h'.outcomes calls').map (Outcome.shown L) := by
  induction similar generalizing h h' with
  | nil => exact ⟨alike, buses, rfl⟩
  | @cons call call' calls calls' first _ ih =>
      obtain ⟨after, told, seen⟩ := first.agrees alike merged known buses
        (passes call (List.mem_cons_self ..)) (undated call (List.mem_cons_self ..))
      have still : ∀ a ∈ waiting, ∃ row ∈ (call.apply h).db.executions, row.execution = a.execution :=
        fun a member => (call.becomes alike.db.undisturbed).keeps
          (fun db => ∃ row ∈ db.executions, row.execution = a.execution) (known a member)
          fun _ _ _ _ => Change.exists_execution_apply
      obtain ⟨left, heard, rest⟩ := ih after still told
        (fun call member => passes call (List.mem_cons_of_mem _ member))
        (fun call member => undated call (List.mem_cons_of_mem _ member))
      refine ⟨left, heard, ?_⟩
      rw [Hub.outcomes, Hub.outcomes, List.map_cons, List.map_cons, seen, rest]

end Switchboard
