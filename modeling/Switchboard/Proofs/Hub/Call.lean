import Switchboard.Proofs.Hub.Dispatch

/-!
Calls: what they answer and what they publish.

No operation looks at the bus; each publishes a list of events that depends on the tables alone, and
the moves of readers are the only other thing that changes the bus.  A call brings its own part of the
world, so runs of calls may be rearranged without one call meeting what was meant for another; every
run is a run of calls.
-/

namespace Switchboard

/-- What the caller of an operation is told. -/
inductive Answer where
  | project (result : Except StoreError ProjectRow)
  | session (result : Except StoreError Session)
  | admitted (result : Except HubError ExecutionInfo)
  | dispatched (assignment : Option Assignment)
  | ended (result : Except HubError Unit)
  | ingested (result : Except HubError IngestReport)
  | decided (result : Except HubError Decision)
  | swept (result : Except HubError SweepReport)
  | subscribed (number : Nat)
  | read (reading : Subscriber.Reading)
  | nothing

def Bus.Move.answer (bus : Bus) : Bus.Move → Answer
  | .subscribe execution cursor parent => .subscribed (bus.subscribe execution cursor parent).1
  | .read number => .read (bus.read number).1
  | _ => .nothing

namespace Operation

variable (w : World) (h : Hub)

def answer : Operation → Answer
  | .createProject new => .project (h.transact w (ProjectRow.create new)).1
  | .createSession new => .session (h.transact w (Session.create new)).1
  | .execute request => .admitted (h.execute w request).1
  | .answerDispatch execution outcome =>
    .dispatched ((h.answerDispatch w execution outcome).map Prod.fst)
  | .cancel workspace execution => .ended (h.cancel w workspace execution).1
  | .complete execution reported => .ended (h.complete w execution reported).1
  | .ingest execution events => .ingested (h.ingest w execution events).1
  | .decide execution call answer user => .decided (h.decide w execution call answer user).1
  | .sweep seconds nanos => .swept (h.sweepWithin w seconds nanos).1
  | .listen move => move.answer h.bus

end Operation

namespace Hub

variable (w : World) (h : Hub)

def timeoutPosts (row : Execution) : List Event :=
  [Event.error row.execution (some row.trace) ErrorCode.executionTimeout
      "execution timed out: no heartbeat within timeout" (w.now h.meter),
    ⟨row.execution, some row.trace, .terminal, w.now h.meter.afterReading, EventType.done,
      timeoutPayload⟩]

/-- What is published when one stale execution is recovered. -/
def recoveryPosts (row : Execution) : List Event :=
  match { h with meter := h.meter.afterReading }.transact w
      (failSilent row.execution (w.now h.meter)) with
  | (.ok true, after) =>
    (after.transact w (AuditRow.record (timeoutAudit row (w.now h.meter)))).2.timeoutPosts w row
  | _ => []

def sweepPosts : Hub → List Execution → List Event
  | _, [] => []
  | h, row :: rows => h.recoveryPosts w row ++ sweepPosts (h.recover w {} row).1 rows

end Hub

/-- The events that an operation publishes, in order. -/
def Operation.published (w : World) (h : Hub) : Operation → List Event
  | .answerDispatch execution (.error reason) =>
    match h.takeOutstanding execution with
    | some (a, h) =>
      [Event.error a.execution (some a.trace) reason.code reason.announcement
        (w.now (h.transact w (Hub.compensate a.execution)).2.meter)]
    | none => []
  | .cancel workspace execution =>
    match h.transact w (Hub.cancelRow workspace execution) with
    | (.ok row, h) =>
      [⟨execution, some row.trace, .notice, w.now h.meter, EventType.cancelled, Hub.cancelledPayload⟩]
    | (.error _, _) => []
  | .ingest execution events => h.posts w execution events
  | .decide execution call answer user =>
    match h.decide w execution call answer user with
    | (.ok d, _) =>
      [⟨execution, d.trace, .notice, w.now (h.transact w (Hub.resume execution)).2.meter,
        EventType.confirmationDecision, Hub.decisionPayload d⟩]
    | (.error _, _) => []
  | .sweep seconds nanos =>
    match { h with meter := h.meter.afterReading }.transact w
        (Execution.listStale ((w.clock h.meter.readings).before seconds nanos).text) with
    | (.ok rows, h) => h.sweepPosts w rows
    | (.error _, _) => []
  | _ => []

namespace Hub

variable {w : World} {h : Hub}

theorem bus_execute (request : ExecuteRequest) : (h.execute w request).2.bus = h.bus := by
  have kept := bus_transact (w := w) (h := h) (t := admission h.limit request)
  unfold execute
  rcases outcome : h.transact w (admission h.limit request) with ⟨e | a, after⟩ <;>
    simpa only [outcome] using kept

theorem of_takeOutstanding {execution : ExecutionId} {a : Assignment} {after : Hub}
    (taken : h.takeOutstanding execution = some (a, after)) :
    h.outstanding.find? (·.execution == execution) = some a ∧
      after = { h with outstanding := h.outstanding.filter (·.execution != execution) } := by
  unfold takeOutstanding at taken
  cases found : h.outstanding.find? (·.execution == execution) with
  | none => simp [found] at taken
  | some waiting =>
      simp only [found, Option.some.injEq, Prod.mk.injEq] at taken
      obtain ⟨rfl, rfl⟩ := taken
      exact ⟨rfl, rfl⟩

theorem bus_answerDispatch (execution : ExecutionId) (outcome : Except DispatchError Unit) :
    ((Operation.answerDispatch execution outcome).apply w h).bus =
      h.bus.publishAll ((Operation.answerDispatch execution outcome).published w h) := by
  simp only [Operation.apply, answerDispatch]
  cases outcome <;> simp only [Operation.published] <;>
    rcases waiting : h.takeOutstanding execution with _ | ⟨a, after⟩
  · rfl
  · obtain ⟨-, rfl⟩ := of_takeOutstanding waiting
    simp only [Option.map_some, Option.getD_some, afterDispatch, announceError, announce,
      bus_transact]
    rfl
  · rfl
  · obtain ⟨-, rfl⟩ := of_takeOutstanding waiting
    exact bus_transact

theorem bus_cancel (workspace : WorkspaceId) (execution : ExecutionId) :
    (h.cancel w workspace execution).2.bus =
      h.bus.publishAll ((Operation.cancel workspace execution).published w h) := by
  have kept := bus_transact (w := w) (h := h) (t := cancelRow workspace execution)
  simp only [cancel, Operation.published]
  rcases outcome : h.transact w (cancelRow workspace execution) with ⟨e | row, after⟩ <;>
    simp only [outcome] at kept ⊢
  · exact kept
  · rw [← kept]
    rfl

theorem bus_complete (execution : ExecutionId) (reported : String) :
    (h.complete w execution reported).2.bus = h.bus := by
  unfold complete
  split
  · rfl
  · exact bus_transact

theorem bus_decide (execution : ExecutionId) (call answer : String) (user : UserId) :
    (h.decide w execution call answer user).2.bus =
      h.bus.publishAll ((Operation.decide execution call answer user).published w h) := by
  have kept := bus_transact (w := w) (h := h) (t := resume execution)
  simp only [Operation.published, Hub.decide]
  split
  · rfl
  · rcases outcome : h.transact w (resume execution) with ⟨e | trace, after⟩ <;>
      simp only [outcome] at kept ⊢
    · exact kept
    · rw [← kept]
      rfl

theorem bus_recover (report : SweepReport) (row : Execution) :
    (h.recover w report row).1.bus = h.bus.publishAll (h.recoveryPosts w row) := by
  have kept := bus_transact (w := w) (h := { h with meter := h.meter.afterReading })
    (t := failSilent row.execution (w.now h.meter))
  unfold recover recoveryPosts
  rcases outcome : { h with meter := h.meter.afterReading }.transact w
      (failSilent row.execution (w.now h.meter)) with ⟨e | _ | _, after⟩ <;>
    simp only [outcome] at kept ⊢
  · exact kept
  · exact kept
  · have told (h : Hub) : (h.announceTimeout w row).bus =
        h.bus.publishAll (h.timeoutPosts w row) := rfl
    rw [told, bus_transact, kept]

/-- What a recovery leaves does not depend on the report it is entered in. -/
theorem recover_fst (report : SweepReport) (row : Execution) :
    (h.recover w report row).1 = (h.recover w {} row).1 := by
  unfold recover
  rcases outcome : { h with meter := h.meter.afterReading }.transact w
    (failSilent row.execution (w.now h.meter)) with ⟨e | _ | _, after⟩ <;> simp only [outcome]

theorem publishAll_append (bus : Bus) (before later : List Event) :
    bus.publishAll (before ++ later) = (bus.publishAll before).publishAll later :=
  List.foldl_append

theorem bus_recovering (report : SweepReport) (rows : List Execution) :
    (rows.foldl (fun (h, report) row => h.recover w report row) (h, report)).1.bus =
      h.bus.publishAll (h.sweepPosts w rows) := by
  induction rows generalizing h report with
  | nil => rfl
  | cons row rows ih =>
      rw [List.foldl_cons, sweepPosts, publishAll_append, ← bus_recover report, ← recover_fst report]
      exact ih _

theorem bus_sweepWithin (seconds nanos : Nat) :
    (h.sweepWithin w seconds nanos).2.bus =
      h.bus.publishAll ((Operation.sweep seconds nanos).published w h) := by
  have kept := bus_transact (w := w) (h := { h with meter := h.meter.afterReading })
    (t := Execution.listStale ((w.clock h.meter.readings).before seconds nanos).text)
  simp only [Operation.published, sweepWithin, sweepBefore]
  rcases outcome : { h with meter := h.meter.afterReading }.transact w
      (Execution.listStale ((w.clock h.meter.readings).before seconds nanos).text) with
    ⟨e | rows, after⟩ <;> simp only [outcome] at kept ⊢
  · exact kept
  · rw [← kept]
    exact bus_recovering {} rows

end Hub

/-- Who answers a dispatch is told of the assignment that waited, if one did. -/
theorem Operation.answer_answerDispatch {w : World} {h : Hub} {execution : ExecutionId}
    {outcome : Except DispatchError Unit} :
    (Operation.answerDispatch execution outcome).answer w h =
      .dispatched (h.outstanding.find? (·.execution == execution)) := by
  simp only [answer, Hub.answerDispatch, Hub.takeOutstanding]
  cases h.outstanding.find? (·.execution == execution) with
  | none => rfl
  | some a => rfl

/-- What an operation other than a reader's move does to the bus is to publish its events. -/
theorem Operation.bus_apply {w : World} {h : Hub} (operation : Operation)
    (speaks : ∀ move, operation ≠ .listen move) :
    (operation.apply w h).bus = h.bus.publishAll (operation.published w h) := by
  cases operation with
  | createProject | createSession => exact Hub.bus_transact
  | execute request => exact Hub.bus_execute request
  | answerDispatch execution outcome => exact Hub.bus_answerDispatch execution outcome
  | cancel workspace execution => exact Hub.bus_cancel workspace execution
  | complete execution reported => exact Hub.bus_complete execution reported
  | ingest => exact Hub.bus_ingest
  | decide execution call answer user => exact Hub.bus_decide execution call answer user
  | sweep seconds nanos => exact Hub.bus_sweepWithin seconds nanos
  | listen move => exact absurd rfl (speaks move)

/-- An operation with the world it meets and with what was used of that world before. -/
structure Call where
  world : World
  operation : Operation
  meter : Meter := {}

/-- What is seen of a call. -/
structure Outcome where
  answer : Answer
  published : List Event

namespace Call

variable (call : Call) (h : Hub)

def apply : Hub := call.operation.apply call.world { h with meter := call.meter }

def outcome : Outcome :=
  ⟨call.operation.answer call.world { h with meter := call.meter },
    call.operation.published call.world { h with meter := call.meter }⟩

end Call

namespace Hub

variable {w : World} {h : Hub}

def carryOut (h : Hub) (calls : List Call) : Hub := calls.foldl (fun h call => call.apply h) h

def outcomes : Hub → List Call → List Outcome
  | _, [] => []
  | h, call :: calls => call.outcome h :: outcomes (call.apply h) calls

theorem carryOut_append (first second : List Call) :
    h.carryOut (first ++ second) = (h.carryOut first).carryOut second :=
  List.foldl_append

theorem outcomes_append (first second : List Call) :
    h.outcomes (first ++ second) = h.outcomes first ++ (h.carryOut first).outcomes second := by
  induction first generalizing h with
  | nil => rfl
  | cons call first ih => exact congrArg (call.outcome h :: ·) ih

theorem length_outcomes (calls : List Call) : (h.outcomes calls).length = calls.length := by
  induction calls generalizing h with
  | nil => rfl
  | cons call calls ih => exact congrArg (· + 1) ih

/-- A run is a run of calls that find of the world what those before have left of it. -/
theorem run_eq_carryOut (operations : List Operation) :
    ∃ calls : List Call, calls.map (·.operation) = operations ∧ (∀ call ∈ calls, call.world = w) ∧
      h.run w operations = h.carryOut calls := by
  induction operations generalizing h with
  | nil => exact ⟨[], rfl, by simp, rfl⟩
  | cons operation operations ih =>
      obtain ⟨calls, same, worlds, left⟩ := ih (h := operation.apply w h)
      refine ⟨⟨w, operation, h.meter⟩ :: calls, by rw [List.map_cons, same], ?_, left⟩
      intro call member
      rcases List.mem_cons.mp member with rfl | member
      · rfl
      · exact worlds call member

end Hub

namespace Call

variable {h : Hub} (call : Call)

theorem becomes (undisturbed : h.db.Undisturbed) :
    h.db.Becomes h.limit (fun _ => True) (call.apply h).db :=
  (call.operation.leads (h := { h with meter := call.meter }) undisturbed).db.mono fun _ _ => trivial

theorem undisturbed_apply (undisturbed : h.db.Undisturbed) : (call.apply h).db.Undisturbed :=
  (call.becomes undisturbed).undisturbed undisturbed

end Call

namespace Hub

variable {h : Hub} {admitted : List ExecutionInfo} {answered : List Assignment}

theorem undisturbed_carryOut (undisturbed : h.db.Undisturbed) (calls : List Call) :
    (h.carryOut calls).db.Undisturbed := by
  induction calls generalizing h with
  | nil => exact undisturbed
  | cons call calls ih => exact ih (call.undisturbed_apply undisturbed)

/-- What is kept by allowed changes is kept by calls. -/
theorem keeps_carryOut (Kept : Database → Prop) (undisturbed : h.db.Undisturbed) (start : Kept h.db)
    (step : ∀ limit (change : Change) db, change.Allowed limit db → Kept db → Kept (change.apply db))
    (calls : List Call) : Kept (h.carryOut calls).db := by
  induction calls generalizing h with
  | nil => exact start
  | cons call calls ih =>
      have kept : Kept (call.apply h).db :=
        (call.becomes undisturbed).keeps Kept start fun change db _ => step h.limit change db
      exact ih (call.undisturbed_apply undisturbed) kept

/-- What waits after calls is on file, each execution once, if it was so before. -/
theorem accounted_carryOut (accounted : h.Accounted admitted answered)
    (undisturbed : h.db.Undisturbed) (calls : List Call) :
    ∃ admitted answered, (h.carryOut calls).Accounted admitted answered := by
  induction calls generalizing h admitted answered with
  | nil => exact ⟨admitted, answered, accounted⟩
  | cons call calls ih =>
      have begun : { h with meter := call.meter }.Accounted admitted answered :=
        ⟨accounted.whole, accounted.distinct, accounted.recorded⟩
      exact ih (begun.apply undisturbed call.operation) (call.undisturbed_apply undisturbed)

end Hub

end Switchboard
