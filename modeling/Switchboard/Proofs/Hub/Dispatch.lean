import Mathlib.Data.List.Nodup
import Switchboard.Proofs.Hub.Ingest
import Switchboard.Proofs.Hub.Lifecycle
import Switchboard.Proofs.Hub.Quota

/-!
One dispatch per admission.

An admission puts its assignment among those that wait for an answer, and an answer takes one out for
good.  So what was answered and what still waits are together what was admitted, each of it once.  An
assignment says of its execution what was fixed at the admission, and the row of the execution goes on
saying it.  A failed dispatch ends the execution wherever it has got to by then.
-/

namespace Switchboard

open Transaction

def Assignment.info (a : Assignment) : ExecutionInfo := ⟨a.execution, a.trace, a.session, .pending⟩

/-- Whether an assignment says what the row of its execution says. -/
structure Assignment.Describes (a : Assignment) (row : Execution) : Prop where
  execution : a.execution = row.execution
  session : a.session = row.session
  project : a.project = row.project
  workspace : a.workspace = row.workspace
  trace : a.trace = row.trace
  userMessage : a.userMessage = row.userMessage
  repoRoot : a.repoRoot = row.repoRoot
  worktreeRoot : a.worktreeRoot = row.worktreeRoot
  useWorktree : a.useWorktree = row.useWorktree

variable {a : Assignment}

theorem ExecuteRequest.describes_row {request : ExecuteRequest} {session : Session} {root : String}
    {execution : ExecutionId} {trace : TraceId} {createdAt : String} :
    (request.assignment session root execution trace).Describes
      (request.row session root execution trace createdAt) :=
  ⟨rfl, rfl, rfl, rfl, rfl, rfl, rfl, rfl, rfl⟩

theorem Assignment.Describes.onExecution {row : Execution} (describes : a.Describes row)
    (change : Change) : a.Describes (change.onExecution row) := by
  obtain ⟨_, _, _, _, same⟩ := change.onExecution_eq row
  rw [same]
  exact { describes with }

/-- Whether the execution of an assignment is in the tables as the assignment describes it. -/
def Database.Records (db : Database) (a : Assignment) : Prop :=
  ∃ row ∈ db.executions, a.Describes row

theorem Database.Records.apply {db : Database} (records : db.Records a) (change : Change) :
    (change.apply db).Records a := by
  obtain ⟨row, member, describes⟩ := records
  exact ⟨change.onExecution row, Change.mem_executions_apply.mpr (.inl ⟨row, member, rfl⟩),
    describes.onExecution change⟩

/-- The assignment that an operation gets an answer to. -/
def Operation.settles (w : World) (h : Hub) : Operation → Option Assignment
  | .answerDispatch execution outcome => (h.answerDispatch w execution outcome).map Prod.fst
  | _ => none

/-- What the caller of an operation is told if it admits an execution. -/
def Operation.admits (w : World) (h : Hub) : Operation → Option ExecutionInfo
  | .execute request => (h.execute w request).1.toOption
  | _ => none

namespace Hub

variable {w : World} {h after : Hub} {admitted : List ExecutionInfo} {answered : List Assignment}

/-- What the callers are told of the executions that a run admits, in order. -/
def admissions (w : World) : Hub → List Operation → List ExecutionInfo
  | _, [] => []
  | h, operation :: operations =>
    (operation.admits w h).toList ++ admissions w (operation.apply w h) operations

/-- The assignments that are answered in a run, in order. -/
def settled (w : World) : Hub → List Operation → List Assignment
  | _, [] => []
  | h, operation :: operations =>
    (operation.settles w h).toList ++ settled w (operation.apply w h) operations

theorem outstanding_transact {ε α : Type} (t : Transaction ε α) :
    (h.transact w t).2.outstanding = h.outstanding := by
  rw [transact_eq]

theorem outstanding_afterDispatch (outcome : Except DispatchError Unit) :
    (h.afterDispatch w a outcome).outstanding = h.outstanding := by
  cases outcome with
  | error reason => exact outstanding_transact (compensate a.execution)
  | ok => exact outstanding_transact _

theorem outstanding_cancel (workspace : WorkspaceId) (execution : ExecutionId) :
    (h.cancel w workspace execution).2.outstanding = h.outstanding := by
  have kept := outstanding_transact (w := w) (h := h) (cancelRow workspace execution)
  unfold cancel
  split <;> rename_i outcome <;> rw [outcome] at kept <;> exact kept

theorem outstanding_complete (execution : ExecutionId) (reported : String) :
    (h.complete w execution reported).2.outstanding = h.outstanding := by
  unfold complete
  split
  · rfl
  · exact outstanding_transact _

theorem outstanding_ingest (execution : ExecutionId) (events : List WorkerEvent) :
    (h.ingest w execution events).2.outstanding = h.outstanding := by
  have kept := outstanding_transact (w := w) (h := h) (takeBatch execution events)
  rcases outcome : h.transact w (takeBatch execution events) with ⟨e | batch, after⟩ <;>
    rw [outcome] at kept
  · rw [ingest_of_error outcome]
    exact kept
  · rw [ingest_of_ok outcome]
    cases batch.outcome with
    | none => exact kept
    | some reported => exact (outstanding_transact _).trans kept

theorem outstanding_decide (execution : ExecutionId) (call answer : String) (user : UserId) :
    (h.decide w execution call answer user).2.outstanding = h.outstanding := by
  have kept := outstanding_transact (w := w) (h := h) (resume execution)
  unfold Hub.decide
  split
  · rfl
  · split <;> rename_i outcome <;> rw [outcome] at kept <;> exact kept

theorem outstanding_recover (report : SweepReport) (row : Execution) :
    (h.recover w report row).1.outstanding = h.outstanding := by
  have kept := outstanding_transact (w := w) (h := { h with meter := h.meter.afterReading })
    (failSilent row.execution (w.now h.meter))
  unfold recover
  rcases outcome : { h with meter := h.meter.afterReading }.transact w
      (failSilent row.execution (w.now h.meter)) with ⟨e | _ | _, after⟩ <;>
    simp only [outcome] at kept ⊢
  · exact kept
  · exact kept
  · have told (h : Hub) : (h.announceTimeout w row).outstanding = h.outstanding := rfl
    rw [told, outstanding_transact]
    exact kept

theorem outstanding_recovering (report : SweepReport) (rows : List Execution) :
    (rows.foldl (fun (h, report) row => h.recover w report row) (h, report)).1.outstanding =
      h.outstanding := by
  induction rows generalizing h report with
  | nil => rfl
  | cons row rows ih => exact (ih _).trans (outstanding_recover report row)

theorem outstanding_sweepWithin (seconds nanos : Nat) :
    (h.sweepWithin w seconds nanos).2.outstanding = h.outstanding := by
  unfold sweepWithin sweepBefore
  generalize ((w.clock h.meter.readings).before seconds nanos).text = cutoff
  have kept := outstanding_transact (w := w) (h := { h with meter := h.meter.afterReading })
    (Execution.listStale cutoff)
  rcases outcome : { h with meter := h.meter.afterReading }.transact w
      (Execution.listStale cutoff) with ⟨e | rows, after⟩ <;> simp only [outcome] at kept ⊢
  · exact kept
  · exact (outstanding_recovering {} rows).trans kept

/-- What was answered so far and what still waits, against what was admitted so far. -/
structure Accounted (admitted : List ExecutionInfo) (answered : List Assignment) (h : Hub) :
    Prop where
  whole : ((answered ++ h.outstanding).map Assignment.info).Perm admitted
  distinct : ((answered ++ h.outstanding).map (·.execution)).Nodup
  recorded : ∀ a ∈ answered ++ h.outstanding, h.db.Records a

namespace Accounted

/-- An operation that leaves the waiting assignments alone. -/
theorem kept (accounted : h.Accounted admitted answered) {kind : Change → Prop}
    (leads : h.Leads kind after) (same : after.outstanding = h.outstanding) :
    after.Accounted admitted answered := by
  refine ⟨same ▸ accounted.whole, same ▸ accounted.distinct, ?_⟩
  intro a member
  rw [same] at member
  exact leads.db.keeps (·.Records a) (accounted.recorded a member)
    fun change _ _ _ records => records.apply change

theorem execute (accounted : h.Accounted admitted answered) (undisturbed : h.db.Undisturbed)
    (request : ExecuteRequest) :
    (h.execute w request).2.Accounted
      (admitted ++ ((h.execute w request).1.toOption).toList) answered := by
  unfold Hub.execute
  rcases outcome : h.transact w (admission h.limit request) with ⟨e | a, after⟩
  · obtain ⟨m, rfl⟩ := of_transact_eq_error outcome
    simp only [Except.toOption, Option.toList_none, List.append_nil]
    exact ⟨accounted.whole, accounted.distinct, accounted.recorded⟩
  · obtain ⟨m, db, done, rfl⟩ := of_transact_eq_ok outcome
    obtain ⟨session, root, createdAt, heldAt, told, -, allowed, rfl⟩ := of_admission undisturbed done
    obtain ⟨-, -, -, -, fresh, -⟩ := allowed
    have new : a.execution = w.fresh h.meter .execution := by
      rw [told]
      rfl
    have unknown : ∀ old ∈ answered ++ h.outstanding, old.execution ≠ a.execution := by
      intro old member same
      obtain ⟨row, present, describes⟩ := accounted.recorded old member
      exact fresh row present (describes.execution.symm.trans (same.trans new))
    refine ⟨?_, ?_, ?_⟩
    · rw [← List.append_assoc, List.map_append]
      exact accounted.whole.append_right _
    · rw [← List.append_assoc, List.map_append, List.nodup_append]
      refine ⟨accounted.distinct, List.nodup_singleton _, ?_⟩
      intro execution member other last
      obtain ⟨old, present, rfl⟩ := List.mem_map.mp member
      cases List.mem_singleton.mp last
      exact unknown old present
    · intro old member
      rw [← List.append_assoc] at member
      rcases List.mem_append.mp member with earlier | last
      · exact (accounted.recorded old earlier).apply _
      · cases List.mem_singleton.mp last
        refine ⟨_, Change.mem_executions_apply.mpr (.inr (List.mem_singleton_self _)), ?_⟩
        rw [told]
        exact ExecuteRequest.describes_row

theorem answerDispatch (accounted : h.Accounted admitted answered) (undisturbed : h.db.Undisturbed)
    (execution : ExecutionId) (outcome : Except DispatchError Unit) :
    (((h.answerDispatch w execution outcome).map Prod.snd).getD h).Accounted admitted
      (answered ++ ((h.answerDispatch w execution outcome).map Prod.fst).toList) := by
  have leads := leads_answerDispatch (w := w) undisturbed execution outcome h.meter h.meter
  unfold Hub.answerDispatch takeOutstanding at leads ⊢
  cases found : h.outstanding.find? (·.execution == execution) with
  | none =>
      simp only [Option.map_none, Option.toList_none, List.append_nil, Option.getD_none]
      exact accounted
  | some a =>
      simp only [found, Option.map_some, Option.toList_some, Option.getD_some] at leads ⊢
      have distinct : (h.outstanding.map (·.execution)).Nodup := by
        have all := accounted.distinct
        rw [List.map_append, List.nodup_append] at all
        exact all.2.1
      obtain ⟨-, before, later, parts, rest⟩ := parts_of_find? distinct found
      have moved : (answered ++ h.outstanding).Perm
          (answered ++ [a] ++ h.outstanding.filter (·.execution != execution)) := by
        rw [rest, parts, List.append_assoc]
        exact List.perm_middle.append_left answered
      refine ⟨?_, ?_, ?_⟩ <;> rw [outstanding_afterDispatch]
      · exact (moved.map _).symm.trans accounted.whole
      · exact (moved.map _).nodup_iff.mp accounted.distinct
      · intro other member
        exact leads.db.keeps (·.Records other) (accounted.recorded other (moved.mem_iff.mpr member))
          fun change _ _ _ records => records.apply change

/-- What an operation admits and what it settles are added to the accounts. -/
theorem apply (accounted : h.Accounted admitted answered) (undisturbed : h.db.Undisturbed)
    (operation : Operation) :
    (operation.apply w h).Accounted (admitted ++ (operation.admits w h).toList)
      (answered ++ (operation.settles w h).toList) := by
  have leads := operation.leads (w := w) undisturbed
  cases operation with
  | execute request =>
      simp only [Operation.settles, Option.toList_none, List.append_nil]
      exact accounted.execute undisturbed request
  | answerDispatch execution outcome =>
      simp only [Operation.admits, Option.toList_none, List.append_nil]
      exact accounted.answerDispatch undisturbed execution outcome
  | _ =>
      simp only [Operation.admits, Operation.settles, Option.toList_none, List.append_nil]
      refine accounted.kept leads ?_
      first
        | rfl
        | exact outstanding_transact _
        | exact outstanding_cancel _ _
        | exact outstanding_complete _ _
        | exact outstanding_ingest _ _
        | exact outstanding_decide _ _ _ _
        | exact outstanding_sweepWithin _ _

end Accounted

theorem accounted_run (accounted : h.Accounted admitted answered) (undisturbed : h.db.Undisturbed)
    (operations : List Operation) :
    (h.run w operations).Accounted (admitted ++ h.admissions w operations)
      (answered ++ h.settled w operations) := by
  induction operations generalizing h admitted answered with
  | nil =>
      simp only [admissions, settled, List.append_nil]
      exact accounted
  | cons operation operations ih =>
      rw [admissions, settled, ← List.append_assoc, ← List.append_assoc]
      exact ih (accounted.apply undisturbed operation)
        ((operation.leads undisturbed).undisturbed undisturbed)

theorem accounted_create (limit ring queue : Nat) : (create limit ring queue).Accounted [] [] :=
  ⟨.refl _, List.nodup_nil, fun _ absent => absurd absent List.not_mem_nil⟩

theorem of_failed_dispatch {execution : ExecutionId} {reason : DispatchError}
    (undisturbed : h.db.Undisturbed)
    (failed : h.answerDispatch w execution (.error reason) = some (a, after))
    (committed : (h.transact w (compensate execution)).1 = .ok ()) :
    a ∈ h.outstanding ∧ a.execution = execution ∧
      (∃ at_ freedAt, after.db = (Change.finish execution .failed at_ freedAt).apply h.db) ∧
      ∃ now, after.bus = h.bus.publish
        (Event.error execution (some a.trace) reason.code reason.announcement now) := by
  unfold answerDispatch takeOutstanding at failed
  cases found : h.outstanding.find? (·.execution == execution) with
  | none => simp [found] at failed
  | some waiting =>
      obtain rfl : waiting.execution = execution := by simpa using List.find?_some found
      simp only [found, Option.map_some, Option.some.injEq, Prod.mk.injEq] at failed
      obtain ⟨rfl, rfl⟩ := failed
      refine ⟨List.mem_of_find?_eq_some found, rfl, ?_, ?_⟩
      · obtain ⟨m, db, done, -⟩ := of_transact_eq_ok (Prod.ext committed rfl)
        obtain ⟨at_, freedAt, rfl⟩ := of_compensate undisturbed done
        refine ⟨at_, freedAt, ?_⟩
        simp only [afterDispatch, announceError, announce, transact, done]
      · unfold afterDispatch announceError announce
        simp only [bus_transact]
        exact ⟨_, rfl⟩

end Hub

/-- The code that the payload of an `error` event names. -/
def Event.errorCode (event : Event) : Option Json :=
  (event.payload.get? "error").bind (·.get? "code")

theorem Event.errorCode_error (execution : ExecutionId) (trace : Option TraceId)
    (code message now : String) :
    (Event.error execution trace code message now).errorCode = some (.string code) := by
  cases trace <;> rfl

/-- What a row becomes by an end as failed. -/
theorem Change.onExecution_finish_failed {row : Execution} {at_ freedAt : String} :
    let row' := (finish row.execution .failed at_ freedAt).onExecution row
    (row.isActive → row'.state = .failed) ∧ (row.state.isTerminal → row' = row) := by
  cases active : row.isActive with
  | true =>
      have running : row.state.isActive = true := active
      simp [onExecution, active, Execution.ended, ExecutionState.isTerminal, running]
  | false => simp [onExecution, active]

namespace Hub

/-- One dispatch per admission.  After every run the assignments that were answered and those that
still wait are, in some order, those of the executions whose callers were told of an admission, and no
execution has two; a call that is refused hands out nothing.  Each assignment says what the stored row
of its execution says.  When a dispatch fails and what follows is committed, the execution has ended
then, as it had before if it had ended before, no session is held by it, and exactly one event is
published: an error outside the worker's numbering whose code tells whether there was a worker. -/
theorem one_dispatch_per_admission (w : World) (limit ring queue : Nat)
    (operations : List Operation) :
    let start := create limit ring queue
    let h := start.run w operations
    let dispatched := start.settled w operations ++ h.outstanding
    (dispatched.map Assignment.info).Perm (start.admissions w operations) ∧
      (dispatched.map (·.execution)).Nodup ∧
      (∀ request e, (h.execute w request).1 = .error e →
        (h.execute w request).2.outstanding = h.outstanding) ∧
      (∀ a ∈ dispatched, ∃ row,
        h.db.executions.find? (·.execution = a.execution) = some row ∧ a.Describes row) ∧
      ∀ execution reason a after,
        h.answerDispatch w execution (.error reason) = some (a, after) →
        (h.transact w (compensate execution)).1 = .ok () →
          (∃ row row', h.db.executions.find? (·.execution = execution) = some row ∧
            after.db.executions.find? (·.execution = execution) = some row' ∧
            row'.state.isTerminal ∧ (row.isActive → row'.state = .failed) ∧
            (row.state.isTerminal → row' = row)) ∧
          (∀ session ∈ after.db.sessions, session.active ≠ some execution) ∧
          ∃ event, after.bus = h.bus.publish event ∧ event.execution = execution ∧
            event.sequence.toWire = -1 ∧ event.type = EventType.error ∧
            event.errorCode = some (.string
              (if reason = .noWorker then "E_NO_WORKER" else "E_WORKER_DISPATCH")) := by
  intro start h dispatched
  have undisturbed : h.db.Undisturbed := undisturbed_run
  have exclusive : h.db.Exclusive := exclusive_run w limit ring queue operations
  have accounted : h.Accounted (start.admissions w operations) (start.settled w operations) :=
    accounted_run (accounted_create limit ring queue) undisturbed_create operations
  have stored : ∀ a ∈ dispatched, ∃ row,
      h.db.executions.find? (·.execution = a.execution) = some row ∧ a.Describes row := by
    intro a member
    obtain ⟨row, present, describes⟩ := accounted.recorded a member
    refine ⟨row, ?_, describes⟩
    rw [describes.execution]
    exact exclusive.find?_execution present (by simp) (by simp)
  refine ⟨accounted.whole, accounted.distinct, ?_, stored, ?_⟩
  · intro request e refused
    obtain ⟨m, -, same⟩ := of_execute_eq_error refused
    rw [same]
  · intro execution reason a after failed committed
    obtain ⟨waiting, rfl, ⟨at_, freedAt, tables⟩, now, published⟩ :=
      of_failed_dispatch undisturbed failed committed
    obtain ⟨row, found, describes⟩ := stored a (List.mem_append_right _ waiting)
    refine ⟨⟨row, (Change.finish a.execution .failed at_ freedAt).onExecution row, found, ?_, ?_, ?_⟩,
      ?_, ?_⟩
    · rw [tables]
      simp only [Change.apply, List.find?_append, List.find?_map, Function.comp_def,
        Change.execution_onExecution, found, Option.map_some, Option.some_or]
    · have ended : ∀ row ∈ ((Change.finish a.execution .failed at_ freedAt).apply h.db).executions,
          row.execution = a.execution → row.state.isTerminal := Change.isTerminal_apply_finish rfl
      refine ended _ (Change.mem_executions_apply.mpr (.inl ⟨row, ?_, rfl⟩)) ?_
      · exact List.mem_of_find?_eq_some found
      · rw [Change.execution_onExecution, describes.execution]
    · rw [describes.execution]
      exact Change.onExecution_finish_failed
    · rw [tables]
      exact Change.active_apply_finish
    · refine ⟨_, published, rfl, rfl, rfl, ?_⟩
      rw [Event.errorCode_error]
      cases reason <;> rfl

/-- A session whose only execution was cancelled before any worker answered. -/
private def cancelledEarly : List Operation :=
  [.createSession ⟨some "session", "ws", "p", none, none, false, none, none, none, "user"⟩,
    .execute ⟨"ws", "session", "hello", "user"⟩, .cancel "ws" "exec_"]

/-- A cancellation that came before the failure of the dispatch is kept. -/
theorem cancellation_outlives_failed_dispatch :
    let h := (create 0 8 8).run .plain cancelledEarly
    (h.transact .plain (compensate "exec_")).1 = .ok () ∧
      ∃ a after, h.answerDispatch .plain "exec_" (.error .noWorker) = some (a, after) ∧
        (∃ row, after.db.executions.find? (·.execution = "exec_") = some row ∧
          row.state = .cancelled) ∧
        ∃ event, after.bus = h.bus.publish event ∧
          event.errorCode = some (.string "E_NO_WORKER") := by
  intro h
  obtain ⟨-, -, -, -, failing⟩ := one_dispatch_per_admission .plain 0 8 8 cancelledEarly
  refine ⟨rfl, _, _, rfl, ?_⟩
  obtain ⟨⟨row, row', found, found', -, -, kept⟩, -, event, published, -, -, -, code⟩ :=
    failing "exec_" .noWorker _ _ rfl rfl
  obtain rfl := Option.some.inj found
  exact ⟨⟨row', found', by rw [kept rfl]; rfl⟩, event, published, code⟩

end Hub

end Switchboard
