import Switchboard.Hub.Confirmation
import Switchboard.Hub.Ending
import Switchboard.Hub.Sweep
import Switchboard.Proofs.Store.Progress

/-!
The transactions of the hub are composed of the parts there are.
-/

namespace Switchboard

open Transaction

variable (execution : ExecutionId)

theorem composed_givenOrFresh (kind : IdKind) (given : Option String) :
    Composed (givenOrFresh kind given : Transaction StoreError String) := by
  cases given with
  | none => exact .mint kind
  | some id => exact .pure id

theorem Execution.composed_updateOne (test : Execution → Bool) (change : Execution → Execution) :
    Composed (updateOne execution test change) :=
  .bind (.perform _) fun _ => .pure _

theorem Session.composed_release : Composed (release execution) :=
  .bind .now fun _ => .perform _

theorem Session.composed_transition (source target : SessionStatus) :
    Composed (transition execution source target) :=
  .bind .now fun _ => .bind (.perform _) fun _ => .pure _

theorem ProjectRow.composed_create (new : NewProject) : Composed (create new) :=
  .bind (composed_givenOrFresh _ _) fun _ => .bind .now fun _ =>
    .bind (.perform _) fun _ => .pure _

theorem Session.composed_create (new : NewSession) : Composed (create new) :=
  .bind (composed_givenOrFresh _ _) fun _ => .bind .now fun _ =>
    .bind (.perform _) fun _ => .pure _

theorem AuditRow.composed_record (row : AuditRow) : Composed (record row) := by
  unfold record
  split <;> split <;> simp only [pure_bind]
  · exact .bind (.mint _) fun _ => .bind .now fun _ => .bind (.perform _) fun _ => .pure _
  · exact .bind .now fun _ => .bind (.perform _) fun _ => .pure _
  · exact .bind (.mint _) fun _ => .bind (.perform _) fun _ => .pure _
  · exact .bind (.perform _) fun _ => .pure _

namespace Hub

theorem composed_checkFree (session : Session) : Composed (checkFree session) := by
  unfold checkFree
  split
  · exact .fail _
  · exact .pure _

theorem composed_checkQuota (limit : Nat) (workspace : WorkspaceId) :
    Composed (checkQuota limit workspace) := by
  unfold checkQuota
  split
  · exact .pure _
  · refine .bind (Composed.onStore (.bind (.query _) fun rows => .pure _)) fun current => ?_
    split
    · exact .fail _
    · exact .pure _

theorem composed_enter (request : ExecuteRequest) (session : Session) :
    Composed (enter request session) := by
  have found (project : ProjectId) : Composed (ProjectRow.rootOf project) :=
    .bind (.query _) fun _ => .pure _
  have inserted (new : NewExecution) : Composed (Execution.insert new) :=
    .bind .now fun _ => .bind (.perform _) fun _ => .pure _
  have bound (id : SessionId) (execution : ExecutionId) : Composed (Session.bind id execution) :=
    .bind .now fun _ => .bind (.perform _) fun _ => .pure _
  exact .bind (.mint _) fun _ => .bind (.mint _) fun _ => .bind (found _) fun _ =>
    .bind (inserted _) fun _ => .bind (bound _ _) fun _ => .pure _

theorem composed_admission (limit : Nat) (request : ExecuteRequest) :
    Composed (admission limit request) :=
  .committed (.bind (.onStore (.query _)) fun _ => .bind (.need _ _) fun session =>
    .bind (composed_checkFree session) fun _ => .bind (composed_checkQuota _ _) fun _ =>
      .onStore (composed_enter request session)) _

theorem composed_compensate : Composed (compensate execution) :=
  .committed (.bind .now fun _ => .bind (Execution.composed_updateOne _ _ _) fun _ =>
    .bind (Session.composed_release _) fun _ => .pure _) _

theorem composed_cancelRow (workspace : WorkspaceId) : Composed (cancelRow workspace execution) :=
  .committed (.bind (.onStore (.query _)) fun _ => .bind (.need _ _) fun _ =>
    .bind .now fun _ => .bind (.onStore (Execution.composed_updateOne _ _ _)) fun _ =>
      .bind (.onStore (Session.composed_release _)) fun _ => .pure _) _

theorem composed_completeRow (state : ExecutionState) : Composed (completeRow execution state) :=
  .committed (.bind (.onStore (.query _)) fun _ => .bind (.need _ _) fun _ =>
    .bind .now fun _ => .bind (.onStore (Execution.composed_updateOne _ _ _)) fun _ =>
      .bind (.onStore (Session.composed_release _)) fun _ => .pure _) _

theorem composed_failSilent (at_ : String) : Composed (failSilent execution at_) := by
  refine .committed (.bind (Execution.composed_updateOne _ _ _) fun failed => ?_) _
  split
  · exact .bind (Session.composed_release _) fun _ => .pure _
  · exact .pure _

theorem composed_resume : Composed (resume execution) :=
  .bind (.onStore (.query _)) fun _ => .bind (.need _ _) fun _ =>
    .bind (.onStore (Session.composed_transition _ _ _)) fun _ => .pure _

theorem composed_stamped (trace : Option TraceId) (raw : WorkerEvent) :
    Composed (stamped execution trace raw) := by
  unfold stamped
  split
  · exact .pure _
  · exact .bind .now fun _ => .pure _

theorem composed_takeEvent (trace : Option TraceId) (batch : Batch) (raw : WorkerEvent) :
    Composed (takeEvent execution trace batch raw) := by
  refine .bind (composed_stamped execution trace raw) fun event => ?_
  refine .bind (.perform _) fun stored => ?_
  refine .bind (Execution.composed_updateOne _ _ _) fun _ => ?_
  split
  · exact .bind (Session.composed_transition _ _ _) fun _ => .pure _
  · exact .pure _

theorem composed_takeEvents (trace : Option TraceId) (batch : Batch) (events : List WorkerEvent) :
    Composed (events.foldlM (takeEvent execution trace) batch) := by
  induction events generalizing batch with
  | nil => exact .pure batch
  | cons raw events ih =>
      rw [List.foldlM_cons]
      exact .bind (composed_takeEvent execution trace batch raw) ih

theorem composed_takeBatch (events : List WorkerEvent) : Composed (takeBatch execution events) :=
  .committed (.bind (.onStore (.query _)) fun _ => .bind (.need _ _) fun _ =>
    .onStore (composed_takeEvents _ _ _ _)) _

end Hub

end Switchboard
