import Switchboard.Hub.Confirmation
import Switchboard.Hub.Ingest
import Switchboard.Proofs.Store.InStep

/-!
The transactions of the hub, each in step with itself.

No transaction looks at a time.  An acknowledgement and a sign of life start a pending execution, and
no other transaction tells it from one that is executing.  So on tables that show the same each does
the same.
-/

namespace Switchboard

open Transaction

variable {L : Leeway} {w w' : World} {execution : ExecutionId}

/-- An event without a time that is not compared.  The time of a notice of the hub is one of the
clock. -/
def Event.shown (L : Leeway) (event : Event) : Event :=
  { event with
    timestamp := if event.sequence = .notice then L.stamp event.timestamp
      else L.eventStamp event.execution event.sequence.toWire event.timestamp }

@[simp] theorem Event.shown_notice (trace : Option TraceId) (at_ type : String) (payload : Json) :
    (Event.mk execution trace .notice at_ type payload).shown L =
      ⟨execution, trace, .notice, L.stamp at_, type, payload⟩ := by
  simp only [shown, if_true]

theorem Event.Alike.shown {event event' : Event} (alike : event.Alike L event') :
    event.shown L = event'.shown L := by
  have stamps := alike.stamps
  rw [alike.same]
  unfold Event.shown
  split
  · rw [Leeway.stamp_of_eventStamp stamps]
  · rw [stamps]

/-- Whether as much was made of two batches. -/
structure Batch.Alike (L : Leeway) (batch batch' : Batch) : Prop where
  fresh : batch.fresh.map (Event.shown L) = batch'.fresh.map (Event.shown L)
  outcome : batch.outcome = batch'.outcome
  duplicates : batch.duplicates = batch'.duplicates

theorem Batch.Alike.add {batch batch' : Batch} {event event' : Event} (batches : batch.Alike L batch')
    (events : event.Alike L event') (stored : Bool) :
    (batch.add event stored).Alike L (batch'.add event' stored) := by
  have shown := events.shown
  obtain ⟨fresh, outcome, duplicates⟩ := batches
  refine ⟨?_, ?_, ?_⟩
  · cases stored
    · exact fresh
    · simp only [Batch.add, if_true, List.map_append, List.map_singleton, fresh, shown]
  · rw [Batch.add, Batch.add, events.same, outcome]
    rfl
  · rw [Batch.add, Batch.add, duplicates]

namespace Hub

theorem inStep_checkFree {session session' : Session} (same : session.shown L = session'.shown L) :
    InStep L Eq (checkFree session) (checkFree session') := by
  have held : session.holder = session'.holder := (congrArg SessionRow.holder same :)
  have key : session.session = session'.session := (congrArg SessionRow.session same :)
  unfold checkFree
  rw [held, key]
  split
  · exact inStep_fail _
  · exact inStep_pure rfl

theorem inStep_checkQuota (limit : Nat) (workspace : WorkspaceId) :
    InStep L Eq (checkQuota limit workspace) (checkQuota limit workspace) := by
  unfold checkQuota
  split
  · exact inStep_pure rfl
  · refine ((Execution.inStep_countActive workspace).mapError _).bind fun current _ same => ?_
    subst same
    split
    · exact inStep_fail _
    · exact inStep_pure rfl

theorem inStep_enter (request : ExecuteRequest) {session session' : Session}
    (same : session.shown L = session'.shown L) :
    InStep L Eq (enter request session) (enter request session') := by
  have settings : enter request session = enter request session' :=
    (congrArg (enter request) same :)
  rw [settings]
  refine (inStep_mint _).bind fun execution _ same => ?_
  subst same
  refine (inStep_mint _).bind fun trace _ same => ?_
  subst same
  refine (ProjectRow.inStep_rootOf _).bind fun root _ same => ?_
  subst same
  refine (Execution.inStep_insert _).bind fun _ _ _ => ?_
  exact Session.inStep_bind.bind fun _ _ _ => inStep_pure rfl

theorem inStep_admission (limit : Nat) (request : ExecuteRequest) :
    InStep L Eq (admission limit request) (admission limit request) := by
  refine InStep.committed ?_ _
  refine (Session.inStep_getIn.mapError _).bind fun found found' same => ?_
  refine (inStep_need _ same).bind fun session session' same => ?_
  refine (inStep_checkFree same).bind fun _ _ _ => ?_
  refine (inStep_checkQuota limit request.workspace).bind fun _ _ _ => ?_
  exact (inStep_enter request same).mapError _

theorem inStep_compensate (execution : ExecutionId) :
    InStep L Eq (compensate execution) (compensate execution) := by
  refine InStep.committed ?_ _
  refine inStep_now.bind fun at_ at' stamps => ?_
  refine (Execution.inStep_ended (fun _ _ => Execution.isActive_shown) stamps).bind fun _ _ _ => ?_
  exact Session.inStep_release.bind fun _ _ _ => inStep_pure rfl

theorem inStep_cancelRow (workspace : WorkspaceId) (execution : ExecutionId) :
    InStep L (fun row row' => row.shown L = row'.shown L) (cancelRow workspace execution)
      (cancelRow workspace execution) := by
  refine InStep.committed ?_ _
  refine ((Execution.inStep_find _ fun _ => rfl).mapError _).bind fun found found' same => ?_
  refine (inStep_need _ same).bind fun row row' same => ?_
  refine inStep_now.bind fun at_ at' stamps => ?_
  refine ((Execution.inStep_ended (fun _ _ => rfl) stamps).mapError _).bind fun _ _ _ => ?_
  exact (Session.inStep_release.mapError _).bind fun _ _ _ => inStep_pure same

theorem inStep_completeRow (execution : ExecutionId) (state : ExecutionState) :
    InStep L Eq (completeRow execution state) (completeRow execution state) := by
  refine InStep.committed ?_ _
  refine ((Execution.inStep_find _ fun _ => rfl).mapError _).bind fun found found' same => ?_
  refine (inStep_need _ same).bind fun _ _ _ => ?_
  refine inStep_now.bind fun at_ at' stamps => ?_
  refine ((Execution.inStep_ended (fun _ _ => Execution.isActive_shown) stamps).mapError _).bind
    fun _ _ _ => ?_
  exact (Session.inStep_release.mapError _).bind fun _ _ _ => inStep_pure rfl

theorem inStep_resume (execution : ExecutionId) :
    InStep L Eq (resume execution) (resume execution) := by
  refine ((Execution.inStep_find _ fun _ => rfl).mapError _).bind fun found found' same => ?_
  refine (inStep_need _ same).bind fun row row' same => ?_
  refine (Session.inStep_transition.mapError _).bind fun _ _ _ => inStep_pure ?_
  exact (congrArg ExecutionRow.traceIfAny same :)

/-- An event that brings no time of its own is stamped alike as far as times are compared. -/
theorem inStep_stamped (trace : Option TraceId) (raw : WorkerEvent)
    (undated : normalize raw.timestamp = none →
      (execution, (Sequence.ofWire raw.wire).toWire) ∈ L.undated) :
    InStep L (fun event event' => event.execution = execution ∧ event.Alike L event' ∧
        L.lastStamp execution event.timestamp = L.lastStamp execution event'.timestamp)
      (stamped execution trace raw) (stamped execution trace raw) := by
  unfold stamped
  cases read : normalize raw.timestamp with
  | some timestamp => exact inStep_pure ⟨rfl, ⟨rfl, rfl⟩, rfl⟩
  | none =>
      have listed := undated read
      refine inStep_now.bind fun at_ at' stamps => inStep_pure ?_
      have brought (at_ : String) : (raw.toEvent execution trace at_).timestamp = at_ := by
        simp only [WorkerEvent.toEvent, read, Option.getD_none]
      refine ⟨rfl, ⟨rfl, ?_⟩, ?_⟩ <;> rw [brought, brought]
      · have compared := Leeway.eventStamp_of_undated listed
        exact (compared at_).trans (stamps.trans (compared at').symm)
      · have compared := Leeway.lastStamp_of_undated listed
        exact (compared at_).trans (stamps.trans (compared at').symm)

theorem inStep_takeEvent (trace : Option TraceId) {batch batch' : Batch} (raw : WorkerEvent)
    (undated : normalize raw.timestamp = none →
      (execution, (Sequence.ofWire raw.wire).toWire) ∈ L.undated) (same : batch.Alike L batch') :
    InStep L (Batch.Alike L) (takeEvent execution trace batch raw)
      (takeEvent execution trace batch' raw) := by
  refine (inStep_stamped trace raw undated).bind fun event event' posted => ?_
  obtain ⟨-, alike, last⟩ := posted
  have asks : event'.asksConfirmation = event.asksConfirmation := by rw [alike.same]; rfl
  refine (EventRow.inStep_append alike).bind fun stored _ same' => ?_
  subst same'
  refine (Execution.inStep_recordHeartbeat last).bind fun _ _ _ => ?_
  rw [asks]
  split
  · exact Session.inStep_transition.bind fun _ _ _ => inStep_pure (same.add alike stored)
  · exact inStep_pure (same.add alike stored)

theorem inStep_takeBatch {events : List WorkerEvent}
    (undated : ∀ raw ∈ events, normalize raw.timestamp = none →
      (execution, (Sequence.ofWire raw.wire).toWire) ∈ L.undated) :
    InStep L (Batch.Alike L) (takeBatch execution events) (takeBatch execution events) := by
  refine InStep.committed ?_ _
  refine ((Execution.inStep_find _ fun _ => rfl).mapError _).bind fun found found' same => ?_
  refine (inStep_need _ same).bind fun row row' same => ?_
  have traces : row.traceIfAny = row'.traceIfAny := (congrArg ExecutionRow.traceIfAny same :)
  rw [traces]
  refine InStep.mapError (inStep_foldlM ?_ ⟨rfl, rfl, rfl⟩) _
  intro raw member batch batch' same
  exact inStep_takeEvent _ raw (undated raw member) same

end Hub

end Switchboard
