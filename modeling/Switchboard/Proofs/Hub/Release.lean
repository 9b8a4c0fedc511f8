import Switchboard.Proofs.Hub.Quota

/-!
Freeing a busy session.

A request that finds its session held is told by which execution.  That execution is active and lies in
the workspace of the request, so whoever made the request can end it; its end frees the session, and
gives back the place that a request for that session will take.
-/

namespace Switchboard.Hub

open Transaction

variable {w : World} {h : Hub} {limit ring queue : Nat} {request : ExecuteRequest}

theorem of_sessionBusy {session : SessionId} {active : ExecutionId} (undisturbed : h.db.Undisturbed)
    (failed : (h.execute w request).1 = .error (.sessionBusy session active)) :
    session = request.session ∧ (h.execute w request).2.db = h.db ∧
      ∃ row, h.db.sessionIn request.workspace request.session = some row ∧
        row.holder = some active := by
  obtain ⟨m, failed', left⟩ := of_execute_eq_error failed
  rw [left]
  rcases of_admission_eq_error undisturbed failed' with
    ⟨_, same⟩ | ⟨same, -⟩ | ⟨row, found, ⟨_, held, same⟩ | ⟨-, -, -, same⟩⟩
  · cases same
  · cases same
  · cases same
    exact ⟨(Database.of_sessionIn_eq_some found).2.1, rfl, row, found, held⟩
  · cases same

/-- The execution that holds a session is an active one of the same workspace. -/
theorem holder_exists {session : Session} {active : ExecutionId} (exclusive : h.db.Exclusive)
    (found : h.db.sessionIn request.workspace request.session = some session)
    (held : session.holder = some active) :
    session.active = some active ∧ ∃ row ∈ h.db.executions, row.execution = active ∧
      row.session = request.session ∧ row.workspace = request.workspace ∧ row.isActive := by
  obtain ⟨member, named, inWorkspace⟩ := Database.of_sessionIn_eq_some found
  have names : session.active = some active := (Option.filter_eq_some_iff.mp held).1
  obtain ⟨row, present, same, ofSession, ofWorkspace, running⟩ :=
    exclusive.held session member active names
  exact ⟨names, row, present, same, ofSession.trans named, ofWorkspace.trans inWorkspace, running⟩

theorem cancel_of_calmBetween {row : Execution} (undisturbed : h.db.Undisturbed)
    (exclusive : h.db.Exclusive) (member : row ∈ h.db.executions)
    (calm : w.CalmBetween h.meter (h.cancel w row.workspace row.execution).2.meter) :
    (h.cancel w row.workspace row.execution).1 = .ok () := by
  have found : (h.db.executions.find? fun stored =>
      stored.execution = row.execution && stored.workspace = row.workspace) = some row :=
    exclusive.find?_execution member (by simp) (by simp +contextual)
  have gives : ∀ w' : World, w'.CalmFrom h.meter →
      (cancelRow row.workspace row.execution).Gives w' h.meter h.db fun _ _ => True :=
    fun w' calm => gives_cancelRow calm undisturbed found
  unfold cancel at calm ⊢
  rcases outcome : h.transact w (cancelRow row.workspace row.execution) with ⟨e | _, after⟩ <;>
    simp only [outcome] at calm ⊢
  exact absurd calm (refused_of_transact_eq_error (composed_cancelRow _ _) gives outcome)

theorem complete_of_calmBetween {row : Execution} {reported : String} {state : ExecutionState}
    (undisturbed : h.db.Undisturbed) (exclusive : h.db.Exclusive) (member : row ∈ h.db.executions)
    (accepted : terminalState reported = .ok state)
    (calm : w.CalmBetween h.meter (h.complete w row.execution reported).2.meter) :
    (h.complete w row.execution reported).1 = .ok () := by
  have found : h.db.executions.find? (·.execution = row.execution) = some row :=
    exclusive.find?_execution member (by simp) (by simp)
  have gives : ∀ w' : World, w'.CalmFrom h.meter →
      (completeRow row.execution state).Gives w' h.meter h.db fun _ _ => True :=
    fun w' calm => gives_completeRow calm undisturbed found
  simp only [complete, accepted] at calm ⊢
  rcases outcome : h.transact w (completeRow row.execution state) with ⟨e | _, after⟩
  · rw [outcome] at calm
    exact absurd calm (refused_of_transact_eq_error (composed_completeRow _ _) gives outcome)
  · rfl

theorem terminalState_exists {reported : String}
    (acceptable : reported = "" ∨ ∃ state : ExecutionState, state.isTerminal ∧ state.name = reported) :
    ∃ state, terminalState reported = .ok state := by
  rcases acceptable with rfl | ⟨state, terminal, rfl⟩
  · exact ⟨.completed, rfl⟩
  · exact ⟨state, terminalState_name terminal⟩

theorem within_run {operations : List Operation} (workspace : WorkspaceId) :
    limit = 0 ∨ ((create limit ring queue).run w operations).db.activeCount workspace ≤ limit := by
  rcases Nat.eq_zero_or_pos limit with unlimited | limited
  · exact .inl unlimited
  · have within : ((create limit ring queue).run w operations).db.WithinQuota limit :=
      holds_run (fun _ => Nat.zero_le limit) fun _ _ allowed within => within.apply limited allowed
    exact .inr (within workspace)

/-- A busy session can be freed.  After every run, a request whose session is held is told of an
execution that is active in that session and in the workspace of the request.  It can be cancelled
from that workspace, and completed with any end, if no statement fails; and once either is done,
requests for the session are admitted, whatever the limit is. -/
theorem busy_session_can_be_freed (w : World) (limit ring queue : Nat) (operations : List Operation)
    (request : ExecuteRequest) (session : SessionId) (active : ExecutionId)
    (busy : (((create limit ring queue).run w operations).execute w request).1 =
      .error (.sessionBusy session active)) :
    let h := (create limit ring queue).run w operations
    let refused := (h.execute w request).2
    let cancelled := refused.cancel w request.workspace active
    let completed := fun reported => refused.complete w active reported
    session = request.session ∧ refused.db = h.db ∧
    (∃ row ∈ h.db.executions, row.execution = active ∧ row.session = request.session ∧
      row.workspace = request.workspace ∧ ¬ row.state.isTerminal) ∧
    (w.CalmBetween refused.meter cancelled.2.meter → cancelled.1 = .ok ()) ∧
    (∀ reported,
      (reported = "" ∨ ∃ state : ExecutionState, state.isTerminal ∧ state.name = reported) →
        w.CalmBetween refused.meter (completed reported).2.meter →
          (completed reported).1 = .ok ()) ∧
    ∀ again : ExecuteRequest, again.workspace = request.workspace → again.session = request.session →
      (cancelled.1 = .ok () → cancelled.2.Admits w again) ∧
      ∀ reported, (completed reported).1 = .ok () → (completed reported).2.Admits w again := by
  intro h refused cancelled completed
  obtain ⟨named, same, holder, found, held⟩ := of_sessionBusy undisturbed_run busy
  obtain ⟨names, row, present, rfl, ofSession, ofWorkspace, running⟩ :=
    holder_exists (exclusive_run w limit ring queue operations) found held
  -- the refused request is one more operation of the run
  have left : refused = (create limit ring queue).run w (operations ++ [.execute request]) := by
    rw [run_append]
    rfl
  have undisturbed : refused.db.Undisturbed := left ▸ undisturbed_run
  have exclusive : refused.db.Exclusive :=
    left ▸ exclusive_run w limit ring queue (operations ++ [.execute request])
  have minted : refused.Minted w :=
    left ▸ minted_run undisturbed_create fun _ absent => absurd absent List.not_mem_nil
  have member : row ∈ refused.db.executions := by
    rw [same]
    exact present
  have cancels : cancelled = refused.cancel w row.workspace row.execution := by rw [ofWorkspace]
  refine ⟨named, same, ⟨row, present, rfl, ofSession, ofWorkspace, ?_⟩, ?_, ?_, ?_⟩
  · simpa [ExecutionState.isTerminal, Execution.isActive] using running
  · rw [cancels]
    exact cancel_of_calmBetween undisturbed exclusive member
  · intro reported acceptable calm
    obtain ⟨state, accepted⟩ := terminalState_exists acceptable
    exact complete_of_calmBetween undisturbed exclusive member accepted calm
  · intro again again_workspace again_session
    have within : refused.limit = 0 ∨ refused.db.activeCount again.workspace ≤ refused.limit := by
      rw [left, limit_run]
      exact within_run again.workspace
    have waits : refused.WaitsFor w again row := by
      refine ⟨undisturbed, minted, exclusive, member, running, ?_, within, holder, ?_, .inr names⟩
      · rw [ofWorkspace, again_workspace]
      · rw [same, again_workspace, again_session]
        exact found
    rw [cancels]
    exact ⟨waits.admits_of_cancel, fun _ => waits.admits_of_complete⟩

private def occupied : List Operation :=
  [.createSession ⟨some "session", "ws", "p", none, none, false, none, none, none, "user"⟩,
    .execute ⟨"ws", "session", "hello", "user"⟩]

/-- With room for one execution, the request that was refused is admitted after a cancellation. -/
theorem cancellation_lets_the_next_in :
    let h := (create 1 8 8).run .plain occupied
    let request : ExecuteRequest := ⟨"ws", "session", "hello again", "user"⟩
    (h.execute .plain request).1 = .error (.sessionBusy "session" "exec_") ∧ ∃ info,
      (((h.execute .plain request).2.cancel .plain "ws" "exec_").2.execute .plain request).1 =
        .ok info := by
  intro h request
  refine ⟨rfl, ?_⟩
  obtain ⟨-, -, -, accepted, -, admits⟩ :=
    busy_session_can_be_freed .plain 1 8 8 occupied request "session" "exec_" rfl
  have cancelled := accepted fun _ _ _ => rfl
  exact ((admits request rfl rfl).1 cancelled).2 World.injective_plain World.calmFrom_plain

end Switchboard.Hub
