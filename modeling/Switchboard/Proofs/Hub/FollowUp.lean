import Switchboard.Proofs.Hub.Mutex

/-!
Work on one execution.

Once an execution was admitted, work on it may come at any time: the answer to its assignment, events
of its worker, decisions of a user, its end, a timeout, and all of that again when it is long over.
The statements behind such work name the execution, also where they free or move a session.  So the
rows of other executions stay, and of the sessions only the one that the execution holds is touched.
-/

namespace Switchboard

/-- What may be done about an execution once it was admitted. -/
inductive FollowUp where
  | cancel (workspace : WorkspaceId) (execution : ExecutionId)
  | complete (execution : ExecutionId) (reported : String)
  | ingest (execution : ExecutionId) (events : List WorkerEvent)
  | decide (execution : ExecutionId) (call answer : String) (user : UserId)
  /-- The bookkeeping once the worker has answered an assignment. -/
  | dispatched (assignment : Assignment) (outcome : Except DispatchError Unit)
  /-- The recovery of a row that a sweep has found stale, at that time or before. -/
  | recover (report : SweepReport) (row : Execution)

namespace FollowUp

def execution : FollowUp → ExecutionId
  | .cancel _ execution | .complete execution _ | .ingest execution _
  | .decide execution _ _ _ => execution
  | .dispatched assignment _ => assignment.execution
  | .recover _ row => row.execution

def apply (w : World) (h : Hub) : FollowUp → Hub
  | .cancel workspace execution => (h.cancel w workspace execution).2
  | .complete execution reported => (h.complete w execution reported).2
  | .ingest execution events => (h.ingest w execution events).2
  | .decide execution call answer user => (h.decide w execution call answer user).2
  | .dispatched assignment outcome => h.afterDispatch w assignment outcome
  | .recover report row => (h.recover w report row).1

end FollowUp

namespace Change

/-- Whether a change names no execution but this one. -/
def Concerns (execution : ExecutionId) : Change → Prop
  | .start execution' _ | .finish execution' _ _ _ | .cancel execution' _ _
  | .timeOut execution' _ _ | .resume execution' _ => execution' = execution
  | .take event _ => event.execution = execution
  | .addAudit _ => True
  | .addProject _ | .addSession _ | .enter _ _ _ _ _ _ _ => False

variable {execution : ExecutionId} {change : Change} {db : Database}

theorem Concerns.onExecution_eq (concerns : change.Concerns execution) {row : Execution}
    (other : row.execution ≠ execution) : change.onExecution row = row := by
  cases change with
  | start | finish | cancel | timeOut | take =>
      cases concerns
      simp only [onExecution, other, false_and, if_false]
  | _ => rfl

theorem Concerns.onSession_eq (concerns : change.Concerns execution) {row : Session}
    (other : row.active ≠ some execution) : change.onSession row = row := by
  cases change with
  | finish | cancel | timeOut | take | resume =>
      cases concerns
      simp only [onSession, other, false_and, and_false, if_false]
  | enter => contradiction
  | _ => rfl

theorem Concerns.adds_nothing (concerns : change.Concerns execution) :
    change.newProjects = [] ∧ change.newSessions = [] ∧ change.newExecutions = [] := by
  cases change with
  | addProject | addSession | enter => contradiction
  | _ => exact ⟨rfl, rfl, rfl⟩

theorem Concerns.newEvents_eq (concerns : change.Concerns execution) :
    (change.newEvents db).filter (·.execution ≠ execution) = [] := by
  cases change with
  | take event at_ =>
      have same : (EventRow.ofEvent event).execution = execution := concerns
      simp only [newEvents]
      split <;> simp [same]
  | _ => rfl

end Change

/-- Whether a change of rows leaves all executions but one, and of that one what was fixed at its
admission. -/
def Execution.Sparing (execution : ExecutionId) (change : Execution → Execution) : Prop :=
  ∀ row, (∃ state startedAt endedAt lastEventAt,
      change row = { row with state, startedAt, endedAt, lastEventAt }) ∧
    (row.execution ≠ execution → change row = row)

/-- Whether a change of rows leaves all sessions but the one that an execution holds, and of that one
everything but its holder and its status. -/
def Session.Sparing (execution : ExecutionId) (change : Session → Session) : Prop :=
  ∀ row, (∃ active status updatedAt, change row = { row with active, status, updatedAt }) ∧
    (row.active ≠ some execution → change row = row)

theorem Execution.Sparing.comp {execution : ExecutionId} {first second : Execution → Execution}
    (sparing : Sparing execution first) (sparing' : Sparing execution second) :
    Sparing execution (second ∘ first) := by
  intro row
  obtain ⟨⟨_, _, _, _, same⟩, other⟩ := sparing row
  obtain ⟨⟨_, _, _, _, same'⟩, other'⟩ := sparing' (first row)
  refine ⟨⟨_, _, _, _, same'.trans (by rw [same])⟩, ?_⟩
  intro apart
  have kept := other apart
  rw [kept] at other'
  exact (congrArg second kept).trans (other' apart)

theorem Session.Sparing.comp {execution : ExecutionId} {first second : Session → Session}
    (sparing : Sparing execution first) (sparing' : Sparing execution second) :
    Sparing execution (second ∘ first) := by
  intro row
  obtain ⟨⟨_, _, _, same⟩, other⟩ := sparing row
  obtain ⟨⟨_, _, _, same'⟩, other'⟩ := sparing' (first row)
  refine ⟨⟨_, _, _, same'.trans (by rw [same])⟩, ?_⟩
  intro apart
  have kept := other apart
  rw [kept] at other'
  exact (congrArg second kept).trans (other' apart)

namespace Database

variable {execution : ExecutionId} {limit : Nat} {db db₁ db₂ : Database}

/-- Whether nothing but the row of an execution, its events and the session it holds has changed, and
no row has come or gone but events of that execution. -/
structure Spares (execution : ExecutionId) (db db₁ : Database) : Prop where
  projects : db₁.projects = db.projects
  executions : ∃ change, Execution.Sparing execution change ∧
    db₁.executions = db.executions.map change
  sessions : ∃ change, Session.Sparing execution change ∧ db₁.sessions = db.sessions.map change
  events : db₁.events.filter (·.execution ≠ execution) =
    db.events.filter (·.execution ≠ execution)

theorem Spares.refl (execution : ExecutionId) (db : Database) : Spares execution db db := by
  refine ⟨rfl, ⟨id, ?_, (List.map_id _).symm⟩, ⟨id, ?_, (List.map_id _).symm⟩, rfl⟩
  · exact fun row => ⟨⟨_, _, _, _, rfl⟩, fun _ => rfl⟩
  · exact fun row => ⟨⟨_, _, _, rfl⟩, fun _ => rfl⟩

theorem Spares.trans (first : Spares execution db db₁) (second : Spares execution db₁ db₂) :
    Spares execution db db₂ := by
  obtain ⟨projects, ⟨_, rows, executions⟩, ⟨_, holders, sessions⟩, events⟩ := first
  obtain ⟨projects', ⟨_, rows', executions'⟩, ⟨_, holders', sessions'⟩, events'⟩ := second
  refine ⟨projects'.trans projects, ⟨_, rows.comp rows', ?_⟩, ⟨_, holders.comp holders', ?_⟩,
    events'.trans events⟩
  · rw [executions', executions, List.map_map]
  · rw [sessions', sessions, List.map_map]

theorem spares_apply {change : Change} (concerns : change.Concerns execution) :
    Spares execution db (change.apply db) := by
  obtain ⟨projects, sessions, executions⟩ := concerns.adds_nothing
  refine ⟨?_, ⟨change.onExecution, ?_, ?_⟩, ⟨change.onSession, ?_, ?_⟩, ?_⟩
  · simp only [Change.apply, projects, List.append_nil]
  · exact fun row => ⟨change.onExecution_eq row, concerns.onExecution_eq⟩
  · simp only [Change.apply, executions, List.append_nil]
  · exact fun row => ⟨change.onSession_eq row, concerns.onSession_eq⟩
  · simp only [Change.apply, sessions, List.append_nil]
  · simp only [Change.apply, List.filter_append, concerns.newEvents_eq, List.append_nil]

theorem Becomes.spares (becomes : Becomes limit (Change.Concerns execution) db db₁) :
    Spares execution db db₁ :=
  becomes.keeps (Spares execution db) (.refl execution db)
    fun _ _ concerns _ spares => spares.trans (spares_apply concerns)

namespace Exclusive

theorem holder_unique (exclusive : db.Exclusive) {session other : Session}
    (member : session ∈ db.sessions) (member' : other ∈ db.sessions)
    (holds : session.active = some execution) (holds' : other.active = some execution) :
    session = other := by
  obtain ⟨row, present, about, ofSession, -⟩ := exclusive.held session member execution holds
  obtain ⟨row', present', about', ofOther, -⟩ := exclusive.held other member' execution holds'
  have same := exclusive.execution_unique present present' (about.trans about'.symm)
  subst same
  exact exclusive.session_unique member member' (ofSession.symm.trans ofOther)

theorem active_ne_of_terminal (exclusive : db.Exclusive)
    (ended : ∀ row ∈ db.executions, row.execution = execution → row.state.isTerminal) :
    ∀ session ∈ db.sessions, session.active ≠ some execution := by
  intro session member holds
  obtain ⟨row, present, about, -, -, active⟩ := exclusive.held session member execution holds
  have terminal := ended row present about
  rw [Execution.isActive] at active
  simp [ExecutionState.isTerminal, active] at terminal

end Exclusive

theorem Spares.sessions_eq (spares : Spares execution db db₁)
    (unheld : ∀ session ∈ db.sessions, session.active ≠ some execution) :
    db₁.sessions = db.sessions := by
  obtain ⟨change, sparing, same⟩ := spares.sessions
  have kept : ∀ session ∈ db.sessions, change session = id session :=
    fun session member => (sparing session).2 (unheld session member)
  rw [same, List.map_congr_left kept, List.map_id]

end Database

theorem Operation.concerns_of_makes {w : World} {m m' : Meter} {execution : ExecutionId}
    {outcome : Except DispatchError Unit} {change : Change}
    (made : (answerDispatch execution outcome).Makes w m m' change) : change.Concerns execution := by
  cases outcome with
  | ok answer =>
      cases change with
      | start => exact made
      | _ => contradiction
  | error reason =>
      cases change with
      | finish => exact made.1
      | _ => contradiction

namespace Hub

variable {w : World} {h : Hub}

theorem leads_followUp (undisturbed : h.db.Undisturbed) (step : FollowUp) :
    h.Leads (Change.Concerns step.execution) (step.apply w h) := by
  cases step with
  | cancel workspace execution => exact leads_cancel undisturbed workspace fun _ _ => rfl
  | complete execution reported => exact leads_complete undisturbed reported fun _ _ _ => rfl
  | ingest execution events =>
      exact leads_ingest undisturbed events (fun _ _ about => about) fun _ _ _ => rfl
  | decide execution call answer user =>
      exact leads_decide undisturbed call answer user fun _ => rfl
  | dispatched assignment outcome =>
      have leads := leads_afterDispatch (w := w) undisturbed assignment outcome h.meter h.meter
      exact leads.mono fun _ made => Operation.concerns_of_makes made
  | recover report row =>
      exact leads_recover undisturbed report row (fun _ _ => rfl) fun _ _ => trivial

/-- Late work keeps to its execution.  After every run, whatever is done about an execution leaves
the rows and the events of all others as they are and touches no session but the one that the
execution holds, of which there is one at most; if the execution has ended, no session is touched.
So a session that is held by a newer execution keeps its holder and its status. -/
theorem late_work_keeps_to_its_execution (w : World) (limit ring queue : Nat)
    (operations : List Operation) (step : FollowUp) :
    let h := (create limit ring queue).run w operations
    let after := step.apply w h
    h.db.Spares step.execution after.db ∧
      (∀ session ∈ h.db.sessions, ∀ other ∈ h.db.sessions,
        session.active = some step.execution → other.active = some step.execution →
          session = other) ∧
      ((∀ row ∈ h.db.executions, row.execution = step.execution → row.state.isTerminal) →
        after.db.sessions = h.db.sessions) := by
  intro h after
  have exclusive : h.db.Exclusive := exclusive_run w limit ring queue operations
  have leads := leads_followUp (w := w) (h := h) undisturbed_run step
  have spares : h.db.Spares step.execution after.db := leads.db.spares
  refine ⟨spares, ?_, ?_⟩
  · intro session member other member' holds holds'
    exact exclusive.holder_unique member member' holds holds'
  · intro ended
    exact spares.sessions_eq (exclusive.active_ne_of_terminal ended)

end Hub

end Switchboard
