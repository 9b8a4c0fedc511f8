import Switchboard.Hub.Admission
import Switchboard.Hub.Ingest

/-!
The changes that committed work makes to the tables.

A change acts on the rows one by one, `onExecution` and `onSession`, and adds rows at the ends of the
tables.  What may change when is a matter of `Allowed`.  Everything the tables keep over a run is
proved of one change first: no proof about the tables looks at a transaction.
-/

namespace Switchboard

namespace ExecuteRequest

variable (request : ExecuteRequest) (session : Session) (root : String) (execution : ExecutionId)
  (trace : TraceId)

/-- Where a request's execution works, if it is to have a directory to itself. -/
def worktree : String :=
  if session.useWorktree && root ≠ "" then worktreePath root execution else ""

def row (createdAt : String) : Execution :=
  Execution.admitted
    { execution := execution
      session := request.session
      project := session.project
      workspace := request.workspace
      createdBy := request.user
      trace := trace
      userMessage := request.message
      repoRoot := root
      worktreeRoot := worktree session root execution
      useWorktree := session.useWorktree }
    createdAt

@[simp] theorem execution_row (createdAt : String) :
    (request.row session root execution trace createdAt).execution = execution := rfl

@[simp] theorem workspace_row (createdAt : String) :
    (request.row session root execution trace createdAt).workspace = request.workspace := rfl

def assignment : Assignment :=
  { execution := execution
    session := request.session
    project := session.project
    workspace := request.workspace
    trace := trace
    userMessage := request.message
    mode := session.mode
    useWorktree := session.useWorktree
    repoRoot := root
    worktreeRoot := worktree session root execution
    modelConfig := session.modelConfig
    skillSets := session.skillSets
    connectors := session.connectors
    user := request.user }

end ExecuteRequest

/-- Whether an event of the same number is stored for the same execution. -/
def Database.knows (row : EventRow) (db : Database) : Bool :=
  db.events.any fun stored => stored.execution = row.execution && stored.wire = row.wire

/-- The last time of a change that ends an execution is that of the release. -/
inductive Change where
  | addProject (row : ProjectRow)
  | addSession (row : Session)
  | enter (request : ExecuteRequest) (session : Session) (root : String)
      (execution : ExecutionId) (trace : TraceId) (createdAt heldAt : String)
  | start (execution : ExecutionId) (at_ : String)
  | finish (execution : ExecutionId) (state : ExecutionState) (at_ freedAt : String)
  | cancel (execution : ExecutionId) (at_ freedAt : String)
  | timeOut (execution : ExecutionId) (at_ freedAt : String)
  /-- An event of a worker; the time is that of the session's waiting, if it comes to that. -/
  | take (event : Event) (at_ : String)
  | resume (execution : ExecutionId) (at_ : String)
  | addAudit (row : AuditRow)

namespace Change

def onExecution : Change → Execution → Execution
  | .start execution at_, row =>
    if row.execution = execution ∧ row.state = .pending then row.started at_ else row
  | .finish execution state at_ _, row =>
    if row.execution = execution ∧ row.isActive then row.ended state at_ else row
  | .cancel execution at_ _, row =>
    if row.execution = execution then row.ended .cancelled at_ else row
  | .timeOut execution at_ _, row =>
    if row.execution = execution ∧ row.state = .executing then row.timedOut at_ else row
  | .take event _, row => if row.execution = event.execution then row.heard event.timestamp else row
  | _, row => row

def onSession : Change → Session → Session
  | .enter request _ _ execution _ _ heldAt, row =>
    if row.session = request.session then row.held execution heldAt else row
  | .finish execution _ _ freedAt, row | .cancel execution _ freedAt, row
  | .timeOut execution _ freedAt, row =>
    if row.active = some execution then row.freed freedAt else row
  | .take event at_, row =>
    if event.asksConfirmation ∧ row.active = some event.execution ∧ row.status = .executing then
      row.withStatus .waitingConfirmation at_
    else row
  | .resume execution at_, row =>
    if row.active = some execution ∧ row.status = .waitingConfirmation then
      row.withStatus .executing at_
    else row
  | _, row => row

@[simp] def newProjects : Change → List ProjectRow
  | .addProject row => [row]
  | _ => []

@[simp] def newSessions : Change → List Session
  | .addSession row => [row]
  | _ => []

@[simp] def newExecutions : Change → List Execution
  | .enter request session root execution trace createdAt _ =>
    [request.row session root execution trace createdAt]
  | _ => []

@[simp] def newEvents (db : Database) : Change → List EventRow
  | .take event _ => if db.knows (.ofEvent event) then [] else [.ofEvent event]
  | _ => []

@[simp] def newAudits : Change → List AuditRow
  | .addAudit row => [row]
  | _ => []

def apply (change : Change) (db : Database) : Database :=
  { db with
    projects := db.projects ++ change.newProjects
    sessions := db.sessions.map change.onSession ++ change.newSessions
    executions := db.executions.map change.onExecution ++ change.newExecutions
    events := db.events ++ change.newEvents db
    audits := db.audits ++ change.newAudits }

theorem apply_of_adds_nothing {change : Change} {db : Database}
    (nothing : change.newProjects = [] ∧ change.newSessions = [] ∧ change.newExecutions = [] ∧
      change.newEvents db = [] ∧ change.newAudits = []) :
    change.apply db =
      { db with
        sessions := db.sessions.map change.onSession
        executions := db.executions.map change.onExecution } := by
  obtain ⟨projects, sessions, executions, events, audits⟩ := nothing
  simp only [apply, projects, sessions, executions, events, audits, List.append_nil]

theorem apply_addProject {row : ProjectRow} {db : Database} :
    (addProject row).apply db = { db with projects := db.projects ++ [row] } := by
  have sessions : (addProject row).onSession = id := rfl
  have executions : (addProject row).onExecution = id := rfl
  simp [apply, sessions, executions]

theorem apply_addSession {row : Session} {db : Database} :
    (addSession row).apply db = { db with sessions := db.sessions ++ [row] } := by
  have sessions : (addSession row).onSession = id := rfl
  have executions : (addSession row).onExecution = id := rfl
  simp [apply, sessions, executions]

theorem apply_addAudit {row : AuditRow} {db : Database} :
    (addAudit row).apply db = { db with audits := db.audits ++ [row] } := by
  have sessions : (addAudit row).onSession = id := rfl
  have executions : (addAudit row).onExecution = id := rfl
  simp [apply, sessions, executions]

theorem apply_start {execution : ExecutionId} {at_ : String} {db : Database} :
    (start execution at_).apply db =
      { db with executions := db.executions.map (start execution at_).onExecution } := by
  have still : (start execution at_).onSession = id := rfl
  rw [apply_of_adds_nothing ⟨rfl, rfl, rfl, rfl, rfl⟩, still, List.map_id]

theorem apply_enter {request : ExecuteRequest} {session : Session} {root : String}
    {execution : ExecutionId} {trace : TraceId} {createdAt heldAt : String} {db : Database} :
    (enter request session root execution trace createdAt heldAt).apply db =
      { db with
        sessions := db.sessions.map fun row =>
          if row.session = request.session then row.held execution heldAt else row
        executions := db.executions ++ [request.row session root execution trace createdAt] } := by
  have executions :
      (enter request session root execution trace createdAt heldAt).onExecution = id := rfl
  simp only [apply, executions, List.map_id, newProjects, newSessions, newExecutions, newEvents,
    newAudits, List.append_nil]
  rfl

theorem apply_take {event : Event} {at_ : String} {db : Database} :
    (take event at_).apply db =
      { db with
        sessions := if event.asksConfirmation then db.sessions.map fun row =>
            if row.active = some event.execution ∧ row.status = .executing then
              row.withStatus .waitingConfirmation at_
            else row
          else db.sessions
        executions := db.executions.map fun row =>
          if row.execution = event.execution then row.heard event.timestamp else row
        events := db.events ++
          if db.knows (.ofEvent event) then [] else [.ofEvent event] } := by
  have waits : (take event at_).onSession = fun row =>
      if event.asksConfirmation ∧ row.active = some event.execution ∧ row.status = .executing then
        row.withStatus .waitingConfirmation at_
      else row := rfl
  simp only [apply, newProjects, newSessions, newExecutions, newEvents, newAudits, List.append_nil,
    waits]
  by_cases asks : event.asksConfirmation
  · simp only [asks, true_and, if_true]
    rfl
  · simp only [asks, Bool.false_eq_true, false_and, if_false, List.map_id']
    rfl

/-- A change of an execution leaves everything that was fixed at its admission. -/
theorem onExecution_eq (change : Change) (row : Execution) :
    ∃ state startedAt endedAt lastEventAt, change.onExecution row =
      { row with state, startedAt, endedAt, lastEventAt } := by
  cases change with
  | start | finish | cancel | timeOut =>
      simp only [onExecution]
      split <;> exact ⟨_, _, _, _, rfl⟩
  | take event =>
      simp only [onExecution, Execution.heard]
      split
      · split <;> exact ⟨_, _, _, _, rfl⟩
      · exact ⟨_, _, _, _, rfl⟩
  | _ => exact ⟨_, _, _, _, rfl⟩

/-- A change of a session leaves everything but its holder, its status and the time of the change. -/
theorem onSession_eq (change : Change) (row : Session) :
    ∃ active status updatedAt, change.onSession row = { row with active, status, updatedAt } := by
  cases change with
  | enter | finish | cancel | timeOut | take | resume =>
      simp only [onSession]
      split <;> exact ⟨_, _, _, rfl⟩
  | _ => exact ⟨_, _, _, rfl⟩

@[simp] theorem execution_onExecution (change : Change) (row : Execution) :
    (change.onExecution row).execution = row.execution := by
  obtain ⟨_, _, _, _, same⟩ := change.onExecution_eq row
  rw [same]

@[simp] theorem session_onExecution (change : Change) (row : Execution) :
    (change.onExecution row).session = row.session := by
  obtain ⟨_, _, _, _, same⟩ := change.onExecution_eq row
  rw [same]

@[simp] theorem trace_onExecution (change : Change) (row : Execution) :
    (change.onExecution row).trace = row.trace := by
  obtain ⟨_, _, _, _, same⟩ := change.onExecution_eq row
  rw [same]

@[simp] theorem workspace_onExecution (change : Change) (row : Execution) :
    (change.onExecution row).workspace = row.workspace := by
  obtain ⟨_, _, _, _, same⟩ := change.onExecution_eq row
  rw [same]

@[simp] theorem session_onSession (change : Change) (row : Session) :
    (change.onSession row).session = row.session := by
  obtain ⟨_, _, _, same⟩ := change.onSession_eq row
  rw [same]

@[simp] theorem workspace_onSession (change : Change) (row : Session) :
    (change.onSession row).workspace = row.workspace := by
  obtain ⟨_, _, _, same⟩ := change.onSession_eq row
  rw [same]

end Change

namespace Database

def activeCount (workspace : WorkspaceId) (db : Database) : Nat :=
  db.executions.countP fun row => row.workspace = workspace && row.isActive

def sessionIn (workspace : WorkspaceId) (session : SessionId) (db : Database) : Option Session :=
  db.sessions.find? fun row => row.session = session && row.workspace = workspace

/-- Where the code of a project lies; empty when it is unknown. -/
def rootOf (project : ProjectId) (db : Database) : String :=
  ((db.projects.find? (·.project = project)).map ProjectRow.repoRoot).getD ""

theorem of_sessionIn_eq_some {workspace : WorkspaceId} {session : SessionId} {db : Database}
    {row : Session} (found : db.sessionIn workspace session = some row) :
    row ∈ db.sessions ∧ row.session = session ∧ row.workspace = workspace := by
  have passed := List.find?_some found
  simp only [Bool.and_eq_true, decide_eq_true_eq] at passed
  exact ⟨List.mem_of_find?_eq_some found, passed⟩

theorem execution_of_find? {execution : ExecutionId} {db : Database} {row : Execution}
    (found : db.executions.find? (·.execution = execution) = some row) :
    row.execution = execution := by
  simpa using List.find?_some found

theorem exists_of_find?_execution {execution : ExecutionId} {db : Database} {row : Execution}
    (found : db.executions.find? (·.execution = execution) = some row) :
    ∃ row ∈ db.executions, row.execution = execution :=
  ⟨row, List.mem_of_find?_eq_some found, execution_of_find? found⟩

theorem find?_of_exists {execution : ExecutionId} {db : Database}
    (present : ∃ row ∈ db.executions, row.execution = execution) :
    ∃ row, db.executions.find? (·.execution = execution) = some row := by
  obtain ⟨row, member, about⟩ := present
  exact Option.isSome_iff_exists.mp (List.find?_isSome.mpr ⟨row, member, decide_eq_true about⟩)

/-- No trigger stands and all tables are there. -/
structure Undisturbed (db : Database) : Prop where
  noTrigger : db.triggers = []
  present : db.executionsLost = false

end Database

namespace Change

/-- When a hub that admits up to `limit` executions per workspace makes a change. -/
def Allowed (limit : Nat) (db : Database) : Change → Prop
  | .addProject row => ∀ stored ∈ db.projects, stored.project ≠ row.project
  | .addSession row =>
    (∀ stored ∈ db.sessions, stored.session ≠ row.session) ∧ row.active = none ∧ row.status = .idle
  | .enter request session root execution _ _ _ =>
    db.sessionIn request.workspace request.session = some session ∧ session.holder = none ∧
      (limit = 0 ∨ db.activeCount request.workspace < limit) ∧ root = db.rootOf session.project ∧
      (∀ stored ∈ db.executions, stored.execution ≠ execution) ∧ execution ≠ ""
  | .finish _ state _ _ => state.isTerminal
  | .cancel execution _ _ => ∃ row ∈ db.executions, row.execution = execution
  | .timeOut execution _ _ => ∃ row ∈ db.executions, row.execution = execution ∧ row.state = .executing
  | .take event _ => ∃ row ∈ db.executions, row.execution = event.execution
  | .addAudit row => ∀ stored ∈ db.audits, stored.audit ≠ row.audit
  | .start _ _ | .resume _ _ => True

variable {change : Change} {db : Database} {limit : Nat}

theorem mem_sessions_apply {row : Session} :
    row ∈ (change.apply db).sessions ↔
      (∃ stored ∈ db.sessions, change.onSession stored = row) ∨ row ∈ change.newSessions := by
  simp [apply]

theorem mem_executions_apply {row : Execution} :
    row ∈ (change.apply db).executions ↔
      (∃ stored ∈ db.executions, change.onExecution stored = row) ∨ row ∈ change.newExecutions := by
  simp [apply]

theorem map_session_apply :
    (change.apply db).sessions.map (·.session) =
      db.sessions.map (·.session) ++ change.newSessions.map (·.session) := by
  simp [apply, Function.comp_def]

theorem map_execution_apply :
    (change.apply db).executions.map (·.execution) =
      db.executions.map (·.execution) ++ change.newExecutions.map (·.execution) := by
  simp [apply, Function.comp_def]

theorem undisturbed_apply (undisturbed : db.Undisturbed) : (change.apply db).Undisturbed :=
  ⟨undisturbed.noTrigger, undisturbed.present⟩

theorem exists_execution_apply {execution : ExecutionId}
    (present : ∃ row ∈ db.executions, row.execution = execution) :
    ∃ row ∈ (change.apply db).executions, row.execution = execution := by
  obtain ⟨row, member, rfl⟩ := present
  exact ⟨change.onExecution row, List.mem_append_left _ (List.mem_map_of_mem member), by simp⟩

end Change

namespace Database

variable {limit : Nat} {kind kind' : Change → Prop} {db db₁ db₂ : Database}

/-- Whether changes of a kind, each allowed in its turn, lead from one state of the tables to
another. -/
inductive Becomes (limit : Nat) (kind : Change → Prop) : Database → Database → Prop where
  | refl (db : Database) : Becomes limit kind db db
  | step {db db₁ : Database} (change : Change) : kind change → change.Allowed limit db →
      Becomes limit kind (change.apply db) db₁ → Becomes limit kind db db₁

namespace Becomes

theorem single (change : Change) (made : kind change) (allowed : change.Allowed limit db) :
    Becomes limit kind db (change.apply db) :=
  .step change made allowed (.refl _)

theorem trans (first : Becomes limit kind db db₁) (second : Becomes limit kind db₁ db₂) :
    Becomes limit kind db db₂ := by
  induction first with
  | refl => exact second
  | step change made allowed _ ih => exact .step change made allowed (ih second)

theorem mono (becomes : Becomes limit kind db db₁) (weaker : ∀ change, kind change → kind' change) :
    Becomes limit kind' db db₁ := by
  induction becomes with
  | refl => exact .refl _
  | step change made allowed _ ih => exact .step change (weaker change made) allowed ih

theorem keeps (Kept : Database → Prop) (becomes : Becomes limit kind db db₁) (start : Kept db)
    (step : ∀ change db, kind change → change.Allowed limit db → Kept db → Kept (change.apply db)) :
    Kept db₁ := by
  induction becomes with
  | refl => exact start
  | step change made allowed _ ih => exact ih (step change _ made allowed start)

theorem undisturbed (becomes : Becomes limit kind db db₁) (start : db.Undisturbed) :
    db₁.Undisturbed :=
  becomes.keeps _ start fun _ _ _ _ => Change.undisturbed_apply

end Becomes

end Database

end Switchboard
