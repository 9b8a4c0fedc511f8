import Switchboard.Store.Session

/-!
Executions.  Every statement that changes the state of an execution is conditional on the state it
is in, so an execution that has ended stays ended, whoever else was about to end it.  Only a
cancellation overrides another ending.
-/

namespace Switchboard

structure NewExecution where
  execution : ExecutionId
  session : SessionId
  project : ProjectId
  workspace : WorkspaceId
  createdBy : UserId
  trace : TraceId
  userMessage : String
  repoRoot : String
  worktreeRoot : String
  useWorktree : Bool
deriving Repr, DecidableEq, Inhabited

namespace Execution

open Transaction

/-- A new execution: pending, nothing heard of it. -/
def admitted (new : NewExecution) (now : String) : Execution :=
  { execution := new.execution
    session := new.session
    project := new.project
    workspace := new.workspace
    createdBy := new.createdBy
    state := .pending
    trace := new.trace
    userMessage := new.userMessage
    repoRoot := new.repoRoot
    worktreeRoot := new.worktreeRoot
    useWorktree := new.useWorktree
    createdAt := now
    startedAt := none
    endedAt := none
    lastEventAt := none }

def isActive (row : Execution) : Bool := row.state.isActive

/-- Executing; an earlier start is kept. -/
def started (at_ : String) (row : Execution) : Execution :=
  { row with state := .executing, startedAt := some (row.startedAt.getD at_) }

/-- The later of two timestamps, the first of which may be missing. -/
def latest (last : Option String) (at_ : String) : String :=
  match last with
  | none => at_
  | some last => if last < at_ then at_ else last

/-- A sign of life: it never moves the last event back, and it starts a pending execution. -/
def heard (at_ : String) (row : Execution) : Execution :=
  let row := if row.state = .pending then row.started at_ else row
  { row with lastEventAt := some (latest row.lastEventAt at_) }

/-- Ended in a state; an earlier end is kept. -/
def ended (state : ExecutionState) (at_ : String) (row : Execution) : Execution :=
  { row with state := state, endedAt := some (row.endedAt.getD at_) }

/-- Failed at a time, whatever end was recorded. -/
def timedOut (at_ : String) (row : Execution) : Execution :=
  { row with state := .failed, endedAt := some at_ }

/-- Whether an executing execution has been silent since a cutoff. -/
def isStale (cutoff : String) (row : Execution) : Bool :=
  let silent : Option String → Bool := fun at_ => at_.all (· < cutoff)
  row.state == .executing && silent row.lastEventAt && silent row.startedAt

def insert (new : NewExecution) : Transaction StoreError Execution := do
  let row := admitted new (← now)
  perform (Database.insertExecution row)
  return row

def get (execution : ExecutionId) : Transaction StoreError (Option Execution) :=
  query (Database.findExecution (·.execution = execution))

def getIn (workspace : WorkspaceId) (execution : ExecutionId) :
    Transaction StoreError (Option Execution) :=
  query (Database.findExecution fun row =>
    row.execution = execution && row.workspace = workspace)

def countActive (workspace : WorkspaceId) : Transaction StoreError Nat := do
  let rows ← query (Database.filterExecutions fun row =>
    row.workspace = workspace && row.isActive)
  return rows.length

/-- Changes one execution if it passes the test; says whether it did. -/
def updateOne (execution : ExecutionId) (test : Execution → Bool)
    (change : Execution → Execution) : Transaction StoreError Bool := do
  let count ← perform (Database.updateExecutions
    (fun row => row.execution == execution && test row) change)
  return 0 < count

/-- A pending execution has been accepted by a worker. -/
def markExecuting (execution : ExecutionId) (at_ : String) : Transaction StoreError Bool :=
  updateOne execution (·.state == .pending) (started at_)

def recordHeartbeat (execution : ExecutionId) (at_ : String) : Transaction StoreError Bool :=
  updateOne execution (fun _ => true) (heard at_)

def finish (execution : ExecutionId) (state : ExecutionState) (at_ : String) :
    Transaction StoreError Bool :=
  updateOne execution isActive (ended state at_)

/-- Ends an execution as cancelled, whatever its state. -/
def cancel (execution : ExecutionId) (at_ : String) : Transaction StoreError Bool :=
  updateOne execution (fun _ => true) (ended .cancelled at_)

def failIfExecuting (execution : ExecutionId) (at_ : String) : Transaction StoreError Bool :=
  updateOne execution (·.state == .executing) (timedOut at_)

/-- The stale executions, oldest first. -/
def listStale (cutoff : String) : Transaction StoreError (List Execution) := do
  let rows ← query (Database.filterExecutions (isStale cutoff))
  return rows.mergeSort fun a b => !decide (b.createdAt < a.createdAt)

end Execution

end Switchboard
