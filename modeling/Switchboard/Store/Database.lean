import Switchboard.Store.Error
import Switchboard.Store.Row

/-!
The tables and the statements on them.

A statement either changes the tables and gives an answer, or fails and changes nothing.  Rows stay
in the order in which they were inserted.  Triggers are part of the database: they refuse rows or
extend a statement, and the executions table can be out of reach, which fails every statement on
it while foreign keys into it keep working.
-/

namespace Switchboard

/-- A standing order of the database, checked for each row a statement touches. -/
inductive Trigger where
  /-- No event with this number is inserted. -/
  | rejectEvent (wire : Int)
  | lockSessions
  /-- This session is not updated. -/
  | lockSession (session : SessionId)
  | lockExecutions
  | lockAudits
  /-- When `execution` fails, the same statement completes `other`. -/
  | completeOther (execution other : ExecutionId)
deriving Repr, DecidableEq, Inhabited

namespace Trigger

/-- Triggers of one slot exclude each other. -/
def slot : Trigger → Nat
  | .rejectEvent _ => 0
  | .lockSessions => 1
  | .lockSession _ => 2
  | .lockExecutions => 3
  | .lockAudits => 4
  | .completeOther _ _ => 5

/-- Whether the trigger stands on the executions table. -/
def onExecutions : Trigger → Bool
  | .lockExecutions | .completeOther _ _ => true
  | _ => false

/-- Why the trigger refuses to update a session, if it does. -/
def refusesSession (row : Session) : Trigger → Option String
  | .lockSessions => some "sessions locked"
  | .lockSession session => if row.session = session then some "session locked" else none
  | _ => none

def refusesExecution : Trigger → Option String
  | .lockExecutions => some "executions locked"
  | _ => none

def refusesEvent (row : EventRow) : Trigger → Option String
  | .rejectEvent wire => if row.wire = wire then some "disk hiccup" else none
  | _ => none

def refusesAudit : Trigger → Option String
  | .lockAudits => some "audit table locked"
  | _ => none

/-- The execution that is completed because one of `failed` has just failed. -/
def completes (failed : List ExecutionId) : Trigger → Option ExecutionId
  | .completeOther execution other => if execution ∈ failed then some other else none
  | _ => none

end Trigger

structure Database where
  projects : List ProjectRow := []
  sessions : List Session := []
  executions : List Execution := []
  events : List EventRow := []
  audits : List AuditRow := []
  triggers : List Trigger := []
  executionsLost : Bool := false
deriving Repr, DecidableEq, Inhabited

abbrev Statement (α : Type) := Database → Except DatabaseFault (α × Database)

abbrev Query (α : Type) := Database → Except DatabaseFault α

namespace Database

/-- Adds a trigger unless one of its slot stands already or its table is out of reach. -/
def addTrigger (db : Database) (trigger : Trigger) : Option Database :=
  if db.triggers.any (·.slot == trigger.slot) || (trigger.onExecutions && db.executionsLost) then
    none
  else some { db with triggers := trigger :: db.triggers }

def clearTriggers (db : Database) : Database := { db with triggers := [] }

def loseExecutions (db : Database) : Option Database :=
  if db.executionsLost then none else some { db with executionsLost := true }

def restoreExecutions (db : Database) : Option Database :=
  if db.executionsLost then some { db with executionsLost := false } else none

/-- The first refusal among the triggers. -/
def refusal (db : Database) (ask : Trigger → Option String) : Except DatabaseFault Unit :=
  match db.triggers.findSome? ask with
  | some reason => .error (.refused reason)
  | none => .ok ()

def insertProject (row : ProjectRow) : Statement Unit := fun db =>
  if db.projects.any (·.project = row.project) then .error (.duplicate "projects" "project_id")
  else .ok ((), { db with projects := db.projects ++ [row] })

def findProject (project : ProjectId) : Query (Option ProjectRow) := fun db =>
  .ok (db.projects.find? (·.project = project))

def insertSession (row : Session) : Statement Unit := fun db =>
  if db.sessions.any (·.session = row.session) then .error (.duplicate "sessions" "session_id")
  else .ok ((), { db with sessions := db.sessions ++ [row] })

def findSession (test : Session → Bool) : Query (Option Session) := fun db =>
  .ok (db.sessions.find? test)

def updateSessions (test : Session → Bool) (change : Session → Session) : Statement Nat :=
  fun db =>
    let hit := db.sessions.filter test
    match hit.findSome? fun row => db.triggers.findSome? (Trigger.refusesSession row) with
    | some reason => .error (.refused reason)
    | none =>
      .ok (hit.length,
        { db with sessions := db.sessions.map fun row => if test row then change row else row })

/-- The executions, if the table is there. -/
def executionRows : Query (List Execution) := fun db =>
  if db.executionsLost then .error (.noTable "executions") else .ok db.executions

def insertExecution (row : Execution) : Statement Unit := fun db =>
  if db.executionsLost then .error (.noTable "executions")
  else if db.executions.any (·.execution = row.execution) then
    .error (.duplicate "executions" "execution_id")
  else if !db.sessions.any (·.session = row.session) then .error .missingParent
  else .ok ((), { db with executions := db.executions ++ [row] })

def findExecution (test : Execution → Bool) : Query (Option Execution) := fun db => do
  return (← db.executionRows).find? test

def filterExecutions (test : Execution → Bool) : Query (List Execution) := fun db => do
  return (← db.executionRows).filter test

/-- What a statement's triggers add to it: executions completed because others failed. -/
def afterFailures (db : Database) (failed : List ExecutionId) (rows : List Execution) :
    List Execution :=
  let completed := db.triggers.filterMap (Trigger.completes failed)
  rows.map fun row =>
    if row.execution ∈ completed then { row with state := .completed } else row

def updateExecutions (test : Execution → Bool) (change : Execution → Execution) :
    Statement Nat := fun db =>
  if db.executionsLost then .error (.noTable "executions")
  else
    let hit := db.executions.filter test
    match hit.findSome? fun _ => db.triggers.findSome? Trigger.refusesExecution with
    | some reason => .error (.refused reason)
    | none =>
      let failed := (hit.filter fun row => row.state ≠ .failed && (change row).state = .failed).map
        (·.execution)
      let rows := db.executions.map fun row => if test row then change row else row
      .ok (hit.length, { db with executions := db.afterFailures failed rows })

/-- Stores an event unless one with its number is stored for the execution; says whether it was
stored. -/
def insertEvent (row : EventRow) : Statement Bool := fun db =>
  match db.triggers.findSome? (Trigger.refusesEvent row) with
  | some reason => .error (.refused reason)
  | none =>
    if db.events.any fun stored => stored.execution = row.execution && stored.wire = row.wire then
      .ok (false, db)
    else if !db.executions.any (·.execution = row.execution) then .error .missingParent
    else .ok (true, { db with events := db.events ++ [row] })

/-- The stored events of an execution with numbers above a cursor, ascending, `limit` at most. -/
def eventsAfter (execution : ExecutionId) (cursor : Int) (limit : Nat) :
    Query (List EventRow) := fun db =>
  let rows := db.events.filter fun row => row.execution = execution && cursor < row.wire
  .ok ((rows.mergeSort fun a b => a.wire ≤ b.wire).take limit)

def insertAudit (row : AuditRow) : Statement Unit := fun db =>
  match db.triggers.findSome? Trigger.refusesAudit with
  | some reason => .error (.refused reason)
  | none =>
    if db.audits.any (·.audit = row.audit) then .error (.duplicate "audit_logs" "audit_id")
    else .ok ((), { db with audits := db.audits ++ [row] })

/-- Earlier first; of one time the smaller identifier first. -/
def auditOrder (a b : AuditRow) : Bool :=
  decide (a.createdAt < b.createdAt) || (a.createdAt == b.createdAt && !decide (b.audit < a.audit))

def auditsOf (execution : ExecutionId) : Query (List AuditRow) := fun db =>
  .ok ((db.audits.filter (·.execution = execution)).mergeSort auditOrder)

end Database

end Switchboard
