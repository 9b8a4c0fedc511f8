import Switchboard.Store.Execution

/-!
What is recorded and never changed: the events of executions, each number once, and the audit
trail.
-/

namespace Switchboard

namespace EventRow

open Transaction

def ofEvent (event : Event) : EventRow :=
  ⟨event.execution, event.sequence.toWire, event.timestamp, event.type, event.payload.text⟩

/-- Stores an event; says whether its number was new. -/
def append (event : Event) : Transaction StoreError Bool :=
  perform (Database.insertEvent (ofEvent event))

def limitMax : Nat := Nat.pow 2 63 - 1

def listAfter (execution : ExecutionId) (cursor : Int) (limit : Nat) :
    Transaction StoreError (List EventRow) :=
  query (Database.eventsAfter execution cursor (min limit limitMax))

end EventRow

namespace AuditRow

open Transaction

/-- Stores an audit row; an empty identifier and an empty time are filled in. -/
def record (row : AuditRow) : Transaction StoreError AuditRow := do
  let audit ← if row.audit = "" then mint .audit else pure row.audit
  let createdAt ← if row.createdAt = "" then now else pure row.createdAt
  let row := { row with audit := audit, createdAt := createdAt }
  perform (Database.insertAudit row)
  return row

def listOf (execution : ExecutionId) : Transaction StoreError (List AuditRow) :=
  query (Database.auditsOf execution)

end AuditRow

end Switchboard
