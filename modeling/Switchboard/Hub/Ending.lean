import Switchboard.Hub.Admission

/-!
Ending an execution: at a caller's request, or as its worker reports.
-/

namespace Switchboard.Hub

open Transaction

/-- Finds the execution in the workspace and cancels it; gives the row as it was. -/
def cancelRow (workspace : WorkspaceId) (execution : ExecutionId) :
    Transaction HubError Execution :=
  committed .store do
    let row ← need (.notFound .execution execution)
      (← onStore (Execution.getIn workspace execution))
    let _ ← onStore (Execution.cancel execution (← now))
    let _ ← onStore (Session.release execution)
    return row

def cancelledPayload : Json := .ofEntries [("status", .string ExecutionState.cancelled.name)]

/-- Cancels an execution whatever its state and announces it.  The first end is kept, so a
repetition changes nothing but is announced again. -/
def cancel (w : World) (workspace : WorkspaceId) (execution : ExecutionId) (h : Hub) :
    Except HubError Unit × Hub :=
  match h.transact w (cancelRow workspace execution) with
  | (.ok row, h) =>
    (.ok (), h.announce w fun now =>
      ⟨execution, some row.trace, .notice, now, EventType.cancelled, cancelledPayload⟩)
  | (.error e, h) => (.error e, h)

/-- The state a worker reports; nothing means completed. -/
def terminalState (reported : String) : Except Unacceptable ExecutionState :=
  if reported = "" then .ok .completed
  else
    match ExecutionState.ofName reported with
    | .error e => .error (.unknownState e)
    | .ok state => if state.isTerminal then .ok state else .error (.notTerminal reported)

/-- Ends an execution, if it is still active, and frees its session. -/
def completeRow (execution : ExecutionId) (state : ExecutionState) : Transaction HubError Unit :=
  committed .store do
    let _ ← need (.notFound .execution execution) (← onStore (Execution.get execution))
    let _ ← onStore (Execution.finish execution state (← now))
    let _ ← onStore (Session.release execution)

def complete (w : World) (execution : ExecutionId) (reported : String) (h : Hub) :
    Except HubError Unit × Hub :=
  match terminalState reported with
  | .error reason => (.error (.invalidState reason), h)
  | .ok state => h.transact w (completeRow execution state)

end Switchboard.Hub
