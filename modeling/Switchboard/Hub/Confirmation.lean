import Switchboard.Hub.Basic

/-!
Passing on a user's answer to a worker that asked for a confirmation.
-/

namespace Switchboard.Hub

open Transaction

def answers : List String := ["approved", "denied"]

/-- Finds the execution and lets its session go on; gives the trace. -/
def resume (execution : ExecutionId) : Transaction HubError (Option TraceId) := do
  let row ← need (.notFound .execution execution) (← onStore (Execution.get execution))
  let _ ← onStore (Session.transition execution .waitingConfirmation .executing)
  return row.traceIfAny

def decisionPayload (d : Decision) : Json :=
  .ofEntries [("call_id", .string d.call), ("decision", .string d.answer)]

/-- Records an answer, forwards it to the worker and announces it.  Gives the decision. -/
def decide (w : World) (execution : ExecutionId) (call answer : String) (user : UserId)
    (h : Hub) : Except HubError Decision × Hub :=
  if answer ∉ answers then (.error (.invalidState (.unknownDecision answer)), h)
  else
    match h.transact w (resume execution) with
    | (.error e, h) => (.error e, h)
    | (.ok trace, h) =>
      let d : Decision := ⟨execution, call, answer, user, trace⟩
      (.ok d, (h.forward d).announce w fun now =>
        ⟨execution, trace, .notice, now, EventType.confirmationDecision, decisionPayload d⟩)

end Switchboard.Hub
