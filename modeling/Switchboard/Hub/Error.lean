import Switchboard.Store.Error
import Switchboard.Text.Quoted

/-!
Why the hub rejects a call.
-/

namespace Switchboard

inductive Subject where
  | session
  | execution
deriving Repr, DecidableEq, Inhabited

def Subject.name : Subject → String
  | .session => "session"
  | .execution => "execution"

/-- Why a reported state or a decision is not acceptable. -/
inductive Unacceptable where
  | unknownState (cause : UnknownState)
  | notTerminal (state : String)
  | unknownDecision (answer : String)
  | stated (reason : String)
deriving Repr, DecidableEq, Inhabited

def Unacceptable.message : Unacceptable → String
  | .unknownState cause => cause.message
  | .notTerminal state => s!"{state} is not a terminal state"
  | .unknownDecision answer =>
    s!"decision must be approved or denied, got {Text.quoted answer}"
  | .stated reason => reason

inductive HubError where
  | sessionBusy (session : String) (active : String)
  | quotaExceeded (workspace : String) (limit current : Nat)
  | notFound (subject : Subject) (id : String)
  | invalidState (reason : Unacceptable)
  | store (cause : StoreError)
  | internal (message : String)
deriving Repr, Inhabited, BEq

namespace HubError

def message : HubError → String
  | .sessionBusy session active => s!"session {session} is busy with execution {active}"
  | .quotaExceeded workspace limit current =>
    s!"workspace {workspace} has {current} active executions (limit {limit})"
  | .notFound subject id => s!"{subject.name} not found: {id}"
  | .invalidState reason => s!"invalid state: {reason.message}"
  | .store cause => cause.message
  | .internal message => s!"internal error: {message}"

/-- A code that callers may rely on. -/
def code : HubError → String
  | .sessionBusy _ _ => "SESSION_BUSY"
  | .quotaExceeded _ _ _ => "QUOTA_EXCEEDED"
  | .notFound _ _ => "NOT_FOUND"
  | .invalidState _ => "INVALID_STATE"
  | .store _ | .internal _ => "INTERNAL"

/-- Whether the same call may succeed later of itself: the quota frees up as executions end. -/
def isRetryable : HubError → Bool
  | .quotaExceeded _ _ _ => true
  | _ => false

end HubError

end Switchboard
