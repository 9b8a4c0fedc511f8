import Switchboard.Json.Decode

/-!
The states of an execution and the statuses of a session, with their names.
-/

namespace Switchboard

/-- Pending and executing executions are active and hold their session; the others have ended. -/
inductive ExecutionState where
  | pending
  | executing
  | completed
  | failed
  | cancelled
deriving Repr, DecidableEq, Inhabited

inductive SessionStatus where
  | idle
  | executing
  | waitingConfirmation
deriving Repr, DecidableEq, Inhabited

/-- What a name was expected to name. -/
inductive StateKind where
  | execution
  | session
deriving Repr, DecidableEq, Inhabited

def StateKind.name : StateKind → String
  | .execution => "execution state"
  | .session => "session status"

/-- A text that names no state of its kind. -/
structure UnknownState where
  kind : StateKind
  value : String
deriving Repr, DecidableEq, Inhabited

def UnknownState.message (e : UnknownState) : String := s!"unknown {e.kind.name}: {e.value}"

namespace ExecutionState

def all : List ExecutionState := [.pending, .executing, .completed, .failed, .cancelled]

def name : ExecutionState → String
  | .pending => "pending"
  | .executing => "executing"
  | .completed => "completed"
  | .failed => "failed"
  | .cancelled => "cancelled"

/-- The states that count against the quota of a workspace. -/
def active : List ExecutionState := [.pending, .executing]

def isActive : ExecutionState → Bool
  | .pending | .executing => true
  | _ => false

def isTerminal (state : ExecutionState) : Bool := !state.isActive

def ofName (name : String) : Except UnknownState ExecutionState :=
  match all.find? (·.name = name) with
  | some state => .ok state
  | none => .error ⟨.execution, name⟩

def decode : Json.Decoder ExecutionState := .variant (all.map fun state => (state.name, state))

def toJson (state : ExecutionState) : Json := .string state.name

theorem ofName_name (state : ExecutionState) : ofName state.name = .ok state := by
  cases state <;> rfl

end ExecutionState

namespace SessionStatus

def all : List SessionStatus := [.idle, .executing, .waitingConfirmation]

def name : SessionStatus → String
  | .idle => "idle"
  | .executing => "executing"
  | .waitingConfirmation => "waiting_confirmation"

def ofName (name : String) : Except UnknownState SessionStatus :=
  match all.find? (·.name = name) with
  | some status => .ok status
  | none => .error ⟨.session, name⟩

def decode : Json.Decoder SessionStatus := .variant (all.map fun status => (status.name, status))

def toJson (status : SessionStatus) : Json := .string status.name

end SessionStatus

end Switchboard
