import Switchboard.Event
import Switchboard.Store.Row

/-!
What the hub sends to workers, and how sending can fail.
-/

namespace Switchboard

/-- Everything a worker needs to start an execution. -/
structure Assignment where
  execution : ExecutionId
  session : SessionId
  project : ProjectId
  workspace : WorkspaceId
  trace : TraceId
  userMessage : String
  mode : String
  useWorktree : Bool
  repoRoot : String
  worktreeRoot : String
  modelConfig : Option String
  skillSets : String
  connectors : String
  user : UserId
deriving Repr, DecidableEq, Inhabited

/-- The fields on the wire, in order; a missing model configuration is left out. -/
def Assignment.fields (a : Assignment) : List (String × Json) :=
  [("execution_id", .string a.execution), ("session_id", .string a.session),
    ("project_id", .string a.project), ("workspace_id", .string a.workspace),
    ("trace_id", .string a.trace), ("user_message", .string a.userMessage),
    ("mode", .string a.mode), ("use_worktree", .bool a.useWorktree),
    ("repo_root", .string a.repoRoot), ("worktree_root", .string a.worktreeRoot)] ++
    (match a.modelConfig with
      | some id => [("model_config_id", .string id)]
      | none => []) ++
    [("skill_set_ids", .string a.skillSets), ("mcp_connector_ids", .string a.connectors),
      ("user_id", .string a.user)]

/-- A user's answer to a worker that asked for a confirmation.  User and trace travel beside the
body. -/
structure Decision where
  execution : ExecutionId
  call : String
  answer : String
  user : UserId
  trace : Option TraceId
deriving Repr, DecidableEq, Inhabited

def Decision.fields (d : Decision) : List (String × Json) :=
  [("execution_id", .string d.execution), ("call_id", .string d.call),
    ("decision", .string d.answer)]

/-- Why a worker did not take what it was sent. -/
inductive DispatchError where
  | noWorker
  | timeout
  | transport (reason : String)
  | status (code : Nat) (body : String)
deriving Repr, DecidableEq, Inhabited

namespace DispatchError

def message : DispatchError → String
  | .noWorker => "no worker configured"
  | .timeout => "worker request timed out"
  | .transport reason => s!"worker request failed: {reason}"
  | .status code body => s!"worker returned status {code}: {body}"

/-- The code in the event that announces the failure. -/
def code : DispatchError → String
  | .noWorker => ErrorCode.noWorker
  | _ => ErrorCode.workerDispatch

/-- The message in the event that announces the failure. -/
def announcement : DispatchError → String
  | .noWorker => "no worker configured"
  | e => s!"failed to dispatch execution: {e.message}"

end DispatchError

end Switchboard
