import Switchboard.Identifier
import Switchboard.Lifecycle

/-!
The rows of the store, and their JSON forms.

The state of an execution and the status of a session are a parameter of their rows: inside the
store they are states, in a JSON form they are names, which need not name a state.
-/

namespace Switchboard

structure ProjectRow where
  project : ProjectId
  workspace : WorkspaceId
  name : String
  repoCachePath : Option String
  rootUri : Option String
  createdAt : String
deriving Repr, DecidableEq, Inhabited

structure SessionRow (Status : Type) where
  session : SessionId
  workspace : WorkspaceId
  /-- Empty for none. -/
  project : ProjectId
  title : Option String
  mode : String
  useWorktree : Bool
  modelConfig : Option String
  skillSets : String
  connectors : String
  /-- The execution that holds the session. -/
  active : Option ExecutionId
  status : Status
  createdBy : UserId
  createdAt : String
  updatedAt : String
deriving Repr, DecidableEq, Inhabited

structure ExecutionRow (State : Type) where
  execution : ExecutionId
  session : SessionId
  project : ProjectId
  workspace : WorkspaceId
  createdBy : UserId
  state : State
  trace : TraceId
  userMessage : String
  repoRoot : String
  /-- Empty for none. -/
  worktreeRoot : String
  useWorktree : Bool
  createdAt : String
  startedAt : Option String
  endedAt : Option String
  lastEventAt : Option String
deriving Repr, DecidableEq, Inhabited

structure EventRow where
  execution : ExecutionId
  wire : Int
  timestamp : String
  type : String
  payloadText : String
deriving Repr, DecidableEq, Inhabited

structure AuditRow where
  audit : AuditId
  workspace : WorkspaceId
  project : ProjectId
  session : SessionId
  execution : ExecutionId
  user : UserId
  action : String
  tool : String
  summary : String
  outcome : String
  trace : TraceId
  createdAt : String
deriving Repr, DecidableEq, Inhabited

abbrev Session := SessionRow SessionStatus

abbrev Execution := ExecutionRow ExecutionState

def nullableJson : Option String → Json
  | none => .null
  | some s => .string s

namespace ProjectRow

/-- The local checkout, else the address, else nothing. -/
def repoRoot (row : ProjectRow) : String :=
  (row.repoCachePath <|> row.rootUri).getD ""

def fields (row : ProjectRow) : List (String × Json) :=
  [("project_id", .string row.project), ("workspace_id", .string row.workspace),
    ("name", .string row.name), ("repo_cache_path", nullableJson row.repoCachePath),
    ("root_uri", nullableJson row.rootUri), ("created_at", .string row.createdAt)]

def shape : Json.Shape ProjectRow :=
  ProjectRow.mk <$> .required "project_id" .string <*> .required "workspace_id" .string <*>
    .required "name" .string <*> .optional "repo_cache_path" .string <*>
    .optional "root_uri" .string <*> .required "created_at" .string

def decode : Json.Decoder ProjectRow := shape.decoder "ProjectRow"

end ProjectRow

namespace SessionRow

variable {Status : Type}

/-- The execution that holds the session; an empty identifier holds nothing. -/
def holder (row : SessionRow Status) : Option ExecutionId := row.active.filter (· ≠ "")

def fields (row : SessionRow String) : List (String × Json) :=
  [("session_id", .string row.session), ("workspace_id", .string row.workspace),
    ("project_id", .string row.project), ("title", nullableJson row.title),
    ("mode", .string row.mode), ("use_worktree", .bool row.useWorktree),
    ("model_config_id", nullableJson row.modelConfig),
    ("skill_set_ids", .string row.skillSets), ("mcp_connector_ids", .string row.connectors),
    ("active_execution_id", nullableJson row.active), ("status", .string row.status),
    ("created_by", .string row.createdBy), ("created_at", .string row.createdAt),
    ("updated_at", .string row.updatedAt)]

def shape : Json.Shape (SessionRow String) :=
  SessionRow.mk <$> .required "session_id" .string <*> .required "workspace_id" .string <*>
    .required "project_id" .string <*> .optional "title" .string <*> .required "mode" .string <*>
    .required "use_worktree" .bool <*> .optional "model_config_id" .string <*>
    .required "skill_set_ids" .string <*> .required "mcp_connector_ids" .string <*>
    .optional "active_execution_id" .string <*> .required "status" .string <*>
    .required "created_by" .string <*> .required "created_at" .string <*>
    .required "updated_at" .string

def decode : Json.Decoder (SessionRow String) := shape.decoder "SessionRow"

/-- The row with its status by name. -/
def named (row : Session) : SessionRow String := { row with status := row.status.name }

end SessionRow

namespace ExecutionRow

def fields (row : ExecutionRow String) : List (String × Json) :=
  [("execution_id", .string row.execution), ("session_id", .string row.session),
    ("project_id", .string row.project), ("workspace_id", .string row.workspace),
    ("created_by", .string row.createdBy), ("state", .string row.state),
    ("trace_id", .string row.trace), ("user_message", .string row.userMessage),
    ("repo_root", .string row.repoRoot), ("worktree_root", .string row.worktreeRoot),
    ("use_worktree", .bool row.useWorktree), ("created_at", .string row.createdAt),
    ("started_at", nullableJson row.startedAt), ("ended_at", nullableJson row.endedAt),
    ("last_event_ts", nullableJson row.lastEventAt)]

def shape : Json.Shape (ExecutionRow String) :=
  ExecutionRow.mk <$> .required "execution_id" .string <*> .required "session_id" .string <*>
    .required "project_id" .string <*> .required "workspace_id" .string <*>
    .required "created_by" .string <*> .required "state" .string <*>
    .required "trace_id" .string <*> .required "user_message" .string <*>
    .required "repo_root" .string <*> .required "worktree_root" .string <*>
    .required "use_worktree" .bool <*> .required "created_at" .string <*>
    .optional "started_at" .string <*> .optional "ended_at" .string <*>
    .optional "last_event_ts" .string

def decode : Json.Decoder (ExecutionRow String) := shape.decoder "ExecutionRow"

/-- The row with its state by name. -/
def named (row : Execution) : ExecutionRow String := { row with state := row.state.name }

/-- The trace, unless it is empty. -/
def traceIfAny (row : Execution) : Option TraceId :=
  if row.trace = "" then none else some row.trace

end ExecutionRow

namespace EventRow

def fields (row : EventRow) : List (String × Json) :=
  [("execution_id", .string row.execution), ("seq", .ofInt row.wire),
    ("ts", .string row.timestamp), ("event_type", .string row.type),
    ("payload_json", .string row.payloadText)]

def shape : Json.Shape EventRow :=
  EventRow.mk <$> .required "execution_id" .string <*> .required "seq" .signed64 <*>
    .required "ts" .string <*> .required "event_type" .string <*>
    .required "payload_json" .string

def decode : Json.Decoder EventRow := shape.decoder "ExecutionEventRow"

end EventRow

namespace AuditRow

def fields (row : AuditRow) : List (String × Json) :=
  [("audit_id", .string row.audit), ("workspace_id", .string row.workspace),
    ("project_id", .string row.project), ("session_id", .string row.session),
    ("execution_id", .string row.execution), ("user_id", .string row.user),
    ("action", .string row.action), ("tool_name", .string row.tool),
    ("parameters_summary", .string row.summary), ("outcome", .string row.outcome),
    ("trace_id", .string row.trace), ("created_at", .string row.createdAt)]

def shape : Json.Shape AuditRow :=
  AuditRow.mk <$> .required "audit_id" .string <*> .required "workspace_id" .string <*>
    .required "project_id" .string <*> .required "session_id" .string <*>
    .required "execution_id" .string <*> .required "user_id" .string <*>
    .required "action" .string <*> .required "tool_name" .string <*>
    .required "parameters_summary" .string <*> .required "outcome" .string <*>
    .required "trace_id" .string <*> .required "created_at" .string

def decode : Json.Decoder AuditRow := shape.decoder "AuditRecord"

end AuditRow

end Switchboard
