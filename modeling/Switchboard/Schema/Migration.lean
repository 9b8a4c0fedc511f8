import Switchboard.Schema.Catalog

/-!
Migrations: the versions of the schema, applied in order, each as a whole.  The version table
records what has been applied, so a second run finds nothing to do.
-/

namespace Switchboard

structure Migration where
  version : Nat
  description : String
  items : List SchemaItem
deriving Repr, DecidableEq, Inhabited

inductive MigrationStage where
  | createVersions
  | readVersions
  | start (version : Nat)
  | apply (version : Nat) (description : String)
  | record (version : Nat)
deriving Repr, DecidableEq, Inhabited

def MigrationStage.message : MigrationStage → String
  | .createVersions => "failed to create schema_version table"
  | .readVersions => "failed to read schema_version"
  | .start version => s!"failed to begin transaction for v{version}"
  | .apply version description => s!"migration v{version} ({description}) failed"
  | .record version => s!"failed to record v{version} in schema_version"

structure MigrationError where
  stage : MigrationStage
  fault : CatalogFault
deriving Repr, DecidableEq, Inhabited

def MigrationError.message? (e : MigrationError) : Option String :=
  e.fault.message?.map fun fault => s!"migration error: {e.stage.message}: {fault}"

namespace Migration

def first : Migration :=
  { version := 1
    description := "Sessions, projects, executions, execution events, audit logs"
    items :=
      [.table "projects"
          ["project_id", "workspace_id", "name", "repo_cache_path", "root_uri", "created_at"] none,
        .table "sessions"
          ["session_id", "workspace_id", "project_id", "title", "mode", "use_worktree",
            "model_config_id", "skill_set_ids", "mcp_connector_ids", "active_execution_id",
            "status", "created_by", "created_at", "updated_at"] none,
        .index "idx_sessions_workspace" "sessions" ["workspace_id"],
        .index "idx_sessions_active_execution" "sessions" ["active_execution_id"],
        .table "executions"
          ["execution_id", "session_id", "project_id", "workspace_id", "created_by", "state",
            "trace_id", "user_message", "repo_root", "worktree_root", "use_worktree",
            "created_at", "started_at", "ended_at", "last_event_ts"] none,
        .index "idx_executions_workspace_state" "executions" ["workspace_id", "state"],
        .index "idx_executions_session" "executions" ["session_id"],
        .table "execution_events" ["execution_id", "seq", "ts", "type", "payload_json"] none,
        .table "audit_logs"
          ["audit_id", "workspace_id", "project_id", "session_id", "execution_id", "user_id",
            "action", "tool_name", "parameters_summary", "outcome", "trace_id", "created_at"] none,
        .index "idx_audit_logs_execution" "audit_logs" ["execution_id"]] }

def all : List Migration := [first]

def latest : Nat := (all.getLast?.map (·.version)).getD 0

def applyTo (m : Migration) (now : String) (c : Catalog) : Except MigrationError Catalog := do
  let c ← (c.begin).mapError (⟨.start m.version, ·⟩)
  let contents ← (c.contents.createAll m.items).mapError (⟨.apply m.version m.description, ·⟩)
  let contents ← (contents.insertVersion Contents.fitByName
    ⟨m.version, m.description, now⟩).mapError
    (⟨.record m.version, ·⟩)
  return { c with contents := contents, saved := none }

/-- Applies the migrations above a version; stops at the first that fails. -/
def applyAbove (current : Nat) (now : String) (c : Catalog) :
    List Migration → Except MigrationError Nat × Catalog
  | [] => (.ok 0, c)
  | m :: rest =>
    if m.version ≤ current then applyAbove current now c rest
    else
      match m.applyTo now c with
      | .error e => (.error e, c)
      | .ok c =>
        match applyAbove current now c rest with
        | (.ok n, c) => (.ok (n + 1), c)
        | answer => answer

end Migration

namespace Catalog

def currentVersion (c : Catalog) : Except MigrationError Nat :=
  c.contents.currentVersion.mapError (⟨.readVersions, ·⟩)

/-- Applies what has not been applied yet and counts it.  The version table stays also when a
migration fails. -/
def migrate (now : String) (c : Catalog) : Except MigrationError Nat × Catalog :=
  match c.change (Contents.create Contents.versionItem) with
  | .error fault => (.error ⟨.createVersions, fault⟩, c)
  | .ok c =>
    match c.currentVersion with
    | .error e => (.error e, c)
    | .ok current => Migration.applyAbove current now c Migration.all

def claimVersion (version : Int) (c : Catalog) : Except CatalogFault Catalog :=
  c.change fun contents => do
    let contents ← contents.create Contents.versionItem
    contents.insertVersion Contents.fitByCount ⟨version, "x", "x"⟩

end Catalog

end Switchboard
