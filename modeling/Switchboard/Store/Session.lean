import Switchboard.Store.Project

/-!
Sessions.  A session is held by one execution at most: its `active` execution and its status change
together, in `held` and `freed`.
-/

namespace Switchboard

structure NewSession where
  session : Option SessionId
  workspace : WorkspaceId
  project : ProjectId
  title : Option String
  mode : Option String
  useWorktree : Bool
  modelConfig : Option String
  skillSets : Option String
  connectors : Option String
  createdBy : UserId
deriving Repr, DecidableEq, Inhabited

namespace Session

open Transaction

/-- The session, held by an execution from now on. -/
def held (execution : ExecutionId) (now : String) (row : Session) : Session :=
  { row with active := some execution, status := .executing, updatedAt := now }

/-- The session, held by nothing. -/
def freed (now : String) (row : Session) : Session :=
  { row with active := none, status := .idle, updatedAt := now }

def withStatus (status : SessionStatus) (now : String) (row : Session) : Session :=
  { row with status := status, updatedAt := now }

def isHeldBy (execution : ExecutionId) (row : Session) : Bool := row.active == some execution

/-- Creates an idle session. -/
def create (new : NewSession) : Transaction StoreError Session := do
  let session ← givenOrFresh .session new.session
  let at_ ← now
  let row : Session :=
    { session := session
      workspace := new.workspace
      project := new.project
      title := new.title
      mode := new.mode.getD "agent"
      useWorktree := new.useWorktree
      modelConfig := new.modelConfig
      skillSets := new.skillSets.getD "[]"
      connectors := new.connectors.getD "[]"
      active := none
      status := .idle
      createdBy := new.createdBy
      createdAt := at_
      updatedAt := at_ }
  perform (Database.insertSession row)
  return row

def get (session : SessionId) : Transaction StoreError (Option Session) :=
  query (Database.findSession (·.session = session))

def getIn (workspace : WorkspaceId) (session : SessionId) :
    Transaction StoreError (Option Session) :=
  query (Database.findSession fun row => row.session = session && row.workspace = workspace)

/-- The session that an execution holds. -/
def heldBy (execution : ExecutionId) : Transaction StoreError (Option Session) :=
  query (Database.findSession (isHeldBy execution))

/-- Gives a session to an execution, whoever held it; says whether there is such a session. -/
def bind (session : SessionId) (execution : ExecutionId) : Transaction StoreError Bool := do
  let at_ ← now
  let count ← perform (Database.updateSessions (·.session = session) (held execution at_))
  return 0 < count

/-- Frees the session that an execution holds; a session held by another one is not touched. -/
def release (execution : ExecutionId) : Transaction StoreError Nat := do
  let at_ ← now
  perform (Database.updateSessions (isHeldBy execution) (freed at_))

/-- Moves the session that an execution holds from one status to another; says whether it was in
the first. -/
def transition (execution : ExecutionId) (source target : SessionStatus) :
    Transaction StoreError Bool := do
  let at_ ← now
  let count ← perform (Database.updateSessions
    (fun row => isHeldBy execution row && row.status == source) (withStatus target at_))
  return 0 < count

end Session

end Switchboard
