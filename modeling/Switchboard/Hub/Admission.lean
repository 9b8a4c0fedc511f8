import Switchboard.Hub.Basic
import Switchboard.Text.Path

/-!
Admission: starting an execution.

A session runs one execution at a time and a workspace at most `limit`.  Both are checked in the
transaction that inserts the execution and gives it the session; only after that is committed does
the assignment go out.
-/

namespace Switchboard

structure ExecuteRequest where
  workspace : WorkspaceId
  session : SessionId
  message : String
  user : UserId
deriving Repr, DecidableEq, Inhabited

structure ExecutionInfo where
  execution : ExecutionId
  trace : TraceId
  session : SessionId
  state : ExecutionState
deriving Repr, DecidableEq, Inhabited

namespace ExecutionInfo

def fields (info : ExecutionInfo) : List (String × Json) :=
  [("execution_id", .string info.execution), ("trace_id", .string info.trace),
    ("session_id", .string info.session), ("state", info.state.toJson)]

def shape : Json.Shape ExecutionInfo :=
  ExecutionInfo.mk <$> .required "execution_id" .string <*> .required "trace_id" .string <*>
    .required "session_id" .string <*> .required "state" ExecutionState.decode

def decode : Json.Decoder ExecutionInfo := shape.decoder "ExecutionInfo"

end ExecutionInfo

def worktreePath (repoRoot : String) (execution : ExecutionId) : String :=
  Text.joinPath (Text.joinPath (Text.joinPath repoRoot ".hub") "worktrees") execution

namespace Hub

open Transaction

def checkQuota (limit : Nat) (workspace : WorkspaceId) : Transaction HubError Unit :=
  if limit = 0 then pure ()
  else do
    let current ← onStore (Execution.countActive workspace)
    if limit ≤ current then fail (.quotaExceeded workspace limit current)

def checkFree (session : Session) : Transaction HubError Unit :=
  match session.holder with
  | some active => fail (.sessionBusy session.session active)
  | none => pure ()

/-- Inserts the execution and gives it the session. -/
def enter (request : ExecuteRequest) (session : Session) : Transaction StoreError Assignment := do
  let execution ← mint .execution
  let trace ← mint .trace
  let repoRoot ← ProjectRow.rootOf session.project
  let worktreeRoot :=
    if session.useWorktree && repoRoot ≠ "" then worktreePath repoRoot execution else ""
  let _ ← Execution.insert
    { execution := execution
      session := request.session
      project := session.project
      workspace := request.workspace
      createdBy := request.user
      trace := trace
      userMessage := request.message
      repoRoot := repoRoot
      worktreeRoot := worktreeRoot
      useWorktree := session.useWorktree }
  let _ ← Session.bind request.session execution
  return {
    execution := execution
    session := request.session
    project := session.project
    workspace := request.workspace
    trace := trace
    userMessage := request.message
    mode := session.mode
    useWorktree := session.useWorktree
    repoRoot := repoRoot
    worktreeRoot := worktreeRoot
    modelConfig := session.modelConfig
    skillSets := session.skillSets
    connectors := session.connectors
    user := request.user }

def admission (limit : Nat) (request : ExecuteRequest) : Transaction HubError Assignment :=
  committed .store do
    let session ← need (.notFound .session request.session)
      (← onStore (Session.getIn request.workspace request.session))
    checkFree session
    checkQuota limit request.workspace
    onStore (enter request session)

/-- Admits an execution and hands its assignment to the dispatcher. -/
def execute (w : World) (request : ExecuteRequest) (h : Hub) :
    Except HubError ExecutionInfo × Hub :=
  match h.transact w (admission h.limit request) with
  | (.ok a, h) =>
    (.ok ⟨a.execution, a.trace, a.session, .pending⟩,
      { h with outstanding := h.outstanding ++ [a] })
  | (.error e, h) => (.error e, h)

/-- Ends an execution that never reached a worker, and frees its session. -/
def compensate (execution : ExecutionId) : Transaction StoreError Unit :=
  committed id do
    let _ ← Execution.finish execution .failed (← now)
    let _ ← Session.release execution

/-- What follows the worker's answer to an assignment.  Failures of the store are passed over; a
failed dispatch is announced in any case. -/
def afterDispatch (w : World) (a : Assignment) (outcome : Except DispatchError Unit) (h : Hub) :
    Hub :=
  match outcome with
  | .ok () => (h.transact w do Execution.markExecuting a.execution (← now)).2
  | .error e =>
    (h.transact w (compensate a.execution)).2.announceError w a.execution (some a.trace) e.code
      e.announcement

/-- Takes an assignment out of those that are not answered. -/
def takeOutstanding (execution : ExecutionId) (h : Hub) : Option (Assignment × Hub) :=
  match h.outstanding.find? (·.execution == execution) with
  | some a =>
    some (a, { h with outstanding := h.outstanding.filter (·.execution != execution) })
  | none => none

/-- The worker answers an assignment; nothing if none is waiting for that execution. -/
def answerDispatch (w : World) (execution : ExecutionId) (outcome : Except DispatchError Unit)
    (h : Hub) : Option (Assignment × Hub) :=
  (h.takeOutstanding execution).map fun (a, h) => (a, h.afterDispatch w a outcome)

end Hub

end Switchboard
