import Switchboard.Store.Transaction

/-!
Projects: read to find where the code of a session lies.
-/

namespace Switchboard

structure NewProject where
  project : Option ProjectId
  workspace : WorkspaceId
  name : String
  repoCachePath : Option String
  rootUri : Option String
deriving Repr, DecidableEq, Inhabited

/-- A given identifier, or a fresh one of the kind. -/
def Transaction.givenOrFresh {ε : Type} (kind : IdKind) : Option String → Transaction ε String
  | some id => pure id
  | none => mint kind

namespace ProjectRow

open Transaction

def create (new : NewProject) : Transaction StoreError ProjectRow := do
  let project ← givenOrFresh .project new.project
  let row : ProjectRow :=
    ⟨project, new.workspace, new.name, new.repoCachePath, new.rootUri, ← now⟩
  perform (Database.insertProject row)
  return row

def get (project : ProjectId) : Transaction StoreError (Option ProjectRow) :=
  query (Database.findProject project)

/-- Where the code of a project lies; empty when it is unknown. -/
def rootOf (project : ProjectId) : Transaction StoreError String := do
  return ((← get project).map repoRoot).getD ""

end ProjectRow

end Switchboard
