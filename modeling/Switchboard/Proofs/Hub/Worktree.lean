import Switchboard.Proofs.Hub.Admission

/-!
Where executions work.

The directory of an execution lies under the root of its project and is named after the execution.  The
name has no slash in it, so that it can be told from the path, and no two executions share a directory.
-/

namespace Switchboard

namespace Text

variable {base part name : String} {α : Type} {a : α} {as bs path : List α}

/-- What sets a part off from what it lies under. -/
def separator (base : String) : String := if base.toList.getLast? = some '/' then "" else "/"

theorem joinPath_eq (nonempty : base ≠ "") (relative : part.toList.head? ≠ some '/') :
    joinPath base part = base ++ separator base ++ part := by
  rw [joinPath, if_neg relative, separator]
  by_cases closed : base.toList.getLast? = some '/'
  · rw [if_pos (by simp [closed]), if_pos closed, String.append_empty]
  · rw [if_neg (by simp [closed, nonempty]), if_neg closed]

theorem separator_append (nonempty : part ≠ "") : separator (base ++ part) = separator part := by
  have some_ : part.toList ≠ [] := fun none => nonempty (String.toList_eq_nil_iff.mp none)
  rw [separator, String.toList_append, List.getLast?_append_of_ne_nil _ some_, separator]

theorem joinPath_append (nonempty : part ≠ "") (relative : name.toList.head? ≠ some '/') :
    joinPath (base ++ part) name = base ++ part ++ separator part ++ name := by
  have below : base ++ part ≠ "" := fun empty => nonempty (String.append_eq_empty_iff.mp empty).2
  rw [joinPath_eq below relative, separator_append nonempty]

theorem slash_suffix (base : String) : "/".toList <:+ (base ++ separator base).toList := by
  rw [String.toList_append, separator]
  split
  · rename_i closed
    obtain ⟨front, same⟩ := List.getLast?_eq_some_iff.mp closed
    exact ⟨front, by simp [same]⟩
  · exact List.suffix_append _ _

/-- The last of the marks in a path determines what is behind it. -/
theorem eq_of_suffix (one : a :: as <:+ path) (other : a :: bs <:+ path) (bare : a ∉ as)
    (bare' : a ∉ bs) : as = bs := by
  rcases List.suffix_or_suffix_of_suffix one other with inside | inside
  · rcases List.suffix_cons_iff.mp inside with same | within
    · exact (List.cons.inj same).2
    · exact absurd (within.subset List.mem_cons_self) bare'
  · rcases List.suffix_cons_iff.mp inside with same | within
    · exact (List.cons.inj same).2.symm
    · exact absurd (within.subset List.mem_cons_self) bare

end Text

open Text (separator)

theorem worktreePath_eq {root : String} {execution : ExecutionId} (rooted : root ≠ "")
    (bare : '/' ∉ execution.toList) :
    worktreePath root execution = root ++ separator root ++ ".hub/worktrees/" ++ execution := by
  have relative : execution.toList.head? ≠ some '/' := fun slash =>
    bare (List.mem_of_head? slash)
  have hub : separator ".hub" = "/" := by decide
  have worktrees : separator "worktrees" = "/" := by decide
  have parts : ".hub/worktrees/" = ".hub" ++ "/" ++ "worktrees" ++ "/" := rfl
  rw [worktreePath, Text.joinPath_eq rooted (by decide), Text.joinPath_append (by decide) (by decide),
    Text.joinPath_append (by decide) relative, hub, worktrees, parts]
  simp only [String.append_assoc]

theorem suffix_worktreePath {root : String} {execution : ExecutionId} (rooted : root ≠ "")
    (bare : '/' ∉ execution.toList) :
    ("/.hub/worktrees/" ++ execution).toList <:+ (worktreePath root execution).toList := by
  obtain ⟨front, closed⟩ := Text.slash_suffix root
  refine ⟨front, ?_⟩
  have parts : "/.hub/worktrees/".toList = "/".toList ++ ".hub/worktrees/".toList := rfl
  rw [worktreePath_eq rooted bare]
  simp only [String.toList_append] at closed ⊢
  rw [← closed, parts]
  simp only [List.append_assoc]

/-- What an execution keeps of the place where it works. -/
structure Execution.Located (db : Database) (row : Execution) : Prop where
  worktree : ∃ session : Session, session.useWorktree = row.useWorktree ∧
    ExecuteRequest.worktree session row.repoRoot row.execution = row.worktreeRoot
  root : row.repoRoot = "" ∨
    ∃ project ∈ db.projects, project.project = row.project ∧ project.repoRoot = row.repoRoot

namespace Execution.Located

variable {db : Database} {row : Execution}

theorem worktreeRoot_ne_empty_iff (located : row.Located db) (named : row.execution ≠ "") :
    row.worktreeRoot ≠ "" ↔ row.useWorktree ∧ row.repoRoot ≠ "" := by
  obtain ⟨session, wants, same⟩ := located.worktree
  rw [← same, ← wants]
  exact ExecuteRequest.worktree_ne_empty_iff named

theorem worktreeRoot_eq (located : row.Located db) (apart : row.worktreeRoot ≠ "") :
    row.repoRoot ≠ "" ∧ row.worktreeRoot = worktreePath row.repoRoot row.execution := by
  obtain ⟨session, -, same⟩ := located.worktree
  unfold ExecuteRequest.worktree at same
  split at same
  · rename_i wanted
    simp only [Bool.and_eq_true, decide_eq_true_eq] at wanted
    exact ⟨wanted.2, same.symm⟩
  · exact absurd same.symm apart

theorem suffix_worktreeRoot (located : row.Located db) (bare : '/' ∉ row.execution.toList)
    (apart : row.worktreeRoot ≠ "") :
    ("/.hub/worktrees/" ++ row.execution).toList <:+ row.worktreeRoot.toList := by
  obtain ⟨rooted, path⟩ := located.worktreeRoot_eq apart
  rw [path]
  exact suffix_worktreePath rooted bare

/-- An execution can be told from its directory. -/
theorem execution_eq_of_worktreeRoot {other : Execution} (located : row.Located db)
    (located' : other.Located db) (bare : '/' ∉ row.execution.toList)
    (bare' : '/' ∉ other.execution.toList) (apart : row.worktreeRoot ≠ "")
    (same : row.worktreeRoot = other.worktreeRoot) : row.execution = other.execution := by
  have parts (execution : ExecutionId) :
      '/' :: execution.toList <:+ ("/.hub/worktrees/" ++ execution).toList := by
    rw [String.toList_append]
    exact ⟨"/.hub/worktrees".toList, rfl⟩
  have behind := (parts _).trans (located.suffix_worktreeRoot bare apart)
  have behind' := (parts _).trans (located'.suffix_worktreeRoot bare' (same ▸ apart))
  rw [← same] at behind'
  exact String.toList_inj.mp (Text.eq_of_suffix behind behind' bare bare')

theorem apply (located : row.Located db) (change : Change) :
    (change.onExecution row).Located (change.apply db) := by
  obtain ⟨_, _, _, _, same⟩ := change.onExecution_eq row
  rw [same]
  refine ⟨located.worktree, located.root.imp_right ?_⟩
  rintro ⟨project, member, named, rooted⟩
  exact ⟨project, List.mem_append_left _ member, named, rooted⟩

end Execution.Located

theorem Database.exists_of_rootOf {db : Database} {project : ProjectId} : db.rootOf project = "" ∨
    ∃ row ∈ db.projects, row.project = project ∧ row.repoRoot = db.rootOf project := by
  unfold rootOf
  cases found : db.projects.find? (·.project = project) with
  | none => exact .inl rfl
  | some row =>
      exact .inr ⟨row, List.mem_of_find?_eq_some found, by simpa using List.find?_some found, rfl⟩

namespace Change

variable {limit : Nat} {db : Database} {change : Change}

theorem located_apply (allowed : change.Allowed limit db)
    (located : ∀ row ∈ db.executions, row.Located db) :
    ∀ row ∈ (change.apply db).executions, row.Located (change.apply db) := by
  intro row member
  rcases mem_executions_apply.mp member with ⟨stored, present, rfl⟩ | new
  · exact (located stored present).apply change
  · cases change with
    | enter request session root execution trace createdAt heldAt =>
        cases List.mem_singleton.mp new
        obtain ⟨-, -, -, rfl, -⟩ := allowed
        rw [apply_enter]
        exact ⟨⟨session, rfl, rfl⟩, db.exists_of_rootOf⟩
    | _ => contradiction

end Change

namespace Hub

variable {w : World} {limit ring queue : Nat} {operations : List Operation}

theorem located_run : ∀ row ∈ ((create limit ring queue).run w operations).db.executions,
    row.Located ((create limit ring queue).run w operations).db :=
  holds_run nofun fun _ _ allowed located => Change.located_apply allowed located

/-- The name of an execution has no more slashes than the texts around which names are made. -/
theorem Minted.slashless {h : Hub} {row : Execution} (minted : h.Minted w)
    (bare : ∀ n, '/' ∉ (w.unique n).toList) (member : row ∈ h.db.executions) :
    '/' ∉ row.execution.toList := by
  obtain ⟨n, -, named⟩ := minted row member
  rw [named]
  simp [IdKind.identifier, IdKind.label, toString, bare n]

/-- No two executions share a directory, of whatever projects, sessions and workspaces they are.  An
execution has a directory to itself exactly if that was asked for and its project has a root, and the
root is that of the project.  The directory lies under the root, set off by the slash at the end of the
root or else by one more, and is named after the execution. -/
theorem worktrees_are_not_shared (w : World) (limit ring queue : Nat) (operations : List Operation)
    (bare : ∀ n, '/' ∉ (w.unique n).toList) :
    let db := ((create limit ring queue).run w operations).db
    (∀ row ∈ db.executions, ∀ other ∈ db.executions, row ≠ other → row.worktreeRoot ≠ "" →
      row.worktreeRoot ≠ other.worktreeRoot) ∧
    ∀ row ∈ db.executions,
      (row.worktreeRoot ≠ "" ↔ row.useWorktree ∧ row.repoRoot ≠ "") ∧
      (row.repoRoot ≠ "" → ∃ project ∈ db.projects,
        project.project = row.project ∧ project.repoRoot = row.repoRoot) ∧
      (row.worktreeRoot ≠ "" →
        row.worktreeRoot = row.repoRoot ++
          (if row.repoRoot.toList.getLast? = some '/' then "" else "/") ++
            ".hub/worktrees/" ++ row.execution ∧
        row.repoRoot.toList <+: row.worktreeRoot.toList ∧
        ("/.hub/worktrees/" ++ row.execution).toList <:+ row.worktreeRoot.toList) := by
  intro db
  have exclusive : db.Exclusive := exclusive_run w limit ring queue operations
  have minted : ((create limit ring queue).run w operations).Minted w :=
    minted_run undisturbed_create nofun
  have located : ∀ row ∈ db.executions, row.Located db := located_run
  have slashless : ∀ row ∈ db.executions, '/' ∉ row.execution.toList := fun row member =>
    minted.slashless bare member
  refine ⟨?_, ?_⟩
  · intro row member other member' distinct apart same
    have execution := (located row member).execution_eq_of_worktreeRoot (located other member')
      (slashless row member) (slashless other member') apart same
    exact distinct (exclusive.execution_unique member member' execution)
  · intro row member
    have place := located row member
    refine ⟨place.worktreeRoot_ne_empty_iff (exclusive.named row member),
      place.root.resolve_left, fun apart => ?_⟩
    obtain ⟨rooted, path⟩ := place.worktreeRoot_eq apart
    have spelled := path.trans (worktreePath_eq rooted (slashless row member))
    refine ⟨spelled, ?_, place.suffix_worktreeRoot (slashless row member) apart⟩
    rw [spelled, String.append_assoc, String.append_assoc, String.toList_append]
    exact List.prefix_append _ _

/-- A project with a checkout, one with an address only, and a session of each of them at work. -/
private def twoProjects : List Operation :=
  let session (id : SessionId) (project : ProjectId) : NewSession :=
    ⟨some id, "ws", project, none, none, true, none, none, none, "user"⟩
  [.createProject ⟨some "p", "ws", "demo", some "/srv/demo/", some "demo.git"⟩,
    .createProject ⟨some "q", "ws", "side", none, some "side"⟩,
    .createSession (session "first" "p"), .createSession (session "second" "q"),
    .execute ⟨"ws", "first", "hello", "user"⟩, .execute ⟨"ws", "second", "hello", "user"⟩]

theorem roots_with_and_without_slash :
    (∀ n, '/' ∉ (World.plain.unique n).toList) ∧
      ∃ row other, ((create 0 8 8).run .plain twoProjects).db.executions = [row, other] ∧
        row.worktreeRoot = "/srv/demo/.hub/worktrees/exec_" ∧
        other.worktreeRoot = "side/.hub/worktrees/exec_aa" ∧
        row.worktreeRoot ≠ other.worktreeRoot := by
  have bare : ∀ n, '/' ∉ (World.plain.unique n).toList := fun n => by simp [World.plain]
  obtain ⟨distinct, -⟩ := worktrees_are_not_shared .plain 0 8 8 twoProjects bare
  refine ⟨bare, _, _, rfl, rfl, rfl, ?_⟩
  exact distinct _ List.mem_cons_self _ (List.mem_cons_of_mem _ List.mem_cons_self)
    (fun same => absurd (congrArg ExecutionRow.execution same) (by decide)) (by decide)

end Hub

end Switchboard
