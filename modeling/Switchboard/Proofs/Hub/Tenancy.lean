import Switchboard.Proofs.Hub.FollowUp
import Switchboard.Proofs.Hub.Verdict

/-!
Tenants apart.

Few statements name a workspace: an admission looks for its session in one and counts in one, a
cancellation looks for its execution in one, and all others go by the execution alone.  Workspaces are
apart nevertheless, because a session is only ever held by an execution of its own workspace.
-/

namespace Switchboard

namespace Database

variable {workspace : WorkspaceId} {execution : ExecutionId} {limit : Nat} {db db₁ : Database}

/-- Whether the sessions and the executions of all other workspaces are row by row what they were. -/
structure SparesOthers (workspace : WorkspaceId) (db db₁ : Database) : Prop where
  sessions : db₁.sessions.filter (·.workspace ≠ workspace) =
    db.sessions.filter (·.workspace ≠ workspace)
  executions : db₁.executions.filter (·.workspace ≠ workspace) =
    db.executions.filter (·.workspace ≠ workspace)

theorem SparesOthers.refl (workspace : WorkspaceId) (db : Database) :
    SparesOthers workspace db db := ⟨rfl, rfl⟩

/-- A change of rows that leaves those in sight, and brings none into sight, is not seen. -/
theorem filter_map_of_kept {α : Type} {rows : List α} {seen : α → Bool} {change : α → α}
    (still : ∀ row ∈ rows, seen (change row) = seen row)
    (kept : ∀ row ∈ rows, seen row → change row = row) :
    (rows.map change).filter seen = rows.filter seen := by
  have inSight : rows.filter (seen ∘ change) = rows.filter seen := List.filter_congr still
  have same : ∀ row ∈ rows.filter seen, change row = id row := by
    intro row member
    obtain ⟨present, visible⟩ := List.mem_filter.mp member
    exact kept row present visible
  rw [List.filter_map, inSight, List.map_congr_left same, List.map_id]

/-- Work on one execution stays in the workspace of that execution. -/
theorem Spares.sparesOthers (exclusive : db.Exclusive) (spares : Spares execution db db₁)
    {row : Execution} (member : row ∈ db.executions) (about : row.execution = execution) :
    SparesOthers row.workspace db db₁ := by
  obtain ⟨change, rows, executions⟩ := spares.executions
  obtain ⟨change', holders, sessions⟩ := spares.sessions
  refine ⟨?_, ?_⟩
  · rw [sessions]
    refine filter_map_of_kept ?_ ?_
    · intro session _
      obtain ⟨_, _, _, same⟩ := (holders session).1
      rw [same]
    · intro session present apart
      -- a session that the execution holds lies in its workspace, so it would not be in sight
      refine (holders session).2 fun holds => ?_
      obtain ⟨holder, inRows, same, -, inWorkspace, -⟩ :=
        exclusive.held session present execution holds
      rw [exclusive.execution_unique member inRows (about.trans same.symm)] at apart
      simp [inWorkspace] at apart
  · rw [executions]
    refine filter_map_of_kept ?_ ?_
    · intro stored _
      obtain ⟨_, _, _, _, same⟩ := (rows stored).1
      rw [same]
    · intro stored present apart
      refine (rows stored).2 fun same => ?_
      rw [exclusive.execution_unique member present (about.trans same.symm)] at apart
      simp at apart

/-- An admission stays in the workspace of the request. -/
theorem sparesOthers_enter (exclusive : db.Exclusive) {request : ExecuteRequest} {session : Session}
    {root : String} {trace : TraceId} {createdAt heldAt : String}
    (allowed : (Change.enter request session root execution trace createdAt heldAt).Allowed limit db) :
    SparesOthers request.workspace db
      ((Change.enter request session root execution trace createdAt heldAt).apply db) := by
  obtain ⟨found, -⟩ := allowed
  obtain ⟨member, named, inWorkspace⟩ := of_sessionIn_eq_some found
  rw [Change.apply_enter]
  refine ⟨filter_map_of_kept ?_ ?_, ?_⟩
  · intro row _
    split <;> rfl
  · intro row present apart
    refine if_neg fun same => ?_
    rw [exclusive.session_unique present member (same.trans named.symm)] at apart
    simp [inWorkspace] at apart
  · simp [List.filter_append]

/-- Whether two states of the tables have the same sessions and executions in a workspace, in
whatever order and next to whatever else. -/
structure AgreesOn (workspace : WorkspaceId) (db db₁ : Database) : Prop where
  sessions : ∀ row : Session, row.workspace = workspace → (row ∈ db.sessions ↔ row ∈ db₁.sessions)
  executions : ∀ row : Execution, row.workspace = workspace →
    (row ∈ db.executions ↔ row ∈ db₁.executions)

theorem Exclusive.sessionIn_eq_some_iff (exclusive : db.Exclusive) {session : SessionId}
    {row : Session} : db.sessionIn workspace session = some row ↔
      row ∈ db.sessions ∧ row.session = session ∧ row.workspace = workspace := by
  constructor
  · exact of_sessionIn_eq_some
  · intro facts
    obtain ⟨member, named, inWorkspace⟩ := facts
    cases found : db.sessionIn workspace session with
    | none =>
        have missed := List.find?_eq_none.mp found row member
        simp [named, inWorkspace] at missed
    | some other =>
        obtain ⟨member', named', -⟩ := of_sessionIn_eq_some found
        rw [exclusive.session_unique member' member (named'.trans named.symm)]

theorem AgreesOn.sessionIn_eq (agrees : AgreesOn workspace db db₁) (exclusive : db.Exclusive)
    (exclusive₁ : db₁.Exclusive) (session : SessionId) :
    db.sessionIn workspace session = db₁.sessionIn workspace session := by
  ext row
  rw [exclusive.sessionIn_eq_some_iff, exclusive₁.sessionIn_eq_some_iff]
  exact and_congr_left fun named => agrees.sessions row named.2

theorem AgreesOn.activeCount_eq (agrees : AgreesOn workspace db db₁) (exclusive : db.Exclusive)
    (exclusive₁ : db₁.Exclusive) : db.activeCount workspace = db₁.activeCount workspace := by
  have distinct := (List.Nodup.of_map _ exclusive.distinctExecutions).filter
    fun row => row.workspace = workspace && row.isActive
  have distinct₁ := (List.Nodup.of_map _ exclusive₁.distinctExecutions).filter
    fun row => row.workspace = workspace && row.isActive
  simp only [activeCount, List.countP_eq_length_filter]
  refine ((List.perm_ext_iff_of_nodup distinct distinct₁).mpr fun row => ?_).length_eq
  simp only [List.mem_filter, Bool.and_eq_true, decide_eq_true_eq]
  exact and_congr_left fun counted => agrees.executions row counted.1

theorem AgreesOn.verdict_eq {request : ExecuteRequest} (agrees : AgreesOn request.workspace db db₁)
    (exclusive : db.Exclusive) (exclusive₁ : db₁.Exclusive) :
    db.verdict limit request = db₁.verdict limit request := by
  rw [verdict, verdict, agrees.sessionIn_eq exclusive exclusive₁,
    agrees.activeCount_eq exclusive exclusive₁]

end Database

namespace Hub

variable {w : World} {h : Hub}

theorem sparesOthers_execute (undisturbed : h.db.Undisturbed) (exclusive : h.db.Exclusive)
    (request : ExecuteRequest) :
    h.db.SparesOthers request.workspace (h.execute w request).2.db := by
  unfold execute transact
  rcases outcome : admission h.limit request w h.meter h.db with ⟨m, e | ⟨a, db⟩⟩
  · exact .refl _ _
  · obtain ⟨session, root, createdAt, heldAt, -, -, allowed, rfl⟩ := of_admission undisturbed outcome
    exact Database.sparesOthers_enter exclusive allowed

theorem sparesOthers_followUp (undisturbed : h.db.Undisturbed) (exclusive : h.db.Exclusive)
    (step : FollowUp) {row : Execution} (member : row ∈ h.db.executions)
    (about : row.execution = step.execution) :
    h.db.SparesOthers row.workspace (step.apply w h).db :=
  (leads_followUp undisturbed step).db.spares.sparesOthers exclusive member about

/-- A cancellation finds its execution in the workspace it was called with, or nothing at all. -/
theorem sparesOthers_cancel (undisturbed : h.db.Undisturbed) (exclusive : h.db.Exclusive)
    (workspace : WorkspaceId) (execution : ExecutionId) :
    h.db.SparesOthers workspace (h.cancel w workspace execution).2.db := by
  obtain ⟨stopped, -, nothing, -⟩ := allOrNothing_cancel (w := w) undisturbed workspace execution
  by_cases absent : ∀ row ∈ h.db.executions, ¬ (row.execution = execution ∧ row.workspace = workspace)
  · obtain ⟨e, failed⟩ := stopped absent
    rw [nothing e failed]
    exact .refl _ _
  · obtain ⟨row, member, about, rfl⟩ : ∃ row ∈ h.db.executions,
        row.execution = execution ∧ row.workspace = workspace := by simpa using absent
    exact sparesOthers_followUp undisturbed exclusive (.cancel row.workspace execution) member about

/-- Tenants are apart.  After every run, a request to execute and a cancellation leave the sessions
and executions of all workspaces but their own as they are, and so does whatever is done about an
execution.  And a request is decided by its workspace alone: hubs of one limit that agree on the
sessions and executions of that workspace, after whatever runs, both admit it or reject it with the
same error, the same names and counts in it, if no statement of it fails.  None does where nothing
goes wrong outside the hub. -/
theorem tenants_are_apart (w w' : World) (limit ring queue ring' queue' : Nat)
    (operations operations' : List Operation) :
    let h := (create limit ring queue).run w operations
    let h' := (create limit ring' queue').run w' operations'
    (∀ request, h.db.SparesOthers request.workspace (h.execute w request).2.db) ∧
    (∀ workspace execution,
      h.db.SparesOthers workspace (h.cancel w workspace execution).2.db) ∧
    (∀ (step : FollowUp), ∀ row ∈ h.db.executions, row.execution = step.execution →
      h.db.SparesOthers row.workspace (step.apply w h).db) ∧
    (∀ request, w.SoundFrom h.meter →
      ∀ cause, (h.execute w request).1 ≠ .error (.store cause)) ∧
    ∀ request, h.db.AgreesOn request.workspace h'.db →
      (∀ cause, (h.execute w request).1 ≠ .error (.store cause)) →
      (∀ cause, (h'.execute w' request).1 ≠ .error (.store cause)) →
      (h.execute w request).1.map (fun _ => ()) = (h'.execute w' request).1.map fun _ => () := by
  intro h h'
  have undisturbed : h.db.Undisturbed := undisturbed_run
  have exclusive : h.db.Exclusive := exclusive_run w limit ring queue operations
  have minted : h.Minted w :=
    minted_run undisturbed_create fun _ absent => absurd absent List.not_mem_nil
  refine ⟨?_, ?_, ?_, ?_, ?_⟩
  · exact sparesOthers_execute undisturbed exclusive
  · exact sparesOthers_cancel undisturbed exclusive
  · intro step row member about
    exact sparesOthers_followUp undisturbed exclusive step member about
  · intro request sound
    exact execute_ne_store undisturbed minted sound
  · intro request agrees carried carried'
    have ofLimit : h.limit = limit := limit_run
    have ofLimit' : h'.limit = limit := limit_run
    calc (h.execute w request).1.map (fun _ => ())
      _ = h.db.verdict limit request := by
          rw [answer_eq_verdict undisturbed carried, ofLimit]
      _ = h'.db.verdict limit request :=
          agrees.verdict_eq exclusive (exclusive_run w' limit ring' queue' operations')
      _ = (h'.execute w' request).1.map fun _ => () := by
          rw [answer_eq_verdict undisturbed_run carried', ofLimit']

end Hub

end Switchboard
