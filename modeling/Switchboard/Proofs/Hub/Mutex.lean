import Mathlib.Data.List.Nodup
import Switchboard.Proofs.Hub.Run

/-!
The mutex of a session.

A session names the execution that holds it, and its status says whether one does; an execution that
is active names its session.  The two tables are written by different statements, so that each
change has to keep both directions.
-/

namespace Switchboard

/-- Where keys occur once, an entry is what is found by a test that passes no other key. -/
theorem find?_of_mem {α κ : Type} {key : α → κ} {entries : List α} {test : α → Bool} {a : α}
    (distinct : (entries.map key).Nodup) (member : a ∈ entries) (passes : test a)
    (only : ∀ b, test b → key b = key a) : entries.find? test = some a := by
  cases found : entries.find? test with
  | none => exact absurd passes (List.find?_eq_none.mp found a member)
  | some b =>
      have same := only b (List.find?_some found)
      exact congrArg some
        (List.inj_on_of_nodup_map distinct (List.mem_of_find?_eq_some found) member same)

theorem SessionStatus.busy_iff (status : SessionStatus) :
    status = .executing ∨ status = .waitingConfirmation ↔ ¬ status = .idle := by
  cases status <;> decide

namespace Execution

variable (row : Execution) (state : ExecutionState) (at_ : String)

@[simp] theorem isActive_started : (row.started at_).isActive = true := rfl

@[simp] theorem isActive_ended : (row.ended state at_).isActive = state.isActive := rfl

@[simp] theorem isActive_timedOut : (row.timedOut at_).isActive = false := rfl

theorem state_heard :
    (row.heard at_).state = if row.state = .pending then .executing else row.state := by
  unfold heard
  split <;> rfl

@[simp] theorem isActive_heard : (row.heard at_).isActive = row.isActive := by
  unfold isActive
  rw [state_heard]
  split
  · rename_i pending
    rw [pending]
    rfl
  · rfl

end Execution

namespace Change

variable {limit : Nat} {db : Database}

/-- Nothing but an admission makes an execution active. -/
theorem isActive_of_onExecution {change : Change} {row : Execution}
    (active : (change.onExecution row).isActive) : row.isActive := by
  cases change with
  | start execution at_ =>
      simp only [onExecution] at active
      split at active
      · rename_i hit
        rw [Execution.isActive, hit.2]
        rfl
      · exact active
  | finish execution state at_ freedAt =>
      simp only [onExecution] at active
      split at active
      · rename_i hit
        exact hit.2
      · exact active
  | cancel execution at_ freedAt =>
      simp only [onExecution] at active
      split at active
      · rw [Execution.isActive_ended] at active
        contradiction
      · exact active
  | timeOut execution at_ freedAt =>
      simp only [onExecution] at active
      split at active
      · rw [Execution.isActive_timedOut] at active
        contradiction
      · exact active
  | take event at_ =>
      simp only [onExecution] at active
      split at active
      · rwa [Execution.isActive_heard] at active
      · exact active
  | _ => exact active

def ends : Change → Option ExecutionId
  | .finish execution _ _ _ | .cancel execution _ _ | .timeOut execution _ _ => some execution
  | _ => none

theorem isActive_onExecution {change : Change} {row : Execution}
    (spared : change.ends ≠ some row.execution) (active : row.isActive) :
    (change.onExecution row).isActive := by
  cases change with
  | start execution at_ =>
      simp only [onExecution]
      split
      · exact Execution.isActive_started row at_
      · exact active
  | finish | cancel | timeOut =>
      have other : row.execution ≠ _ := fun same => spared (congrArg some same.symm)
      simpa only [onExecution, other, false_and, if_false] using active
  | take event at_ =>
      simp only [onExecution]
      split
      · rwa [Execution.isActive_heard]
      · exact active
  | _ => exact active

theorem not_isActive_onExecution {change : Change} {row : Execution}
    (distinct : (db.executions.map (·.execution)).Nodup) (allowed : change.Allowed limit db)
    (member : row ∈ db.executions) (ended : change.ends = some row.execution) :
    (change.onExecution row).isActive = false := by
  cases change with
  | finish execution state at_ freedAt =>
      cases ended
      simp only [onExecution, true_and]
      split
      · simpa [Allowed, ExecutionState.isTerminal] using allowed
      · rename_i inactive
        simpa using inactive
  | cancel execution at_ freedAt =>
      cases ended
      simp only [onExecution, if_true]
      rfl
  | timeOut execution at_ freedAt =>
      cases ended
      obtain ⟨silent, present, same, executing⟩ := allowed
      obtain rfl := List.inj_on_of_nodup_map distinct present member same
      simp only [onExecution, executing, and_self, if_true]
      rfl
  | _ => contradiction

/-- A session that a change ends the execution of is free afterwards; of the others its holder
stays. -/
theorem active_onSession_of_ends {change : Change} {execution : ExecutionId} (row : Session)
    (ended : change.ends = some execution) :
    (change.onSession row).active = (if row.active = some execution then none else row.active) ∧
      ((change.onSession row).status = if row.active = some execution then .idle else row.status) := by
  cases change with
  | finish | cancel | timeOut =>
      cases ended
      simp only [onSession]
      split
      · exact ⟨rfl, rfl⟩
      · exact ⟨rfl, rfl⟩
  | _ => contradiction

/-- A change that neither admits nor ends an execution leaves every session with its holder. -/
theorem active_onSession {change : Change} (row : Session) (admits : change.newExecutions = [])
    (ends : change.ends = none) :
    (change.onSession row).active = row.active ∧
      ((change.onSession row).status = .idle ↔ row.status = .idle) := by
  cases change with
  | take event at_ =>
      simp only [onSession]
      split
      · rename_i hit
        exact ⟨rfl, by simp [Session.withStatus, hit.2.2]⟩
      · exact ⟨rfl, Iff.rfl⟩
  | resume execution at_ =>
      simp only [onSession]
      split
      · rename_i hit
        exact ⟨rfl, by simp [Session.withStatus, hit.2]⟩
      · exact ⟨rfl, Iff.rfl⟩
  | enter | finish | cancel | timeOut => contradiction
  | _ => exact ⟨rfl, Iff.rfl⟩

end Change

namespace Database

/-- Sessions and executions agree on who holds whom. -/
structure Exclusive (db : Database) : Prop where
  distinctSessions : (db.sessions.map (·.session)).Nodup
  distinctExecutions : (db.executions.map (·.execution)).Nodup
  named : ∀ row ∈ db.executions, row.execution ≠ ""
  busy : ∀ session ∈ db.sessions, session.active ≠ none ↔
    session.status = .executing ∨ session.status = .waitingConfirmation
  held : ∀ session ∈ db.sessions, ∀ execution, session.active = some execution →
    ∃ row ∈ db.executions, row.execution = execution ∧ row.session = session.session ∧
      row.workspace = session.workspace ∧ row.isActive
  holds : ∀ row ∈ db.executions, row.isActive → ∃ session ∈ db.sessions,
    session.session = row.session ∧ session.active = some row.execution

namespace Exclusive

variable {limit : Nat} {db : Database} {change : Change}

theorem session_unique (exclusive : db.Exclusive) {session other : Session}
    (member : session ∈ db.sessions) (member' : other ∈ db.sessions)
    (same : session.session = other.session) : session = other :=
  List.inj_on_of_nodup_map exclusive.distinctSessions member member' same

theorem execution_unique (exclusive : db.Exclusive) {row other : Execution}
    (member : row ∈ db.executions) (member' : other ∈ db.executions)
    (same : row.execution = other.execution) : row = other :=
  List.inj_on_of_nodup_map exclusive.distinctExecutions member member' same

theorem find?_execution (exclusive : db.Exclusive) {test : Execution → Bool} {row : Execution}
    (member : row ∈ db.executions) (passes : test row)
    (only : ∀ stored, test stored → stored.execution = row.execution) :
    db.executions.find? test = some row :=
  find?_of_mem exclusive.distinctExecutions member passes only

/-- A session that admission finds free names no execution at all. -/
theorem active_of_holder (exclusive : db.Exclusive) {session : Session}
    (member : session ∈ db.sessions) (free : session.holder = none) : session.active = none := by
  cases active : session.active with
  | none => rfl
  | some execution =>
      obtain ⟨row, present, rfl, _⟩ := exclusive.held session member execution active
      have named := exclusive.named row present
      simp [SessionRow.holder, active, named] at free

/-- Changes that add no session and no execution keep the identifiers. -/
private theorem identifiers_apply (exclusive : db.Exclusive) (sessions : change.newSessions = [])
    (admits : change.newExecutions = []) :
    ((change.apply db).sessions.map (·.session)).Nodup ∧
      ((change.apply db).executions.map (·.execution)).Nodup ∧
      ∀ row ∈ (change.apply db).executions, row.execution ≠ "" := by
  refine ⟨?_, ?_, ?_⟩
  · rw [Change.map_session_apply, sessions, List.map_nil, List.append_nil]
    exact exclusive.distinctSessions
  · rw [Change.map_execution_apply, admits, List.map_nil, List.append_nil]
    exact exclusive.distinctExecutions
  · intro row member
    rw [Change.mem_executions_apply, admits, or_iff_left List.not_mem_nil] at member
    obtain ⟨stored, present, rfl⟩ := member
    rw [Change.execution_onExecution]
    exact exclusive.named stored present

/-- A change that neither admits nor ends an execution leaves the holders and the active executions
as they were. -/
theorem apply_quiet (exclusive : db.Exclusive) (sessions : change.newSessions = [])
    (admits : change.newExecutions = []) (ends : change.ends = none) :
    (change.apply db).Exclusive := by
  obtain ⟨distinctSessions, distinctExecutions, named⟩ :=
    exclusive.identifiers_apply sessions admits
  refine ⟨distinctSessions, distinctExecutions, named, ?_, ?_, ?_⟩
  · intro session member
    rw [Change.mem_sessions_apply, sessions, or_iff_left List.not_mem_nil] at member
    obtain ⟨stored, present, rfl⟩ := member
    obtain ⟨active, idle⟩ := Change.active_onSession stored admits ends
    rw [active, SessionStatus.busy_iff, idle, ← SessionStatus.busy_iff]
    exact exclusive.busy stored present
  · intro session member execution active
    rw [Change.mem_sessions_apply, sessions, or_iff_left List.not_mem_nil] at member
    obtain ⟨stored, present, rfl⟩ := member
    rw [(Change.active_onSession _ admits ends).1] at active
    obtain ⟨row, inRows, rfl, ofSession, ofWorkspace, running⟩ :=
      exclusive.held stored present execution active
    refine ⟨change.onExecution row, Change.mem_executions_apply.mpr (.inl ⟨row, inRows, rfl⟩), ?_⟩
    simp only [Change.execution_onExecution, Change.session_onExecution,
      Change.workspace_onExecution, Change.session_onSession, Change.workspace_onSession]
    exact ⟨trivial, ofSession, ofWorkspace, Change.isActive_onExecution (by simp [ends]) running⟩
  · intro row member running
    rw [Change.mem_executions_apply, admits, or_iff_left List.not_mem_nil] at member
    obtain ⟨stored, present, rfl⟩ := member
    obtain ⟨session, inRows, same, active⟩ :=
      exclusive.holds stored present (Change.isActive_of_onExecution running)
    refine ⟨change.onSession session, Change.mem_sessions_apply.mpr (.inl ⟨session, inRows, rfl⟩), ?_⟩
    simp only [Change.session_onSession, Change.session_onExecution, Change.execution_onExecution]
    exact ⟨same, (Change.active_onSession _ admits ends).1.trans active⟩

/-- The execution that ends is the only one that ceases to be active, and its session the only one
that becomes free. -/
theorem apply_ending (exclusive : db.Exclusive) (allowed : change.Allowed limit db)
    {execution : ExecutionId} (ended : change.ends = some execution) :
    (change.apply db).Exclusive := by
  have sessions : change.newSessions = [] := by
    cases change <;> first | rfl | contradiction
  have admits : change.newExecutions = [] := by
    cases change <;> first | rfl | contradiction
  obtain ⟨distinctSessions, distinctExecutions, named⟩ :=
    exclusive.identifiers_apply sessions admits
  refine ⟨distinctSessions, distinctExecutions, named, ?_, ?_, ?_⟩
  · intro session member
    rw [Change.mem_sessions_apply, sessions, or_iff_left List.not_mem_nil] at member
    obtain ⟨stored, present, rfl⟩ := member
    obtain ⟨active, status⟩ := Change.active_onSession_of_ends stored ended
    rw [active, status]
    by_cases freed : stored.active = some execution
    · simp [freed]
    · simpa only [freed, if_false] using exclusive.busy stored present
  · intro session member other active
    rw [Change.mem_sessions_apply, sessions, or_iff_left List.not_mem_nil] at member
    obtain ⟨stored, present, rfl⟩ := member
    rw [(Change.active_onSession_of_ends _ ended).1] at active
    by_cases freed : stored.active = some execution
    · simp [freed] at active
    · rw [if_neg freed] at active
      obtain ⟨row, inRows, rfl, ofSession, ofWorkspace, running⟩ :=
        exclusive.held stored present other active
      refine ⟨change.onExecution row, Change.mem_executions_apply.mpr (.inl ⟨row, inRows, rfl⟩), ?_⟩
      simp only [Change.execution_onExecution, Change.session_onExecution,
        Change.workspace_onExecution, Change.session_onSession, Change.workspace_onSession]
      refine ⟨trivial, ofSession, ofWorkspace, Change.isActive_onExecution ?_ running⟩
      rw [ended, ← active]
      exact Ne.symm freed
  · intro row member running
    rw [Change.mem_executions_apply, admits, or_iff_left List.not_mem_nil] at member
    obtain ⟨stored, present, rfl⟩ := member
    obtain ⟨session, inRows, same, active⟩ :=
      exclusive.holds stored present (Change.isActive_of_onExecution running)
    refine ⟨change.onSession session, Change.mem_sessions_apply.mpr (.inl ⟨session, inRows, rfl⟩), ?_⟩
    simp only [Change.session_onSession, Change.session_onExecution, Change.execution_onExecution]
    refine ⟨same, ?_⟩
    rw [(Change.active_onSession_of_ends _ ended).1, if_neg, active]
    -- the session would only lose its holder if that had just ended, but it is still active
    intro freed
    rw [Change.not_isActive_onExecution exclusive.distinctExecutions allowed present
      (by rw [ended, ← freed, active])] at running
    contradiction

theorem apply_addSession (exclusive : db.Exclusive) {row : Session}
    (allowed : (Change.addSession row).Allowed limit db) :
    ((Change.addSession row).apply db).Exclusive := by
  obtain ⟨fresh, free, idle⟩ := allowed
  rw [Change.apply_addSession]
  refine ⟨?_, exclusive.distinctExecutions, exclusive.named, ?_, ?_, ?_⟩
  · rw [List.map_append, List.map_singleton]
    refine exclusive.distinctSessions.append (List.nodup_singleton _) ?_
    simpa [List.disjoint_singleton] using fun stored member => fresh stored member
  · intro session member
    rcases List.mem_append.mp member with present | new
    · exact exclusive.busy session present
    · cases List.mem_singleton.mp new
      simp [free, idle]
  · intro session member execution active
    rcases List.mem_append.mp member with present | new
    · exact exclusive.held session present execution active
    · cases List.mem_singleton.mp new
      simp [free] at active
  · intro execution member running
    obtain ⟨session, present, holds⟩ := exclusive.holds execution member running
    exact ⟨session, List.mem_append_left _ present, holds⟩

/-- An admission gives a free session to an execution that is not there yet. -/
theorem apply_enter (exclusive : db.Exclusive) {request : ExecuteRequest} {session : Session}
    {root : String} {execution : ExecutionId} {trace : TraceId} {createdAt heldAt : String}
    (allowed : (Change.enter request session root execution trace createdAt heldAt).Allowed limit db) :
    ((Change.enter request session root execution trace createdAt heldAt).apply db).Exclusive := by
  obtain ⟨found, free, -, -, fresh, nonempty⟩ := allowed
  obtain ⟨present, ofSession, ofWorkspace⟩ := of_sessionIn_eq_some found
  have unheld := exclusive.active_of_holder present free
  have only : ∀ stored ∈ db.sessions, stored.session = request.session → stored = session :=
    fun stored member same => exclusive.session_unique member present (same.trans ofSession.symm)
  rw [Change.apply_enter]
  refine ⟨?_, ?_, ?_, ?_, ?_, ?_⟩
  · have same : ((db.sessions.map fun row =>
        if row.session = request.session then row.held execution heldAt else row).map
          (·.session)) = db.sessions.map (·.session) := by
      rw [List.map_map]
      refine List.map_congr_left fun row _ => ?_
      simp only [Function.comp_apply]
      split <;> rfl
    rw [same]
    exact exclusive.distinctSessions
  · rw [List.map_append, List.map_singleton]
    refine exclusive.distinctExecutions.append (List.nodup_singleton _) ?_
    simpa [List.disjoint_singleton] using fun stored member => fresh stored member
  · intro row member
    rcases List.mem_append.mp member with stored | new
    · exact exclusive.named row stored
    · cases List.mem_singleton.mp new
      exact nonempty
  · intro row member
    obtain ⟨stored, inRows, rfl⟩ := List.mem_map.mp member
    split
    · simp [Session.held]
    · exact exclusive.busy stored inRows
  · intro row member other active
    obtain ⟨stored, inRows, rfl⟩ := List.mem_map.mp member
    by_cases taken : stored.session = request.session
    · cases only stored inRows taken
      simp only [taken, if_true] at active ⊢
      cases active
      exact ⟨_, List.mem_append_right _ (List.mem_singleton_self _), rfl, taken.symm,
        ofWorkspace.symm, rfl⟩
    · simp only [taken, if_false] at active ⊢
      obtain ⟨row, running, holds⟩ := exclusive.held stored inRows other active
      exact ⟨row, List.mem_append_left _ running, holds⟩
  · intro row member running
    rcases List.mem_append.mp member with stored | new
    · obtain ⟨holder, inRows, same, active⟩ := exclusive.holds row stored running
      have spared : holder.session ≠ request.session := by
        intro taken
        rw [only holder inRows taken, unheld] at active
        contradiction
      refine ⟨holder, List.mem_map.mpr ⟨holder, inRows, if_neg spared⟩, same, active⟩
    · cases List.mem_singleton.mp new
      exact ⟨session.held execution heldAt,
        List.mem_map.mpr ⟨session, present, if_pos ofSession⟩, ofSession, rfl⟩

theorem apply (exclusive : db.Exclusive) (allowed : change.Allowed limit db) :
    (change.apply db).Exclusive := by
  cases change with
  | enter => exact exclusive.apply_enter allowed
  | addSession => exact exclusive.apply_addSession allowed
  | finish | cancel | timeOut => exact exclusive.apply_ending allowed rfl
  | _ => exact exclusive.apply_quiet rfl rfl rfl

theorem empty : ({} : Database).Exclusive := by
  refine ⟨List.nodup_nil, List.nodup_nil, ?_, ?_, ?_, ?_⟩ <;>
    exact fun _ member => absurd member List.not_mem_nil

theorem active_unique (exclusive : db.Exclusive) {row other : Execution}
    (member : row ∈ db.executions) (member' : other ∈ db.executions)
    (running : row.isActive) (running' : other.isActive) (same : row.session = other.session) :
    row = other := by
  obtain ⟨session, present, ofRow, active⟩ := exclusive.holds row member running
  obtain ⟨session', present', ofOther, active'⟩ := exclusive.holds other member' running'
  cases exclusive.session_unique present present' (ofRow.trans (same.trans ofOther.symm))
  rw [active] at active'
  exact exclusive.execution_unique member member' (Option.some.inj active')

end Exclusive

end Database

namespace Hub

variable (w : World) (limit ring queue : Nat) (operations : List Operation)

theorem exclusive_run : ((create limit ring queue).run w operations).db.Exclusive :=
  holds_run .empty fun _ _ allowed exclusive => exclusive.apply allowed

/-- The mutex of a session: after every run a session is held by the active execution it names, every
active execution holds its own session, and no session has two. -/
theorem session_mutex :
    ((create limit ring queue).run w operations).db.Exclusive ∧
      ∀ row ∈ ((create limit ring queue).run w operations).db.executions,
        ∀ other ∈ ((create limit ring queue).run w operations).db.executions,
          row.isActive → other.isActive → row.session = other.session → row = other := by
  have exclusive := exclusive_run w limit ring queue operations
  refine ⟨exclusive, ?_⟩
  intro row member other member' running running' same
  exact exclusive.active_unique member member' running running' same

end Hub

end Switchboard
