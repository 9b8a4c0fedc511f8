import Switchboard.Proofs.Hub.Calm
import Switchboard.Proofs.Hub.Mutex

/-!
The quota of a workspace.

Only an admission makes an execution active, and it checks the quota in the same transaction, so the
quota is never exceeded and a refusal means that it is exactly used up.  Ending any one of the active
executions makes room for the request that was refused, whose session was free all along.
-/

namespace Switchboard

namespace Change

variable {limit : Nat} {db : Database} {change : Change} {workspace : WorkspaceId}

theorem activeCount_apply_le (admits : change.newExecutions = []) :
    (change.apply db).activeCount workspace ≤ db.activeCount workspace := by
  simp only [Database.activeCount, apply, admits, List.append_nil, List.countP_map]
  refine List.countP_mono_left fun row _ counted => ?_
  simp only [Function.comp_apply, workspace_onExecution, Bool.and_eq_true] at counted ⊢
  exact ⟨counted.1, isActive_of_onExecution counted.2⟩

/-- An admission adds to its own workspace and to no other. -/
theorem activeCount_apply_enter {request : ExecuteRequest} {session : Session} {root : String}
    {execution : ExecutionId} {trace : TraceId} {createdAt heldAt : String} :
    ((enter request session root execution trace createdAt heldAt).apply db).activeCount workspace =
      db.activeCount workspace + if request.workspace = workspace then 1 else 0 := by
  have active : (request.row session root execution trace createdAt).isActive = true := rfl
  rw [apply_enter]
  simp only [Database.activeCount, List.countP_append, List.countP_singleton,
    ExecuteRequest.workspace_row, active, Bool.and_true]
  by_cases same : request.workspace = workspace <;> simp [same]

/-- Ending an active execution makes room in its workspace. -/
theorem activeCount_apply_lt {row : Execution}
    (distinct : (db.executions.map (·.execution)).Nodup) (allowed : change.Allowed limit db)
    (member : row ∈ db.executions) (active : row.isActive) (ended : change.ends = some row.execution) :
    (change.apply db).activeCount row.workspace < db.activeCount row.workspace := by
  have admits : change.newExecutions = [] := by
    cases change <;> first | rfl | contradiction
  have rest : (change.apply db).activeCount row.workspace ≤
      (db.executions.filter fun stored => !decide (stored.execution = row.execution)).countP
        fun stored => stored.workspace = row.workspace && stored.isActive := by
    simp only [Database.activeCount, apply, admits, List.append_nil, List.countP_map,
      List.countP_filter]
    refine List.countP_mono_left fun stored present counted => ?_
    simp only [Function.comp_apply, workspace_onExecution, Bool.and_eq_true] at counted
    have other : stored.execution ≠ row.execution := by
      intro same
      rw [not_isActive_onExecution distinct allowed present (by rw [ended, same])] at counted
      exact absurd counted.2 Bool.false_ne_true
    simp only [counted.1, isActive_of_onExecution counted.2, other, decide_false, Bool.not_false,
      Bool.and_self]
  have lost : 0 < (db.executions.filter fun stored => stored.execution = row.execution).countP
      fun stored => stored.workspace = row.workspace && stored.isActive := by
    refine List.countP_pos_iff.mpr ⟨row, List.mem_filter.mpr ⟨member, by simp⟩, ?_⟩
    simp [active]
  have split := List.countP_eq_countP_filter_add db.executions
    (fun stored => stored.workspace = row.workspace && stored.isActive)
    fun stored => stored.execution = row.execution
  unfold Database.activeCount at *
  omega

/-- A session that nothing holds, or the execution that ends, is free afterwards. -/
theorem sessionIn_apply_of_ends {session : SessionId} {row : Session} {execution : ExecutionId}
    (ended : change.ends = some execution) (found : db.sessionIn workspace session = some row)
    (free : row.holder = none ∨ row.active = some execution) :
    ∃ row', (change.apply db).sessionIn workspace session = some row' ∧ row'.holder = none := by
  have sessions : change.newSessions = [] := by
    cases change <;> first | rfl | contradiction
  refine ⟨change.onSession row, ?_, ?_⟩
  · simp only [Database.sessionIn, apply, sessions, List.append_nil, List.find?_map] at found ⊢
    simp only [Function.comp_def, session_onSession, workspace_onSession, found, Option.map_some]
  · unfold SessionRow.holder at free ⊢
    rw [(active_onSession_of_ends row ended).1]
    split
    · rfl
    · rename_i other
      exact free.resolve_right other

end Change

namespace Database

variable {limit : Nat} {db : Database} {change : Change}

def WithinQuota (limit : Nat) (db : Database) : Prop := ∀ workspace, db.activeCount workspace ≤ limit

theorem WithinQuota.apply (limited : 0 < limit) (within : db.WithinQuota limit)
    (allowed : change.Allowed limit db) : (change.apply db).WithinQuota limit := by
  intro workspace
  have before := within workspace
  cases change with
  | enter request =>
      obtain ⟨-, -, room, -⟩ := allowed
      rw [Change.activeCount_apply_enter]
      split
      · rename_i same
        rw [same] at room
        omega
      · exact before
  | _ => exact Nat.le_trans (Change.activeCount_apply_le rfl) before

end Database

theorem Operation.of_makes_enter {w : World} {m m' : Meter} {operation : Operation}
    {request : ExecuteRequest} {session : Session} {root : String} {execution : ExecutionId}
    {trace : TraceId} {createdAt heldAt : String}
    (made : operation.Makes w m m' (.enter request session root execution trace createdAt heldAt)) :
    execution = w.fresh m .execution ∧ trace = w.fresh m.afterMint .trace ∧
      m.minted + 2 = m'.minted := by
  cases operation with
  | execute request' => exact made.2
  | answerDispatch _ outcome => rcases outcome with _ | ⟨⟩ <;> contradiction
  | _ => contradiction

namespace Hub

open Transaction

variable {w : World} {h : Hub} {limit ring queue : Nat} {request : ExecuteRequest}

/-- Every execution has an identifier that was minted before. -/
def Minted (w : World) (h : Hub) : Prop :=
  ∀ row ∈ h.db.executions, ∃ n < h.meter.minted,
    row.execution = IdKind.execution.identifier (w.unique n)

theorem Minted.apply (minted : h.Minted w) (undisturbed : h.db.Undisturbed)
    (operation : Operation) : (operation.apply w h).Minted w := by
  have leads := operation.leads (w := w) undisturbed
  refine leads.db.keeps (fun db => ∀ row ∈ db.executions,
    ∃ n < (operation.apply w h).meter.minted,
      row.execution = IdKind.execution.identifier (w.unique n)) ?_ ?_
  · intro row member
    obtain ⟨n, past, same⟩ := minted row member
    exact ⟨n, Nat.lt_of_lt_of_le past leads.meter.minted, same⟩
  · intro change db made allowed kept row member
    rcases Change.mem_executions_apply.mp member with ⟨stored, present, rfl⟩ | new
    · rw [Change.execution_onExecution]
      exact kept stored present
    · cases change with
      | enter =>
          cases List.mem_singleton.mp new
          obtain ⟨rfl, -, used⟩ := Operation.of_makes_enter made
          exact ⟨h.meter.minted, by omega, rfl⟩
      | _ => contradiction

theorem minted_run {operations : List Operation} (undisturbed : h.db.Undisturbed)
    (minted : h.Minted w) : (h.run w operations).Minted w := by
  induction operations generalizing h with
  | nil => exact minted
  | cons operation operations ih =>
      exact ih ((operation.leads undisturbed).undisturbed undisturbed)
        (minted.apply undisturbed operation)

/-- Where unique texts are unique, a fresh identifier is not in the tables. -/
theorem Minted.ne_fresh (minted : h.Minted w) (unique : Function.Injective w.unique) :
    ∀ later, h.meter.Before later → ∀ stored ∈ h.db.executions,
      stored.execution ≠ w.fresh later .execution := by
  intro later before stored member same
  obtain ⟨n, past, named⟩ := minted stored member
  have texts := unique (IdKind.eq_of_identifier_eq (named.symm.trans same))
  have bound := before.minted
  omega

theorem of_checkQuota_eq_error {m m' : Meter} {db : Database} {workspace : WorkspaceId}
    {e : HubError} (undisturbed : db.Undisturbed)
    (failed : checkQuota limit workspace w m db = (m', .error e)) :
    (∃ cause, e = .store cause) ∨
      (limit ≠ 0 ∧ limit ≤ db.activeCount workspace ∧
        e = .quotaExceeded workspace limit (db.activeCount workspace)) := by
  unfold checkQuota at failed
  split at failed
  · exact absurd failed pure_ne_error
  rename_i limited
  rcases bind_eq_error.mp failed with failed | ⟨_, count, _, counted, failed⟩
  · exact .inl (of_onStore_eq_error failed)
  obtain ⟨-, -, rfl, rfl⟩ := (Execution.countActive_eq_ok undisturbed).mp (onStore_eq_ok.mp counted)
  split at failed
  · rename_i full
    obtain ⟨-, same⟩ := fail_eq_error.mp failed
    exact .inr ⟨limited, full, same.symm⟩
  · exact absurd failed pure_ne_error

/-- Why a request is not admitted: the store fails, there is no such session, or the session is
held, or else the quota is used up. -/
theorem of_admission_eq_error {m m' : Meter} {db : Database} {e : HubError}
    (undisturbed : db.Undisturbed) (failed : admission limit request w m db = (m', .error e)) :
    (∃ cause, e = .store cause) ∨
      (e = .notFound .session request.session ∧
        db.sessionIn request.workspace request.session = none) ∨
      ∃ session, db.sessionIn request.workspace request.session = some session ∧
        ((∃ active, session.holder = some active ∧ e = .sessionBusy session.session active) ∨
          (session.holder = none ∧ limit ≠ 0 ∧ limit ≤ db.activeCount request.workspace ∧
            e = .quotaExceeded request.workspace limit (db.activeCount request.workspace))) := by
  rcases of_committed_eq_error failed with stored | failed
  · exact .inl stored
  rcases of_sought_eq_error failed with stored | ⟨same, _, _, sought⟩ | ⟨_, session, _, sought, failed⟩
  · exact .inl stored
  · obtain ⟨-, -, absent, rfl⟩ := Session.getIn_eq_ok.mp sought
    exact .inr (.inl ⟨same, absent⟩)
  obtain ⟨-, -, found, rfl⟩ := Session.getIn_eq_ok.mp sought
  rcases bind_eq_error.mp failed with failed | ⟨_, _, _, checked, failed⟩
  · cases held : session.holder with
    | none => simp [checkFree, held] at failed
    | some active =>
        simp only [checkFree, held, fail_eq_error] at failed
        exact .inr (.inr ⟨session, found, .inl ⟨active, held, failed.2.symm⟩⟩)
  obtain ⟨free, rfl, rfl⟩ := of_checkFree checked
  rcases bind_eq_error.mp failed with failed | ⟨_, _, _, _, failed⟩
  · rcases of_checkQuota_eq_error undisturbed failed with stored | full
    · exact .inl stored
    · exact .inr (.inr ⟨session, found, .inr ⟨free, full⟩⟩)
  · exact .inl (of_onStore_eq_error failed)

theorem of_execute_eq_error {e : HubError} (failed : (h.execute w request).1 = .error e) :
    ∃ m, admission h.limit request w h.meter h.db = (m, .error e) ∧
      (h.execute w request).2 = { h with meter := m } := by
  unfold execute transact at failed ⊢
  rcases outcome : admission h.limit request w h.meter h.db with ⟨m, e' | ⟨a, db⟩⟩ <;>
    simp only [outcome] at failed ⊢
  · cases failed
    exact ⟨m, rfl, rfl⟩
  · cases failed

/-- A request that is refused for the quota names the limit and what was counted, and nothing else
stood in its way. -/
theorem of_quotaExceeded {workspace : WorkspaceId} {bound current : Nat}
    (undisturbed : h.db.Undisturbed)
    (failed : (h.execute w request).1 = .error (.quotaExceeded workspace bound current)) :
    (workspace = request.workspace ∧ bound = h.limit ∧
        current = h.db.activeCount request.workspace ∧ h.limit ≤ current) ∧
      (h.execute w request).2.db = h.db ∧
      ∃ session, h.db.sessionIn request.workspace request.session = some session ∧
        session.holder = none := by
  obtain ⟨m, failed', left⟩ := of_execute_eq_error failed
  rw [left]
  rcases of_admission_eq_error undisturbed failed' with
    ⟨_, same⟩ | ⟨same, -⟩ | ⟨session, found, ⟨_, -, same⟩ | ⟨free, -, full, same⟩⟩
  · cases same
  · cases same
  · cases same
  · cases same
    exact ⟨⟨rfl, rfl, rfl, full⟩, rfl, session, found, free⟩

theorem cancel_exists {row : Execution} (undisturbed : h.db.Undisturbed)
    (calm : w.CalmFrom h.meter) (exclusive : h.db.Exclusive) (member : row ∈ h.db.executions) :
    (h.cancel w row.workspace row.execution).1 = .ok () := by
  have found : (h.db.executions.find? fun stored =>
      stored.execution = row.execution && stored.workspace = row.workspace) = some row :=
    exclusive.find?_execution member (by simp) (by simp +contextual)
  obtain ⟨m, answer, db, done, -, -⟩ := gives_cancelRow calm undisturbed found
  simp only [cancel, transact, done]

theorem of_cancel_eq_ok {workspace : WorkspaceId} {execution : ExecutionId}
    (undisturbed : h.db.Undisturbed) (accepted : (h.cancel w workspace execution).1 = .ok ()) :
    ∃ at_ freedAt, (h.cancel w workspace execution).2.db =
      (Change.cancel execution at_ freedAt).apply h.db := by
  unfold cancel transact at accepted ⊢
  rcases outcome : cancelRow workspace execution w h.meter h.db with ⟨m, e | ⟨row, db⟩⟩ <;>
    simp only [outcome] at accepted ⊢
  · cases accepted
  · obtain ⟨-, at_, freedAt, applied⟩ := of_cancelRow undisturbed outcome
    exact ⟨at_, freedAt, applied.symm⟩

theorem complete_exists {row : Execution} {reported : String} {state : ExecutionState}
    (undisturbed : h.db.Undisturbed) (calm : w.CalmFrom h.meter) (exclusive : h.db.Exclusive)
    (member : row ∈ h.db.executions) (accepted : terminalState reported = .ok state) :
    (h.complete w row.execution reported).1 = .ok () := by
  have found : h.db.executions.find? (·.execution = row.execution) = some row :=
    exclusive.find?_execution member (by simp) (by simp)
  have gives : (completeRow row.execution state).Gives w h.meter h.db fun _ _ => True :=
    gives_completeRow calm undisturbed found
  obtain ⟨m, _, db, done, -, -⟩ := gives
  simp only [complete, accepted, transact, done]

theorem of_complete_eq_ok {execution : ExecutionId} {reported : String}
    (undisturbed : h.db.Undisturbed) (accepted : (h.complete w execution reported).1 = .ok ()) :
    ∃ state at_ freedAt, state.isTerminal ∧ (h.complete w execution reported).2.db =
      (Change.finish execution state at_ freedAt).apply h.db := by
  unfold complete at accepted ⊢
  cases read : terminalState reported with
  | error reason => simp [read] at accepted
  | ok state =>
      simp only [read, transact] at accepted ⊢
      rcases outcome : completeRow execution state w h.meter h.db with ⟨m, e | ⟨_, db⟩⟩ <;>
        simp only [outcome] at accepted ⊢
      · cases accepted
      · obtain ⟨-, at_, freedAt, applied⟩ := of_completeRow undisturbed outcome
        exact ⟨state, at_, freedAt, isTerminal_of_terminalState read, applied.symm⟩

/-- Only the store can refuse a request; it does not where identifiers are unique and no statement
is refused from outside. -/
def Admits (w : World) (request : ExecuteRequest) (h : Hub) : Prop :=
  (∀ e, (h.execute w request).1 = .error e → ∃ cause, e = .store cause) ∧
    (Function.Injective w.unique → w.CalmFrom h.meter →
      ∃ info, (h.execute w request).1 = .ok info)

theorem admits_of_room {session : Session} (undisturbed : h.db.Undisturbed) (minted : h.Minted w)
    (found : h.db.sessionIn request.workspace request.session = some session)
    (free : session.holder = none)
    (room : h.limit = 0 ∨ h.db.activeCount request.workspace < h.limit) : h.Admits w request := by
  constructor
  · intro e failed
    obtain ⟨m, failed', -⟩ := of_execute_eq_error failed
    rcases of_admission_eq_error undisturbed failed' with
      stored | ⟨-, absent⟩ | ⟨other, found', causes⟩
    · exact stored
    · rw [found] at absent
      contradiction
    · rw [found] at found'
      cases found'
      rcases causes with ⟨active, held, -⟩ | ⟨-, limited, full, -⟩
      · rw [free] at held
        contradiction
      · omega
  · intro unique calm
    obtain ⟨m, a, db, done, -, -⟩ :=
      gives_admission calm undisturbed found free room (minted.ne_fresh unique)
    simp only [execute, transact, done]
    exact ⟨_, rfl⟩

/-- Whether the end of an execution is all that a request has to wait for. -/
structure WaitsFor (w : World) (request : ExecuteRequest) (row : Execution) (h : Hub) : Prop where
  undisturbed : h.db.Undisturbed
  minted : h.Minted w
  exclusive : h.db.Exclusive
  member : row ∈ h.db.executions
  active : row.isActive
  inWorkspace : row.workspace = request.workspace
  within : h.limit = 0 ∨ h.db.activeCount request.workspace ≤ h.limit
  free : ∃ session, h.db.sessionIn request.workspace request.session = some session ∧
    (session.holder = none ∨ session.active = some row.execution)

namespace WaitsFor

variable {row : Execution} {change : Change}

theorem admits_of_ends (waits : h.WaitsFor w request row) (ended : change.ends = some row.execution)
    (allowed : change.Allowed limit h.db) (operation : Operation)
    (applied : (operation.apply w h).db = change.apply h.db) :
    (operation.apply w h).Admits w request := by
  obtain ⟨session, found, free⟩ := waits.free
  have leads := operation.leads (w := w) waits.undisturbed
  have fewer := Change.activeCount_apply_lt waits.exclusive.distinctExecutions allowed waits.member
    waits.active ended
  obtain ⟨session', found', free'⟩ := Change.sessionIn_apply_of_ends ended found free
  rw [waits.inWorkspace] at fewer
  rw [← applied] at fewer found'
  have room := waits.within.imp_right (Nat.lt_of_lt_of_le fewer)
  rw [← leads.limit] at room
  exact admits_of_room (leads.undisturbed waits.undisturbed)
    (waits.minted.apply waits.undisturbed operation) found' free' room

theorem admits_of_cancel (waits : h.WaitsFor w request row)
    (accepted : (h.cancel w row.workspace row.execution).1 = .ok ()) :
    (h.cancel w row.workspace row.execution).2.Admits w request := by
  obtain ⟨at_, freedAt, applied⟩ := of_cancel_eq_ok waits.undisturbed accepted
  have allowed : (Change.cancel row.execution at_ freedAt).Allowed h.limit h.db :=
    ⟨row, waits.member, rfl⟩
  exact waits.admits_of_ends rfl allowed (.cancel row.workspace row.execution) applied

theorem admits_of_complete (waits : h.WaitsFor w request row) {reported : String}
    (accepted : (h.complete w row.execution reported).1 = .ok ()) :
    (h.complete w row.execution reported).2.Admits w request := by
  obtain ⟨state, at_, freedAt, terminal, applied⟩ := of_complete_eq_ok waits.undisturbed accepted
  have allowed : (Change.finish row.execution state at_ freedAt).Allowed h.limit h.db := terminal
  exact waits.admits_of_ends rfl allowed (.complete row.execution reported) applied

end WaitsFor

/-- Whether nothing but the quota can stand in the way of a request. -/
structure Ready (w : World) (request : ExecuteRequest) (h : Hub) : Prop where
  undisturbed : h.db.Undisturbed
  minted : h.Minted w
  exclusive : h.db.Exclusive
  within : h.db.activeCount request.workspace ≤ h.limit
  free : ∃ session, h.db.sessionIn request.workspace request.session = some session ∧
    session.holder = none

namespace Ready

variable {row : Execution}

/-- Any active execution of the workspace will do. -/
theorem waitsFor (ready : h.Ready w request) (member : row ∈ h.db.executions)
    (active : row.isActive) (inWorkspace : row.workspace = request.workspace) :
    h.WaitsFor w request row := by
  obtain ⟨session, found, free⟩ := ready.free
  exact ⟨ready.undisturbed, ready.minted, ready.exclusive, member, active, inWorkspace,
    .inr ready.within, session, found, .inl free⟩

theorem admits_of_cancel (ready : h.Ready w request) (member : row ∈ h.db.executions)
    (active : row.isActive) (inWorkspace : row.workspace = request.workspace)
    (accepted : (h.cancel w row.workspace row.execution).1 = .ok ()) :
    (h.cancel w row.workspace row.execution).2.Admits w request :=
  (ready.waitsFor member active inWorkspace).admits_of_cancel accepted

theorem admits_of_complete (ready : h.Ready w request) (member : row ∈ h.db.executions)
    (active : row.isActive) (inWorkspace : row.workspace = request.workspace) {reported : String}
    (accepted : (h.complete w row.execution reported).1 = .ok ()) :
    (h.complete w row.execution reported).2.Admits w request :=
  (ready.waitsFor member active inWorkspace).admits_of_complete accepted

end Ready

/-- The quota of a workspace: after every run no workspace has more active executions than the limit.
So a request that is refused for the quota finds it exactly used up, and the same request is admitted
as soon as any active execution of the workspace was cancelled or completed. -/
theorem workspace_quota (w : World) (limit ring queue : Nat) (operations : List Operation)
    (limited : 0 < limit) :
    let h := (create limit ring queue).run w operations
    (∀ workspace, h.db.activeCount workspace ≤ limit) ∧
      ∀ request workspace bound current,
        (h.execute w request).1 = .error (.quotaExceeded workspace bound current) →
          let refused := (h.execute w request).2
          workspace = request.workspace ∧ bound = limit ∧ current = limit ∧
            ∀ row ∈ refused.db.executions, row.workspace = request.workspace → row.isActive →
              let cancelled := refused.cancel w row.workspace row.execution
              let completed := fun reported => refused.complete w row.execution reported
              (w.CalmFrom refused.meter → cancelled.1 = .ok () ∧
                ∀ reported, (terminalState reported).isOk → (completed reported).1 = .ok ()) ∧
              (cancelled.1 = .ok () → cancelled.2.Admits w request) ∧
              ∀ reported, (completed reported).1 = .ok () →
                (completed reported).2.Admits w request := by
  intro h
  have within : h.db.WithinQuota limit :=
    holds_run (fun workspace => Nat.zero_le limit)
      fun _ _ allowed within => within.apply limited allowed
  refine ⟨within, ?_⟩
  intro request workspace bound current failed refused
  have ofLimit : h.limit = limit := limit_run
  obtain ⟨⟨ofWorkspace, ofBound, counted, full⟩, same, free⟩ :=
    of_quotaExceeded undisturbed_run failed
  rw [ofLimit] at ofBound full
  refine ⟨ofWorkspace, ofBound, Nat.le_antisymm (counted ▸ within request.workspace) full, ?_⟩
  intro row member inWorkspace active
  -- the refused request is one more operation of the run
  have again : refused = (create limit ring queue).run w (operations ++ [.execute request]) := by
    rw [run_append]
    rfl
  have ready : refused.Ready w request := by
    refine ⟨again ▸ undisturbed_run, ?_, ?_, ?_, ?_⟩
    · exact again ▸ minted_run undisturbed_create fun _ absent => absurd absent List.not_mem_nil
    · exact again ▸ exclusive_run w limit ring queue (operations ++ [.execute request])
    · have refusedLimit : refused.limit = limit := again ▸ limit_run
      rw [refusedLimit, same]
      exact within request.workspace
    · rw [same]
      exact free
  refine ⟨?_, ready.admits_of_cancel member active inWorkspace,
    fun reported => ready.admits_of_complete member active inWorkspace⟩
  intro calm
  refine ⟨cancel_exists ready.undisturbed calm ready.exclusive member, ?_⟩
  intro reported readable
  cases read : terminalState reported with
  | error reason => simp [read, Except.isOk, Except.toBool] at readable
  | ok state => exact complete_exists ready.undisturbed calm ready.exclusive member read

/-- Two sessions of a workspace, the first of them running. -/
private def crowd : List Operation :=
  let session (id : SessionId) : NewSession :=
    ⟨some id, "ws", "p", none, none, false, none, none, none, "user"⟩
  [.createSession (session "first"), .createSession (session "second"),
    .execute ⟨"ws", "first", "hello", "user"⟩]

/-- With room for one execution the second session has to wait until the first is cancelled. -/
theorem single_place_is_given_back :
    let h := (create 1 8 8).run .plain crowd
    let request : ExecuteRequest := ⟨"ws", "second", "hello", "user"⟩
    (h.execute .plain request).1 = .error (.quotaExceeded "ws" 1 1) ∧
      ∃ row ∈ h.db.executions, row.isActive ∧ ∃ info,
        (((h.execute .plain request).2.cancel .plain row.workspace row.execution).2.execute
          .plain request).1 = .ok info := by
  intro h request
  refine ⟨rfl, _, List.mem_singleton_self _, rfl, ?_⟩
  obtain ⟨-, refusals⟩ := workspace_quota .plain 1 8 8 crowd Nat.one_pos
  obtain ⟨-, -, -, endings⟩ := refusals request "ws" 1 1 rfl
  obtain ⟨accepted, admits, -⟩ := endings _ (List.mem_singleton_self _) rfl rfl
  exact (admits (accepted World.calmFrom_plain).1).2 World.injective_plain World.calmFrom_plain

end Hub

end Switchboard
