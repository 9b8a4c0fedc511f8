import Switchboard.Proofs.Store.Statement

/-!
What the operations on sessions, executions and records do to undisturbed tables when they succeed.
-/

namespace Switchboard

open Transaction

variable {w : World} {m m' : Meter} {db db' : Database}

/-- Giving or minting an identifier leaves the tables alone. -/
theorem of_givenOrFresh_eq_ok {kind : IdKind} {given : Option String} {id : String}
    (done : (givenOrFresh kind given : Transaction StoreError String) w m db = (m', .ok (id, db'))) :
    db = db' := by
  cases given with
  | none => exact (mint_eq_ok.mp done).2.2
  | some _ => exact (pure_eq_ok.mp done).2.2

namespace Execution

variable {execution : ExecutionId} {state : ExecutionState} {at_ : String} {changed : Bool}

theorem updateOne_eq_ok (undisturbed : db.Undisturbed) {test : Execution → Bool}
    {change : Execution → Execution} :
    updateOne execution test change w m db = (m', .ok (changed, db')) ↔
      w.refuses m.statements = none ∧ m.afterStatement = m' ∧
        { db with executions := db.executions.map fun row =>
            if row.execution = execution ∧ test row then change row else row } = db' ∧
        db.executions.any (fun row => row.execution == execution && test row) = changed := by
  have counted : decide (0 < (db.executions.filter fun row =>
      row.execution == execution && test row).length) =
      db.executions.any (fun row => row.execution == execution && test row) := by
    rw [Bool.eq_iff_iff, decide_eq_true_iff, List.length_pos_iff_exists_mem]
    simp
  simp [updateOne, perform_eq_ok, undisturbed.updateExecutions, ← counted, and_assoc]

theorem get_eq_ok (undisturbed : db.Undisturbed) {found : Option Execution} :
    get execution w m db = (m', .ok (found, db')) ↔
      w.refuses m.statements = none ∧ m.afterStatement = m' ∧
        db.executions.find? (·.execution = execution) = found ∧ db = db' := by
  simp [get, query_eq_ok, Database.findExecution, undisturbed.executionRows, bind, Except.bind,
    pure, Except.pure]

theorem getIn_eq_ok (undisturbed : db.Undisturbed) {workspace : WorkspaceId}
    {found : Option Execution} :
    getIn workspace execution w m db = (m', .ok (found, db')) ↔
      w.refuses m.statements = none ∧ m.afterStatement = m' ∧
        (db.executions.find? fun row =>
          row.execution = execution && row.workspace = workspace) = found ∧ db = db' := by
  simp [getIn, query_eq_ok, Database.findExecution, undisturbed.executionRows, bind, Except.bind,
    pure, Except.pure]

theorem filter_eq_ok (undisturbed : db.Undisturbed) (test : Execution → Bool) :
    Database.filterExecutions test db = .ok (db.executions.filter test) := by
  simp [Database.filterExecutions, undisturbed.executionRows, bind, Except.bind, pure, Except.pure]

theorem countActive_eq_ok (undisturbed : db.Undisturbed) {workspace : WorkspaceId} {count : Nat} :
    countActive workspace w m db = (m', .ok (count, db')) ↔
      w.refuses m.statements = none ∧ m.afterStatement = m' ∧
        db = db' ∧ db.activeCount workspace = count := by
  simp [countActive, query_eq_ok, filter_eq_ok undisturbed, Database.activeCount,
    List.countP_eq_length_filter, and_assoc]

theorem insert_eq_ok (undisturbed : db.Undisturbed) {new : NewExecution} {row : Execution} :
    insert new w m db = (m', .ok (row, db')) ↔
      w.refuses m.statements = none ∧ m.afterReading.afterStatement = m' ∧
        admitted new (w.now m) = row ∧
        (∀ stored ∈ db.executions, stored.execution ≠ new.execution) ∧
        (∃ session ∈ db.sessions, session.session = new.session) ∧
        { db with executions := db.executions ++ [row] } = db' := by
  simp only [insert, now_bind, perform_bind_eq_ok, undisturbed.insertExecution_eq_ok, pure_eq_ok]
  constructor
  · intro done
    obtain ⟨passed, _, _, ⟨fresh, parent, rfl⟩, rfl, rfl, rfl⟩ := done
    exact ⟨passed, rfl, rfl, fresh, parent, rfl⟩
  · intro done
    obtain ⟨passed, rfl, rfl, fresh, parent, rfl⟩ := done
    exact ⟨passed, (), _, ⟨fresh, parent, rfl⟩, rfl, rfl, rfl⟩

/-- The stale executions, in the order in which a sweep recovers them. -/
theorem listStale_eq_ok (undisturbed : db.Undisturbed) {cutoff : String} {rows : List Execution} :
    listStale cutoff w m db = (m', .ok (rows, db')) ↔
      w.refuses m.statements = none ∧ m.afterStatement = m' ∧
        db = db' ∧ ((db.executions.filter (isStale cutoff)).mergeSort
          fun a b => !decide (b.createdAt < a.createdAt)) = rows := by
  simp [listStale, query_eq_ok, filter_eq_ok undisturbed, and_assoc]

end Execution

namespace Session

variable {execution : ExecutionId} {session : SessionId} {count : Nat} {moved : Bool}

theorem getIn_eq_ok {workspace : WorkspaceId} {found : Option Session} :
    getIn workspace session w m db = (m', .ok (found, db')) ↔
      w.refuses m.statements = none ∧ m.afterStatement = m' ∧
        db.sessionIn workspace session = found ∧ db = db' := by
  simp [getIn, query_eq_ok, Database.findSession, Database.sessionIn]

theorem release_eq_ok (undisturbed : db.Undisturbed) :
    release execution w m db = (m', .ok (count, db')) ↔
      w.refuses m.statements = none ∧ m.afterReading.afterStatement = m' ∧
        (db.sessions.filter (isHeldBy execution)).length = count ∧
        { db with sessions := db.sessions.map fun row =>
            if row.active = some execution then row.freed (w.now m) else row } = db' := by
  simp [release, perform_eq_ok, undisturbed.updateSessions, isHeldBy]

theorem bind_eq_ok (undisturbed : db.Undisturbed) {bound : Bool} :
    bind session execution w m db = (m', .ok (bound, db')) ↔
      w.refuses m.statements = none ∧ m.afterReading.afterStatement = m' ∧
        { db with sessions := db.sessions.map fun row =>
            if row.session = session then row.held execution (w.now m) else row } = db' ∧
        decide (0 < (db.sessions.filter (·.session = session)).length) = bound := by
  simp [bind, perform_eq_ok, undisturbed.updateSessions, and_assoc]

theorem transition_eq_ok (undisturbed : db.Undisturbed) {source target : SessionStatus} :
    transition execution source target w m db = (m', .ok (moved, db')) ↔
      w.refuses m.statements = none ∧ m.afterReading.afterStatement = m' ∧
        { db with sessions := db.sessions.map fun row =>
            if row.active = some execution ∧ row.status = source then
              row.withStatus target (w.now m)
            else row } = db' ∧
        decide (0 < (db.sessions.filter fun row =>
          isHeldBy execution row && row.status == source).length) = moved := by
  simp [transition, perform_eq_ok, undisturbed.updateSessions, isHeldBy, and_assoc]

end Session

namespace ProjectRow

theorem rootOf_eq_ok {project : ProjectId} {root : String} :
    rootOf project w m db = (m', .ok (root, db')) ↔
      w.refuses m.statements = none ∧ m.afterStatement = m' ∧
        db = db' ∧ db.rootOf project = root := by
  simp [rootOf, get, query_eq_ok, Database.findProject, Database.rootOf, and_assoc]

end ProjectRow

/-- The stored events of an execution after a cursor, in ascending order. -/
def Database.ascendingAfter (execution : ExecutionId) (cursor : Int) (db : Database) : List EventRow :=
  (db.events.filter fun row => row.execution = execution && cursor < row.wire).mergeSort
    fun a b => a.wire ≤ b.wire

theorem Database.perm_ascendingAfter {execution : ExecutionId} {cursor : Int} :
    (db.ascendingAfter execution cursor).Perm
      (db.events.filter fun row => row.execution = execution && cursor < row.wire) :=
  List.mergeSort_perm ..

namespace EventRow

theorem append_eq_ok (undisturbed : db.Undisturbed) {event : Event} {stored : Bool}
    (parent : ∃ row ∈ db.executions, row.execution = event.execution) :
    append event w m db = (m', .ok (stored, db')) ↔
      w.refuses m.statements = none ∧ m.afterStatement = m' ∧
        (!db.knows (ofEvent event)) = stored ∧
        { db with events := db.events ++
            if db.knows (ofEvent event) then [] else [ofEvent event] } = db' := by
  simp [append, perform_eq_ok, undisturbed.insertEvent (ofEvent event) parent]

theorem listAfter_eq_ok {execution : ExecutionId} {cursor : Int} {limit : Nat}
    {rows : List EventRow} :
    listAfter execution cursor limit w m db = (m', .ok (rows, db')) ↔
      w.refuses m.statements = none ∧ m.afterStatement = m' ∧
        (db.ascendingAfter execution cursor).take (min limit limitMax) = rows ∧ db = db' := by
  simp [listAfter, query_eq_ok, Database.eventsAfter, Database.ascendingAfter]

end EventRow

namespace AuditRow

private theorem of_insert_eq_ok (undisturbed : db.Undisturbed) {row recorded : AuditRow}
    (done : (do perform (Database.insertAudit row); return row) w m db =
      (m', .ok (recorded, db'))) :
    row = recorded ∧ (∀ stored ∈ db.audits, stored.audit ≠ recorded.audit) ∧
      { db with audits := db.audits ++ [recorded] } = db' := by
  simp only [perform_bind_eq_ok, pure_eq_ok, undisturbed.insertAudit_eq_ok] at done
  obtain ⟨_, _, _, ⟨fresh, rfl⟩, _, rfl, rfl⟩ := done
  exact ⟨rfl, fresh, rfl⟩

theorem of_record_eq_ok (undisturbed : db.Undisturbed) {row recorded : AuditRow}
    (done : record row w m db = (m', .ok (recorded, db'))) :
    recorded = { row with audit := recorded.audit, createdAt := recorded.createdAt } ∧
      (∀ stored ∈ db.audits, stored.audit ≠ recorded.audit) ∧
      { db with audits := db.audits ++ [recorded] } = db' := by
  unfold record at done
  split at done <;> split at done <;> simp only [mint_bind, now_bind, pure_bind] at done
  all_goals
    obtain ⟨rfl, stored⟩ := of_insert_eq_ok undisturbed done
    exact ⟨rfl, stored⟩

end AuditRow

end Switchboard
