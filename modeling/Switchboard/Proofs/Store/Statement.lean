import Switchboard.Proofs.Store.Change
import Switchboard.Proofs.Store.Success

/-!
What the statements of the repositories do to undisturbed tables.

Where no trigger stands, an update changes exactly the rows it is for, and an insertion adds its row
unless the row's key is taken or its parent is missing.
-/

namespace Switchboard

namespace Database

variable {db db' : Database}

theorem Undisturbed.withExecutions (undisturbed : db.Undisturbed) (rows : List Execution) :
    { db with executions := rows }.Undisturbed :=
  ⟨undisturbed.noTrigger, undisturbed.present⟩

theorem Undisturbed.withEvents (undisturbed : db.Undisturbed) (rows : List EventRow) :
    { db with events := rows }.Undisturbed :=
  ⟨undisturbed.noTrigger, undisturbed.present⟩

theorem Undisturbed.executionRows (undisturbed : db.Undisturbed) :
    db.executionRows = .ok db.executions := by
  simp [Database.executionRows, undisturbed.present]

theorem Undisturbed.updateSessions (undisturbed : db.Undisturbed) (test : Session → Bool)
    (change : Session → Session) :
    Database.updateSessions test change db = .ok ((db.sessions.filter test).length,
      { db with sessions := db.sessions.map fun row => if test row then change row else row }) := by
  have silent : ((db.sessions.filter test).findSome? fun row =>
      db.triggers.findSome? (Trigger.refusesSession row)) = none := by
    simp [undisturbed.noTrigger]
  simp only [Database.updateSessions, silent]

theorem Undisturbed.updateExecutions (undisturbed : db.Undisturbed) (test : Execution → Bool)
    (change : Execution → Execution) :
    Database.updateExecutions test change db = .ok ((db.executions.filter test).length,
      { db with
        executions := db.executions.map fun row => if test row then change row else row }) := by
  have silent : ((db.executions.filter test).findSome? fun _ =>
      db.triggers.findSome? Trigger.refusesExecution) = none := by
    simp [undisturbed.noTrigger]
  have alone (failed : List ExecutionId) (rows : List Execution) :
      db.afterFailures failed rows = rows := by
    simp [afterFailures, undisturbed.noTrigger]
  simp only [Database.updateExecutions, undisturbed.present, silent, alone]
  rfl

/-- An insertion goes through exactly if no stored row has its key. -/
private theorem guarded_eq_ok {ρ : Type} {rows : List ρ} {taken : ρ → Bool} {fault : DatabaseFault}
    {after : Database} {u : Unit} :
    (if rows.any taken then .error fault else .ok ((), after)) = Except.ok (u, db') ↔
      (∀ stored ∈ rows, ¬ taken stored) ∧ after = db' := by
  cases clash : rows.any taken with
  | false => simpa using fun _ => by simpa using clash
  | true =>
      obtain ⟨stored, member, same⟩ := List.any_eq_true.mp clash
      simpa using fun free => absurd same (by simpa using free stored member)

theorem insertProject_eq_ok {row : ProjectRow} {u : Unit} :
    insertProject row db = .ok (u, db') ↔
      (∀ stored ∈ db.projects, stored.project ≠ row.project) ∧
        { db with projects := db.projects ++ [row] } = db' := by
  unfold insertProject
  rw [guarded_eq_ok]
  simp

theorem insertSession_eq_ok {row : Session} {u : Unit} :
    insertSession row db = .ok (u, db') ↔
      (∀ stored ∈ db.sessions, stored.session ≠ row.session) ∧
        { db with sessions := db.sessions ++ [row] } = db' := by
  unfold insertSession
  rw [guarded_eq_ok]
  simp

theorem Undisturbed.insertExecution_eq_ok (undisturbed : db.Undisturbed) {row : Execution}
    {u : Unit} :
    insertExecution row db = .ok (u, db') ↔
      (∀ stored ∈ db.executions, stored.execution ≠ row.execution) ∧
        (∃ session ∈ db.sessions, session.session = row.session) ∧
        { db with executions := db.executions ++ [row] } = db' := by
  unfold insertExecution
  simp only [undisturbed.present, Bool.false_eq_true, if_false]
  by_cases parent : db.sessions.any (·.session = row.session)
  · simp only [parent, Bool.not_true, Bool.false_eq_true, if_false]
    rw [guarded_eq_ok]
    simpa using fun _ _ => by simpa using parent
  · have orphan : ¬ ∃ session ∈ db.sessions, session.session = row.session := by
      simpa using parent
    simp only [parent, orphan]
    split <;> simp

theorem Undisturbed.insertAudit_eq_ok (undisturbed : db.Undisturbed) {row : AuditRow} {u : Unit} :
    insertAudit row db = .ok (u, db') ↔
      (∀ stored ∈ db.audits, stored.audit ≠ row.audit) ∧
        { db with audits := db.audits ++ [row] } = db' := by
  have silent : db.triggers.findSome? Trigger.refusesAudit = none := by
    simp [undisturbed.noTrigger]
  unfold insertAudit
  rw [silent]
  simp only [guarded_eq_ok]
  simp

theorem Undisturbed.insertEvent (undisturbed : db.Undisturbed) (row : EventRow)
    (parent : ∃ stored ∈ db.executions, stored.execution = row.execution) :
    Database.insertEvent row db =
      .ok (!db.knows row, { db with events := db.events ++ if db.knows row then [] else [row] }) := by
  have silent : db.triggers.findSome? (Trigger.refusesEvent row) = none := by
    simp [undisturbed.noTrigger]
  have present : db.executions.any (·.execution = row.execution) := by simpa using parent
  unfold Database.insertEvent
  rw [silent]
  cases known : db.knows row with
  | false =>
      unfold knows at known
      simp [known, present]
  | true =>
      unfold knows at known
      simp [known]

end Database

end Switchboard
