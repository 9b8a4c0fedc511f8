import Switchboard.Proofs.Store.Statement

/-!
Tables up to the clock and up to an acknowledgement.

Two runs of the same calls may read their clocks at other moments, and in one of them a worker's
acceptance of an execution may be known when it is not in the other.  What a table shows when this is
put aside is the same in both runs: rows are compared by what they show.
-/

namespace Switchboard

/-- What two runs of the same calls may differ in. -/
structure Leeway where
  /-- Whether their clocks show the same. -/
  clocks : Bool
  /-- The events that may be posted without a time, by execution and number. -/
  undated : List (ExecutionId × Int)
  /-- The execution that is acknowledged at different moments. -/
  moved : ExecutionId
  /-- Whether only one of the runs has had the acknowledgement so far. -/
  ahead : Bool
deriving Inhabited

namespace Leeway

variable (L : Leeway)

/-- What is compared of a time that was read from the clock. -/
def stamp (at_ : String) : String := if L.clocks then at_ else ""

/-- What is compared of the time of an event with a number. -/
def eventStamp (execution : ExecutionId) (wire : Int) (at_ : String) : String :=
  if L.clocks || !L.undated.contains (execution, wire) then at_ else ""

/-- What is compared of the latest time of the events of an execution. -/
def lastStamp (execution : ExecutionId) (at_ : String) : String :=
  if L.clocks || L.undated.all (·.1 != execution) then at_ else ""

end Leeway

def ProjectRow.shown (L : Leeway) (row : ProjectRow) : ProjectRow :=
  { row with createdAt := L.stamp row.createdAt }

def Session.shown (L : Leeway) (row : Session) : Session :=
  { row with createdAt := L.stamp row.createdAt, updatedAt := L.stamp row.updatedAt }

/-- An execution without the start that depends on the moment of the acknowledgement.  A run that has
not had the acknowledgement yet shows it as pending where the other shows it as executing. -/
def Execution.shown (L : Leeway) (row : Execution) : Execution :=
  { row with
    state := if L.ahead ∧ row.execution = L.moved ∧ row.state = .pending then .executing
      else row.state
    createdAt := L.stamp row.createdAt
    startedAt := if row.execution = L.moved then none else row.startedAt.map L.stamp
    endedAt := row.endedAt.map L.stamp
    lastEventAt := row.lastEventAt.map (L.lastStamp row.execution) }

def EventRow.shown (L : Leeway) (row : EventRow) : EventRow :=
  { row with timestamp := L.eventStamp row.execution row.wire row.timestamp }

def Database.shown (L : Leeway) (db : Database) : Database :=
  { db with
    projects := db.projects.map (ProjectRow.shown L)
    sessions := db.sessions.map (Session.shown L)
    executions := db.executions.map (Execution.shown L)
    events := db.events.map (EventRow.shown L) }

variable {L : Leeway}

namespace Leeway

@[simp] theorem stamp_stamp (at_ : String) : L.stamp (L.stamp at_) = L.stamp at_ := by
  unfold stamp
  split <;> rfl

@[simp] theorem lastStamp_lastStamp (execution : ExecutionId) (at_ : String) :
    L.lastStamp execution (L.lastStamp execution at_) = L.lastStamp execution at_ := by
  unfold lastStamp
  split <;> rfl

@[simp] theorem stamp_comp_stamp : L.stamp ∘ L.stamp = L.stamp := funext stamp_stamp

@[simp] theorem lastStamp_comp_lastStamp (execution : ExecutionId) :
    L.lastStamp execution ∘ L.lastStamp execution = L.lastStamp execution :=
  funext (lastStamp_lastStamp execution)

@[simp] theorem stamp_lastStamp (execution : ExecutionId) (at_ : String) :
    L.stamp (L.lastStamp execution at_) = L.stamp at_ := by
  cases clocks : L.clocks <;> simp [stamp, lastStamp, clocks]

theorem stamp_of_eventStamp {execution : ExecutionId} {wire : Int} {at_ at' : String}
    (same : L.eventStamp execution wire at_ = L.eventStamp execution wire at') :
    L.stamp at_ = L.stamp at' := by
  cases clocks : L.clocks with
  | true => simpa [eventStamp, stamp, clocks] using same
  | false => simp [stamp, clocks]

/-- Of an event that may be posted without a time only the clock's time is compared. -/
theorem eventStamp_of_undated {execution : ExecutionId} {wire : Int}
    (undated : (execution, wire) ∈ L.undated) (at_ : String) :
    L.eventStamp execution wire at_ = L.stamp at_ := by
  simp [eventStamp, stamp, undated]

theorem lastStamp_of_undated {execution : ExecutionId} {wire : Int}
    (undated : (execution, wire) ∈ L.undated) (at_ : String) :
    L.lastStamp execution at_ = L.stamp at_ := by
  have found : L.undated.all (·.1 != execution) = false := by
    rw [List.all_eq_false]
    exact ⟨_, undated, by simp⟩
  simp [lastStamp, stamp, found]

/-- Of times that are not compared the latest is not compared either. -/
theorem lastStamp_latest (execution : ExecutionId) (last : Option String) (at_ : String) :
    L.lastStamp execution (Execution.latest last at_) =
      L.lastStamp execution (Execution.latest (last.map (L.lastStamp execution))
        (L.lastStamp execution at_)) := by
  cases compared : L.clocks || L.undated.all (·.1 != execution) with
  | false => simp only [lastStamp, compared, Bool.false_eq_true, if_false]
  | true =>
      have same : L.lastStamp execution = id := by
        funext at_
        simp only [lastStamp, compared, if_true, id]
      rw [same, Option.map_id]
      rfl

end Leeway

namespace Execution

variable {row row' : Execution} {state : ExecutionState} {at_ at' : String}

@[simp] theorem execution_shown : (row.shown L).execution = row.execution := rfl

@[simp] theorem isActive_shown : (row.shown L).isActive = row.isActive := by
  simp only [isActive, shown]
  split
  · rename_i merged
    rw [merged.2.2]
    rfl
  · rfl

/-- Only the execution that is ahead shows another state than it is in. -/
theorem state_shown (apart : L.ahead → row.execution ≠ L.moved) :
    (row.shown L).state = row.state := by
  simp only [shown]
  rw [if_neg]
  intro merged
  exact apart merged.1 merged.2.1

theorem shown_started :
    (row.started at_).shown L = ((row.shown L).started (L.stamp at_)).shown L := by
  by_cases moved : row.execution = L.moved
  · simp [shown, started, moved]
  · cases before : row.startedAt <;> simp [shown, started, moved, before]

theorem shown_ended :
    (row.ended state at_).shown L = ((row.shown L).ended state (L.stamp at_)).shown L := by
  by_cases moved : row.execution = L.moved <;> cases before : row.endedAt <;>
    simp [shown, ended, moved, before]

theorem shown_heard :
    (row.heard at_).shown L =
      ((row.shown L).heard (L.lastStamp row.execution at_)).shown L := by
  have last := L.lastStamp_latest row.execution row.lastEventAt at_
  by_cases moved : row.execution = L.moved
  · rw [moved] at last
    cases merged : L.ahead <;> by_cases pending : row.state = .pending <;>
      simp [shown, heard, started, moved, merged, pending, last]
  · by_cases pending : row.state = .pending
    · cases before : row.startedAt <;> simp [shown, heard, started, moved, pending, before, last]
    · simp [shown, heard, moved, pending, last]

end Execution

section

variable {ρ : Type} {shown : ρ → ρ} {rows rows' : List ρ}

/-- Rows that show the same are changed alike by changes that keep them so. -/
theorem map_map_of_same {change change' : ρ → ρ}
    (keeps : ∀ row row', shown row = shown row' → shown (change row) = shown (change' row'))
    (same : rows.map shown = rows'.map shown) :
    (rows.map change).map shown = (rows'.map change').map shown := by
  induction rows generalizing rows' with
  | nil =>
      cases rows' with
      | nil => rfl
      | cons => contradiction
  | cons row rows ih =>
      cases rows' with
      | nil => contradiction
      | cons row' rows' =>
          obtain ⟨first, others⟩ := List.cons.inj same
          simp only [List.map_cons, keeps row row' first, ih others]

variable {test : ρ → Bool}

theorem test_of_same {row row' : ρ} (same : shown row = shown row')
    (tests : ∀ row, test (shown row) = test row) : test row = test row' := by
  rw [← tests row, same, tests row']

variable (same : rows.map shown = rows'.map shown) (tests : ∀ row, test (shown row) = test row)

include same tests

theorem find?_of_same : (rows.find? test).map shown = (rows'.find? test).map shown := by
  have through : test ∘ shown = test := funext tests
  calc (rows.find? test).map shown
    _ = (rows.map shown).find? test := by rw [List.find?_map, through]
    _ = (rows'.map shown).find? test := by rw [same]
    _ = (rows'.find? test).map shown := by rw [List.find?_map, through]

theorem length_filter_of_same : (rows.filter test).length = (rows'.filter test).length := by
  have through : test ∘ shown = test := funext tests
  have filtered := congrArg (fun rows => (rows.filter test).length) same
  simpa only [List.filter_map, List.length_map, through] using filtered

theorem any_of_same : rows.any test = rows'.any test := by
  have through : test ∘ shown = test := funext tests
  have found := congrArg (List.any · test) same
  simpa only [List.any_map, through] using found

end

namespace Database

/-- Whether two databases show the same and are undisturbed. -/
structure Alike (L : Leeway) (db db' : Database) : Prop where
  shown : db.shown L = db'.shown L
  undisturbed : db.Undisturbed

namespace Alike

variable {db db' : Database} (alike : db.Alike L db')

include alike

theorem other : db'.Undisturbed := by
  have triggers := (congrArg Database.triggers alike.shown :)
  have lost := (congrArg Database.executionsLost alike.shown :)
  exact ⟨triggers.symm.trans alike.undisturbed.noTrigger,
    lost.symm.trans alike.undisturbed.present⟩

theorem projects : db.projects.map (ProjectRow.shown L) = db'.projects.map (ProjectRow.shown L) :=
  (congrArg Database.projects alike.shown :)

theorem sessions : db.sessions.map (Session.shown L) = db'.sessions.map (Session.shown L) :=
  (congrArg Database.sessions alike.shown :)

theorem executions :
    db.executions.map (Execution.shown L) = db'.executions.map (Execution.shown L) :=
  (congrArg Database.executions alike.shown :)

theorem events : db.events.map (EventRow.shown L) = db'.events.map (EventRow.shown L) :=
  (congrArg Database.events alike.shown :)

theorem replace {projects projects' : List ProjectRow} {sessions sessions' : List Session}
    {executions executions' : List Execution} {events events' : List EventRow}
    (sameProjects : projects.map (ProjectRow.shown L) = projects'.map (ProjectRow.shown L))
    (sameSessions : sessions.map (Session.shown L) = sessions'.map (Session.shown L))
    (sameExecutions : executions.map (Execution.shown L) = executions'.map (Execution.shown L))
    (sameEvents : events.map (EventRow.shown L) = events'.map (EventRow.shown L)) :
    { db with projects, sessions, executions, events }.Alike L
      { db' with
        projects := projects'
        sessions := sessions'
        executions := executions'
        events := events' } := by
  refine ⟨?_, alike.undisturbed.noTrigger, alike.undisturbed.present⟩
  have rest := alike.shown
  simp only [Database.shown, Database.mk.injEq] at rest ⊢
  exact ⟨sameProjects, sameSessions, sameExecutions, sameEvents, rest.2.2.2.2⟩

end Alike

end Database

end Switchboard
