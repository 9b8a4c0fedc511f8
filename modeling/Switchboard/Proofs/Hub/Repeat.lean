import Switchboard.Proofs.Hub.Lifecycle

/-!
Events taken in again.

Taking in an event stores it, is a sign of life of its execution and may make a session wait.  `Took`
says that all of this is done: it holds once the event was taken in, whatever is taken in later, and
where it holds taking in the event changes nothing.  Tables that differ in readings of the clock only
are compared by what they are when `unstamped`.
-/

namespace Switchboard

/-- A session without the time of its last change. -/
def Session.unstamped (row : Session) : Session := { row with updatedAt := "" }

/-- An execution that ended, or not, without the time. -/
def Execution.unstamped (row : Execution) : Execution :=
  { row with endedAt := row.endedAt.map fun _ => "" }

/-- The tables without the times that are read from the clock while events are taken in or executions
end. -/
def Database.unstamped (db : Database) : Database :=
  { db with
    sessions := db.sessions.map Session.unstamped
    executions := db.executions.map Execution.unstamped }

namespace Execution

variable {row : Execution} {state : ExecutionState} {at_ : String}

theorem unstamped_heard : (row.heard at_).unstamped = row.unstamped.heard at_ := by
  by_cases pending : row.state = .pending <;> simp [heard, unstamped, pending, started]

theorem unstamped_ended : (row.ended state at_).unstamped = row.unstamped.ended state "" := by
  cases before : row.endedAt <;> simp [unstamped, ended, before]

end Execution

namespace Change

/-- The same change without the times that unstamped tables do not show. -/
def unstamped : Change → Change
  | .addSession row => .addSession row.unstamped
  | .enter request session root execution trace createdAt _ =>
    .enter request session root execution trace createdAt ""
  | .finish execution state _ _ => .finish execution state "" ""
  | .cancel execution _ _ => .cancel execution "" ""
  | .timeOut execution _ _ => .timeOut execution "" ""
  | .take event _ => .take event ""
  | .resume execution _ => .resume execution ""
  | change => change

variable {change : Change} {db : Database}

theorem unstamped_onSession {row : Session} :
    (change.onSession row).unstamped = change.unstamped.onSession row.unstamped := by
  cases change with
  | enter | finish | cancel | timeOut | take | resume =>
      simp only [onSession, unstamped]
      split
      · rename_i hit
        exact (if_pos hit).symm
      · rename_i missed
        exact (if_neg missed).symm
  | _ => rfl

theorem unstamped_onExecution {row : Execution} :
    (change.onExecution row).unstamped = change.unstamped.onExecution row.unstamped := by
  cases change with
  | start | finish | cancel | timeOut | take =>
      simp only [onExecution, unstamped]
      split
      · rename_i hit
        refine Eq.trans ?_ (if_pos hit).symm
        first | rfl | exact Execution.unstamped_ended | exact Execution.unstamped_heard
      · rename_i missed
        exact (if_neg missed).symm
  | _ => rfl

/-- What is read from the clock while tables change influences nothing else. -/
theorem unstamped_apply : (change.apply db).unstamped = change.unstamped.apply db.unstamped := by
  have sessions : change.unstamped.newSessions = change.newSessions.map Session.unstamped := by
    cases change <;> rfl
  have executions : change.unstamped.newExecutions =
      change.newExecutions.map Execution.unstamped := by
    cases change <;> rfl
  have others : change.unstamped.newProjects = change.newProjects ∧
      change.unstamped.newEvents db.unstamped = change.newEvents db ∧
      change.unstamped.newAudits = change.newAudits := by
    cases change <;> exact ⟨rfl, rfl, rfl⟩
  simp only [apply, sessions, executions, others]
  simp only [Database.unstamped, List.map_append, List.map_map, Function.comp_def,
    unstamped_onSession, unstamped_onExecution]

end Change

variable {db : Database} {event other : Event} {events : List Event} {at_ : String}

/-- Events taken in, no matter when. -/
def Database.takenIn (events : List Event) (db : Database) : Database :=
  events.foldl (fun db event => (Change.take event "").apply db) db

theorem unstamped_applyTaken {taken : List (Event × String)} :
    (applyTaken db taken).unstamped = db.unstamped.takenIn (taken.map (·.1)) := by
  induction taken generalizing db with
  | nil => rfl
  | cons entry taken ih =>
      have step : applyTaken db (entry :: taken) =
          applyTaken ((Change.take entry.1 entry.2).apply db) taken := rfl
      rw [step, ih, Change.unstamped_apply]
      rfl

namespace Execution

/-- Whether an execution was heard of at a time or later. -/
structure Heard (at_ : String) (row : Execution) : Prop where
  begun : row.state ≠ .pending
  since : ∃ last, row.lastEventAt = some last ∧ at_ ≤ last

variable {row : Execution} {at_ later : String}

theorem latest_le (last : Option String) (at_ : String) : at_ ≤ latest last at_ := by
  cases last with
  | none => exact String.le_refl at_
  | some last =>
      simp only [latest]
      split
      · exact String.le_refl at_
      · rename_i newer
        exact String.not_lt.mp newer

theorem heard_heard : (row.heard at_).Heard at_ := by
  refine ⟨?_, latest row.lastEventAt at_, ?_, latest_le _ _⟩ <;>
    by_cases pending : row.state = .pending <;> simp [heard, pending, started]

theorem Heard.heard (before : row.Heard at_) : (row.heard later).Heard at_ := by
  obtain ⟨begun, last, known, since⟩ := before
  refine ⟨?_, latest (some last) later, ?_, String.le_trans since (le_latest last later)⟩ <;>
    simp [Execution.heard, begun, known]

theorem Heard.heard_eq (before : row.Heard at_) : row.heard at_ = row := by
  obtain ⟨begun, last, known, since⟩ := before
  have stays : latest (some last) at_ = last := if_neg (String.not_lt.mpr since)
  simp only [Execution.heard, if_neg begun, known, stays]
  rw [← known]

end Execution

/-- Whether the tables show that an event was taken in. -/
structure Database.Took (event : Event) (db : Database) : Prop where
  stored : db.knows (.ofEvent event)
  heard : ∀ row ∈ db.executions, row.execution = event.execution → row.Heard event.timestamp
  waits : event.asksConfirmation →
    ∀ row ∈ db.sessions, row.active = some event.execution → row.status ≠ .executing

namespace Database

theorem knows_apply {row : EventRow} {change : Change} (known : db.knows row) :
    (change.apply db).knows row := by
  simp only [knows, Change.apply, List.any_append, Bool.or_eq_true]
  exact .inl known

theorem took_apply_take : ((Change.take event at_).apply db).Took event := by
  refine ⟨?_, ?_, ?_⟩
  · by_cases known : db.knows (.ofEvent event)
    · exact knows_apply known
    · rw [knows, Change.apply_take, if_neg known]
      simp
  · intro row member same
    rw [Change.apply_take] at member
    obtain ⟨stored, -, rfl⟩ := List.mem_map.mp member
    by_cases about : stored.execution = event.execution
    · rw [if_pos about]
      exact Execution.heard_heard
    · rw [if_neg about] at same
      exact absurd same about
  · intro asks row member held
    rw [Change.apply_take] at member
    simp only [asks, if_true] at member
    obtain ⟨stored, -, rfl⟩ := List.mem_map.mp member
    by_cases runs : stored.active = some event.execution ∧ stored.status = .executing
    · rw [if_pos runs]
      exact SessionStatus.noConfusion
    · rw [if_neg runs] at held ⊢
      exact fun runs' => runs ⟨held, runs'⟩

/-- What was taken in stays taken in. -/
theorem Took.apply_take (took : db.Took event) : ((Change.take other at_).apply db).Took event := by
  refine ⟨knows_apply took.stored, ?_, ?_⟩
  · intro row member same
    rcases Change.mem_executions_apply.mp member with ⟨stored, present, rfl⟩ | new
    · rw [Change.execution_onExecution] at same
      have before := took.heard stored present same
      simp only [Change.onExecution]
      split
      · exact before.heard
      · exact before
    · cases new
  · intro asks row member held
    rcases Change.mem_sessions_apply.mp member with ⟨stored, present, rfl⟩ | new
    · have waits := took.waits asks stored present
      simp only [Change.onSession] at held ⊢
      split at held
      · rename_i waiting
        rw [if_pos waiting]
        exact SessionStatus.noConfusion
      · rename_i still
        rw [if_neg still]
        exact waits held
    · cases new

/-- Taking in an event that was taken in changes nothing. -/
theorem Took.apply_take_eq (took : db.Took event) : (Change.take event at_).apply db = db := by
  have sessions : db.sessions.map (Change.take event at_).onSession = db.sessions := by
    refine (List.map_congr_left fun row member => ?_).trans (List.map_id _)
    exact if_neg fun waiting => took.waits waiting.1 row member waiting.2.1 waiting.2.2
  have executions : db.executions.map (Change.take event at_).onExecution = db.executions := by
    refine (List.map_congr_left fun row member => ?_).trans (List.map_id _)
    simp only [Change.onExecution, id]
    split
    · rename_i about
      exact (took.heard row member about).heard_eq
    · rfl
  have events : (Change.take event at_).newEvents db = [] := if_pos took.stored
  rw [Change.apply_of_adds_nothing ⟨rfl, rfl, rfl, events, rfl⟩, sessions, executions]

theorem Took.takenIn (took : db.Took event) : (db.takenIn events).Took event := by
  induction events generalizing db with
  | nil => exact took
  | cons other events ih => exact ih took.apply_take

theorem took_takenIn : ∀ event ∈ events, (db.takenIn events).Took event := by
  induction events generalizing db with
  | nil => exact fun _ absent => absurd absent List.not_mem_nil
  | cons first events ih =>
      refine List.forall_mem_cons.mpr ⟨?_, ih⟩
      exact took_apply_take.takenIn

theorem takenIn_eq_of_took (took : ∀ event ∈ events, db.Took event) : db.takenIn events = db := by
  induction events with
  | nil => rfl
  | cons first events ih =>
      obtain ⟨tookFirst, tookOthers⟩ := List.forall_mem_cons.mp took
      have step : db.takenIn (first :: events) =
          ((Change.take first "").apply db).takenIn events := rfl
      rw [step, tookFirst.apply_take_eq, ih tookOthers]

/-- A batch may be taken in again. -/
theorem takenIn_takenIn : (db.takenIn events).takenIn events = db.takenIn events :=
  takenIn_eq_of_took took_takenIn

end Database

end Switchboard
