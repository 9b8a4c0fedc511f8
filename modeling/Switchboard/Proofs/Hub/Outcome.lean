import Switchboard.Proofs.Hub.Batching
import Switchboard.Proofs.Hub.Finality

/-!
The outcome that a worker reports.

A `done` event may carry any payload.  Whatever its status is, it announces one state in which the
execution ends, so that a worker which is done never leaves its session taken.
-/

namespace Switchboard

variable {db : Database} {execution : ExecutionId} {raws : List WorkerEvent}

namespace WorkerEvent

variable {raw : WorkerEvent} {state : ExecutionState}

def isDone (raw : WorkerEvent) : Bool := raw.type == EventType.done

def status (raw : WorkerEvent) : Option Json := raw.payload.bind (·.get? "status")

/-- The text of the status; empty when it has none. -/
def reported (raw : WorkerEvent) : String := (raw.status.bind Json.asString?).getD ""

/-- The state that an event announces for the end of its execution. -/
inductive Announces (raw : WorkerEvent) : ExecutionState → Prop where
  | absent (none : raw.status = none) : Announces raw .completed
  | empty (given : raw.status = some (.string "")) : Announces raw .completed
  | textless {value : Json} (given : raw.status = some value) (other : value.asString? = none) :
      Announces raw .completed
  | named {state : ExecutionState} (terminal : state.isTerminal)
      (given : raw.status = some (.string state.name)) : Announces raw state
  | foreign {text : String} (given : raw.status = some (.string text)) (nonempty : text ≠ "")
      (unnamed : ∀ state : ExecutionState, state.isTerminal → state.name ≠ text) :
      Announces raw .failed

theorem isDone_toEvent (trace : Option TraceId) (now : String) :
    (raw.toEvent execution trace now).isDone = raw.isDone := rfl

theorem reportedOutcome_toEvent (trace : Option TraceId) (now : String) :
    (raw.toEvent execution trace now).reportedOutcome = raw.reported := by
  have same : raw.body.get? "status" = raw.status := by
    unfold body status
    split <;> rename_i given <;> rw [given] <;> rfl
  exact congrArg (fun status => (status.bind Json.asString?).getD "") same

end WorkerEvent

theorem ExecutionState.name_of_ofName {text : String} {state : ExecutionState}
    (accepted : ofName text = .ok state) : state.name = text := by
  unfold ofName at accepted
  split at accepted
  · rename_i found
    cases accepted
    simpa using List.find?_some found
  · contradiction

namespace Hub

theorem concluding_name {state : ExecutionState} (terminal : state.isTerminal) :
    concluding state.name = state := by
  rw [concluding, terminalState_name terminal]

theorem concluding_of_foreign {text : String} (nonempty : text ≠ "")
    (unnamed : ∀ state : ExecutionState, state.isTerminal → state.name ≠ text) :
    concluding text = .failed := by
  unfold concluding terminalState
  rw [if_neg nonempty]
  cases accepted : ExecutionState.ofName text with
  | error _ => rfl
  | ok state =>
      have active : ¬ state.isTerminal := fun terminal =>
        unnamed state terminal (ExecutionState.name_of_ofName accepted)
      simp only [if_neg active]

end Hub

theorem Json.eq_string_of_asString? {value : Json} {text : String}
    (shown : value.asString? = some text) : value = .string text := by
  cases value with
  | string => exact congrArg Json.string (Option.some.inj shown)
  | _ => contradiction

namespace WorkerEvent

variable {raw : WorkerEvent} {state : ExecutionState}

theorem Announces.concluding_eq (announces : raw.Announces state) :
    Hub.concluding raw.reported = state := by
  cases announces with
  | absent none =>
      rw [reported, none]
      rfl
  | empty given =>
      rw [reported, given]
      rfl
  | textless given other =>
      rw [reported, given, Option.bind_some, other]
      rfl
  | named terminal given =>
      rw [reported, given]
      exact Hub.concluding_name terminal
  | foreign given nonempty unnamed =>
      rw [reported, given]
      exact Hub.concluding_of_foreign nonempty unnamed

/-- Whatever its payload is, an event announces the state that its report leads to. -/
theorem announces_concluding (raw : WorkerEvent) :
    raw.Announces (Hub.concluding raw.reported) := by
  cases given : raw.status with
  | none =>
      rw [reported, given]
      exact .absent given
  | some value =>
      cases shown : value.asString? with
      | none =>
          rw [reported, given, Option.bind_some, shown]
          exact .textless given shown
      | some text =>
          obtain rfl := Json.eq_string_of_asString? shown
          rw [reported, given]
          change raw.Announces (Hub.concluding text)
          by_cases empty : text = ""
          · subst empty
            exact .empty given
          by_cases named : ∃ state : ExecutionState, state.isTerminal ∧ state.name = text
          · obtain ⟨state, terminal, rfl⟩ := named
            rw [Hub.concluding_name terminal]
            exact .named terminal given
          · have unnamed (state : ExecutionState) (terminal : state.isTerminal) :
                state.name ≠ text := fun same => named ⟨state, terminal, same⟩
            rw [Hub.concluding_of_foreign empty unnamed]
            exact .foreign given empty unnamed

theorem announces_iff : raw.Announces state ↔ Hub.concluding raw.reported = state :=
  ⟨Announces.concluding_eq, fun same => same ▸ raw.announces_concluding⟩

end WorkerEvent

/-- Of a batch the last `done` event is heeded. -/
theorem outcome_of_posted {trace : Option TraceId} {before : Option String}
    {taken : List (Event × String)}
    (posted : List.Forall₂ (fun raw event => ∃ now, event.1 = raw.toEvent execution trace now)
      raws taken) :
    Event.outcome before (taken.map (·.1)) =
      ((raws.filter (·.isDone)).getLast?.map (·.reported)).or before := by
  induction posted generalizing before with
  | nil => rfl
  | cons first _ ih =>
      obtain ⟨now, same⟩ := first
      rw [List.map_cons, Event.outcome, ih, same, WorkerEvent.isDone_toEvent,
        WorkerEvent.reportedOutcome_toEvent, List.filter_cons]
      split
      · rw [List.getLast?_cons]
        cases (List.filter _ _).getLast? <;> rfl
      · rfl

namespace Database

def Going (execution : ExecutionId) (db : Database) : Prop :=
  ∃ state, db.stateOf execution = some state ∧ state.isActive

theorem Going.apply {change : Change} (going : db.Going execution)
    (spared : change.ends ≠ some execution) : (change.apply db).Going execution := by
  obtain ⟨_, known, active⟩ := going
  obtain ⟨row, found, rfl⟩ := stateOf_eq_some_iff.mp known
  have about : row.execution = execution := execution_of_find? found
  exact ⟨_, Change.stateOf_apply found, Change.isActive_onExecution (about ▸ spared) active⟩

theorem Going.applyTaken (going : db.Going execution) {taken : List (Event × String)} :
    (applyTaken db taken).Going execution :=
  keeps_applyTaken _ going fun _ _ _ going => going.apply (Option.some_ne_none _ ∘ Eq.symm)

theorem ended_finish (present : ∃ row ∈ db.executions, row.execution = execution)
    {state : ExecutionState} (terminal : state.isTerminal) (at_ freedAt : String) :
    ((Change.finish execution state at_ freedAt).apply db).Ended execution := by
  obtain ⟨row, found⟩ := find?_of_exists (Change.exists_execution_apply present)
  have about : row.execution = execution := execution_of_find? found
  refine ⟨row.state, stateOf_eq_some_iff.mpr ⟨row, found, rfl⟩, ?_⟩
  exact Change.isTerminal_apply_finish terminal row (List.mem_of_find?_eq_some found) about

theorem Going.stateOf_finish (going : db.Going execution) (state : ExecutionState)
    (at_ freedAt : String) :
    ((Change.finish execution state at_ freedAt).apply db).stateOf execution = some state := by
  obtain ⟨_, known, active⟩ := going
  obtain ⟨row, found, rfl⟩ := stateOf_eq_some_iff.mp known
  have about : row.execution = execution := execution_of_find? found
  rw [Change.stateOf_apply found, Change.onExecution, if_pos ⟨about, active⟩]
  rfl

end Database

namespace Hub

variable {w : World} {h : Hub} {report : IngestReport} {last : WorkerEvent}

/-- After its events were taken in, a batch ends the execution as its last `done` event reports, if it
has one. -/
theorem db_of_ingest_eq_ok (undisturbed : h.db.Undisturbed)
    (done : (h.ingest w execution raws).1 = .ok report) :
    ∃ taken,
      ((raws.filter (·.isDone)).getLast? = none ∧
        (h.ingest w execution raws).2.db = applyTaken h.db taken) ∨
      ∃ last at_ freedAt, (raws.filter (·.isDone)).getLast? = some last ∧
        (h.ingest w execution raws).2.db =
          (Change.finish execution (concluding last.reported) at_ freedAt).apply
            (applyTaken h.db taken) := by
  obtain ⟨batch, after, committed, -⟩ := of_ingest_eq_ok done
  obtain ⟨row, taken, -, posted, rfl, stored, -⟩ := of_batch_eq_ok undisturbed committed
  have outcome : (Batch.addAll h.db {} taken).outcome =
      (raws.filter (·.isDone)).getLast?.map (·.reported) := by
    rw [outcome_addAll, outcome_of_posted posted, Option.or_none]
  have still := (ready_of_batch_eq_ok undisturbed committed).1
  refine ⟨taken, ?_⟩
  rcases db_ingest_of_ok committed still done with ⟨none, tables⟩ | ⟨_, at_, freedAt, named, tables⟩
  · rw [outcome, Option.map_eq_none_iff] at none
    exact .inl ⟨none, stored ▸ tables⟩
  · rw [outcome] at named
    obtain ⟨last, isLast, rfl⟩ := Option.map_eq_some_iff.mp named
    exact .inr ⟨last, at_, freedAt, isLast, stored ▸ tables⟩

theorem ended_of_ingest_eq_ok (undisturbed : h.db.Undisturbed)
    (done : (h.ingest w execution raws).1 = .ok report)
    (ends : ∃ raw ∈ raws, raw.type = EventType.done) :
    (h.ingest w execution raws).2.db.Ended execution ∧
      ∀ session ∈ (h.ingest w execution raws).2.db.sessions, session.active ≠ some execution := by
  obtain ⟨taken, ⟨none, -⟩ | ⟨last, at_, freedAt, -, tables⟩⟩ := db_of_ingest_eq_ok undisturbed done
  · obtain ⟨raw, member, isDone⟩ := ends
    simp [WorkerEvent.isDone] at none
    exact absurd isDone (none raw member)
  · have still : ∃ row ∈ (applyTaken h.db taken).executions, row.execution = execution :=
      keeps_applyTaken (fun db => ∃ row ∈ db.executions, row.execution = execution)
        (present_of_ingest_eq_ok undisturbed done) fun _ _ _ => Change.exists_execution_apply
    rw [tables]
    exact ⟨Database.ended_finish still (isTerminal_concluding _) at_ freedAt,
      Change.active_apply_finish⟩

theorem stateOf_of_ingest_eq_ok (undisturbed : h.db.Undisturbed) (going : h.db.Going execution)
    (done : (h.ingest w execution raws).1 = .ok report)
    (ends : (raws.filter (·.isDone)).getLast? = some last) :
    (h.ingest w execution raws).2.db.stateOf execution = some (concluding last.reported) := by
  obtain ⟨taken, ⟨none, -⟩ | ⟨_, at_, freedAt, isLast, tables⟩⟩ :=
    db_of_ingest_eq_ok undisturbed done
  · rw [ends] at none
    contradiction
  · rw [ends] at isLast
    cases isLast
    rw [tables, going.applyTaken.stateOf_finish]

theorem going_of_ingest_eq_ok (undisturbed : h.db.Undisturbed) (going : h.db.Going execution)
    (done : (h.ingest w execution raws).1 = .ok report)
    (goes : (raws.filter (·.isDone)).getLast? = none) :
    (h.ingest w execution raws).2.db.Going execution := by
  obtain ⟨taken, ⟨-, tables⟩ | ⟨_, _, _, isLast, -⟩⟩ := db_of_ingest_eq_ok undisturbed done
  · rw [tables]
    exact going.applyTaken
  · rw [goes] at isLast
    contradiction

/-- A `done` event ends the run.  Whatever has happened to a hub before, a batch that contains such an
event, whatever its payload is, is taken in where no statement is refused.  Then the execution has ended
and holds no session.  If it was active and the event is the only one, it has ended in the state that
the event announces. -/
theorem done_ends_the_run (w : World) (limit ring queue : Nat) (steps : List Step)
    (execution : ExecutionId) (raws : List WorkerEvent)
    (ends : ∃ raw ∈ raws, raw.type = EventType.done) :
    let h := (create limit ring queue).proceed w steps
    let after := h.ingest w execution raws
    ((∃ row ∈ h.db.executions, row.execution = execution) → w.CalmFrom h.meter →
      ∃ report, after.1 = .ok report) ∧
    ∀ report, after.1 = .ok report →
      after.2.db.Ended execution ∧
      (∀ session ∈ after.2.db.sessions, session.active ≠ some execution) ∧
      (h.db.Going execution → ∀ raw, raws.filter (·.isDone) = [raw] →
        ∀ state, raw.Announces state ↔ after.2.db.stateOf execution = some state) := by
  intro h after
  have undisturbed : h.db.Undisturbed :=
    (leads_proceed undisturbed_create).undisturbed undisturbed_create
  refine ⟨fun present calm => ingest_exists calm undisturbed present, ?_⟩
  intro report done
  obtain ⟨ended, unheld⟩ := ended_of_ingest_eq_ok undisturbed done ends
  refine ⟨ended, unheld, ?_⟩
  intro going raw only state
  have last : (raws.filter (·.isDone)).getLast? = some raw := by
    rw [only]
    rfl
  rw [WorkerEvent.announces_iff, stateOf_of_ingest_eq_ok undisturbed going done last, Option.some_inj]

/-- An execution that its worker has taken on. -/
def underWay : List Step :=
  [.perform (.createSession ⟨some "session", "ws", "p", none, none, false, none, none, none, "user"⟩),
    .perform (.execute ⟨"ws", "session", "hello", "user"⟩),
    .perform (.answerDispatch "exec_" (.ok ()))]

private def exploded : WorkerEvent :=
  ⟨2, "", "done", some (.ofEntries [("status", .string "exploded")])⟩

/-- The worker is done in a way that has no name. -/
theorem unnamed_outcome_is_a_failure :
    let h := (create 1 8 8).proceed .plain underWay
    let after := h.ingest .plain "exec_" [⟨1, "", "text_delta", none⟩, exploded]
    (∃ report, after.1 = .ok report) ∧ h.db.stateOf "exec_" = some .executing ∧
      after.2.db.stateOf "exec_" = some .failed ∧
      ∀ session ∈ after.2.db.sessions, session.active ≠ some "exec_" := by
  have facts := done_ends_the_run .plain 1 8 8 underWay "exec_"
    [⟨1, "", "text_delta", none⟩, exploded] ⟨exploded, by simp, rfl⟩
  have executing : ((create 1 8 8).proceed .plain underWay).db.stateOf "exec_" = some .executing := by
    decide +kernel
  -- the run has been evaluated where that was needed; from here on it is any hub
  generalize (create 1 8 8).proceed .plain underWay = h at *
  intro _ after
  obtain ⟨succeeds, outcome⟩ := facts
  obtain ⟨row, found, -⟩ := Database.stateOf_eq_some_iff.mp executing
  obtain ⟨report, done⟩ := succeeds (Database.exists_of_find?_execution found) World.calmFrom_plain
  obtain ⟨-, unheld, announced⟩ := outcome report done
  have fails : exploded.Announces .failed :=
    .foreign rfl (by decide) fun state _ => by cases state <;> decide
  have only : [⟨1, "", "text_delta", none⟩, exploded].filter (·.isDone) = [exploded] := rfl
  refine ⟨⟨report, done⟩, executing, ?_, unheld⟩
  exact (announced ⟨_, executing, rfl⟩ exploded only .failed).mp fails

end Hub

end Switchboard
