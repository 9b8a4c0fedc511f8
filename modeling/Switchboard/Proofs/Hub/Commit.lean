import Mathlib.Data.List.Forall2
import Switchboard.Hub.Confirmation
import Switchboard.Hub.Ending
import Switchboard.Hub.Sweep
import Switchboard.Proofs.Store.Effect

/-!
The transactions of the hub as changes.

Each transaction that is committed on undisturbed tables leaves them as one change does, a batch of
events as one change for each event, and the change was allowed.
-/

namespace Switchboard

open Transaction

variable {w : World} {m m' : Meter} {db db' : Database} {limit : Nat} {execution : ExecutionId}

@[simp] theorem WorkerEvent.execution_toEvent (raw : WorkerEvent) (trace : Option TraceId)
    (now : String) : (raw.toEvent execution trace now).execution = execution := rfl

theorem ProjectRow.of_create {new : NewProject} {row : ProjectRow}
    (done : ProjectRow.create new w m db = (m', .ok (row, db'))) :
    (Change.addProject row).Allowed limit db ∧ (Change.addProject row).apply db = db' := by
  obtain ⟨_, _, _, given, body⟩ := bind_eq_ok.mp done
  obtain rfl := of_givenOrFresh_eq_ok given
  simp only [now_bind, perform_bind_eq_ok, Database.insertProject_eq_ok, pure_eq_ok] at body
  obtain ⟨_, _, _, ⟨fresh, rfl⟩, _, rfl, rfl⟩ := body
  exact ⟨fresh, Change.apply_addProject⟩

theorem Session.of_create {new : NewSession} {row : Session}
    (done : Session.create new w m db = (m', .ok (row, db'))) :
    (Change.addSession row).Allowed limit db ∧ (Change.addSession row).apply db = db' := by
  obtain ⟨_, _, _, given, body⟩ := Transaction.bind_eq_ok.mp done
  obtain rfl := of_givenOrFresh_eq_ok given
  simp only [now_bind, perform_bind_eq_ok, Database.insertSession_eq_ok, pure_eq_ok] at body
  obtain ⟨_, _, _, ⟨fresh, rfl⟩, _, rfl, rfl⟩ := body
  exact ⟨⟨fresh, rfl, rfl⟩, Change.apply_addSession⟩

/-- The tables after events taken in, each with a time. -/
def applyTaken (db : Database) (taken : List (Event × String)) : Database :=
  taken.foldl (fun db event => (Change.take event.1 event.2).apply db) db

def Batch.addAll (db : Database) (batch : Batch) : List (Event × String) → Batch
  | [] => batch
  | (event, at_) :: taken =>
    Batch.addAll ((Change.take event at_).apply db)
      (batch.add event (!db.knows (.ofEvent event))) taken

namespace Hub

/-- An execution is changed and its session is freed: together they are one change. -/
private theorem of_ending {m₁ : Meter} {db₁ : Database} {test : Execution → Bool}
    {change : Execution → Execution} {changed : Bool} {count : Nat} (undisturbed : db.Undisturbed)
    (ended : Execution.updateOne execution test change w m db = (m₁, .ok (changed, db₁)))
    (released : Session.release execution w m₁ db₁ = (m', .ok (count, db')))
    (ending : Change)
    (rows : ∀ row, ending.onExecution row =
      if row.execution = execution ∧ test row then change row else row)
    (sessions : ∀ row, ending.onSession row =
      if row.active = some execution then row.freed (w.now m₁) else row)
    (nothing : ending.newProjects = [] ∧ ending.newSessions = [] ∧ ending.newExecutions = [] ∧
      ending.newEvents db = [] ∧ ending.newAudits = []) :
    db.executions.any (fun row => row.execution == execution && test row) = changed ∧
      ending.apply db = db' := by
  obtain ⟨_, rfl, rfl, counted⟩ := (Execution.updateOne_eq_ok undisturbed).mp ended
  obtain ⟨_, rfl, _, rfl⟩ := (Session.release_eq_ok (undisturbed.withExecutions _)).mp released
  refine ⟨counted, ?_⟩
  rw [Change.apply_of_adds_nothing nothing, funext rows, funext sessions]

theorem of_compensate (undisturbed : db.Undisturbed)
    (done : compensate execution w m db = (m', .ok ((), db'))) :
    ∃ at_ freedAt, (Change.finish execution .failed at_ freedAt).apply db = db' := by
  obtain ⟨_, body, _⟩ := of_committed_eq_ok done
  rw [now_bind] at body
  obtain ⟨m₁, _, _, ended, body⟩ := bind_eq_ok.mp body
  obtain ⟨_, _, _, released, body⟩ := bind_eq_ok.mp body
  obtain ⟨rfl, _, rfl⟩ := pure_eq_ok.mp body
  exact ⟨_, _, (of_ending undisturbed ended released (.finish execution .failed _ _)
    (fun _ => rfl) (fun _ => rfl) ⟨rfl, rfl, rfl, rfl, rfl⟩).2⟩

theorem of_cancelRow {workspace : WorkspaceId} {row : Execution} (undisturbed : db.Undisturbed)
    (done : cancelRow workspace execution w m db = (m', .ok (row, db'))) :
    (db.executions.find? fun row => row.execution = execution && row.workspace = workspace) =
        some row ∧
      ∃ at_ freedAt, (Change.cancel execution at_ freedAt).apply db = db' := by
  obtain ⟨_, body, _⟩ := of_committed_eq_ok done
  obtain ⟨_, found, _, lookup, body⟩ := sought_eq_ok.mp body
  obtain ⟨_, rfl, sought, rfl⟩ := (Execution.getIn_eq_ok undisturbed).mp lookup
  rw [now_bind] at body
  obtain ⟨m₁, _, _, ended, body⟩ := bind_eq_ok.mp body
  obtain ⟨_, _, _, released, body⟩ := bind_eq_ok.mp body
  obtain ⟨rfl, rfl, rfl⟩ := pure_eq_ok.mp body
  exact ⟨sought, _, _, (of_ending undisturbed (onStore_eq_ok.mp ended) (onStore_eq_ok.mp released)
    (.cancel execution (w.now m.afterStatement.afterStatement) _)
    (fun _ => by simp [Change.onExecution]) (fun _ => rfl) ⟨rfl, rfl, rfl, rfl, rfl⟩).2⟩

theorem of_completeRow {state : ExecutionState} (undisturbed : db.Undisturbed)
    (done : completeRow execution state w m db = (m', .ok ((), db'))) :
    (∃ row, db.executions.find? (·.execution = execution) = some row) ∧
      ∃ at_ freedAt, (Change.finish execution state at_ freedAt).apply db = db' := by
  obtain ⟨_, body, _⟩ := of_committed_eq_ok done
  obtain ⟨_, found, _, lookup, body⟩ := sought_eq_ok.mp body
  obtain ⟨_, rfl, sought, rfl⟩ := (Execution.get_eq_ok undisturbed).mp lookup
  rw [now_bind] at body
  obtain ⟨m₁, _, _, ended, body⟩ := bind_eq_ok.mp body
  obtain ⟨_, _, _, released, body⟩ := bind_eq_ok.mp body
  obtain ⟨rfl, _, rfl⟩ := pure_eq_ok.mp body
  exact ⟨⟨found, sought⟩, _, _, (of_ending undisturbed (onStore_eq_ok.mp ended)
    (onStore_eq_ok.mp released) (.finish execution state _ _) (fun _ => rfl) (fun _ => rfl)
    ⟨rfl, rfl, rfl, rfl, rfl⟩).2⟩

/-- An execution that was still executing has failed and its session is free; of any other nothing
has changed. -/
theorem of_failSilent {at_ : String} {failed : Bool} (undisturbed : db.Undisturbed)
    (done : failSilent execution at_ w m db = (m', .ok (failed, db'))) :
    (failed = true ∧ ∃ freedAt, (Change.timeOut execution at_ freedAt).Allowed limit db ∧
        (Change.timeOut execution at_ freedAt).apply db = db') ∨
      (failed = false ∧ db = db' ∧
        ∀ row ∈ db.executions, row.execution = execution → row.state ≠ .executing) := by
  obtain ⟨_, body, _⟩ := of_committed_eq_ok done
  obtain ⟨m₁, changed, db₁, ended, body⟩ := bind_eq_ok.mp body
  cases changed with
  | true =>
      left
      obtain ⟨_, _, _, released, body⟩ := bind_eq_ok.mp body
      obtain ⟨rfl, rfl, rfl⟩ := pure_eq_ok.mp body
      obtain ⟨hit, applied⟩ := of_ending undisturbed ended released (.timeOut execution at_ _)
        (fun _ => by simp [Change.onExecution]) (fun _ => rfl) ⟨rfl, rfl, rfl, rfl, rfl⟩
      refine ⟨rfl, _, ?_, applied⟩
      simpa [Change.Allowed] using hit
  | false =>
      right
      obtain ⟨rfl, rfl, rfl⟩ := pure_eq_ok.mp body
      obtain ⟨_, _, rfl, missed⟩ := (Execution.updateOne_eq_ok undisturbed).mp ended
      have others : ∀ row ∈ db.executions, row.execution = execution → row.state ≠ .executing := by
        simpa using missed
      refine ⟨rfl, ?_, others⟩
      rw [List.map_congr_left fun row member => if_neg fun hit =>
        others row member hit.1 (by simpa using hit.2), List.map_id']

theorem of_markExecuting {at_ : String} {started : Bool} (undisturbed : db.Undisturbed)
    (done : Execution.markExecuting execution at_ w m db = (m', .ok (started, db'))) :
    (Change.start execution at_).apply db = db' := by
  obtain ⟨_, _, rfl, _⟩ := (Execution.updateOne_eq_ok undisturbed).mp done
  have moved : (Change.start execution at_).onExecution = fun row =>
      if row.execution = execution ∧ (row.state == .pending) = true then row.started at_ else row := by
    funext row
    simp [Change.onExecution]
  rw [Change.apply_start, moved]

theorem of_resume {trace : Option TraceId} (undisturbed : db.Undisturbed)
    (done : resume execution w m db = (m', .ok (trace, db'))) :
    (∃ row, db.executions.find? (·.execution = execution) = some row ∧ trace = row.traceIfAny) ∧
      ∃ at_, (Change.resume execution at_).apply db = db' := by
  obtain ⟨_, found, _, lookup, body⟩ := sought_eq_ok.mp done
  obtain ⟨_, rfl, sought, rfl⟩ := (Execution.get_eq_ok undisturbed).mp lookup
  obtain ⟨_, _, _, moved, body⟩ := bind_eq_ok.mp body
  obtain ⟨rfl, rfl, rfl⟩ := pure_eq_ok.mp body
  obtain ⟨_, rfl, rfl, _⟩ := (Session.transition_eq_ok undisturbed).mp (onStore_eq_ok.mp moved)
  refine ⟨⟨found, sought, rfl⟩, w.now m.afterStatement, ?_⟩
  rw [Change.apply_of_adds_nothing ⟨rfl, rfl, rfl, rfl, rfl⟩]
  have still : (Change.resume execution (w.now m.afterStatement)).onExecution = id := rfl
  rw [still, List.map_id]
  rfl

theorem of_stamped {trace : Option TraceId} {raw : WorkerEvent} {event : Event}
    (done : stamped execution trace raw w m db = (m', .ok (event, db'))) :
    (∃ now, event = raw.toEvent execution trace now) ∧ db = db' := by
  cases read : normalize raw.timestamp with
  | some timestamp =>
      simp only [stamped, read] at done
      obtain ⟨_, rfl, rfl⟩ := pure_eq_ok.mp done
      exact ⟨⟨_, rfl⟩, rfl⟩
  | none =>
      simp only [stamped, read, now_bind] at done
      obtain ⟨_, rfl, rfl⟩ := pure_eq_ok.mp done
      exact ⟨⟨_, rfl⟩, rfl⟩

theorem of_takeEvent {trace : Option TraceId} {batch batch' : Batch} {raw : WorkerEvent}
    (undisturbed : db.Undisturbed) (parent : ∃ row ∈ db.executions, row.execution = execution)
    (done : takeEvent execution trace batch raw w m db = (m', .ok (batch', db'))) :
    ∃ event at_, (∃ now, event = raw.toEvent execution trace now) ∧
      batch' = batch.add event (!db.knows (.ofEvent event)) ∧
      (Change.take event at_).apply db = db' := by
  obtain ⟨_, event, _, read, body⟩ := bind_eq_ok.mp done
  obtain ⟨⟨now, rfl⟩, rfl⟩ := of_stamped read
  obtain ⟨_, _, _, appended, body⟩ := bind_eq_ok.mp body
  obtain ⟨_, rfl, rfl, rfl⟩ := (EventRow.append_eq_ok undisturbed parent).mp appended
  obtain ⟨m₁, _, _, heard, body⟩ := bind_eq_ok.mp body
  obtain ⟨_, -, rfl, _⟩ := (Execution.updateOne_eq_ok (undisturbed.withEvents _)).mp heard
  refine ⟨_, w.now m₁, ⟨now, rfl⟩, ?_⟩
  rw [Change.apply_take]
  split at body
  · rename_i asks
    obtain ⟨_, _, _, moved, body⟩ := bind_eq_ok.mp body
    obtain ⟨_, -, rfl, _⟩ := (Session.transition_eq_ok
      ((undisturbed.withEvents _).withExecutions _)).mp moved
    obtain ⟨_, rfl, rfl⟩ := pure_eq_ok.mp body
    rw [if_pos asks]
    refine ⟨rfl, ?_⟩
    simp only [WorkerEvent.execution_toEvent, and_true]
    rfl
  · rename_i silent
    obtain ⟨_, rfl, rfl⟩ := pure_eq_ok.mp body
    rw [if_neg silent]
    refine ⟨rfl, ?_⟩
    simp only [WorkerEvent.execution_toEvent, and_true]
    rfl

/-- Taking in one event after the other is one change after the other. -/
theorem of_takeEvents {trace : Option TraceId} {events : List WorkerEvent} {batch batch' : Batch}
    (undisturbed : db.Undisturbed) (parent : ∃ row ∈ db.executions, row.execution = execution)
    (done : events.foldlM (takeEvent execution trace) batch w m db = (m', .ok (batch', db'))) :
    ∃ taken : List (Event × String),
      List.Forall₂ (fun raw event => ∃ now, event.1 = raw.toEvent execution trace now) events taken ∧
      batch' = batch.addAll db taken ∧ applyTaken db taken = db' := by
  induction events generalizing batch m db with
  | nil =>
      obtain ⟨_, rfl, rfl⟩ := pure_eq_ok.mp done
      exact ⟨[], .nil, rfl, rfl⟩
  | cons raw events ih =>
      rw [List.foldlM_cons] at done
      obtain ⟨_, _, _, first, rest⟩ := bind_eq_ok.mp done
      obtain ⟨event, at_, posted, rfl, rfl⟩ := of_takeEvent undisturbed parent first
      obtain ⟨taken, later, rfl, rfl⟩ := ih (Change.undisturbed_apply undisturbed)
        (Change.exists_execution_apply parent) rest
      exact ⟨(event, at_) :: taken, .cons posted later, rfl, rfl⟩

theorem of_takeBatch {events : List WorkerEvent} {batch : Batch} (undisturbed : db.Undisturbed)
    (done : takeBatch execution events w m db = (m', .ok (batch, db'))) :
    ∃ row taken, db.executions.find? (·.execution = execution) = some row ∧
      List.Forall₂ (fun raw event => ∃ now, event.1 = raw.toEvent execution row.traceIfAny now)
        events taken ∧
      batch = Batch.addAll db {} taken ∧ applyTaken db taken = db' := by
  obtain ⟨_, body, _⟩ := of_committed_eq_ok done
  obtain ⟨_, row, _, lookup, body⟩ := sought_eq_ok.mp body
  obtain ⟨_, rfl, found, rfl⟩ := (Execution.get_eq_ok undisturbed).mp lookup
  have present := Database.exists_of_find?_execution found
  obtain ⟨taken, posted, rfl, rfl⟩ := of_takeEvents undisturbed present (onStore_eq_ok.mp body)
  exact ⟨row, taken, found, posted, rfl, rfl⟩

/-- What every event shows, whenever it was posted, is shown by all that were taken in. -/
theorem forall_of_posted {trace : Option TraceId} {events : List WorkerEvent}
    {taken : List (Event × String)} {Shows : Event → Prop}
    (posted : List.Forall₂ (fun raw event => ∃ now, event.1 = raw.toEvent execution trace now)
      events taken)
    (shows : ∀ raw ∈ events, ∀ now, Shows (raw.toEvent execution trace now)) :
    ∀ event ∈ taken.map (·.1), Shows event := by
  induction posted with
  | nil => exact fun _ member => absurd member List.not_mem_nil
  | cons first _ ih =>
      obtain ⟨now, same⟩ := first
      obtain ⟨showsFirst, showsOthers⟩ := List.forall_mem_cons.mp shows
      rw [List.map_cons, same]
      exact List.forall_mem_cons.mpr ⟨showsFirst now, ih showsOthers⟩

theorem execution_of_posted {trace : Option TraceId} {events : List WorkerEvent}
    {taken : List (Event × String)}
    (posted : List.Forall₂ (fun raw event => ∃ now, event.1 = raw.toEvent execution trace now)
      events taken) :
    ∀ event ∈ taken, event.1.execution = execution := by
  have about : ∀ event ∈ taken.map (·.1), event.execution = execution :=
    forall_of_posted posted fun raw _ now => raw.execution_toEvent trace now
  exact List.forall_mem_map.mp about

theorem becomes_applyTaken {taken : List (Event × String)} {kind : Change → Prop}
    (present : ∃ row ∈ db.executions, row.execution = execution)
    (about : ∀ event ∈ taken, event.1.execution = execution)
    (made : ∀ event ∈ taken, kind (.take event.1 event.2)) :
    db.Becomes limit kind (applyTaken db taken) := by
  induction taken generalizing db with
  | nil => exact .refl _
  | cons event taken ih =>
      refine .step (.take event.1 event.2) (made event List.mem_cons_self) ?_
        (ih (Change.exists_execution_apply present)
          (fun later member => about later (List.mem_cons_of_mem _ member))
          (fun later member => made later (List.mem_cons_of_mem _ member)))
      simpa [Change.Allowed, about event] using present

theorem of_checkFree {session : Session} {u : Unit}
    (done : checkFree session w m db = (m', .ok (u, db'))) :
    session.holder = none ∧ m = m' ∧ db = db' := by
  cases held : session.holder with
  | some active => simp [checkFree, held] at done
  | none =>
      simp only [checkFree, held, pure_eq_ok] at done
      exact ⟨rfl, done.1, done.2.2⟩

theorem of_checkQuota {workspace : WorkspaceId} {u : Unit} (undisturbed : db.Undisturbed)
    (done : checkQuota limit workspace w m db = (m', .ok (u, db'))) :
    (limit = 0 ∨ db.activeCount workspace < limit) ∧ m.minted = m'.minted ∧ db = db' := by
  unfold checkQuota at done
  split at done
  · rename_i unlimited
    obtain ⟨rfl, _, rfl⟩ := pure_eq_ok.mp done
    exact ⟨.inl unlimited, rfl, rfl⟩
  · obtain ⟨_, current, _, counted, body⟩ := bind_eq_ok.mp done
    obtain ⟨_, rfl, rfl, rfl⟩ :=
      (Execution.countActive_eq_ok undisturbed).mp (onStore_eq_ok.mp counted)
    split at body
    · exact absurd body fail_ne_ok
    · rename_i room
      obtain ⟨rfl, _, rfl⟩ := pure_eq_ok.mp body
      exact ⟨.inr (by omega), rfl, rfl⟩

theorem of_enter {request : ExecuteRequest} {session : Session} {a : Assignment}
    (undisturbed : db.Undisturbed)
    (done : enter request session w m db = (m', .ok (a, db'))) :
    ∃ root createdAt heldAt,
      root = db.rootOf session.project ∧
      (∀ stored ∈ db.executions, stored.execution ≠ w.fresh m .execution) ∧
      a = request.assignment session root (w.fresh m .execution) (w.fresh m.afterMint .trace) ∧
      m.minted + 2 = m'.minted ∧
      (Change.enter request session root (w.fresh m .execution) (w.fresh m.afterMint .trace)
        createdAt heldAt).apply db = db' := by
  unfold enter at done
  rw [mint_bind, mint_bind] at done
  obtain ⟨m₁, root, _, found, body⟩ := bind_eq_ok.mp done
  obtain ⟨_, rfl, rfl, rfl⟩ := ProjectRow.rootOf_eq_ok.mp found
  obtain ⟨m₂, _, _, inserted, body⟩ := bind_eq_ok.mp body
  obtain ⟨_, rfl, rfl, fresh, _, rfl⟩ := (Execution.insert_eq_ok undisturbed).mp inserted
  obtain ⟨_, _, _, bound, body⟩ := bind_eq_ok.mp body
  obtain ⟨_, rfl, rfl, _⟩ := (Session.bind_eq_ok (undisturbed.withExecutions _)).mp bound
  obtain ⟨rfl, rfl, rfl⟩ := pure_eq_ok.mp body
  refine ⟨_, w.now m.afterMint.afterMint.afterStatement,
    w.now m.afterMint.afterMint.afterStatement.afterReading.afterStatement, rfl, fresh, rfl, rfl, ?_⟩
  rw [Change.apply_enter]
  rfl

theorem of_admission {request : ExecuteRequest} {a : Assignment} (undisturbed : db.Undisturbed)
    (done : admission limit request w m db = (m', .ok (a, db'))) :
    ∃ session root createdAt heldAt,
      a = request.assignment session root (w.fresh m .execution) (w.fresh m.afterMint .trace) ∧
      m.minted + 2 = m'.minted ∧
      (Change.enter request session root (w.fresh m .execution) (w.fresh m.afterMint .trace)
        createdAt heldAt).Allowed limit db ∧
      (Change.enter request session root (w.fresh m .execution) (w.fresh m.afterMint .trace)
        createdAt heldAt).apply db = db' := by
  obtain ⟨_, body, rfl⟩ := of_committed_eq_ok done
  obtain ⟨m₁, session, _, lookup, body⟩ := sought_eq_ok.mp body
  obtain ⟨_, rfl, found, rfl⟩ := Session.getIn_eq_ok.mp lookup
  obtain ⟨_, _, _, checked, body⟩ := bind_eq_ok.mp body
  obtain ⟨free, rfl, rfl⟩ := of_checkFree checked
  obtain ⟨m₂, _, _, checked, body⟩ := bind_eq_ok.mp body
  obtain ⟨room, minted, rfl⟩ := of_checkQuota undisturbed checked
  obtain ⟨root, createdAt, heldAt, located, fresh, told, used, applied⟩ :=
    of_enter undisturbed (onStore_eq_ok.mp body)
  have execution : w.fresh m₂ .execution = w.fresh m .execution := by
    simp only [World.fresh, ← minted]
    rfl
  have trace : w.fresh m₂.afterMint .trace = w.fresh m.afterMint .trace := by
    simp only [World.fresh, Meter.minted_afterMint, ← minted]
    rfl
  rw [execution] at fresh told applied
  rw [trace] at told applied
  rw [← minted] at used
  exact ⟨session, root, createdAt, heldAt, told, used,
    ⟨found, free, room, located, fresh, IdKind.identifier_ne_empty _ _⟩, applied⟩

end Hub

end Switchboard
