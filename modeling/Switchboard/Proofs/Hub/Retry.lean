import Switchboard.Proofs.Hub.Arrival
import Switchboard.Proofs.Hub.Repeat

/-!
A batch sent again.

A batch is taken in by one transaction and its `done` event is heeded by another, with the publication
in between.  So a fault leaves the hub in one of two states: nothing was taken in, or everything was,
but the execution goes on.  From both of them sending the same batch once more leads where sending
it once would have led.
-/

namespace Switchboard

variable {db : Database} {execution : ExecutionId} {raws : List WorkerEvent}

/-- The outcome named by the latest `done` event, or else the one named before. -/
def Event.outcome (before : Option String) : List Event → Option String
  | [] => before
  | event :: events => outcome (if event.isDone then some event.reportedOutcome else before) events

theorem Event.outcome_of_going {before : Option String} {events : List Event}
    (going : ∀ event ∈ events, event.isDone = false) : outcome before events = before := by
  induction events generalizing before with
  | nil => rfl
  | cons event events ih =>
      obtain ⟨first, others⟩ := List.forall_mem_cons.mp going
      rw [outcome, first, ih others]
      rfl

theorem outcome_addAll {batch : Batch} {taken : List (Event × String)} :
    (Batch.addAll db batch taken).outcome = Event.outcome batch.outcome (taken.map (·.1)) := by
  induction taken generalizing db batch with
  | nil => rfl
  | cons entry taken ih =>
      rw [Batch.addAll, ih]
      rfl

/-- What has a readable timestamp is the same event whenever it is posted. -/
theorem events_of_posted {trace : Option TraceId} {taken : List (Event × String)}
    (posted : List.Forall₂ (fun raw event => ∃ now, event.1 = raw.toEvent execution trace now)
      raws taken) (readable : ∀ raw ∈ raws, (normalize raw.timestamp).isSome) :
    taken.map (·.1) = raws.map (·.toEvent execution trace "") := by
  induction posted with
  | nil => rfl
  | cons first _ ih =>
      obtain ⟨now, same⟩ := first
      obtain ⟨readableFirst, readableOthers⟩ := List.forall_mem_cons.mp readable
      obtain ⟨at_, normal⟩ := Option.isSome_iff_exists.mp readableFirst
      rw [List.map_cons, List.map_cons, ih readableOthers, same]
      simp only [WorkerEvent.toEvent, normal, Option.getD_some]

namespace Database

/-- The trace under which the events of an execution are published. -/
def traceOf (execution : ExecutionId) (db : Database) : Option TraceId :=
  (db.executions.find? (·.execution = execution)).bind (·.traceIfAny)

theorem traceOf_apply {change : Change} (present : ∃ row ∈ db.executions, row.execution = execution) :
    (change.apply db).traceOf execution = db.traceOf execution := by
  have same (row : Execution) : (change.onExecution row).traceIfAny = row.traceIfAny := by
    obtain ⟨_, _, _, _, onRow⟩ := change.onExecution_eq row
    rw [onRow]
    rfl
  obtain ⟨row, found⟩ := find?_of_exists present
  simp only [traceOf, Change.apply, List.find?_append, List.find?_map, Function.comp_def,
    Change.execution_onExecution, found, Option.map_some, Option.some_or, Option.bind_some, same]

/-- Whether an execution is there and its events are published under a trace. -/
structure Traced (execution : ExecutionId) (trace : Option TraceId) (db : Database) : Prop where
  present : ∃ row ∈ db.executions, row.execution = execution
  trace : db.traceOf execution = trace

theorem Traced.apply {change : Change} {trace : Option TraceId} (traced : db.Traced execution trace) :
    (change.apply db).Traced execution trace :=
  ⟨Change.exists_execution_apply traced.present, (traceOf_apply traced.present).trans traced.trace⟩

/-- The events of a batch whose timestamps are all readable. -/
def eventsOf (execution : ExecutionId) (raws : List WorkerEvent) (db : Database) : List Event :=
  raws.map (·.toEvent execution (db.traceOf execution) "")

/-- The tables after the execution ended as reported, if anything was reported. -/
def concluded (execution : ExecutionId) : Option String → Database → Database
  | none, db => db
  | some reported, db => (Change.finish execution (Hub.concluding reported) "" "").apply db

end Database

namespace Hub

variable {w : World} {h after : Hub} {batch : Batch} {report : IngestReport} {e : HubError}

/-- What becomes of a batch that is committed and whose timestamps are all readable.  Nothing of it
depends on the world. -/
structure TakesIn (execution : ExecutionId) (raws : List WorkerEvent) (h : Hub) (batch : Batch)
    (after : Hub) : Prop where
  outcome : batch.outcome = Event.outcome none (h.db.eventsOf execution raws)
  fresh : batch.fresh = Event.unseen (h.db.wires execution) (h.db.eventsOf execution raws)
  counted : batch.fresh.length + batch.duplicates = raws.length
  tables : after.db.unstamped = h.db.unstamped.takenIn (h.db.eventsOf execution raws)
  trace : after.db.traceOf execution = h.db.traceOf execution
  presentBefore : ∃ row ∈ h.db.executions, row.execution = execution
  presentAfter : ∃ row ∈ after.db.executions, row.execution = execution
  undisturbed : after.db.Undisturbed

theorem takesIn_of_eq_ok (undisturbed : h.db.Undisturbed)
    (readable : ∀ raw ∈ raws, (normalize raw.timestamp).isSome)
    (committed : h.transact w (takeBatch execution raws) = (.ok batch, after)) :
    h.TakesIn execution raws batch after := by
  obtain ⟨row, taken, found, posted, rfl, stored, fresh, counted⟩ :=
    of_batch_eq_ok undisturbed committed
  have present := Database.exists_of_find?_execution found
  have events : taken.map (·.1) = h.db.eventsOf execution raws := by
    rw [Database.eventsOf, Database.traceOf, found, Option.bind_some,
      events_of_posted posted readable]
  have trace : after.db.traceOf execution = h.db.traceOf execution := by
    rw [stored]
    exact (keeps_applyTaken (Database.Traced execution _) ⟨present, rfl⟩
      fun _ _ _ traced => traced.apply).trace
  obtain ⟨undisturbed', present'⟩ := ready_of_batch_eq_ok undisturbed committed
  refine ⟨?_, ?_, counted, ?_, trace, present, present', undisturbed'⟩
  · rw [outcome_addAll, events]
  · rw [fresh, events]
  · rw [stored, unstamped_applyTaken, events]

theorem tables_of_ingest_eq_ok (undisturbed : h.db.Undisturbed)
    (readable : ∀ raw ∈ raws, (normalize raw.timestamp).isSome)
    (done : (h.ingest w execution raws).1 = .ok report) :
    (h.ingest w execution raws).2.db.unstamped =
      (h.db.unstamped.takenIn (h.db.eventsOf execution raws)).concluded execution
        (Event.outcome none (h.db.eventsOf execution raws)) := by
  obtain ⟨batch, after, committed, -⟩ := of_ingest_eq_ok done
  have takesIn := takesIn_of_eq_ok undisturbed readable committed
  rw [← takesIn.outcome, ← takesIn.tables]
  rcases db_ingest_of_ok committed takesIn.undisturbed done with
    ⟨none, tables⟩ | ⟨reported, at_, freedAt, named, tables⟩
  · rw [none, tables]
    rfl
  · rw [named, tables, Change.unstamped_apply]
    rfl

theorem posts_of_ingest_eq_ok (undisturbed : h.db.Undisturbed)
    (readable : ∀ raw ∈ raws, (normalize raw.timestamp).isSome)
    (done : (h.ingest w execution raws).1 = .ok report) :
    h.posts w execution raws =
      Event.unseen (h.db.wires execution) (h.db.eventsOf execution raws) := by
  obtain ⟨batch, after, committed, -⟩ := of_ingest_eq_ok done
  rw [posts_of_ok committed]
  exact (takesIn_of_eq_ok undisturbed readable committed).fresh

/-- What a failed call leaves for the next one: what it published is not published again, and what
it took in does not count twice. -/
structure Resumes (execution : ExecutionId) (raws : List WorkerEvent) (h : Hub)
    (published : List Event) (left : Hub) : Prop where
  undisturbed : left.db.Undisturbed
  present : ∃ row ∈ left.db.executions, row.execution = execution
  events : left.db.eventsOf execution raws = h.db.eventsOf execution raws
  tables : left.db.unstamped.takenIn (h.db.eventsOf execution raws) =
    h.db.unstamped.takenIn (h.db.eventsOf execution raws)
  posts : published ++ Event.unseen (left.db.wires execution) (h.db.eventsOf execution raws) =
    Event.unseen (h.db.wires execution) (h.db.eventsOf execution raws)

/-- All events of a batch that was committed are known. -/
theorem TakesIn.unseen_eq_nil (takesIn : h.TakesIn execution raws batch after) :
    Event.unseen (after.db.wires execution) (h.db.eventsOf execution raws) = [] := by
  refine Event.unseen_eq_nil fun event member => ?_
  have took : after.db.unstamped.Took event :=
    takesIn.tables ▸ Database.took_takenIn event member
  obtain ⟨raw, -, rfl⟩ := List.mem_map.mp member
  exact Database.knows_iff.mp took.stored

theorem TakesIn.resumes (takesIn : h.TakesIn execution raws batch after) :
    h.Resumes execution raws batch.fresh after := by
  refine ⟨takesIn.undisturbed, takesIn.presentAfter, ?_, ?_, ?_⟩
  · rw [Database.eventsOf, takesIn.trace]
    rfl
  · rw [takesIn.tables, Database.takenIn_takenIn]
  · rw [takesIn.unseen_eq_nil, List.append_nil, takesIn.fresh]

theorem resumes_of_ingest_eq_error (undisturbed : h.db.Undisturbed)
    (present : ∃ row ∈ h.db.executions, row.execution = execution)
    (readable : ∀ raw ∈ raws, (normalize raw.timestamp).isSome)
    (failed : (h.ingest w execution raws).1 = .error e) :
    h.Resumes execution raws (h.posts w execution raws) (h.ingest w execution raws).2 := by
  rcases of_ingest_eq_error failed with
    ⟨e', after, refused, same⟩ | ⟨batch, after, reported, committed, -, same⟩
  · rw [posts_of_error refused]
    refine ⟨?_, ?_, ?_, ?_, ?_⟩ <;> rw [same]
    · exact undisturbed
    · exact present
    · exact List.nil_append _
  · obtain ⟨undisturbed', present', events, tables, posts⟩ :=
      (takesIn_of_eq_ok undisturbed readable committed).resumes
    rw [posts_of_ok committed]
    exact ⟨same ▸ undisturbed', same ▸ present', same ▸ events, same ▸ tables, same ▸ posts⟩

/-- A batch that was committed is sent again for the sake of its `done` event alone. -/
theorem TakesIn.redone {left : Hub} {reported : String}
    (takesIn : h.TakesIn execution raws batch after) (named : batch.outcome = some reported)
    (same : left.db = after.db) (readable : ∀ raw ∈ raws, (normalize raw.timestamp).isSome)
    (done : (left.ingest w execution raws).1 = .ok report) :
    report = ⟨0, raws.length⟩ ∧
      (∀ row ∈ (left.ingest w execution raws).2.db.executions,
        row.execution = execution → row.state.isTerminal) ∧
      ∀ session ∈ (left.ingest w execution raws).2.db.sessions, session.active ≠ some execution := by
  have resumes := takesIn.resumes
  obtain ⟨batch', after', committed, rfl⟩ := of_ingest_eq_ok done
  have again := takesIn_of_eq_ok (same ▸ takesIn.undisturbed) readable committed
  have events : left.db.eventsOf execution raws = h.db.eventsOf execution raws :=
    same ▸ resumes.events
  have nothing : batch'.fresh = [] := by
    rw [again.fresh, events, same]
    exact takesIn.unseen_eq_nil
  have named' : batch'.outcome = some reported := by
    rw [again.outcome, events, ← takesIn.outcome, named]
  have counted : batch'.duplicates = raws.length := by
    simpa [nothing] using again.counted
  refine ⟨by rw [nothing, counted]; rfl, ?_⟩
  rcases db_ingest_of_ok committed again.undisturbed done with
    ⟨none, -⟩ | ⟨reported', at_, freedAt, -, tables⟩
  · rw [named'] at none
    contradiction
  · rw [tables]
    exact ⟨Change.isTerminal_apply_finish (isTerminal_concluding reported'),
      Change.active_apply_finish⟩

/-- A batch sent again.  After every run: if a call that takes in a batch with readable timestamps
fails, for whatever statement, the same call succeeds once no statement is refused any more, and leaves
the tables as a single successful call would have left them, but for the clock, and the bus exactly
so.  Both calls together publish what the single one publishes, and no number twice.  If the batch was
committed by the first call, all its events are duplicates in the second, which ends the execution
and frees its session nevertheless. -/
theorem retry_converges (w later other : World) (limit ring queue : Nat) (operations : List Operation)
    (execution : ExecutionId) (raws : List WorkerEvent)
    (readable : ∀ raw ∈ raws, (normalize raw.timestamp).isSome) :
    let h := (create limit ring queue).run w operations
    let first := h.ingest w execution raws
    let retry := first.2.ingest later execution raws
    let once := h.ingest other execution raws
    ((∃ row ∈ h.db.executions, row.execution = execution) → other.CalmFrom h.meter →
      ∃ report, once.1 = .ok report) ∧
    ∀ e report, first.1 = .error e → later.CalmFrom first.2.meter → once.1 = .ok report →
      ∃ again, retry.1 = .ok again ∧
        retry.2.db.unstamped = once.2.db.unstamped ∧
        retry.2.bus = once.2.bus ∧
        h.posts w execution raws ++ first.2.posts later execution raws =
          h.posts other execution raws ∧
        (h.db.wires execution ++ (h.posts other execution raws).map (·.sequence.toWire)).Nodup ∧
        ∀ batch after, h.transact w (takeBatch execution raws) = (.ok batch, after) →
          again = ⟨0, raws.length⟩ ∧
          (∀ row ∈ retry.2.db.executions, row.execution = execution → row.state.isTerminal) ∧
          ∀ session ∈ retry.2.db.sessions, session.active ≠ some execution := by
  intro h first retry once
  have undisturbed : h.db.Undisturbed := undisturbed_run
  have distinct : h.db.DistinctEvents := distinctEvents_run
  refine ⟨fun present calm => ingest_exists calm undisturbed present, ?_⟩
  intro e report failed calm done
  obtain ⟨_, _, committed, -⟩ := of_ingest_eq_ok done
  have present := (takesIn_of_eq_ok undisturbed readable committed).presentBefore
  have resumes := resumes_of_ingest_eq_error undisturbed present readable failed
  obtain ⟨again, succeeded⟩ : ∃ again, retry.1 = .ok again :=
    ingest_exists calm resumes.undisturbed resumes.present
  have fresh : h.posts other execution raws =
      Event.unseen (h.db.wires execution) (h.db.eventsOf execution raws) :=
    posts_of_ingest_eq_ok undisturbed readable done
  have posts : h.posts w execution raws ++ first.2.posts later execution raws =
      h.posts other execution raws := by
    rw [posts_of_ingest_eq_ok resumes.undisturbed readable succeeded, resumes.events, fresh]
    exact resumes.posts
  refine ⟨again, succeeded, ?_, ?_, posts, ?_, ?_⟩
  · calc retry.2.db.unstamped
      _ = (first.2.db.unstamped.takenIn (h.db.eventsOf execution raws)).concluded execution
            (Event.outcome none (h.db.eventsOf execution raws)) := by
          rw [← resumes.events]
          exact tables_of_ingest_eq_ok resumes.undisturbed readable succeeded
      _ = (h.db.unstamped.takenIn (h.db.eventsOf execution raws)).concluded execution
            (Event.outcome none (h.db.eventsOf execution raws)) := by
          rw [resumes.tables]
      _ = once.2.db.unstamped := (tables_of_ingest_eq_ok undisturbed readable done).symm
  · calc retry.2.bus
      _ = first.2.bus.publishAll (first.2.posts later execution raws) := bus_ingest
      _ = (h.bus.publishAll (h.posts w execution raws)).publishAll
            (first.2.posts later execution raws) := by rw [bus_ingest]
      _ = h.bus.publishAll (h.posts other execution raws) := by
          rw [← posts, Bus.publishAll, Bus.publishAll, Bus.publishAll, List.foldl_append]
      _ = once.2.bus := bus_ingest.symm
  · rw [fresh]
    exact Event.nodup_unseen distinct.nodup_wires
  · intro batch after takenIn
    rcases of_ingest_eq_error failed with ⟨_, _, refused, -⟩ | ⟨_, _, reported, took, named, same⟩
    · rw [takenIn] at refused
      cases refused
    · rw [takenIn] at took
      cases took
      exact (takesIn_of_eq_ok undisturbed readable takenIn).redone named same readable succeeded

/-- A world that refuses the statement that frees the session. -/
private def refusing : World :=
  { World.plain with refuses := fun n => if n = 18 then some ⟨"disk full"⟩ else none }

/-- An execution in its session. -/
private def started : List Operation :=
  [.createSession ⟨some "session", "ws", "p", none, none, false, none, none, none, "user"⟩,
    .execute ⟨"ws", "session", "hello", "user"⟩]

private def lastWords : List WorkerEvent :=
  [⟨1, "2999-01-01T00:00:00Z", "text_delta", none⟩, ⟨2, "2999-01-01T00:00:01Z", "done", none⟩]

/-- The batch was committed, but its execution could not be ended; sent again it is. -/
theorem lost_completion_is_redone :
    let h := (create 1 8 8).run refusing started
    let first := h.ingest refusing "exec_" lastWords
    (∃ e, first.1 = .error e) ∧ (first.2.ingest .plain "exec_" lastWords).1 = .ok ⟨0, 2⟩ := by
  have facts := retry_converges refusing .plain .plain 1 8 8 started "exec_" lastWords
    (by decide +kernel)
  have known : ∃ row ∈ ((create 1 8 8).run refusing started).db.executions,
      row.execution = "exec_" := ⟨_, List.mem_singleton_self _, rfl⟩
  have failed : (((create 1 8 8).run refusing started).ingest refusing "exec_" lastWords).1.isOk =
      false := by decide +kernel
  have committed : (((create 1 8 8).run refusing started).transact refusing
      (takeBatch "exec_" lastWords)).1.isOk = true := by decide +kernel
  -- the run has been evaluated where that was needed; from here on it is any hub
  generalize (create 1 8 8).run refusing started = h at *
  intro _ first
  obtain ⟨succeeds, converges⟩ := facts
  obtain ⟨report, once⟩ := succeeds known World.calmFrom_plain
  cases failure : first.1 with
  | ok _ =>
      have passed : first.1.isOk = true := by rw [failure]; rfl
      rw [failed] at passed
      contradiction
  | error e =>
      obtain ⟨again, done, -, -, -, -, redone⟩ :=
        converges e report failure World.calmFrom_plain once
      rcases outcome : h.transact refusing (takeBatch "exec_" lastWords) with ⟨_ | batch, after⟩
      · rw [outcome] at committed
        contradiction
      · obtain ⟨rfl, -⟩ := redone batch after outcome
        exact ⟨⟨e, rfl⟩, done⟩

end Hub

end Switchboard
