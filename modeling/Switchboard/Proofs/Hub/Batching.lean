import Switchboard.Proofs.Hub.Retry

/-!
A batch in two parts.

The `done` event of a batch is heeded when all of the batch is taken in.  If the batch is cut after
it, the events behind the cut are taken in by an execution that has ended already.  Both come to the
same: an execution that was heard of and then ended is the same whether the last events came before
the end or after it, and its session is free.
-/

namespace Switchboard

variable {db : Database} {execution : ExecutionId} {raws xs ys : List WorkerEvent}
  {event : Event} {events before later : List Event}

namespace Event

theorem unseen_append {seen : List Int} :
    unseen seen (before ++ later) =
      unseen seen before ++ unseen (seen ++ (unseen seen before).map (·.sequence.toWire)) later := by
  induction before generalizing seen with
  | nil => simp [unseen]
  | cons event before ih =>
      by_cases known : event.sequence.toWire ∈ seen
      · simp [unseen, known, ih]
      · simp [unseen, known, ih]

theorem outcome_append {named : Option String} :
    outcome named (before ++ later) = outcome (outcome named before) later := by
  induction before generalizing named with
  | nil => rfl
  | cons event before ih => exact ih

end Event

namespace Execution

variable {row : Execution} {state : ExecutionState} {at_ endedAt : String}

theorem heard_of_begun (begun : row.state ≠ .pending) :
    row.heard at_ = { row with lastEventAt := some (latest row.lastEventAt at_) } := by
  rw [heard, if_neg begun]

theorem heard_ended (begun : row.state ≠ .pending) (terminal : state.isTerminal) :
    (row.ended state endedAt).heard at_ = (row.heard at_).ended state endedAt := by
  have past : (row.ended state endedAt).state ≠ .pending := by
    rintro rfl
    contradiction
  rw [heard_of_begun begun, heard_of_begun past]
  rfl

end Execution

namespace Database

/-- Whether an execution is no longer pending. -/
def Begun (execution : ExecutionId) (db : Database) : Prop :=
  ∀ row ∈ db.executions, row.execution = execution → row.state ≠ .pending

theorem Begun.apply_take {at_ : String} (begun : db.Begun execution) :
    ((Change.take event at_).apply db).Begun execution := by
  intro row member about
  rcases Change.mem_executions_apply.mp member with ⟨stored, present, rfl⟩ | new
  · rw [Change.execution_onExecution] at about
    simp only [Change.onExecution]
    split
    · exact Execution.heard_heard.begun
    · exact begun stored present about
  · cases new

theorem begun_takenIn (nonempty : events ≠ []) (about : ∀ event ∈ events, event.execution = execution) :
    (db.takenIn events).Begun execution := by
  obtain ⟨event, member⟩ := List.exists_mem_of_ne_nil events nonempty
  obtain rfl := about event member
  exact fun row present same => ((took_takenIn event member).heard row present same).begun

theorem takenIn_append : db.takenIn (before ++ later) = (db.takenIn before).takenIn later :=
  List.foldl_append

end Database

namespace Change

variable {state : ExecutionState} {at_ endedAt freedAt : String}

theorem apply_finish : (finish execution state endedAt freedAt).apply db =
    { db with
      sessions := db.sessions.map (finish execution state endedAt freedAt).onSession
      executions := db.executions.map (finish execution state endedAt freedAt).onExecution } :=
  apply_of_adds_nothing ⟨rfl, rfl, rfl, rfl, rfl⟩

theorem onExecution_take_finish {row : Execution}
    (begun : row.execution = event.execution → row.state ≠ .pending) (terminal : state.isTerminal) :
    (take event at_).onExecution ((finish event.execution state endedAt freedAt).onExecution row) =
      (finish event.execution state endedAt freedAt).onExecution ((take event at_).onExecution row) := by
  by_cases about : row.execution = event.execution
  · have aboutEnded : (row.ended state endedAt).execution = event.execution := about
    have aboutHeard : (row.heard event.timestamp).execution = event.execution := by
      rw [Execution.heard_of_begun (begun about)]
      exact about
    by_cases active : row.isActive
    · simp [onExecution, about, aboutEnded, aboutHeard, active,
        Execution.heard_ended (begun about) terminal]
    · simp [onExecution, about, aboutHeard, active]
  · simp [onExecution, about]

/-- The session is free afterwards, whether it had to wait before or not. -/
theorem onSession_take_finish {row : Session} :
    (take event at_).onSession ((finish event.execution state endedAt freedAt).onSession row) =
      (finish event.execution state endedAt freedAt).onSession ((take event at_).onSession row) := by
  by_cases holds : row.active = some event.execution
  · by_cases asks : event.asksConfirmation ∧ row.status = .executing
    · simp [onSession, holds, asks, Session.freed, Session.withStatus]
    · simp [onSession, holds, asks, Session.freed]
  · simp [onSession, holds]

/-- An event may be taken in before its execution ends, or after. -/
theorem apply_take_finish (begun : db.Begun event.execution) (terminal : state.isTerminal) :
    (take event at_).apply ((finish event.execution state endedAt freedAt).apply db) =
      (finish event.execution state endedAt freedAt).apply ((take event at_).apply db) := by
  have executions : ∀ row ∈ db.executions,
      (take event at_).onExecution ((finish event.execution state endedAt freedAt).onExecution row) =
        (finish event.execution state endedAt freedAt).onExecution
          ((take event at_).onExecution row) :=
    fun row member => onExecution_take_finish (begun row member) terminal
  rw [apply_finish, apply_finish]
  simp only [apply, newProjects, newSessions, newExecutions, newEvents, newAudits, List.append_nil,
    List.map_map, Function.comp_def, onSession_take_finish, List.map_congr_left executions]
  rfl

end Change

namespace Database

variable {named : Option String}

theorem Begun.takenIn_concluded (begun : db.Begun execution)
    (about : ∀ event ∈ events, event.execution = execution) :
    (db.concluded execution named).takenIn events =
      (db.takenIn events).concluded execution named := by
  cases named with
  | none => rfl
  | some reported =>
      induction events generalizing db with
      | nil => rfl
      | cons event events ih =>
          obtain ⟨rfl, later⟩ := List.forall_mem_cons.mp about
          have swap : (Change.take event "").apply (db.concluded event.execution (some reported)) =
              ((Change.take event "").apply db).concluded event.execution (some reported) :=
            Change.apply_take_finish begun (Hub.isTerminal_concluding reported)
          calc (db.concluded event.execution (some reported)).takenIn (event :: events)
            _ = ((Change.take event "").apply
                  (db.concluded event.execution (some reported))).takenIn events := rfl
            _ = (((Change.take event "").apply db).takenIn events).concluded event.execution
                  (some reported) := by rw [swap, ih begun.apply_take later]
            _ = (db.takenIn (event :: events)).concluded event.execution (some reported) := rfl

/-- Wherever events are cut, if an end is named on one side of the cut only. -/
theorem concluded_takenIn_append (about : ∀ event ∈ before ++ later, event.execution = execution)
    (single : Event.outcome none before = none ∨ ∀ event ∈ later, event.isDone = false) :
    (((db.takenIn before).concluded execution (Event.outcome none before)).takenIn later).concluded
        execution (Event.outcome none later) =
      (db.takenIn (before ++ later)).concluded execution
        (Event.outcome none (before ++ later)) := by
  rw [takenIn_append, Event.outcome_append]
  cases named : Event.outcome none before with
  | none => rfl
  | some reported =>
      have going : ∀ event ∈ later, event.isDone = false := by
        simpa [named] using single
      have nonempty : before ≠ [] := by
        rintro rfl
        contradiction
      have begun : (db.takenIn before).Begun execution :=
        begun_takenIn nonempty fun event member => about event (List.mem_append_left _ member)
      -- nothing behind the cut names an end, so the one before it is the end of the whole
      rw [Event.outcome_of_going going, Event.outcome_of_going going]
      exact begun.takenIn_concluded fun event member => about event (List.mem_append_right _ member)

end Database

namespace Hub

variable {w : World} {h : Hub} {report : IngestReport}

theorem eventsOf_append :
    h.db.eventsOf execution (xs ++ ys) = h.db.eventsOf execution xs ++ h.db.eventsOf execution ys :=
  List.map_append

theorem about_eventsOf : ∀ event ∈ h.db.eventsOf execution raws, event.execution = execution := by
  intro event member
  obtain ⟨raw, -, rfl⟩ := List.mem_map.mp member
  rfl

/-- Among the events of a batch with one `done` event at most, one side of a cut names no end. -/
theorem single_eventsOf (single : (xs ++ ys).countP (·.type = EventType.done) ≤ 1) :
    Event.outcome none (h.db.eventsOf execution xs) = none ∨
      ∀ event ∈ h.db.eventsOf execution ys, event.isDone = false := by
  rw [List.countP_append] at single
  by_cases going : ∀ raw ∈ xs, raw.type ≠ EventType.done
  · left
    refine Event.outcome_of_going fun event member => ?_
    obtain ⟨raw, inBatch, rfl⟩ := List.mem_map.mp member
    exact beq_false_of_ne (going raw inBatch)
  · right
    have ended : 0 < xs.countP (·.type = EventType.done) := by
      simpa [List.countP_pos_iff] using going
    have others : ys.countP (·.type = EventType.done) = 0 := by omega
    intro event member
    obtain ⟨raw, inBatch, rfl⟩ := List.mem_map.mp member
    have goes : raw.type ≠ EventType.done := by
      simpa using List.countP_eq_zero.mp others raw inBatch
    exact beq_false_of_ne goes

/-- The execution is still there after a call, whether it succeeds or fails, and its events are
published under the same trace. -/
theorem ready_ingest (undisturbed : h.db.Undisturbed)
    (present : ∃ row ∈ h.db.executions, row.execution = execution) :
    (h.ingest w execution xs).2.db.Undisturbed ∧
      (∃ row ∈ (h.ingest w execution xs).2.db.executions, row.execution = execution) ∧
      ∀ ys, (h.ingest w execution xs).2.db.eventsOf execution ys = h.db.eventsOf execution ys := by
  have leads : h.Leads (fun _ => True) (h.ingest w execution xs).2 :=
    leads_ingest undisturbed xs (fun _ _ _ => trivial) fun _ _ _ => trivial
  have traced : (h.ingest w execution xs).2.db.Traced execution (h.db.traceOf execution) :=
    leads.db.keeps (Database.Traced execution _) ⟨present, rfl⟩ fun _ _ _ _ traced => traced.apply
  refine ⟨leads.undisturbed undisturbed, traced.present, fun ys => ?_⟩
  rw [Database.eventsOf, traced.trace]
  rfl

theorem wires_of_ingest_eq_ok (undisturbed : h.db.Undisturbed)
    (readable : ∀ raw ∈ raws, (normalize raw.timestamp).isSome)
    (done : (h.ingest w execution raws).1 = .ok report) :
    (h.ingest w execution raws).2.db.wires execution =
      h.db.wires execution ++ (h.posts w execution raws).map (·.sequence.toWire) := by
  have about : ∀ event ∈ h.posts w execution raws, event.execution = execution := by
    rw [posts_of_ingest_eq_ok undisturbed readable done]
    exact fun event member => about_eventsOf event (Event.unseen_sublist.subset member)
  have rows : ((h.posts w execution raws).map EventRow.ofEvent).filter (·.execution = execution) =
      (h.posts w execution raws).map EventRow.ofEvent := by
    refine List.filter_eq_self.mpr fun row member => ?_
    obtain ⟨event, published, rfl⟩ := List.mem_map.mp member
    exact decide_eq_true (about event published)
  rw [Database.wires, events_ingest undisturbed, List.filter_append, rows, List.map_append,
    List.map_map]
  rfl

theorem present_of_ingest_eq_ok (undisturbed : h.db.Undisturbed)
    (done : (h.ingest w execution raws).1 = .ok report) :
    ∃ row ∈ h.db.executions, row.execution = execution := by
  obtain ⟨batch, after, committed, -⟩ := of_ingest_eq_ok done
  obtain ⟨row, _, found, -⟩ := of_batch_eq_ok undisturbed committed
  exact Database.exists_of_find?_execution found

theorem counted_of_ingest_eq_ok (undisturbed : h.db.Undisturbed)
    (done : (h.ingest w execution raws).1 = .ok report) :
    report.accepted = (h.posts w execution raws).length ∧
      report.accepted + report.duplicates = raws.length := by
  obtain ⟨batch, after, committed, rfl⟩ := of_ingest_eq_ok done
  obtain ⟨-, -, -, -, -, -, -, counted⟩ := of_batch_eq_ok undisturbed committed
  rw [posts_of_ok committed]
  exact ⟨rfl, counted⟩

section

variable {whole first second : World} {all opening rest : IngestReport}
  (undisturbed : h.db.Undisturbed)
  (readable : ∀ raw ∈ xs ++ ys, (normalize raw.timestamp).isSome)
  (atOnce : (h.ingest whole execution (xs ++ ys)).1 = .ok all)
  (opened : (h.ingest first execution xs).1 = .ok opening)
  (closed : ((h.ingest first execution xs).2.ingest second execution ys).1 = .ok rest)

include undisturbed readable atOnce opened closed

theorem posts_in_two : h.posts first execution xs ++
      (h.ingest first execution xs).2.posts second execution ys =
    h.posts whole execution (xs ++ ys) := by
  obtain ⟨readableXs, readableYs⟩ := List.forall_mem_append.mp readable
  have present := present_of_ingest_eq_ok undisturbed atOnce
  obtain ⟨undisturbed', -, events⟩ := ready_ingest (w := first) undisturbed present
  rw [posts_of_ingest_eq_ok undisturbed' readableYs closed,
    posts_of_ingest_eq_ok undisturbed readable atOnce,
    wires_of_ingest_eq_ok undisturbed readableXs opened,
    posts_of_ingest_eq_ok undisturbed readableXs opened, events ys, eventsOf_append,
    Event.unseen_append]

theorem tables_in_two (single : (xs ++ ys).countP (·.type = EventType.done) ≤ 1) :
    ((h.ingest first execution xs).2.ingest second execution ys).2.db.unstamped =
      (h.ingest whole execution (xs ++ ys)).2.db.unstamped := by
  obtain ⟨readableXs, readableYs⟩ := List.forall_mem_append.mp readable
  have present := present_of_ingest_eq_ok undisturbed atOnce
  obtain ⟨undisturbed', -, events⟩ := ready_ingest (w := first) undisturbed present
  have about : ∀ event ∈ h.db.eventsOf execution xs ++ h.db.eventsOf execution ys,
      event.execution = execution := by
    rw [← eventsOf_append]
    exact about_eventsOf
  calc ((h.ingest first execution xs).2.ingest second execution ys).2.db.unstamped
    _ = ((h.ingest first execution xs).2.db.unstamped.takenIn
          (h.db.eventsOf execution ys)).concluded execution
            (Event.outcome none (h.db.eventsOf execution ys)) := by
        rw [← events ys]
        exact tables_of_ingest_eq_ok undisturbed' readableYs closed
    _ = (((h.db.unstamped.takenIn (h.db.eventsOf execution xs)).concluded execution
          (Event.outcome none (h.db.eventsOf execution xs))).takenIn
            (h.db.eventsOf execution ys)).concluded execution
              (Event.outcome none (h.db.eventsOf execution ys)) := by
        rw [tables_of_ingest_eq_ok undisturbed readableXs opened]
    _ = (h.db.unstamped.takenIn (h.db.eventsOf execution (xs ++ ys))).concluded execution
          (Event.outcome none (h.db.eventsOf execution (xs ++ ys))) := by
        rw [eventsOf_append, Database.concluded_takenIn_append about (single_eventsOf single)]
    _ = (h.ingest whole execution (xs ++ ys)).2.db.unstamped :=
        (tables_of_ingest_eq_ok undisturbed readable atOnce).symm

end

/-- Batching is irrelevant.  After every run, events with readable timestamps of which one at most is
a `done` event may be cut into two batches anywhere, also behind the `done` event.  The calls go
through for an execution that exists where no statement is refused.  When they do, the two leave the
tables as the one call leaves them, but for the clock; they publish the same events in the same
order, so that the bus is the same; and what they report adds up. -/
theorem batching_is_irrelevant (w whole first second : World) (limit ring queue : Nat)
    (operations : List Operation) (execution : ExecutionId) (xs ys : List WorkerEvent)
    (readable : ∀ raw ∈ xs ++ ys, (normalize raw.timestamp).isSome)
    (single : (xs ++ ys).countP (·.type = EventType.done) ≤ 1) :
    let h := (create limit ring queue).run w operations
    let joint := h.ingest whole execution (xs ++ ys)
    let early := h.ingest first execution xs
    let late := early.2.ingest second execution ys
    ((∃ row ∈ h.db.executions, row.execution = execution) →
      (whole.CalmFrom h.meter → ∃ report, joint.1 = .ok report) ∧
      (first.CalmFrom h.meter → ∃ report, early.1 = .ok report) ∧
      (second.CalmFrom early.2.meter → ∃ report, late.1 = .ok report)) ∧
    ∀ all opening rest, joint.1 = .ok all → early.1 = .ok opening → late.1 = .ok rest →
      late.2.db.unstamped = joint.2.db.unstamped ∧
      h.posts first execution xs ++ early.2.posts second execution ys =
        h.posts whole execution (xs ++ ys) ∧
      late.2.bus = joint.2.bus ∧
      all.accepted = opening.accepted + rest.accepted ∧
      all.duplicates = opening.duplicates + rest.duplicates := by
  intro h joint early late
  have undisturbed : h.db.Undisturbed := undisturbed_run
  refine ⟨?_, ?_⟩
  · intro present
    obtain ⟨undisturbed', present', -⟩ := ready_ingest (w := first) undisturbed present
    exact ⟨fun calm => ingest_exists calm undisturbed present,
      fun calm => ingest_exists calm undisturbed present,
      fun calm => ingest_exists calm undisturbed' present'⟩
  intro all opening rest jointly earlier later
  have present := present_of_ingest_eq_ok undisturbed jointly
  obtain ⟨undisturbed', -⟩ := ready_ingest (w := first) undisturbed present
  have posts : h.posts first execution xs ++ early.2.posts second execution ys =
      h.posts whole execution (xs ++ ys) :=
    posts_in_two undisturbed readable jointly earlier later
  obtain ⟨acceptedAll, countedAll⟩ := counted_of_ingest_eq_ok undisturbed jointly
  obtain ⟨acceptedXs, countedXs⟩ := counted_of_ingest_eq_ok undisturbed earlier
  obtain ⟨acceptedYs, countedYs⟩ := counted_of_ingest_eq_ok undisturbed' later
  have accepted : all.accepted = opening.accepted + rest.accepted := by
    rw [acceptedAll, acceptedXs, acceptedYs, ← posts, List.length_append]
  rw [List.length_append] at countedAll
  refine ⟨tables_in_two undisturbed readable jointly earlier later single, posts, ?_, accepted,
    by omega⟩
  calc late.2.bus
    _ = early.2.bus.publishAll (early.2.posts second execution ys) := bus_ingest
    _ = (h.bus.publishAll (h.posts first execution xs)).publishAll
          (early.2.posts second execution ys) := by rw [bus_ingest]
    _ = h.bus.publishAll (h.posts whole execution (xs ++ ys)) := by
        rw [← posts, Bus.publishAll, Bus.publishAll, Bus.publishAll, List.foldl_append]
    _ = joint.2.bus := bus_ingest.symm

/-- An execution at work in its session. -/
private def atWork : List Operation :=
  [.createSession ⟨some "session", "ws", "p", none, none, false, none, none, none, "user"⟩,
    .execute ⟨"ws", "session", "hello", "user"⟩, .answerDispatch "exec_" (.ok ())]

private def ending : List WorkerEvent :=
  [⟨1, "2999-01-01T00:00:00Z", "text_delta", none⟩, ⟨2, "2999-01-01T00:00:01Z", "done", none⟩]

private def straggler : List WorkerEvent :=
  [⟨3, "2999-01-01T00:00:02Z", "confirmation_request",
    some (.ofEntries [("call_id", .string "call")])⟩]

/-- The cut is behind the `done` event, and what comes after it asks for a confirmation. -/
theorem request_behind_the_end :
    let h := (create 1 8 8).run .plain atWork
    let joint := h.ingest .plain "exec_" (ending ++ straggler)
    let late := (h.ingest .plain "exec_" ending).2.ingest .plain "exec_" straggler
    (∃ report, joint.1 = .ok report) ∧ late.2.db.unstamped = joint.2.db.unstamped := by
  have facts := batching_is_irrelevant .plain .plain .plain .plain 1 8 8 atWork "exec_" ending
    straggler (by decide +kernel) (by decide +kernel)
  have known : ∃ row ∈ ((create 1 8 8).run .plain atWork).db.executions,
      row.execution = "exec_" := by
    decide +kernel
  -- the run has been evaluated where that was needed; from here on it is any hub
  generalize (create 1 8 8).run .plain atWork = h at *
  intro _ joint late
  obtain ⟨succeeds, same⟩ := facts
  obtain ⟨jointly, earlier, later⟩ := succeeds known
  obtain ⟨all, allDone⟩ := jointly World.calmFrom_plain
  obtain ⟨opening, openingDone⟩ := earlier World.calmFrom_plain
  obtain ⟨rest, restDone⟩ := later World.calmFrom_plain
  obtain ⟨tables, -⟩ := same all opening rest allDone openingDone restDone
  exact ⟨⟨all, allDone⟩, tables⟩

end Hub

end Switchboard
