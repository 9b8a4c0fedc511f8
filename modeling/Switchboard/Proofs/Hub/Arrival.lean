import Mathlib.Data.List.Nodup
import Switchboard.Proofs.Hub.Calm
import Switchboard.Proofs.Hub.Ingest

/-!
Events come once.

Whether an event is new is decided by the tables inside the transaction that stores it; what is
published afterwards is a list kept in memory.  They agree over every run: the stored events are those
that were published, one by one and in the same order, and no number is stored twice for an execution.
-/

namespace Switchboard

/-- The events of a list whose number is neither among those seen nor that of an event before. -/
def Event.unseen (seen : List Int) : List Event → List Event
  | [] => []
  | event :: events =>
    if event.sequence.toWire ∈ seen then unseen seen events
    else event :: unseen (seen ++ [event.sequence.toWire]) events

theorem Event.unseen_eq_nil {seen : List Int} {events : List Event}
    (known : ∀ event ∈ events, event.sequence.toWire ∈ seen) : unseen seen events = [] := by
  induction events with
  | nil => rfl
  | cons event events ih =>
      rw [unseen, if_pos (known event List.mem_cons_self)]
      exact ih fun later member => known later (List.mem_cons_of_mem _ member)

theorem Event.unseen_sublist {seen : List Int} {events : List Event} :
    (unseen seen events).Sublist events := by
  induction events generalizing seen with
  | nil => exact .slnil
  | cons event events ih =>
      rw [unseen]
      split
      · exact .cons event ih
      · exact .cons_cons event ih

theorem Event.nodup_unseen {seen : List Int} {events : List Event} (distinct : seen.Nodup) :
    (seen ++ (unseen seen events).map (·.sequence.toWire)).Nodup := by
  induction events generalizing seen with
  | nil => simpa [unseen] using distinct
  | cons event events ih =>
      by_cases known : event.sequence.toWire ∈ seen
      · rw [unseen, if_pos known]
        exact ih distinct
      · have longer : (seen ++ [event.sequence.toWire]).Nodup := by
          simpa using distinct.concat known
        rw [unseen, if_neg known, List.map_cons, List.append_cons]
        exact ih longer

namespace Database

variable {db : Database} {limit : Nat} {change : Change} {execution : ExecutionId} {event : Event}

/-- The numbers of the events stored for an execution, in the order of their arrival. -/
def wires (execution : ExecutionId) (db : Database) : List Int :=
  (db.events.filter (·.execution = execution)).map (·.wire)

theorem knows_iff : db.knows (.ofEvent event) ↔ event.sequence.toWire ∈ db.wires event.execution := by
  simp only [knows, wires, List.any_eq_true, Bool.and_eq_true, decide_eq_true_eq, List.mem_map,
    List.mem_filter, and_assoc]
  rfl

theorem wires_apply_take {at_ : String} :
    ((Change.take event at_).apply db).wires event.execution =
      db.wires event.execution ++
        if db.knows (.ofEvent event) then [] else [event.sequence.toWire] := by
  rw [Change.apply_take]
  by_cases known : db.knows (.ofEvent event)
  · simp only [wires, known, if_true, List.append_nil]
  · have stored : (EventRow.ofEvent event).execution = event.execution := rfl
    simp [wires, known, stored]
    rfl

/-- No number is stored twice for an execution. -/
def DistinctEvents (db : Database) : Prop :=
  (db.events.map fun row => (row.execution, row.wire)).Nodup

theorem DistinctEvents.apply (distinct : db.DistinctEvents) : (change.apply db).DistinctEvents := by
  unfold DistinctEvents at distinct ⊢
  cases change with
  | take event at_ =>
      rw [Change.apply_take]
      by_cases known : db.knows (.ofEvent event)
      · simpa only [known, if_true, List.append_nil] using distinct
      · simp only [known, Bool.false_eq_true, if_false, List.map_append, List.map_singleton]
        refine distinct.append (List.nodup_singleton _) ?_
        simpa [knows] using known
  | _ => simpa only [Change.apply, Change.newEvents, List.append_nil] using distinct

theorem DistinctEvents.nodup_wires (distinct : db.DistinctEvents) : (db.wires execution).Nodup := by
  have ofExecution : ((db.events.filter (·.execution = execution)).map
      fun row => (row.execution, row.wire)).Nodup :=
    distinct.sublist (List.filter_sublist.map _)
  have paired : (db.events.filter (·.execution = execution)).map
      (fun row => (row.execution, row.wire)) = (db.wires execution).map (execution, ·) := by
    rw [wires, List.map_map]
    refine List.map_congr_left fun row member => ?_
    have same : row.execution = execution := by simpa using (List.mem_filter.mp member).2
    simp [same]
  rw [paired] at ofExecution
  exact List.Nodup.of_map _ ofExecution

end Database

section

variable {db : Database} {execution : ExecutionId} {taken : List (Event × String)} {batch : Batch}

/-- A batch stores the events that are new, and only those. -/
theorem events_applyTaken (about : ∀ event ∈ taken, event.1.execution = execution) :
    (applyTaken db taken).events =
      db.events ++ (Event.unseen (db.wires execution) (taken.map (·.1))).map .ofEvent := by
  induction taken generalizing db with
  | nil => simp [applyTaken, Event.unseen]
  | cons entry taken ih =>
      obtain ⟨event, at_⟩ := entry
      obtain ⟨rfl, later⟩ := List.forall_mem_cons.mp about
      have step : applyTaken db ((event, at_) :: taken) =
          applyTaken ((Change.take event at_).apply db) taken := rfl
      rw [step, ih later, Database.wires_apply_take, Change.apply_take]
      by_cases known : db.knows (.ofEvent event)
      · simp [Event.unseen, known, Database.knows_iff.mp known]
      · simp [Event.unseen, known, mt Database.knows_iff.mpr known]

theorem fresh_addAll (about : ∀ event ∈ taken, event.1.execution = execution) :
    (Batch.addAll db batch taken).fresh =
      batch.fresh ++ Event.unseen (db.wires execution) (taken.map (·.1)) := by
  induction taken generalizing db batch with
  | nil => simp [Batch.addAll, Event.unseen]
  | cons entry taken ih =>
      obtain ⟨event, at_⟩ := entry
      obtain ⟨rfl, later⟩ := List.forall_mem_cons.mp about
      rw [Batch.addAll, ih later, Database.wires_apply_take]
      by_cases known : db.knows (.ofEvent event)
      · simp [Event.unseen, Batch.add, known, Database.knows_iff.mp known]
      · simp [Event.unseen, Batch.add, known, mt Database.knows_iff.mpr known]

theorem length_addAll :
    (Batch.addAll db batch taken).fresh.length + (Batch.addAll db batch taken).duplicates =
      batch.fresh.length + batch.duplicates + taken.length := by
  induction taken generalizing db batch with
  | nil => rfl
  | cons entry taken ih =>
      obtain ⟨event, at_⟩ := entry
      rw [Batch.addAll, ih]
      by_cases known : db.knows (.ofEvent event) <;> simp [known, Batch.add] <;> omega

theorem keeps_applyTaken (Kept : Database → Prop) (start : Kept db)
    (step : ∀ (event : Event) at_ db, Kept db → Kept ((Change.take event at_).apply db)) :
    Kept (applyTaken db taken) := by
  induction taken generalizing db with
  | nil => exact start
  | cons entry taken ih => exact ih (step _ _ _ start)

theorem undisturbed_applyTaken (undisturbed : db.Undisturbed) :
    (applyTaken db taken).Undisturbed :=
  keeps_applyTaken _ undisturbed fun _ _ _ => Change.undisturbed_apply

end

/-- Whether a change stores no event. -/
def Change.Eventless (change : Change) : Prop := ∀ db, change.newEvents db = []

theorem Operation.eventless_of_makes {w : World} {m m' : Meter} {operation : Operation}
    {change : Change} (others : ∀ execution events, operation ≠ .ingest execution events)
    (made : operation.Makes w m m' change) : change.Eventless := by
  cases change with
  | take event at_ =>
      cases operation with
      | ingest execution events => exact absurd rfl (others execution events)
      | answerDispatch execution outcome => cases outcome <;> cases made
      | _ => cases made
  | _ => exact fun _ => rfl

/-- The events that an operation publishes of those a worker posted. -/
def Operation.posts (w : World) (h : Hub) : Operation → List Event
  | .ingest execution events => h.posts w execution events
  | _ => []

namespace Hub

variable {w : World} {h h' : Hub} {execution : ExecutionId} {limit ring queue : Nat}

theorem Leads.events (leads : Leads Change.Eventless h h') : h'.db.events = h.db.events := by
  refine leads.db.keeps (fun db => db.events = h.db.events) rfl ?_
  intro change db none _ same
  simp only [Change.apply, none db, List.append_nil, same]

/-- The events of workers that a run publishes, in order. -/
def posted (w : World) (h : Hub) : List Operation → List Event
  | [] => []
  | operation :: operations => operation.posts w h ++ posted w (operation.apply w h) operations

/-- What is fresh of a batch is what the tables did not know. -/
theorem of_batch_eq_ok {events : List WorkerEvent} {batch : Batch} {after : Hub}
    (undisturbed : h.db.Undisturbed)
    (committed : h.transact w (takeBatch execution events) = (.ok batch, after)) :
    ∃ row taken, h.db.executions.find? (·.execution = execution) = some row ∧
      List.Forall₂ (fun raw event => ∃ now, event.1 = raw.toEvent execution row.traceIfAny now)
        events taken ∧
      batch = Batch.addAll h.db {} taken ∧ after.db = applyTaken h.db taken ∧
      batch.fresh = Event.unseen (h.db.wires execution) (taken.map (·.1)) ∧
      batch.fresh.length + batch.duplicates = events.length := by
  obtain ⟨m, db, done, rfl⟩ := of_transact_eq_ok committed
  obtain ⟨row, taken, found, posted, rfl, rfl⟩ := of_takeBatch undisturbed done
  refine ⟨row, taken, found, posted, rfl, rfl, ?_, ?_⟩
  · rw [fresh_addAll (execution_of_posted posted), List.nil_append]
  · rw [length_addAll, posted.length_eq]
    exact Nat.zero_add _

/-- The execution is still there when its batch is committed. -/
theorem ready_of_batch_eq_ok {events : List WorkerEvent} {batch : Batch} {after : Hub}
    (undisturbed : h.db.Undisturbed)
    (committed : h.transact w (takeBatch execution events) = (.ok batch, after)) :
    after.db.Undisturbed ∧ ∃ row ∈ after.db.executions, row.execution = execution := by
  obtain ⟨row, taken, found, -, -, stored, -⟩ := of_batch_eq_ok undisturbed committed
  rw [stored]
  refine ⟨undisturbed_applyTaken undisturbed, ?_⟩
  exact keeps_applyTaken (fun db => ∃ row ∈ db.executions, row.execution = execution)
    (Database.exists_of_find?_execution found) fun _ _ _ => Change.exists_execution_apply

/-- A batch for an execution that exists goes through where no statement is refused. -/
theorem ingest_exists {events : List WorkerEvent} (calm : w.CalmFrom h.meter)
    (undisturbed : h.db.Undisturbed) (present : ∃ row ∈ h.db.executions, row.execution = execution) :
    ∃ report, (h.ingest w execution events).1 = .ok report := by
  obtain ⟨row, found⟩ := Database.find?_of_exists present
  have gives : (takeBatch execution events).Gives w h.meter h.db fun _ _ => True :=
    gives_takeBatch calm undisturbed found
  obtain ⟨m, batch, db, done, before, -⟩ := gives
  have committed : h.transact w (takeBatch execution events) =
      (.ok batch, { h with meter := m, db := db }) := by
    simp only [transact, done]
  obtain ⟨undisturbed', present'⟩ := ready_of_batch_eq_ok undisturbed committed
  rw [ingest_of_ok committed]
  cases batch.outcome with
  | none => exact ⟨_, rfl⟩
  | some reported =>
      obtain ⟨row', found'⟩ := Database.find?_of_exists present'
      have ending : (completeRow execution (concluding reported)).Gives w m db fun _ _ => True :=
        gives_completeRow (calm.mono before) undisturbed' found'
      obtain ⟨m', _, db', ended, -, -⟩ := ending
      simp only [transact, ended]
      exact ⟨_, rfl⟩

theorem events_completeRow {state : ExecutionState} (undisturbed : h.db.Undisturbed) :
    (h.transact w (completeRow execution state)).2.db.events = h.db.events := by
  rcases outcome : h.transact w (completeRow execution state) with ⟨e | _, after⟩
  · obtain ⟨m, rfl⟩ := of_transact_eq_error outcome
    rfl
  · obtain ⟨m, db, done, rfl⟩ := of_transact_eq_ok outcome
    obtain ⟨-, _, _, rfl⟩ := of_completeRow undisturbed done
    exact List.append_nil _

theorem events_ingest {events : List WorkerEvent} (undisturbed : h.db.Undisturbed) :
    (h.ingest w execution events).2.db.events =
      h.db.events ++ (h.posts w execution events).map .ofEvent := by
  rcases outcome : h.transact w (takeBatch execution events) with ⟨e | batch, after⟩
  · obtain ⟨m, rfl⟩ := of_transact_eq_error outcome
    rw [ingest_of_error outcome, posts_of_error outcome, List.map_nil, List.append_nil]
  · obtain ⟨row, taken, found, about, rfl, stored, fresh, -⟩ := of_batch_eq_ok undisturbed outcome
    have committed : after.db.events =
        h.db.events ++ (h.posts w execution events).map .ofEvent := by
      rw [stored, posts_of_ok outcome, fresh, events_applyTaken (execution_of_posted about)]
    rw [ingest_of_ok outcome]
    cases (Batch.addAll h.db {} taken).outcome with
    | none => exact committed
    | some reported =>
        have still := (ready_of_batch_eq_ok undisturbed outcome).1
        exact (events_completeRow (h := { after with bus := after.bus.publishAll _ }) still).trans
          committed

/-- The tables store what is published, no more and no less. -/
theorem events_apply (undisturbed : h.db.Undisturbed) (operation : Operation) :
    (operation.apply w h).db.events = h.db.events ++ (operation.posts w h).map .ofEvent := by
  by_cases others : ∀ execution events, operation ≠ .ingest execution events
  · have nothing : operation.posts w h = [] := by
      cases operation with
      | ingest execution events => exact absurd rfl (others execution events)
      | _ => rfl
    rw [nothing, List.map_nil, List.append_nil]
    exact ((operation.leads undisturbed).mono fun _ => Operation.eventless_of_makes others).events
  · simp only [not_forall, not_not] at others
    obtain ⟨execution, events, rfl⟩ := others
    exact events_ingest undisturbed

theorem events_run {operations : List Operation} (undisturbed : h.db.Undisturbed) :
    (h.run w operations).db.events = h.db.events ++ (h.posted w operations).map .ofEvent := by
  induction operations generalizing h with
  | nil => exact (List.append_nil _).symm
  | cons operation operations ih =>
      have later := ih ((operation.leads (w := w) undisturbed).undisturbed undisturbed)
      rw [events_apply undisturbed] at later
      rw [posted, List.map_append, ← List.append_assoc]
      exact later

theorem distinctEvents_run {operations : List Operation} :
    ((create limit ring queue).run w operations).db.DistinctEvents :=
  holds_run List.nodup_nil fun _ _ _ distinct => distinct.apply

/-- Events come once.  Over every run, what was published of the events of an execution's worker has
pairwise distinct numbers and is what is stored of them, row by row.  A call publishes what it newly
stores and nothing else, also if it fails.  It succeeds for an execution that exists where no statement
is refused, and then it has taken in every event it was given, published those whose number was
neither stored nor that of an event before it, and counted the others. -/
theorem events_come_once (w : World) (limit ring queue : Nat) (operations : List Operation) :
    let start := create limit ring queue
    let h := start.run w operations
    (∀ execution,
      let published := (start.posted w operations).filter (·.execution = execution)
      (published.map (·.sequence.toWire)).Nodup ∧
      published.map (·.sequence.toWire) = h.db.wires execution ∧
      published.map .ofEvent = h.db.events.filter (·.execution = execution)) ∧
    ∀ execution raws,
      let after := h.ingest w execution raws
      let fresh := h.posts w execution raws
      after.2.bus = h.bus.publishAll fresh ∧
      after.2.db.events = h.db.events ++ fresh.map .ofEvent ∧
      ((∃ row ∈ h.db.executions, row.execution = execution) → w.CalmFrom h.meter →
        ∃ report, after.1 = .ok report) ∧
      ∀ report, after.1 = .ok report →
        report.accepted = fresh.length ∧ report.accepted + report.duplicates = raws.length ∧
        ∃ row events, row ∈ h.db.executions ∧ row.execution = execution ∧
          List.Forall₂ (fun raw event => ∃ now, event = raw.toEvent execution row.traceIfAny now)
            raws events ∧
          fresh = Event.unseen (h.db.wires execution) events := by
  intro start h
  have undisturbed : h.db.Undisturbed := undisturbed_run
  have stored : h.db.events = (start.posted w operations).map .ofEvent := events_run undisturbed_create
  have distinct : h.db.DistinctEvents := distinctEvents_run
  refine ⟨?_, ?_⟩
  · intro execution published
    have rows : published.map .ofEvent = h.db.events.filter (·.execution = execution) := by
      rw [stored, List.filter_map]
      rfl
    have wires : published.map (·.sequence.toWire) = h.db.wires execution := by
      rw [Database.wires, ← rows, List.map_map]
      rfl
    exact ⟨wires ▸ distinct.nodup_wires, wires, rows⟩
  · intro execution raws after fresh
    refine ⟨bus_ingest, events_ingest undisturbed, ?_, ?_⟩
    · intro present calm
      exact ingest_exists calm undisturbed present
    · intro report done
      obtain ⟨batch, after, committed, rfl⟩ := of_ingest_eq_ok done
      obtain ⟨row, taken, found, about, -, -, new, counted⟩ := of_batch_eq_ok undisturbed committed
      have published : fresh = batch.fresh := posts_of_ok committed
      have events : List.Forall₂
          (fun raw event => ∃ now, event = raw.toEvent execution row.traceIfAny now) raws
          (taken.map (·.1)) := List.forall₂_map_right_iff.mpr about
      refine ⟨published ▸ rfl, counted, row, taken.map (·.1), List.mem_of_find?_eq_some found, ?_,
        events, published.trans new⟩
      simpa using List.find?_some found

end Hub

end Switchboard
