import Switchboard.Proofs.Hub.Broadcast

/-!
The bus against the tables.

A reader that comes back is served from a ring or from the tables.  The two are filled by different
code at different times, but an event is published for an execution that is on file, under its trace,
and an event that a worker has numbered is stored before it is published.  The tables keep what they
hold, so they go on backing whatever a ring holds; what has fallen from the ring they have besides.
-/

namespace Switchboard

namespace Database

variable {db : Database} {event : Event}

/-- Whether the execution of an event is on file, under the trace that the event names. -/
def Traces (db : Database) (event : Event) : Prop :=
  ∃ row ∈ db.executions, row.execution = event.execution ∧ event.trace = some row.trace

theorem Traces.apply (traces : db.Traces event) (change : Change) : (change.apply db).Traces event := by
  obtain ⟨row, member, about, named⟩ := traces
  refine ⟨change.onExecution row, Change.mem_executions_apply.mpr (.inl ⟨row, member, rfl⟩), ?_, ?_⟩
  · rw [Change.execution_onExecution, about]
  · rw [Change.trace_onExecution, named]

/-- Whether the tables back an event that is published. -/
structure Backs (db : Database) (event : Event) : Prop where
  traces : db.Traces event
  stored : event.sequence.isSynthetic = false → .ofEvent event ∈ db.events

theorem Backs.apply (backs : db.Backs event) (change : Change) : (change.apply db).Backs event :=
  ⟨backs.traces.apply change, fun numbered => List.mem_append_left _ (backs.stored numbered)⟩

theorem DistinctEvents.find?_event (distinct : db.DistinctEvents) {row : EventRow}
    (member : row ∈ db.events) :
    (db.events.find? fun stored => stored.execution = row.execution && stored.wire = row.wire) =
      some row := by
  refine find?_of_mem distinct member (by simp) ?_
  intro other passes
  simpa using passes

/-- Whether every execution has a trace. -/
def HasTraces (db : Database) : Prop := ∀ row ∈ db.executions, row.trace ≠ ""

theorem HasTraces.traceIfAny_eq (traced : db.HasTraces) {row : Execution}
    (member : row ∈ db.executions) : row.traceIfAny = some row.trace :=
  if_neg (traced row member)

end Database

namespace Hub

variable {w : World} {h : Hub} {admitted : List ExecutionInfo} {answered : List Assignment}
  {event : Event} {operations : List Operation}

theorem traced_apply (undisturbed : h.db.Undisturbed) (traced : h.db.HasTraces)
    (operation : Operation) : (operation.apply w h).db.HasTraces := by
  refine (operation.leads (w := w) undisturbed).db.keeps Database.HasTraces traced ?_
  intro change db made _ traced row member
  rcases Change.mem_executions_apply.mp member with ⟨stored, present, rfl⟩ | new
  · rw [Change.trace_onExecution]
    exact traced stored present
  · cases change with
    | enter =>
        cases List.mem_singleton.mp new
        obtain ⟨-, rfl, -⟩ := Operation.of_makes_enter made
        exact IdKind.identifier_ne_empty _ _
    | _ => contradiction

theorem of_decide_eq_ok {execution : ExecutionId} {call answer : String} {user : UserId} {d : Decision}
    {after : Hub} (decided : h.decide w execution call answer user = (.ok d, after)) :
    ∃ resumed, h.transact w (resume execution) = (.ok d.trace, resumed) := by
  unfold Hub.decide at decided
  split at decided
  · cases decided
  · rcases outcome : h.transact w (resume execution) with ⟨e | trace, resumed⟩ <;>
      simp only [outcome] at decided
    · cases decided
    · cases decided
      exact ⟨resumed, rfl⟩

/-- What is published names the trace of an execution that is on file already. -/
theorem traces_of_published (undisturbed : h.db.Undisturbed) (accounted : h.Accounted admitted answered)
    (traced : h.db.HasTraces) {operation : Operation} (told : event ∈ operation.published w h) :
    h.db.Traces event := by
  cases operation with
  | answerDispatch execution outcome =>
      cases outcome with
      | ok => contradiction
      | error reason =>
          simp only [Operation.published] at told
          split at told
          · rename_i a after taken
            cases List.mem_singleton.mp told
            obtain ⟨found, -⟩ := of_takeOutstanding taken
            obtain ⟨row, member, describes⟩ := accounted.recorded a
              (List.mem_append_right answered (List.mem_of_find?_eq_some found))
            exact ⟨row, member, describes.execution.symm, congrArg some describes.trace⟩
          · contradiction
  | cancel workspace execution =>
      simp only [Operation.published] at told
      split at told
      · rename_i row after committed
        cases List.mem_singleton.mp told
        obtain ⟨_, _, done, -⟩ := of_transact_eq_ok committed
        obtain ⟨found, -⟩ := of_cancelRow undisturbed done
        have own := List.find?_some found
        simp only [Bool.and_eq_true, decide_eq_true_eq] at own
        exact ⟨row, List.mem_of_find?_eq_some found, own.1, rfl⟩
      · contradiction
  | ingest execution raws =>
      simp only [Operation.published] at told
      rcases outcome : h.transact w (takeBatch execution raws) with ⟨e | batch, after⟩
      · rw [posts_of_error outcome] at told
        contradiction
      · obtain ⟨row, taken, found, about, -, -, fresh, -⟩ := of_batch_eq_ok undisturbed outcome
        rw [posts_of_ok outcome, fresh] at told
        have member := List.mem_of_find?_eq_some found
        have own : row.execution = execution := Database.execution_of_find? found
        have all : ∀ event ∈ taken.map (·.1), h.db.Traces event :=
          forall_of_posted about fun raw _ now => ⟨row, member, own, traced.traceIfAny_eq member⟩
        exact all event (Event.unseen_sublist.subset told)
  | decide execution call answer user =>
      simp only [Operation.published] at told
      split at told
      · rename_i d after decided
        cases List.mem_singleton.mp told
        obtain ⟨_, resumed⟩ := of_decide_eq_ok decided
        obtain ⟨_, _, done, -⟩ := of_transact_eq_ok resumed
        obtain ⟨⟨row, found, named⟩, -⟩ := of_resume undisturbed done
        have member := List.mem_of_find?_eq_some found
        have own : row.execution = execution := Database.execution_of_find? found
        exact ⟨row, member, own, named.trans (traced.traceIfAny_eq member)⟩
      · contradiction
  | sweep seconds nanos =>
      simp only [Operation.published] at told
      split at told
      · rename_i rows after listed
        obtain ⟨row, stale, -, about, named⟩ := of_sweepPosts told
        obtain ⟨_, _, done, -⟩ := of_transact_eq_ok listed
        obtain ⟨-, -, -, rfl⟩ := (Execution.listStale_eq_ok undisturbed).mp done
        have member := (List.mem_filter.mp (List.mem_mergeSort.mp stale)).1
        exact ⟨row, member, about.symm, named⟩
      · contradiction
  | _ => contradiction

theorem backs_apply (undisturbed : h.db.Undisturbed) (accounted : h.Accounted admitted answered)
    (traced : h.db.HasTraces) {operation : Operation}
    (step : .publish event ∈ operation.busSteps w h) : (operation.apply w h).db.Backs event := by
  refine ⟨?_, ?_⟩
  · have told : event ∈ operation.published w h := Operation.published_of_mem_busSteps step
    exact (operation.leads undisturbed).db.keeps (·.Traces event)
      (traces_of_published undisturbed accounted traced told)
      fun change _ _ _ traces => traces.apply change
  · -- The hub's own events are not numbered; a posted one is stored by what publishes it.
    intro numbered
    rw [events_apply undisturbed]
    rcases Operation.of_publish_mem_busSteps step with announced | posted
    · have synthetic := (Operation.control_of_announced announced).isSynthetic
      rw [synthetic] at numbered
      contradiction
    · exact List.mem_append_right _ (List.mem_map_of_mem posted)

theorem backs_run (undisturbed : h.db.Undisturbed) (accounted : h.Accounted admitted answered)
    (traced : h.db.HasTraces) (step : .publish event ∈ h.busSteps w operations) :
    (h.run w operations).db.Backs event := by
  induction operations generalizing h admitted answered with
  | nil => contradiction
  | cons operation operations ih =>
      have still := (operation.leads (w := w) undisturbed).undisturbed undisturbed
      rcases List.mem_append.mp step with now | later
      · exact (leads_run still).db.keeps (·.Backs event) (backs_apply undisturbed accounted traced now)
          fun change _ _ _ backs => backs.apply change
      · exact ih still (accounted.apply undisturbed operation)
          (traced_apply undisturbed traced operation) later

end Hub

/-- A list of the events after a cursor has all of them if it may be long enough. -/
theorem EventRow.listAfter_exists {execution : ExecutionId} {cursor : Int} {limit : Nat} {w : World}
    {m : Meter} {db : Database} (passed : w.refuses m.statements = none)
    (enough : (db.events.filter fun row => row.execution = execution && cursor < row.wire).length ≤
      min limit limitMax) :
    ∃ rows, listAfter execution cursor limit w m db = (m.afterStatement, .ok (rows, db)) ∧
      ∀ row ∈ db.events, row.execution = execution → cursor < row.wire → row ∈ rows := by
  refine ⟨_, listAfter_eq_ok.mpr ⟨passed, rfl, rfl, rfl⟩, ?_⟩
  intro row stored own above
  rw [List.take_of_length_le (by rwa [Database.perm_ascendingAfter.length_eq]),
    Database.perm_ascendingAfter.mem_iff, List.mem_filter]
  exact ⟨stored, by simp [own, above]⟩

namespace Hub

/-- The bus and the tables agree.  After every run, all that is in the ring of an execution is about
that execution and names the trace of its row, and what a worker has numbered is what the tables hold
under its number, with its time, its type and its payload.  So a reader that asks the tables for what
follows its cursor, and lets them give enough, gets all numbered events that the ring would have given
it. -/
theorem tables_back_the_bus (w : World) (limit ring queue : Nat) (operations : List Operation)
    (execution : ExecutionId) :
    let h := (create limit ring queue).run w operations
    (∀ event ∈ h.bus.ring execution,
      event.execution = execution ∧
      (∃ row, h.db.executions.find? (·.execution = execution) = some row ∧
        event.trace = some row.trace) ∧
      (event.sequence.isSynthetic = false → ∃ row,
        (h.db.events.find? fun row =>
          row.execution = execution && row.wire = event.sequence.toWire) = some row ∧
        row.timestamp = event.timestamp ∧ row.type = event.type ∧
        row.payloadText = event.payload.text)) ∧
    ∀ cursor most m, w.refuses m.statements = none →
      (h.db.events.filter fun row => row.execution = execution && cursor < row.wire).length ≤
        min most EventRow.limitMax →
      ∃ rows, EventRow.listAfter execution cursor most w m h.db = (m.afterStatement, .ok (rows, h.db)) ∧
        ∀ event ∈ h.bus.recent execution cursor, event.sequence.isSynthetic = false →
          .ofEvent event ∈ rows := by
  intro h
  have backed : h.bus.Carries fun execution event =>
      event.execution = execution ∧ h.db.Backs event := by
    refine carries_run fun event step => ⟨rfl, ?_⟩
    exact backs_run undisturbed_create (accounted_create limit ring queue)
      (fun _ absent => absurd absent List.not_mem_nil) step
  have exclusive : h.db.Exclusive := exclusive_run w limit ring queue operations
  have distinct : h.db.DistinctEvents := distinctEvents_run
  refine ⟨?_, ?_⟩
  · intro event member
    obtain ⟨rfl, ⟨row, present, own, named⟩, stored⟩ := backed.rings execution event member
    refine ⟨rfl, ⟨row, ?_, named⟩, ?_⟩
    · exact exclusive.find?_execution present (by simpa using own) (by simp [own])
    · intro numbered
      exact ⟨_, distinct.find?_event (stored numbered), rfl, rfl, rfl⟩
  · intro cursor most m passed enough
    obtain ⟨rows, listed, all⟩ := EventRow.listAfter_exists passed enough
    refine ⟨rows, listed, ?_⟩
    intro event member numbered
    obtain ⟨inRing, after⟩ := List.mem_filter.mp member
    obtain ⟨own, backs⟩ := backed.rings execution event inRing
    exact all _ (backs.stored numbered) own ((Sequence.isAfter_iff_follows.mp after).lt_toWire numbered)

end Hub

end Switchboard
