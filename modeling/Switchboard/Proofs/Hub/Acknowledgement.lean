import Switchboard.Proofs.Hub.Agreement

/-!
The moment of an acknowledgement.

That a worker took an assignment may become known at any moment after the admission: before the first
events of the worker or after them, after the execution was cancelled, after it has ended.  Until then
the execution is pending where it would be executing, which no caller is told and nothing but the start
of the execution remembers.
-/

namespace Switchboard

open Transaction

theorem Change.state_of_onExecution_pending {change : Change} {row : Execution} {limit : Nat}
    {db : Database} (allowed : change.Allowed limit db)
    (pending : (change.onExecution row).state = .pending) : row.state = .pending := by
  cases change with
  | start execution at_ | cancel execution at_ freedAt | timeOut execution at_ freedAt =>
      simp only [onExecution] at pending
      split at pending
      · cases pending
      · exact pending
  | finish execution state at_ freedAt =>
      simp only [onExecution] at pending
      split at pending
      · have same : state = .pending := pending
        subst same
        cases allowed
      · exact pending
  | take event at_ =>
      simp only [onExecution] at pending
      split at pending
      · rw [Execution.state_heard] at pending
        split at pending
        · cases pending
        · exact pending
      · exact pending
  | _ => exact pending

/-- Whether an execution has been started or has ended already. -/
structure Database.Underway (execution : ExecutionId) (db : Database) : Prop where
  present : ∃ row ∈ db.executions, row.execution = execution
  begun : ∀ row ∈ db.executions, row.execution = execution → row.state ≠ .pending

namespace Database

variable {execution : ExecutionId} {limit : Nat} {kind : Change → Prop} {db db' : Database}
  {change : Change}

theorem Underway.apply (underway : db.Underway execution) (allowed : change.Allowed limit db) :
    (change.apply db).Underway execution := by
  refine ⟨Change.exists_execution_apply underway.present, fun row member meant pending => ?_⟩
  rcases Change.mem_executions_apply.mp member with ⟨stored, present, rfl⟩ | new
  · rw [Change.execution_onExecution] at meant
    exact underway.begun stored present meant
      (Change.state_of_onExecution_pending allowed pending)
  · -- A new execution is another one.
    cases change with
    | enter request session root other trace createdAt heldAt =>
        obtain ⟨-, -, -, -, fresh, -⟩ := allowed
        obtain ⟨stored, present, key⟩ := underway.present
        rw [Change.newExecutions, List.mem_singleton] at new
        subst new
        exact fresh stored present (key.trans meant.symm)
    | _ => cases new

theorem begun_start {at_ : String} :
    ∀ row ∈ ((Change.start execution at_).apply db).executions, row.execution = execution →
      row.state ≠ .pending := by
  intro row member meant
  rcases Change.mem_executions_apply.mp member with ⟨stored, -, rfl⟩ | new
  · rw [Change.execution_onExecution] at meant
    simp only [Change.onExecution, meant, true_and]
    split
    · exact ExecutionState.noConfusion
    · assumption
  · cases new

end Database

section

variable {L : Leeway} {db db' : Database} {at_ : String}

/-- Where a pending execution is shown as executing, its start is no news. -/
theorem Database.shown_start (ahead : L.ahead) :
    ((Change.start L.moved at_).apply db).shown L = db.shown L := by
  have same (row : Execution) : ((Change.start L.moved at_).onExecution row).shown L = row.shown L := by
    simp only [Change.onExecution]
    split
    · rename_i hit
      simp [Execution.shown, Execution.started, ahead, hit.1, hit.2]
    · rfl
  simp only [Database.shown, Change.apply_start, List.map_map, Function.comp_def, same]

/-- Of an execution that has begun every leeway shows the state. -/
theorem Database.shown_of_begun (ahead : Bool)
    (begun : ∀ row ∈ db.executions, row.execution = L.moved → row.state ≠ .pending) :
    db.shown { L with ahead } = db.shown L := by
  have same : ∀ row ∈ db.executions, row.shown { L with ahead } = row.shown L := by
    intro row member
    have other : ¬ (row.execution = L.moved ∧ row.state = .pending) :=
      fun pending => begun row member pending.1 pending.2
    simp only [Execution.shown, other, and_false]
    rfl
  have rows : db.executions.map (Execution.shown { L with ahead }) =
      db.executions.map (Execution.shown L) := List.map_congr_left same
  simp only [Database.shown, rows]
  rfl

/-- A run that was ahead shows the same as the other one after that has caught up. -/
theorem Database.Alike.caughtUp (alike : db.Alike { L with ahead := true } db')
    (underway : db.Underway L.moved) : db.Alike L ((Change.start L.moved at_).apply db') := by
  refine ⟨?_, alike.undisturbed⟩
  calc db.shown L
    _ = db.shown { L with ahead := true } := (shown_of_begun true underway.begun).symm
    _ = db'.shown { L with ahead := true } := alike.shown
    _ = ((Change.start L.moved at_).apply db').shown { L with ahead := true } :=
      (shown_start (L := { L with ahead := true }) rfl).symm
    _ = ((Change.start L.moved at_).apply db').shown L := shown_of_begun true begun_start

end

namespace Call

variable {h : Hub} {call : Call} {execution : ExecutionId} {a : Assignment}

/-- Whether a call's first statement is carried out. -/
def goesThrough (call : Call) : Bool := (call.world.refuses call.meter.statements).isNone

/-- An acknowledgement takes its assignment away and starts the execution, unless that is refused. -/
theorem apply_acknowledge (acknowledges : call.operation = .answerDispatch execution (.ok ()))
    (found : h.outstanding.find? (·.execution == execution) = some a)
    (undisturbed : h.db.Undisturbed) :
    (call.apply h).limit = h.limit ∧ (call.apply h).bus = h.bus ∧
      (call.apply h).outstanding = h.outstanding.filter (·.execution != execution) ∧
      (call.apply h).db =
        if call.goesThrough then (Change.start execution (call.world.now call.meter)).apply h.db
        else h.db := by
  obtain rfl : a.execution = execution := by simpa using List.find?_some found
  simp only [apply, acknowledges, Operation.apply, Hub.answerDispatch, Hub.takeOutstanding, found,
    Option.map_some, Option.getD_some, Hub.afterDispatch, Hub.transact, now_bind]
  cases refused : call.world.refuses call.meter.statements with
  | some refusal =>
      simp only [Execution.markExecuting, Execution.updateOne, bind_apply, perform,
        Meter.statements_afterReading, goesThrough, refused]
      exact ⟨trivial, trivial, trivial, rfl⟩
  | none =>
      have done : Execution.markExecuting a.execution (call.world.now call.meter) call.world
          call.meter.afterReading h.db = (_, .ok (_, _)) :=
        (Execution.updateOne_eq_ok undisturbed).mpr ⟨refused, rfl, rfl, rfl⟩
      simp only [done, goesThrough, refused]
      exact ⟨trivial, trivial, trivial, (Hub.of_markExecuting undisturbed done).symm⟩

theorem outcome_acknowledge (acknowledges : call.operation = .answerDispatch execution (.ok ())) :
    call.outcome h = ⟨.dispatched (h.outstanding.find? (·.execution == execution)), []⟩ := by
  rw [outcome, acknowledges, Operation.answer_answerDispatch]
  rfl

end Call

section

variable {L : Leeway} {h h' : Hub} {call : Call} {a : Assignment}

/-- After the acknowledgement one hub is ahead of the other, if the acknowledgement went through. -/
theorem Call.alike_acknowledge
    (acknowledges : call.operation = .answerDispatch L.moved (.ok ()))
    (found : h.outstanding.find? (·.execution == L.moved) = some a)
    (undisturbed : h.db.Undisturbed) :
    (call.apply h).Alike { L with ahead := call.goesThrough } (some a) h := by
  obtain ⟨limit, -, outstanding, db⟩ := call.apply_acknowledge acknowledges found undisturbed
  have about : a.execution = L.moved := by simpa using List.find?_some found
  refine ⟨limit, ⟨?_, call.undisturbed_apply undisturbed⟩, ?_⟩
  · rw [db]
    cases through : call.goesThrough with
    | true => exact Database.shown_start (L := { L with ahead := true }) rfl
    | false => rfl
  · rw [outstanding, ← about]
    exact .of_find? (about ▸ found)

/-- After the other hub has had it too they are level. -/
theorem Call.alike_acknowledge_late (level : L.ahead = false)
    (acknowledges : call.operation = .answerDispatch L.moved (.ok ()))
    (alike : h.Alike { L with ahead := call.goesThrough } (some a) h')
    (about : a.execution = L.moved)
    (underway : call.goesThrough → h.db.Underway L.moved) :
    h.Alike L none (call.apply h') := by
  have found := alike.outstanding.waits a rfl
  rw [about] at found
  obtain ⟨limit, -, outstanding, db⟩ := call.apply_acknowledge acknowledges found alike.db.other
  refine ⟨alike.limit.trans limit.symm, ?_, ?_⟩
  · rw [db]
    cases through : call.goesThrough with
    | true =>
        rw [through] at alike
        exact alike.db.caughtUp (underway through)
    | false =>
        rw [through, ← level] at alike
        exact alike.db
  · rw [Hub.AllBut.none_iff, outstanding, alike.outstanding.mine, ← about]
    simp only [Option.all_some, bne_comm]

end

namespace Hub

/-- Calls before a late acknowledgement do the same as those after an early one, and after both the
hubs are level. -/
theorem carryOut_late {L : Leeway} {h : Hub} {a : Assignment} {ack ack' : Call}
    {between between' : List Call} (level : L.ahead = false) (undisturbed : h.db.Undisturbed)
    (found : h.outstanding.find? (·.execution == L.moved) = some a)
    (recorded : ∃ row ∈ h.db.executions, row.execution = L.moved)
    (acknowledges : ack.operation = .answerDispatch L.moved (.ok ()))
    (passes : ∀ call ∈ between, call.operation.Passes (some a))
    (undated : ∀ call ∈ between, ∀ key ∈ call.operation.undated, key ∈ L.undated)
    (same : ack.Similar L.clocks ack')
    (similar : List.Forall₂ (Call.Similar L.clocks) between between') :
    let early := (ack.apply h).carryOut between
    let late := ack'.apply (h.carryOut between')
    early.Alike L none late ∧ early.bus.shown L = late.bus.shown L ∧
      ((ack.apply h).outcomes between).map (Outcome.shown L) =
        (h.outcomes between').map (Outcome.shown L) ∧
      ack'.outcome (h.carryOut between') = ack.outcome h := by
  intro early late
  obtain ⟨-, bus, -, db⟩ := ack.apply_acknowledge acknowledges found undisturbed
  have about : a.execution = L.moved := by simpa using List.find?_some found
  have known : ∃ row ∈ (ack.apply h).db.executions, row.execution = L.moved :=
    (ack.becomes undisturbed).keeps (fun db => ∃ row ∈ db.executions, row.execution = L.moved)
      recorded fun _ _ _ _ => Change.exists_execution_apply
  -- Up to the late acknowledgement the other hub is ahead.
  obtain ⟨alike, buses, seen⟩ := carryOut_agrees (L := { L with ahead := ack.goesThrough }) similar
    (ack.alike_acknowledge acknowledges found undisturbed) (fun _ => ⟨a, rfl, about⟩)
    (fun b member => Option.some.inj member ▸ about ▸ known) (by rw [bus]) passes undated
  have underway : ack.goesThrough → early.db.Underway L.moved := by
    intro through
    have begun : (ack.apply h).db.Underway L.moved := by
      refine ⟨known, ?_⟩
      rw [db, if_pos through]
      exact Database.begun_start
    exact keeps_carryOut _ (ack.undisturbed_apply undisturbed) begun
      (fun _ _ _ allowed underway => underway.apply allowed) between
  -- From then on they are level.
  have through : ack'.goesThrough = ack.goesThrough := by
    rw [Call.goesThrough, Call.goesThrough, same.meter, same.refuses]
  have acknowledges' : ack'.operation = .answerDispatch L.moved (.ok ()) :=
    same.operation.trans acknowledges
  have found' := alike.outstanding.waits a rfl
  rw [about] at found'
  obtain ⟨-, bus', -, -⟩ := ack'.apply_acknowledge acknowledges' found' alike.db.other
  rw [← through] at alike underway
  refine ⟨ack'.alike_acknowledge_late level acknowledges' alike about underway, ?_, seen, ?_⟩
  · rw [bus']
    exact buses
  · rw [Call.outcome_acknowledge acknowledges, Call.outcome_acknowledge acknowledges', found, found']

/-- An acknowledgement may come late.  Two runs make the same calls, none of them a sweep, but that an
execution whose assignment waits is acknowledged before some of the calls in one run and after them in
the other.  Then each call is answered alike and publishes alike in both runs, and at the end the
tables, the bus and the waiting assignments are the same.  Put aside are only the start of that
execution and, if the clocks of the runs differ, what was stamped by them. -/
theorem acknowledgement_may_come_late (limit ring queue : Nat) (clocks : Bool)
    (execution : ExecutionId) (before : List Call) {between between' later later' : List Call}
    {ack ack' : Call}
    (waits : ∃ a ∈ ((create limit ring queue).carryOut before).outstanding, a.execution = execution)
    (acknowledges : ack.operation = .answerDispatch execution (.ok ()))
    (once : ∀ call ∈ between, ∀ outcome, call.operation ≠ .answerDispatch execution outcome)
    (unswept : ∀ call ∈ between ++ later, ∀ seconds nanos, call.operation ≠ .sweep seconds nanos)
    (same : ack.Similar clocks ack') (sameBetween : List.Forall₂ (Call.Similar clocks) between between')
    (sameLater : List.Forall₂ (Call.Similar clocks) later later') :
    let h := (create limit ring queue).carryOut before
    let L : Leeway :=
      { clocks
        undated := (between ++ later).flatMap (·.operation.undated)
        moved := execution
        ahead := false }
    let early := ack :: between ++ later
    let late := between' ++ ack' :: later'
    (∃ acknowledged meanwhile afterwards, meanwhile.length = between.length ∧
        (h.outcomes early).map (Outcome.shown L) = acknowledged :: meanwhile ++ afterwards ∧
        (h.outcomes late).map (Outcome.shown L) = meanwhile ++ acknowledged :: afterwards) ∧
      (h.carryOut early).db.shown L = (h.carryOut late).db.shown L ∧
      (h.carryOut early).bus.shown L = (h.carryOut late).bus.shown L ∧
      (h.carryOut early).outstanding = (h.carryOut late).outstanding := by
  intro h L early late
  have undisturbed : h.db.Undisturbed := undisturbed_carryOut undisturbed_create before
  obtain ⟨admitted, answered, accounted⟩ :=
    accounted_carryOut (accounted_create limit ring queue) undisturbed_create before
  obtain ⟨a, found⟩ : ∃ a, h.outstanding.find? (·.execution == execution) = some a := by
    obtain ⟨a, member, about⟩ := waits
    exact Option.isSome_iff_exists.mp (List.find?_isSome.mpr ⟨a, member, by simpa using about⟩)
  have about : a.execution = execution := by simpa using List.find?_some found
  have recorded : ∃ row ∈ h.db.executions, row.execution = execution := by
    obtain ⟨row, member, describes⟩ :=
      accounted.recorded a (List.mem_append_right _ (List.mem_of_find?_eq_some found))
    exact ⟨row, member, describes.execution.symm.trans about⟩
  have listed : ∀ call ∈ between ++ later, ∀ key ∈ call.operation.undated, key ∈ L.undated :=
    fun call member key undated => List.mem_flatMap.mpr ⟨call, member, undated⟩
  have passes : ∀ call ∈ between, call.operation.Passes (some a) := by
    intro call member
    refine Operation.passes_of_unanswered (unswept call (List.mem_append_left _ member)) ?_
    intro b waiting
    cases waiting
    rw [about]
    exact once call member
  obtain ⟨level, buses, meanwhile, told⟩ := carryOut_late (L := L) rfl undisturbed found recorded
    acknowledges passes (fun call member => listed call (List.mem_append_left _ member)) same
    sameBetween
  obtain ⟨left, heard, afterwards⟩ := carryOut_agrees (L := L) sameLater level (by simp [L]) (by simp)
    buses
    (fun call member => Operation.passes_of_unanswered
      (unswept call (List.mem_append_right _ member)) (by simp))
    (fun call member => listed call (List.mem_append_right _ member))
  have early_left : h.carryOut early = ((ack.apply h).carryOut between).carryOut later :=
    carryOut_append (ack :: between) later
  have late_left : h.carryOut late = (ack'.apply (h.carryOut between')).carryOut later' :=
    carryOut_append between' (ack' :: later')
  have early_seen : h.outcomes early = ack.outcome h :: (ack.apply h).outcomes between ++
      ((ack.apply h).carryOut between).outcomes later := outcomes_append (ack :: between) later
  have late_seen : h.outcomes late = h.outcomes between' ++ ack'.outcome (h.carryOut between') ::
      (ack'.apply (h.carryOut between')).outcomes later' := outcomes_append between' (ack' :: later')
  refine ⟨⟨(ack.outcome h).shown L, ((ack.apply h).outcomes between).map (Outcome.shown L),
    (((ack.apply h).carryOut between).outcomes later).map (Outcome.shown L), ?_, ?_, ?_⟩, ?_⟩
  · rw [List.length_map, length_outcomes]
  · rw [early_seen, List.map_append, List.map_cons]
  · rw [late_seen, List.map_append, List.map_cons, told, meanwhile, afterwards]
  · rw [early_left, late_left]
    exact ⟨left.db.shown, heard, AllBut.none_iff.mp left.outstanding⟩

/-- A session whose only execution has just been admitted. -/
private def admittedCalls : List Call :=
  [⟨.plain, .createSession ⟨some "session", "ws", "p", none, none, false, none, none, none, "user"⟩, {}⟩,
    ⟨.plain, .execute ⟨"ws", "session", "hello", "user"⟩, {}⟩]

private def cancelled : Call := ⟨.plain, .cancel "ws" "exec_", {}⟩

private def acknowledged : Call := ⟨.plain, .answerDispatch "exec_" (.ok ()), {}⟩

/-- A cancellation may overtake the acknowledgement; the execution has then never started, and nothing
else is different. -/
theorem cancellation_overtakes_acknowledgement :
    let h := (create 0 8 8).carryOut admittedCalls
    let early := h.carryOut [acknowledged, cancelled]
    let late := h.carryOut [cancelled, acknowledged]
    early.db.executions.map (·.startedAt.isSome) = [true] ∧
      late.db.executions.map (·.startedAt.isSome) = [false] ∧
      early.db.shown ⟨true, [], "exec_", false⟩ = late.db.shown ⟨true, [], "exec_", false⟩ ∧
      early.bus.shown ⟨true, [], "exec_", false⟩ = late.bus.shown ⟨true, [], "exec_", false⟩ := by
  intro h early late
  have similar (call : Call) : call.Similar true call := ⟨rfl, rfl, rfl, rfl, fun _ => rfl⟩
  have crossed : List.Forall₂ (Call.Similar true) [cancelled] [cancelled] :=
    .cons (similar cancelled) .nil
  have waits : ∃ a ∈ h.outstanding, a.execution = "exec_" := ⟨_, .head _, rfl⟩
  obtain ⟨-, tables, bus, -⟩ := acknowledgement_may_come_late 0 8 8 true "exec_" admittedCalls waits
    rfl (by simp [cancelled]) (by simp [cancelled]) (similar acknowledged) crossed .nil
  have dated : ([cancelled] ++ []).flatMap (fun call : Call => call.operation.undated) = [] := rfl
  rw [dated] at tables bus
  exact ⟨rfl, rfl, tables, bus⟩

end Hub

end Switchboard
