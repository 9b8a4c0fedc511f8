import Switchboard.Proofs.Bus.Run
import Switchboard.Proofs.Hub.Commit
import Switchboard.Proofs.Hub.Composed

/-!
Runs of a hub.

A run is any sequence of operations with any arguments, in a world that may refuse any statement.
Main statement: an operation changes the tables by changes of its own kind, each of them allowed when
its turn comes, so whatever allowed changes keep holds after every run.
-/

namespace Switchboard

inductive Operation where
  | createProject (new : NewProject)
  | createSession (new : NewSession)
  | execute (request : ExecuteRequest)
  /-- A worker answers an assignment; nothing if none is waiting. -/
  | answerDispatch (execution : ExecutionId) (outcome : Except DispatchError Unit)
  | cancel (workspace : WorkspaceId) (execution : ExecutionId)
  | complete (execution : ExecutionId) (reported : String)
  | ingest (execution : ExecutionId) (events : List WorkerEvent)
  | decide (execution : ExecutionId) (call answer : String) (user : UserId)
  /-- With a silence of seconds and nanoseconds. -/
  | sweep (seconds nanos : Nat)
  | listen (move : Bus.Move)

namespace Operation

variable (w : World) (h : Hub)

def apply : Operation → Hub
  | .createProject new => (h.transact w (ProjectRow.create new)).2
  | .createSession new => (h.transact w (Session.create new)).2
  | .execute request => (h.execute w request).2
  | .answerDispatch execution outcome =>
    ((h.answerDispatch w execution outcome).map Prod.snd).getD h
  | .cancel workspace execution => (h.cancel w workspace execution).2
  | .complete execution reported => (h.complete w execution reported).2
  | .ingest execution events => (h.ingest w execution events).2
  | .decide execution call answer user => (h.decide w execution call answer user).2
  | .sweep seconds nanos => (h.sweepWithin w seconds nanos).2
  | .listen move => { h with bus := move.apply h.bus }

/-- The changes of an operation's own kind; `m` and `m'` are what was used of the world before it and
after it. -/
def Makes (m m' : Meter) : Operation → Change → Prop
  | .createProject _, .addProject _ => True
  | .createSession _, .addSession _ => True
  | .execute request, .enter request' _ _ execution trace _ _ =>
    request' = request ∧ execution = w.fresh m .execution ∧ trace = w.fresh m.afterMint .trace ∧
      m.minted + 2 = m'.minted
  | .answerDispatch execution (.ok ()), .start execution' _ => execution' = execution
  | .answerDispatch execution (.error _), .finish execution' state _ _ =>
    execution' = execution ∧ state = .failed
  | .cancel _ execution, .cancel execution' _ _ => execution' = execution
  | .complete execution _, .finish execution' _ _ _ => execution' = execution
  | .ingest execution _, .take event _ => event.execution = execution
  | .ingest execution _, .finish execution' _ _ _ => execution' = execution
  | .decide execution _ _ _, .resume execution' _ => execution' = execution
  | .sweep _ _, .timeOut _ _ _ => True
  | .sweep _ _, .addAudit row => row.action = Hub.timeoutAction
  | _, _ => False

end Operation

namespace Hub

variable {w : World} {h h₁ h₂ : Hub} {kind kind' : Change → Prop} {ε α : Type}
  {execution : ExecutionId}

def run (w : World) (h : Hub) (operations : List Operation) : Hub :=
  operations.foldl (fun h operation => operation.apply w h) h

/-- Whether a hub is left by another one that made changes of a kind. -/
structure Leads (kind : Change → Prop) (h h' : Hub) : Prop where
  limit : h'.limit = h.limit
  meter : h.meter.Before h'.meter
  db : h.db.Becomes h.limit kind h'.db

namespace Leads

theorem refl (h : Hub) : Leads kind h h := ⟨rfl, .refl _, .refl _⟩

theorem trans (first : Leads kind h h₁) (second : Leads kind h₁ h₂) : Leads kind h h₂ :=
  ⟨second.limit.trans first.limit, first.meter.trans second.meter,
    first.db.trans (first.limit ▸ second.db)⟩

theorem mono (leads : Leads kind h h₁) (weaker : ∀ change, kind change → kind' change) :
    Leads kind' h h₁ :=
  ⟨leads.limit, leads.meter, leads.db.mono weaker⟩

theorem undisturbed (leads : Leads kind h h₁) (start : h.db.Undisturbed) : h₁.db.Undisturbed :=
  leads.db.undisturbed start

end Leads

theorem leads_announce (event : String → Event) : Leads kind h (h.announce w event) :=
  ⟨rfl, h.meter.before_afterReading, .refl _⟩

theorem leads_forward (d : Decision) : Leads kind h (h.forward d) := ⟨rfl, .refl _, .refl _⟩

/-- A transaction uses the world and changes the database.  It leaves everything else as it was. -/
theorem transact_eq (t : Transaction ε α) :
    (h.transact w t).2 =
      { h with meter := (h.transact w t).2.meter, db := (h.transact w t).2.db } := by
  unfold transact
  split <;> rfl

theorem leads_transact {t : Transaction ε α} (composed : t.Composed)
    (committed : ∀ {m a db}, t w h.meter h.db = (m, .ok (a, db)) → h.db.Becomes h.limit kind db) :
    Leads kind h (h.transact w t).2 := by
  have before := composed.forward w h.meter h.db
  unfold transact
  rcases outcome : t w h.meter h.db with ⟨m, e | ⟨a, db⟩⟩ <;> rw [outcome] at before
  · exact ⟨rfl, before, .refl _⟩
  · exact ⟨rfl, before, committed outcome⟩

theorem leads_createProject (new : NewProject) (made : ∀ row, kind (.addProject row)) :
    Leads kind h (h.transact w (ProjectRow.create new)).2 := by
  refine leads_transact (ProjectRow.composed_create new) fun done => ?_
  obtain ⟨allowed, rfl⟩ := ProjectRow.of_create done
  exact .single _ (made _) allowed

theorem leads_createSession (new : NewSession) (made : ∀ row, kind (.addSession row)) :
    Leads kind h (h.transact w (Session.create new)).2 := by
  refine leads_transact (Session.composed_create new) fun done => ?_
  obtain ⟨allowed, rfl⟩ := Session.of_create done
  exact .single _ (made _) allowed

theorem leads_execute (undisturbed : h.db.Undisturbed) (request : ExecuteRequest) :
    Leads ((Operation.execute request).Makes w h.meter (h.execute w request).2.meter) h
      (h.execute w request).2 := by
  have before := (composed_admission h.limit request).forward w h.meter h.db
  unfold execute transact
  rcases outcome : admission h.limit request w h.meter h.db with ⟨m, e | ⟨a, db⟩⟩ <;>
    rw [outcome] at before
  · exact ⟨rfl, before, .refl _⟩
  · obtain ⟨_, _, _, _, _, used, allowed, rfl⟩ := of_admission undisturbed outcome
    exact ⟨rfl, before, .single _ ⟨rfl, rfl, rfl, used⟩ allowed⟩

theorem leads_afterDispatch (undisturbed : h.db.Undisturbed) (a : Assignment)
    (outcome : Except DispatchError Unit) (m m' : Meter) :
    Leads ((Operation.answerDispatch a.execution outcome).Makes w m m') h
      (h.afterDispatch w a outcome) := by
  unfold afterDispatch
  rcases outcome with e | _
  · refine (leads_transact (composed_compensate _) fun done => ?_).trans (leads_announce _)
    obtain ⟨_, _, rfl⟩ := of_compensate undisturbed done
    exact .single (.finish a.execution .failed _ _) ⟨rfl, rfl⟩ rfl
  · refine leads_transact (.bind .now fun _ => Execution.composed_updateOne _ _ _)
      fun done => ?_
    rw [Transaction.now_bind] at done
    rw [← of_markExecuting undisturbed done]
    exact .single (.start a.execution _) rfl trivial

theorem leads_answerDispatch (undisturbed : h.db.Undisturbed) (execution : ExecutionId)
    (outcome : Except DispatchError Unit) (m m' : Meter) :
    Leads ((Operation.answerDispatch execution outcome).Makes w m m') h
      (((h.answerDispatch w execution outcome).map Prod.snd).getD h) := by
  unfold answerDispatch takeOutstanding
  cases found : h.outstanding.find? (·.execution == execution) with
  | none => exact .refl h
  | some a =>
      have same : a.execution = execution := by simpa using List.find?_some found
      subst same
      obtain ⟨limit, meter, db⟩ := leads_afterDispatch (w := w)
        (h := { h with outstanding := h.outstanding.filter (·.execution != a.execution) })
        undisturbed a outcome m m'
      exact ⟨limit, meter, db⟩

theorem leads_cancel (undisturbed : h.db.Undisturbed) (workspace : WorkspaceId)
    (made : ∀ at_ freedAt, kind (.cancel execution at_ freedAt)) :
    Leads kind h (h.cancel w workspace execution).2 := by
  have leads : Leads kind h (h.transact w (cancelRow workspace execution)).2 := by
    refine leads_transact (composed_cancelRow _ _) fun done => ?_
    obtain ⟨found, at_, freedAt, rfl⟩ := of_cancelRow undisturbed done
    have same := List.find?_some found
    simp only [Bool.and_eq_true, decide_eq_true_eq] at same
    exact .single _ (made at_ freedAt) ⟨_, List.mem_of_find?_eq_some found, same.1⟩
  unfold cancel
  rcases outcome : h.transact w (cancelRow workspace execution) with ⟨e | row, after⟩ <;>
    simp only [outcome] at leads ⊢
  · exact leads
  · exact leads.trans (leads_announce _)

theorem isTerminal_of_terminalState {reported : String} {state : ExecutionState}
    (accepted : terminalState reported = .ok state) : state.isTerminal := by
  unfold terminalState at accepted
  split at accepted
  · cases accepted
    rfl
  · split at accepted
    · contradiction
    · split at accepted
      · rename_i terminal
        cases accepted
        exact terminal
      · contradiction

theorem terminalState_name {state : ExecutionState} (terminal : state.isTerminal) :
    terminalState state.name = .ok state := by
  have named : state.name ≠ "" := by cases state <;> decide
  simp only [terminalState, if_neg named, ExecutionState.ofName_name, terminal, if_true]

theorem leads_complete (undisturbed : h.db.Undisturbed) (reported : String)
    (made : ∀ state at_ freedAt, kind (.finish execution state at_ freedAt)) :
    Leads kind h (h.complete w execution reported).2 := by
  unfold complete
  split
  · exact .refl h
  · rename_i state accepted
    refine leads_transact (composed_completeRow _ _) fun done => ?_
    obtain ⟨_, at_, freedAt, rfl⟩ := of_completeRow undisturbed done
    exact .single _ (made _ _ _) (isTerminal_of_terminalState accepted)

theorem leads_conclude (undisturbed : h.db.Undisturbed) (reported : String)
    (made : ∀ state at_ freedAt, kind (.finish execution state at_ freedAt)) :
    Leads kind h (h.conclude w execution reported).2 := by
  have first := leads_complete (w := w) undisturbed reported made
  unfold conclude
  split
  · rename_i refused
    rw [refused] at first
    exact first.trans (leads_complete (first.undisturbed undisturbed) _ made)
  · exact first

theorem leads_takeBatch (undisturbed : h.db.Undisturbed) (events : List WorkerEvent)
    (taken : ∀ event at_, event.execution = execution → kind (.take event at_)) :
    Leads kind h (h.transact w (takeBatch execution events)).2 := by
  refine leads_transact (composed_takeBatch _ _) fun done => ?_
  obtain ⟨row, taken', found, posted, _, rfl⟩ := of_takeBatch undisturbed done
  have about := execution_of_posted posted
  exact becomes_applyTaken (Database.exists_of_find?_execution found) about
    fun event member => taken _ _ (about event member)

theorem leads_ingest (undisturbed : h.db.Undisturbed) (events : List WorkerEvent)
    (taken : ∀ event at_, event.execution = execution → kind (.take event at_))
    (made : ∀ state at_ freedAt, kind (.finish execution state at_ freedAt)) :
    Leads kind h (h.ingest w execution events).2 := by
  have first := leads_takeBatch (w := w) undisturbed events taken
  unfold ingest
  rcases outcome : h.transact w (takeBatch execution events) with ⟨e | batch, after⟩ <;>
    rw [outcome] at first
  · exact first
  · have published : Leads kind h { after with bus := after.bus.publishAll batch.fresh } :=
      ⟨first.limit, first.meter, first.db⟩
    cases ending : batch.outcome with
    | none => simpa only [ending] using published
    | some reported =>
        have concluded := published.trans
          (leads_conclude (w := w) (published.undisturbed undisturbed) reported made)
        simp only [ending]
        split <;> rename_i same <;> rw [same] at concluded <;> exact concluded

theorem leads_decide (undisturbed : h.db.Undisturbed) (call answer : String) (user : UserId)
    (made : ∀ at_, kind (.resume execution at_)) :
    Leads kind h (h.decide w execution call answer user).2 := by
  have leads : Leads kind h (h.transact w (resume execution)).2 := by
    refine leads_transact (composed_resume _) fun done => ?_
    obtain ⟨_, at_, rfl⟩ := of_resume undisturbed done
    exact .single _ (made at_) trivial
  unfold Hub.decide
  split
  · exact .refl h
  · rcases outcome : h.transact w (resume execution) with ⟨e | trace, after⟩ <;>
      simp only [outcome] at leads ⊢
    · exact leads
    · exact (leads.trans (leads_forward _)).trans (leads_announce _)

theorem leads_recover (undisturbed : h.db.Undisturbed) (report : SweepReport) (row : Execution)
    (failed : ∀ at_ freedAt, kind (.timeOut row.execution at_ freedAt))
    (recorded : ∀ row : AuditRow, row.action = timeoutAction → kind (.addAudit row)) :
    Leads kind h (h.recover w report row).1 := by
  have read : Leads kind h { h with meter := h.meter.afterReading } :=
    ⟨rfl, h.meter.before_afterReading, .refl _⟩
  have first : Leads kind h
      ({ h with meter := h.meter.afterReading }.transact w
        (failSilent row.execution (w.now h.meter))).2 := by
    refine read.trans (leads_transact (composed_failSilent _ _) fun done => ?_)
    obtain ⟨-, freedAt, allowed, rfl⟩ | ⟨-, rfl, -⟩ := of_failSilent undisturbed done
    · exact .single _ (failed _ _) allowed
    · exact .refl _
  unfold recover
  rcases outcome : { h with meter := h.meter.afterReading }.transact w
      (failSilent row.execution (w.now h.meter)) with ⟨e | _ | _, after⟩ <;>
    simp only [outcome] at first ⊢
  · exact first
  · exact first
  · refine (first.trans (leads_transact (AuditRow.composed_record _) fun done => ?_)).trans
      ((leads_announce _).trans (leads_announce _))
    obtain ⟨same, fresh, rfl⟩ := AuditRow.of_record_eq_ok (first.undisturbed undisturbed) done
    rw [← Change.apply_addAudit]
    refine .single _ (recorded _ ?_) fresh
    rw [same]
    rfl

theorem leads_recovering (undisturbed : h.db.Undisturbed) (report : SweepReport)
    (rows : List Execution) (failed : ∀ execution at_ freedAt, kind (.timeOut execution at_ freedAt))
    (recorded : ∀ row : AuditRow, row.action = timeoutAction → kind (.addAudit row)) :
    Leads kind h (rows.foldl (fun (h, report) row => h.recover w report row) (h, report)).1 := by
  induction rows generalizing h report with
  | nil => exact .refl h
  | cons row rows ih =>
      have first := leads_recover (w := w) undisturbed report row (failed row.execution) recorded
      exact first.trans (ih (first.undisturbed undisturbed) _)

theorem leads_sweepWithin (undisturbed : h.db.Undisturbed) (seconds nanos : Nat)
    (failed : ∀ execution at_ freedAt, kind (.timeOut execution at_ freedAt))
    (recorded : ∀ row : AuditRow, row.action = timeoutAction → kind (.addAudit row)) :
    Leads kind h (h.sweepWithin w seconds nanos).2 := by
  have read : Leads kind h { h with meter := h.meter.afterReading } :=
    ⟨rfl, h.meter.before_afterReading, .refl _⟩
  unfold sweepWithin sweepBefore
  generalize ((w.clock h.meter.readings).before seconds nanos).text = cutoff
  have first : Leads kind h
      ({ h with meter := h.meter.afterReading }.transact w (Execution.listStale cutoff)).2 := by
    refine read.trans (leads_transact (.bind (.query _) fun _ => .pure _) fun done => ?_)
    obtain ⟨_, _, rfl, _⟩ := (Execution.listStale_eq_ok undisturbed).mp done
    exact .refl _
  rcases outcome : { h with meter := h.meter.afterReading }.transact w
      (Execution.listStale cutoff) with ⟨e | rows, after⟩ <;> simp only [outcome] at first ⊢
  · exact first
  · exact first.trans (leads_recovering (first.undisturbed undisturbed) _ rows failed recorded)

end Hub

/-- An operation makes changes of its own kind. -/
theorem Operation.leads {w : World} {h : Hub} (undisturbed : h.db.Undisturbed)
    (operation : Operation) :
    h.Leads (operation.Makes w h.meter (operation.apply w h).meter) (operation.apply w h) := by
  cases operation with
  | createProject new => exact Hub.leads_createProject new fun _ => trivial
  | createSession new => exact Hub.leads_createSession new fun _ => trivial
  | execute request => exact Hub.leads_execute undisturbed request
  | answerDispatch execution outcome =>
      exact Hub.leads_answerDispatch undisturbed execution outcome _ _
  | cancel workspace execution => exact Hub.leads_cancel undisturbed workspace fun _ _ => rfl
  | complete execution reported => exact Hub.leads_complete undisturbed reported fun _ _ _ => rfl
  | ingest execution events =>
      exact Hub.leads_ingest undisturbed events (fun _ _ about => about) fun _ _ _ => rfl
  | decide execution call answer user =>
      exact Hub.leads_decide undisturbed call answer user fun _ => rfl
  | sweep seconds nanos =>
      exact Hub.leads_sweepWithin undisturbed seconds nanos (fun _ _ _ => trivial)
        fun _ named => named
  | listen move => exact ⟨rfl, .refl _, .refl _⟩

namespace Hub

variable {w : World} {h : Hub} {operations : List Operation} {limit ring queue : Nat}

theorem run_append (first second : List Operation) :
    h.run w (first ++ second) = (h.run w first).run w second :=
  List.foldl_append

theorem leads_run (undisturbed : h.db.Undisturbed) :
    Leads (fun _ => True) h (h.run w operations) := by
  induction operations generalizing h with
  | nil => exact .refl h
  | cons operation operations ih =>
      have first := operation.leads (w := w) undisturbed
      exact (first.mono fun _ _ => trivial).trans (ih (first.undisturbed undisturbed))

theorem undisturbed_create : (create limit ring queue).db.Undisturbed := ⟨rfl, rfl⟩

theorem undisturbed_run : ((create limit ring queue).run w operations).db.Undisturbed :=
  (leads_run undisturbed_create).undisturbed undisturbed_create

theorem limit_run : ((create limit ring queue).run w operations).limit = limit :=
  (leads_run undisturbed_create).limit

/-- What holds of empty tables and is kept by allowed changes holds after every run. -/
theorem holds_run {Kept : Database → Prop} (start : Kept {})
    (step : ∀ (change : Change) db, change.Allowed limit db → Kept db → Kept (change.apply db)) :
    Kept ((create limit ring queue).run w operations).db :=
  (leads_run undisturbed_create).db.keeps _ start fun change db _ => step change db

end Hub

namespace World

/-- A world whose clock stands, whose unique texts differ in length and where no statement fails. -/
def plain : World where
  clock _ := ⟨0, 0⟩
  unique n := String.ofList (List.replicate n 'a')
  refuses _ := none

theorem injective_plain : Function.Injective plain.unique := by
  intro m n same
  simpa [plain] using congrArg String.length same

theorem calmFrom_plain {m : Meter} : plain.CalmFrom m := fun _ _ => rfl

end World

end Switchboard
