import Switchboard.Proofs.Hub.History
import Switchboard.Proofs.Hub.Recovery

/-!
Timeouts over a run.

A sweep recovers an execution only while it is executing, and what has ended does not execute again.
So of all sweeps of a run one at most recovers it: there is one audit row for it, if that could be
written, and one alarm in its stream.
-/

namespace Switchboard

theorem Change.isTerminal_onExecution {change : Change} {row : Execution}
    (terminal : row.state.isTerminal) : (change.onExecution row).state.isTerminal := by
  cases active : (change.onExecution row).isActive with
  | true =>
      have before : row.state.isActive := Change.isActive_of_onExecution active
      simp [ExecutionState.isTerminal, before] at terminal
  | false =>
      rw [Execution.isActive] at active
      simp [ExecutionState.isTerminal, active]

namespace Operation

variable (w : World) (h : Hub)

def recoveries : Operation → List Recovery
  | .sweep seconds nanos =>
    h.read.swept w ((w.clock h.meter.readings).before seconds nanos).text
  | _ => []

/-- The executions that an operation reports as recovered. -/
def recovered (operation : Operation) : List ExecutionId :=
  match operation.answer w h with
  | .swept (.ok report) => report.recovered
  | _ => []

/-- The events by which an operation tells of timeouts. -/
def alarms : Operation → List Event
  | .sweep seconds nanos => (Operation.sweep seconds nanos).published w h
  | _ => []

end Operation

def Database.timeoutAudits (execution : ExecutionId) (db : Database) : List AuditRow :=
  db.audits.filter fun entry =>
    entry.action = Hub.timeoutAction && entry.execution = execution

/-- What a run shows, operation by operation. -/
def Hub.collect {α : Type} (shown : World → Hub → Operation → List α) (w : World) :
    Hub → List Operation → List α
  | _, [] => []
  | h, operation :: operations =>
    shown w h operation ++ collect shown w (operation.apply w h) operations

namespace Event

/-- Where an event stands and what it says. -/
def label (event : Event) : ExecutionId × Int × String × Option Json :=
  (event.execution, event.sequence.toWire, event.type, event.errorCode)

/-- An error, then the end of the stream. -/
def timeoutLabels (execution : ExecutionId) : List (ExecutionId × Int × String × Option Json) :=
  [(execution, -1, EventType.error, some (.string ErrorCode.executionTimeout)),
    (execution, -2, EventType.done, none)]

end Event

namespace Recovery

variable {w : World} {r : Recovery} {recoveries : List Recovery}

/-- Audit rows are written for executions that have timed out. -/
theorem filterMap_audit :
    recoveries.filterMap (·.audit w) =
      (recoveries.filter (·.fate w = .timedOut)).flatMap fun r => (r.audit w).toList := by
  induction recoveries with
  | nil => rfl
  | cons r rest ih =>
      by_cases fate : r.fate w = .timedOut
      · rw [List.filter_cons_of_pos (by simpa using fate), List.flatMap_cons, ← ih,
          List.filterMap_cons]
        cases r.audit w <;> rfl
      · have unfiled : r.audit w = none := if_neg fate
        rw [List.filter_cons_of_neg (by simpa using fate), ← ih, List.filterMap_cons, unfiled]

theorem label_recoveryPosts :
    (r.hub.recoveryPosts w r.row).map Event.label =
      if r.fate w = .timedOut then Event.timeoutLabels r.row.execution else [] := by
  rw [recoveryPosts_eq]
  split
  · rfl
  · rfl

theorem label_posts :
    (recoveries.flatMap fun r => r.hub.recoveryPosts w r.row).map Event.label =
      (recovered w recoveries).flatMap Event.timeoutLabels := by
  induction recoveries with
  | nil => rfl
  | cons r rest ih =>
      rw [List.flatMap_cons, List.map_append, ih, label_recoveryPosts, recovered_cons,
        List.flatMap_append]
      congr 1
      split <;> simp

end Recovery

namespace Operation

variable {w : World} {h : Hub} {operation : Operation}

theorem recovered_eq (undisturbed : h.db.Undisturbed) :
    operation.recovered w h = Recovery.recovered w (operation.recoveries w h) := by
  cases operation with
  | sweep seconds nanos =>
      have answered : (Operation.sweep seconds nanos).answer w h = .swept (h.read.sweepBefore w
          ((w.clock h.meter.readings).before seconds nanos).text).1 := rfl
      rw [recovered, answered, recoveries]
      generalize ((w.clock h.meter.readings).before seconds nanos).text = cutoff
      have ready : h.read.db.Undisturbed := undisturbed
      by_cases passed : w.refuses h.read.meter.statements = none
      · obtain ⟨-, done⟩ := Hub.sweepBefore_of_passed cutoff ready passed
        rw [done, SweepReport.foldl_add]
        rfl
      · obtain ⟨nothing, e, failed⟩ := Hub.sweepBefore_of_refused cutoff passed
        rw [failed, nothing]
        rfl
  | listen move => cases move <;> rfl
  | _ => rfl

theorem alarms_eq (undisturbed : h.db.Undisturbed) :
    operation.alarms w h =
      (operation.recoveries w h).flatMap fun r => r.hub.recoveryPosts w r.row := by
  cases operation with
  | sweep seconds nanos =>
      rw [recoveries, alarms, published]
      generalize ((w.clock h.meter.readings).before seconds nanos).text = cutoff
      have ready : h.read.db.Undisturbed := undisturbed
      by_cases passed : w.refuses h.read.meter.statements = none
      · have listed := Hub.transact_listStale_of_passed cutoff ready passed
        rw [Hub.swept, listed]
        rw [Hub.read] at listed
        rw [listed]
        exact Hub.sweepPosts_eq
      · obtain ⟨e, failed⟩ := Hub.transact_listStale_of_refused cutoff passed
        rw [Hub.swept, failed]
        rw [Hub.read] at failed
        rw [failed]
        rfl
  | _ => rfl

theorem newAudits_of_makes {m m' : Meter} {change : Change}
    (others : ∀ seconds nanos, operation ≠ .sweep seconds nanos)
    (made : operation.Makes w m m' change) : change.newAudits = [] := by
  cases change with
  | addAudit row =>
      cases operation with
      | sweep seconds nanos => exact absurd rfl (others seconds nanos)
      | answerDispatch execution outcome => cases outcome <;> cases made
      | _ => cases made
  | _ => rfl

end Operation

/-- Whether tables show what has come of recoveries: all executions are still there, those that have
timed out have ended and did so once, and the audit rows are theirs. -/
structure Chronicle (w : World) (done : List Recovery) (db : Database) : Prop where
  recorded : ∀ r ∈ done, ∃ row ∈ db.executions, row.asAdmitted = r.row.asAdmitted ∧
    (r.fate w = .timedOut → row.state.isTerminal)
  once : (Recovery.recovered w done).Nodup
  audits : db.audits = done.filterMap (·.audit w)
  filed : ∀ r ∈ done, ∀ entry, r.audit w = some entry →
    ∃ audit at_, entry = { Hub.timeoutAudit r.row at_ with audit }

namespace Chronicle

variable {w : World} {done : List Recovery} {limit : Nat} {db db₁ : Database} {change : Change}
  {r : Recovery}

theorem apply (chronicle : Chronicle w done db) (silent : change.newAudits = []) :
    Chronicle w done (change.apply db) := by
  refine ⟨?_, chronicle.once, ?_, chronicle.filed⟩
  · intro r member
    obtain ⟨row, present, same, ended⟩ := chronicle.recorded r member
    refine ⟨change.onExecution row, Change.mem_executions_apply.mpr (.inl ⟨row, present, rfl⟩), ?_, ?_⟩
    · rw [Change.asAdmitted_onExecution, same]
    · exact fun fate => Change.isTerminal_onExecution (ended fate)
  · rw [Change.apply, silent, List.append_nil]
    exact chronicle.audits

theorem empty (w : World) : Chronicle w [] {} := by
  refine ⟨?_, List.nodup_nil, rfl, ?_⟩ <;> exact fun _ absent => absurd absent List.not_mem_nil

theorem not_recovered_of_executing (chronicle : Chronicle w done db) (exclusive : db.Exclusive)
    {row : Execution} (member : row ∈ db.executions) (executing : row.state = .executing) :
    row.execution ∉ Recovery.recovered w done := by
  intro before
  obtain ⟨r, among, fate, about⟩ := Recovery.mem_recovered.mp before
  obtain ⟨ended, present, same, terminal⟩ := chronicle.recorded r among
  have own := (Execution.execution_of_asAdmitted same).trans about
  obtain rfl := exclusive.execution_unique present member own
  have terminated := terminal fate
  rw [executing] at terminated
  contradiction

theorem extend (chronicle : Chronicle w done db) (executions : db₁.executions = db.executions)
    (audits : db₁.audits = db.audits ++ (r.audit w).toList)
    (recorded : ∃ row ∈ db.executions, row.asAdmitted = r.row.asAdmitted ∧
      (r.fate w = .timedOut → row.state.isTerminal))
    (fresh : r.fate w = .timedOut → r.row.execution ∉ Recovery.recovered w done)
    (filed : ∀ entry, r.audit w = some entry →
      ∃ audit at_, entry = { Hub.timeoutAudit r.row at_ with audit }) :
    Chronicle w (done ++ [r]) db₁ := by
  refine ⟨?_, ?_, ?_, ?_⟩
  · rw [executions]
    intro other member
    rcases List.mem_append.mp member with before | now
    · exact chronicle.recorded other before
    · cases List.mem_singleton.mp now
      exact recorded
  · rw [Recovery.recovered_append, Recovery.recovered_cons]
    split
    · rename_i fate
      exact chronicle.once.append (List.nodup_singleton _)
        (List.disjoint_singleton.mpr (fresh fate))
    · simpa [Recovery.recovered] using chronicle.once
  · rw [audits, chronicle.audits, List.filterMap_append]
    cases entry : r.audit w <;> simp [entry]
  · intro other member
    rcases List.mem_append.mp member with before | now
    · exact chronicle.filed other before
    · cases List.mem_singleton.mp now
      exact filed

theorem recover (chronicle : Chronicle w done r.hub.db) (undisturbed : r.hub.db.Undisturbed)
    (exclusive : r.hub.db.Exclusive)
    (present : ∃ row ∈ r.hub.db.executions, row.asAdmitted = r.row.asAdmitted) :
    Chronicle w (done ++ [r]) (r.after w).db := by
  obtain ⟨stored, member, same⟩ := present
  have own := Execution.execution_of_asAdmitted same
  cases r.course (w := w) undisturbed with
  | timedOut fate at_ freedAt told ended allowed db filed posts =>
      obtain ⟨silent, present, about, executing⟩ := allowed
      obtain rfl := exclusive.execution_unique present member (about.trans own.symm)
      have fresh := chronicle.not_recovered_of_executing exclusive member executing
      rw [own] at fresh
      have expired : Chronicle w done
          ((Change.timeOut r.row.execution at_ freedAt).apply r.hub.db) := chronicle.apply rfl
      refine expired.extend (by rw [db]) (by rw [db]) ?_ (fun _ => fresh) filed
      refine ⟨_, Change.mem_executions_apply.mpr (.inl ⟨silent, member, rfl⟩), ?_, ?_⟩
      · rw [Change.asAdmitted_onExecution, same]
      · intro _
        simp only [Change.onExecution, about, executing, and_self, if_true]
        rfl
  | movedOn fate db | failed fate db =>
      have alive : r.fate w ≠ .timedOut := by simp [fate]
      have unfiled : r.audit w = none := if_neg alive
      refine chronicle.extend (by rw [db]) (by simp [db, unfiled])
        ⟨stored, member, same, fun timedOut => absurd timedOut alive⟩
        (fun timedOut => absurd timedOut alive) ?_
      simp [unfiled]

theorem of_mem_audits (chronicle : Chronicle w done db) {entry : AuditRow}
    (member : entry ∈ db.audits) : ∃ r ∈ done, r.fate w = .timedOut ∧
      ∃ audit at_, entry = { Hub.timeoutAudit r.row at_ with audit } := by
  rw [chronicle.audits, List.mem_filterMap] at member
  obtain ⟨r, among, filed⟩ := member
  refine ⟨r, among, ?_, chronicle.filed r among entry filed⟩
  unfold Recovery.audit at filed
  split at filed
  · rename_i fate
    exact fate
  · contradiction

theorem timeoutAudits_eq (chronicle : Chronicle w done db) (execution : ExecutionId) :
    db.timeoutAudits execution = db.audits.filter (·.execution = execution) := by
  refine List.filter_congr fun entry member => ?_
  obtain ⟨r, -, -, _, _, rfl⟩ := chronicle.of_mem_audits member
  simp [Hub.timeoutAudit]

theorem timeoutAudits_of_unrecovered (chronicle : Chronicle w done db) {execution : ExecutionId}
    (spared : execution ∉ Recovery.recovered w done) : db.timeoutAudits execution = [] := by
  rw [chronicle.timeoutAudits_eq, List.filter_eq_nil_iff]
  intro entry member about
  obtain ⟨r, among, fate, _, _, rfl⟩ := chronicle.of_mem_audits member
  exact spared (Recovery.mem_recovered.mpr ⟨r, among, fate, of_decide_eq_true about⟩)

theorem timeoutAudits_of_recovered (chronicle : Chronicle w done db) (member : r ∈ done)
    (fate : r.fate w = .timedOut) :
    db.timeoutAudits r.row.execution = (r.file w).1.toOption.toList := by
  have written : r.audit w = (r.file w).1.toOption := if_pos fate
  have among : r ∈ done.filter (·.fate w = .timedOut) :=
    List.mem_filter.mpr ⟨member, decide_eq_true fate⟩
  rw [chronicle.timeoutAudits_eq, chronicle.audits, Recovery.filterMap_audit, ← written]
  refine filter_flatMap_of_distinct chronicle.once among fun other member' entry filed => ?_
  obtain ⟨_, _, rfl⟩ := chronicle.filed other (List.mem_of_mem_filter member') entry
    (Option.mem_toList.mp filed)
  rfl

end Chronicle

namespace Hub

variable {w : World} {h : Hub} {done : List Recovery} {rows : List Execution}

theorem chronicle_recovering (chronicle : Chronicle w done h.db) (undisturbed : h.db.Undisturbed)
    (exclusive : h.db.Exclusive)
    (present : ∀ row ∈ rows, ∃ stored ∈ h.db.executions, stored.asAdmitted = row.asAdmitted) :
    Chronicle w (done ++ h.recoveries w rows) (h.recovering w rows).db := by
  induction rows generalizing h done with
  | nil =>
      rw [recoveries, List.append_nil]
      exact chronicle
  | cons row rows ih =>
      obtain ⟨now, later⟩ := List.forall_mem_cons.mp present
      have first := (Recovery.mk h row).leads (w := w) undisturbed
      have begun : Chronicle w (done ++ [⟨h, row⟩]) ((Recovery.mk h row).after w).db :=
        chronicle.recover undisturbed exclusive now
      have all := ih begun (first.undisturbed undisturbed) (first.exclusive exclusive) ?_
      · rwa [List.append_assoc] at all
      · intro other among
        obtain ⟨stored, member, same⟩ := later other among
        obtain ⟨row', member', same'⟩ := first.db.extends.exists_execution member
        exact ⟨row', member', same'.trans same⟩

theorem chronicle_sweepBefore (chronicle : Chronicle w done h.db)
    (undisturbed : h.db.Undisturbed) (exclusive : h.db.Exclusive) (cutoff : String) :
    Chronicle w (done ++ h.swept w cutoff) (h.sweepBefore w cutoff).2.db := by
  by_cases passed : w.refuses h.meter.statements = none
  · obtain ⟨all, outcome⟩ := sweepBefore_of_passed cutoff undisturbed passed
    have listed : Chronicle w done h.listed.db := chronicle
    rw [outcome, all]
    refine chronicle_recovering listed undisturbed exclusive ?_
    intro row member
    exact ⟨row, (Database.mem_stale.mp member).1, rfl⟩
  · obtain ⟨nothing, e, failed⟩ := sweepBefore_of_refused cutoff passed
    rw [failed, nothing, List.append_nil]
    exact chronicle

theorem chronicle_apply (chronicle : Chronicle w done h.db) (undisturbed : h.db.Undisturbed)
    (exclusive : h.db.Exclusive) (operation : Operation) :
    Chronicle w (done ++ operation.recoveries w h) (operation.apply w h).db := by
  by_cases others : ∀ seconds nanos, operation ≠ .sweep seconds nanos
  · have nothing : operation.recoveries w h = [] := by
      cases operation with
      | sweep seconds nanos => exact absurd rfl (others seconds nanos)
      | _ => rfl
    rw [nothing, List.append_nil]
    exact (operation.leads undisturbed).db.keeps _ chronicle fun change db made _ chronicle =>
      chronicle.apply (Operation.newAudits_of_makes others made)
  · simp only [not_forall, not_not] at others
    obtain ⟨seconds, nanos, rfl⟩ := others
    have read : Chronicle w done h.read.db := chronicle
    exact chronicle_sweepBefore read undisturbed exclusive _

theorem chronicle_run {operations : List Operation} (chronicle : Chronicle w done h.db)
    (undisturbed : h.db.Undisturbed) (exclusive : h.db.Exclusive) :
    Chronicle w (done ++ h.collect Operation.recoveries w operations) (h.run w operations).db := by
  induction operations generalizing h done with
  | nil =>
      rw [collect, List.append_nil]
      exact chronicle
  | cons operation operations ih =>
      have first := operation.leads (w := w) undisturbed
      have all := ih (chronicle_apply chronicle undisturbed exclusive operation)
        (first.undisturbed undisturbed) (first.exclusive exclusive)
      rwa [List.append_assoc] at all

theorem recovered_collect {operations : List Operation} (undisturbed : h.db.Undisturbed) :
    h.collect Operation.recovered w operations =
      Recovery.recovered w (h.collect Operation.recoveries w operations) := by
  induction operations generalizing h with
  | nil => rfl
  | cons operation operations ih =>
      have first := operation.leads (w := w) undisturbed
      rw [collect, collect, Recovery.recovered_append, Operation.recovered_eq undisturbed,
        ih (first.undisturbed undisturbed)]

theorem label_alarms {operations : List Operation} (undisturbed : h.db.Undisturbed) :
    (h.collect Operation.alarms w operations).map Event.label =
      (h.collect Operation.recovered w operations).flatMap Event.timeoutLabels := by
  induction operations generalizing h with
  | nil => rfl
  | cons operation operations ih =>
      have first := operation.leads (w := w) undisturbed
      rw [collect, collect, List.map_append, List.flatMap_append, Operation.alarms_eq undisturbed,
        Recovery.label_posts, ← Operation.recovered_eq undisturbed,
        ih (first.undisturbed undisturbed)]

/-- Timeouts come once.  Over every run, whatever else is done between the sweeps, no execution is
reported as recovered twice.  There is at most one audit row about its timeout, and none if it was not
recovered; of one that was recovered there is the row that the recovery has written, if it could be
written, with the workspace, the project, the session and the trace of the execution.  The alarms of all
sweeps are, for each recovered execution in its turn, an error and behind it the end of the stream.
A sweep publishes its alarms and nothing else, and no other stream is touched. -/
theorem timeouts_come_once (w : World) (limit ring queue : Nat) (operations : List Operation) :
    let start := create limit ring queue
    let h := start.run w operations
    let recovered := start.collect Operation.recovered w operations
    recovered.Nodup ∧
    (∀ execution, (h.db.timeoutAudits execution).length ≤ 1 ∧
      (execution ∉ recovered → h.db.timeoutAudits execution = [])) ∧
    (∀ execution ∈ recovered, ∃ r ∈ start.collect Operation.recoveries w operations,
      r.fate w = .timedOut ∧ r.row.execution = execution ∧
      h.db.timeoutAudits execution = (r.file w).1.toOption.toList ∧
      ∃ row, h.db.executions.find? (·.execution = execution) = some row ∧
        ∀ entry ∈ h.db.timeoutAudits execution,
          entry.workspace = row.workspace ∧ entry.project = row.project ∧
            entry.session = row.session ∧ entry.trace = row.trace) ∧
    (start.collect Operation.alarms w operations).map Event.label =
      recovered.flatMap Event.timeoutLabels ∧
    ∀ seconds nanos,
      let sweep := Operation.sweep seconds nanos
      let after := sweep.apply w h
      after.bus = h.bus.publishAll (sweep.alarms w h) ∧
      ∀ execution ∉ sweep.recovered w h, after.bus.stream execution = h.bus.stream execution := by
  intro start h recovered
  have undisturbed : h.db.Undisturbed := undisturbed_run
  have exclusive : h.db.Exclusive := exclusive_run w limit ring queue operations
  have chronicle : Chronicle w (start.collect Operation.recoveries w operations) h.db :=
    chronicle_run (.empty w) undisturbed_create .empty
  have same : recovered =
      Recovery.recovered w (start.collect Operation.recoveries w operations) :=
    recovered_collect undisturbed_create
  have unrecovered : ∀ execution ∉ recovered, h.db.timeoutAudits execution = [] := by
    intro execution spared
    exact chronicle.timeoutAudits_of_unrecovered (same ▸ spared)
  refine ⟨same ▸ chronicle.once, ?_, ?_, label_alarms undisturbed_create, ?_⟩
  · intro execution
    refine ⟨?_, unrecovered execution⟩
    by_cases spared : execution ∈ recovered
    · rw [same] at spared
      obtain ⟨r, among, fate, rfl⟩ := Recovery.mem_recovered.mp spared
      rw [chronicle.timeoutAudits_of_recovered among fate]
      cases (r.file w).1.toOption <;> simp
    · simp [unrecovered execution spared]
  · intro execution member
    rw [same] at member
    obtain ⟨r, among, fate, rfl⟩ := Recovery.mem_recovered.mp member
    obtain ⟨row, present, own, -⟩ := chronicle.recorded r among
    have about := Execution.execution_of_asAdmitted own
    refine ⟨r, among, fate, rfl, chronicle.timeoutAudits_of_recovered among fate, row,
      exclusive.find?_execution present (by simp [about]) (by simp [about]), ?_⟩
    intro entry filed
    rw [chronicle.timeoutAudits_of_recovered among fate] at filed
    have written : r.audit w = (r.file w).1.toOption := if_pos fate
    obtain ⟨_, _, rfl⟩ :=
      chronicle.filed r among entry (written.trans (Option.mem_toList.mp filed))
    exact ⟨congrArg (·.workspace) own.symm, congrArg (·.project) own.symm,
      congrArg (·.session) own.symm, congrArg (·.trace) own.symm⟩
  · intro seconds nanos sweep after
    have published : after.bus = h.bus.publishAll (sweep.alarms w h) :=
      sweep.bus_apply fun move => by simp [sweep]
    refine ⟨published, ?_⟩
    intro execution spared
    rw [Operation.recovered_eq undisturbed] at spared
    rw [published, Operation.alarms_eq undisturbed]
    exact Bus.stream_publishAll_of_others fun event told about =>
      spared (about ▸ recovered_of_posts told)

end Hub

end Switchboard
