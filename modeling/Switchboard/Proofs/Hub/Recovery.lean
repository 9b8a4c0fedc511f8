import Switchboard.Proofs.Bus.Locality
import Switchboard.Proofs.Hub.Broadcast
import Switchboard.Proofs.Hub.Calm
import Switchboard.Proofs.Hub.Lapse

/-!
The recoveries of a sweep.

A sweep recovers one stale execution after the other, each on the tables that the recovery before it
has left.  A recovery that fails leaves nothing behind, and one that goes through concerns its own
execution only: its row, its session and its stream.  So what a sweep does is put together from its
recoveries, whichever of them fail.
-/

namespace Switchboard

open Transaction

/-- The events that tell of a timeout, each with its time. -/
def Execution.alarm (row : Execution) (told ended : String) : List Event :=
  [Event.error row.execution (some row.trace) ErrorCode.executionTimeout
      "execution timed out: no heartbeat within timeout" told,
    ⟨row.execution, some row.trace, .terminal, ended, EventType.done, Hub.timeoutPayload⟩]

/-- The hub once the time was read. -/
def Hub.read (h : Hub) : Hub := { h with meter := h.meter.afterReading }

/-- A recovery: the hub that it finds and the execution that it is for. -/
structure Recovery where
  hub : Hub
  row : Execution

namespace Recovery

inductive Fate where
  | timedOut
  | movedOn
  | failed
deriving Repr, DecidableEq

variable (w : World) (r : Recovery)

def expire : Except StoreError Bool × Hub :=
  r.hub.read.transact w (Hub.failSilent r.row.execution (w.now r.hub.meter))

def fate : Fate :=
  match (r.expire w).1 with
  | .ok true => .timedOut
  | .ok false => .movedOn
  | .error _ => .failed

/-- The audit row, if it can be written. -/
def file : Except StoreError AuditRow × Hub :=
  (r.expire w).2.transact w (AuditRow.record (Hub.timeoutAudit r.row (w.now r.hub.meter)))

/-- The audit row that is written. -/
def audit : Option AuditRow := if r.fate w = .timedOut then (r.file w).1.toOption else none

def after : Hub := (r.hub.recover w {} r.row).1

end Recovery

namespace Hub

variable (w : World)

def recoveries : Hub → List Execution → List Recovery
  | _, [] => []
  | h, row :: rows => ⟨h, row⟩ :: recoveries (Recovery.mk h row |>.after w) rows

def recovering (h : Hub) (rows : List Execution) : Hub :=
  rows.foldl (fun h row => (Recovery.mk h row).after w) h

end Hub

namespace Database

variable {cutoff : String} {db : Database} {row : Execution}

/-- The stale executions, oldest first. -/
def stale (cutoff : String) (db : Database) : List Execution :=
  (db.executions.filter (Execution.isStale cutoff)).mergeSort
    fun a b => !decide (b.createdAt < a.createdAt)

theorem mem_stale :
    row ∈ db.stale cutoff ↔ row ∈ db.executions ∧ row.state = .executing ∧
      (∀ at_, row.lastEventAt = some at_ → at_ < cutoff) ∧
      (∀ at_, row.startedAt = some at_ → at_ < cutoff) := by
  simp [stale, Execution.isStale, Option.all_eq_true, and_assoc]

theorem Exclusive.distinct_stale (exclusive : db.Exclusive) :
    ((db.stale cutoff).map (·.execution)).Nodup := by
  have sorted := (db.executions.filter (Execution.isStale cutoff)).mergeSort_perm
    fun a b => !decide (b.createdAt < a.createdAt)
  refine (sorted.map _).nodup_iff.mpr ?_
  exact exclusive.distinctExecutions.sublist (List.filter_sublist.map _)

theorem ascending_stale : (db.stale cutoff).Pairwise fun a b => a.createdAt ≤ b.createdAt := by
  have before_iff (a b : Execution) :
      (!decide (b.createdAt < a.createdAt)) = true ↔ a.createdAt ≤ b.createdAt := by
    rw [Bool.not_eq_true', decide_eq_false_iff_not, String.not_lt]
  have sorted : (db.stale cutoff).Pairwise fun a b => !decide (b.createdAt < a.createdAt) := by
    refine List.pairwise_mergeSort ?_ ?_ _
    · intro a b c
      rw [before_iff, before_iff, before_iff]
      exact String.le_trans
    · intro a b
      rw [Bool.or_eq_true, before_iff, before_iff]
      exact String.le_total _ _
  exact sorted.imp fun {a b} => (before_iff a b).mp

end Database

/-- What entries with different keys tell, taken apart again by key. -/
theorem filter_flatMap_of_distinct {α β κ : Type} [DecidableEq κ] {key : α → κ} {tag : β → κ}
    {tell : α → List β} {entries : List α} {a : α} (distinct : (entries.map key).Nodup)
    (member : a ∈ entries) (tagged : ∀ a ∈ entries, ∀ b ∈ tell a, tag b = key a) :
    (entries.flatMap tell).filter (tag · = key a) = tell a := by
  induction entries with
  | nil => contradiction
  | cons first rest ih =>
      rw [List.map_cons, List.nodup_cons] at distinct
      obtain ⟨own, others⟩ := List.forall_mem_cons.mp tagged
      rw [List.flatMap_cons, List.filter_append]
      rcases List.mem_cons.mp member with rfl | later
      · have mine : (tell a).filter (tag · = key a) = tell a := by
          rw [List.filter_eq_self]
          exact fun b told => decide_eq_true (own b told)
        have theirs : (rest.flatMap tell).filter (tag · = key a) = [] := by
          rw [List.filter_eq_nil_iff]
          intro b told same
          obtain ⟨c, among, told⟩ := List.mem_flatMap.mp told
          have equal : key c = key a := (others c among b told).symm.trans (of_decide_eq_true same)
          exact distinct.1 (equal ▸ List.mem_map_of_mem among)
        rw [mine, theirs, List.append_nil]
      · have none : (tell first).filter (tag · = key a) = [] := by
          rw [List.filter_eq_nil_iff]
          intro b told same
          have equal : key a = key first := (of_decide_eq_true same).symm.trans (own b told)
          exact distinct.1 (equal ▸ List.mem_map_of_mem later)
        rw [none, List.nil_append]
        exact ih distinct.2 later others

theorem Hub.before_transact {w : World} {h : Hub} {ε α : Type} {t : Transaction ε α}
    (composed : t.Composed) : h.meter.Before (h.transact w t).2.meter := by
  have before := composed.forward w h.meter h.db
  unfold transact
  rcases outcome : t w h.meter h.db with ⟨m, e | ⟨a, db⟩⟩ <;> rwa [outcome] at before

theorem Hub.Leads.exclusive {kind : Change → Prop} {h h' : Hub} (leads : Leads kind h h')
    (exclusive : h.db.Exclusive) : h'.db.Exclusive :=
  leads.db.keeps _ exclusive fun _ _ _ allowed exclusive => exclusive.apply allowed

theorem Hub.timeoutAudit_dated (row : Execution) (at_ createdAt : String) (audit : AuditId) :
    { timeoutAudit row at_ with audit, createdAt } = { timeoutAudit row createdAt with audit } :=
  rfl

theorem Hub.db_announceTimeout (w : World) (h : Hub) (row : Execution) :
    (h.announceTimeout w row).db = h.db := rfl

theorem Hub.meter_announceTimeout (w : World) (h : Hub) (row : Execution) :
    (h.announceTimeout w row).meter = h.meter.afterReading.afterReading := rfl

namespace Recovery

variable {w : World} {r : Recovery} {h : Hub}

theorem after_of_timedOut (outcome : r.expire w = (.ok true, h)) :
    r.after w = (r.file w).2.announceTimeout w r.row := by
  simp only [expire, Hub.read] at outcome
  simp only [after, file, expire, Hub.read, Hub.recover, outcome]

theorem after_of_movedOn (outcome : r.expire w = (.ok false, h)) : r.after w = h := by
  simp only [expire, Hub.read] at outcome
  simp only [after, Hub.recover, outcome]

theorem after_of_failed {e : StoreError} (outcome : r.expire w = (.error e, h)) :
    r.after w = h := by
  simp only [expire, Hub.read] at outcome
  simp only [after, Hub.recover, outcome]

theorem recoveryPosts_eq :
    r.hub.recoveryPosts w r.row =
      if r.fate w = .timedOut then (r.file w).2.timeoutPosts w r.row else [] := by
  have same : ({ r.hub with meter := r.hub.meter.afterReading } : Hub).transact w
      (Hub.failSilent r.row.execution (w.now r.hub.meter)) = r.expire w := rfl
  unfold Hub.recoveryPosts fate file
  rw [same]
  rcases r.expire w with ⟨e | _ | _, h⟩ <;> simp

theorem db_file (undisturbed : (r.expire w).2.db.Undisturbed) :
    (r.file w).2.db = { (r.expire w).2.db with
      audits := (r.expire w).2.db.audits ++ (r.file w).1.toOption.toList } := by
  rcases outcome : r.file w with ⟨e | entry, h⟩
  · obtain ⟨m, rfl⟩ := Hub.of_transact_eq_error outcome
    simp only [Except.toOption, Option.toList, List.append_nil]
  · obtain ⟨m, db, done, rfl⟩ := Hub.of_transact_eq_ok outcome
    obtain ⟨-, -, rfl⟩ := AuditRow.of_record_eq_ok undisturbed done
    rfl

theorem of_audit {entry : AuditRow} (undisturbed : (r.expire w).2.db.Undisturbed)
    (filed : r.audit w = some entry) :
    ∃ audit at_, entry = { Hub.timeoutAudit r.row at_ with audit } := by
  unfold audit at filed
  split at filed
  · rcases outcome : r.file w with ⟨e | stored, h⟩ <;> rw [outcome] at filed <;> cases filed
    obtain ⟨m, db, recorded, -⟩ := Hub.of_transact_eq_ok outcome
    refine ⟨entry.audit, entry.createdAt, ?_⟩
    rw [← Hub.timeoutAudit_dated r.row (w.now r.hub.meter)]
    exact (AuditRow.of_record_eq_ok undisturbed recorded).1
  · contradiction

theorem db_after_of_timedOut (outcome : r.expire w = (.ok true, h))
    (undisturbed : (r.expire w).2.db.Undisturbed) :
    (r.after w).db = { (r.expire w).2.db with
      audits := (r.expire w).2.db.audits ++ (r.audit w).toList } := by
  have fate : r.fate w = .timedOut := by simp only [fate, outcome]
  rw [after_of_timedOut outcome, Hub.db_announceTimeout, db_file undisturbed, audit, if_pos fate]

/-- What comes of a recovery. -/
inductive Course (w : World) (r : Recovery) : Prop where
  | timedOut (fate : r.fate w = .timedOut) (at_ freedAt told ended : String)
      (allowed : (Change.timeOut r.row.execution at_ freedAt).Allowed r.hub.limit r.hub.db)
      (db : (r.after w).db =
        let expired := (Change.timeOut r.row.execution at_ freedAt).apply r.hub.db
        { expired with audits := expired.audits ++ (r.audit w).toList })
      (filed : ∀ entry, r.audit w = some entry →
        ∃ audit at_, entry = { Hub.timeoutAudit r.row at_ with audit })
      (posts : r.hub.recoveryPosts w r.row = r.row.alarm told ended)
  | movedOn (fate : r.fate w = .movedOn) (db : (r.after w).db = r.hub.db)
      (posts : r.hub.recoveryPosts w r.row = [])
      (elsewhere : ∀ row ∈ r.hub.db.executions, row.execution = r.row.execution →
        row.state ≠ .executing)
  | failed (fate : r.fate w = .failed) (db : (r.after w).db = r.hub.db)
      (posts : r.hub.recoveryPosts w r.row = [])
      (refused : ¬ w.CalmBetween r.hub.meter (r.expire w).2.meter)

theorem course (undisturbed : r.hub.db.Undisturbed) : r.Course w := by
  rcases outcome : r.expire w with ⟨e | failed, h⟩
  · have fate : r.fate w = .failed := by simp only [fate, outcome]
    have posts : r.hub.recoveryPosts w r.row = [] := by
      rw [recoveryPosts_eq, fate]
      rfl
    have refused : ¬ w.CalmBetween r.hub.read.meter h.meter :=
      Hub.refused_of_transact_eq_error (Hub.composed_failSilent _ _)
        (fun _ calm => Hub.gives_failSilent calm undisturbed) outcome
    obtain ⟨m, same⟩ := Hub.of_transact_eq_error outcome
    refine .failed fate ?_ posts (by rwa [outcome])
    rw [after_of_failed outcome, same]
    rfl
  · obtain ⟨m, db, done, same⟩ := Hub.of_transact_eq_ok outcome
    have ended : (failed = true ∧ ∃ freedAt,
          (Change.timeOut r.row.execution (w.now r.hub.meter) freedAt).Allowed
            r.hub.limit r.hub.db ∧
          (Change.timeOut r.row.execution (w.now r.hub.meter) freedAt).apply r.hub.db = db) ∨
        (failed = false ∧ r.hub.db = db ∧
          ∀ row ∈ r.hub.db.executions, row.execution = r.row.execution → row.state ≠ .executing) :=
      Hub.of_failSilent undisturbed done
    have left : h.db = db := by rw [same]
    obtain ⟨rfl, freedAt, allowed, rfl⟩ | ⟨rfl, rfl, elsewhere⟩ := ended
    · have fate : r.fate w = .timedOut := by simp only [fate, outcome]
      have posts : r.hub.recoveryPosts w r.row = (r.file w).2.timeoutPosts w r.row := by
        rw [recoveryPosts_eq, if_pos fate]
      have expired : (r.expire w).2.db =
          (Change.timeOut r.row.execution (w.now r.hub.meter) freedAt).apply r.hub.db := by
        rw [outcome, left]
      have still : (r.expire w).2.db.Undisturbed := expired ▸ Change.undisturbed_apply undisturbed
      refine .timedOut fate _ freedAt _ _ allowed ?_ (fun _ => of_audit still) posts
      rw [db_after_of_timedOut outcome still, expired]
    · have fate : r.fate w = .movedOn := by simp only [fate, outcome]
      have posts : r.hub.recoveryPosts w r.row = [] := by
        rw [recoveryPosts_eq, fate]
        rfl
      exact .movedOn fate (by rw [after_of_movedOn outcome, left]) posts elsewhere

/-- A recovery fails exactly where a statement of its transaction is refused. -/
theorem failed_iff (undisturbed : r.hub.db.Undisturbed) :
    r.fate w = .failed ↔ ¬ w.CalmBetween r.hub.meter (r.expire w).2.meter := by
  rcases outcome : r.expire w with ⟨e | failed, h⟩
  · have fate : r.fate w = .failed := by simp only [fate, outcome]
    cases r.course (w := w) undisturbed with
    | timedOut fate' | movedOn fate' =>
        rw [fate] at fate'
        contradiction
    | failed _ _ _ refused =>
        rw [outcome] at refused
        exact iff_of_true fate refused
  · obtain ⟨m, db, done, rfl⟩ := Hub.of_transact_eq_ok outcome
    have alive : r.fate w ≠ .failed := by
      simp only [fate, outcome]
      cases failed <;> simp
    have calm : w.CalmBetween r.hub.read.meter m :=
      (Hub.composed_failSilent _ _).calmBetween done
    exact iff_of_false alive (not_not.mpr calm)

theorem leads (undisturbed : r.hub.db.Undisturbed) :
    Hub.Leads (fun _ => True) r.hub (r.after w) :=
  Hub.leads_recover undisturbed {} r.row (fun _ _ => trivial) fun _ _ => trivial

theorem before_after : (r.expire w).2.meter.Before (r.after w).meter := by
  rcases outcome : r.expire w with ⟨e | _ | _, h⟩
  · rw [after_of_failed outcome]
    exact .refl _
  · rw [after_of_movedOn outcome]
    exact .refl _
  · have filed : (r.expire w).2.meter.Before (r.file w).2.meter := by
      unfold file
      exact Hub.before_transact (AuditRow.composed_record _)
    rw [← outcome, after_of_timedOut outcome, Hub.meter_announceTimeout]
    exact filed.trans ((Meter.before_afterReading _).trans (Meter.before_afterReading _))

/-- The executions that recoveries have failed, in order. -/
def recovered (w : World) (recoveries : List Recovery) : List ExecutionId :=
  (recoveries.filter (·.fate w = .timedOut)).map (·.row.execution)

theorem recovered_cons (rest : List Recovery) :
    recovered w (r :: rest) =
      (if r.fate w = .timedOut then [r.row.execution] else []) ++ recovered w rest := by
  unfold recovered
  by_cases fate : r.fate w = .timedOut
  · rw [List.filter_cons_of_pos (by simpa using fate), if_pos fate]
    rfl
  · rw [List.filter_cons_of_neg (by simpa using fate), if_neg fate]
    rfl

theorem recovered_append (before later : List Recovery) :
    recovered w (before ++ later) = recovered w before ++ recovered w later := by
  simp only [recovered, List.filter_append, List.map_append]

theorem mem_recovered {execution : ExecutionId} {recoveries : List Recovery} :
    execution ∈ recovered w recoveries ↔
      ∃ r ∈ recoveries, r.fate w = .timedOut ∧ r.row.execution = execution := by
  simp [recovered, and_assoc]

theorem not_recovered_of_failed {recoveries : List Recovery}
    (distinct : (recoveries.map (·.row.execution)).Nodup) (member : r ∈ recoveries)
    (fate : r.fate w = .failed) : r.row.execution ∉ recovered w recoveries := by
  intro among
  obtain ⟨other, member', timedOut, about⟩ := mem_recovered.mp among
  obtain rfl := List.inj_on_of_nodup_map distinct member' member about
  rw [fate] at timedOut
  contradiction

theorem lapses (undisturbed : r.hub.db.Undisturbed) (exclusive : r.hub.db.Exclusive) :
    Database.Lapses (if r.fate w = .timedOut then [r.row.execution] else []) r.hub.db
        (r.after w).db ∧
      (r.after w).db.audits = r.hub.db.audits ++ (r.audit w).toList := by
  cases course (w := w) undisturbed with
  | timedOut fate at_ freedAt told ended allowed db =>
      obtain ⟨projects, sessions, executions, events⟩ := exclusive.lapses_timeOut allowed
      rw [db, if_pos fate]
      refine ⟨⟨projects, sessions, executions, events⟩, ?_⟩
      exact congrArg (· ++ _) (List.append_nil r.hub.db.audits)
  | movedOn fate db | failed fate db =>
      rw [db, audit, fate]
      exact ⟨.refl _, (List.append_nil _).symm⟩

end Recovery

namespace SweepReport

/-- The report with one more recovery. -/
def add (w : World) (report : SweepReport) (r : Recovery) : SweepReport :=
  match r.fate w with
  | .timedOut => { report with recovered := report.recovered ++ [r.row.execution] }
  | .movedOn => { report with skipped := report.skipped + 1 }
  | .failed => { report with errors := report.errors + 1 }

theorem foldl_add (w : World) (report : SweepReport) (recoveries : List Recovery) :
    recoveries.foldl (add w) report =
      { recovered := report.recovered ++ Recovery.recovered w recoveries
        skipped := report.skipped + recoveries.countP (·.fate w = .movedOn)
        errors := report.errors + recoveries.countP (·.fate w = .failed) } := by
  induction recoveries generalizing report with
  | nil => simp [Recovery.recovered]
  | cons r rest ih =>
      rw [List.foldl_cons, ih, Recovery.recovered_cons, List.countP_cons, List.countP_cons]
      cases fate : r.fate w <;> simp [add, fate] <;> omega

end SweepReport

namespace Hub

variable {w : World} {h : Hub} {rows : List Execution} {r : Recovery} {report : SweepReport}
  {execution : ExecutionId}

theorem recover_eq (row : Execution) :
    h.recover w report row = ((Recovery.mk h row).after w, report.add w ⟨h, row⟩) := by
  rcases outcome : (Recovery.mk h row).expire w with ⟨e | _ | _, after⟩
  all_goals
    have begun := outcome
    simp only [Recovery.expire, read] at begun
    simp only [recover, Recovery.after, SweepReport.add, Recovery.fate, outcome, begun]

theorem foldl_recover :
    rows.foldl (fun (h, report) row => h.recover w report row) (h, report) =
      (h.recovering w rows, (h.recoveries w rows).foldl (SweepReport.add w) report) := by
  induction rows generalizing h report with
  | nil => rfl
  | cons row rows ih =>
      rw [List.foldl_cons]
      exact (congrArg (List.foldl _ · rows) (recover_eq row)).trans ih

theorem map_row_recoveries (w : World) (h : Hub) (rows : List Execution) :
    (h.recoveries w rows).map (·.row) = rows := by
  induction rows generalizing h with
  | nil => rfl
  | cons row rows ih => exact congrArg (row :: ·) (ih _)

variable (w rows) in
theorem leads_recoveries (undisturbed : h.db.Undisturbed) :
    Leads (fun _ => True) h (h.recovering w rows) ∧
      ∀ r ∈ h.recoveries w rows, Leads (fun _ => True) h r.hub ∧
        Leads (fun _ => True) (r.after w) (h.recovering w rows) := by
  induction rows generalizing h with
  | nil => exact ⟨.refl h, fun _ absent => absurd absent List.not_mem_nil⟩
  | cons row rows ih =>
      have first := (Recovery.mk h row).leads (w := w) undisturbed
      obtain ⟨all, each⟩ := ih (first.undisturbed undisturbed)
      refine ⟨first.trans all, ?_⟩
      intro r member
      rcases List.mem_cons.mp member with rfl | later
      · exact ⟨.refl h, all⟩
      · obtain ⟨before, rest⟩ := each r later
        exact ⟨first.trans before, rest⟩

variable (w rows) in
theorem lapses_recovering (undisturbed : h.db.Undisturbed) (exclusive : h.db.Exclusive) :
    Database.Lapses (Recovery.recovered w (h.recoveries w rows)) h.db (h.recovering w rows).db ∧
      (h.recovering w rows).db.audits =
        h.db.audits ++ (h.recoveries w rows).filterMap (·.audit w) := by
  induction rows generalizing h with
  | nil => exact ⟨.refl _, (List.append_nil _).symm⟩
  | cons row rows ih =>
      have first := (Recovery.mk h row).leads (w := w) undisturbed
      obtain ⟨lapses, filed⟩ := (Recovery.mk h row).lapses (w := w) undisturbed exclusive
      obtain ⟨lapses', filed'⟩ := ih (first.undisturbed undisturbed) (first.exclusive exclusive)
      refine ⟨?_, ?_⟩
      · rw [recoveries, Recovery.recovered_cons]
        exact lapses.trans lapses'
      · rw [recoveries, List.filterMap_cons]
        refine filed'.trans ?_
        rw [filed, List.append_assoc]
        cases (Recovery.mk h row).audit w <;> rfl

/-- Where every execution is executing and comes once, none has moved on when its turn comes. -/
theorem fate_ne_movedOn (undisturbed : h.db.Undisturbed) (exclusive : h.db.Exclusive)
    (distinct : (rows.map (·.execution)).Nodup)
    (executing : ∀ row ∈ rows, ∃ stored ∈ h.db.executions,
      stored.execution = row.execution ∧ stored.state = .executing) :
    ∀ r ∈ h.recoveries w rows, r.fate w ≠ .movedOn := by
  induction rows generalizing h with
  | nil => exact fun _ absent => absurd absent List.not_mem_nil
  | cons row rows ih =>
      rw [List.map_cons, List.nodup_cons] at distinct
      obtain ⟨now, later⟩ := List.forall_mem_cons.mp executing
      have first := (Recovery.mk h row).leads (w := w) undisturbed
      obtain ⟨lapses, -⟩ := (Recovery.mk h row).lapses (w := w) undisturbed exclusive
      refine List.forall_mem_cons.mpr ⟨?_, ?_⟩
      · cases (Recovery.mk h row).course (w := w) undisturbed with
        | timedOut fate | failed fate => simp [fate]
        | movedOn _ _ _ elsewhere =>
            obtain ⟨stored, present, about, silent⟩ := now
            exact absurd silent (elsewhere stored present about)
      · -- this recovery fails its own execution only, so the later ones are still executing
        refine ih (first.undisturbed undisturbed) (first.exclusive exclusive) distinct.2 ?_
        intro other among
        obtain ⟨stored, present, about, silent⟩ := later other among
        refine ⟨stored, lapses.mem_of_spared present ?_, about, silent⟩
        have apart : stored.execution ≠ row.execution := by
          intro same
          exact distinct.1 (same ▸ about ▸ List.mem_map_of_mem among)
        split
        · simpa using apart
        · exact List.not_mem_nil

theorem sweepPosts_eq :
    h.sweepPosts w rows = (h.recoveries w rows).flatMap fun r => r.hub.recoveryPosts w r.row := by
  induction rows generalizing h with
  | nil => rfl
  | cons row rows ih => exact congrArg (h.recoveryPosts w row ++ ·) ih

theorem bus_recovered :
    (h.recovering w rows).bus = h.bus.publishAll (h.sweepPosts w rows) := by
  have published := bus_recovering (w := w) (h := h) {} rows
  rwa [foldl_recover] at published

/-- In the stream of an execution there are the events of its own recovery. -/
theorem stream_recovering (distinct : (rows.map (·.execution)).Nodup)
    (member : r ∈ h.recoveries w rows) :
    (h.recovering w rows).bus.stream r.row.execution =
      (h.bus.publishAll (r.hub.recoveryPosts w r.row)).stream r.row.execution := by
  have own (r : Recovery) : ∀ event ∈ r.hub.recoveryPosts w r.row,
      event.execution = r.row.execution :=
    fun event told => (of_recoveryPosts told).2.1
  have once : ((h.recoveries w rows).map (·.row.execution)).Nodup := by
    rwa [← map_row_recoveries w h rows, List.map_map] at distinct
  have told : (h.sweepPosts w rows).filter (·.execution = r.row.execution) =
      r.hub.recoveryPosts w r.row := by
    rw [sweepPosts_eq]
    exact filter_flatMap_of_distinct once member fun r _ => own r
  rw [bus_recovered]
  refine Bus.stream_publishAll_of_filter (told.trans (Eq.symm ?_))
  rw [List.filter_eq_self]
  exact fun event member => decide_eq_true (own r event member)

theorem recovered_of_posts {recoveries : List Recovery} {event : Event}
    (told : event ∈ recoveries.flatMap fun r => r.hub.recoveryPosts w r.row) :
    event.execution ∈ Recovery.recovered w recoveries := by
  obtain ⟨r, member, told⟩ := List.mem_flatMap.mp told
  obtain ⟨-, own, -⟩ := of_recoveryPosts told
  rw [Recovery.recoveryPosts_eq] at told
  split at told
  · rename_i fate
    exact Recovery.mem_recovered.mpr ⟨r, member, fate, own.symm⟩
  · contradiction

theorem stream_of_unrecovered
    (spared : execution ∉ Recovery.recovered w (h.recoveries w rows)) :
    (h.recovering w rows).bus.stream execution = h.bus.stream execution := by
  rw [bus_recovered, sweepPosts_eq]
  exact Bus.stream_publishAll_of_others fun event told about =>
    spared (about ▸ recovered_of_posts told)

variable (cutoff : String)

/-- The hub once the stale executions were listed. -/
def listed (h : Hub) : Hub := { h with meter := h.meter.afterStatement }

def swept (w : World) (cutoff : String) (h : Hub) : List Recovery :=
  match (h.transact w (Execution.listStale cutoff)).1 with
  | .ok rows => h.listed.recoveries w rows
  | .error _ => []

theorem transact_listStale_of_passed (undisturbed : h.db.Undisturbed)
    (passed : w.refuses h.meter.statements = none) :
    h.transact w (Execution.listStale cutoff) = (.ok (h.db.stale cutoff), h.listed) := by
  have done : Execution.listStale cutoff w h.meter h.db =
      (h.meter.afterStatement, .ok (h.db.stale cutoff, h.db)) :=
    (Execution.listStale_eq_ok undisturbed).mpr ⟨passed, rfl, rfl, rfl⟩
  simp only [transact, done, listed]

theorem transact_listStale_of_refused (refused : w.refuses h.meter.statements ≠ none) :
    ∃ e, h.transact w (Execution.listStale cutoff) = (.error e, h.listed) := by
  obtain ⟨refusal, refused⟩ := Option.ne_none_iff_exists'.mp refused
  simp [transact, Execution.listStale, query, perform, bind_apply, refused, listed]

theorem sweepBefore_of_passed (undisturbed : h.db.Undisturbed)
    (passed : w.refuses h.meter.statements = none) :
    h.swept w cutoff = h.listed.recoveries w (h.db.stale cutoff) ∧
      h.sweepBefore w cutoff = (.ok ((h.swept w cutoff).foldl (SweepReport.add w) {}),
        h.listed.recovering w (h.db.stale cutoff)) := by
  have all : h.swept w cutoff = h.listed.recoveries w (h.db.stale cutoff) := by
    rw [swept, transact_listStale_of_passed cutoff undisturbed passed]
  refine ⟨all, ?_⟩
  rw [sweepBefore, transact_listStale_of_passed cutoff undisturbed passed, all]
  simp only [foldl_recover]

theorem sweepBefore_of_refused (refused : w.refuses h.meter.statements ≠ none) :
    h.swept w cutoff = [] ∧ ∃ e, h.sweepBefore w cutoff = (.error (.store e), h.listed) := by
  obtain ⟨e, failed⟩ := transact_listStale_of_refused cutoff refused
  refine ⟨by rw [swept, failed], e, ?_⟩
  rw [sweepBefore, failed]

end Hub

end Switchboard
