import Mathlib.Data.Finset.Card
import Switchboard.Proofs.Hub.Timeout

/-!
What a sweep comes to.

The stale executions are listed once and recovered in turn, so the list could be out of date when the
turn of an execution comes.  It is not: a recovery touches no other execution, and each of them holds
a session of its own.  So a sweep recovers the stale executions, all of them or all but those whose
recovery fails, and the next sweep finds those that are left.
-/

namespace Switchboard

theorem World.CalmBetween.within {w : World} {m m₁ m₂ m' : Meter} (calm : w.CalmBetween m m')
    (from_ : m.Before m₁) (until_ : m₂.Before m') : w.CalmBetween m₁ m₂ :=
  fun n after before => calm n (Nat.le_trans from_.statements after)
    (Nat.lt_of_lt_of_le before until_.statements)

namespace Database

variable {cutoff : String} {db db₁ : Database} {gone : List ExecutionId} {row : Execution}

/-- Whether rows are the stale executions of tables, each once and the oldest first. -/
structure StaleRows (cutoff : String) (db : Database) (rows : List Execution) : Prop where
  mem_iff : ∀ row, row ∈ rows ↔ row ∈ db.executions ∧ row.state = .executing ∧
    (∀ at_, row.lastEventAt = some at_ → at_ < cutoff) ∧
    (∀ at_, row.startedAt = some at_ → at_ < cutoff)
  distinct : (rows.map (·.execution)).Nodup
  ascending : rows.Pairwise fun a b => a.createdAt ≤ b.createdAt

theorem Exclusive.staleRows (exclusive : db.Exclusive) (cutoff : String) :
    db.StaleRows cutoff (db.stale cutoff) :=
  ⟨fun _ => mem_stale, exclusive.distinct_stale, ascending_stale⟩

theorem Exclusive.holds_of_executing (exclusive : db.Exclusive) (member : row ∈ db.executions)
    (executing : row.state = .executing) :
    ∃ session ∈ db.sessions, session.session = row.session ∧
      session.active = some row.execution := by
  have active : row.isActive := by
    rw [Execution.isActive, executing]
    rfl
  exact exclusive.holds row member active

/-- Rows that are already in order are listed as they are stored. -/
theorem stale_of_ascending
    (ascending : (db.executions.filter (Execution.isStale cutoff)).Pairwise
      fun a b => !decide (b.createdAt < a.createdAt)) :
    db.stale cutoff = db.executions.filter (Execution.isStale cutoff) :=
  List.mergeSort_of_pairwise ascending

namespace Lapses

/-- What has timed out is no longer stale, and the others are as stale as before. -/
theorem mem_stale_iff (lapses : Lapses gone db db₁) :
    row ∈ db₁.stale cutoff ↔ row ∈ db.stale cutoff ∧ row.execution ∉ gone := by
  rw [mem_stale, mem_stale]
  constructor
  · intro stale
    obtain ⟨member, executing, silent⟩ := stale
    rcases lapses.of_mem member with ⟨present, spared⟩ | ⟨-, stored, -, at_, rfl⟩
    · exact ⟨⟨present, executing, silent⟩, spared⟩
    · contradiction
  · intro stale
    obtain ⟨⟨member, executing, silent⟩, spared⟩ := stale
    exact ⟨lapses.mem_of_spared member spared, executing, silent⟩

end Lapses

end Database

namespace Hub

variable {w : World} {h after : Hub} {row : Execution} {gone : List ExecutionId} {cutoff : String}

/-- Whether an execution has failed between two states of a hub, with its session freed and its
subscribers told. -/
structure Expires (h : Hub) (row : Execution) (after : Hub) : Prop where
  failed : ∃ at_, after.db.executions.find? (·.execution = row.execution) = some (row.timedOut at_)
  freed : ∃ session at_, h.db.sessions.find? (·.session = row.session) = some session ∧
    session.active = some row.execution ∧
    after.db.sessions.find? (·.session = row.session) = some (session.freed at_)
  told : ∃ told ended, after.bus.stream row.execution =
    (h.bus.publishAll (row.alarm told ended)).stream row.execution

/-- Whether an execution, its session and its stream are the same in two states of a hub. -/
structure Leaves (h : Hub) (row : Execution) (after : Hub) : Prop where
  execution : after.db.executions.find? (·.execution = row.execution) = some row
  session : ∃ session, h.db.sessions.find? (·.session = row.session) = some session ∧
    session.active = some row.execution ∧
    after.db.sessions.find? (·.session = row.session) = some session
  stream : after.bus.stream row.execution = h.bus.stream row.execution

theorem expires_of_gone (lapses : h.db.Lapses gone after.db) (exclusive : h.db.Exclusive)
    (exclusive' : after.db.Exclusive) (member : row ∈ h.db.executions)
    (executing : row.state = .executing) (among : row.execution ∈ gone)
    (told : ∃ told ended, after.bus.stream row.execution =
      (h.bus.publishAll (row.alarm told ended)).stream row.execution) :
    h.Expires row after := by
  obtain ⟨at_, failed⟩ := lapses.mem_of_gone member among
  obtain ⟨session, present, own, holds⟩ := exclusive.holds_of_executing member executing
  obtain ⟨freedAt, freed⟩ := lapses.mem_sessions_of_gone present among holds
  refine ⟨⟨at_, ?_⟩, ⟨session, freedAt, ?_, holds, ?_⟩, told⟩
  · exact exclusive'.find?_execution failed (by simp [Execution.timedOut])
      (by simp [Execution.timedOut])
  · exact find?_of_mem exclusive.distinctSessions present (by simp [own]) (by simp [own])
  · exact find?_of_mem exclusive'.distinctSessions freed (by simp [Session.freed, own])
      (by simp [Session.freed, own])

theorem leaves_of_spared (lapses : h.db.Lapses gone after.db) (exclusive : h.db.Exclusive)
    (exclusive' : after.db.Exclusive) (member : row ∈ h.db.executions)
    (executing : row.state = .executing) (spared : row.execution ∉ gone)
    (stream : after.bus.stream row.execution = h.bus.stream row.execution) :
    h.Leaves row after := by
  have still := lapses.mem_of_spared member spared
  obtain ⟨session, present, own, holds⟩ := exclusive.holds_of_executing member executing
  have kept : session ∈ after.db.sessions := by
    refine lapses.mem_sessions_of_spared present ?_
    intro other among holds'
    rw [holds] at holds'
    exact spared (Option.some.inj holds' ▸ among)
  refine ⟨?_, ⟨session, ?_, holds, ?_⟩, stream⟩
  · exact exclusive'.find?_execution still (by simp) (by simp)
  · exact find?_of_mem exclusive.distinctSessions present (by simp [own]) (by simp [own])
  · exact find?_of_mem exclusive'.distinctSessions kept (by simp [own]) (by simp [own])

/-- What a sweep comes to where the stale executions can be listed. -/
structure SweepsOut (w : World) (cutoff : String) (h : Hub) : Prop where
  rows : (h.swept w cutoff).map (·.row) = h.db.stale cutoff
  settled : ∀ r ∈ h.swept w cutoff, r.fate w ≠ .movedOn
  report : (h.sweepBefore w cutoff).1 = .ok ⟨Recovery.recovered w (h.swept w cutoff), 0,
    (h.swept w cutoff).countP (·.fate w = .failed)⟩
  lapses : h.db.Lapses (Recovery.recovered w (h.swept w cutoff)) (h.sweepBefore w cutoff).2.db
  undisturbed : (h.sweepBefore w cutoff).2.db.Undisturbed
  exclusive : (h.sweepBefore w cutoff).2.db.Exclusive
  expires : ∀ r ∈ h.swept w cutoff, r.fate w = .timedOut →
    h.Expires r.row (h.sweepBefore w cutoff).2
  leaves : ∀ r ∈ h.swept w cutoff, r.fate w = .failed →
    h.Leaves r.row (h.sweepBefore w cutoff).2
  elsewhere : ∀ execution ∉ Recovery.recovered w (h.swept w cutoff),
    (h.sweepBefore w cutoff).2.bus.stream execution = h.bus.stream execution

variable (cutoff) in
theorem sweepsOut (undisturbed : h.db.Undisturbed) (exclusive : h.db.Exclusive)
    (passed : w.refuses h.meter.statements = none) : h.SweepsOut w cutoff := by
  obtain ⟨all, outcome⟩ := sweepBefore_of_passed cutoff undisturbed passed
  have still : h.listed.db.Undisturbed := undisturbed
  have apart : h.listed.db.Exclusive := exclusive
  have distinct : ((h.db.stale cutoff).map (·.execution)).Nodup := exclusive.distinct_stale
  obtain ⟨leads, each⟩ := leads_recoveries w (h.db.stale cutoff) still
  obtain ⟨lapses, -⟩ := lapses_recovering w (h.db.stale cutoff) still apart
  have settled : ∀ r ∈ h.listed.recoveries w (h.db.stale cutoff), r.fate w ≠ .movedOn := by
    refine fate_ne_movedOn still apart distinct fun row member => ?_
    obtain ⟨present, executing, -⟩ := Database.mem_stale.mp member
    exact ⟨row, present, rfl, executing⟩
  have rows : (h.listed.recoveries w (h.db.stale cutoff)).map (·.row) = h.db.stale cutoff :=
    map_row_recoveries w h.listed _
  have stale : ∀ r ∈ h.listed.recoveries w (h.db.stale cutoff),
      r.row ∈ h.db.executions ∧ r.row.state = .executing := by
    intro r member
    have listed : r.row ∈ h.db.stale cutoff := rows ▸ List.mem_map_of_mem member
    obtain ⟨present, executing, -⟩ := Database.mem_stale.mp listed
    exact ⟨present, executing⟩
  have after : (h.sweepBefore w cutoff).2 = h.listed.recovering w (h.db.stale cutoff) := by
    rw [outcome]
  refine ⟨all ▸ rows, all ▸ settled, ?_, ?_, ?_, ?_, ?_, ?_, ?_⟩
  · have none : (h.swept w cutoff).countP (·.fate w = .movedOn) = 0 := by
      simpa [all, List.countP_eq_zero] using settled
    rw [outcome, SweepReport.foldl_add, none]
    simp
  · rw [after, all]
    exact lapses
  · rw [after]
    exact leads.undisturbed still
  · rw [after]
    exact leads.exclusive apart
  · rw [after, all]
    intro r member fate
    obtain ⟨present, executing⟩ := stale r member
    have own := stream_recovering distinct member
    refine expires_of_gone lapses exclusive (leads.exclusive apart) present executing
      (Recovery.mem_recovered.mpr ⟨r, member, fate, rfl⟩) ?_
    cases r.course (w := w) ((each r member).1.undisturbed still) with
    | timedOut _ _ _ told ended _ _ _ posts => exact ⟨told, ended, posts ▸ own⟩
    | movedOn fate' | failed fate' =>
        rw [fate] at fate'
        contradiction
  · rw [after, all]
    intro r member fate
    obtain ⟨present, executing⟩ := stale r member
    have spared : r.row.execution ∉
        Recovery.recovered w (h.listed.recoveries w (h.db.stale cutoff)) := by
      rw [← rows, List.map_map] at distinct
      exact Recovery.not_recovered_of_failed distinct member fate
    exact leaves_of_spared lapses exclusive (leads.exclusive apart) present executing spared
      (stream_of_unrecovered spared)
  · rw [after, all]
    exact fun execution spared => stream_of_unrecovered spared

theorem timedOut_of_calm (undisturbed : h.db.Undisturbed) (exclusive : h.db.Exclusive)
    (calm : w.CalmBetween h.meter (h.sweepBefore w cutoff).2.meter) :
    w.refuses h.meter.statements = none ∧ ∀ r ∈ h.swept w cutoff, r.fate w = .timedOut := by
  have passed : w.refuses h.meter.statements = none := by
    by_contra refused
    obtain ⟨-, e, failed⟩ := sweepBefore_of_refused cutoff refused
    rw [failed] at calm
    exact refused (calm _ (Nat.le_refl _) (Nat.lt_succ_self _))
  refine ⟨passed, fun r member => ?_⟩
  obtain ⟨all, outcome⟩ := sweepBefore_of_passed cutoff undisturbed passed
  have settled := (sweepsOut cutoff undisturbed exclusive passed).settled r member
  rw [outcome] at calm
  rw [all] at member
  have still : h.listed.db.Undisturbed := undisturbed
  obtain ⟨before, rest⟩ := (leads_recoveries w _ still).2 r member
  cases r.course (w := w) (before.undisturbed still) with
  | timedOut fate => exact fate
  | movedOn fate => exact absurd fate settled
  | failed _ _ _ refused =>
      refine absurd (calm.within ?_ (r.before_after.trans rest.meter)) refused
      exact h.meter.before_afterStatement.trans before.meter

theorem recovered_of_calm (undisturbed : h.db.Undisturbed) (exclusive : h.db.Exclusive)
    (calm : w.CalmBetween h.meter (h.sweepBefore w cutoff).2.meter) :
    Recovery.recovered w (h.swept w cutoff) = (h.db.stale cutoff).map (·.execution) ∧
      (h.sweepBefore w cutoff).1 = .ok ⟨(h.db.stale cutoff).map (·.execution), 0, 0⟩ := by
  obtain ⟨passed, timedOut⟩ := timedOut_of_calm undisturbed exclusive calm
  have sweeps := sweepsOut cutoff undisturbed exclusive passed
  have recovered : Recovery.recovered w (h.swept w cutoff) =
      (h.db.stale cutoff).map (·.execution) := by
    have all : (h.swept w cutoff).filter (·.fate w = .timedOut) = h.swept w cutoff := by
      rw [List.filter_eq_self]
      exact fun r member => decide_eq_true (timedOut r member)
    rw [Recovery.recovered, all, ← sweeps.rows, List.map_map]
    rfl
  have none : (h.swept w cutoff).countP (·.fate w = .failed) = 0 := by
    rw [List.countP_eq_zero]
    intro r member failed
    rw [timedOut r member] at failed
    contradiction
  refine ⟨recovered, ?_⟩
  rw [sweeps.report, recovered, none]

/-- A sweep recovers the stale executions.  After every run and for every cutoff, a sweep of which no
statement is refused reports exactly the executions that are executing and of which nothing was heard
since the cutoff, each once and the oldest first, and nothing as skipped or as an error.  Each of them
has failed and has ended, its session is idle and bound to nothing, and its stream has got an error and
the end.  No other execution, session, event or stream has changed, and another sweep with the same
cutoff finds nothing. -/
theorem sweep_recovers_the_stale (w : World) (limit ring queue : Nat) (operations : List Operation)
    (cutoff : String)
    (calm : w.CalmBetween ((create limit ring queue).run w operations).meter
      (((create limit ring queue).run w operations).sweepBefore w cutoff).2.meter) :
    let h := (create limit ring queue).run w operations
    let after := (h.sweepBefore w cutoff).2
    let stale := h.db.stale cutoff
    h.db.StaleRows cutoff stale ∧
    (h.sweepBefore w cutoff).1 = .ok ⟨stale.map (·.execution), 0, 0⟩ ∧
    (∀ row ∈ stale, h.Expires row after) ∧
    h.db.Lapses (stale.map (·.execution)) after.db ∧
    (∀ execution ∉ stale.map (·.execution),
      after.bus.stream execution = h.bus.stream execution) ∧
    ∀ later : World, later.refuses after.meter.statements = none →
      after.sweepBefore later cutoff = (.ok {}, after.listed) := by
  intro h after stale
  have undisturbed : h.db.Undisturbed := undisturbed_run
  have exclusive : h.db.Exclusive := exclusive_run w limit ring queue operations
  obtain ⟨passed, timedOut⟩ := timedOut_of_calm undisturbed exclusive calm
  obtain ⟨recovered, report⟩ := recovered_of_calm undisturbed exclusive calm
  obtain ⟨rows, -, -, lapses, undisturbed', exclusive', expires, -, elsewhere⟩ :=
    sweepsOut cutoff undisturbed exclusive passed
  rw [recovered] at lapses elsewhere
  refine ⟨exclusive.staleRows cutoff, report, ?_, lapses, elsewhere, ?_⟩
  · intro row member
    have listed : row ∈ (h.swept w cutoff).map (·.row) := rows ▸ member
    obtain ⟨r, among, rfl⟩ := List.mem_map.mp listed
    exact expires r among (timedOut r among)
  · intro later passed'
    have nothing : after.db.stale cutoff = [] := by
      rw [List.eq_nil_iff_forall_not_mem]
      intro row member
      obtain ⟨before, spared⟩ := lapses.mem_stale_iff.mp member
      exact spared (List.mem_map_of_mem before)
    obtain ⟨all, outcome⟩ := sweepBefore_of_passed cutoff undisturbed' passed'
    rw [nothing] at all outcome
    rw [outcome, all]
    rfl

/-- Two executions that nothing is heard of. -/
private def silent : List Operation :=
  [.createSession ⟨some "a", "ws", "p", none, none, false, none, none, none, "user"⟩,
    .createSession ⟨some "b", "ws", "p", none, none, false, none, none, none, "user"⟩,
    .execute ⟨"ws", "a", "hello", "user"⟩, .execute ⟨"ws", "b", "hello", "user"⟩,
    .answerDispatch "exec_" (.ok ()), .answerDispatch "exec_aa" (.ok ())]

/-- Both of them fail, and there is nothing left to sweep. -/
theorem silence_is_swept_once :
    let h := (create 2 8 8).run .plain silent
    let first := h.sweepBefore .plain "2"
    first.1 = .ok ⟨["exec_", "exec_aa"], 0, 0⟩ ∧ (first.2.sweepBefore .plain "2").1 = .ok {} := by
  obtain ⟨-, report, -, -, -, again⟩ :=
    sweep_recovers_the_stale .plain 2 8 8 silent "2" fun _ _ _ => rfl
  have stale : (((create 2 8 8).run .plain silent).db.stale "2").map (·.execution) =
      ["exec_", "exec_aa"] := by
    rw [Database.stale_of_ascending (by decide +kernel)]
    decide +kernel
  intro h first
  rw [stale] at report
  exact ⟨report, congrArg Prod.fst (again .plain rfl)⟩

/-- Whether the stale executions can be listed, and a statement is refused of the recoveries of exactly
those of them in `bad`, and of the others exactly those in `unfiled` get no audit row. -/
structure Strikes (w : World) (cutoff : String) (h : Hub) (bad unfiled : Finset ExecutionId) : Prop
    where
  passed : w.refuses h.meter.statements = none
  stale : ∀ execution ∈ bad, ∃ row ∈ h.db.stale cutoff, row.execution = execution
  refused : ∀ r ∈ h.swept w cutoff,
    r.row.execution ∈ bad ↔ ¬ w.CalmBetween r.hub.meter (r.expire w).2.meter
  unwritten : ∀ r ∈ h.swept w cutoff, r.row.execution ∉ bad →
    (r.row.execution ∈ unfiled ↔ (r.file w).1.toOption = none)

theorem failed_iff_of_swept (undisturbed : h.db.Undisturbed) :
    ∀ r ∈ h.swept w cutoff,
      r.fate w = .failed ↔ ¬ w.CalmBetween r.hub.meter (r.expire w).2.meter := by
  intro r member
  by_cases passed : w.refuses h.meter.statements = none
  · rw [(sweepBefore_of_passed cutoff undisturbed passed).1] at member
    have still : h.listed.db.Undisturbed := undisturbed
    exact r.failed_iff (((leads_recoveries w _ still).2 r member).1.undisturbed still)
  · rw [(sweepBefore_of_refused cutoff passed).1] at member
    contradiction

namespace Strikes

variable {bad unfiled : Finset ExecutionId}

theorem failing (strikes : h.Strikes w cutoff bad unfiled) (undisturbed : h.db.Undisturbed)
    {r : Recovery} (member : r ∈ h.swept w cutoff) :
    r.row.execution ∈ bad ↔ r.fate w = .failed :=
  (strikes.refused r member).trans (failed_iff_of_swept undisturbed r member).symm

theorem timedOut_iff (strikes : h.Strikes w cutoff bad unfiled) (undisturbed : h.db.Undisturbed)
    (sweeps : h.SweepsOut w cutoff) {r : Recovery} (member : r ∈ h.swept w cutoff) :
    r.fate w = .timedOut ↔ r.row.execution ∉ bad := by
  rw [strikes.failing undisturbed member]
  cases fate : r.fate w with
  | timedOut | failed => simp
  | movedOn => exact absurd fate (sweeps.settled r member)

theorem recovered_eq (strikes : h.Strikes w cutoff bad unfiled) (undisturbed : h.db.Undisturbed)
    (sweeps : h.SweepsOut w cutoff) :
    Recovery.recovered w (h.swept w cutoff) =
      ((h.db.stale cutoff).filter (·.execution ∉ bad)).map (·.execution) := by
  have spared : (h.swept w cutoff).filter (·.fate w = .timedOut) =
      (h.swept w cutoff).filter (·.row.execution ∉ bad) := by
    refine List.filter_congr fun r member => ?_
    exact decide_eq_decide.mpr (strikes.timedOut_iff undisturbed sweeps member)
  rw [Recovery.recovered, spared, ← sweeps.rows, List.filter_map, List.map_map]
  rfl

theorem countP_failed (strikes : h.Strikes w cutoff bad unfiled) (undisturbed : h.db.Undisturbed)
    (sweeps : h.SweepsOut w cutoff) (exclusive : h.db.Exclusive) :
    (h.swept w cutoff).countP (·.fate w = .failed) = bad.card := by
  have distinct : ((h.swept w cutoff).map (·.row.execution)).Nodup := by
    have once : ((h.db.stale cutoff).map (·.execution)).Nodup := exclusive.distinct_stale
    rwa [← sweeps.rows, List.map_map] at once
  have failed : (((h.swept w cutoff).filter (·.fate w = .failed)).map
      (·.row.execution)).toFinset = bad := by
    ext execution
    simp only [List.mem_toFinset, List.mem_map, List.mem_filter, decide_eq_true_eq]
    constructor
    · intro found
      obtain ⟨r, ⟨member, fate⟩, rfl⟩ := found
      exact (strikes.failing undisturbed member).mpr fate
    · intro among
      obtain ⟨row, listed, rfl⟩ := strikes.stale execution among
      rw [← sweeps.rows] at listed
      obtain ⟨r, member, rfl⟩ := List.mem_map.mp listed
      exact ⟨r, ⟨member, (strikes.failing undisturbed member).mp among⟩, rfl⟩
  have once := distinct.sublist ((List.filter_sublist (p := (·.fate w = .failed))).map _)
  rw [← failed, List.toFinset_card_of_nodup once, List.length_map, List.countP_eq_length_filter]

theorem toFinset_stale (strikes : h.Strikes w cutoff bad unfiled) (undisturbed : h.db.Undisturbed)
    (sweeps : h.SweepsOut w cutoff) :
    (((h.sweepBefore w cutoff).2.db.stale cutoff).map (·.execution)).toFinset = bad := by
  have lapses := sweeps.lapses
  rw [strikes.recovered_eq undisturbed sweeps] at lapses
  ext execution
  rw [List.mem_toFinset, List.mem_map]
  constructor
  · intro listed
    obtain ⟨row, member, rfl⟩ := listed
    obtain ⟨before, spared⟩ := lapses.mem_stale_iff.mp member
    by_contra apart
    exact spared (List.mem_map_of_mem (List.mem_filter.mpr ⟨before, by simpa using apart⟩))
  · intro among
    obtain ⟨row, listed, rfl⟩ := strikes.stale execution among
    refine ⟨row, lapses.mem_stale_iff.mpr ⟨listed, ?_⟩, rfl⟩
    intro gone
    obtain ⟨other, passed, same⟩ := List.mem_map.mp gone
    exact of_decide_eq_true (List.mem_filter.mp passed).2 (same ▸ among)

theorem audits_of_spared (strikes : h.Strikes w cutoff bad unfiled)
    (undisturbed : h.db.Undisturbed) (sweeps : h.SweepsOut w cutoff) {done : List Recovery}
    (chronicle : Chronicle w (done ++ h.swept w cutoff) after.db) {r : Recovery}
    (member : r ∈ h.swept w cutoff) (spared : r.row.execution ∉ bad) :
    let audits := after.db.audits.filter (·.execution = r.row.execution)
    (r.row.execution ∈ unfiled → audits = []) ∧
      (r.row.execution ∉ unfiled →
        ∃ audit at_, audits = [{ timeoutAudit r.row at_ with audit }]) := by
  intro audits
  have fate := (strikes.timedOut_iff undisturbed sweeps member).mpr spared
  have written : audits = (r.file w).1.toOption.toList := by
    rw [← chronicle.timeoutAudits_of_recovered (List.mem_append_right _ member) fate,
      chronicle.timeoutAudits_eq]
  refine ⟨?_, ?_⟩
  · intro lacking
    rw [written, (strikes.unwritten r member spared).mp lacking]
    rfl
  · intro filed
    have some := mt (strikes.unwritten r member spared).mpr filed
    obtain ⟨entry, stored⟩ := Option.ne_none_iff_exists'.mp some
    obtain ⟨audit, at_, rfl⟩ := chronicle.filed r (List.mem_append_right _ member) entry
      ((if_pos fate).trans stored)
    exact ⟨audit, at_, written.trans (congrArg Option.toList stored)⟩

end Strikes

/-- One bad victim does not stop the sweep.  After every run and for every cutoff, let the recoveries of
any of the stale executions fail, at whichever of their statements, and let the audit rows of any others
not be written.  The sweep succeeds all the same.  It reports as many errors as recoveries fail and
recovers the other executions, the oldest first: they have failed, are released and announced, also
those that lack their audit row.  An execution whose recovery fails is as before, as are its session and
its stream, and there is no audit row about it.  The next sweep with the same cutoff of which no
statement is refused recovers exactly these. -/
theorem bad_victim_does_not_stop_the_sweep (w : World) (limit ring queue : Nat)
    (operations : List Operation) (cutoff : String) (bad unfiled : Finset ExecutionId)
    (strikes : ((create limit ring queue).run w operations).Strikes w cutoff bad unfiled) :
    let h := (create limit ring queue).run w operations
    let after := (h.sweepBefore w cutoff).2
    let stale := h.db.stale cutoff
    let recovered := (stale.filter (·.execution ∉ bad)).map (·.execution)
    let audits := fun execution => after.db.audits.filter (·.execution = execution)
    h.db.StaleRows cutoff stale ∧
    (h.sweepBefore w cutoff).1 = .ok ⟨recovered, 0, bad.card⟩ ∧
    h.db.Lapses recovered after.db ∧
    (∀ execution ∉ recovered, after.bus.stream execution = h.bus.stream execution) ∧
    (∀ row ∈ stale, row.execution ∉ bad → h.Expires row after ∧
      (row.execution ∈ unfiled → audits row.execution = []) ∧
      (row.execution ∉ unfiled → ∃ audit at_,
        audits row.execution = [{ timeoutAudit row at_ with audit }])) ∧
    (∀ row ∈ stale, row.execution ∈ bad → h.Leaves row after ∧ audits row.execution = []) ∧
    ∀ later : World,
      later.CalmBetween after.meter (after.sweepBefore later cutoff).2.meter →
        ∃ left, (after.sweepBefore later cutoff).1 = .ok ⟨left, 0, 0⟩ ∧
          left.Nodup ∧ left.toFinset = bad := by
  intro h after stale recovered audits
  have undisturbed : h.db.Undisturbed := undisturbed_run
  have exclusive : h.db.Exclusive := exclusive_run w limit ring queue operations
  have sweeps : h.SweepsOut w cutoff := sweepsOut cutoff undisturbed exclusive strikes.passed
  have all : Recovery.recovered w (h.swept w cutoff) = recovered :=
    strikes.recovered_eq undisturbed sweeps
  have chronicle : Chronicle w
      ((create limit ring queue).collect Operation.recoveries w operations ++ h.swept w cutoff)
      after.db :=
    chronicle_sweepBefore (chronicle_run (.empty w) undisturbed_create .empty) undisturbed exclusive
      cutoff
  have lapses : h.db.Lapses recovered after.db := all ▸ sweeps.lapses
  have found : ∀ row ∈ stale, ∃ r ∈ h.swept w cutoff, r.row = row := by
    intro row member
    exact List.mem_map.mp (sweeps.rows ▸ member)
  refine ⟨exclusive.staleRows cutoff, ?_, lapses, all ▸ sweeps.elsewhere, ?_, ?_, ?_⟩
  · rw [sweeps.report, all, strikes.countP_failed undisturbed sweeps exclusive]
  · intro row member spared
    obtain ⟨r, among, rfl⟩ := found row member
    have fate := (strikes.timedOut_iff undisturbed sweeps among).mpr spared
    exact ⟨sweeps.expires r among fate,
      strikes.audits_of_spared undisturbed sweeps chronicle among spared⟩
  · intro row member among
    obtain ⟨r, swept, rfl⟩ := found row member
    have leaves := sweeps.leaves r swept ((strikes.failing undisturbed swept).mp among)
    refine ⟨leaves, ?_⟩
    have still := List.mem_of_find?_eq_some leaves.execution
    have executing := (Database.mem_stale.mp member).2.1
    rw [← chronicle.timeoutAudits_of_unrecovered
      (chronicle.not_recovered_of_executing sweeps.exclusive still executing),
      chronicle.timeoutAudits_eq]
  · intro later calm
    obtain ⟨-, report⟩ := recovered_of_calm sweeps.undisturbed sweeps.exclusive calm
    exact ⟨_, report, sweeps.exclusive.distinct_stale, strikes.toFinset_stale undisturbed sweeps⟩

/-- A world that refuses to free the session of the first, and an audit row about the second. -/
private def grudging : World :=
  { World.plain with refuses := fun n => if n = 21 ∨ n = 26 then some ⟨"disk full"⟩ else none }

private abbrev begrudged : Hub := (create 2 8 8).run grudging silent

private theorem stale_begrudged :
    begrudged.db.stale "2" = begrudged.db.executions.filter (Execution.isStale "2") :=
  Database.stale_of_ascending (by decide +kernel)

private theorem strikes_begrudged :
    begrudged.Strikes grudging "2" {"exec_"} {"exec_aa"} := by
  have undisturbed : begrudged.db.Undisturbed := undisturbed_run
  have passed : grudging.refuses begrudged.meter.statements = none := by decide +kernel
  have swept := (sweepBefore_of_passed "2" undisturbed passed).1
  rw [stale_begrudged] at swept
  refine ⟨passed, ?_, ?_, ?_⟩
  · rw [stale_begrudged]
    decide +kernel
  · intro r member
    refine Iff.trans ?_ (failed_iff_of_swept undisturbed r member)
    rw [swept] at member
    revert r
    decide +kernel
  · rw [swept]
    decide +kernel

/-- The first is left to the next sweep; the second is recovered without an audit row. -/
theorem one_refusal_costs_one_victim :
    let first := begrudged.sweepBefore grudging "2"
    first.1 = .ok ⟨["exec_aa"], 0, 1⟩ ∧
      (first.2.sweepBefore .plain "2").1 = .ok ⟨["exec_"], 0, 0⟩ := by
  have recovered : ((begrudged.db.stale "2").filter
      (·.execution ∉ ({"exec_"} : Finset ExecutionId))).map (·.execution) = ["exec_aa"] := by
    rw [stale_begrudged]
    decide +kernel
  obtain ⟨-, report, -, -, -, -, again⟩ :=
    bad_victim_does_not_stop_the_sweep grudging 2 8 8 silent "2" {"exec_"} {"exec_aa"}
      strikes_begrudged
  intro first
  obtain ⟨left, done, once, same⟩ := again .plain fun _ _ _ => rfl
  have only : left = ["exec_"] := List.perm_singleton.mp
    (List.perm_of_nodup_nodup_toFinset_eq once (List.nodup_singleton _) same)
  rw [recovered] at report
  rw [only] at done
  exact ⟨report, done⟩

end Hub

end Switchboard
