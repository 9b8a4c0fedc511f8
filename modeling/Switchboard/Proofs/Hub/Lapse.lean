import Switchboard.Proofs.Hub.FollowUp

/-!
What timeouts leave of the tables.

An execution that times out fails, and the session it holds is freed.  Timeouts of several
executions do not meet: whatever their order, each row is changed once or not at all.
-/

namespace Switchboard

variable {gone gone' : List ExecutionId}

/-- Whether a change of rows fails the executions that are gone and leaves the others. -/
structure Execution.Lapsing (gone : List ExecutionId) (change : Execution → Execution) : Prop where
  failed : ∀ row, row.execution ∈ gone → ∃ at_, change row = row.timedOut at_
  spared : ∀ row, row.execution ∉ gone → change row = row

/-- Whether a change of rows frees the sessions of the executions that are gone and leaves the
others. -/
structure Session.Lapsing (gone : List ExecutionId) (change : Session → Session) : Prop where
  freed : ∀ row, ∀ execution ∈ gone, row.active = some execution →
    ∃ at_, change row = row.freed at_
  spared : ∀ row, (∀ execution ∈ gone, row.active ≠ some execution) → change row = row

theorem Execution.Lapsing.comp {first second : Execution → Execution} (lapsing : Lapsing gone first)
    (lapsing' : Lapsing gone' second) : Lapsing (gone ++ gone') (second ∘ first) := by
  constructor
  · intro row among
    by_cases now : row.execution ∈ gone
    · obtain ⟨at_, same⟩ := lapsing.failed row now
      by_cases later : row.execution ∈ gone'
      · obtain ⟨at', same'⟩ := lapsing'.failed (row.timedOut at_) later
        exact ⟨at', by rw [Function.comp_apply, same, same']; rfl⟩
      · exact ⟨at_, by rw [Function.comp_apply, same, lapsing'.spared (row.timedOut at_) later]⟩
    · have later := (List.mem_append.mp among).resolve_left now
      rw [Function.comp_apply, lapsing.spared row now]
      exact lapsing'.failed row later
  · intro row among
    rw [List.mem_append, not_or] at among
    rw [Function.comp_apply, lapsing.spared row among.1, lapsing'.spared row among.2]

theorem Session.Lapsing.comp {first second : Session → Session} (lapsing : Lapsing gone first)
    (lapsing' : Lapsing gone' second) : Lapsing (gone ++ gone') (second ∘ first) := by
  constructor
  · intro row execution among holds
    by_cases now : execution ∈ gone
    · obtain ⟨at_, same⟩ := lapsing.freed row execution now holds
      have free : ∀ execution ∈ gone', (row.freed at_).active ≠ some execution := by
        intro other _ holds
        contradiction
      exact ⟨at_, by rw [Function.comp_apply, same, lapsing'.spared _ free]⟩
    · have later := (List.mem_append.mp among).resolve_left now
      have other : ∀ execution ∈ gone, row.active ≠ some execution := by
        intro other present holds'
        rw [holds] at holds'
        exact now (Option.some.inj holds' ▸ present)
      rw [Function.comp_apply, lapsing.spared row other]
      exact lapsing'.freed row execution later holds
  · intro row others
    rw [List.forall_mem_append] at others
    rw [Function.comp_apply, lapsing.spared row others.1, lapsing'.spared row others.2]

namespace Database

variable {limit : Nat} {db db₁ db₂ : Database} {row : Execution} {session : Session}
  {execution : ExecutionId}

/-- Whether tables are what timeouts leave of earlier ones, apart from the audit rows. -/
structure Lapses (gone : List ExecutionId) (db db₁ : Database) : Prop where
  projects : db₁.projects = db.projects
  sessions : ∃ change, Session.Lapsing gone change ∧ db₁.sessions = db.sessions.map change
  executions : ∃ change, Execution.Lapsing gone change ∧ db₁.executions = db.executions.map change
  events : db₁.events = db.events

theorem Lapses.refl (db : Database) : Lapses [] db db := by
  refine ⟨rfl, ⟨id, ⟨?_, fun _ _ => rfl⟩, (List.map_id _).symm⟩,
    ⟨id, ⟨?_, fun _ _ => rfl⟩, (List.map_id _).symm⟩, rfl⟩
  · exact fun _ _ absent => absurd absent List.not_mem_nil
  · exact fun _ absent => absurd absent List.not_mem_nil

theorem Lapses.trans (first : Lapses gone db db₁) (second : Lapses gone' db₁ db₂) :
    Lapses (gone ++ gone') db db₂ := by
  obtain ⟨projects, ⟨_, freed, sessions⟩, ⟨_, failed, executions⟩, events⟩ := first
  obtain ⟨projects', ⟨_, freed', sessions'⟩, ⟨_, failed', executions'⟩, events'⟩ := second
  refine ⟨projects'.trans projects, ⟨_, freed.comp freed', ?_⟩, ⟨_, failed.comp failed', ?_⟩,
    events'.trans events⟩
  · rw [sessions', sessions, List.map_map]
  · rw [executions', executions, List.map_map]

theorem Exclusive.lapses_timeOut {at_ freedAt : String} (exclusive : db.Exclusive)
    (allowed : (Change.timeOut execution at_ freedAt).Allowed limit db) :
    Lapses [execution] db ((Change.timeOut execution at_ freedAt).apply db) := by
  obtain ⟨silent, present, about, executing⟩ := allowed
  have executions : db.executions.map (Change.timeOut execution at_ freedAt).onExecution =
      db.executions.map fun row =>
        if row.execution = execution then row.timedOut at_ else row := by
    refine List.map_congr_left fun row member => ?_
    by_cases same : row.execution = execution
    · obtain rfl := exclusive.execution_unique member present (same.trans about.symm)
      simp only [Change.onExecution, same, executing, and_self, if_true]
    · simp only [Change.onExecution, same, false_and, if_false]
  rw [Change.apply_of_adds_nothing ⟨rfl, rfl, rfl, rfl, rfl⟩]
  refine ⟨rfl, ⟨_, ⟨?_, ?_⟩, rfl⟩, ⟨_, ⟨?_, ?_⟩, executions⟩, rfl⟩
  · intro row other among holds
    cases List.mem_singleton.mp among
    exact ⟨freedAt, if_pos holds⟩
  · intro row others
    exact if_neg (others execution (List.mem_singleton_self _))
  · intro row among
    exact ⟨at_, if_pos (List.mem_singleton.mp among)⟩
  · intro row among
    exact if_neg (mt List.mem_singleton.mpr among)

namespace Lapses

theorem mem_of_spared (lapses : Lapses gone db db₁) (member : row ∈ db.executions)
    (spared : row.execution ∉ gone) : row ∈ db₁.executions := by
  obtain ⟨change, lapsing, same⟩ := lapses.executions
  rw [same]
  exact List.mem_map.mpr ⟨row, member, lapsing.spared row spared⟩

theorem mem_of_gone (lapses : Lapses gone db db₁) (member : row ∈ db.executions)
    (among : row.execution ∈ gone) : ∃ at_, row.timedOut at_ ∈ db₁.executions := by
  obtain ⟨change, lapsing, same⟩ := lapses.executions
  obtain ⟨at_, failed⟩ := lapsing.failed row among
  rw [same]
  exact ⟨at_, List.mem_map.mpr ⟨row, member, failed⟩⟩

theorem of_mem (lapses : Lapses gone db db₁) (member : row ∈ db₁.executions) :
    (row ∈ db.executions ∧ row.execution ∉ gone) ∨
      (row.execution ∈ gone ∧ ∃ stored ∈ db.executions, ∃ at_, row = stored.timedOut at_) := by
  obtain ⟨change, lapsing, same⟩ := lapses.executions
  rw [same] at member
  obtain ⟨stored, present, rfl⟩ := List.mem_map.mp member
  by_cases among : stored.execution ∈ gone
  · obtain ⟨at_, failed⟩ := lapsing.failed stored among
    rw [failed]
    exact .inr ⟨among, stored, present, at_, rfl⟩
  · rw [lapsing.spared stored among]
    exact .inl ⟨present, among⟩

theorem mem_sessions_of_spared (lapses : Lapses gone db db₁) (member : session ∈ db.sessions)
    (spared : ∀ execution ∈ gone, session.active ≠ some execution) : session ∈ db₁.sessions := by
  obtain ⟨change, lapsing, same⟩ := lapses.sessions
  rw [same]
  exact List.mem_map.mpr ⟨session, member, lapsing.spared session spared⟩

theorem mem_sessions_of_gone (lapses : Lapses gone db db₁) (member : session ∈ db.sessions)
    (among : execution ∈ gone) (holds : session.active = some execution) :
    ∃ at_, session.freed at_ ∈ db₁.sessions := by
  obtain ⟨change, lapsing, same⟩ := lapses.sessions
  obtain ⟨at_, freed⟩ := lapsing.freed session execution among holds
  rw [same]
  exact ⟨at_, List.mem_map.mpr ⟨session, member, freed⟩⟩

end Lapses

end Database

end Switchboard
