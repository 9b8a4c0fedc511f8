import Switchboard.Proofs.Hub.Arrival
import Switchboard.Proofs.Hub.Mutex

/-!
History.

What has happened is not taken back.  Events and audit rows are only ever added, at the end of their
tables, and what was fixed of an execution at its admission stays fixed; its state and its times are
all that moves.
-/

namespace Switchboard

/-- The row as it was admitted: pending, without any time but that of its admission. -/
def Execution.asAdmitted (row : Execution) : Execution :=
  { row with state := .pending, startedAt := none, endedAt := none, lastEventAt := none }

@[simp] theorem Change.asAdmitted_onExecution (change : Change) (row : Execution) :
    (change.onExecution row).asAdmitted = row.asAdmitted := by
  obtain ⟨_, _, _, _, same⟩ := change.onExecution_eq row
  rw [same]
  rfl

theorem Execution.execution_of_asAdmitted {row row' : Execution}
    (same : row'.asAdmitted = row.asAdmitted) : row'.execution = row.execution :=
  congrArg (·.execution) same

namespace Database

variable {limit : Nat} {kind : Change → Prop} {db db₁ db₂ : Database}

/-- Whether tables hold the history of earlier ones, in its order and before everything else. -/
structure Extends (db db₁ : Database) : Prop where
  executions : db.executions.map (·.asAdmitted) <+: db₁.executions.map (·.asAdmitted)
  events : db.events <+: db₁.events
  audits : db.audits <+: db₁.audits

theorem Extends.refl (db : Database) : Extends db db :=
  ⟨List.prefix_refl _, List.prefix_refl _, List.prefix_refl _⟩

theorem Extends.trans (first : Extends db db₁) (second : Extends db₁ db₂) : Extends db db₂ :=
  ⟨first.executions.trans second.executions, first.events.trans second.events,
    first.audits.trans second.audits⟩

theorem extends_apply (change : Change) : Extends db (change.apply db) := by
  refine ⟨?_, List.prefix_append _ _, List.prefix_append _ _⟩
  have kept : (db.executions.map change.onExecution).map (·.asAdmitted) =
      db.executions.map (·.asAdmitted) := by
    rw [List.map_map]
    exact List.map_congr_left fun row _ => change.asAdmitted_onExecution row
  rw [Change.apply, List.map_append, kept]
  exact List.prefix_append _ _

theorem Becomes.extends (becomes : Becomes limit kind db db₁) : Extends db db₁ :=
  becomes.keeps (Extends db) (.refl db)
    fun change _ _ _ extends_ => extends_.trans (extends_apply change)

/-- An execution is still there, as it was admitted. -/
theorem Extends.exists_execution (extends_ : Extends db db₁) {row : Execution}
    (member : row ∈ db.executions) : ∃ row' ∈ db₁.executions, row'.asAdmitted = row.asAdmitted :=
  List.mem_map.mp (extends_.executions.subset (List.mem_map_of_mem member))

theorem DistinctEvents.event_unique (distinct : db.DistinctEvents) {row stored : EventRow}
    (member : row ∈ db.events) (member' : stored ∈ db.events)
    (own : stored.execution = row.execution) (number : stored.wire = row.wire) : stored = row :=
  List.inj_on_of_nodup_map distinct member' member (Prod.ext own number)

end Database

namespace Hub

/-- History is only added to.  Between any two moments of a run no execution, event or audit row has
gone: the events and the audit rows of the first are the first ones of the second, in all their columns,
and so are the executions but for their state and their times.  A stored event is the only one under
its number, so whatever came later under that number has not been stored. -/
theorem history_is_added_to (w : World) (limit ring queue : Nat) (before later : List Operation) :
    let h := (create limit ring queue).run w before
    let h' := h.run w later
    h.db.Extends h'.db ∧
      (∀ row ∈ h.db.executions, ∃ row',
        h'.db.executions.find? (·.execution = row.execution) = some row' ∧
          row'.asAdmitted = row.asAdmitted) ∧
      ∀ row ∈ h.db.events, row ∈ h'.db.events ∧
        ∀ stored ∈ h'.db.events, stored.execution = row.execution → stored.wire = row.wire →
          stored = row := by
  intro h h'
  have extended : h.db.Extends h'.db := (leads_run undisturbed_run).db.extends
  have whole : h' = (create limit ring queue).run w (before ++ later) := (run_append _ _).symm
  refine ⟨extended, ?_, ?_⟩
  · intro row member
    obtain ⟨row', present, same⟩ := extended.exists_execution member
    have exclusive : h'.db.Exclusive := whole ▸ exclusive_run w limit ring queue _
    have own := Execution.execution_of_asAdmitted same
    exact ⟨row', exclusive.find?_execution present (by simp [own]) (by simp [own]), same⟩
  · intro row member
    have distinct : h'.db.DistinctEvents := whole ▸ distinctEvents_run
    have still := extended.events.subset member
    exact ⟨still, fun stored present => distinct.event_unique still present⟩

end Hub

end Switchboard
