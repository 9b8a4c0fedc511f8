import Switchboard.Proofs.Hub.Outcome

/-!
Several outcomes.

An execution ends once.  So of events that are taken in one call each the first `done` event decides,
and what is reported later comes too late.  A batch is heeded when all of it is stored, and then by its
last `done` event.
-/

namespace Switchboard

variable {execution : ExecutionId}

/-- What has ended stays as it is, if nobody cancels it. -/
theorem Database.Becomes.stateOf_of_terminal {limit : Nat} {db db₁ : Database}
    {kind : Change → Prop} {state : ExecutionState} (becomes : db.Becomes limit kind db₁)
    (uncancelled : ∀ at_ freedAt, ¬ kind (.cancel execution at_ freedAt))
    (known : db.stateOf execution = some state) (terminal : state.isTerminal) :
    db₁.stateOf execution = some state := by
  refine becomes.keeps (fun db => db.stateOf execution = some state) known ?_
  intro change db made _ known
  obtain ⟨row, found, rfl⟩ := Database.stateOf_eq_some_iff.mp known
  have about : row.execution = execution := Database.execution_of_find? found
  have spared : ∀ at_ freedAt, change ≠ .cancel row.execution at_ freedAt := by
    rintro at_ freedAt rfl
    exact uncancelled at_ freedAt (about ▸ made)
  rw [Change.stateOf_apply found, Change.state_onExecution_of_terminal terminal spared]

namespace Hub

variable {w : World} {h : Hub} {raw first : WorkerEvent} {raws : List WorkerEvent}
  {report : IngestReport}

/-- Takes events in, one call each, until a call fails. -/
def ingestEach (w : World) (execution : ExecutionId) :
    List WorkerEvent → Hub → Except HubError Unit × Hub
  | [], h => (.ok (), h)
  | raw :: raws, h =>
    match h.ingest w execution [raw] with
    | (.ok _, h) => ingestEach w execution raws h
    | (.error e, h) => (.error e, h)

theorem ingestEach_cons_of_ok (done : (h.ingest w execution [raw]).1 = .ok report) :
    h.ingestEach w execution (raw :: raws) =
      (h.ingest w execution [raw]).2.ingestEach w execution raws := by
  rw [ingestEach]
  split <;> rename_i outcome <;> rw [outcome] at done ⊢
  contradiction

theorem of_ingestEach_cons_eq_ok (done : (h.ingestEach w execution (raw :: raws)).1 = .ok ()) :
    ∃ report, (h.ingest w execution [raw]).1 = .ok report := by
  unfold ingestEach at done
  split at done <;> rename_i outcome
  · exact ⟨_, congrArg Prod.fst outcome⟩
  · contradiction

theorem ingestEach_exists (calm : w.CalmFrom h.meter) (undisturbed : h.db.Undisturbed)
    (present : ∃ row ∈ h.db.executions, row.execution = execution) :
    (h.ingestEach w execution raws).1 = .ok () := by
  induction raws generalizing h with
  | nil => rfl
  | cons raw raws ih =>
      obtain ⟨report, done⟩ : ∃ report, (h.ingest w execution [raw]).1 = .ok report :=
        ingest_exists calm undisturbed present
      obtain ⟨undisturbed', present', -⟩ : (h.ingest w execution [raw]).2.db.Undisturbed ∧
          (∃ row ∈ (h.ingest w execution [raw]).2.db.executions, row.execution = execution) ∧ _ :=
        ready_ingest undisturbed present
      have before : h.meter.Before (h.ingest w execution [raw]).2.meter :=
        (Operation.leads undisturbed (.ingest execution [raw])).meter
      rw [ingestEach_cons_of_ok done]
      exact ih (calm.mono before) undisturbed' present'

/-- Once the execution has ended, the calls leave its state. -/
theorem stateOf_ingestEach_of_terminal {state : ExecutionState} (undisturbed : h.db.Undisturbed)
    (known : h.db.stateOf execution = some state) (terminal : state.isTerminal) :
    (h.ingestEach w execution raws).2.db.stateOf execution = some state := by
  induction raws generalizing h with
  | nil => exact known
  | cons raw raws ih =>
      have leads : h.Leads (fun change => ∀ at_ freedAt, change ≠ .cancel execution at_ freedAt)
          (h.ingest w execution [raw]).2 :=
        leads_ingest undisturbed [raw] (fun _ _ _ => nofun) fun _ _ _ => nofun
      have still := leads.db.stateOf_of_terminal (fun _ _ spared => spared _ _ rfl) known terminal
      unfold ingestEach
      split <;> rename_i outcome <;> rw [outcome] at leads still
      · exact ih (leads.undisturbed undisturbed) still
      · exact still

theorem stateOf_ingestEach (undisturbed : h.db.Undisturbed) (going : h.db.Going execution)
    (done : (h.ingestEach w execution raws).1 = .ok ())
    (ends : (raws.filter (·.isDone)).head? = some first) :
    (h.ingestEach w execution raws).2.db.stateOf execution = some (concluding first.reported) := by
  induction raws generalizing h with
  | nil => contradiction
  | cons raw raws ih =>
      obtain ⟨report, passed⟩ := of_ingestEach_cons_eq_ok done
      rw [ingestEach_cons_of_ok passed] at done ⊢
      have undisturbed' : (h.ingest w execution [raw]).2.db.Undisturbed :=
        (ready_ingest undisturbed (present_of_ingest_eq_ok undisturbed passed)).1
      cases isDone : raw.isDone with
      | true =>
          rw [List.filter_cons_of_pos isDone, List.head?_cons, Option.some_inj] at ends
          subst ends
          have last : ([raw].filter (·.isDone)).getLast? = some raw := by simp [isDone]
          exact stateOf_ingestEach_of_terminal undisturbed'
            (stateOf_of_ingest_eq_ok undisturbed going passed last) (isTerminal_concluding _)
      | false =>
          rw [List.filter_cons_of_neg (by simp [isDone])] at ends
          have still : (h.ingest w execution [raw]).2.db.Going execution :=
            going_of_ingest_eq_ok undisturbed going passed (by simp [isDone])
          exact ih undisturbed' still done ends

/-- Of several outcomes the last one of a batch stands.  Whatever has happened to a hub before, an
active execution ends by a batch as the last of its `done` events announces, and by the same events in
one call each as the first of them does.  The calls go through where no statement is refused.  So both
ways lead to the same state exactly if the first and the last event announce the same. -/
theorem last_outcome_of_a_batch_stands (w : World) (limit ring queue : Nat) (steps : List Step)
    (execution : ExecutionId) (raws : List WorkerEvent) (first last : WorkerEvent)
    (going : ((create limit ring queue).proceed w steps).db.Going execution)
    (isFirst : (raws.filter (·.isDone)).head? = some first)
    (isLast : (raws.filter (·.isDone)).getLast? = some last) :
    let h := (create limit ring queue).proceed w steps
    let batch := h.ingest w execution raws
    let each := h.ingestEach w execution raws
    (w.CalmFrom h.meter → (∃ report, batch.1 = .ok report) ∧ each.1 = .ok ()) ∧
    (∀ report, batch.1 = .ok report →
      ∀ state, last.Announces state ↔ batch.2.db.stateOf execution = some state) ∧
    (each.1 = .ok () →
      ∀ state, first.Announces state ↔ each.2.db.stateOf execution = some state) ∧
    ∀ report, batch.1 = .ok report → each.1 = .ok () →
      (batch.2.db.stateOf execution = each.2.db.stateOf execution ↔
        ∀ state, first.Announces state ↔ last.Announces state) := by
  intro h batch each
  have undisturbed : h.db.Undisturbed :=
    (leads_proceed undisturbed_create).undisturbed undisturbed_create
  have jointly (report : IngestReport) (joint : batch.1 = .ok report) :
      batch.2.db.stateOf execution = some (concluding last.reported) :=
    stateOf_of_ingest_eq_ok undisturbed going joint isLast
  have singly (apart : each.1 = .ok ()) :
      each.2.db.stateOf execution = some (concluding first.reported) :=
    stateOf_ingestEach undisturbed going apart isFirst
  refine ⟨fun calm => ?_, ?_, ?_, ?_⟩
  · obtain ⟨_, known, -⟩ := going
    obtain ⟨row, found, -⟩ := Database.stateOf_eq_some_iff.mp known
    have present := Database.exists_of_find?_execution found
    exact ⟨ingest_exists calm undisturbed present, ingestEach_exists calm undisturbed present⟩
  · intro report joint state
    rw [jointly report joint, WorkerEvent.announces_iff, Option.some_inj]
  · intro apart state
    rw [singly apart, WorkerEvent.announces_iff, Option.some_inj]
  · intro report joint apart
    rw [jointly report joint, singly apart, Option.some_inj]
    constructor
    · intro same state
      rw [WorkerEvent.announces_iff, WorkerEvent.announces_iff, same]
    · intro same
      exact ((same _).mp first.announces_concluding).concluding_eq

private def doneWith (wire : Int) (status : String) : WorkerEvent :=
  ⟨wire, "2999-01-01T00:00:00Z", "done", some (.ofEntries [("status", .string status)])⟩

private def undecided : List WorkerEvent := [doneWith 1 "failed", doneWith 2 "completed"]

private theorem going_underWay : ((create 1 8 8).proceed .plain underWay).db.Going "exec_" :=
  ⟨.executing, by decide +kernel, rfl⟩

/-- The worker reports a failure and then a success. -/
theorem calls_and_batch_disagree :
    let h := (create 1 8 8).proceed .plain underWay
    (h.ingest .plain "exec_" undecided).2.db.stateOf "exec_" = some .completed ∧
      (h.ingestEach .plain "exec_" undecided).2.db.stateOf "exec_" = some .failed := by
  have facts := last_outcome_of_a_batch_stands .plain 1 8 8 underWay "exec_" undecided
    (doneWith 1 "failed") (doneWith 2 "completed") going_underWay rfl rfl
  -- from here on the run is any hub
  generalize (create 1 8 8).proceed .plain underWay = h at *
  intro _
  obtain ⟨succeed, jointly, singly, -⟩ := facts
  obtain ⟨⟨report, joint⟩, apart⟩ := succeed World.calmFrom_plain
  exact ⟨(jointly report joint .completed).mp (.named rfl rfl),
    (singly apart .failed).mp (.named rfl rfl)⟩

/-- What is reported first does not stand. -/
theorem first_outcome_is_overridden :
    ¬ ∀ (w : World) (limit ring queue : Nat) (steps : List Step) (execution : ExecutionId)
        (raws : List WorkerEvent) (first : WorkerEvent) (state : ExecutionState)
        (report : IngestReport),
      let h := (create limit ring queue).proceed w steps
      h.db.Going execution → (raws.filter (·.isDone)).head? = some first → first.Announces state →
        (h.ingest w execution raws).1 = .ok report →
          (h.ingest w execution raws).2.db.stateOf execution = some state := by
  intro stands
  have failed := stands .plain 1 8 8 underWay "exec_" undecided (doneWith 1 "failed") .failed
  have passed : (((create 1 8 8).proceed .plain underWay).ingest .plain "exec_"
      undecided).1.isOk = true := by decide +kernel
  have completed : (((create 1 8 8).proceed .plain underWay).ingest .plain "exec_"
      undecided).2.db.stateOf "exec_" = some .completed := by decide +kernel
  have going := going_underWay
  generalize (create 1 8 8).proceed .plain underWay = h at *
  cases outcome : (h.ingest .plain "exec_" undecided).1 with
  | error e =>
      rw [outcome] at passed
      contradiction
  | ok report =>
      have kept := failed report going rfl (.named rfl rfl) outcome
      rw [completed] at kept
      contradiction

end Hub

end Switchboard
