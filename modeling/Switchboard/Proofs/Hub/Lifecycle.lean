import Switchboard.Proofs.Hub.Mutex

/-!
The life of an execution.

An execution goes from pending to executing to an end, and may skip the middle; a cancellation may
still override another end.  Its times follow: the start and the end are fixed by whatever sets them
first, and the last event only moves on.  What a timeout does to the recorded end is harmless only
because an executing execution has none, so states and times are kept together.
-/

namespace Switchboard

namespace ExecutionState

inductive Moves : ExecutionState → ExecutionState → Prop where
  | start : Moves .pending .executing
  | finish {source target : ExecutionState} : source.isActive → target.isTerminal →
      Moves source target
  | cancelCompleted : Moves .completed .cancelled
  | cancelFailed : Moves .failed .cancelled

theorem Moves.trans {a b c : ExecutionState} (first : Moves a b) (second : Moves b c) :
    Moves a c := by
  cases first with
  | start =>
      cases second with
      | finish _ terminal => exact .finish rfl terminal
  | finish active terminal =>
      cases second with
      | start => contradiction
      | finish active' => simp [isTerminal, active'] at terminal
      | cancelCompleted | cancelFailed => exact .finish active rfl
  | cancelCompleted | cancelFailed =>
      cases second with
      | finish active' => contradiction

/-- What has ended neither waits nor runs again. -/
theorem Moves.isTerminal {source target : ExecutionState} (moves : Moves source target)
    (terminal : source.isTerminal) : target = .cancelled := by
  cases moves with
  | start => contradiction
  | finish active => simp [ExecutionState.isTerminal, active] at terminal
  | cancelCompleted | cancelFailed => rfl

theorem moves_cancelled (source : ExecutionState) :
    ExecutionState.cancelled = source ∨ Moves source .cancelled := by
  cases source with
  | pending | executing => exact .inr (.finish rfl rfl)
  | completed => exact .inr .cancelCompleted
  | failed => exact .inr .cancelFailed
  | cancelled => exact .inl rfl

end ExecutionState

namespace Execution

variable {row row₁ row₂ : Execution} {at_ : String} {state : ExecutionState}

/-- The times of an execution fit its state. -/
structure Timed (row : Execution) : Prop where
  ended : row.endedAt ≠ none ↔ row.state.isTerminal
  started : row.state = .executing → row.startedAt ≠ none
  untouched : row.state = .pending →
    row.startedAt = none ∧ row.lastEventAt = none ∧ row.endedAt = none

/-- What one execution may become of another over time. -/
structure Evolves (row row' : Execution) : Prop where
  execution : row'.execution = row.execution
  state : row'.state = row.state ∨ row.state.Moves row'.state
  startedAt : ∀ at_, row.startedAt = some at_ → row'.startedAt = some at_
  endedAt : ∀ at_, row.endedAt = some at_ → row'.endedAt = some at_
  lastEventAt : ∀ at_, row.lastEventAt = some at_ →
    ∃ later, row'.lastEventAt = some later ∧ at_ ≤ later

namespace Evolves

theorem refl (row : Execution) : Evolves row row :=
  ⟨rfl, .inl rfl, fun _ same => same, fun _ same => same, fun at_ same => ⟨at_, same, String.le_refl _⟩⟩

theorem trans (first : Evolves row row₁) (second : Evolves row₁ row₂) : Evolves row row₂ := by
  refine ⟨second.execution.trans first.execution, ?_, ?_, ?_, ?_⟩
  · rcases second.state with same | moves
    · rw [same]
      exact first.state
    · rcases first.state with same | before
      · rw [← same]
        exact .inr moves
      · exact .inr (before.trans moves)
  · exact fun at_ known => second.startedAt at_ (first.startedAt at_ known)
  · exact fun at_ known => second.endedAt at_ (first.endedAt at_ known)
  · intro at_ known
    obtain ⟨later, heard, le⟩ := first.lastEventAt at_ known
    obtain ⟨latest, heard', le'⟩ := second.lastEventAt later heard
    exact ⟨latest, heard', String.le_trans le le'⟩

end Evolves

theorem le_latest (last at_ : String) : last ≤ latest (some last) at_ := by
  simp only [latest]
  split
  · rename_i lt
    exact String.not_lt.mp (String.lt_asymm lt)
  · exact String.le_refl last

theorem evolves_started (pending : row.state = .pending) : row.Evolves (row.started at_) := by
  refine ⟨rfl, .inr ?_, ?_, fun _ same => same, fun at_ same => ⟨at_, same, String.le_refl _⟩⟩
  · rw [pending]
    exact .start
  · intro at_ known
    simp [started, known]

theorem evolves_heard : row.Evolves (row.heard at_) := by
  have noted (row : Execution) :
      row.Evolves { row with lastEventAt := some (latest row.lastEventAt at_) } := by
    refine ⟨rfl, .inl rfl, fun _ same => same, fun _ same => same, ?_⟩
    intro last known
    rw [known]
    exact ⟨_, rfl, le_latest last at_⟩
  unfold heard
  split
  · rename_i pending
    exact (evolves_started pending).trans (noted _)
  · exact noted row

theorem evolves_ended (moves : state = row.state ∨ row.state.Moves state) :
    row.Evolves (row.ended state at_) := by
  refine ⟨rfl, moves, fun _ same => same, ?_, fun at_ same => ⟨at_, same, String.le_refl _⟩⟩
  intro at_ known
  simp [ended, known]

theorem evolves_timedOut (timed : row.Timed) (executing : row.state = .executing) :
    row.Evolves (row.timedOut at_) := by
  refine ⟨rfl, .inr ?_, fun _ same => same, ?_, fun at_ same => ⟨at_, same, String.le_refl _⟩⟩
  · rw [executing]
    exact .finish rfl rfl
  · -- the recorded end is overwritten, but there is none
    intro end_ known
    have terminal := timed.ended.mp (by simp [known])
    rw [executing] at terminal
    contradiction

theorem timed_started (pending : row.state = .pending) (timed : row.Timed) :
    (row.started at_).Timed := by
  obtain ⟨-, -, untouched⟩ := timed.untouched pending
  refine ⟨?_, fun _ => by simp [started], fun waits => by simp [started] at waits⟩
  simp [started, untouched, ExecutionState.isTerminal, ExecutionState.isActive]

theorem timed_heard (timed : row.Timed) : (row.heard at_).Timed := by
  by_cases pending : row.state = .pending
  · have started : (row.started at_).Timed := timed_started pending timed
    simp only [heard, pending, if_true]
    exact ⟨started.ended, started.started, fun waits => by simp [Execution.started] at waits⟩
  · simp only [heard, pending, if_false]
    exact ⟨timed.ended, timed.started, fun waits => absurd waits pending⟩

theorem timed_of_terminal {startedAt lastEventAt : Option String} (terminal : state.isTerminal) :
    Timed { row with state, startedAt, lastEventAt, endedAt := some at_ } := by
  refine ⟨by simp [terminal], ?_, ?_⟩
  · intro same
    subst same
    contradiction
  · intro same
    subst same
    contradiction

end Execution

namespace Change

variable {limit : Nat} {db : Database} {change : Change} {row : Execution}

theorem evolves_onExecution (allowed : change.Allowed limit db) (timed : row.Timed) :
    row.Evolves (change.onExecution row) ∧ (change.onExecution row).Timed := by
  cases change with
  | start execution at_ =>
      simp only [onExecution]
      split
      · rename_i hit
        exact ⟨Execution.evolves_started hit.2, Execution.timed_started hit.2 timed⟩
      · exact ⟨.refl row, timed⟩
  | finish execution state at_ freedAt =>
      simp only [onExecution]
      split
      · rename_i hit
        exact ⟨Execution.evolves_ended (.inr (.finish hit.2 allowed)),
          Execution.timed_of_terminal allowed⟩
      · exact ⟨.refl row, timed⟩
  | cancel execution at_ freedAt =>
      simp only [onExecution]
      split
      · exact ⟨Execution.evolves_ended row.state.moves_cancelled, Execution.timed_of_terminal rfl⟩
      · exact ⟨.refl row, timed⟩
  | timeOut execution at_ freedAt =>
      simp only [onExecution]
      split
      · rename_i hit
        exact ⟨Execution.evolves_timedOut timed hit.2, Execution.timed_of_terminal rfl⟩
      · exact ⟨.refl row, timed⟩
  | take event at_ =>
      simp only [onExecution]
      split
      · exact ⟨Execution.evolves_heard, Execution.timed_heard timed⟩
      · exact ⟨.refl row, timed⟩
  | _ => exact ⟨.refl row, timed⟩

/-- Nothing but a cancellation changes the state of an execution that has ended. -/
theorem state_onExecution_of_terminal (terminal : row.state.isTerminal)
    (spared : ∀ at_ freedAt, change ≠ .cancel row.execution at_ freedAt) :
    (change.onExecution row).state = row.state := by
  cases change with
  | start execution at_ | timeOut execution at_ =>
      simp only [onExecution]
      split
      · rename_i hit
        rw [hit.2] at terminal
        contradiction
      · rfl
  | finish execution state at_ freedAt =>
      simp only [onExecution]
      split
      · rename_i hit
        have active : row.state.isActive := hit.2
        simp [ExecutionState.isTerminal, active] at terminal
      · rfl
  | cancel execution at_ freedAt =>
      have other : row.execution ≠ execution := by
        intro same
        exact spared at_ freedAt (by rw [same])
      simp only [onExecution, other, if_false]
  | take event at_ =>
      simp only [onExecution]
      split
      · rw [Execution.state_heard, if_neg]
        intro pending
        rw [pending] at terminal
        contradiction
      · rfl
  | _ => rfl

variable {execution : ExecutionId} {state : ExecutionState} {at_ freedAt : String}

theorem isTerminal_apply_finish (terminal : state.isTerminal) :
    ∀ row ∈ ((finish execution state at_ freedAt).apply db).executions,
      row.execution = execution → row.state.isTerminal := by
  intro row member about
  rcases mem_executions_apply.mp member with ⟨stored, -, rfl⟩ | new
  · rw [execution_onExecution] at about
    simp only [onExecution, about, true_and]
    split
    · exact terminal
    · rename_i ended
      simpa [ExecutionState.isTerminal, Execution.isActive] using ended
  · cases new

theorem active_apply_finish :
    ∀ session ∈ ((finish execution state at_ freedAt).apply db).sessions,
      session.active ≠ some execution := by
  intro session member
  rcases mem_sessions_apply.mp member with ⟨stored, -, rfl⟩ | new
  · simp only [onSession]
    split
    · exact Option.some_ne_none _ ∘ Eq.symm
    · assumption
  · cases new

end Change

theorem ExecuteRequest.timed_row {request : ExecuteRequest} {session : Session} {root : String}
    {execution : ExecutionId} {trace : TraceId} {createdAt : String} :
    (request.row session root execution trace createdAt).Timed := by
  refine ⟨?_, ?_, fun _ => ⟨rfl, rfl, rfl⟩⟩
  · simp [row, Execution.admitted, ExecutionState.isTerminal, ExecutionState.isActive]
  · intro runs
    contradiction

namespace Database

variable {limit : Nat} {kind : Change → Prop} {db db' : Database} {change : Change}

def Timed (db : Database) : Prop := ∀ row ∈ db.executions, row.Timed

theorem Timed.apply (timed : db.Timed) (allowed : change.Allowed limit db) :
    (change.apply db).Timed := by
  intro row member
  rcases Change.mem_executions_apply.mp member with ⟨stored, present, rfl⟩ | new
  · exact (Change.evolves_onExecution allowed (timed stored present)).2
  · cases change with
    | enter =>
        cases List.mem_singleton.mp new
        exact ExecuteRequest.timed_row
    | _ => contradiction

/-- Every execution stays in the tables and evolves there; once it has ended, only a cancellation
changes its state. -/
theorem Becomes.evolves (becomes : db.Becomes limit kind db') (timed : db.Timed) :
    ∀ row ∈ db.executions, ∃ row' ∈ db'.executions, row.Evolves row' ∧
      (row.state.isTerminal → (∀ at_ freedAt, ¬ kind (.cancel row.execution at_ freedAt)) →
        row'.state = row.state) := by
  induction becomes with
  | refl db => exact fun row member => ⟨row, member, .refl row, fun _ _ => rfl⟩
  | step change made allowed _ ih =>
      intro row member
      obtain ⟨evolves, -⟩ := Change.evolves_onExecution allowed (timed row member)
      obtain ⟨row', present, later, final⟩ := ih (timed.apply allowed) (change.onExecution row)
        (Change.mem_executions_apply.mpr (.inl ⟨row, member, rfl⟩))
      refine ⟨row', present, evolves.trans later, ?_⟩
      intro terminal uncancelled
      have kept : (change.onExecution row).state = row.state := by
        refine Change.state_onExecution_of_terminal terminal ?_
        intro at_ freedAt same
        subst same
        exact uncancelled at_ freedAt made
      rw [← kept] at terminal ⊢
      rw [Change.execution_onExecution] at final
      exact final terminal uncancelled

end Database

theorem Operation.eq_cancel_of_makes {w : World} {m m' : Meter} {operation : Operation}
    {execution : ExecutionId} {at_ freedAt : String}
    (made : operation.Makes w m m' (.cancel execution at_ freedAt)) :
    ∃ workspace, operation = .cancel workspace execution := by
  cases operation with
  | cancel workspace execution' =>
      cases made
      exact ⟨workspace, rfl⟩
  | answerDispatch _ outcome => rcases outcome with _ | ⟨⟩ <;> contradiction
  | _ => contradiction

namespace Hub

variable {w : World} {h : Hub}

theorem timed_leads {kind : Change → Prop} {h' : Hub} (leads : h.Leads kind h')
    (timed : h.db.Timed) : h'.db.Timed :=
  leads.db.keeps _ timed fun _ _ _ allowed timed => timed.apply allowed

theorem evolves_run {operations : List Operation} (undisturbed : h.db.Undisturbed)
    (timed : h.db.Timed) :
    ∀ row ∈ h.db.executions, ∃ row' ∈ (h.run w operations).db.executions, row.Evolves row' ∧
      (row.state.isTerminal → row'.state ≠ row.state →
        ∃ workspace, .cancel workspace row.execution ∈ operations) := by
  induction operations generalizing h with
  | nil => exact fun row member => ⟨row, member, .refl row, fun _ moved => absurd rfl moved⟩
  | cons operation operations ih =>
      intro row member
      have leads := operation.leads (w := w) undisturbed
      obtain ⟨row₁, present, evolves, final⟩ := leads.db.evolves timed row member
      obtain ⟨row₂, present', later, cancelled⟩ :=
        ih (leads.undisturbed undisturbed) (timed_leads leads timed) row₁ present
      refine ⟨row₂, present', evolves.trans later, ?_⟩
      intro terminal moved
      by_cases still : row₁.state = row.state
      · rw [← still] at terminal moved
        obtain ⟨workspace, called⟩ := cancelled terminal moved
        rw [evolves.execution] at called
        exact ⟨workspace, List.mem_cons_of_mem _ called⟩
      · by_contra uncalled
        refine still (final terminal fun at_ freedAt made => uncalled ?_)
        obtain ⟨workspace, rfl⟩ := Operation.eq_cancel_of_makes made
        exact ⟨workspace, List.mem_cons_self⟩

/-- The life of executions: at any two moments of a run, an execution that is there at the first is
there at the second, once, its state has only moved forward and its times are kept; a state in which
it had ended was left only because it was cancelled in between. -/
theorem execution_lifecycle (w : World) (limit ring queue : Nat) (before later : List Operation) :
    (∀ row ∈ ((create limit ring queue).run w before).db.executions, row.Timed) ∧
      ((((create limit ring queue).run w before).run w later).db.executions.map
        (·.execution)).Nodup ∧
      ∀ row ∈ ((create limit ring queue).run w before).db.executions,
        ∃ row' ∈ (((create limit ring queue).run w before).run w later).db.executions,
          row.Evolves row' ∧
          (row.state.isTerminal → row'.state ≠ row.state →
            ∃ workspace, .cancel workspace row.execution ∈ later) := by
  have timed : ((create limit ring queue).run w before).db.Timed :=
    holds_run (fun _ absent => absurd absent List.not_mem_nil)
      fun _ _ allowed timed => timed.apply allowed
  refine ⟨timed, ?_, evolves_run undisturbed_run timed⟩
  rw [← run_append]
  exact (exclusive_run w limit ring queue (before ++ later)).distinctExecutions

end Hub

end Switchboard
