import Switchboard.Proofs.Hub.Atomic
import Switchboard.Proofs.Hub.Lifecycle
import Switchboard.Proofs.Hub.Timeout

/-!
Ending twice.

A cancellation, a completion, a failed dispatch and a timeout may all end an execution, in any order and
more than once.  The first that finds it active ends it; of what comes later only a cancellation still
changes its state, and a second cancellation changes nothing.  The sessions are no obstacle to that:
none is held by an execution that has ended.
-/

namespace Switchboard

namespace Database

variable {execution : ExecutionId} {db : Database}

def stateOf (execution : ExecutionId) (db : Database) : Option ExecutionState :=
  (db.executions.find? (·.execution = execution)).map (·.state)

def Ended (execution : ExecutionId) (db : Database) : Prop :=
  ∃ state, db.stateOf execution = some state ∧ state.isTerminal

theorem stateOf_eq_some_iff {state : ExecutionState} : db.stateOf execution = some state ↔
    ∃ row, db.executions.find? (·.execution = execution) = some row ∧ row.state = state :=
  Option.map_eq_some_iff

theorem Exclusive.state_of_stateOf (exclusive : db.Exclusive) {state : ExecutionState}
    (known : db.stateOf execution = some state) :
    ∀ row ∈ db.executions, row.execution = execution → row.state = state := by
  intro row member about
  obtain ⟨stored, found, rfl⟩ := stateOf_eq_some_iff.mp known
  have same : db.executions.find? (·.execution = execution) = some row :=
    exclusive.find?_execution member (by simp [about]) (by simp [about])
  rw [same] at found
  cases found
  rfl

theorem Exclusive.unheld_of_ended (exclusive : db.Exclusive) (ended : db.Ended execution) :
    ∀ session ∈ db.sessions, session.active ≠ some execution := by
  obtain ⟨state, known, terminal⟩ := ended
  refine exclusive.active_ne_of_terminal fun row member about => ?_
  rwa [exclusive.state_of_stateOf known row member about]

end Database

/-- The first end is kept. -/
theorem Execution.ended_of_ended {row : Execution} {state : ExecutionState} {at_ : String}
    (same : state = row.state) (known : row.endedAt ≠ none) : row.ended state at_ = row := by
  obtain ⟨first, known⟩ := Option.ne_none_iff_exists'.mp known
  rw [ended, same, known, Option.getD_some, ← known]

namespace Change

variable {execution : ExecutionId} {limit : Nat} {db : Database} {change : Change} {row : Execution}

theorem find?_apply (found : db.executions.find? (·.execution = execution) = some row) :
    (change.apply db).executions.find? (·.execution = execution) = some (change.onExecution row) := by
  simp only [apply, List.find?_append, List.find?_map, Function.comp_def, execution_onExecution,
    found, Option.map_some, Option.some_or]

theorem stateOf_apply (found : db.executions.find? (·.execution = execution) = some row) :
    (change.apply db).stateOf execution = some (change.onExecution row).state := by
  rw [Database.stateOf, find?_apply found, Option.map_some]

theorem apply_eq_self
    (nothing : change.newProjects = [] ∧ change.newSessions = [] ∧ change.newExecutions = [] ∧
      change.newEvents db = [] ∧ change.newAudits = [])
    (executions : ∀ row ∈ db.executions, change.onExecution row = row)
    (sessions : ∀ row ∈ db.sessions, change.onSession row = row) : change.apply db = db := by
  rw [apply_of_adds_nothing nothing, List.map_congr_left executions, List.map_congr_left sessions,
    List.map_id', List.map_id']

/-- The changes of completions, of failed dispatches and of recoveries. -/
def Closes : Change → Prop
  | .finish _ _ _ _ | .timeOut _ _ _ | .addAudit _ => True
  | _ => False

theorem Closes.newExecutions_eq (closes : change.Closes) : change.newExecutions = [] := by
  cases change with
  | enter => contradiction
  | _ => rfl

theorem Closes.state_onExecution (closes : change.Closes) (allowed : change.Allowed limit db)
    (row : Execution) : (change.onExecution row).state = row.state ∨
      row.state.isActive ∧ (change.onExecution row).state.isTerminal := by
  cases change with
  | finish execution state at_ freedAt =>
      simp only [onExecution]
      split
      · rename_i hit
        exact .inr ⟨hit.2, allowed⟩
      · exact .inl rfl
  | timeOut execution at_ freedAt =>
      simp only [onExecution]
      split
      · rename_i hit
        exact .inr ⟨by rw [hit.2]; rfl, rfl⟩
      · exact .inl rfl
  | addAudit => exact .inl rfl
  | _ => contradiction

end Change

namespace Database

variable {execution : ExecutionId} {limit : Nat} {kind : Change → Prop} {db db₁ : Database}
  {change : Change}

theorem Ended.apply (ended : db.Ended execution) : (change.apply db).Ended execution := by
  obtain ⟨_, known, terminal⟩ := ended
  obtain ⟨row, found, rfl⟩ := stateOf_eq_some_iff.mp known
  exact ⟨_, Change.stateOf_apply found, Change.isTerminal_onExecution terminal⟩

theorem Becomes.ended (becomes : db.Becomes limit kind db₁) (ended : db.Ended execution) :
    db₁.Ended execution :=
  becomes.keeps _ ended fun _ _ _ _ ended => ended.apply

theorem closes_apply (execution : ExecutionId) (closes : change.Closes)
    (allowed : change.Allowed limit db) :
    (change.apply db).stateOf execution = db.stateOf execution ∨
      ¬ db.Ended execution ∧ (change.apply db).Ended execution := by
  cases found : db.executions.find? (·.execution = execution) with
  | none =>
      left
      simp only [stateOf, Change.apply, List.find?_append, List.find?_map, Function.comp_def,
        Change.execution_onExecution, found, closes.newExecutions_eq, Option.map_none, List.find?_nil,
        Option.or_none]
  | some row =>
      have before : db.stateOf execution = some row.state := by rw [stateOf, found, Option.map_some]
      have after : (change.apply db).stateOf execution = some (change.onExecution row).state :=
        Change.stateOf_apply found
      rcases closes.state_onExecution allowed row with same | ⟨active, terminal⟩
      · left
        rw [before, after, same]
      · refine .inr ⟨?_, _, after, terminal⟩
        intro ended
        obtain ⟨state, known, ended⟩ := ended
        rw [before] at known
        cases known
        simp [ExecutionState.isTerminal, active] at ended

/-- Changes that close leave the state of an execution, or it was active and has ended. -/
theorem Becomes.closes (becomes : db.Becomes limit Change.Closes db₁) (execution : ExecutionId) :
    db₁.stateOf execution = db.stateOf execution ∨
      ¬ db.Ended execution ∧ db₁.Ended execution := by
  induction becomes with
  | refl => exact .inl rfl
  | step change closes allowed rest ih =>
      rcases closes_apply execution closes allowed with same | ⟨open_, ended⟩
      · rcases ih with kept | ⟨open_, ended⟩
        · exact .inl (kept.trans same)
        · refine .inr ⟨?_, ended⟩
          rwa [Ended, ← same]
      · exact .inr ⟨open_, rest.ended ended⟩

end Database

namespace Hub

/-- What may happen next.  A batch may be stored and an execution recovered apart from the operation
that they are part of, since other steps may come before the batch is concluded and before a sweep gets
to what it has found. -/
inductive Step where
  | perform (operation : Operation)
  | store (execution : ExecutionId) (events : List WorkerEvent)
  | recover (row : Execution)

variable (w : World)

def Step.apply (h : Hub) : Step → Hub
  | .perform operation => operation.apply w h
  | .store execution events => (h.transact w (takeBatch execution events)).2
  | .recover row => (Recovery.mk h row).after w

def proceed (h : Hub) (steps : List Step) : Hub := steps.foldl (fun h step => step.apply w h) h

/-- What comes after a batch is stored, if it ends its execution: the hub before and after that. -/
def conclusions (h : Hub) (execution : ExecutionId) (events : List WorkerEvent) : List (Hub × Hub) :=
  match h.transact w (takeBatch execution events) with
  | (.error _, _) => []
  | (.ok batch, h) =>
    let h := { h with bus := h.bus.publishAll batch.fresh }
    batch.outcome.toList.map fun reported => (h, (h.conclude w execution reported).2)

/-- The completions, compensations and recoveries of a step, each as the hub before and after it. -/
def Step.endings (h : Hub) : Step → List (Hub × Hub)
  | .perform (.complete execution reported) => [(h, (h.complete w execution reported).2)]
  | .perform (.answerDispatch execution (.error reason)) =>
    [(h, (Operation.answerDispatch execution (.error reason)).apply w h)]
  | .perform (.ingest execution events) => h.conclusions w execution events
  | .perform (.sweep seconds nanos) =>
    ((Operation.sweep seconds nanos).recoveries w h).map fun r => (r.hub, r.after w)
  | .perform _ | .store _ _ => []
  | .recover row => [(h, (Recovery.mk h row).after w)]

def endings : Hub → List Step → List (Hub × Hub)
  | _, [] => []
  | h, step :: steps => step.endings w h ++ endings (step.apply w h) steps

variable {w} {h h₁ h₂ : Hub} {limit ring queue : Nat} {execution : ExecutionId}

theorem Step.leads (undisturbed : h.db.Undisturbed) (step : Step) :
    Leads (fun _ => True) h (step.apply w h) := by
  cases step with
  | perform operation => exact (operation.leads undisturbed).mono fun _ _ => trivial
  | store execution events => exact leads_takeBatch undisturbed events fun _ _ _ => trivial
  | recover row => exact (Recovery.mk h row).leads undisturbed

theorem leads_proceed {steps : List Step} (undisturbed : h.db.Undisturbed) :
    Leads (fun _ => True) h (h.proceed w steps) := by
  induction steps generalizing h with
  | nil => exact .refl h
  | cons step steps ih =>
      have first := step.leads (w := w) undisturbed
      exact first.trans (ih (first.undisturbed undisturbed))

/-- Whether a hub comes to be another one through endings, with anything else in between. -/
inductive Trail : Hub → List (Hub × Hub) → Hub → Prop where
  | nil {h h₁ : Hub} : Leads (fun _ => True) h h₁ → Trail h [] h₁
  | cons {h before after h₁ : Hub} {endings : List (Hub × Hub)} :
      Leads (fun _ => True) h before → Leads Change.Closes before after → Trail after endings h₁ →
        Trail h ((before, after) :: endings) h₁

namespace Trail

variable {endings endings₁ : List (Hub × Hub)}

theorem single (leads : Leads Change.Closes h h₁) : Trail h [(h, h₁)] h₁ :=
  .cons (.refl h) leads (.nil (.refl h₁))

theorem after (leads : Leads (fun _ => True) h h₁) (trail : Trail h₁ endings h₂) :
    Trail h endings h₂ := by
  cases trail with
  | nil rest => exact .nil (leads.trans rest)
  | cons rest closes trail => exact .cons (leads.trans rest) closes trail

theorem append (first : Trail h endings h₁) (second : Trail h₁ endings₁ h₂) :
    Trail h (endings ++ endings₁) h₂ := by
  induction first with
  | nil leads => exact second.after leads
  | cons leads closes _ ih => exact .cons leads closes (ih second)

theorem countP_of_ended (trail : Trail h endings h₁) (ended : h.db.Ended execution) :
    endings.countP (fun ending => ending.1.db.stateOf execution ≠ ending.2.db.stateOf execution) =
      0 := by
  induction trail with
  | nil => rfl
  | @cons _ before after _ _ leads closes _ ih =>
      have still := leads.db.ended ended
      have same : after.db.stateOf execution = before.db.stateOf execution :=
        (closes.db.closes execution).resolve_right fun moved => moved.1 still
      rw [List.countP_cons_of_neg (by simp [same])]
      exact ih (closes.db.ended still)

theorem countP_le_one (trail : Trail h endings h₁) :
    endings.countP (fun ending => ending.1.db.stateOf execution ≠ ending.2.db.stateOf execution) ≤
      1 := by
  induction trail with
  | nil => exact Nat.zero_le 1
  | @cons _ before after _ _ _ closes rest ih =>
      rcases closes.db.closes execution with same | ⟨-, ended⟩
      · rwa [List.countP_cons_of_neg (by simp [same])]
      · -- the execution has ended here, so that nothing is counted later
        rw [List.countP_cons, rest.countP_of_ended ended]
        split <;> decide

end Trail

theorem trail_recoveries (undisturbed : h.db.Undisturbed) (rows : List Execution) :
    Trail h ((h.recoveries w rows).map fun r => (r.hub, r.after w)) (h.recovering w rows) := by
  induction rows generalizing h with
  | nil => exact .nil (.refl h)
  | cons row rows ih =>
      have closes : Leads Change.Closes h ((Recovery.mk h row).after w) :=
        leads_recover undisturbed {} row (fun _ _ => trivial) fun _ _ => trivial
      exact .cons (.refl h) closes (ih (closes.undisturbed undisturbed))

theorem trail_sweep (undisturbed : h.db.Undisturbed) (seconds nanos : Nat) :
    Trail h ((Step.perform (.sweep seconds nanos)).endings w h)
      (h.sweepWithin w seconds nanos).2 := by
  have read : Leads (fun _ => True) h h.read := ⟨rfl, h.meter.before_afterReading, .refl _⟩
  refine Trail.after read ?_
  simp only [Step.endings, Operation.recoveries]
  have same : h.sweepWithin w seconds nanos = h.read.sweepBefore w
      ((w.clock h.meter.readings).before seconds nanos).text := rfl
  rw [same]
  generalize ((w.clock h.meter.readings).before seconds nanos).text = cutoff
  have listed : Leads (fun _ => True) h.read h.read.listed :=
    ⟨rfl, Meter.before_afterStatement _, .refl _⟩
  refine Trail.after listed ?_
  by_cases passed : w.refuses h.read.meter.statements = none
  · obtain ⟨all, outcome⟩ := sweepBefore_of_passed (h := h.read) cutoff undisturbed passed
    rw [all, outcome]
    exact trail_recoveries (h := h.read.listed) undisturbed _
  · obtain ⟨nothing, e, outcome⟩ := sweepBefore_of_refused (h := h.read) cutoff passed
    rw [nothing, outcome]
    exact .nil (.refl _)

theorem trail_ingest (undisturbed : h.db.Undisturbed) (events : List WorkerEvent) :
    Trail h (h.conclusions w execution events) (h.ingest w execution events).2 := by
  have first : Leads (fun _ => True) h (h.transact w (takeBatch execution events)).2 :=
    leads_takeBatch undisturbed events fun _ _ _ => trivial
  unfold conclusions ingest
  rcases outcome : h.transact w (takeBatch execution events) with ⟨e | batch, after⟩ <;>
    rw [outcome] at first
  · exact .nil first
  · have published : Leads (fun _ => True) h
        { after with bus := after.bus.publishAll batch.fresh } :=
      ⟨first.limit, first.meter, first.db⟩
    refine Trail.after published ?_
    cases ending : batch.outcome with
    | none => simpa only [ending] using .nil (.refl _)
    | some reported =>
        have closes : Leads Change.Closes { after with bus := after.bus.publishAll batch.fresh }
            (conclude w execution reported
              { after with bus := after.bus.publishAll batch.fresh }).2 :=
          leads_conclude (published.undisturbed undisturbed) reported fun _ _ _ => trivial
        simp only [ending, Option.toList_some, List.map_cons, List.map_nil]
        rcases conclusion : conclude w execution reported
            { after with bus := after.bus.publishAll batch.fresh } with ⟨e | _, last⟩ <;>
          rw [conclusion] at closes <;> exact .single closes

theorem Step.trail (undisturbed : h.db.Undisturbed) (step : Step) :
    Trail h (step.endings w h) (step.apply w h) := by
  cases step with
  | store execution events =>
      exact .nil (leads_takeBatch undisturbed events fun _ _ _ => trivial)
  | recover row =>
      exact .single (leads_recover undisturbed {} row (fun _ _ => trivial) fun _ _ => trivial)
  | perform operation =>
      have leads : Leads (fun _ => True) h (operation.apply w h) :=
        (operation.leads undisturbed).mono fun _ _ => trivial
      cases operation with
      | complete execution reported =>
          exact .single (leads_complete undisturbed reported fun _ _ _ => trivial)
      | ingest execution events => exact trail_ingest undisturbed events
      | sweep seconds nanos => exact trail_sweep undisturbed seconds nanos
      | answerDispatch execution outcome =>
          cases outcome with
          | ok _ => exact .nil leads
          | error reason =>
              refine .single ((Operation.leads undisturbed _).mono fun change made => ?_)
              cases change with
              | finish => trivial
              | _ => contradiction
      | _ => exact .nil leads

theorem trail_proceed (undisturbed : h.db.Undisturbed) (steps : List Step) :
    Trail h (h.endings w steps) (h.proceed w steps) := by
  induction steps generalizing h with
  | nil => exact .nil (.refl h)
  | cons step steps ih =>
      have first := step.leads (w := w) undisturbed
      exact (step.trail undisturbed).append (ih (first.undisturbed undisturbed))

theorem db_cancel_of_cancelled (undisturbed : h.db.Undisturbed) (exclusive : h.db.Exclusive)
    (timed : h.db.Timed) (known : h.db.stateOf execution = some .cancelled)
    (workspace : WorkspaceId) : (h.cancel w workspace execution).2.db = h.db := by
  have ended := exclusive.state_of_stateOf known
  cases outcome : (h.cancel w workspace execution).1 with
  | error e => rw [(allOrNothing_cancel undisturbed workspace execution).nothing e outcome]
  | ok _ =>
      obtain ⟨at_, freedAt, applied⟩ := of_cancel_eq_ok undisturbed outcome
      rw [applied]
      refine Change.apply_eq_self ⟨rfl, rfl, rfl, rfl, rfl⟩ ?_ ?_
      · intro row member
        simp only [Change.onExecution]
        split
        · rename_i about
          have state := ended row member about
          have terminal : row.state.isTerminal := by rw [state]; rfl
          exact row.ended_of_ended state.symm ((timed row member).ended.mpr terminal)
        · rfl
      · intro session member
        exact if_neg (exclusive.unheld_of_ended ⟨_, known, rfl⟩ session member)

theorem db_complete_of_ended (undisturbed : h.db.Undisturbed) (exclusive : h.db.Exclusive)
    (ended : h.db.Ended execution) (reported : String) :
    (h.complete w execution reported).2.db = h.db := by
  have unheld := exclusive.unheld_of_ended ended
  obtain ⟨state, known, terminal⟩ := ended
  cases outcome : (h.complete w execution reported).1 with
  | error e => rw [(allOrNothing_complete undisturbed execution reported).nothing e outcome]
  | ok _ =>
      obtain ⟨state', at_, freedAt, -, applied⟩ := of_complete_eq_ok undisturbed outcome
      rw [applied]
      refine Change.apply_eq_self ⟨rfl, rfl, rfl, rfl, rfl⟩ ?_ ?_
      · intro row member
        refine if_neg fun hit => ?_
        have active : row.state.isActive := hit.2
        rw [exclusive.state_of_stateOf known row member hit.1] at active
        simp [ExecutionState.isTerminal, active] at terminal
      · exact fun session member => if_neg (unheld session member)

theorem cancelled_proceed (undisturbed : h.db.Undisturbed) (exclusive : h.db.Exclusive)
    (timed : h.db.Timed) {workspace : WorkspaceId}
    (accepted : (h.cancel w workspace execution).1 = .ok ()) :
    ∃ at_, ∀ later : List Step,
      let after := (h.cancel w workspace execution).2.proceed w later
      (∃ row, after.db.executions.find? (·.execution = execution) = some row ∧
        row.state = .cancelled ∧ row.endedAt = some at_) ∧
      ∀ session ∈ after.db.sessions, session.active ≠ some execution := by
  obtain ⟨row, member, about, -⟩ : ∃ row ∈ h.db.executions,
      row.execution = execution ∧ row.workspace = workspace := by
    by_contra absent
    obtain ⟨e, failed⟩ := (allOrNothing_cancel (w := w) undisturbed workspace execution).stopped
      (by simpa using absent)
    rw [accepted] at failed
    contradiction
  obtain ⟨at_, freedAt, applied⟩ := of_cancel_eq_ok undisturbed accepted
  have leads := (Operation.cancel workspace execution).leads (w := w) undisturbed
  have cancelled : row.ended .cancelled at_ ∈ (h.cancel w workspace execution).2.db.executions := by
    rw [applied]
    exact Change.mem_executions_apply.mpr (.inl ⟨row, member, if_pos about⟩)
  refine ⟨row.endedAt.getD at_, fun later => ?_⟩
  have rest : Leads (fun _ => True) _ ((h.cancel w workspace execution).2.proceed w later) :=
    leads_proceed (leads.undisturbed undisturbed)
  have exclusive' := rest.exclusive (leads.exclusive exclusive)
  obtain ⟨row', member', evolves, -⟩ := rest.db.evolves (timed_leads leads timed) _ cancelled
  have about' : row'.execution = execution := evolves.execution.trans about
  have state : row'.state = .cancelled := by
    rcases evolves.state with same | moves
    · exact same
    · exact moves.isTerminal rfl
  have found : ((h.cancel w workspace execution).2.proceed w later).db.executions.find?
      (·.execution = execution) = some row' :=
    exclusive'.find?_execution member' (by simp [about']) (by simp [about'])
  refine ⟨⟨row', found, state, evolves.endedAt _ rfl⟩, ?_⟩
  exact exclusive'.unheld_of_ended
    ⟨_, Database.stateOf_eq_some_iff.mpr ⟨row', found, state⟩, rfl⟩

/-- Ending twice changes nothing.  Whatever has happened to a hub before, an execution that is cancelled
stays so, keeps the time of its end and holds no session; cancelling it again leaves all tables as they
are, and so does a completion of any execution that has ended, by whatever it was ended.  Of all
completions, compensations and recoveries one at most changes the state of an execution. -/
theorem ending_twice_changes_nothing (w : World) (limit ring queue : Nat) (steps : List Step) :
    let start := create limit ring queue
    let h := start.proceed w steps
    (∀ workspace execution, (h.cancel w workspace execution).1 = .ok () →
      ∃ at_, ∀ later : List Step,
        let after := (h.cancel w workspace execution).2.proceed w later
        (∃ row, after.db.executions.find? (·.execution = execution) = some row ∧
          row.state = .cancelled ∧ row.endedAt = some at_) ∧
        ∀ session ∈ after.db.sessions, session.active ≠ some execution) ∧
    (∀ execution, h.db.stateOf execution = some .cancelled →
      ∀ workspace, (h.cancel w workspace execution).2.db = h.db) ∧
    (∀ execution, h.db.Ended execution →
      ∀ reported, (h.complete w execution reported).2.db = h.db) ∧
    ∀ execution, (start.endings w steps).countP (fun ending =>
      ending.1.db.stateOf execution ≠ ending.2.db.stateOf execution) ≤ 1 := by
  intro start h
  have leads : Leads (fun _ => True) start h := leads_proceed undisturbed_create
  have undisturbed : h.db.Undisturbed := leads.undisturbed undisturbed_create
  have exclusive : h.db.Exclusive := leads.exclusive .empty
  have timed : h.db.Timed := timed_leads leads fun _ absent => absurd absent List.not_mem_nil
  refine ⟨?_, ?_, ?_, ?_⟩
  · intro workspace execution accepted
    exact cancelled_proceed undisturbed exclusive timed accepted
  · intro execution known
    exact db_cancel_of_cancelled undisturbed exclusive timed known
  · intro execution ended
    exact db_complete_of_ended undisturbed exclusive ended
  · intro execution
    exact (trail_proceed undisturbed_create steps).countP_le_one

/-- An execution is completed before it is recovered and before its dispatch is known to have failed. -/
private def contested : List Step :=
  [.perform (.createSession ⟨some "s", "ws", "p", none, none, false, none, none, none, "user"⟩),
    .perform (.execute ⟨"ws", "s", "hello", "user"⟩), .perform (.complete "exec_" ""),
    .recover { (default : Execution) with execution := "exec_" },
    .perform (.answerDispatch "exec_" (.error .timeout))]

example : (((create 1 8 8).endings .plain contested).map fun ending =>
    (ending.1.db.stateOf "exec_", ending.2.db.stateOf "exec_")) =
      [(some .pending, some .completed), (some .completed, some .completed),
        (some .completed, some .completed)] := by
  decide +kernel

end Hub

end Switchboard
