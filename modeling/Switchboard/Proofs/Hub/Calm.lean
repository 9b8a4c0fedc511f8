import Switchboard.Proofs.Hub.Commit
import Switchboard.Proofs.Store.Progress

/-!
What goes through in calm.

Where the world refuses no statement, ending an execution that exists goes through, and so do a batch
of its events and an admission that finds its session free, room in the workspace and an identifier
that is not taken.
-/

namespace Switchboard

open Transaction

variable {w : World} {m : Meter} {db : Database} {execution : ExecutionId} {ε : Type}

theorem gives_now : (now : Transaction ε String).Gives w m db fun _ after => after = db :=
  ⟨_, _, _, now_apply, m.before_afterReading, rfl⟩

theorem gives_mint {kind : IdKind} :
    (mint kind : Transaction ε String).Gives w m db
      fun id after => id = w.fresh m kind ∧ after = db :=
  ⟨_, _, _, mint_apply, m.before_afterMint, rfl, rfl⟩

namespace Execution

theorem gives_updateOne {test : Execution → Bool} {change : Execution → Execution}
    (calm : w.CalmFrom m) (undisturbed : db.Undisturbed) :
    (updateOne execution test change).Gives w m db fun _ after => after.Undisturbed :=
  ⟨_, _, _, (updateOne_eq_ok undisturbed).mpr ⟨calm.passes, rfl, rfl, rfl⟩,
    m.before_afterStatement, undisturbed.withExecutions _⟩

theorem gives_get {row : Execution} (calm : w.CalmFrom m) (undisturbed : db.Undisturbed)
    (found : db.executions.find? (·.execution = execution) = some row) :
    (get execution).Gives w m db fun answer after => answer = some row ∧ after = db :=
  ⟨_, _, _, (get_eq_ok undisturbed).mpr ⟨calm.passes, rfl, found, rfl⟩, m.before_afterStatement,
    rfl, rfl⟩

theorem gives_getIn {workspace : WorkspaceId} {row : Execution} (calm : w.CalmFrom m)
    (undisturbed : db.Undisturbed)
    (found : (db.executions.find? fun row =>
      row.execution = execution && row.workspace = workspace) = some row) :
    (getIn workspace execution).Gives w m db fun answer after => answer = some row ∧ after = db :=
  ⟨_, _, _, (getIn_eq_ok undisturbed).mpr ⟨calm.passes, rfl, found, rfl⟩, m.before_afterStatement,
    rfl, rfl⟩

theorem gives_countActive {workspace : WorkspaceId} (calm : w.CalmFrom m)
    (undisturbed : db.Undisturbed) :
    (countActive workspace).Gives w m db
      fun count after => count = db.activeCount workspace ∧ after = db :=
  ⟨_, _, _, (countActive_eq_ok undisturbed).mpr ⟨calm.passes, rfl, rfl, rfl⟩,
    m.before_afterStatement, rfl, rfl⟩

theorem gives_insert {new : NewExecution} (calm : w.CalmFrom m) (undisturbed : db.Undisturbed)
    (fresh : ∀ stored ∈ db.executions, stored.execution ≠ new.execution)
    (parent : ∃ session ∈ db.sessions, session.session = new.session) :
    (insert new).Gives w m db fun _ after => after.Undisturbed :=
  ⟨_, _, _, (insert_eq_ok undisturbed).mpr ⟨calm.passes, rfl, rfl, fresh, parent, rfl⟩,
    m.before_afterReading.trans m.afterReading.before_afterStatement, undisturbed.withExecutions _⟩

end Execution

namespace Session

theorem gives_getIn {workspace : WorkspaceId} {session : SessionId} {found : Option Session}
    (calm : w.CalmFrom m) (lookup : db.sessionIn workspace session = found) :
    (getIn workspace session).Gives w m db fun answer after => answer = found ∧ after = db :=
  ⟨_, _, _, getIn_eq_ok.mpr ⟨calm.passes, rfl, lookup, rfl⟩, m.before_afterStatement, rfl, rfl⟩

theorem gives_release (calm : w.CalmFrom m) (undisturbed : db.Undisturbed) :
    (release execution).Gives w m db fun _ _ => True :=
  ⟨_, _, _, (release_eq_ok undisturbed).mpr ⟨calm.passes, rfl, rfl, rfl⟩,
    m.before_afterReading.trans m.afterReading.before_afterStatement, trivial⟩

theorem gives_transition {source target : SessionStatus} (calm : w.CalmFrom m)
    (undisturbed : db.Undisturbed) :
    (transition execution source target).Gives w m db fun _ _ => True :=
  ⟨_, _, _, (transition_eq_ok undisturbed).mpr ⟨calm.passes, rfl, rfl, rfl⟩,
    m.before_afterReading.trans m.afterReading.before_afterStatement, trivial⟩

theorem gives_bind {session : SessionId} (calm : w.CalmFrom m) (undisturbed : db.Undisturbed) :
    (bind session execution).Gives w m db fun _ _ => True :=
  ⟨_, _, _, (bind_eq_ok undisturbed).mpr ⟨calm.passes, rfl, rfl, rfl⟩,
    m.before_afterReading.trans m.afterReading.before_afterStatement, trivial⟩

end Session

theorem ProjectRow.gives_rootOf {project : ProjectId} (calm : w.CalmFrom m) :
    (rootOf project).Gives w m db fun _ after => after = db :=
  ⟨_, _, _, rootOf_eq_ok.mpr ⟨calm.passes, rfl, rfl, rfl⟩, m.before_afterStatement, rfl⟩

theorem EventRow.gives_append {event : Event} (calm : w.CalmFrom m) (undisturbed : db.Undisturbed)
    (parent : ∃ row ∈ db.executions, row.execution = event.execution) :
    (append event).Gives w m db fun _ after => after.Undisturbed :=
  ⟨_, _, _, (append_eq_ok undisturbed parent).mpr ⟨calm.passes, rfl, rfl, rfl⟩,
    m.before_afterStatement, undisturbed.withEvents _⟩

namespace Hub

theorem refused_of_transact_eq_error {h after : Hub} {α : Type} {t : Transaction ε α} {e : ε}
    {Given : α → Database → Prop} (composed : t.Composed)
    (gives : ∀ w' : World, w'.CalmFrom h.meter → t.Gives w' h.meter h.db Given)
    (failed : h.transact w t = (.error e, after)) : ¬ w.CalmBetween h.meter after.meter := by
  unfold transact at failed
  split at failed
  · cases failed
  · rename_i outcome
    cases failed
    exact composed.refused_of_error gives outcome

theorem gives_ending {α : Type} {answer : α} {test : Execution → Bool}
    {change : String → Execution → Execution} (calm : w.CalmFrom m) (undisturbed : db.Undisturbed) :
    Gives (do
      let _ ← onStore (Execution.updateOne execution test (change (← now)))
      let _ ← onStore (Session.release execution)
      return answer) w m db fun _ _ => True := by
  refine gives_now.bind ?_
  intro m₁ at_ _ read kept
  subst kept
  refine (Execution.gives_updateOne (calm.mono read) undisturbed).mapError.bind ?_
  intro m₂ _ db₁ ended undisturbed₁
  refine (Session.gives_release ((calm.mono read).mono ended) undisturbed₁).mapError.bind ?_
  intro m₃ _ _ _ _
  exact gives_pure trivial

theorem gives_cancelRow {workspace : WorkspaceId} {row : Execution} (calm : w.CalmFrom m)
    (undisturbed : db.Undisturbed)
    (found : (db.executions.find? fun row =>
      row.execution = execution && row.workspace = workspace) = some row) :
    (cancelRow workspace execution).Gives w m db fun _ _ => True := by
  refine Gives.committed calm fun m₁ begun => ?_
  refine Gives.sought (Execution.gives_getIn (calm.mono begun) undisturbed found) fun m₂ sought => ?_
  exact gives_ending ((calm.mono begun).mono sought) undisturbed

theorem gives_completeRow {state : ExecutionState} {row : Execution} (calm : w.CalmFrom m)
    (undisturbed : db.Undisturbed)
    (found : db.executions.find? (·.execution = execution) = some row) :
    (completeRow execution state).Gives w m db fun _ _ => True := by
  refine Gives.committed calm fun m₁ begun => ?_
  refine Gives.sought (Execution.gives_get (calm.mono begun) undisturbed found) fun m₂ sought => ?_
  exact gives_ending ((calm.mono begun).mono sought) undisturbed

theorem gives_failSilent {at_ : String} (calm : w.CalmFrom m) (undisturbed : db.Undisturbed) :
    (failSilent execution at_).Gives w m db fun _ _ => True := by
  refine Gives.committed calm fun m₁ begun => ?_
  refine (Execution.gives_updateOne (calm.mono begun) undisturbed).bind ?_
  intro m₂ failed _ ended undisturbed₁
  cases failed with
  | true =>
      refine (Session.gives_release ((calm.mono begun).mono ended) undisturbed₁).bind ?_
      intro m₃ _ _ _ _
      exact gives_pure trivial
  | false => exact gives_pure trivial

theorem gives_resume {row : Execution} (calm : w.CalmFrom m) (undisturbed : db.Undisturbed)
    (found : db.executions.find? (·.execution = execution) = some row) :
    (resume execution).Gives w m db fun _ _ => True := by
  refine Gives.sought (Execution.gives_get calm undisturbed found) fun m₁ sought => ?_
  refine (Session.gives_transition (calm.mono sought) undisturbed).mapError.bind ?_
  intro m₂ _ _ _ _
  exact gives_pure trivial

variable {trace : Option TraceId} {batch : Batch} {raw : WorkerEvent} {events : List WorkerEvent}

theorem gives_stamped :
    (stamped execution trace raw).Gives w m db
      fun event after => event.execution = execution ∧ after = db := by
  unfold stamped
  cases normalize raw.timestamp with
  | some timestamp => exact gives_pure ⟨rfl, rfl⟩
  | none =>
      refine gives_now.bind ?_
      intro m₁ at_ _ _ kept
      exact gives_pure ⟨rfl, kept⟩

theorem gives_takeEvent (calm : w.CalmFrom m) (undisturbed : db.Undisturbed)
    (parent : ∃ row ∈ db.executions, row.execution = execution) :
    (takeEvent execution trace batch raw).Gives w m db fun _ after =>
      after.Undisturbed ∧ ∃ row ∈ after.executions, row.execution = execution := by
  have gives : (takeEvent execution trace batch raw).Gives w m db fun _ _ => True := by
    refine gives_stamped.bind ?_
    intro m₁ event _ read stamped
    obtain ⟨rfl, rfl⟩ := stamped
    have calm₁ := calm.mono read
    refine (EventRow.gives_append calm₁ undisturbed parent).bind ?_
    intro m₂ stored db₂ appended undisturbed₂
    have calm₂ := calm₁.mono appended
    refine (Execution.gives_updateOne calm₂ undisturbed₂).bind ?_
    intro m₃ _ db₃ heard undisturbed₃
    split
    · refine (Session.gives_transition (calm₂.mono heard) undisturbed₃).bind ?_
      intro m₄ _ _ _ _
      exact gives_pure trivial
    · exact gives_pure trivial
  refine gives.telling fun done => ?_
  obtain ⟨event, at_, -, -, rfl⟩ := of_takeEvent undisturbed parent done
  exact ⟨Change.undisturbed_apply undisturbed, Change.exists_execution_apply parent⟩

theorem gives_takeEvents (calm : w.CalmFrom m) (undisturbed : db.Undisturbed)
    (parent : ∃ row ∈ db.executions, row.execution = execution) :
    (events.foldlM (takeEvent execution trace) batch).Gives w m db fun _ _ => True := by
  induction events generalizing batch m db with
  | nil => exact gives_pure trivial
  | cons raw events ih =>
      rw [List.foldlM_cons]
      refine (gives_takeEvent calm undisturbed parent).bind ?_
      intro m₁ batch₁ db₁ taken kept
      exact ih (calm.mono taken) kept.1 kept.2

theorem gives_takeBatch {row : Execution} (calm : w.CalmFrom m) (undisturbed : db.Undisturbed)
    (found : db.executions.find? (·.execution = execution) = some row) :
    (takeBatch execution events).Gives w m db fun _ _ => True := by
  refine Gives.committed calm fun m₁ begun => ?_
  refine Gives.sought (Execution.gives_get (calm.mono begun) undisturbed found) fun m₂ sought => ?_
  exact (gives_takeEvents ((calm.mono begun).mono sought) undisturbed
    (Database.exists_of_find?_execution found)).mapError

variable {limit : Nat} {request : ExecuteRequest} {session : Session}

theorem gives_checkFree (free : session.holder = none) :
    (checkFree session).Gives w m db fun _ after => after = db := by
  unfold checkFree
  rw [free]
  exact gives_pure rfl

theorem gives_checkQuota {workspace : WorkspaceId} (calm : w.CalmFrom m)
    (undisturbed : db.Undisturbed) (room : limit = 0 ∨ db.activeCount workspace < limit) :
    (checkQuota limit workspace).Gives w m db fun _ after => after = db := by
  unfold checkQuota
  split
  · exact gives_pure rfl
  · rename_i limited
    refine (Execution.gives_countActive calm undisturbed).mapError.bind ?_
    intro m₁ count _ _ counted
    obtain ⟨rfl, rfl⟩ := counted
    rw [if_neg (by omega)]
    exact gives_pure rfl

theorem gives_enter (calm : w.CalmFrom m) (undisturbed : db.Undisturbed)
    (parent : ∃ session ∈ db.sessions, session.session = request.session)
    (fresh : ∀ stored ∈ db.executions, stored.execution ≠ w.fresh m .execution) :
    (enter request session).Gives w m db fun _ _ => True := by
  refine gives_mint.bind ?_
  intro m₁ _ _ minted named
  obtain ⟨rfl, rfl⟩ := named
  refine gives_mint.bind ?_
  intro m₂ _ _ minted' traced
  obtain ⟨rfl, rfl⟩ := traced
  have calm₂ := (calm.mono minted).mono minted'
  refine (ProjectRow.gives_rootOf calm₂).bind ?_
  intro m₃ root _ found kept
  subst kept
  have calm₃ := calm₂.mono found
  refine (Execution.gives_insert calm₃ undisturbed fresh parent).bind ?_
  intro m₄ _ db₁ inserted undisturbed₁
  refine (Session.gives_bind (calm₃.mono inserted) undisturbed₁).bind ?_
  intro m₅ _ _ _ _
  exact gives_pure trivial

theorem gives_admission (calm : w.CalmFrom m) (undisturbed : db.Undisturbed)
    (found : db.sessionIn request.workspace request.session = some session)
    (free : session.holder = none)
    (room : limit = 0 ∨ db.activeCount request.workspace < limit)
    (fresh : ∀ later, m.Before later → ∀ stored ∈ db.executions,
      stored.execution ≠ w.fresh later .execution) :
    (admission limit request).Gives w m db fun _ _ => True := by
  have parent : ∃ session ∈ db.sessions, session.session = request.session := by
    obtain ⟨member, same, _⟩ := Database.of_sessionIn_eq_some found
    exact ⟨session, member, same⟩
  refine Gives.committed calm fun m₁ begun => ?_
  refine Gives.sought (Session.gives_getIn (calm.mono begun) found) fun m₂ sought => ?_
  refine (gives_checkFree free).bind ?_
  intro m₃ _ _ checked kept
  subst kept
  have before := (begun.trans sought).trans checked
  refine (gives_checkQuota (calm.mono before) undisturbed room).bind ?_
  intro m₄ _ _ counted kept
  subst kept
  have before' := before.trans counted
  exact (gives_enter (calm.mono before') undisturbed parent (fresh _ before')).mapError

end Hub

end Switchboard
