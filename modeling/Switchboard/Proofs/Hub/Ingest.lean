import Switchboard.Proofs.Hub.Run

/-!
Taking events in, part by part.

A batch is committed, the events that it newly stored are published, and if one of its events is a
`done` event the execution is completed in a transaction of its own.  A batch that is not committed
does nothing at all.
-/

namespace Switchboard.Hub

open Transaction

variable {w : World} {h after : Hub} {m m' : Meter} {db : Database} {execution : ExecutionId}
  {events : List WorkerEvent} {batch : Batch}

theorem of_transact_eq_ok {ε α : Type} {t : Transaction ε α} {a : α}
    (done : h.transact w t = (.ok a, after)) :
    ∃ m db, t w h.meter h.db = (m, .ok (a, db)) ∧ after = { h with meter := m, db := db } := by
  unfold transact at done
  split at done <;> rename_i outcome <;> cases done
  exact ⟨_, _, outcome, rfl⟩

theorem of_transact_eq_error {ε α : Type} {t : Transaction ε α} {e : ε}
    (failed : h.transact w t = (.error e, after)) : ∃ m, after = { h with meter := m } := by
  unfold transact at failed
  split at failed <;> cases failed
  exact ⟨_, rfl⟩

/-- The events that are published of a batch. -/
def posts (w : World) (execution : ExecutionId) (events : List WorkerEvent) (h : Hub) : List Event :=
  match (h.transact w (takeBatch execution events)).1 with
  | .ok batch => batch.fresh
  | .error _ => []

theorem posts_of_ok (committed : h.transact w (takeBatch execution events) = (.ok batch, after)) :
    h.posts w execution events = batch.fresh := by
  simp only [posts, committed]

theorem posts_of_error {e : HubError}
    (refused : h.transact w (takeBatch execution events) = (.error e, after)) :
    h.posts w execution events = [] := by
  simp only [posts, refused]

/-- The state in which an execution ends by what its worker reports. -/
def concluding (reported : String) : ExecutionState :=
  match terminalState reported with
  | .ok state => state
  | .error _ => .failed

theorem isTerminal_concluding (reported : String) : (concluding reported).isTerminal := by
  unfold concluding
  split
  · rename_i state accepted
    exact isTerminal_of_terminalState accepted
  · rfl

/-- Nothing about the state is wrong any more once a completion has begun. -/
theorem completeRow_ne_invalidState {state : ExecutionState} {reason : Unacceptable} :
    completeRow execution state w m db ≠ (m', .error (.invalidState reason)) := by
  intro failed
  rcases of_committed_eq_error failed with ⟨_, stored⟩ | failed
  · cases stored
  rcases of_sought_eq_error failed with ⟨_, stored⟩ | ⟨absent, -⟩ | ⟨_, _, _, -, failed⟩
  · cases stored
  · cases absent
  rw [now_bind] at failed
  rcases bind_eq_error.mp failed with failed | ⟨_, _, _, -, failed⟩
  · obtain ⟨_, stored⟩ := of_onStore_eq_error failed
    cases stored
  rcases bind_eq_error.mp failed with failed | ⟨_, _, _, -, failed⟩
  · obtain ⟨_, stored⟩ := of_onStore_eq_error failed
    cases stored
  · exact absurd failed pure_ne_error

/-- A conclusion is one transaction, whatever was reported. -/
theorem conclude_eq_transact (reported : String) :
    h.conclude w execution reported =
      h.transact w (completeRow execution (concluding reported)) := by
  unfold conclude concluding complete
  cases accepted : terminalState reported with
  | error reason => rfl
  | ok state =>
      simp only
      unfold transact
      rcases outcome : completeRow execution state w h.meter h.db with ⟨m, e | ⟨_, db⟩⟩
      · cases e with
        | invalidState reason => exact absurd outcome completeRow_ne_invalidState
        | _ => rfl
      · rfl

theorem ingest_of_error {e : HubError}
    (refused : h.transact w (takeBatch execution events) = (.error e, after)) :
    h.ingest w execution events = (.error e, after) := by
  simp only [ingest, refused]

theorem ingest_of_ok (committed : h.transact w (takeBatch execution events) = (.ok batch, after)) :
    h.ingest w execution events =
      let report : IngestReport := ⟨batch.fresh.length, batch.duplicates⟩
      let published := { after with bus := after.bus.publishAll batch.fresh }
      match batch.outcome with
      | none => (.ok report, published)
      | some reported =>
        let concluded := published.transact w (completeRow execution (concluding reported))
        (concluded.1.map fun _ => report, concluded.2) := by
  simp only [ingest, committed, conclude_eq_transact]
  cases batch.outcome with
  | none => rfl
  | some reported =>
      simp only
      split <;> rename_i outcome <;> rw [outcome] <;> rfl

theorem bus_transact {ε α : Type} {t : Transaction ε α} : (h.transact w t).2.bus = h.bus := by
  rw [transact_eq]

/-- Of a batch the events that it newly stored are published, in their order, and nothing else. -/
theorem bus_ingest : (h.ingest w execution events).2.bus =
    h.bus.publishAll (h.posts w execution events) := by
  have same : (h.transact w (takeBatch execution events)).2.bus = h.bus := bus_transact
  rcases outcome : h.transact w (takeBatch execution events) with ⟨e | batch, after⟩ <;>
    simp only [outcome] at same
  · rw [ingest_of_error outcome, posts_of_error outcome]
    exact same
  · rw [ingest_of_ok outcome, posts_of_ok outcome]
    cases batch.outcome with
    | none => simp only [same]
    | some reported => simp only [bus_transact, same]

/-- A call fails before its batch is committed, or after that in ending the execution. -/
theorem of_ingest_eq_error {e : HubError} (failed : (h.ingest w execution events).1 = .error e) :
    (∃ e' after, h.transact w (takeBatch execution events) = (.error e', after) ∧
      (h.ingest w execution events).2.db = h.db) ∨
    ∃ batch after reported, h.transact w (takeBatch execution events) = (.ok batch, after) ∧
      batch.outcome = some reported ∧ (h.ingest w execution events).2.db = after.db := by
  rcases outcome : h.transact w (takeBatch execution events) with ⟨e' | batch, after⟩
  · refine .inl ⟨e', after, rfl, ?_⟩
    obtain ⟨m, rfl⟩ := of_transact_eq_error outcome
    rw [ingest_of_error outcome]
  · rw [ingest_of_ok outcome] at failed ⊢
    cases ending : batch.outcome with
    | none =>
        rw [ending] at failed
        cases failed
    | some reported =>
        refine .inr ⟨batch, after, reported, rfl, ending, ?_⟩
        simp only [ending, Except.map] at failed ⊢
        split at failed
        · rename_i refused
          obtain ⟨m, same⟩ := of_transact_eq_error (Prod.ext refused rfl)
          have tables := congrArg Hub.db same
          exact tables
        · cases failed

/-- A call that succeeds has heeded the outcome its batch names. -/
theorem db_ingest_of_ok {report : IngestReport}
    (committed : h.transact w (takeBatch execution events) = (.ok batch, after))
    (undisturbed : after.db.Undisturbed) (done : (h.ingest w execution events).1 = .ok report) :
    (batch.outcome = none ∧ (h.ingest w execution events).2.db = after.db) ∨
    ∃ reported at_ freedAt, batch.outcome = some reported ∧
      (h.ingest w execution events).2.db =
        (Change.finish execution (concluding reported) at_ freedAt).apply after.db := by
  rw [ingest_of_ok committed] at done ⊢
  cases ending : batch.outcome with
  | none => exact .inl ⟨rfl, rfl⟩
  | some reported =>
      simp only [ending, Except.map] at done ⊢
      split at done
      · cases done
      · rename_i ended
        obtain ⟨m, db, completed, same⟩ := of_transact_eq_ok (Prod.ext ended rfl)
        obtain ⟨-, at_, freedAt, rfl⟩ := of_completeRow undisturbed completed
        exact .inr ⟨reported, at_, freedAt, rfl, congrArg Hub.db same⟩

/-- A call that succeeds has committed its batch and reports what became of it. -/
theorem of_ingest_eq_ok {report : IngestReport}
    (done : (h.ingest w execution events).1 = .ok report) :
    ∃ batch after, h.transact w (takeBatch execution events) = (.ok batch, after) ∧
      report = ⟨batch.fresh.length, batch.duplicates⟩ := by
  rcases outcome : h.transact w (takeBatch execution events) with ⟨e | batch, after⟩
  · rw [ingest_of_error outcome] at done
    cases done
  · refine ⟨batch, after, rfl, ?_⟩
    rw [ingest_of_ok outcome] at done
    cases ending : batch.outcome with
    | none =>
        rw [ending] at done
        cases done
        rfl
    | some reported =>
        simp only [ending, Except.map] at done
        split at done
        · cases done
        · cases done
          rfl

end Switchboard.Hub
