import Switchboard.Proofs.Hub.Ingest
import Switchboard.Proofs.Hub.Quota

/-!
All or nothing.

An operation writes in one transaction and does the rest only after that is committed: it publishes,
forwards a decision, hands out an assignment.  So one that fails has done nothing, wherever it failed.
It fails where something stands in its way or a statement of it is refused, and not otherwise.
-/

namespace Switchboard

/-- Whether nothing goes wrong outside the hub from a moment on. -/
structure World.SoundFrom (w : World) (m : Meter) : Prop where
  unique : Function.Injective w.unique
  calm : w.CalmFrom m

namespace Hub

open Transaction

variable {w : World} {h : Hub} {obstacle : Prop} {α β : Type}

/-- An operation that is carried out as a whole or not at all, by what may stand in its way. -/
structure AllOrNothing (w : World) (h : Hub) (obstacle : Prop) (outcome : Except HubError α × Hub) :
    Prop where
  stopped : obstacle → ∃ e, outcome.1 = .error e
  heeded : ¬ w.CalmBetween h.meter outcome.2.meter → ∃ e, outcome.1 = .error e
  nothing : ∀ e, outcome.1 = .error e → outcome.2 = { h with meter := outcome.2.meter }
  goes : w.SoundFrom h.meter → ¬ obstacle → ∃ a, outcome.1 = .ok a

theorem allOrNothing_transact {t : Transaction HubError α} (composed : t.Composed)
    (clear : ∀ {m a db}, t w h.meter h.db = (m, .ok (a, db)) → ¬ obstacle)
    (gives : w.SoundFrom h.meter → ¬ obstacle → t.Gives w h.meter h.db fun _ _ => True) :
    AllOrNothing w h obstacle (h.transact w t) := by
  unfold transact
  rcases outcome : t w h.meter h.db with ⟨m, e | ⟨a, db⟩⟩
  · refine ⟨fun _ => ⟨e, rfl⟩, fun _ => ⟨e, rfl⟩, fun _ _ => rfl, ?_⟩
    intro sound free
    obtain ⟨_, _, _, done, -⟩ := gives sound free
    rw [outcome] at done
    cases done
  · refine ⟨?_, ?_, ?_, fun _ _ => ⟨a, rfl⟩⟩
    · intro stands
      exact absurd stands (clear outcome)
    · intro refused
      exact absurd (composed.calmBetween outcome) refused
    · intro e failed
      contradiction

/-- What is done after a success does not take part in a failure. -/
theorem AllOrNothing.andThen {outcome : Except HubError α × Hub} {outcome' : Except HubError β × Hub}
    (first : AllOrNothing w h obstacle outcome)
    (failed : ∀ e after, outcome = (.error e, after) → outcome' = (.error e, after))
    (went : ∀ a after, outcome = (.ok a, after) →
      (∃ b, outcome'.1 = .ok b) ∧ outcome'.2.meter.statements = after.meter.statements) :
    AllOrNothing w h obstacle outcome' := by
  obtain ⟨stopped, heeded, nothing, goes⟩ := first
  rcases outcome with ⟨e | a, after⟩
  · rw [failed e after rfl]
    refine ⟨fun _ => ⟨e, rfl⟩, fun _ => ⟨e, rfl⟩, fun _ _ => nothing e rfl, ?_⟩
    intro sound free
    obtain ⟨_, went⟩ := goes sound free
    cases went
  · obtain ⟨⟨b, answered⟩, still⟩ := went a after rfl
    refine ⟨?_, ?_, ?_, fun _ _ => ⟨b, answered⟩⟩
    · intro stands
      obtain ⟨e, stopped⟩ := stopped stands
      contradiction
    · intro refused
      simp only [World.CalmBetween, still] at refused
      obtain ⟨e, stopped⟩ := heeded refused
      contradiction
    · intro e stopped
      rw [answered] at stopped
      contradiction

theorem AllOrNothing.of_rejected {e : HubError} (stands : obstacle) :
    AllOrNothing (α := α) w h obstacle (.error e, h) :=
  ⟨fun _ => ⟨e, rfl⟩, fun _ => ⟨e, rfl⟩, fun _ _ => rfl, fun _ free => absurd stands free⟩

theorem allOrNothing_execute (undisturbed : h.db.Undisturbed) (minted : h.Minted w)
    (request : ExecuteRequest) :
    AllOrNothing w h
      (h.db.sessionIn request.workspace request.session = none ∨
        (∃ session, h.db.sessionIn request.workspace request.session = some session ∧
          session.holder ≠ none) ∨
        (h.limit ≠ 0 ∧ h.limit ≤ h.db.activeCount request.workspace))
      (h.execute w request) := by
  refine AllOrNothing.andThen (allOrNothing_transact (composed_admission h.limit request) ?_ ?_)
    (fun e after failed => by simp [execute, failed])
    (fun a after went => by simp [execute, went])
  · intro m a db done stands
    obtain ⟨session, _, _, _, -, -, ⟨found, free, room, -⟩, -⟩ := of_admission undisturbed done
    rcases stands with absent | ⟨other, found', held⟩ | ⟨limited, full⟩
    · rw [found] at absent
      contradiction
    · rw [found] at found'
      cases found'
      exact held free
    · omega
  · intro sound clear
    obtain ⟨known, idle, room⟩ := not_or.mp clear |>.imp_right not_or.mp
    obtain ⟨session, found⟩ := Option.ne_none_iff_exists'.mp known
    have free : session.holder = none := by
      by_contra held
      exact idle ⟨session, found, held⟩
    exact gives_admission sound.calm undisturbed found free (by omega)
      (minted.ne_fresh sound.unique)

theorem allOrNothing_cancel (undisturbed : h.db.Undisturbed) (workspace : WorkspaceId)
    (execution : ExecutionId) :
    AllOrNothing w h
      (∀ row ∈ h.db.executions, ¬ (row.execution = execution ∧ row.workspace = workspace))
      (h.cancel w workspace execution) := by
  refine AllOrNothing.andThen (allOrNothing_transact (composed_cancelRow execution workspace) ?_ ?_)
    (fun e after failed => by simp [cancel, failed])
    (fun row after went => by simp [cancel, went, announce])
  · intro m row db done absent
    obtain ⟨found, -⟩ := of_cancelRow undisturbed done
    have passed := List.find?_some found
    simp only [Bool.and_eq_true, decide_eq_true_eq] at passed
    exact absent row (List.mem_of_find?_eq_some found) passed
  · intro sound known
    obtain ⟨row, member, about⟩ : ∃ row ∈ h.db.executions,
        row.execution = execution ∧ row.workspace = workspace := by simpa using known
    obtain ⟨found, lookup⟩ : ∃ found, (h.db.executions.find? fun row =>
        row.execution = execution && row.workspace = workspace) = some found := by
      rw [← Option.isSome_iff_exists, List.find?_isSome]
      exact ⟨row, member, by simpa using about⟩
    exact gives_cancelRow sound.calm undisturbed lookup

theorem find?_of_not_absent {execution : ExecutionId} {db : Database}
    (known : ¬ ∀ row ∈ db.executions, row.execution ≠ execution) :
    ∃ row, db.executions.find? (·.execution = execution) = some row :=
  Database.find?_of_exists (by simpa using known)

theorem not_absent_of_find? {execution : ExecutionId} {db : Database} {row : Execution}
    (found : db.executions.find? (·.execution = execution) = some row) :
    ¬ ∀ row ∈ db.executions, row.execution ≠ execution := by
  intro absent
  obtain ⟨row, member, same⟩ := Database.exists_of_find?_execution found
  exact absent row member same

theorem allOrNothing_complete (undisturbed : h.db.Undisturbed) (execution : ExecutionId)
    (reported : String) :
    AllOrNothing w h
      ((∀ state, terminalState reported ≠ .ok state) ∨
        ∀ row ∈ h.db.executions, row.execution ≠ execution)
      (h.complete w execution reported) := by
  unfold complete
  cases accepted : terminalState reported with
  | error reason => exact .of_rejected (.inl fun _ same => nomatch same)
  | ok state =>
      refine allOrNothing_transact (composed_completeRow execution state) ?_ ?_
      · intro m _ db done stands
        obtain ⟨⟨row, found⟩, -⟩ := of_completeRow undisturbed done
        rcases stands with unacceptable | absent
        · exact unacceptable state rfl
        · exact not_absent_of_find? found absent
      · intro sound clear
        obtain ⟨row, found⟩ := find?_of_not_absent (not_or.mp clear).2
        exact gives_completeRow sound.calm undisturbed found

theorem allOrNothing_decide (undisturbed : h.db.Undisturbed) (execution : ExecutionId)
    (call answer : String) (user : UserId) :
    AllOrNothing w h (answer ∉ answers ∨ ∀ row ∈ h.db.executions, row.execution ≠ execution)
      (h.decide w execution call answer user) := by
  by_cases known : answer ∈ answers
  case neg =>
    simp only [Hub.decide, known, not_false_eq_true, if_true]
    exact .of_rejected (.inl trivial)
  case pos =>
    refine AllOrNothing.andThen (allOrNothing_transact (composed_resume execution) ?_ ?_)
      (fun e after failed => by simp [Hub.decide, known, failed])
      (fun trace after went => by simp [Hub.decide, known, went, announce, forward])
    · intro m trace db done stands
      obtain ⟨⟨row, found, -⟩, -⟩ := of_resume undisturbed done
      rcases stands with unknown | absent
      · exact unknown known
      · exact not_absent_of_find? found absent
    · intro sound clear
      obtain ⟨row, found⟩ := find?_of_not_absent (not_or.mp clear).2
      exact gives_resume sound.calm undisturbed found

theorem allOrNothing_takeBatch (undisturbed : h.db.Undisturbed) (execution : ExecutionId)
    (events : List WorkerEvent) :
    AllOrNothing w h (∀ row ∈ h.db.executions, row.execution ≠ execution)
      (h.transact w (takeBatch execution events)) := by
  refine allOrNothing_transact (composed_takeBatch execution events) ?_ ?_
  · intro m batch db done
    obtain ⟨row, _, found, -⟩ := of_takeBatch undisturbed done
    exact not_absent_of_find? found
  · intro sound known
    obtain ⟨row, found⟩ := find?_of_not_absent known
    exact gives_takeBatch sound.calm undisturbed found

theorem forwarded_decide {execution : ExecutionId} {call answer : String} {user : UserId} {d : Decision}
    (decided : (h.decide w execution call answer user).1 = .ok d) :
    (h.decide w execution call answer user).2.forwarded = h.forwarded ++ [d] := by
  have kept : (h.transact w (resume execution)).2.forwarded = h.forwarded := by rw [transact_eq]
  unfold Hub.decide at decided ⊢
  split at decided
  · contradiction
  · rename_i known
    rw [if_neg known]
    rcases outcome : h.transact w (resume execution) with ⟨e | trace, after⟩ <;>
      simp only [outcome] at kept decided ⊢
    · contradiction
    · cases decided
      rw [← kept]
      rfl

/-- All or nothing.  After every run: a request to execute fails if its session is unknown or held or
the quota is used up; a cancellation, a completion, an answer to a confirmation or a batch of events
fails if its execution is unknown, if the state or the answer is not acceptable; each of them fails if
any statement of it is refused, and goes through if nothing of that is so and unique texts are unique.
What fails leaves the hub as it was but for what it has used of the world: no row of a table is
changed, nothing is published or forwarded, no assignment goes out.  An answer that is recorded is
forwarded once. -/
theorem all_or_nothing (w : World) (limit ring queue : Nat) (operations : List Operation) :
    let h := (create limit ring queue).run w operations
    (∀ request : ExecuteRequest,
      AllOrNothing w h
        (h.db.sessionIn request.workspace request.session = none ∨
          (∃ session, h.db.sessionIn request.workspace request.session = some session ∧
            session.holder ≠ none) ∨
          (limit ≠ 0 ∧ limit ≤ h.db.activeCount request.workspace))
        (h.execute w request)) ∧
    (∀ workspace execution,
      AllOrNothing w h
        (∀ row ∈ h.db.executions, ¬ (row.execution = execution ∧ row.workspace = workspace))
        (h.cancel w workspace execution)) ∧
    (∀ execution reported,
      AllOrNothing w h
        ((∀ state, terminalState reported ≠ .ok state) ∨
          ∀ row ∈ h.db.executions, row.execution ≠ execution)
        (h.complete w execution reported)) ∧
    (∀ execution call answer user,
      let outcome := h.decide w execution call answer user
      AllOrNothing w h (answer ∉ answers ∨ ∀ row ∈ h.db.executions, row.execution ≠ execution)
        outcome ∧
      ∀ d, outcome.1 = .ok d → outcome.2.forwarded = h.forwarded ++ [d]) ∧
    ∀ execution events,
      let taken := h.transact w (takeBatch execution events)
      AllOrNothing w h (∀ row ∈ h.db.executions, row.execution ≠ execution) taken ∧
      ∀ e, taken.1 = .error e → h.ingest w execution events = (.error e, taken.2) := by
  intro h
  have undisturbed : h.db.Undisturbed := undisturbed_run
  have ofLimit : h.limit = limit := limit_run
  have minted : h.Minted w :=
    minted_run undisturbed_create fun _ absent => absurd absent List.not_mem_nil
  refine ⟨?_, ?_, ?_, ?_, ?_⟩
  · intro request
    rw [← ofLimit]
    exact allOrNothing_execute undisturbed minted request
  · exact allOrNothing_cancel undisturbed
  · exact allOrNothing_complete undisturbed
  · intro execution call answer user outcome
    exact ⟨allOrNothing_decide undisturbed execution call answer user, fun d => forwarded_decide⟩
  · intro execution events taken
    refine ⟨allOrNothing_takeBatch undisturbed execution events, ?_⟩
    intro e failed
    exact ingest_of_error (Prod.ext failed rfl)

end Hub

end Switchboard
