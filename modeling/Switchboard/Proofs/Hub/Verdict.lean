import Switchboard.Proofs.Hub.Atomic

/-!
The answer to a request.

A request to execute is decided by the session it names and by the number of active executions in
its workspace, the session first.  Whatever else a hub answers comes from the store, and where no
statement is refused and unique texts are unique nothing comes from there.
-/

namespace Switchboard

namespace Transaction

variable {ε α β : Type} {w : World} {m : Meter} {db : Database} {t : Transaction ε α}
  {f : α → Transaction ε β} {Given : α → Database → Prop} {e : ε}

def Fails (t : Transaction ε α) (w : World) (m : Meter) (db : Database) (e : ε) : Prop :=
  ∃ m', t w m db = (m', .error e)

theorem Fails.bind (failed : t.Fails w m db e) : (t >>= f).Fails w m db e := by
  obtain ⟨m', outcome⟩ := failed
  exact ⟨m', bind_eq_error.mpr (.inl outcome)⟩

theorem Gives.bind_fails (first : t.Gives w m db Given)
    (rest : ∀ m₁ a db₁, m.Before m₁ → Given a db₁ → (f a).Fails w m₁ db₁ e) :
    (t >>= f).Fails w m db e := by
  obtain ⟨m₁, a, db₁, done, before, given⟩ := first
  obtain ⟨m₂, failed⟩ := rest m₁ a db₁ before given
  exact ⟨m₂, bind_eq_error.mpr (.inr ⟨m₁, a, db₁, done, failed⟩)⟩

theorem Fails.committed {wrap : StoreError → ε} (calm : w.CalmFrom m)
    (body : ∀ m₁, m.Before m₁ → t.Fails w m₁ db e) : (committed wrap t).Fails w m db e := by
  refine (gives_mark calm).mapError.bind_fails ?_
  intro m₁ _ _ begun kept
  subst kept
  exact (body m₁ begun).bind

end Transaction

/-- How a request is decided. -/
def Database.verdict (limit : Nat) (request : ExecuteRequest) (db : Database) :
    Except HubError Unit :=
  match db.sessionIn request.workspace request.session with
  | none => .error (.notFound .session request.session)
  | some session =>
    match session.holder with
    | some active => .error (.sessionBusy session.session active)
    | none =>
      let current := db.activeCount request.workspace
      if limit ≠ 0 ∧ limit ≤ current then .error (.quotaExceeded request.workspace limit current)
      else .ok ()

theorem Database.of_verdict_eq_ok {limit : Nat} {request : ExecuteRequest} {db : Database}
    (accepted : db.verdict limit request = .ok ()) :
    ∃ session, db.sessionIn request.workspace request.session = some session ∧
      session.holder = none ∧ (limit = 0 ∨ db.activeCount request.workspace < limit) := by
  unfold verdict at accepted
  split at accepted
  · cases accepted
  · rename_i session found
    split at accepted
    · cases accepted
    · rename_i free
      simp only at accepted
      split at accepted
      · cases accepted
      · exact ⟨session, found, free, by omega⟩

theorem Database.verdict_ne_store {limit : Nat} {request : ExecuteRequest} {db : Database}
    {cause : StoreError} : db.verdict limit request ≠ .error (.store cause) := by
  intro refused
  unfold verdict at refused
  split at refused
  · cases refused
  · split at refused
    · cases refused
    · simp only at refused
      split at refused <;> cases refused

namespace Hub

open Transaction

variable {w : World} {h : Hub} {m : Meter} {db : Database} {limit : Nat} {request : ExecuteRequest}
  {session : Session}

theorem fails_checkFree {active : ExecutionId} (held : session.holder = some active) :
    (checkFree session).Fails w m db (.sessionBusy session.session active) := by
  refine ⟨m, ?_⟩
  unfold checkFree
  rw [held]
  rfl

theorem fails_checkQuota {workspace : WorkspaceId} (calm : w.CalmFrom m)
    (undisturbed : db.Undisturbed) (limited : limit ≠ 0)
    (full : limit ≤ db.activeCount workspace) :
    (checkQuota limit workspace).Fails w m db
      (.quotaExceeded workspace limit (db.activeCount workspace)) := by
  unfold checkQuota
  rw [if_neg limited]
  refine (Execution.gives_countActive calm undisturbed).mapError.bind_fails ?_
  intro m₁ count _ _ counted
  obtain ⟨rfl, rfl⟩ := counted
  rw [if_pos full]
  exact ⟨m₁, rfl⟩

theorem fails_admission {e : HubError} (calm : w.CalmFrom m) (undisturbed : db.Undisturbed)
    (refused : db.verdict limit request = .error e) :
    (admission limit request).Fails w m db e := by
  refine Fails.committed calm fun m₁ begun => ?_
  have calm₁ := calm.mono begun
  unfold Database.verdict at refused
  cases found : db.sessionIn request.workspace request.session with
  | none =>
      simp only [found] at refused
      cases refused
      refine (Session.gives_getIn calm₁ found).mapError.bind_fails ?_
      intro m₂ _ _ _ answered
      obtain ⟨rfl, rfl⟩ := answered
      exact Fails.bind ⟨m₂, rfl⟩
  | some session =>
      refine (Session.gives_getIn calm₁ found).mapError.bind_fails ?_
      intro m₂ _ _ sought answered
      obtain ⟨rfl, rfl⟩ := answered
      have calm₂ := calm₁.mono sought
      simp only [found] at refused
      simp only [need, pure_bind]
      cases holder : session.holder with
      | some active =>
          simp only [holder] at refused
          cases refused
          exact (fails_checkFree holder).bind
      | none =>
          refine (gives_checkFree holder).bind_fails ?_
          intro m₃ _ _ checked kept
          subst kept
          simp only [holder] at refused
          split at refused
          · rename_i full
            cases refused
            exact (fails_checkQuota (calm₂.mono checked) undisturbed full.1 full.2).bind
          · cases refused

/-- A request is answered by the verdict or not at all. -/
theorem answer_eq_verdict (undisturbed : h.db.Undisturbed)
    (carried : ∀ cause, (h.execute w request).1 ≠ .error (.store cause)) :
    (h.execute w request).1.map (fun _ => ()) = h.db.verdict h.limit request := by
  unfold Database.verdict
  rcases outcome : admission h.limit request w h.meter h.db with ⟨m, e | ⟨a, db⟩⟩
  · have failed : (h.execute w request).1 = .error e := by
      simp only [execute, transact, outcome]
    rw [failed]
    rcases of_admission_eq_error undisturbed outcome with
      ⟨cause, rfl⟩ | ⟨rfl, absent⟩ | ⟨session, found, ⟨active, held, rfl⟩ | ⟨free, limited, full, rfl⟩⟩
    · exact absurd failed (carried cause)
    · simp only [absent]
      rfl
    · simp only [found, held]
      rfl
    · simp only [found, free, limited, full, ne_eq, not_false_eq_true, and_self, if_true]
      rfl
  · obtain ⟨session, _, _, _, -, -, ⟨found, free, room, -⟩, -⟩ := of_admission undisturbed outcome
    have done : (h.execute w request).1.map (fun _ => ()) = .ok () := by
      simp only [execute, transact, outcome]
      rfl
    have fits : ¬ (h.limit ≠ 0 ∧ h.limit ≤ h.db.activeCount request.workspace) := by omega
    simp only [done, found, free, if_neg fits]

/-- The store fails no request where nothing goes wrong outside the hub. -/
theorem execute_ne_store (undisturbed : h.db.Undisturbed) (minted : h.Minted w)
    (sound : w.SoundFrom h.meter) :
    ∀ cause, (h.execute w request).1 ≠ .error (.store cause) := by
  intro cause failed
  cases decided : h.db.verdict h.limit request with
  | error e =>
      obtain ⟨m, refused⟩ := fails_admission sound.calm undisturbed decided
      simp only [execute, transact, refused] at failed
      cases failed
      exact Database.verdict_ne_store decided
  | ok _ =>
      obtain ⟨session, found, free, room⟩ := Database.of_verdict_eq_ok decided
      obtain ⟨m, a, db, done, -, -⟩ :=
        gives_admission sound.calm undisturbed found free room (minted.ne_fresh sound.unique)
      simp only [execute, transact, done] at failed
      cases failed

end Hub

end Switchboard
