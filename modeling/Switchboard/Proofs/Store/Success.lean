import Switchboard.Hub.Basic

/-!
What a successful transaction went through.

A transaction succeeds exactly if each of its parts does, and its parts are few: readings of the
clock, fresh identifiers, and statements the world lets pass.  The equations below take a successful
transaction apart into them, so that no proof about success looks at a failing path.  A transaction
that fails does so in one of its parts, the ones before having succeeded.
-/

namespace Switchboard

namespace Meter

variable (m : Meter)

@[simp] theorem statements_afterReading : m.afterReading.statements = m.statements := rfl

@[simp] theorem statements_afterMint : m.afterMint.statements = m.statements := rfl

@[simp] theorem minted_afterMint : m.afterMint.minted = m.minted + 1 := rfl

end Meter

namespace Transaction

variable {ε ε' α β : Type} {w : World} {m m' : Meter} {db db' : Database} {a : α} {b : β}

@[simp] theorem pure_eq_ok {value : α} :
    (pure value : Transaction ε α) w m db = (m', .ok (a, db')) ↔
      m = m' ∧ value = a ∧ db = db' := by
  simp

theorem bind_eq_ok {t : Transaction ε α} {f : α → Transaction ε β} :
    (t >>= f) w m db = (m', .ok (b, db')) ↔
      ∃ m₁ a db₁, t w m db = (m₁, .ok (a, db₁)) ∧ f a w m₁ db₁ = (m', .ok (b, db')) := by
  rw [bind_apply]
  rcases t w m db with ⟨m₁, e | ⟨a, db₁⟩⟩
  · simp
  · constructor
    · intro rest
      exact ⟨m₁, a, db₁, rfl, rest⟩
    · intro done
      obtain ⟨_, _, _, first, rest⟩ := done
      cases first
      exact rest

@[simp] theorem map_eq_ok {t : Transaction ε α} {g : α → β} :
    (g <$> t) w m db = (m', .ok (b, db')) ↔ ∃ a, t w m db = (m', .ok (a, db')) ∧ g a = b := by
  rw [← bind_pure_comp, bind_eq_ok]
  constructor
  · intro done
    obtain ⟨m₁, a, db₁, first, rest⟩ := done
    obtain ⟨rfl, same, rfl⟩ := pure_eq_ok.mp rest
    exact ⟨a, first, same⟩
  · intro done
    obtain ⟨a, first, same⟩ := done
    exact ⟨m', a, db', first, pure_eq_ok.mpr ⟨rfl, same, rfl⟩⟩

@[simp] theorem fail_ne_ok {e : ε} : (fail e : Transaction ε α) w m db ≠ (m', .ok (a, db')) := by
  simp [fail]

@[simp] theorem need_eq_ok {e : ε} {found : Option α} :
    need e found w m db = (m', .ok (a, db')) ↔ found = some a ∧ m = m' ∧ db = db' := by
  cases found with
  | none => simp [need]
  | some value => simp [need, and_left_comm]

@[simp] theorem mapError_eq_ok {f : ε → ε'} {t : Transaction ε α} :
    t.mapError f w m db = (m', .ok (a, db')) ↔ t w m db = (m', .ok (a, db')) := by
  unfold mapError
  rcases t w m db with ⟨m₁, e | r⟩ <;> simp

@[simp] theorem onStore_eq_ok {t : Transaction StoreError α} :
    t.onStore w m db = (m', .ok (a, db')) ↔ t w m db = (m', .ok (a, db')) :=
  mapError_eq_ok

theorem sought_eq_ok {t : Transaction StoreError (Option α)} {e : HubError}
    {f : α → Transaction HubError β} :
    (do let value ← need e (← t.onStore); f value) w m db = (m', .ok (b, db')) ↔
      ∃ m₁ value db₁, t w m db = (m₁, .ok (some value, db₁)) ∧
        f value w m₁ db₁ = (m', .ok (b, db')) := by
  simp only [bind_eq_ok, onStore_eq_ok, need_eq_ok]
  constructor
  · intro done
    obtain ⟨_, _, _, sought, _, value, _, ⟨rfl, rfl, rfl⟩, rest⟩ := done
    exact ⟨_, value, _, sought, rest⟩
  · intro done
    obtain ⟨_, value, _, sought, rest⟩ := done
    exact ⟨_, _, _, sought, _, value, _, ⟨rfl, rfl, rfl⟩, rest⟩

@[simp] theorem now_apply : (now : Transaction ε String) w m db = (m.afterReading, .ok (w.now m, db)) :=
  rfl

@[simp] theorem now_bind {f : String → Transaction ε β} :
    (now >>= f) w m db = f (w.now m) w m.afterReading db :=
  rfl

@[simp] theorem mint_apply {kind : IdKind} :
    (mint kind : Transaction ε String) w m db = (m.afterMint, .ok (w.fresh m kind, db)) :=
  rfl

theorem mint_eq_ok {kind : IdKind} {id : String} :
    (mint kind : Transaction ε String) w m db = (m', .ok (id, db')) ↔
      m.afterMint = m' ∧ w.fresh m kind = id ∧ db = db' := by
  simp

@[simp] theorem mint_bind {kind : IdKind} {f : String → Transaction ε β} :
    (mint kind >>= f) w m db = f (w.fresh m kind) w m.afterMint db :=
  rfl

theorem perform_eq_ok {s : Statement α} :
    perform s w m db = (m', .ok (a, db')) ↔
      w.refuses m.statements = none ∧ m.afterStatement = m' ∧ s db = .ok (a, db') := by
  unfold perform
  cases w.refuses m.statements with
  | some refusal => simp
  | none => cases s db <;> simp

theorem perform_bind_eq_ok {s : Statement α} {f : α → Transaction StoreError β} :
    (perform s >>= f) w m db = (m', .ok (b, db')) ↔
      w.refuses m.statements = none ∧
        ∃ a db₁, s db = .ok (a, db₁) ∧ f a w m.afterStatement db₁ = (m', .ok (b, db')) := by
  simp only [bind_eq_ok, perform_eq_ok]
  constructor
  · intro parts
    obtain ⟨_, a, db₁, ⟨passed, rfl, done⟩, rest⟩ := parts
    exact ⟨passed, a, db₁, done, rest⟩
  · intro parts
    obtain ⟨passed, a, db₁, done, rest⟩ := parts
    exact ⟨_, a, db₁, ⟨passed, rfl, done⟩, rest⟩

theorem query_eq_ok {q : Query α} :
    query q w m db = (m', .ok (a, db')) ↔
      w.refuses m.statements = none ∧ m.afterStatement = m' ∧ q db = .ok a ∧ db = db' := by
  unfold query
  rw [perform_eq_ok]
  cases q db <;> simp [Except.map]

theorem mark_eq_ok {u : Unit} :
    mark w m db = (m', .ok (u, db')) ↔
      w.refuses m.statements = none ∧ m.afterStatement = m' ∧ db = db' := by
  simp [mark, perform_eq_ok]

/-- A committed transaction did what its body did between two marks. -/
theorem of_committed_eq_ok {wrap : StoreError → ε} {t : Transaction ε α}
    (done : committed wrap t w m db = (m', .ok (a, db'))) :
    ∃ m₁, t w m.afterStatement db = (m₁, .ok (a, db')) ∧ m₁.afterStatement = m' := by
  simp only [committed, bind_eq_ok, mapError_eq_ok, mark_eq_ok] at done
  obtain ⟨_, _, _, ⟨_, rfl, rfl⟩, m₁, value, db₁, body, _, _, _, ⟨_, rfl, rfl⟩, rfl, rfl, rfl⟩ := done
  exact ⟨m₁, body, rfl⟩

variable {e : ε}

@[simp] theorem pure_ne_error {value : α} :
    (pure value : Transaction ε α) w m db ≠ (m', .error e) := by
  simp

@[simp] theorem fail_eq_error {e' : ε} :
    (fail e' : Transaction ε α) w m db = (m', .error e) ↔ m = m' ∧ e' = e := by
  simp [fail]

theorem bind_eq_error {t : Transaction ε α} {f : α → Transaction ε β} :
    (t >>= f) w m db = (m', .error e) ↔
      t w m db = (m', .error e) ∨
        ∃ m₁ a db₁, t w m db = (m₁, .ok (a, db₁)) ∧ f a w m₁ db₁ = (m', .error e) := by
  rw [bind_apply]
  rcases t w m db with ⟨m₁, e₁ | ⟨a, db₁⟩⟩
  · simp
  · constructor
    · intro rest
      exact .inr ⟨m₁, a, db₁, rfl, rest⟩
    · intro failed
      rcases failed with failed | ⟨_, _, _, first, rest⟩
      · cases failed
      · cases first
        exact rest

theorem need_eq_error {e' : ε} {found : Option α} :
    need e' found w m db = (m', .error e) ↔ found = none ∧ e' = e ∧ m = m' := by
  cases found with
  | none => simp [need, and_comm]
  | some value => simp [need]

theorem mapError_eq_error {f : ε → ε'} {t : Transaction ε α} {e' : ε'} :
    t.mapError f w m db = (m', .error e') ↔ ∃ e, t w m db = (m', .error e) ∧ f e = e' := by
  unfold mapError
  rcases t w m db with ⟨m₁, e₁ | r⟩ <;> simp [and_assoc]

/-- A store fails with errors of its own only. -/
theorem of_onStore_eq_error {t : Transaction StoreError α} {e' : HubError}
    (failed : t.onStore w m db = (m', .error e')) : ∃ cause, e' = .store cause := by
  obtain ⟨cause, -, rfl⟩ := mapError_eq_error.mp failed
  exact ⟨cause, rfl⟩

/-- What is needed could not be found out, or was not found, or what follows failed. -/
theorem of_sought_eq_error {t : Transaction StoreError (Option α)} {e₁ e₂ : HubError}
    {f : α → Transaction HubError β}
    (failed : (do let value ← need e₁ (← t.onStore); f value) w m db = (m', .error e₂)) :
    (∃ cause, e₂ = .store cause) ∨
      (e₂ = e₁ ∧ ∃ m₁ db₁, t w m db = (m₁, .ok (none, db₁))) ∨
      ∃ m₁ value db₁, t w m db = (m₁, .ok (some value, db₁)) ∧
        f value w m₁ db₁ = (m', .error e₂) := by
  rcases bind_eq_error.mp failed with failed | ⟨_, _, _, sought, failed⟩
  · exact .inl (of_onStore_eq_error failed)
  rcases bind_eq_error.mp failed with failed | ⟨_, _, _, found, failed⟩
  · obtain ⟨rfl, same, -⟩ := need_eq_error.mp failed
    exact .inr (.inl ⟨same.symm, _, _, onStore_eq_ok.mp sought⟩)
  · obtain ⟨rfl, rfl, rfl⟩ := need_eq_ok.mp found
    exact .inr (.inr ⟨_, _, _, onStore_eq_ok.mp sought, failed⟩)

/-- A transaction that does not fail in its marks fails as its body does. -/
theorem of_committed_eq_error {wrap : StoreError → ε} {t : Transaction ε α}
    (failed : committed wrap t w m db = (m', .error e)) :
    (∃ cause, e = wrap cause) ∨ t w m.afterStatement db = (m', .error e) := by
  rcases bind_eq_error.mp failed with failed | ⟨_, _, _, begun, failed⟩
  · obtain ⟨cause, -, rfl⟩ := mapError_eq_error.mp failed
    exact .inl ⟨cause, rfl⟩
  obtain ⟨-, rfl, rfl⟩ := mark_eq_ok.mp (mapError_eq_ok.mp begun)
  rcases bind_eq_error.mp failed with failed | ⟨_, _, _, -, failed⟩
  · exact .inr failed
  rcases bind_eq_error.mp failed with failed | ⟨_, _, _, -, failed⟩
  · obtain ⟨cause, -, rfl⟩ := mapError_eq_error.mp failed
    exact .inl ⟨cause, rfl⟩
  · exact absurd failed pure_ne_error

end Transaction

end Switchboard
