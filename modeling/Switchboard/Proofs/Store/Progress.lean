import Switchboard.Proofs.Store.Effect

/-!
How far transactions use the world, and which of them go through.

Transactions are composed of few parts, so that what is common to all of them is proved of the parts.
The meter only runs forward, whatever comes of a transaction, and a transaction of which a statement
is refused fails.  In a world that is calm from a moment on, no statement is refused from outside any
more: what fails there fails for a reason that the tables give, and `Gives` collects the transactions
that do not fail.
-/

namespace Switchboard

namespace Meter

/-- One meter comes before another if nothing was given back in between. -/
structure Before (m m' : Meter) : Prop where
  readings : m.readings ≤ m'.readings
  minted : m.minted ≤ m'.minted
  statements : m.statements ≤ m'.statements

variable {m m₁ m₂ : Meter}

theorem Before.refl (m : Meter) : m.Before m := ⟨Nat.le_refl _, Nat.le_refl _, Nat.le_refl _⟩

theorem Before.trans (first : m.Before m₁) (second : m₁.Before m₂) : m.Before m₂ :=
  ⟨Nat.le_trans first.readings second.readings, Nat.le_trans first.minted second.minted,
    Nat.le_trans first.statements second.statements⟩

theorem before_afterReading (m : Meter) : m.Before m.afterReading :=
  ⟨Nat.le_succ _, Nat.le_refl _, Nat.le_refl _⟩

theorem before_afterMint (m : Meter) : m.Before m.afterMint :=
  ⟨Nat.le_refl _, Nat.le_succ _, Nat.le_refl _⟩

theorem before_afterStatement (m : Meter) : m.Before m.afterStatement :=
  ⟨Nat.le_refl _, Nat.le_refl _, Nat.le_succ _⟩

end Meter

namespace Transaction

variable {ε ε' α β : Type} {t : Transaction ε α} {f : α → Transaction ε β}

/-- Transactions composed of readings of the clock, fresh identifiers and statements.  What holds of
these and is passed on by `bind` holds of every transaction there is. -/
inductive Composed : {ε α : Type} → Transaction ε α → Prop where
  | pure {ε α : Type} (a : α) : Composed (pure a : Transaction ε α)
  | fail {ε α : Type} (e : ε) : Composed (fail e : Transaction ε α)
  | now {ε : Type} : Composed (now : Transaction ε String)
  | mint {ε : Type} (kind : IdKind) : Composed (mint kind : Transaction ε String)
  | perform {α : Type} (s : Statement α) : Composed (perform s)
  | bind {ε α β : Type} {t : Transaction ε α} {f : α → Transaction ε β} :
      Composed t → (∀ a, Composed (f a)) → Composed (t >>= f)
  | mapError {ε ε' α : Type} {t : Transaction ε α} (g : ε → ε') :
      Composed t → Composed (t.mapError g)

namespace Composed

theorem need (e : ε) (found : Option α) : Composed (need e found) := by
  cases found with
  | none => exact .fail e
  | some a => exact .pure a

theorem query (q : Query α) : Composed (query q) := .perform _

theorem onStore {t : Transaction StoreError α} (composed : Composed t) : Composed t.onStore :=
  composed.mapError _

theorem committed (composed : Composed t) (wrap : StoreError → ε) : Composed (committed wrap t) :=
  ((perform _).mapError wrap).bind fun _ => composed.bind fun _ =>
    ((perform _).mapError wrap).bind fun _ => .pure _

end Composed

/-- Whether a transaction never turns the meter back. -/
def Forward (t : Transaction ε α) : Prop := ∀ w (m : Meter) db, m.Before (t w m db).1

theorem forward_perform (s : Statement α) : Forward (perform s) := by
  intro w m db
  unfold perform
  split
  · exact m.before_afterStatement
  · split <;> exact m.before_afterStatement

theorem before_bind {w : World} {m : Meter} {db : Database} (rest : ∀ a, Forward (f a)) :
    (t w m db).1.Before ((t >>= f) w m db).1 := by
  rw [bind_apply]
  rcases t w m db with ⟨m₁, e | ⟨a, db₁⟩⟩
  · exact .refl m₁
  · exact rest a w m₁ db₁

theorem Forward.bind (first : Forward t) (rest : ∀ a, Forward (f a)) : Forward (t >>= f) :=
  fun w m db => (first w m db).trans (before_bind rest)

theorem Forward.mapError (forward : Forward t) (g : ε → ε') : Forward (t.mapError g) := by
  intro w m db
  have before := forward w m db
  unfold Transaction.mapError
  rcases outcome : t w m db with ⟨m₁, e | r⟩ <;> simpa only [outcome] using before

theorem Composed.forward (composed : Composed t) : Forward t := by
  induction composed with
  | pure | fail => exact fun _ m _ => .refl m
  | now => exact fun _ m _ => m.before_afterReading
  | mint => exact fun _ m _ => m.before_afterMint
  | perform s => exact forward_perform s
  | bind _ _ first rest => exact first.bind rest
  | mapError g _ ih => exact ih.mapError g

end Transaction

/-- Whether no statement is refused from outside from a moment on. -/
def World.CalmFrom (w : World) (m : Meter) : Prop := ∀ n, m.statements ≤ n → w.refuses n = none

namespace World.CalmFrom

variable {w : World} {m m' : Meter}

theorem mono (calm : w.CalmFrom m) (later : m.Before m') : w.CalmFrom m' :=
  fun n past => calm n (Nat.le_trans later.statements past)

theorem passes (calm : w.CalmFrom m) : w.refuses m.statements = none := calm _ (Nat.le_refl _)

end World.CalmFrom

/-- Whether no statement between two moments is refused from outside. -/
def World.CalmBetween (w : World) (m m' : Meter) : Prop :=
  ∀ n, m.statements ≤ n → n < m'.statements → w.refuses n = none

theorem World.CalmBetween.trans {w : World} {m m₁ m₂ : Meter} (first : w.CalmBetween m m₁)
    (second : w.CalmBetween m₁ m₂) : w.CalmBetween m m₂ := by
  intro n after before
  by_cases early : n < m₁.statements
  · exact first n after early
  · exact second n (Nat.le_of_not_lt early) before

/-- The world, but no statement is refused from a number on. -/
def World.calmedFrom (bound : Nat) (w : World) : World :=
  { w with refuses := fun n => if n < bound then w.refuses n else none }

theorem World.CalmBetween.calmedFrom {w : World} {m m' : Meter} (calm : w.CalmBetween m m') :
    (w.calmedFrom m'.statements).CalmFrom m := by
  intro n after
  by_cases before : n < m'.statements
  · exact (if_pos before).trans (calm n after before)
  · exact if_neg before

namespace Transaction

variable {ε ε' α β : Type} {w : World} {m : Meter} {db db' : Database} {t : Transaction ε α}
  {f : α → Transaction ε β} {Given Told : α → Database → Prop} {Given' : β → Database → Prop}

/-- No refusal is passed over: a transaction that succeeds has had all its statements carried out. -/
theorem Composed.calmBetween {m' : Meter} {a : α} (composed : Composed t)
    (done : t w m db = (m', .ok (a, db'))) : w.CalmBetween m m' := by
  induction composed generalizing m m' db db' with
  | pure | now | mint =>
      obtain rfl := congrArg Prod.fst done
      intro n after before
      exact absurd before (Nat.not_lt.mpr after)
  | fail => exact absurd done fail_ne_ok
  | perform s =>
      obtain ⟨passed, rfl, -⟩ := perform_eq_ok.mp done
      intro n after before
      obtain rfl : n = m.statements := Nat.le_antisymm (Nat.le_of_lt_succ before) after
      exact passed
  | bind _ _ first rest =>
      obtain ⟨m₁, b, db₁, begun, ended⟩ := bind_eq_ok.mp done
      exact (first begun).trans (rest b ended)
  | mapError g _ ih => exact ih (mapError_eq_ok.mp done)

/-- A transaction looks only at the refusals of its own statements: it comes to the same where nothing
after it is refused. -/
theorem Composed.calmedFrom {bound : Nat} (composed : Composed t)
    (within : (t w m db).1.statements ≤ bound) : t (w.calmedFrom bound) m db = t w m db := by
  induction composed generalizing m db with
  | pure | fail | now | mint => rfl
  | perform s =>
      have used : (Transaction.perform s w m db).1 = m.afterStatement := by
        unfold Transaction.perform
        split
        · rfl
        · split <;> rfl
      rw [used] at within
      have same : (w.calmedFrom bound).refuses m.statements = w.refuses m.statements := if_pos within
      simp only [Transaction.perform, same]
  | @bind _ _ _ t f _ parts first rest =>
      have begun : (t w m db).1.Before ((t >>= f) w m db).1 := before_bind fun a => (parts a).forward
      have same := first (Nat.le_trans begun.statements within)
      rw [bind_apply] at within ⊢
      rw [bind_apply, same]
      rcases outcome : t w m db with ⟨m₁, e | ⟨a, db₁⟩⟩
      · rfl
      · rw [outcome] at within
        exact rest a within
  | @mapError _ _ _ t g _ ih =>
      have kept : (t.mapError g w m db).1 = (t w m db).1 := by
        unfold Transaction.mapError
        rcases t w m db with ⟨_, _ | _⟩ <;> rfl
      rw [kept] at within
      simp only [Transaction.mapError, ih within]

/-- Whether a transaction goes through, with an answer and tables as described. -/
def Gives (t : Transaction ε α) (w : World) (m : Meter) (db : Database)
    (Given : α → Database → Prop) : Prop :=
  ∃ m' a db', t w m db = (m', .ok (a, db')) ∧ m.Before m' ∧ Given a db'

theorem gives_pure {a : α} (given : Given a db) :
    Gives (pure a : Transaction ε α) w m db Given :=
  ⟨m, a, db, rfl, .refl m, given⟩

theorem Gives.telling (gives : t.Gives w m db Given)
    (tells : ∀ {m' a db'}, t w m db = (m', .ok (a, db')) → Told a db') : t.Gives w m db Told := by
  obtain ⟨m₁, a, db₁, done, before, -⟩ := gives
  exact ⟨m₁, a, db₁, done, before, tells done⟩

theorem Gives.bind (first : t.Gives w m db Given)
    (rest : ∀ m₁ a db₁, m.Before m₁ → Given a db₁ → (f a).Gives w m₁ db₁ Given') :
    (t >>= f).Gives w m db Given' := by
  obtain ⟨m₁, a, db₁, done, before, given⟩ := first
  obtain ⟨m₂, b, db₂, ended, after, given'⟩ := rest m₁ a db₁ before given
  exact ⟨m₂, b, db₂, bind_eq_ok.mpr ⟨m₁, a, db₁, done, ended⟩, before.trans after, given'⟩

theorem Gives.mapError {g : ε → ε'} (first : t.Gives w m db Given) :
    (t.mapError g).Gives w m db Given := by
  obtain ⟨m₁, a, db₁, done, before, given⟩ := first
  exact ⟨m₁, a, db₁, mapError_eq_ok.mpr done, before, given⟩

/-- A transaction that goes through in calm fails only where one of its statements is refused. -/
theorem Composed.refused_of_error {e : ε} {m' : Meter} (composed : Composed t)
    (gives : ∀ w' : World, w'.CalmFrom m → t.Gives w' m db Given)
    (failed : t w m db = (m', .error e)) : ¬ w.CalmBetween m m' := by
  intro calm
  have within : (t w m db).1.statements ≤ m'.statements := by simp [failed]
  obtain ⟨_, _, _, done, -⟩ := gives _ calm.calmedFrom
  rw [composed.calmedFrom within, failed] at done
  cases done

theorem gives_mark (calm : w.CalmFrom m) :
    mark.Gives w m db fun _ after => after = db :=
  ⟨_, (), db, mark_eq_ok.mpr ⟨calm.passes, rfl, rfl⟩, m.before_afterStatement, rfl⟩

theorem Gives.committed {wrap : StoreError → ε} (calm : w.CalmFrom m)
    (body : ∀ m₁, m.Before m₁ → t.Gives w m₁ db Given) :
    (committed wrap t).Gives w m db Given := by
  refine (gives_mark calm).mapError.bind ?_
  intro m₁ _ _ begun kept
  subst kept
  refine (body m₁ begun).bind fun m₂ a db₂ ended given => ?_
  refine (gives_mark (calm.mono (begun.trans ended))).mapError.bind ?_
  intro m₃ _ _ _ kept
  subst kept
  exact gives_pure given

theorem Gives.sought {t : Transaction StoreError (Option α)} {value : α} {e : HubError}
    {f : α → Transaction HubError β}
    (found : t.Gives w m db fun answer after => answer = some value ∧ after = db)
    (rest : ∀ m₁, m.Before m₁ → (f value).Gives w m₁ db Given') :
    Gives (do let value ← need e (← t.onStore); f value) w m db Given' := by
  refine found.mapError.bind ?_
  intro m₁ _ _ before answered
  obtain ⟨rfl, rfl⟩ := answered
  exact rest m₁ before

end Transaction

end Switchboard
