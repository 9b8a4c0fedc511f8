import Switchboard.Store.Database
import Switchboard.World

/-!
Transactions: computations on the database that may read the clock, mint identifiers and fail.

A transaction that fails gives no database back, so whatever it did is lost; the meter comes back
in any case.  Main statement: transactions obey the monad laws, so they may be read as the programs
they are written as.
-/

namespace Switchboard

def Transaction (ε α : Type) : Type :=
  World → Meter → Database → Meter × Except ε (α × Database)

namespace Transaction

variable {ε ε' α β : Type}

protected def pure (a : α) : Transaction ε α := fun _ m db => (m, .ok (a, db))

protected def bind (t : Transaction ε α) (f : α → Transaction ε β) : Transaction ε β :=
  fun w m db =>
    match t w m db with
    | (m, .error e) => (m, .error e)
    | (m, .ok (a, db)) => f a w m db

instance : Monad (Transaction ε) where
  pure := Transaction.pure
  bind := Transaction.bind

def fail (e : ε) : Transaction ε α := fun _ m _ => (m, .error e)

/-- Fails with the given cause when there is nothing. -/
def need (e : ε) : Option α → Transaction ε α
  | some a => pure a
  | none => fail e

def mapError (f : ε → ε') (t : Transaction ε α) : Transaction ε' α := fun w m db =>
  match t w m db with
  | (m, .error e) => (m, .error (f e))
  | (m, .ok r) => (m, .ok r)

/-- The time in canonical form. -/
def now : Transaction ε String := fun w m db => (m.afterReading, .ok (w.now m, db))

def mint (kind : IdKind) : Transaction ε String := fun w m db =>
  (m.afterMint, .ok (w.fresh m kind, db))

/-- Carries out a statement, unless the world refuses it. -/
def perform (s : Statement α) : Transaction StoreError α := fun w m db =>
  match w.refuses m.statements with
  | some refusal => (m.afterStatement, .error (.database (.refused refusal.reason)))
  | none =>
    match s db with
    | .error fault => (m.afterStatement, .error (.database fault))
    | .ok r => (m.afterStatement, .ok r)

def query (q : Query α) : Transaction StoreError α :=
  perform fun db => (q db).map fun a => (a, db)

/-- The beginning and the end of a transaction are statements too. -/
def mark : Transaction StoreError Unit := perform fun db => .ok ((), db)

/-- The transaction as a whole: begun, carried out and committed. -/
def committed (wrap : StoreError → ε) (t : Transaction ε α) : Transaction ε α := do
  mapError wrap mark
  let a ← t
  mapError wrap mark
  return a

@[simp] theorem pure_apply (a : α) (w : World) (m : Meter) (db : Database) :
    (pure a : Transaction ε α) w m db = (m, .ok (a, db)) := rfl

theorem bind_apply (t : Transaction ε α) (f : α → Transaction ε β) (w : World) (m : Meter)
    (db : Database) :
    (t >>= f) w m db =
      match t w m db with
      | (m, .error e) => (m, .error e)
      | (m, .ok (a, db)) => f a w m db := rfl

private theorem bind_pure_self (t : Transaction ε α) :
    Transaction.bind t (fun a => Transaction.pure a) = t := by
  funext w m db
  rcases run : t w m db with ⟨m, e | r⟩ <;> simp [Transaction.bind, Transaction.pure, run]

private theorem bind_bind {γ : Type} (t : Transaction ε α) (f : α → Transaction ε β)
    (g : β → Transaction ε γ) :
    Transaction.bind (Transaction.bind t f) g =
      Transaction.bind t fun a => Transaction.bind (f a) g := by
  funext w m db
  rcases run : t w m db with ⟨m, e | r⟩ <;> simp [Transaction.bind, run]

instance : LawfulMonad (Transaction ε) :=
  LawfulMonad.mk' (Transaction ε) bind_pure_self (fun _ _ => rfl) bind_bind

end Transaction

end Switchboard
