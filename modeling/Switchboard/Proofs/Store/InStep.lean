import Switchboard.Proofs.Store.Effect
import Switchboard.Proofs.Store.Leeway

/-!
Transactions in step.

Two transactions are in step if on tables that show the same, in worlds that differ in their clocks
only, they use as much of the world, fail together for the same reason, or succeed together and leave
tables that show the same.  As every transaction is composed of few parts, this is proved of the parts
and of their composition.
-/

namespace Switchboard

variable {L : Leeway} {w w' : World} {m : Meter}

/-- Whether two worlds differ in their clocks only, and in these only if they may. -/
structure World.Alike (L : Leeway) (w w' : World) : Prop where
  unique : w.unique = w'.unique
  refuses : w.refuses = w'.refuses
  clock : L.clocks → w.clock = w'.clock

theorem World.Alike.stamp_now (worlds : w.Alike L w') :
    L.stamp (w.now m) = L.stamp (w'.now m) := by
  cases compared : L.clocks with
  | false => simp [Leeway.stamp, compared]
  | true => rw [World.now, World.now, worlds.clock compared]

theorem World.Alike.fresh (worlds : w.Alike L w') (kind : IdKind) :
    w.fresh m kind = w'.fresh m kind := by
  rw [World.fresh, World.fresh, worlds.unique]

namespace Transaction

variable {ε ε' α α' β β' γ : Type} {Same : α → α' → Prop} {Same' : β → β' → Prop}

/-- Outcomes that correspond: the same failure, or answers as described on tables that are alike. -/
inductive Matched (L : Leeway) (Same : α → α' → Prop) :
    Except ε (α × Database) → Except ε (α' × Database) → Prop where
  | error (e : ε) : Matched L Same (.error e) (.error e)
  | ok {a : α} {a' : α'} {db db' : Database} : Same a a' → db.Alike L db' →
      Matched L Same (.ok (a, db)) (.ok (a', db'))

def InStep (L : Leeway) (Same : α → α' → Prop) (t : Transaction ε α) (t' : Transaction ε α') :
    Prop :=
  ∀ w w' m db db', World.Alike L w w' → Database.Alike L db db' →
    (t w m db).1 = (t' w' m db').1 ∧ Matched L Same (t w m db).2 (t' w' m db').2

theorem inStep_pure {a : α} {a' : α'} (same : Same a a') :
    InStep L Same (pure a : Transaction ε α) (pure a') :=
  fun _ _ _ _ _ _ alike => ⟨rfl, .ok same alike⟩

theorem inStep_fail (e : ε) : InStep L Same (fail e) (fail e) :=
  fun _ _ _ _ _ _ _ => ⟨rfl, .error e⟩

theorem inStep_now :
    InStep L (fun at_ at' => L.stamp at_ = L.stamp at') (now : Transaction ε String) now :=
  fun _ _ _ _ _ worlds alike => ⟨rfl, .ok worlds.stamp_now alike⟩

theorem inStep_mint (kind : IdKind) : InStep L Eq (mint kind : Transaction ε String) (mint kind) :=
  fun _ _ _ _ _ worlds alike => ⟨rfl, .ok (worlds.fresh kind) alike⟩

theorem inStep_perform {s : Statement α} {s' : Statement α'}
    (matched : ∀ {db db'}, Database.Alike L db db' → Matched L Same (s db) (s' db')) :
    InStep L Same (perform s) (perform s') := by
  intro w w' m db db' worlds alike
  unfold perform
  rw [← worlds.refuses]
  cases w.refuses m.statements with
  | some refusal => exact ⟨rfl, .error _⟩
  | none =>
      have matched := matched alike
      generalize s db = outcome at matched ⊢
      generalize s' db' = outcome' at matched ⊢
      cases matched with
      | error fault => exact ⟨rfl, .error _⟩
      | ok same alike' => exact ⟨rfl, .ok same alike'⟩

theorem InStep.bind {t : Transaction ε α} {t' : Transaction ε α'} {f : α → Transaction ε β}
    {f' : α' → Transaction ε β'} (first : InStep L Same t t')
    (rest : ∀ a a', Same a a' → InStep L Same' (f a) (f' a')) :
    InStep L Same' (t >>= f) (t' >>= f') := by
  intro w w' m db db' worlds alike
  obtain ⟨meters, matched⟩ := first w w' m db db' worlds alike
  rw [bind_apply, bind_apply]
  generalize t w m db = outcome at meters matched ⊢
  generalize t' w' m db' = outcome' at meters matched ⊢
  obtain ⟨m₁, result⟩ := outcome
  obtain ⟨m₁', result'⟩ := outcome'
  cases meters
  cases matched with
  | error e => exact ⟨rfl, .error e⟩
  | ok same alike' => exact rest _ _ same w w' m₁ _ _ worlds alike'

theorem InStep.mapError {t : Transaction ε α} {t' : Transaction ε α'} (steps : InStep L Same t t')
    (g : ε → ε') : InStep L Same (t.mapError g) (t'.mapError g) := by
  intro w w' m db db' worlds alike
  obtain ⟨meters, matched⟩ := steps w w' m db db' worlds alike
  unfold Transaction.mapError
  generalize t w m db = outcome at meters matched ⊢
  generalize t' w' m db' = outcome' at meters matched ⊢
  obtain ⟨m₁, result⟩ := outcome
  obtain ⟨m₁', result'⟩ := outcome'
  cases meters
  cases matched with
  | error e => exact ⟨rfl, .error (g e)⟩
  | ok same alike' => exact ⟨rfl, .ok same alike'⟩

theorem InStep.committed {t : Transaction ε α} {t' : Transaction ε α'} (steps : InStep L Same t t')
    (wrap : StoreError → ε) : InStep L Same (committed wrap t) (committed wrap t') := by
  have marks : InStep L (fun _ _ => True) (Transaction.mapError wrap mark)
      (Transaction.mapError wrap mark) :=
    InStep.mapError (inStep_perform fun alike => .ok trivial alike) wrap
  refine marks.bind fun _ _ _ => ?_
  refine steps.bind fun _ _ same => ?_
  exact marks.bind fun _ _ _ => inStep_pure same

theorem inStep_need {f : α → γ} {found found' : Option α} (e : ε)
    (same : found.map f = found'.map f) :
    InStep L (fun a a' => f a = f a') (need e found) (need e found') := by
  cases found with
  | none =>
      cases found' with
      | none => exact inStep_fail e
      | some => contradiction
  | some a =>
      cases found' with
      | none => contradiction
      | some a' => exact inStep_pure (Option.some.inj same)

theorem inStep_foldlM {ρ : Type} {Same : β → β → Prop} {f : β → ρ → Transaction ε β}
    {entries : List ρ} {b b' : β}
    (steps : ∀ entry ∈ entries, ∀ b b', Same b b' → InStep L Same (f b entry) (f b' entry))
    (same : Same b b') : InStep L Same (entries.foldlM f b) (entries.foldlM f b') := by
  induction entries generalizing b b' with
  | nil => exact inStep_pure same
  | cons entry entries ih =>
      rw [List.foldlM_cons, List.foldlM_cons]
      refine (steps entry (List.mem_cons_self ..) b b' same).bind fun _ _ next => ?_
      exact ih (fun other member => steps other (List.mem_cons_of_mem _ member)) next

theorem inStep_query {q : Query α} {q' : Query α'}
    (answers : ∀ {db db'}, Database.Alike L db db' →
      ∃ a a', q db = .ok a ∧ q' db' = .ok a' ∧ Same a a') :
    InStep L Same (query q) (query q') := by
  refine inStep_perform fun alike => ?_
  obtain ⟨a, a', found, found', same⟩ := answers alike
  rw [found, found']
  exact .ok same alike

end Transaction

open Transaction

theorem inStep_givenOrFresh (kind : IdKind) (given : Option String) :
    InStep L Eq (givenOrFresh kind given : Transaction StoreError String)
      (givenOrFresh kind given) := by
  cases given with
  | none => exact inStep_mint kind
  | some id => exact inStep_pure rfl

namespace Session

variable {execution : ExecutionId} {session : SessionId}

theorem shown_held {row : Session} {at_ : String} :
    (row.held execution at_).shown L = (row.shown L).held execution (L.stamp at_) := rfl

theorem shown_freed {row : Session} {at_ : String} :
    (row.freed at_).shown L = (row.shown L).freed (L.stamp at_) := rfl

theorem shown_withStatus {row : Session} {status : SessionStatus} {at_ : String} :
    (row.withStatus status at_).shown L = (row.shown L).withStatus status (L.stamp at_) := rfl

theorem inStep_update {test : Session → Bool} {change change' : Session → Session}
    (tests : ∀ row, test (row.shown L) = test row)
    (changes : ∀ row row', row.shown L = row'.shown L →
      (change row).shown L = (change' row').shown L) :
    InStep L Eq (perform (Database.updateSessions test change))
      (perform (Database.updateSessions test change')) := by
  refine inStep_perform fun alike => ?_
  rw [alike.undisturbed.updateSessions, alike.other.updateSessions]
  refine .ok (length_filter_of_same alike.sessions tests) ?_
  refine alike.replace alike.projects ?_ alike.executions alike.events
  refine map_map_of_same ?_ alike.sessions
  intro row row' same
  rw [test_of_same same tests]
  split
  · exact changes row row' same
  · exact same

theorem inStep_release : InStep L Eq (release execution) (release execution) := by
  refine inStep_now.bind fun at_ at' stamps => ?_
  refine inStep_update (fun _ => rfl) fun row row' same => ?_
  rw [shown_freed, shown_freed, same, stamps]

theorem inStep_bind : InStep L Eq (Session.bind session execution) (Session.bind session execution) := by
  refine inStep_now.bind fun at_ at' stamps => ?_
  refine InStep.bind (inStep_update (fun _ => rfl) fun row row' same => ?_)
    fun count _ counted => inStep_pure (by rw [counted])
  rw [shown_held, shown_held, same, stamps]

theorem inStep_transition {source target : SessionStatus} :
    InStep L Eq (transition execution source target) (transition execution source target) := by
  refine inStep_now.bind fun at_ at' stamps => ?_
  refine InStep.bind (inStep_update (fun _ => rfl) fun row row' same => ?_)
    fun count _ counted => inStep_pure (by rw [counted])
  rw [shown_withStatus, shown_withStatus, same, stamps]

theorem inStep_getIn {workspace : WorkspaceId} :
    InStep L (fun found found' => found.map (Session.shown L) = found'.map (Session.shown L))
      (getIn workspace session) (getIn workspace session) :=
  inStep_query fun alike => ⟨_, _, rfl, rfl, find?_of_same alike.sessions fun _ => rfl⟩

theorem inStep_insert {row row' : Session} (same : row.shown L = row'.shown L) :
    InStep L (fun _ _ => True) (perform (Database.insertSession row))
      (perform (Database.insertSession row')) := by
  refine inStep_perform ?_
  intro db db' alike
  have key : row.session = row'.session := (congrArg SessionRow.session same :)
  have taken : db.sessions.any (·.session = row'.session) =
      db'.sessions.any (·.session = row'.session) := any_of_same alike.sessions fun _ => rfl
  unfold Database.insertSession
  rw [key, taken]
  split
  · exact .error _
  · refine .ok trivial (alike.replace alike.projects ?_ alike.executions alike.events)
    rw [List.map_append, List.map_append, alike.sessions, List.map_singleton, List.map_singleton,
      same]

theorem inStep_create (new : NewSession) :
    InStep L (fun row row' => row.shown L = row'.shown L) (create new) (create new) := by
  refine (inStep_givenOrFresh _ _).bind fun id _ same => ?_
  subst same
  refine inStep_now.bind fun at_ at' stamps => ?_
  refine (inStep_insert ?_).bind fun _ _ _ => inStep_pure ?_ <;> simp only [shown, stamps]

end Session

namespace ProjectRow

theorem inStep_insert {row row' : ProjectRow} (same : row.shown L = row'.shown L) :
    InStep L (fun _ _ => True) (perform (Database.insertProject row))
      (perform (Database.insertProject row')) := by
  refine inStep_perform ?_
  intro db db' alike
  have key : row.project = row'.project := (congrArg ProjectRow.project same :)
  have taken : db.projects.any (·.project = row'.project) =
      db'.projects.any (·.project = row'.project) := any_of_same alike.projects fun _ => rfl
  unfold Database.insertProject
  rw [key, taken]
  split
  · exact .error _
  · refine .ok trivial (alike.replace ?_ alike.sessions alike.executions alike.events)
    rw [List.map_append, List.map_append, alike.projects, List.map_singleton, List.map_singleton,
      same]

theorem inStep_create (new : NewProject) :
    InStep L (fun row row' => row.shown L = row'.shown L) (create new) (create new) := by
  refine (inStep_givenOrFresh _ _).bind fun id _ same => ?_
  subst same
  refine inStep_now.bind fun at_ at' stamps => ?_
  refine (inStep_insert ?_).bind fun _ _ _ => inStep_pure ?_ <;> simp only [shown, stamps]

theorem inStep_rootOf (project : ProjectId) :
    InStep L Eq (rootOf project) (rootOf project) := by
  have sought : InStep L (fun found found' => found.map (shown L) = found'.map (shown L))
      (get project) (get project) :=
    inStep_query fun alike => ⟨_, _, rfl, rfl, find?_of_same alike.projects fun _ => rfl⟩
  refine sought.bind fun found found' same => inStep_pure ?_
  have roots := congrArg (Option.map repoRoot) same
  rw [Option.map_map, Option.map_map] at roots
  exact congrArg (Option.getD · "") roots

end ProjectRow

namespace Execution

variable {execution : ExecutionId}

theorem inStep_updateOne {test : Execution → Bool} {change change' : Execution → Execution}
    (tests : ∀ row : Execution, row.execution = execution → test (row.shown L) = test row)
    (changes : ∀ row row', row.execution = execution → row.shown L = row'.shown L →
      (change row).shown L = (change' row').shown L) :
    InStep L Eq (updateOne execution test change) (updateOne execution test change') := by
  let chosen (row : Execution) : Bool := row.execution == execution && test row
  have tested : ∀ row : Execution, chosen (row.shown L) = chosen row := by
    intro row
    simp only [chosen]
    by_cases meant : row.execution = execution
    · rw [tests row meant, execution_shown]
    · have differs : (row.execution == execution) = false := by simpa using meant
      rw [execution_shown, differs, Bool.false_and, Bool.false_and]
  have updated : InStep L Eq (perform (Database.updateExecutions chosen change))
      (perform (Database.updateExecutions chosen change')) := by
    refine inStep_perform ?_
    intro db db' alike
    rw [alike.undisturbed.updateExecutions, alike.other.updateExecutions]
    refine .ok (length_filter_of_same alike.executions tested) ?_
    refine alike.replace alike.projects alike.sessions ?_ alike.events
    refine map_map_of_same ?_ alike.executions
    intro row row' same
    rw [test_of_same same tested]
    split
    · rename_i hit
      have meant : row'.execution = execution := by simpa using (Bool.and_eq_true_iff.mp hit).1
      have key : row.execution = row'.execution := (congrArg ExecutionRow.execution same :)
      exact changes row row' (key.trans meant) same
    · exact same
  exact updated.bind fun count _ counted => inStep_pure (by rw [counted])

theorem inStep_ended {test : Execution → Bool} {state : ExecutionState} {at_ at' : String}
    (tests : ∀ row : Execution, row.execution = execution → test (row.shown L) = test row)
    (stamps : L.stamp at_ = L.stamp at') :
    InStep L Eq (updateOne execution test (ended state at_)) (updateOne execution test (ended state at')) := by
  refine inStep_updateOne tests fun row row' _ same => ?_
  rw [shown_ended, same, stamps, ← shown_ended]

theorem inStep_markExecuting {at_ at' : String} (apart : L.ahead → execution ≠ L.moved)
    (stamps : L.stamp at_ = L.stamp at') :
    InStep L Eq (markExecuting execution at_) (markExecuting execution at') := by
  refine inStep_updateOne ?_ fun row row' _ same => ?_
  · intro row meant
    rw [state_shown (meant ▸ apart)]
  · rw [shown_started, same, stamps, ← shown_started]

theorem inStep_recordHeartbeat {at_ at' : String}
    (stamps : L.lastStamp execution at_ = L.lastStamp execution at') :
    InStep L Eq (recordHeartbeat execution at_) (recordHeartbeat execution at') := by
  refine inStep_updateOne (fun _ _ => rfl) fun row row' meant same => ?_
  have key : row.execution = row'.execution := (congrArg ExecutionRow.execution same :)
  rw [shown_heard, same, meant, stamps, ← meant, key, ← shown_heard]

theorem inStep_find (test : Execution → Bool) (tests : ∀ row, test (row.shown L) = test row) :
    InStep L (fun found found' => found.map (shown L) = found'.map (shown L))
      (query (Database.findExecution test)) (query (Database.findExecution test)) := by
  refine inStep_query fun alike => ?_
  refine ⟨_, _, ?_, ?_, find?_of_same alike.executions tests⟩ <;>
    simp only [Database.findExecution, alike.undisturbed.executionRows, alike.other.executionRows] <;>
    rfl

theorem inStep_countActive (workspace : WorkspaceId) :
    InStep L Eq (countActive workspace) (countActive workspace) := by
  have tests (row : Execution) : (decide ((row.shown L).workspace = workspace) &&
      (row.shown L).isActive) = (decide (row.workspace = workspace) && row.isActive) := by
    rw [isActive_shown]
    rfl
  have counted : InStep L (fun rows rows' : List Execution => rows.length = rows'.length)
      (query (Database.filterExecutions fun row => row.workspace = workspace && row.isActive))
      (query (Database.filterExecutions fun row => row.workspace = workspace && row.isActive)) := by
    refine inStep_query fun alike => ?_
    exact ⟨_, _, filter_eq_ok alike.undisturbed _, filter_eq_ok alike.other _,
      length_filter_of_same alike.executions tests⟩
  exact counted.bind fun _ _ same => inStep_pure same

theorem inStep_insertRow {row row' : Execution} (same : row.shown L = row'.shown L) :
    InStep L (fun _ _ => True) (perform (Database.insertExecution row))
      (perform (Database.insertExecution row')) := by
  refine inStep_perform ?_
  intro db db' alike
  have key : row.execution = row'.execution := (congrArg ExecutionRow.execution same :)
  have parent : row.session = row'.session := (congrArg ExecutionRow.session same :)
  have taken : db.executions.any (·.execution = row'.execution) =
      db'.executions.any (·.execution = row'.execution) :=
    any_of_same alike.executions fun _ => rfl
  have parents : db.sessions.any (·.session = row'.session) =
      db'.sessions.any (·.session = row'.session) := any_of_same alike.sessions fun _ => rfl
  have there : ¬ db.executionsLost = true := by simp [alike.undisturbed.present]
  have there' : ¬ db'.executionsLost = true := by simp [alike.other.present]
  unfold Database.insertExecution
  rw [if_neg there, if_neg there', key, parent, taken, parents]
  split
  · exact .error _
  split
  · exact .error _
  · refine .ok trivial (alike.replace alike.projects alike.sessions ?_ alike.events)
    rw [List.map_append, List.map_append, alike.executions, List.map_singleton, List.map_singleton,
      same]

theorem inStep_insert (new : NewExecution) :
    InStep L (fun _ _ => True) (insert new) (insert new) := by
  refine inStep_now.bind fun at_ at' stamps => ?_
  have created (at_ : String) : (admitted new at_).shown L =
      { (admitted new "").shown L with createdAt := L.stamp at_ } := rfl
  refine (inStep_insertRow ?_).bind fun _ _ _ => inStep_pure trivial
  refine (created at_).trans (Eq.trans ?_ (created at').symm)
  rw [stamps]

end Execution

/-- Whether two events of a worker differ in times that are not compared only. -/
structure Event.Alike (L : Leeway) (event event' : Event) : Prop where
  same : event' = { event with timestamp := event'.timestamp }
  stamps : L.eventStamp event.execution event.sequence.toWire event.timestamp =
    L.eventStamp event.execution event.sequence.toWire event'.timestamp

namespace EventRow

theorem inStep_insert {row row' : EventRow} (same : row.shown L = row'.shown L) :
    InStep L Eq (perform (Database.insertEvent row)) (perform (Database.insertEvent row')) := by
  refine inStep_perform ?_
  intro db db' alike
  have key : row.execution = row'.execution := (congrArg EventRow.execution same :)
  have number : row.wire = row'.wire := (congrArg EventRow.wire same :)
  have silent : db.triggers.findSome? (Trigger.refusesEvent row) = none := by
    simp [alike.undisturbed.noTrigger]
  have silent' : db'.triggers.findSome? (Trigger.refusesEvent row') = none := by
    simp [alike.other.noTrigger]
  have known : (db.events.any fun stored =>
      stored.execution = row'.execution && stored.wire = row'.wire) =
        db'.events.any fun stored =>
          stored.execution = row'.execution && stored.wire = row'.wire :=
    any_of_same alike.events fun _ => rfl
  have parents : db.executions.any (·.execution = row'.execution) =
      db'.executions.any (·.execution = row'.execution) :=
    any_of_same alike.executions fun _ => rfl
  unfold Database.insertEvent
  simp only [silent, silent', key, number, known, parents]
  split
  · exact .ok rfl alike
  split
  · exact .error _
  · refine .ok rfl (alike.replace alike.projects alike.sessions alike.executions ?_)
    rw [List.map_append, List.map_append, alike.events, List.map_singleton, List.map_singleton, same]

theorem inStep_append {event event' : Event} (alike : event.Alike L event') :
    InStep L Eq (append event) (append event') := by
  obtain ⟨same, stamps⟩ := alike
  refine inStep_insert ?_
  rw [same]
  simp only [ofEvent, shown, stamps]

end EventRow

end Switchboard
