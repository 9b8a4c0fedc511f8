import Switchboard.Proofs.Hub.Tenancy

/-!
What a request comes to.

A request is decided by its session and by the number of active executions in its workspace, in this
order: a session that is not there, one that is held, a workspace that is full.  An admission adds one
row and changes one: the new execution waits, and the session is held by it.
-/

namespace Switchboard

theorem joinPath_ne_empty {base part : String} (named : part ≠ "") : Text.joinPath base part ≠ "" := by
  unfold Text.joinPath
  split
  · exact named
  · split <;> exact fun empty => named (String.append_eq_empty_iff.mp empty).2

/-- Whether a session is the one that a request names. -/
def ExecuteRequest.Names (request : ExecuteRequest) (session : Session) : Prop :=
  session.session = request.session ∧ session.workspace = request.workspace

theorem ExecuteRequest.worktree_ne_empty_iff {session : Session} {root : String}
    {execution : ExecutionId} (named : execution ≠ "") :
    worktree session root execution ≠ "" ↔ session.useWorktree ∧ root ≠ "" := by
  have path : worktreePath root execution ≠ "" := joinPath_ne_empty named
  unfold worktree
  split
  · rename_i wanted
    simpa [path] using wanted
  · rename_i unwanted
    simpa using unwanted

namespace Database

variable {limit : Nat} {request : ExecuteRequest} {db : Database} {e : HubError}

/-- The reasons for which a request is refused, each of them only if none before it applies. -/
inductive Refuses (limit : Nat) (request : ExecuteRequest) (db : Database) : HubError → Prop where
  | absent : (∀ session ∈ db.sessions, ¬ request.Names session) →
      Refuses limit request db (.notFound .session request.session)
  | busy {session : Session} {active : ExecutionId} : session ∈ db.sessions →
      request.Names session → session.holder = some active →
      Refuses limit request db (.sessionBusy request.session active)
  | full {session : Session} : session ∈ db.sessions → request.Names session →
      session.holder = none → limit ≠ 0 → limit ≤ db.activeCount request.workspace →
      Refuses limit request db
        (.quotaExceeded request.workspace limit (db.activeCount request.workspace))

theorem sessionIn_eq_none_iff : db.sessionIn request.workspace request.session = none ↔
    ∀ session ∈ db.sessions, ¬ request.Names session := by
  simp [sessionIn, ExecuteRequest.Names]

theorem Exclusive.verdict_eq_ok_iff (exclusive : db.Exclusive) :
    db.verdict limit request = .ok () ↔ ∃ session ∈ db.sessions, request.Names session ∧
      session.holder = none ∧ (limit = 0 ∨ db.activeCount request.workspace < limit) := by
  constructor
  · intro accepted
    obtain ⟨session, found, free, room⟩ := of_verdict_eq_ok accepted
    obtain ⟨member, named⟩ := of_sessionIn_eq_some found
    exact ⟨session, member, named, free, room⟩
  · intro accepted
    obtain ⟨session, member, named, free, room⟩ := accepted
    have found := exclusive.sessionIn_eq_some_iff.mpr ⟨member, named⟩
    have fits : ¬ (limit ≠ 0 ∧ limit ≤ db.activeCount request.workspace) := by omega
    simp only [verdict, found, free, if_neg fits]

theorem Exclusive.verdict_eq_error_iff (exclusive : db.Exclusive) :
    db.verdict limit request = .error e ↔ db.Refuses limit request e := by
  constructor
  · intro refused
    unfold verdict at refused
    cases found : db.sessionIn request.workspace request.session with
    | none =>
        simp only [found] at refused
        cases refused
        exact .absent (sessionIn_eq_none_iff.mp found)
    | some session =>
        obtain ⟨member, named⟩ := of_sessionIn_eq_some found
        simp only [found] at refused
        cases holder : session.holder with
        | some active =>
            simp only [holder] at refused
            cases refused
            rw [named.1]
            exact .busy member named holder
        | none =>
            simp only [holder] at refused
            split at refused
            · rename_i full
              cases refused
              exact .full member named holder full.1 full.2
            · cases refused
  · intro reason
    cases reason with
    | absent missing => simp only [verdict, sessionIn_eq_none_iff.mpr missing]
    | busy member named held =>
        have found := exclusive.sessionIn_eq_some_iff.mpr ⟨member, named⟩
        simp only [verdict, found, held, named.1]
    | full member named free limited full =>
        have found := exclusive.sessionIn_eq_some_iff.mpr ⟨member, named⟩
        simp only [verdict, found, free, if_pos (And.intro limited full)]

/-- Where sessions occur once, a change of one of them is a change of a single row. -/
theorem Exclusive.parts_of_change (exclusive : db.Exclusive) {session : Session}
    (member : session ∈ db.sessions) (change : Session → Session) :
    ∃ before after, db.sessions = before ++ session :: after ∧
      (db.sessions.map fun row => if row.session = session.session then change row else row) =
        before ++ change session :: after := by
  obtain ⟨before, after, parts⟩ := List.append_of_mem member
  have distinct := exclusive.distinctSessions
  rw [parts, List.map_append, List.map_cons, List.nodup_middle] at distinct
  have others : ∀ row ∈ before ++ after, row.session ≠ session.session := by
    intro row present same
    refine (List.nodup_cons.mp distinct).1 ?_
    rw [← List.map_append]
    exact List.mem_map.mpr ⟨row, present, same⟩
  have kept : ∀ rows : List Session, (∀ row ∈ rows, row ∈ before ++ after) →
      (rows.map fun row => if row.session = session.session then change row else row) = rows := by
    intro rows within
    exact (List.map_congr_left fun row present => if_neg (others row (within row present))).trans
      (List.map_id' rows)
  refine ⟨before, after, parts, ?_⟩
  rw [parts, List.map_append, List.map_cons, if_pos rfl, kept before fun _ => List.mem_append_left _,
    kept after fun _ => List.mem_append_right _]

end Database

namespace Hub

variable {w : World} {h : Hub} {request : ExecuteRequest}

theorem execute_calmedFrom {bound : Nat}
    (within : (h.execute w request).2.meter.statements ≤ bound) :
    h.execute (w.calmedFrom bound) request = h.execute w request := by
  have used : (admission h.limit request w h.meter h.db).1.statements ≤ bound := by
    unfold execute transact at within
    rcases outcome : admission h.limit request w h.meter h.db with ⟨m, e | ⟨a, db⟩⟩ <;>
      simpa only [outcome] using within
  unfold execute transact
  rw [(composed_admission h.limit request).calmedFrom used]

theorem execute_ne_store_of_calmBetween (undisturbed : h.db.Undisturbed) (minted : h.Minted w)
    (unique : Function.Injective w.unique)
    (calm : w.CalmBetween h.meter (h.execute w request).2.meter) :
    ∀ cause, (h.execute w request).1 ≠ .error (.store cause) := by
  have same : h.execute (w.calmedFrom (h.execute w request).2.meter.statements) request =
      h.execute w request := execute_calmedFrom (Nat.le_refl _)
  rw [← same]
  exact execute_ne_store undisturbed minted ⟨unique, calm.calmedFrom⟩

theorem of_execute_eq_ok {info : ExecutionInfo} (undisturbed : h.db.Undisturbed)
    (done : (h.execute w request).1 = .ok info) :
    ∃ session root execution trace createdAt heldAt,
      (Change.enter request session root execution trace createdAt heldAt).Allowed h.limit h.db ∧
      (Change.enter request session root execution trace createdAt heldAt).apply h.db =
        (h.execute w request).2.db ∧
      info = ⟨execution, trace, request.session, .pending⟩ := by
  unfold execute transact at done ⊢
  rcases outcome : admission h.limit request w h.meter h.db with ⟨m, e | ⟨a, db⟩⟩ <;>
    simp only [outcome] at done ⊢
  · cases done
  · obtain ⟨session, root, createdAt, heldAt, rfl, -, allowed, applied⟩ :=
      of_admission undisturbed outcome
    cases done
    exact ⟨session, root, _, _, createdAt, heldAt, allowed, applied, rfl⟩

/-- A request is admitted exactly if its session is there and free and the workspace has room, and is
refused with the first of the reasons that apply otherwise, unless a statement fails; none does where
nothing goes wrong outside the hub.  A refusal leaves the tables; an admission adds one execution,
which waits, and gives it the session. -/
theorem admission_is_decided (w : World) (limit₀ limit ring queue : Nat)
    (operations : List Operation) (request : ExecuteRequest) :
    let h := { (create limit₀ ring queue).run w operations with limit }
    let outcome := h.execute w request
    (Function.Injective w.unique → w.CalmBetween h.meter outcome.2.meter →
      ∀ cause, outcome.1 ≠ .error (.store cause)) ∧
    ((∀ cause, outcome.1 ≠ .error (.store cause)) →
      ((∃ info, outcome.1 = .ok info) ↔ ∃ session ∈ h.db.sessions, request.Names session ∧
        session.holder = none ∧ (limit = 0 ∨ h.db.activeCount request.workspace < limit)) ∧
      ∀ e, outcome.1 = .error e ↔ h.db.Refuses limit request e) ∧
    (∀ e, outcome.1 = .error e → outcome.2.db = h.db) ∧
    ∀ info, outcome.1 = .ok info →
      ∃ before session after execution trace worktreeRoot createdAt heldAt,
        h.db.sessions = before ++ session :: after ∧ request.Names session ∧
        execution ≠ "" ∧ (∀ row ∈ h.db.executions, row.execution ≠ execution) ∧
        (worktreeRoot ≠ "" ↔ session.useWorktree ∧ h.db.rootOf session.project ≠ "") ∧
        outcome.2.db = { h.db with
          sessions := before ++
            { session with active := some execution, status := .executing, updatedAt := heldAt } ::
              after
          executions := h.db.executions ++ [{
            execution, trace, createdAt
            session := request.session
            project := session.project
            workspace := request.workspace
            createdBy := request.user
            state := .pending
            userMessage := request.message
            repoRoot := h.db.rootOf session.project
            worktreeRoot := worktreeRoot
            useWorktree := session.useWorktree
            startedAt := none
            endedAt := none
            lastEventAt := none }] } ∧
        info = ⟨execution, trace, request.session, .pending⟩ := by
  intro h outcome
  have reached : ((create limit₀ ring queue).run w operations).db.Undisturbed := undisturbed_run
  have undisturbed : h.db.Undisturbed := reached
  have exclusive : h.db.Exclusive := exclusive_run w limit₀ ring queue operations
  have minted : ((create limit₀ ring queue).run w operations).Minted w :=
    minted_run undisturbed_create fun _ absent => absurd absent List.not_mem_nil
  refine ⟨?_, ?_, ?_, ?_⟩
  · intro unique calm
    exact execute_ne_store_of_calmBetween undisturbed minted unique calm
  · intro carried
    have answer : outcome.1.map (fun _ => ()) = h.db.verdict limit request :=
      answer_eq_verdict undisturbed carried
    rw [← exclusive.verdict_eq_ok_iff]
    simp only [← exclusive.verdict_eq_error_iff, ← answer]
    cases outcome.1 with
    | ok info => simp [Except.map]
    | error e => simp [Except.map]
  · intro e failed
    obtain ⟨m, -, left⟩ := of_execute_eq_error failed
    simp only [outcome, left]
  · intro info done
    obtain ⟨session, root, execution, trace, createdAt, heldAt, allowed, applied, rfl⟩ :=
      of_execute_eq_ok undisturbed done
    obtain ⟨found, -, -, rfl, fresh, named⟩ := allowed
    obtain ⟨member, ofRequest⟩ := Database.of_sessionIn_eq_some found
    obtain ⟨before, after, parts, held⟩ :=
      exclusive.parts_of_change member (Session.held execution heldAt)
    rw [ofRequest.1] at held
    refine ⟨before, session, after, execution, trace, _, createdAt, heldAt, parts, ofRequest, named,
      fresh, ExecuteRequest.worktree_ne_empty_iff named, ?_, rfl⟩
    rw [← applied, Change.apply_enter, held]
    rfl

end Hub

end Switchboard
