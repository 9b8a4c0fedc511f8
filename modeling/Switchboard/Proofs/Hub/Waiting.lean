import Switchboard.Proofs.Hub.Retry

/-!
A batch of known events.

Events that are stored already are neither stored nor published again, and a batch of them is counted
as duplicates.  But a request for confirmation is heeded whether or not it is known, also when it was
answered in between: then the session waits once more, for an answer that nobody owes.
-/

namespace Switchboard

variable {db : Database} {execution : ExecutionId} {raws : List WorkerEvent} {events : List Event}

/-- Whether the event makes the session of its execution wait. -/
def WorkerEvent.asksConfirmation (raw : WorkerEvent) : Bool :=
  raw.type == EventType.confirmationRequest &&
    ((raw.body.get? "call_id").bind Json.asString?).any (· ≠ "")

theorem any_asksConfirmation_of_posted {trace : Option TraceId} {taken : List (Event × String)}
    (posted : List.Forall₂ (fun raw event => ∃ now, event.1 = raw.toEvent execution trace now)
      raws taken) :
    (taken.map (·.1)).any (·.asksConfirmation) = raws.any (·.asksConfirmation) := by
  induction posted with
  | nil => rfl
  | cons first _ ih =>
      obtain ⟨now, same⟩ := first
      rw [List.map_cons, List.any_cons, List.any_cons, ih, same]
      rfl

/-- A session that waits from now on if the execution holds it and is at work. -/
def Session.halted (execution : ExecutionId) (row : Session) : Session :=
  if row.active = some execution ∧ row.status = .executing then row.withStatus .waitingConfirmation ""
  else row

theorem Session.halted_halted (row : Session) :
    (row.halted execution).halted execution = row.halted execution := by
  by_cases works : row.active = some execution ∧ row.status = .executing <;>
    simp [halted, works, Session.withStatus]

/-- However many requests there are among the events, the session waits once. -/
theorem Database.sessions_takenIn (about : ∀ event ∈ events, event.execution = execution) :
    (db.takenIn events).sessions =
      if events.any (·.asksConfirmation) then db.sessions.map (Session.halted execution)
      else db.sessions := by
  induction events generalizing db with
  | nil => rfl
  | cons event events ih =>
      obtain ⟨rfl, later⟩ := List.forall_mem_cons.mp about
      have step : db.takenIn (event :: events) =
          ((Change.take event "").apply db).takenIn events := rfl
      have first : ((Change.take event "").apply db).sessions =
          if event.asksConfirmation then db.sessions.map (Session.halted event.execution)
          else db.sessions := by
        rw [Change.apply_take]
        rfl
      rw [step, ih later, first, List.any_cons]
      by_cases asks : event.asksConfirmation
      · simp [asks, Session.halted_halted, Function.comp_def]
      · simp [asks]

namespace Hub

variable {w : World} {h after : Hub} {batch : Batch} {e : HubError}

/-- A batch without a `done` event whose events are all stored. -/
structure Known (execution : ExecutionId) (raws : List WorkerEvent) (db : Database) : Prop where
  going : ∀ raw ∈ raws, raw.type ≠ EventType.done
  stored : ∀ raw ∈ raws, (Sequence.ofWire raw.wire).toWire ∈ db.wires execution

/-- Of known events the batch only counts, and the tables show that it was heard of and may wait. -/
theorem Known.of_batch_eq_ok (known : Known execution raws h.db) (undisturbed : h.db.Undisturbed)
    (committed : h.transact w (takeBatch execution raws) = (.ok batch, after)) :
    batch.outcome = none ∧ batch.fresh = [] ∧ batch.duplicates = raws.length ∧
      after.db.unstamped.sessions =
        if raws.any (·.asksConfirmation) then
          h.db.unstamped.sessions.map (Session.halted execution)
        else h.db.unstamped.sessions := by
  obtain ⟨row, taken, -, posted, rfl, tables, fresh, counted⟩ :=
    Hub.of_batch_eq_ok undisturbed committed
  have about : ∀ event ∈ taken.map (·.1), event.execution = execution :=
    forall_of_posted posted fun _ _ _ => rfl
  have going : ∀ event ∈ taken.map (·.1), event.isDone = false :=
    forall_of_posted posted fun raw member _ => beq_false_of_ne (known.going raw member)
  have seen : ∀ event ∈ taken.map (·.1), event.sequence.toWire ∈ h.db.wires execution :=
    forall_of_posted posted fun raw member _ => known.stored raw member
  have nothing : (Batch.addAll h.db {} taken).fresh = [] := fresh.trans (Event.unseen_eq_nil seen)
  refine ⟨?_, nothing, ?_, ?_⟩
  · rw [outcome_addAll, Event.outcome_of_going going]
  · simpa [nothing] using counted
  · rw [tables, unstamped_applyTaken, Database.sessions_takenIn about,
      any_asksConfirmation_of_posted posted]

/-- A batch of known events.  After every run, a batch without a `done` event whose events are all
stored is taken in where no statement is refused.  Then all of it is counted as duplicates, nothing is
published or stored, and the sessions stay as they are but for the clock and for one thing: if there is
a request for confirmation in it, the session that the execution holds waits if it was executing.
A call that fails changes nothing. -/
theorem known_events_may_only_wait (w : World) (limit ring queue : Nat)
    (operations : List Operation) (execution : ExecutionId) (raws : List WorkerEvent)
    (known : Known execution raws ((create limit ring queue).run w operations).db) :
    let h := (create limit ring queue).run w operations
    let after := h.ingest w execution raws
    ((∃ row ∈ h.db.executions, row.execution = execution) → w.CalmFrom h.meter →
      ∃ report, after.1 = .ok report) ∧
    after.2.bus = h.bus ∧
    after.2.db.events = h.db.events ∧
    (∀ e, after.1 = .error e → after.2.db = h.db) ∧
    ∀ report, after.1 = .ok report →
      report = ⟨0, raws.length⟩ ∧
      after.2.db.unstamped.sessions =
        if raws.any (·.asksConfirmation) then
          h.db.unstamped.sessions.map (Session.halted execution)
        else h.db.unstamped.sessions := by
  intro h after
  have undisturbed : h.db.Undisturbed := undisturbed_run
  have posts : h.posts w execution raws = [] := by
    rcases outcome : h.transact w (takeBatch execution raws) with ⟨e | batch, after⟩
    · exact posts_of_error outcome
    · obtain ⟨-, nothing, -⟩ := Known.of_batch_eq_ok known undisturbed outcome
      exact (posts_of_ok outcome).trans nothing
  refine ⟨fun present calm => ingest_exists calm undisturbed present, ?_, ?_, ?_, ?_⟩
  · calc after.2.bus
      _ = h.bus.publishAll (h.posts w execution raws) := bus_ingest
      _ = h.bus := by rw [posts]; rfl
  · calc after.2.db.events
      _ = h.db.events ++ (h.posts w execution raws).map .ofEvent := events_ingest undisturbed
      _ = h.db.events := by rw [posts, List.map_nil, List.append_nil]
  · intro e failed
    rcases of_ingest_eq_error failed with ⟨_, _, -, same⟩ | ⟨_, _, _, committed, named, -⟩
    · exact same
    · obtain ⟨none, -⟩ := Known.of_batch_eq_ok known undisturbed committed
      rw [none] at named
      contradiction
  · intro report done
    obtain ⟨batch, after', committed, rfl⟩ := of_ingest_eq_ok done
    obtain ⟨none, nothing, counted, sessions⟩ := Known.of_batch_eq_ok known undisturbed committed
    refine ⟨by rw [nothing, counted]; rfl, ?_⟩
    have still := (ready_of_batch_eq_ok undisturbed committed).1
    rcases db_ingest_of_ok committed still done with ⟨-, tables⟩ | ⟨_, _, _, named, -⟩
    · rw [tables]
      exact sessions
    · rw [none] at named
      contradiction

private def asking : List WorkerEvent :=
  [⟨1, "2999-01-01T00:00:00Z", "confirmation_request", some (.ofEntries [("call_id", .string "call")])⟩]

/-- A worker asks for a confirmation and is answered. -/
private def answered : List Operation :=
  [.createSession ⟨some "session", "ws", "p", none, none, false, none, none, none, "user"⟩,
    .execute ⟨"ws", "session", "hello", "user"⟩, .answerDispatch "exec_" (.ok ()),
    .ingest "exec_" asking, .decide "exec_" "call" "approved" "user"]

private theorem known_request : Known "exec_" asking ((create 1 8 8).run .plain answered).db :=
  ⟨by decide +kernel, by decide +kernel⟩

/-- The request is sent again after it was answered. -/
theorem answered_request_is_counted :
    let h := (create 1 8 8).run .plain answered
    Known "exec_" asking h.db ∧ (h.ingest .plain "exec_" asking).1 = .ok ⟨0, 1⟩ := by
  obtain ⟨succeeds, -, -, -, facts⟩ :=
    known_events_may_only_wait .plain 1 8 8 answered "exec_" asking known_request
  have present : ∃ row ∈ ((create 1 8 8).run .plain answered).db.executions,
      row.execution = "exec_" := by
    decide +kernel
  obtain ⟨report, done⟩ := succeeds present World.calmFrom_plain
  obtain ⟨rfl, -⟩ := facts report done
  exact ⟨known_request, done⟩

/-- Known events do not leave every session in its status: a request that was answered makes its
session wait again. -/
theorem answered_request_waits_again :
    ¬ ∀ (w : World) (limit ring queue : Nat) (operations : List Operation)
        (execution : ExecutionId) (raws : List WorkerEvent),
      let h := (create limit ring queue).run w operations
      Known execution raws h.db →
        (h.ingest w execution raws).2.db.sessions.map (·.status) =
          h.db.sessions.map (·.status) := by
  intro undisturbed
  have same := undisturbed .plain 1 8 8 answered "exec_" asking known_request
  have before : ((create 1 8 8).run .plain answered).db.sessions.map (·.status) =
      [.executing] := by decide +kernel
  have after : (((create 1 8 8).run .plain answered).ingest .plain "exec_" asking).2.db.sessions.map
      (·.status) = [.waitingConfirmation] := by decide +kernel
  rw [before, after] at same
  contradiction

end Hub

end Switchboard
