import Switchboard.Hub.Ending

/-!
Taking in what workers report.

A batch of events is stored in one transaction; events whose number is stored already count as
duplicates.  Every event is a sign of life, a request for confirmation makes the session wait, and
a `done` event ends the execution once the batch is stored and its new events are published.
-/

namespace Switchboard

structure IngestReport where
  accepted : Nat
  duplicates : Nat
deriving Repr, DecidableEq, Inhabited

/-- What has been made of a batch so far. -/
structure Batch where
  fresh : List Event := []
  /-- The outcome named by the latest `done` event; empty when it names none. -/
  outcome : Option String := none
  duplicates : Nat := 0
deriving Repr, Inhabited

namespace Event

def asksConfirmation (event : Event) : Bool :=
  event.type == EventType.confirmationRequest &&
    ((event.payload.get? "call_id").bind Json.asString?).any (· ≠ "")

/-- The outcome a `done` event names; empty when it names none. -/
def reportedOutcome (event : Event) : String :=
  ((event.payload.get? "status").bind Json.asString?).getD ""

end Event

def Batch.add (batch : Batch) (event : Event) (stored : Bool) : Batch :=
  { fresh := if stored then batch.fresh ++ [event] else batch.fresh
    outcome := if event.isDone then some event.reportedOutcome else batch.outcome
    duplicates := if stored then batch.duplicates else batch.duplicates + 1 }

namespace Hub

open Transaction

/-- The event a worker posted; the clock is read only when its timestamp is none. -/
def stamped (execution : ExecutionId) (trace : Option TraceId) (raw : WorkerEvent) :
    Transaction StoreError Event := do
  match normalize raw.timestamp with
  | some timestamp => return raw.toEvent execution trace timestamp
  | none => return raw.toEvent execution trace (← now)

def takeEvent (execution : ExecutionId) (trace : Option TraceId) (batch : Batch)
    (raw : WorkerEvent) : Transaction StoreError Batch := do
  let event ← stamped execution trace raw
  let stored ← EventRow.append event
  let _ ← Execution.recordHeartbeat execution event.timestamp
  if event.asksConfirmation then
    let _ ← Session.transition execution .executing .waitingConfirmation
  return batch.add event stored

def takeBatch (execution : ExecutionId) (events : List WorkerEvent) :
    Transaction HubError Batch :=
  committed .store do
    let row ← need (.notFound .execution execution) (← onStore (Execution.get execution))
    onStore (events.foldlM (takeEvent execution row.traceIfAny) {})

/-- Ends an execution as its worker reports; an outcome that is no terminal state is a failure. -/
def conclude (w : World) (execution : ExecutionId) (reported : String) (h : Hub) :
    Except HubError Unit × Hub :=
  match h.complete w execution reported with
  | (.error (.invalidState _), h) => h.complete w execution ExecutionState.failed.name
  | answer => answer

def ingest (w : World) (execution : ExecutionId) (events : List WorkerEvent) (h : Hub) :
    Except HubError IngestReport × Hub :=
  match h.transact w (takeBatch execution events) with
  | (.error e, h) => (.error e, h)
  | (.ok batch, h) =>
    let report : IngestReport := ⟨batch.fresh.length, batch.duplicates⟩
    let h := { h with bus := h.bus.publishAll batch.fresh }
    match batch.outcome with
    | none => (.ok report, h)
    | some reported =>
      match h.conclude w execution reported with
      | (.ok (), h) => (.ok report, h)
      | (.error e, h) => (.error e, h)

end Hub

end Switchboard
