import Switchboard.Hub.Basic

/-!
Sweeping: failing the executions whose worker has gone silent.

Each stale execution is failed and its session freed in a transaction of its own, so one that cannot
be recovered does not stop the others.  An audit row follows if it can be written; then the
subscribers are told.
-/

namespace Switchboard

structure SweepReport where
  recovered : List ExecutionId := []
  /-- Executions that had moved on. -/
  skipped : Nat := 0
  errors : Nat := 0
deriving Repr, DecidableEq, Inhabited

namespace Hub

open Transaction

def timeoutAction : String := "execution.timeout"

def timeoutSummary : String := "no_heartbeat_within_timeout"

/-- Fails an execution and frees its session, unless it has moved on. -/
def failSilent (execution : ExecutionId) (at_ : String) : Transaction StoreError Bool :=
  committed id do
    if ← Execution.failIfExecuting execution at_ then
      let _ ← Session.release execution
      return true
    else return false

def timeoutAudit (row : Execution) (at_ : String) : AuditRow :=
  { audit := ""
    workspace := row.workspace
    project := row.project
    session := row.session
    execution := row.execution
    user := systemUser
    action := timeoutAction
    tool := ""
    summary := timeoutSummary
    outcome := "failure"
    trace := row.trace
    createdAt := at_ }

def timeoutPayload : Json :=
  .ofEntries [("status", .string ExecutionState.failed.name),
    ("message", .string "execution timed out")]

/-- Tells subscribers of a timeout: an error, then the end of the stream. -/
def announceTimeout (w : World) (row : Execution) (h : Hub) : Hub :=
  (h.announceError w row.execution (some row.trace) ErrorCode.executionTimeout
    "execution timed out: no heartbeat within timeout").announce w fun now =>
      ⟨row.execution, some row.trace, .terminal, now, EventType.done, timeoutPayload⟩

/-- Recovers one stale execution and enters the result in the report. -/
def recover (w : World) (h : Hub) (report : SweepReport) (row : Execution) : Hub × SweepReport :=
  let at_ := w.now h.meter
  let h := { h with meter := h.meter.afterReading }
  match h.transact w (failSilent row.execution at_) with
  | (.error _, h) => (h, { report with errors := report.errors + 1 })
  | (.ok false, h) => (h, { report with skipped := report.skipped + 1 })
  | (.ok true, h) =>
    let h := (h.transact w (AuditRow.record (timeoutAudit row at_))).2
    (h.announceTimeout w row, { report with recovered := report.recovered ++ [row.execution] })

def sweepBefore (w : World) (cutoff : String) (h : Hub) : Except HubError SweepReport × Hub :=
  match h.transact w (Execution.listStale cutoff) with
  | (.error e, h) => (.error (.store e), h)
  | (.ok rows, h) =>
    let (h, report) := rows.foldl (fun (h, report) row => h.recover w report row) (h, {})
    (.ok report, h)

def sweepWithin (w : World) (seconds nanos : Nat) (h : Hub) : Except HubError SweepReport × Hub :=
  let cutoff := ((w.clock h.meter.readings).before seconds nanos).text
  sweepBefore w cutoff { h with meter := h.meter.afterReading }

def sweep (w : World) (timeout : Nat) (h : Hub) : Except HubError SweepReport × Hub :=
  sweepWithin w timeout 0 h

def sweepTimes (w : World) (timeout : Nat) : Nat → Hub → Hub
  | 0, h => h
  | times + 1, h => sweepTimes w timeout times (h.sweep w timeout).2

end Hub

/-- A loop that sweeps at every multiple of its interval since it started. -/
structure Watchdog where
  timeout : Nat
  interval : Nat
  elapsed : Nat := 0
deriving Repr, DecidableEq, Inhabited

namespace Watchdog

/-- A loop without an interval breaks down at its start. -/
def isAlive (dog : Watchdog) : Bool := dog.interval ≠ 0

/-- How many sweeps fall due while time passes. -/
def due (dog : Watchdog) (millis : Nat) : Nat :=
  (dog.elapsed + millis) / dog.interval - dog.elapsed / dog.interval

def advance (w : World) (dog : Watchdog) (millis : Nat) (h : Hub) : Watchdog × Hub :=
  ({ dog with elapsed := dog.elapsed + millis },
    if dog.isAlive then h.sweepTimes w dog.timeout (dog.due millis) else h)

end Watchdog

end Switchboard
