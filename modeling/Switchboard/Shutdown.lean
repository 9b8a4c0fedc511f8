import Switchboard.Pool

/-!
Shutting down: the token is cancelled, then the tasks under it and the pool of dispatch jobs have
until one deadline to come to their end.

A task that waits for the token does not run before that is cancelled.  Tasks keep to the same time as
jobs: one that is due at the very deadline is too late, and the caller takes a step to join each that
has ended.
-/

namespace Switchboard

structure Task where
  /-- Whether it waits for the token before it runs. -/
  watchesToken : Bool
  /-- Milliseconds to go, if it has not ended. -/
  left : Option Nat
  panics : Bool
deriving Repr, DecidableEq, Inhabited

namespace Task

def waits (cancelled : Bool) (task : Task) : Bool := task.watchesToken && !cancelled

/-- The task after some time. -/
def pass (cancelled : Bool) (millis : Nat) (task : Task) : Task :=
  if task.waits cancelled then task
  else { task with
    left := task.left.bind fun left => if left < millis then none else some (left - millis) }

/-- The task after a turn, for which it has to be due. -/
def settle (cancelled : Bool) (task : Task) : Task :=
  if task.waits cancelled then task else { task with left := task.left.filter (0 < ·) }

end Task

structure Shutdown where
  cancelled : Bool := false
  tasks : List Task := []
deriving Repr, DecidableEq, Inhabited

structure ShutdownReport where
  /-- Whether everything ended in time. -/
  clean : Bool
  elapsed : Nat
  /-- The token, and the tasks after a turn. -/
  after : Shutdown
  /-- The pool as the caller finds it. -/
  left : Pool
deriving Repr, DecidableEq, Inhabited

namespace ShutdownReport

def cancelled (report : ShutdownReport) : Bool := report.after.cancelled

/-- How many tasks have come to their end without a panic. -/
def tasksEnded (report : ShutdownReport) : Nat :=
  (report.after.tasks.filter fun task => task.left.isNone && !task.panics).length

/-- The pool after a turn. -/
def pool (report : ShutdownReport) : Pool := report.left.settle

end ShutdownReport

namespace Shutdown

/-- Milliseconds until the deadline unless another time is given. -/
def usualTimeout : Nat := 30000

def cancel (s : Shutdown) : Shutdown := { s with cancelled := true }

def pass (millis : Nat) (s : Shutdown) : Shutdown :=
  { s with tasks := s.tasks.map (Task.pass s.cancelled millis) }

def settle (s : Shutdown) : Shutdown := { s with tasks := s.tasks.map (Task.settle s.cancelled) }

/-- How long it takes until every task is due. -/
def tasksTime (s : Shutdown) : Nat := (s.tasks.filterMap (·.left)).foldl max 0

def allEnded (s : Shutdown) : Bool := s.tasks.all (·.left.isNone)

/-- Whether every task ends before a time is over. -/
def clearsBefore (millis : Nat) (s : Shutdown) : Bool := (s.pass millis).allEnded

/-- The pool when the last task has been joined. -/
def join (s : Shutdown) (p : Pool) : Pool :=
  if 0 < s.tasksTime then { p.pass s.tasksTime with steps := stepsPerTurn }
  else if s.allEnded && s.tasks.length ≤ p.steps then p.spend s.tasks.length
  else p.settle

/-- Joins the tasks and drains the pool with what time they leave.  Where the deadline comes before the
last task has been joined, the jobs are left alone. -/
def waitWithin (timeout : Nat) (s : Shutdown) (p : Pool) : ShutdownReport :=
  if s.clearsBefore timeout && (0 < timeout || s.tasks.length ≤ p.steps) then
    let rest := s.join p
    let (clean, left) := rest.waitWithin (timeout - s.tasksTime)
    let elapsed := if clean then s.tasksTime + rest.longest else timeout
    ⟨clean, elapsed, (s.pass elapsed).settle, left⟩
  else ⟨false, timeout, (s.pass timeout).settle, p.pass timeout⟩

/-- Whether the caller needs a step and has none left, so that it cannot see a deadline yet. -/
def pauses (s : Shutdown) (p : Pool) : Bool :=
  p.steps = 0 && !(s.tasks.isEmpty && p.clearsAtOnce)

/-- Cancels the token and waits. -/
def run (s : Shutdown) (p : Pool) (timeout : Nat) : ShutdownReport :=
  if s.pauses p then s.cancel.settle.waitWithin timeout p.settle else s.cancel.waitWithin timeout p

end Shutdown

end Switchboard
