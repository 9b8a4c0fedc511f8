/-!
The pool of dispatch jobs, in a time that passes only when told to.

A job runs for some time and then finishes or panics.  `pending` counts the jobs that have not come
to an end.  A drain waits for all that run; one with a deadline gives up when it comes and tells
what still runs to stop.  A job comes to its end in its own turn, also one that was told to stop, so
a job that is due at the very deadline is too late, and one that stops counts until it has had its
turn.

The caller collects the jobs that ended.  It takes a step for each and may take only so many before
the jobs have a turn, so a deadline without any time can come before all have been collected.
-/

namespace Switchboard

inductive JobState where
  /-- With so many milliseconds to go. -/
  | running (left : Nat)
  /-- Told to stop, which it does in its next turn. -/
  | stopping
  | finished
  | panicked
  | aborted
deriving Repr, DecidableEq, Inhabited

structure Job where
  state : JobState
  panics : Bool
deriving Repr, DecidableEq, Inhabited

namespace Job

def left? (job : Job) : Option Nat :=
  match job.state with
  | .running left => some left
  | _ => none

def isRunning (job : Job) : Bool := job.left?.isSome

/-- Whether a job comes to its end before a time is over. -/
def endsBefore (millis : Nat) (job : Job) : Bool :=
  match job.state with
  | .running left => left < millis
  | .stopping => 0 < millis
  | _ => false

def ended (job : Job) : Job :=
  match job.state with
  | .running _ => { job with state := if job.panics then .panicked else .finished }
  | .stopping => { job with state := .aborted }
  | _ => job

/-- The job with so much less time to go. -/
def hurry (millis : Nat) (job : Job) : Job :=
  match job.state with
  | .running left => { job with state := .running (left - millis) }
  | _ => job

/-- The job after some time; one that is due at the very end of it has yet to take its turn. -/
def pass (millis : Nat) (job : Job) : Job :=
  if job.endsBefore millis then job.ended else job.hurry millis

/-- The job after a turn, for which it has to be due. -/
def settle (job : Job) : Job := if job.endsBefore 1 then job.ended else job

def abort (job : Job) : Job :=
  if job.isRunning then { job with state := .stopping } else job

end Job

/-- Steps that the caller may take before the jobs have a turn. -/
def stepsPerTurn : Nat := 128

structure Pool where
  /-- All jobs ever spawned, oldest first. -/
  jobs : List Job := []
  /-- Spawned and not ended; every job counts itself out when it ends, however it ends. -/
  pending : Nat := 0
  /-- Jobs that came to their end by themselves and have not been collected. -/
  uncollected : Nat := 0
  /-- Steps that the caller may still take. -/
  steps : Nat := stepsPerTurn
deriving Repr, DecidableEq, Inhabited

namespace Pool

/-- What has ended so far is collected first, at no cost. -/
def spawn (millis : Nat) (panics : Bool) (p : Pool) : Pool :=
  { p with
    jobs := p.jobs ++ [⟨.running millis, panics⟩]
    pending := p.pending + 1
    uncollected := 0 }

/-- Counts out the jobs that end before a time is over. -/
def countOut (millis : Nat) (p : Pool) : Pool :=
  { p with
    pending := p.pending - (p.jobs.filter (Job.endsBefore millis)).length
    uncollected := p.uncollected +
      (p.jobs.filter fun job => job.isRunning && job.endsBefore millis).length }

def pass (millis : Nat) (p : Pool) : Pool :=
  { p.countOut millis with jobs := p.jobs.map (Job.pass millis) }

/-- Every job that is due has its turn, after which the caller has all its steps again. -/
def settle (p : Pool) : Pool :=
  { p.countOut 1 with jobs := p.jobs.map Job.settle, steps := stepsPerTurn }

def spend (steps : Nat) (p : Pool) : Pool := { p with steps := p.steps - steps }

/-- The caller sleeps, and waking is a step.  It has to have one left to wake without delay. -/
def sleep (millis : Nat) (p : Pool) : Pool :=
  if 0 < millis then ({ p.pass millis with steps := stepsPerTurn } : Pool).spend 1
  else if p.steps = 0 then p.settle.spend 1
  else p.spend 1

/-- How long it takes until every running job is due. -/
def longest (p : Pool) : Nat := (p.jobs.filterMap Job.left?).foldl max 0

/-- Whether every running job ends before a time is over. -/
def clearsBefore (millis : Nat) (p : Pool) : Bool :=
  p.jobs.all fun job => !job.isRunning || job.endsBefore millis

/-- Whether nothing runs and the caller can collect all that ended without a pause. -/
def clearsAtOnce (p : Pool) : Bool :=
  !p.jobs.any Job.isRunning && p.uncollected ≤ p.steps

/-- Waits for every running job and collects all that ended.  Where that needs no pause, no job has
a turn. -/
def drain (p : Pool) : Pool :=
  if p.clearsAtOnce then { p.spend p.uncollected with uncollected := 0 }
  else { (p.pass p.longest).settle with uncollected := 0 }

/-- Tells every running job to stop; what ended before is not collected any more. -/
def abortAll (p : Pool) : Pool := { p with jobs := p.jobs.map Job.abort, uncollected := 0 }

/-- Gives up at a deadline, which it takes a step to see. -/
def giveUp (millis : Nat) (p : Pool) : Pool :=
  if 0 < millis then ({ p.pass millis with steps := stepsPerTurn } : Pool).abortAll.spend 1
  else (p.spend (p.uncollected + 1)).abortAll

/-- Waits for every running job until a deadline; says whether all were collected in time. -/
def waitWithin (millis : Nat) (p : Pool) : Bool × Pool :=
  if p.clearsAtOnce || (0 < millis && p.clearsBefore millis) then (true, p.drain)
  else (false, p.giveUp millis)

/-- The pool when its caller can see a deadline.  One that needs a step and has none left sees it only
after the jobs have had a turn. -/
def ready (p : Pool) : Pool := if p.steps = 0 && !p.clearsAtOnce then p.settle else p

/-- Drains the pool, but gives up at a deadline. -/
def drainWithin (millis : Nat) (p : Pool) : Bool × Pool := p.ready.waitWithin millis

def finished (p : Pool) : Nat := (p.jobs.filter (·.state == .finished)).length

end Pool

end Switchboard
