import Mathlib.Data.List.Basic
import Switchboard.Pool

/-!
Runs of a pool of jobs.

Jobs are never removed and keep their places, so each of them can be followed through a run.  What has
ended stays as it ended.  The count of pending jobs is kept beside the jobs; in every run it agrees
with them, and no more are counted out than are counted.
-/

namespace Switchboard

namespace Job

variable {job after later : Job} {millis : Nat}

/-- Whether a job has neither finished, panicked nor been aborted. -/
def isPending (job : Job) : Bool := job.isRunning || job.state = .stopping

/-- What does not run any more comes to the end that it is bound for and stays there. -/
def Lasts (job after : Job) : Prop :=
  after.panics = job.panics ∧ (job.isRunning = false → after = job ∨ after = job.ended)

theorem isRunning_eq_false : job.isRunning = false ↔ ∀ left, job.state ≠ .running left := by
  obtain ⟨state, panics⟩ := job
  cases state <;> simp [isRunning, left?]

theorem isPending_ended (job : Job) : job.ended.isPending = false := by
  obtain ⟨state, panics⟩ := job
  cases state <;> cases panics <;> rfl

theorem isPending_of_endsBefore (ends : job.endsBefore millis) : job.isPending := by
  obtain ⟨state, panics⟩ := job
  cases state <;> first | rfl | contradiction

@[simp] theorem ended_ended (job : Job) : job.ended.ended = job.ended := by
  obtain ⟨state, panics⟩ := job
  cases state <;> cases panics <;> rfl

theorem isRunning_ended (job : Job) : job.ended.isRunning = false := by
  obtain ⟨state, panics⟩ := job
  cases state <;> cases panics <;> rfl

@[simp] theorem panics_ended (job : Job) : job.ended.panics = job.panics := by
  obtain ⟨state, panics⟩ := job
  cases state <;> rfl

theorem isPending_hurry (millis : Nat) (job : Job) :
    (job.hurry millis).isPending = job.isPending := by
  obtain ⟨state, panics⟩ := job
  cases state <;> rfl

theorem isPending_abort (job : Job) : job.abort.isPending = job.isPending := by
  obtain ⟨state, panics⟩ := job
  cases state <;> rfl

theorem isPending_pass (millis : Nat) (job : Job) :
    (job.pass millis).isPending = (job.isPending && !job.endsBefore millis) := by
  unfold pass
  split
  · rename_i ends
    rw [isPending_ended, ends, Bool.not_true, Bool.and_false]
  · rename_i goes
    rw [Bool.not_eq_true] at goes
    rw [isPending_hurry, goes, Bool.not_false, Bool.and_true]

theorem isPending_settle (job : Job) :
    job.settle.isPending = (job.isPending && !job.endsBefore 1) := by
  unfold settle
  split
  · rename_i ends
    rw [isPending_ended, ends, Bool.not_true, Bool.and_false]
  · rename_i goes
    rw [Bool.not_eq_true] at goes
    rw [goes, Bool.not_false, Bool.and_true]

theorem Lasts.refl (job : Job) : job.Lasts job := ⟨rfl, fun _ => .inl rfl⟩

theorem Lasts.trans (first : job.Lasts after) (next : after.Lasts later) : job.Lasts later := by
  refine ⟨next.1.trans first.1, fun stands => ?_⟩
  rcases first.2 stands with rfl | rfl
  · exact next.2 stands
  · right
    rcases next.2 (isRunning_ended job) with rfl | rfl
    · rfl
    · exact ended_ended job

theorem lasts_ended (job : Job) : job.Lasts job.ended := ⟨panics_ended job, fun _ => .inr rfl⟩

theorem lasts_pass (millis : Nat) (job : Job) : job.Lasts (job.pass millis) := by
  unfold pass
  split
  · exact lasts_ended job
  · obtain ⟨state, panics⟩ := job
    cases state with
    | running left => exact ⟨rfl, nofun⟩
    | _ => exact .refl _

theorem lasts_settle (job : Job) : job.Lasts job.settle := by
  unfold settle
  split
  · exact lasts_ended job
  · exact .refl job

theorem lasts_abort (job : Job) : job.Lasts job.abort := by
  obtain ⟨state, panics⟩ := job
  cases state with
  | running left => exact ⟨rfl, nofun⟩
  | _ => exact .refl _

/-- Once told to stop, a job never runs to its end. -/
theorem Lasts.stopped (lasts : job.Lasts after) (stopping : job.state = .stopping) :
    after.state = .stopping ∨ after.state = .aborted := by
  obtain ⟨state, panics⟩ := job
  cases stopping
  exact (lasts.2 rfl).imp (congrArg state) (congrArg state)

end Job

namespace Pool

inductive Move where
  | spawn (millis : Nat) (panics : Bool)
  | sleep (millis : Nat)
  | drain
  | drainWithin (millis : Nat)
  /-- The caller pauses, and every job that is due has its turn. -/
  | turn
deriving Repr, DecidableEq

namespace Move

def apply (p : Pool) : Move → Pool
  | .spawn millis panics => p.spawn millis panics
  | .sleep millis => p.sleep millis
  | .drain => p.drain
  | .drainWithin millis => (p.drainWithin millis).2
  | .turn => p.settle

def newJobs : Move → List Job
  | .spawn millis panics => [⟨.running millis, panics⟩]
  | _ => []

end Move

def run (p : Pool) (moves : List Move) : Pool := moves.foldl Move.apply p

variable {p q r : Pool} {millis : Nat}

def Accounted (p : Pool) : Prop := p.pending = p.jobs.countP Job.isPending

/-- Whether a pool is another one later, with no job spawned in between. -/
structure Follows (p q : Pool) : Prop where
  jobs : ∃ change : Job → Job, (∀ job : Job, job.Lasts (change job)) ∧ q.jobs = p.jobs.map change
  accounted : p.Accounted → q.Accounted

theorem Follows.trans (first : p.Follows q) (next : q.Follows r) : p.Follows r := by
  obtain ⟨change, lasts, jobs⟩ := first.jobs
  obtain ⟨change', lasts', jobs'⟩ := next.jobs
  refine ⟨⟨change' ∘ change, fun job => (lasts job).trans (lasts' _), ?_⟩,
    fun accounted => next.accounted (first.accounted accounted)⟩
  rw [jobs', jobs, List.map_map]

theorem follows_of_same (jobs : q.jobs = p.jobs) (pending : q.pending = p.pending) :
    p.Follows q := by
  refine ⟨⟨id, .refl, by rw [jobs, List.map_id]⟩, fun accounted => ?_⟩
  rw [Accounted, jobs, pending]
  exact accounted

theorem countP_isPending (jobs : List Job) (millis : Nat) :
    jobs.countP Job.isPending = jobs.countP (fun job => job.isPending && !job.endsBefore millis) +
      jobs.countP (Job.endsBefore millis) := by
  induction jobs with
  | nil => rfl
  | cons job jobs ih =>
      have pending : job.endsBefore millis → job.isPending := Job.isPending_of_endsBefore
      rw [List.countP_cons, List.countP_cons, List.countP_cons, ih]
      cases ends : job.endsBefore millis with
      | true =>
          simp only [pending ends]
          simp only [Bool.not_true, Bool.and_false, Bool.false_eq_true, if_true, if_false]
          omega
      | false =>
          simp only [Bool.not_false, Bool.and_true, Bool.false_eq_true, if_false]
          omega

/-- Counting out takes away the jobs that end and no others. -/
theorem follows_of_countOut {change : Job → Job} (lasts : ∀ job : Job, job.Lasts (change job))
    (counts : ∀ job, (change job).isPending = (job.isPending && !job.endsBefore millis))
    (jobs : q.jobs = p.jobs.map change) (pending : q.pending = (p.countOut millis).pending) :
    p.Follows q := by
  refine ⟨⟨change, lasts, jobs⟩, fun accounted => ?_⟩
  have left : q.jobs.countP Job.isPending =
      p.jobs.countP fun job => job.isPending && !job.endsBefore millis := by
    rw [jobs, List.countP_map]
    exact List.countP_congr fun job _ => by rw [Function.comp_apply, counts]
  have split := countP_isPending p.jobs millis
  have counted : q.pending = p.pending - p.jobs.countP (Job.endsBefore millis) := by
    rw [pending, List.countP_eq_length_filter]
    rfl
  rw [Accounted] at accounted ⊢
  omega

theorem follows_pass (millis : Nat) (p : Pool) : p.Follows (p.pass millis) :=
  follows_of_countOut (Job.lasts_pass millis) (Job.isPending_pass millis) rfl rfl

theorem follows_settle (p : Pool) : p.Follows p.settle :=
  follows_of_countOut Job.lasts_settle Job.isPending_settle rfl rfl

theorem follows_abortAll (p : Pool) : p.Follows p.abortAll := by
  refine ⟨⟨Job.abort, Job.lasts_abort, rfl⟩, fun accounted => ?_⟩
  have same : Job.isPending ∘ Job.abort = Job.isPending := funext Job.isPending_abort
  rw [Accounted, abortAll, List.countP_map, same]
  exact accounted

theorem follows_sleep (millis : Nat) (p : Pool) : p.Follows (p.sleep millis) := by
  unfold sleep
  split
  · exact (follows_pass millis p).trans (follows_of_same rfl rfl)
  · split
    · exact (follows_settle p).trans (follows_of_same rfl rfl)
    · exact follows_of_same rfl rfl

theorem follows_drain (p : Pool) : p.Follows p.drain := by
  unfold drain
  split
  · exact follows_of_same rfl rfl
  · exact ((follows_pass p.longest p).trans (follows_settle _)).trans (follows_of_same rfl rfl)

theorem follows_giveUp (millis : Nat) (p : Pool) : p.Follows (p.giveUp millis) := by
  unfold giveUp
  split
  · have stopped : (p.pass millis).Follows
        ({ p.pass millis with steps := stepsPerTurn } : Pool).abortAll :=
      (follows_abortAll (p.pass millis)).trans (follows_of_same rfl rfl)
    exact ((follows_pass millis p).trans stopped).trans (follows_of_same rfl rfl)
  · exact (follows_abortAll p).trans (follows_of_same rfl rfl)

theorem follows_ready (p : Pool) : p.Follows p.ready := by
  unfold ready
  split
  · exact follows_settle p
  · exact follows_of_same rfl rfl

theorem follows_waitWithin (millis : Nat) (p : Pool) : p.Follows (p.waitWithin millis).2 := by
  unfold waitWithin
  split
  · exact follows_drain p
  · exact follows_giveUp millis p

theorem follows_drainWithin (millis : Nat) (p : Pool) : p.Follows (p.drainWithin millis).2 :=
  (follows_ready p).trans (follows_waitWithin millis p.ready)

/-- What a move makes of the jobs that are there, apart from those it adds. -/
theorem jobs_apply (p : Pool) (move : Move) :
    ∃ change : Job → Job, (∀ job : Job, job.Lasts (change job)) ∧
      (move.apply p).jobs = p.jobs.map change ++ move.newJobs := by
  have alone {q : Pool} (follows : p.Follows q) : ∃ change : Job → Job,
      (∀ job : Job, job.Lasts (change job)) ∧ q.jobs = p.jobs.map change ++ [] := by
    simpa only [List.append_nil] using follows.jobs
  cases move with
  | spawn millis panics => exact ⟨id, .refl, by rw [List.map_id]; rfl⟩
  | sleep millis => exact alone (follows_sleep millis p)
  | drain => exact alone (follows_drain p)
  | drainWithin millis => exact alone (follows_drainWithin millis p)
  | turn => exact alone (follows_settle p)

theorem Accounted.apply (accounted : p.Accounted) (move : Move) : (move.apply p).Accounted := by
  cases move with
  | spawn millis panics =>
      have added : [(⟨.running millis, panics⟩ : Job)].countP Job.isPending = 1 := rfl
      rw [Accounted] at accounted ⊢
      rw [Move.apply, spawn, List.countP_append, added, accounted]
  | sleep millis => exact (follows_sleep millis p).accounted accounted
  | drain => exact (follows_drain p).accounted accounted
  | drainWithin millis => exact (follows_drainWithin millis p).accounted accounted
  | turn => exact (follows_settle p).accounted accounted

theorem Accounted.run (accounted : p.Accounted) (moves : List Move) : (p.run moves).Accounted := by
  induction moves generalizing p with
  | nil => exact accounted
  | cons move moves ih => exact ih (accounted.apply move)

theorem accounted_run (moves : List Move) : (run {} moves).Accounted :=
  Accounted.run (p := {}) rfl moves

/-- No more jobs are counted out than are counted. -/
theorem Accounted.countP_endsBefore_le (accounted : p.Accounted) (millis : Nat) :
    p.jobs.countP (Job.endsBefore millis) ≤ p.pending := by
  rw [accounted]
  exact List.countP_mono_left fun job _ => Job.isPending_of_endsBefore

theorem jobs_run (p : Pool) (moves : List Move) :
    ((p.run moves).jobs.map Job.panics) =
      p.jobs.map Job.panics ++ (moves.flatMap Move.newJobs).map Job.panics := by
  induction moves generalizing p with
  | nil => exact (List.append_nil _).symm
  | cons move moves ih =>
      obtain ⟨change, lasts, jobs⟩ := jobs_apply p move
      have same : Job.panics ∘ change = Job.panics := funext fun job => (lasts job).1
      rw [run, List.foldl_cons, ← run, ih, jobs, List.flatMap_cons, List.map_append, List.map_map,
        same, List.map_append, List.append_assoc]

/-- In a run every job keeps its place, and its end once it has one. -/
theorem lasts_run {i : Nat} {job : Job} (place : p.jobs[i]? = some job) (moves : List Move) :
    ∃ after, (p.run moves).jobs[i]? = some after ∧ job.Lasts after := by
  induction moves generalizing p job with
  | nil => exact ⟨job, place, .refl job⟩
  | cons move moves ih =>
      obtain ⟨change, lasts, jobs⟩ := jobs_apply p move
      have next : (move.apply p).jobs[i]? = some (change job) := by
        have kept : (p.jobs.map change)[i]? = some (change job) := by
          rw [List.getElem?_map, place, Option.map_some]
        rw [jobs, List.getElem?_append_left (List.getElem?_eq_some_iff.mp kept).1, kept]
      obtain ⟨after, found, later⟩ := ih next
      exact ⟨after, found, (lasts job).trans later⟩

end Pool

end Switchboard
