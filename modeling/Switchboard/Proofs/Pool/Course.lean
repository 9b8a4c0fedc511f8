import Switchboard.Proofs.Pool.Run

/-!
Jobs while time passes.

Nobody interferes with them.  A job that runs has so much less to go, or comes to its end if it is due,
and one that was told to stop does so in its next turn.  A job that is due has yet to have its turn, so
what a time that is the end of no job makes of a pool does not depend on the turns.
-/

namespace Switchboard

namespace Job

variable {job between after : Job} {millis elapsed later left : Nat}

/-- What becomes of a job in some time. -/
inductive Course (millis : Nat) (job : Job) : Job → Prop
  | ends {left : Nat} (running : job.state = .running left) (due : left ≤ millis) :
      Course millis job job.ended
  | goesOn {left : Nat} (running : job.state = .running left) (early : millis ≤ left) :
      Course millis job { job with state := .running (left - millis) }
  | stays (still : job.isRunning = false) : Course millis job job
  | drops (stopping : job.state = .stopping) : Course millis job job.ended

theorem course_pass (millis : Nat) (job : Job) : job.Course millis (job.pass millis) := by
  unfold pass
  split
  · rename_i ends
    obtain ⟨state, panics⟩ := job
    cases state with
    | running left => exact .ends rfl (Nat.le_of_lt (of_decide_eq_true ends))
    | stopping => exact .drops rfl
    | _ => contradiction
  · rename_i goes
    obtain ⟨state, panics⟩ := job
    cases state with
    | running left =>
        have early : ¬ left < millis := fun before => goes (decide_eq_true before)
        exact .goesOn rfl (Nat.le_of_not_lt early)
    | _ => exact .stays rfl

theorem Course.refl (job : Job) : job.Course 0 job := by
  obtain ⟨state, panics⟩ := job
  cases state with
  | running left => exact .goesOn rfl (Nat.zero_le left)
  | _ => exact .stays rfl

/-- A turn takes no time. -/
theorem course_settle (job : Job) : job.Course 0 job.settle := by
  unfold settle
  split
  · rename_i ends
    obtain ⟨state, panics⟩ := job
    cases state with
    | running left => exact .ends rfl (Nat.le_of_lt_succ (of_decide_eq_true ends))
    | stopping => exact .drops rfl
    | _ => contradiction
  · exact .refl job

theorem isRunning_of_running (running : job.state = .running left) : job.isRunning := by
  rw [isRunning, left?, running]
  rfl

theorem ended_of_running (running : job.state = .running left) (rest : Nat) :
    ({ job with state := .running rest } : Job).ended = job.ended := by
  rw [ended, ended, running]

theorem Course.of_ended (course : job.ended.Course millis after) : after = job.ended := by
  have done := isPending_ended job
  cases course with
  | ends running | goesOn running => rw [isPending, isRunning_of_running running] at done; contradiction
  | stays => rfl
  | drops => exact ended_ended job

theorem Course.trans (first : job.Course elapsed between) (next : between.Course later after) :
    job.Course (elapsed + later) after := by
  cases first with
  | ends running due =>
      rw [next.of_ended]
      exact .ends running (Nat.le_add_right_of_le due)
  | @goesOn left running early =>
      cases next with
      | ends goes due =>
          cases goes
          rw [ended_of_running running]
          exact .ends running (by omega)
      | goesOn goes rest =>
          cases goes
          rw [Nat.sub_sub]
          exact .goesOn running (by omega)
      | stays still => contradiction
      | drops stopping => contradiction
  | stays still =>
      cases next with
      | ends running | goesOn running => rw [isRunning_of_running running] at still; contradiction
      | stays => exact .stays still
      | drops stopping => exact .drops stopping
  | drops stopping =>
      rw [next.of_ended]
      exact .drops stopping

/-- What still runs has run from the start. -/
theorem Course.running (course : job.Course elapsed after) (running : after.state = .running left) :
    job.state = .running (elapsed + left) := by
  cases course with
  | ends | drops =>
      have still := isRunning_ended job
      rw [isRunning_of_running running] at still
      contradiction
  | goesOn goes early =>
      cases running
      rw [goes, Nat.add_sub_of_le early]
  | stays still =>
      rw [isRunning_of_running running] at still
      contradiction

/-- What runs is due or runs on. -/
theorem Course.goes (course : job.Course elapsed after) (running : job.state = .running left) :
    left ≤ elapsed ∨ after.state = .running (left - elapsed) := by
  cases course with
  | ends goes due =>
      cases running.symm.trans goes
      exact .inl due
  | goesOn goes =>
      cases running.symm.trans goes
      exact .inr rfl
  | stays still =>
      rw [isRunning_of_running running] at still
      contradiction
  | drops stopping => cases running.symm.trans stopping

theorem Course.isPending_settle (course : job.Course millis after)
    (apart : job.state ≠ .running millis) :
    after.settle.isPending = job.left?.any (millis < ·) := by
  rw [Job.isPending_settle]
  cases course with
  | @ends left running due =>
      have early : ¬ millis < left := Nat.not_lt.mpr due
      simp [isPending_ended, left?, running, early]
  | @goesOn left running early =>
      have differs : left ≠ millis := fun same => apart (same ▸ running)
      have late : millis < left := by omega
      have more : ¬ left - millis < 1 := by omega
      simp [isPending, isRunning, left?, endsBefore, running, late, more]
  | stays still =>
      obtain ⟨state, panics⟩ := job
      cases state <;> first | rfl | contradiction
  | drops stopping => simp [isPending_ended, left?, stopping]

end Job

/-- The greatest of some numbers is the least that is no less than any. -/
theorem foldl_max_le_iff {numbers : List Nat} {first bound : Nat} :
    numbers.foldl max first ≤ bound ↔ first ≤ bound ∧ ∀ n ∈ numbers, n ≤ bound := by
  induction numbers generalizing first with
  | nil => simp
  | cons n numbers ih =>
      rw [List.foldl_cons, ih, List.forall_mem_cons, Nat.max_le, and_assoc]

namespace Pool

variable {p q r : Pool} {millis elapsed later deadline moment : Nat}

/-- Whether no job ends at the very moment of a deadline. -/
def Apart (p : Pool) (millis : Nat) : Prop := ∀ job ∈ p.jobs, job.state ≠ .running millis

/-- Whether every job that runs ends before a time is over. -/
def InTime (p : Pool) (millis : Nat) : Prop :=
  ∀ job ∈ p.jobs, ∀ left, job.state = .running left → left < millis

/-- Whether the jobs of one pool become those of another in some time. -/
def Courses (millis : Nat) (p q : Pool) : Prop :=
  ∃ change : Job → Job, (∀ job : Job, job.Course millis (change job)) ∧ q.jobs = p.jobs.map change

theorem longest_le_iff : p.longest ≤ millis ↔
    ∀ job ∈ p.jobs, ∀ left, job.state = .running left → left ≤ millis := by
  rw [longest, foldl_max_le_iff]
  simp only [Nat.zero_le, true_and, List.mem_filterMap, forall_exists_index, and_imp]
  constructor
  · intro bound job member left running
    refine bound left job member ?_
    rw [Job.left?, running]
  · intro bound left job member runs
    obtain ⟨state, panics⟩ := job
    cases state <;> cases runs
    exact bound _ member _ rfl

theorem inTime_zero_iff : p.InTime 0 ↔ ∀ job ∈ p.jobs, job.isRunning = false := by
  simp [InTime, Job.isRunning_eq_false]

theorem courses_pass (millis : Nat) (p : Pool) : Courses millis p (p.pass millis) :=
  ⟨Job.pass millis, Job.course_pass millis, rfl⟩

theorem courses_settle (p : Pool) : Courses 0 p p.settle := ⟨Job.settle, Job.course_settle, rfl⟩

theorem Courses.refl (p : Pool) : Courses 0 p p := ⟨id, .refl, (List.map_id _).symm⟩

theorem courses_ready (p : Pool) : Courses 0 p p.ready := by
  unfold ready
  split
  · exact courses_settle p
  · exact .refl p

theorem Courses.trans (first : Courses elapsed p q) (next : Courses later q r) :
    Courses (elapsed + later) p r := by
  obtain ⟨change, each, jobs⟩ := first
  obtain ⟨change', each', jobs'⟩ := next
  refine ⟨change' ∘ change, fun job => (each job).trans (each' _), ?_⟩
  rw [jobs', jobs, List.map_map]

/-- Jobs that run on have run before. -/
theorem Courses.running {after : Job} {left : Nat} (courses : Courses elapsed p q)
    (member : after ∈ q.jobs) (running : after.state = .running left) :
    ∃ job ∈ p.jobs, job.state = .running (elapsed + left) := by
  obtain ⟨change, each, jobs⟩ := courses
  rw [jobs] at member
  obtain ⟨job, known, rfl⟩ := List.mem_map.mp member
  exact ⟨job, known, (each job).running running⟩

theorem Courses.goes {job : Job} {left : Nat} (courses : Courses elapsed p q)
    (member : job ∈ p.jobs) (running : job.state = .running left) :
    left ≤ elapsed ∨ ∃ after ∈ q.jobs, after.state = .running (left - elapsed) := by
  obtain ⟨change, each, jobs⟩ := courses
  rw [jobs]
  refine ((each job).goes running).imp id fun goes => ?_
  exact ⟨change job, List.mem_map_of_mem member, goes⟩

theorem Courses.apart (courses : Courses elapsed p q) (apart : p.Apart deadline)
    (le : elapsed ≤ deadline) : q.Apart (deadline - elapsed) := by
  intro after member running
  obtain ⟨job, known, goes⟩ := courses.running member running
  rw [Nat.add_sub_of_le le] at goes
  exact apart job known goes

theorem Courses.inTime_iff (courses : Courses elapsed p q) (apart : p.Apart deadline)
    (le : elapsed ≤ deadline) : q.InTime (deadline - elapsed) ↔ p.InTime deadline := by
  constructor
  · intro inTime job member left running
    rcases courses.goes member running with due | ⟨after, known, goes⟩
    · have differs : left ≠ deadline := fun same => apart job member (same ▸ running)
      omega
    · have sooner := inTime after known _ goes
      omega
  · intro inTime after member left running
    obtain ⟨job, known, goes⟩ := courses.running member running
    have sooner := inTime job known _ goes
    omega

/-- The longest of the jobs is at its end when all that is left of it has passed. -/
theorem Courses.add_longest_le_iff (courses : Courses elapsed p q) :
    elapsed + q.longest ≤ moment ↔ elapsed ≤ moment ∧ p.longest ≤ moment := by
  by_cases le : elapsed ≤ moment
  · have rest : elapsed + q.longest ≤ moment ↔ q.longest ≤ moment - elapsed := by omega
    rw [rest, and_iff_right le, longest_le_iff, longest_le_iff]
    constructor
    · intro bound job member left running
      rcases courses.goes member running with due | ⟨after, known, goes⟩
      · exact Nat.le_trans due le
      · have sooner := bound after known _ goes
        omega
    · intro bound after member left running
      obtain ⟨job, known, goes⟩ := courses.running member running
      have sooner := bound job known _ goes
      omega
  · omega

/-- After a turn, what is pending is what would have run on. -/
theorem Courses.pending_settle (courses : Courses millis p q) (accounted : q.Accounted)
    (apart : p.Apart millis) : q.settle.pending = p.jobs.countP (·.left?.any (millis < ·)) := by
  obtain ⟨change, each, jobs⟩ := courses
  rw [(follows_settle q).accounted accounted, settle, jobs, List.map_map, List.countP_map]
  refine List.countP_congr fun job member => ?_
  rw [Function.comp_apply, Function.comp_apply, (each job).isPending_settle (apart job member)]

end Pool

end Switchboard
