import Switchboard.Proofs.Pool.Drain
import Switchboard.Shutdown

/-!
Shutting down in time.

The tasks are joined first and the jobs are drained with what is left of the time.  The outcome depends
only on whether each of them ends before the deadline, unless there is no time at all: then a caller
that has to pause to join or to collect what ended long ago gives up.  What becomes of jobs that are
late depends on the tasks: a drain that has begun stops them, one that has not leaves them alone.
-/

namespace Switchboard

namespace Task

variable {task : Task} {cancelled : Bool} {waited moment : Nat} {holds : Nat → Prop}

/-- For how long a task has run at a moment after a call that cancels the token and comes so late. -/
def ran (cancelled : Bool) (waited moment : Nat) (task : Task) : Nat :=
  if task.waits cancelled then moment else waited + moment

@[simp] theorem waits_cancelled (task : Task) : task.waits true = false := by simp [waits]

@[simp] theorem ran_cancelled (waited moment : Nat) (task : Task) :
    task.ran true waited moment = waited + moment := by
  simp [ran]

theorem forall_left_pass_iff : (∀ rest ∈ (task.pass cancelled waited).left, holds rest) ↔
    ∀ left ∈ task.left,
      if task.waits cancelled then holds left else waited ≤ left → holds (left - waited) := by
  unfold pass
  by_cases waits : task.waits cancelled
  · simp only [waits, if_true]
  · obtain ⟨watches, left, panics⟩ := task
    cases left with
    | none => simp [waits]
    | some left =>
        by_cases before : left < waited
        · have late : ¬ waited ≤ left := Nat.not_le.mpr before
          simp [waits, before, late]
        · simp [waits, before, Nat.le_of_not_lt before]

theorem forall_left_settle_iff : (∀ rest ∈ (task.settle true).left, holds rest) ↔
    ∀ left ∈ task.left, 0 < left → holds left := by
  simp [settle, Option.filter_eq_some_iff]

end Task

namespace Shutdown

variable {s x : Shutdown} {p q : Pool} {waited timeout moment : Nat} {holds : Nat → Prop}

/-- Whether every task ends before a moment after a call that comes so late. -/
def InTime (s : Shutdown) (waited moment : Nat) : Prop :=
  ∀ task ∈ s.tasks, ∀ left ∈ task.left, left < task.ran s.cancelled waited moment

/-- Whether every task is due by a moment after a call that comes so late. -/
def DueBy (s : Shutdown) (waited moment : Nat) : Prop :=
  ∀ task ∈ s.tasks, ∀ left ∈ task.left, left ≤ task.ran s.cancelled waited moment

/-- Whether no task ends at the very moment after a call that comes so late. -/
def Apart (s : Shutdown) (waited moment : Nat) : Prop :=
  ∀ task ∈ s.tasks, ∀ left ∈ task.left, left ≠ task.ran s.cancelled waited moment

/-- Whether what is left of every task that has not ended is as described. -/
def EachLeft (holds : Nat → Prop) (s : Shutdown) : Prop :=
  ∀ task ∈ s.tasks, ∀ left ∈ task.left, holds left

/-- A call finds the tasks that wait for the token as they were, and the others after that time. -/
theorem eachLeft_pass_iff {law : Nat → Nat → Prop} (waits : ∀ left, holds left ↔ law left moment)
    (runs : ∀ left, (waited ≤ left → holds (left - waited)) ↔ law left (waited + moment)) :
    (s.pass waited).EachLeft holds ↔
      ∀ task ∈ s.tasks, ∀ left ∈ task.left, law left (task.ran s.cancelled waited moment) := by
  rw [EachLeft, pass, List.forall_mem_map]
  refine forall₂_congr fun task _ => ?_
  rw [Task.forall_left_pass_iff]
  refine forall₂_congr fun left _ => ?_
  unfold Task.ran
  split
  · exact waits left
  · exact runs left

theorem inTime_pass_iff : (s.pass waited).EachLeft (· < moment) ↔ s.InTime waited moment :=
  eachLeft_pass_iff (fun _ => .rfl) fun left => by omega

theorem dueBy_pass_iff : (s.pass waited).EachLeft (· ≤ moment) ↔ s.DueBy waited moment :=
  eachLeft_pass_iff (fun _ => .rfl) fun left => by omega

theorem apart_pass_iff : (s.pass waited).EachLeft (· ≠ moment) ↔ s.Apart waited moment :=
  eachLeft_pass_iff (fun _ => .rfl) fun left => by omega

theorem eachLeft_settle_iff (cancelled : x.cancelled = true) :
    x.settle.EachLeft holds ↔ x.EachLeft fun left => 0 < left → holds left := by
  rw [EachLeft, settle, cancelled, List.forall_mem_map]
  exact forall₂_congr fun task _ => Task.forall_left_settle_iff

theorem tasksTime_le_iff : x.tasksTime ≤ moment ↔ x.EachLeft (· ≤ moment) := by
  rw [tasksTime, foldl_max_le_iff]
  simp only [Nat.zero_le, true_and, List.mem_filterMap, forall_exists_index, and_imp]
  exact ⟨fun all task member left here => all left task member here,
    fun all left task member here => all task member left here⟩

theorem allEnded_iff : x.allEnded ↔ x.EachLeft fun _ => False := by
  simp [allEnded, EachLeft, Option.eq_none_iff_forall_ne_some]

theorem clearsBefore_iff (cancelled : x.cancelled = true) :
    x.clearsBefore timeout ↔ x.EachLeft (· < timeout) := by
  rw [clearsBefore, allEnded_iff, EachLeft, pass, cancelled, List.forall_mem_map]
  refine forall₂_congr fun task _ => ?_
  rw [Task.forall_left_pass_iff]
  simp

/-- Whether the tasks are joined in time. -/
def Joins (x : Shutdown) (timeout steps : Nat) : Prop :=
  x.EachLeft (· < timeout) ∧ (timeout = 0 → x.tasks.length ≤ steps)

theorem Joins.tasksTime_le (joins : x.Joins timeout p.steps) : x.tasksTime ≤ timeout :=
  tasksTime_le_iff.mpr fun task member left here => Nat.le_of_lt (joins.1 task member left here)

/-- If there was time, some is left when the tasks have been joined. -/
theorem Joins.tasksTime_lt (joins : x.Joins timeout p.steps) (time : 0 < timeout) :
    x.tasksTime < timeout := by
  have before : x.tasksTime ≤ timeout - 1 := tasksTime_le_iff.mpr fun task member left here => by
    have sooner := joins.1 task member left here
    omega
  omega

/-- If there was none, all tasks had ended and the caller had the steps to join them. -/
theorem Joins.join_eq (joins : x.Joins 0 p.steps) : x.join p = p.spend x.tasks.length := by
  have ended : x.allEnded := allEnded_iff.mpr fun task member left here =>
    Nat.not_lt_zero left (joins.1 task member left here)
  have atOnce : x.tasksTime = 0 := Nat.le_zero.mp joins.tasksTime_le
  simp [join, atOnce, ended, joins.2]

theorem courses_join (x : Shutdown) (p : Pool) : Pool.Courses x.tasksTime p (x.join p) := by
  unfold join
  split
  · exact ⟨Job.pass x.tasksTime, Job.course_pass x.tasksTime, rfl⟩
  · rename_i time
    rw [Nat.eq_zero_of_not_pos time]
    split
    · exact ⟨id, Job.Course.refl, (List.map_id _).symm⟩
    · exact Pool.courses_settle p

theorem follows_join (x : Shutdown) (p : Pool) : p.Follows (x.join p) := by
  unfold join
  split
  · exact (Pool.follows_pass _ p).trans (Pool.follows_of_same rfl rfl)
  · split
    · exact Pool.follows_of_same rfl rfl
    · exact Pool.follows_settle p

theorem waitWithin_of_joins (cancelled : x.cancelled = true) (joins : x.Joins timeout p.steps) :
    let rest := x.join p
    let waited := rest.waitWithin (timeout - x.tasksTime)
    let elapsed := if waited.1 then x.tasksTime + rest.longest else timeout
    x.waitWithin timeout p = ⟨waited.1, elapsed, (x.pass elapsed).settle, waited.2⟩ := by
  have clears : x.clearsBefore timeout := (clearsBefore_iff cancelled).mpr joins.1
  have sees : 0 < timeout ∨ x.tasks.length ≤ p.steps := by
    rcases Nat.eq_zero_or_pos timeout with none | time
    · exact .inr (joins.2 none)
    · exact .inl time
  simp [waitWithin, clears, sees]

theorem waitWithin_of_not_joins (cancelled : x.cancelled = true)
    (late : ¬ x.Joins timeout p.steps) :
    x.waitWithin timeout p = ⟨false, timeout, (x.pass timeout).settle, p.pass timeout⟩ := by
  unfold waitWithin
  split
  · rename_i joined
    rw [Bool.and_eq_true, Bool.or_eq_true, decide_eq_true_eq, decide_eq_true_eq] at joined
    refine absurd ⟨(clearsBefore_iff cancelled).mp joined.1, fun none => ?_⟩ late
    exact joined.2.resolve_left fun time => Nat.ne_of_gt time none
  · rfl

theorem clean_waitWithin_iff (cancelled : x.cancelled = true) (apart : p.Apart timeout) :
    (x.waitWithin timeout p).clean = true ↔
      x.EachLeft (· < timeout) ∧ p.InTime timeout ∧
        (timeout = 0 → x.tasks.length + p.uncollected ≤ p.steps) := by
  by_cases joins : x.Joins timeout p.steps
  · rw [waitWithin_of_joins cancelled joins, Pool.waitWithin_iff,
      (courses_join x p).inTime_iff apart joins.tasksTime_le, and_iff_right joins.1]
    refine and_congr_right fun _ => ?_
    rcases Nat.eq_zero_or_pos timeout with rfl | time
    · have enough := joins.2 rfl
      rw [joins.join_eq, Nat.zero_sub]
      simp only [forall_const, Pool.spend]
      omega
    · have sooner := joins.tasksTime_lt time
      omega
  · rw [waitWithin_of_not_joins cancelled joins]
    refine iff_of_false Bool.false_ne_true fun all => joins ⟨all.1, fun none => ?_⟩
    have enough := all.2.2 none
    omega

theorem joins_of_clean (cancelled : x.cancelled = true)
    (clean : (x.waitWithin timeout p).clean = true) : x.Joins timeout p.steps := by
  by_contra late
  rw [waitWithin_of_not_joins cancelled late] at clean
  contradiction

theorem elapsed_waitWithin_le_iff (cancelled : x.cancelled = true)
    (clean : (x.waitWithin timeout p).clean = true) :
    (x.waitWithin timeout p).elapsed ≤ moment ↔ x.EachLeft (· ≤ moment) ∧ p.longest ≤ moment := by
  have joins := joins_of_clean cancelled clean
  rw [waitWithin_of_joins cancelled joins] at clean ⊢
  simp only at clean
  rw [clean, if_pos rfl, (courses_join x p).add_longest_le_iff, tasksTime_le_iff]

theorem elapsed_of_missed (cancelled : x.cancelled = true)
    (missed : (x.waitWithin timeout p).clean = false) : (x.waitWithin timeout p).elapsed = timeout := by
  by_cases joins : x.Joins timeout p.steps
  · rw [waitWithin_of_joins cancelled joins] at missed ⊢
    simp only at missed
    rw [missed]
    rfl
  · rw [waitWithin_of_not_joins cancelled joins]

theorem awaits_of_clean (cancelled : x.cancelled = true)
    (clean : (x.waitWithin timeout p).clean = true) :
    Pool.Awaits none p (x.waitWithin timeout p).left := by
  have joins := joins_of_clean cancelled clean
  rw [waitWithin_of_joins cancelled joins] at clean ⊢
  exact Pool.Awaits.of_courses (Pool.awaits_of_waited clean) (courses_join x p) nofun nofun

/-- The jobs that a drain had begun to wait for are stopped at the deadline. -/
theorem awaits_of_missed (cancelled : x.cancelled = true) (apart : p.Apart timeout)
    (joins : x.Joins timeout p.steps) (missed : (x.waitWithin timeout p).clean = false) :
    Pool.Awaits (some timeout) p (x.waitWithin timeout p).left := by
  have le := joins.tasksTime_le
  have courses := courses_join x p
  rw [waitWithin_of_joins cancelled joins] at missed ⊢
  have awaits : Pool.Awaits ((some timeout).map (· - x.tasksTime)) (x.join p)
      ((x.join p).waitWithin (timeout - x.tasksTime)).2 :=
    Pool.awaits_of_gaveUp (courses.apart apart le) missed
  refine awaits.of_courses courses ?_ ?_ <;> intro millis given <;> cases given
  · exact le
  · exact apart

/-- The jobs that no drain has waited for run on. -/
theorem courses_of_not_joins (cancelled : x.cancelled = true) (late : ¬ x.Joins timeout p.steps) :
    Pool.Courses timeout p (x.waitWithin timeout p).left := by
  rw [waitWithin_of_not_joins cancelled late]
  exact Pool.courses_pass timeout p

theorem follows_waitWithin (cancelled : x.cancelled = true) :
    p.Follows (x.waitWithin timeout p).left := by
  by_cases joins : x.Joins timeout p.steps
  · rw [waitWithin_of_joins cancelled joins]
    exact (follows_join x p).trans (Pool.follows_waitWithin _ _)
  · rw [waitWithin_of_not_joins cancelled joins]
    exact Pool.follows_pass timeout p

theorem after_waitWithin (x : Shutdown) (timeout : Nat) (p : Pool) :
    (x.waitWithin timeout p).after = (x.pass (x.waitWithin timeout p).elapsed).settle := by
  unfold waitWithin
  split <;> rfl

/-- Every task has ended by a time at which it is due. -/
theorem allEnded_settle_pass (cancelled : x.cancelled = true) (due : x.EachLeft (· ≤ moment)) :
    (x.pass moment).settle.allEnded := by
  have kept : (x.pass moment).cancelled = true := cancelled
  rw [allEnded_iff, eachLeft_settle_iff kept, EachLeft, pass, cancelled, List.forall_mem_map]
  intro task member
  rw [Task.forall_left_pass_iff]
  intro left here
  have le := due task member left here
  rw [if_neg (by simp)]
  omega

/-- Whether tasks and a pool are those of a call when it can see a deadline. -/
structure Begins (s : Shutdown) (p : Pool) (x : Shutdown) (q : Pool) : Prop where
  cancelled : x.cancelled = true
  inTime : ∀ moment, s.EachLeft (· ≠ moment) → (x.EachLeft (· < moment) ↔ s.EachLeft (· < moment))
  dueBy : ∀ moment, x.EachLeft (· ≤ moment) ↔ s.EachLeft (· ≤ moment)
  follows : p.Follows q
  courses : Pool.Courses 0 p q
  joins : x.tasks.length ≤ q.steps ↔ s.tasks.length ≤ p.reach
  collects : p.InTime 0 →
    (x.tasks.length + q.uncollected ≤ q.steps ↔ s.tasks.length + p.uncollected ≤ p.reach)

theorem begins_of_pauses (pauses : s.pauses p) : s.Begins p s.cancel.settle p.settle := by
  have spent : p.steps = 0 := of_decide_eq_true (Bool.and_eq_true_iff.mp pauses).1
  have turned : p.settle.steps = p.reach := by simp [Pool.settle, Pool.reach, spent]
  have same : s.cancel.settle.tasks.length = s.tasks.length := by simp [settle, cancel]
  refine ⟨rfl, ?_, ?_, Pool.follows_settle p, Pool.courses_settle p, ?_, ?_⟩
  · intro moment apart
    rw [eachLeft_settle_iff rfl]
    refine forall₂_congr fun task member => forall₂_congr fun left here => ?_
    have differs := apart task member left here
    omega
  · intro moment
    rw [eachLeft_settle_iff rfl]
    refine forall₂_congr fun task _ => forall₂_congr fun left _ => ?_
    omega
  · rw [same, turned]
  · intro still
    rw [same, turned, Pool.uncollected_settle (Pool.inTime_zero_iff.mp still)]

theorem begins_of_not_pauses (goes : s.pauses p = false) : s.Begins p s.cancel p := by
  have idle : p.steps = 0 → s.tasks.length = 0 ∧ p.uncollected = 0 := by
    intro spent
    simp only [pauses, spent, decide_true, Bool.true_and, Bool.not_eq_false', Bool.and_eq_true,
      List.isEmpty_iff] at goes
    have collected := (Pool.clearsAtOnce_iff.mp goes.2).2
    exact ⟨List.length_eq_zero_iff.mpr goes.1, by omega⟩
  have reached : p.steps ≠ 0 → p.reach = p.steps := fun more => if_neg more
  have same : s.cancel.tasks.length = s.tasks.length := rfl
  refine ⟨rfl, fun _ _ => .rfl, fun _ => .rfl, Pool.follows_of_same rfl rfl, .refl p, ?_, ?_⟩
  · omega
  · omega

theorem exists_begins (s : Shutdown) (p : Pool) (timeout : Nat) :
    ∃ x q, s.run p timeout = x.waitWithin timeout q ∧ s.Begins p x q := by
  unfold run
  split
  · rename_i pauses
    exact ⟨_, _, rfl, begins_of_pauses pauses⟩
  · rename_i goes
    exact ⟨_, _, rfl, begins_of_not_pauses (Bool.eq_false_iff.mpr goes)⟩

theorem clean_run_iff (jobsApart : p.Apart timeout) (tasksApart : s.EachLeft (· ≠ timeout)) :
    (s.run p timeout).clean = true ↔ s.EachLeft (· < timeout) ∧ p.InTime timeout ∧
      (timeout = 0 → s.tasks.length + p.uncollected ≤ p.reach) := by
  obtain ⟨x, q, same, begins⟩ := exists_begins s p timeout
  have spread : q.Apart timeout := begins.courses.apart jobsApart (Nat.zero_le timeout)
  have jobs : q.InTime timeout ↔ p.InTime timeout :=
    begins.courses.inTime_iff jobsApart (Nat.zero_le timeout)
  rw [same, clean_waitWithin_iff begins.cancelled spread, begins.inTime timeout tasksApart, jobs]
  refine and_congr_right fun _ => and_congr_right fun inTime => forall_congr' fun none => ?_
  exact begins.collects (none ▸ inTime)

theorem cancelled_run : (s.run p timeout).cancelled = true := by
  obtain ⟨x, q, same, begins⟩ := exists_begins s p timeout
  rw [same, ShutdownReport.cancelled, after_waitWithin]
  exact begins.cancelled

theorem follows_run : p.Follows (s.run p timeout).left := by
  obtain ⟨x, q, same, begins⟩ := exists_begins s p timeout
  rw [same]
  exact begins.follows.trans (follows_waitWithin begins.cancelled)

/-- Where everything ends in time, the report comes when the last has ended. -/
theorem elapsed_run_le_iff (clean : (s.run p timeout).clean = true) :
    (s.run p timeout).elapsed ≤ moment ↔ s.EachLeft (· ≤ moment) ∧ p.longest ≤ moment := by
  obtain ⟨x, q, same, begins⟩ := exists_begins s p timeout
  have longest : 0 + q.longest ≤ moment ↔ 0 ≤ moment ∧ p.longest ≤ moment :=
    begins.courses.add_longest_le_iff
  rw [same] at clean ⊢
  rw [elapsed_waitWithin_le_iff begins.cancelled clean, begins.dueBy]
  exact and_congr_right fun _ => by omega

theorem allEnded_run (clean : (s.run p timeout).clean = true) :
    (s.run p timeout).after.allEnded := by
  have due := ((elapsed_run_le_iff clean).mp (Nat.le_refl _)).1
  obtain ⟨x, q, same, begins⟩ := exists_begins s p timeout
  rw [same] at due ⊢
  rw [after_waitWithin]
  exact allEnded_settle_pass begins.cancelled ((begins.dueBy _).mpr due)

theorem awaits_run_of_clean (clean : (s.run p timeout).clean = true) :
    Pool.Awaits none p (s.run p timeout).left := by
  obtain ⟨x, q, same, begins⟩ := exists_begins s p timeout
  rw [same] at clean ⊢
  exact (awaits_of_clean begins.cancelled clean).of_turn begins.courses nofun

theorem elapsed_run_of_missed (missed : (s.run p timeout).clean = false) :
    (s.run p timeout).elapsed = timeout := by
  obtain ⟨x, q, same, begins⟩ := exists_begins s p timeout
  rw [same] at missed ⊢
  exact elapsed_of_missed begins.cancelled missed

theorem Begins.joins_iff {x : Shutdown} {q : Pool} (begins : s.Begins p x q)
    (tasksApart : s.EachLeft (· ≠ timeout)) :
    x.Joins timeout q.steps ↔ s.Joins timeout p.reach := by
  rw [Joins, Joins, begins.inTime timeout tasksApart, begins.joins]

theorem awaits_run_of_missed (jobsApart : p.Apart timeout) (tasksApart : s.EachLeft (· ≠ timeout))
    (joins : s.Joins timeout p.reach) (missed : (s.run p timeout).clean = false) :
    Pool.Awaits (some timeout) p (s.run p timeout).left := by
  obtain ⟨x, q, same, begins⟩ := exists_begins s p timeout
  have spread : q.Apart timeout := begins.courses.apart jobsApart (Nat.zero_le timeout)
  rw [same] at missed ⊢
  have joined : x.Joins timeout q.steps := (begins.joins_iff tasksApart).mpr joins
  exact (awaits_of_missed begins.cancelled spread joined missed).of_turn begins.courses fun _ given =>
    Option.mem_some.mp given ▸ jobsApart

theorem courses_run_of_not_joins (tasksApart : s.EachLeft (· ≠ timeout))
    (late : ¬ s.Joins timeout p.reach) : Pool.Courses timeout p (s.run p timeout).left := by
  obtain ⟨x, q, same, begins⟩ := exists_begins s p timeout
  have courses := begins.courses.trans
    (courses_of_not_joins begins.cancelled (late ∘ (begins.joins_iff tasksApart).mp))
  rw [Nat.zero_add] at courses
  rw [same]
  exact courses

/-- A shutdown, whenever it comes, of any tasks and any pool, with no end at the very deadline.  It
succeeds if every task and job ends before the deadline, unless there is no time and the caller has to
pause to join or to collect what ended long ago.  Then it reports when the last of them has ended, and
no job is pending that was not told to stop before.  Otherwise it reports at the deadline.  Jobs that are
late are stopped if the tasks were joined in time, and run on if they were not. -/
theorem shutdown_meets_its_deadline (s : Shutdown) (waited : Nat) (moves : List Pool.Move)
    (timeout : Nat) (jobsApart : (Pool.run {} moves).Apart timeout)
    (tasksApart : s.Apart waited timeout) :
    let p := Pool.run {} moves
    let report := (s.pass waited).run p timeout
    let joined := s.InTime waited timeout ∧ (timeout = 0 → s.tasks.length ≤ p.reach)
    report.cancelled = true ∧
    (report.clean = true ↔ s.InTime waited timeout ∧ p.InTime timeout ∧
      (timeout = 0 → s.tasks.length + p.uncollected ≤ p.reach)) ∧
    (report.clean = true →
      (∀ moment, report.elapsed ≤ moment ↔ s.DueBy waited moment ∧
        ∀ job ∈ p.jobs, ∀ left, job.state = .running left → left ≤ moment) ∧
      report.after.allEnded ∧ Pool.Awaits none p report.left ∧
      ((∀ job ∈ p.jobs, job.state ≠ .stopping) → report.left.pending = 0) ∧
      report.pool.pending = 0) ∧
    (report.clean = false → report.elapsed = timeout ∧
      (joined → Pool.Awaits (some timeout) p report.left ∧ report.pool.pending = 0) ∧
      (¬ joined → Pool.Courses timeout p report.left ∧
        report.pool.pending = p.jobs.countP (·.left?.any (timeout < ·)))) := by
  intro p report joined
  have tasks : (s.pass waited).tasks.length = s.tasks.length := List.length_map _
  have spread : (s.pass waited).EachLeft (· ≠ timeout) := apart_pass_iff.mpr tasksApart
  have joins : (s.pass waited).Joins timeout p.reach ↔ joined := by
    rw [Joins, inTime_pass_iff, tasks]
  have accounted : report.left.Accounted := follows_run.accounted (Pool.accounted_run moves)
  refine ⟨cancelled_run, ?_, fun clean => ?_, fun missed => ?_⟩
  · rw [clean_run_iff jobsApart spread, tasks, inTime_pass_iff]
  · have awaits : Pool.Awaits none p report.left := awaits_run_of_clean clean
    refine ⟨fun moment => ?_, allEnded_run clean, awaits, awaits.pending_eq_zero accounted,
      accounted.pending_settle_of_still awaits.still⟩
    rw [elapsed_run_le_iff clean, Pool.longest_le_iff, dueBy_pass_iff]
  · refine ⟨elapsed_run_of_missed missed, fun inTime => ?_, fun late => ?_⟩
    · have awaits := awaits_run_of_missed jobsApart spread (joins.mpr inTime) missed
      exact ⟨awaits, accounted.pending_settle_of_still awaits.still⟩
    · have courses := courses_run_of_not_joins spread (late ∘ joins.mp)
      exact ⟨courses, courses.pending_settle accounted jobsApart⟩

/-- A task that waits for the token, one that panics and one that ended before are joined in time, and one
job of two is late. -/
theorem late_job_is_stopped :
    let s : Shutdown :=
      { tasks := [⟨true, some 10, false⟩, ⟨false, some 25, true⟩, ⟨false, none, false⟩] }
    let p := Pool.run {} [.spawn 30 true, .spawn 60 false, .sleep 5]
    let report := (s.pass 5).run p 30
    p.Apart 30 ∧ s.Apart 5 30 ∧ report.clean = false ∧ report.elapsed = 30 ∧
      report.pool.jobs.map Job.state = [.panicked, .aborted] ∧ report.pool.pending = 0 := by
  intro s p report
  have jobsApart : p.Apart 30 := by unfold Pool.Apart; decide
  have tasksApart : s.Apart 5 30 := by unfold Apart; decide
  obtain ⟨-, clean, -, outcome⟩ := shutdown_meets_its_deadline s 5
    [.spawn 30 true, .spawn 60 false, .sleep 5] 30 jobsApart tasksApart
  have late : ¬ p.InTime 30 := by
    rw [← Pool.clearsBefore_iff]
    decide
  have missed : report.clean = false := Bool.eq_false_iff.mpr fun all => late (clean.mp all).2.1
  have inTime : s.InTime 5 30 := by unfold InTime; decide
  obtain ⟨elapsed, stops, -⟩ := outcome missed
  exact ⟨jobsApart, tasksApart, missed, elapsed, by decide, (stops ⟨inTime, nofun⟩).2⟩

/-- The ends of tasks and jobs are not all that counts.  A caller without time gives up on jobs that ended
long ago, and on tasks that did, in which case it leaves alone a job that it should stop; and it reports
success although a job that an earlier drain has stopped is still counted. -/
theorem shutdowns_depend_on_turns :
    (¬ ∀ (s : Shutdown) (waited : Nat) (moves : List Pool.Move) (timeout : Nat),
      let p := Pool.run {} moves
      p.Apart timeout → s.Apart waited timeout →
        (((s.pass waited).run p timeout).clean = true ↔ s.InTime waited timeout ∧ p.InTime timeout)) ∧
    (¬ ∀ (s : Shutdown) (waited : Nat) (moves : List Pool.Move) (timeout : Nat),
      let p := Pool.run {} moves
      p.Apart timeout → s.Apart waited timeout → s.InTime waited timeout →
        ((s.pass waited).run p timeout).clean = false →
          ∀ job ∈ ((s.pass waited).run p timeout).left.jobs, job.isRunning = false) ∧
    ¬ ∀ (s : Shutdown) (waited : Nat) (moves : List Pool.Move) (timeout : Nat),
      let p := Pool.run {} moves
      p.Apart timeout → s.Apart waited timeout → ((s.pass waited).run p timeout).clean = true →
        ((s.pass waited).run p timeout).left.pending = 0 := by
  refine ⟨fun all => ?_, fun all => ?_, fun all => ?_⟩
  · have gaveUp : ((({} : Shutdown).pass 0).run (Pool.run {} Pool.backlog) 0).clean = false := by
      decide +kernel
    have done := (all {} 0 Pool.backlog 0 Pool.apart_backlog nofun).mpr ⟨nofun, Pool.inTime_backlog⟩
    exact Bool.false_ne_true (gaveUp.symm.trans done)
  · let s : Shutdown := { tasks := List.replicate 129 ⟨false, none, false⟩ }
    have ended : ∀ task ∈ s.tasks, task.left = none := fun task member =>
      congrArg Task.left (List.eq_of_mem_replicate member)
    have none : ∀ task ∈ s.tasks, ∀ left ∈ task.left, False := by
      intro task member left here
      rw [ended task member] at here
      contradiction
    have stopped := all s 0 [.spawn 10 false] 0 (by unfold Pool.Apart; decide)
      (fun task member left here => (none task member left here).elim)
      (fun task member left here => (none task member left here).elim) (by decide +kernel)
    exact absurd stopped (by decide +kernel)
  · have counted := all {} 0 [.spawn 100 false, .turn, .drainWithin 10] 5
      (by unfold Pool.Apart; decide) nofun (by decide)
    exact absurd counted (by decide)

end Shutdown

end Switchboard
