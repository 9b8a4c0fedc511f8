import Mathlib.Data.List.Forall2
import Switchboard.Proofs.Pool.Course

/-!
Waiting for the jobs of a pool.

A drain sees every job that runs to its end.  With a deadline, it succeeds if all of them end before
that, and otherwise stops exactly those that would have ended later.  Two things are not in the hands
of the jobs: a caller with no time at all may not come to collect those that ended long ago, and a job
that an earlier drain has stopped counts until it has had its turn, for which nobody waits.
-/

namespace Switchboard

namespace Job

variable {job between after : Job} {deadline : Option Nat} {millis elapsed : Nat}

/-- What becomes of a job while those that run are waited for, at most until a deadline if there is
one. -/
inductive Fate (deadline : Option Nat) (job : Job) : Job → Prop
  | ends {left : Nat} (running : job.state = .running left)
      (inTime : ∀ millis ∈ deadline, left < millis) : Fate deadline job job.ended
  | stops {left millis : Nat} (running : job.state = .running left) (given : millis ∈ deadline)
      (late : millis < left) : Fate deadline job { job with state := .stopping }
  | stays (still : job.isRunning = false) : Fate deadline job job
  | drops (stopping : job.state = .stopping) : Fate deadline job job.ended

theorem Fate.still (fate : job.Fate deadline after) : after.isRunning = false := by
  cases fate with
  | ends | drops => exact isRunning_ended job
  | stops => rfl
  | stays still => exact still

theorem Fate.stopping (fate : job.Fate none after) (stopping : after.state = .stopping) :
    job.state = .stopping := by
  obtain ⟨state, panics⟩ := job
  cases fate with
  | ends running => cases running; cases panics <;> contradiction
  | stops _ given => contradiction
  | stays => exact stopping
  | drops told => exact told

theorem Fate.of_ended (fate : job.ended.Fate deadline after) : after = job.ended := by
  have done := isPending_ended job
  cases fate with
  | ends running | stops running =>
      rw [isPending, isRunning_of_running running] at done
      contradiction
  | stays => rfl
  | drops => exact ended_ended job

/-- What is waited for after some time ends as if it had been waited for from the start. -/
theorem Fate.of_course (fate : between.Fate (deadline.map (· - elapsed)) after)
    (course : job.Course elapsed between) (ahead : ∀ millis ∈ deadline, elapsed ≤ millis)
    (apart : ∀ millis ∈ deadline, job.state ≠ .running millis) : job.Fate deadline after := by
  cases course with
  | @ends left running due =>
      rw [fate.of_ended]
      refine .ends running fun millis given => ?_
      have differs : left ≠ millis := fun same => apart millis given (same ▸ running)
      have le := ahead millis given
      omega
  | @goesOn left running early =>
      cases fate with
      | ends goes inTime =>
          cases goes
          rw [ended_of_running running]
          refine .ends running fun millis given => ?_
          have sooner := inTime _ (Option.mem_map_of_mem _ given)
          omega
      | stops goes given late =>
          cases goes
          obtain ⟨millis, stated, rfl⟩ := Option.map_eq_some_iff.mp given
          exact .stops running stated (by omega)
      | stays still => contradiction
      | drops stopping => contradiction
  | stays still =>
      cases fate with
      | ends running | stops running => rw [isRunning_of_running running] at still; contradiction
      | stays => exact .stays still
      | drops stopping => exact .drops stopping
  | drops stopping =>
      rw [fate.of_ended]
      exact .drops stopping

theorem fate_settle_pass (inTime : ∀ left, job.state = .running left → left ≤ millis) :
    job.Fate none (job.pass millis).settle := by
  obtain ⟨state, panics⟩ := job
  cases state with
  | running left =>
      have ended : ((⟨.running left, panics⟩ : Job).pass millis).settle =
          (⟨.running left, panics⟩ : Job).ended := by
        have le := inTime left rfl
        by_cases before : left < millis
        · cases panics <;> simp [pass, settle, endsBefore, ended, before]
        · have due : left - millis = 0 := by omega
          simp [pass, settle, endsBefore, ended, hurry, before, due]
      rw [ended]
      exact .ends rfl fun _ given => absurd given (Option.not_mem_none _)
  | stopping =>
      have ended : ((⟨.stopping, panics⟩ : Job).pass millis).settle =
          (⟨.stopping, panics⟩ : Job).ended := by
        by_cases time : 0 < millis <;> simp [pass, settle, endsBefore, ended, hurry, time]
      rw [ended]
      exact .drops rfl
  | _ => exact .stays rfl

theorem fate_abort_pass (time : 0 < millis) (apart : job.state ≠ .running millis) :
    job.Fate (some millis) (job.pass millis).abort := by
  obtain ⟨state, panics⟩ := job
  cases state with
  | running left =>
      have differs : left ≠ millis := fun same => apart (congrArg _ same)
      by_cases before : left < millis
      · have ended : ((⟨.running left, panics⟩ : Job).pass millis).abort =
            (⟨.running left, panics⟩ : Job).ended := by
          cases panics <;> simp [pass, endsBefore, ended, abort, isRunning, left?, before]
        rw [ended]
        exact .ends rfl fun _ given => Option.mem_some.mp given ▸ before
      · have stopped : ((⟨.running left, panics⟩ : Job).pass millis).abort =
            { (⟨.running left, panics⟩ : Job) with state := .stopping } := by
          simp [pass, endsBefore, hurry, abort, isRunning, left?, before]
        rw [stopped]
        exact .stops rfl rfl (by omega)
  | stopping =>
      have ended : ((⟨.stopping, panics⟩ : Job).pass millis).abort =
          (⟨.stopping, panics⟩ : Job).ended := by
        simp [pass, endsBefore, ended, abort, isRunning, left?, time]
      rw [ended]
      exact .drops rfl
  | _ => exact .stays rfl

theorem fate_abort (apart : job.state ≠ .running 0) : job.Fate (some 0) job.abort := by
  obtain ⟨state, panics⟩ := job
  cases state with
  | running left =>
      have time : 0 < left := Nat.pos_of_ne_zero fun none => apart (congrArg _ none)
      exact .stops rfl rfl time
  | _ => exact .stays rfl

end Job

namespace Pool

variable {p q : Pool} {millis elapsed : Nat}

/-- How many jobs the caller can collect before it has to pause. -/
def reach (p : Pool) : Nat := if p.steps = 0 then stepsPerTurn else p.steps

/-- Whether the jobs of one pool become those of another while they are waited for. -/
def Awaits (deadline : Option Nat) (p q : Pool) : Prop :=
  List.Forall₂ (Job.Fate deadline) p.jobs q.jobs

theorem awaits_of_map {deadline : Option Nat} (change : Job → Job)
    (jobs : q.jobs = p.jobs.map change) (fate : ∀ job ∈ p.jobs, job.Fate deadline (change job)) :
    Awaits deadline p q := by
  rw [Awaits, jobs, List.forall₂_map_right_iff, List.forall₂_same]
  exact fate

theorem clearsAtOnce_iff : p.clearsAtOnce ↔
    (∀ job ∈ p.jobs, job.isRunning = false) ∧ p.uncollected ≤ p.steps := by
  simp [clearsAtOnce]

theorem clearsBefore_iff : p.clearsBefore millis ↔ p.InTime millis := by
  rw [clearsBefore, List.all_eq_true, InTime]
  refine forall₂_congr fun job _ => ?_
  obtain ⟨state, panics⟩ := job
  cases state <;> simp [Job.isRunning, Job.left?, Job.endsBefore]

theorem awaits_drain (p : Pool) : Awaits none p p.drain := by
  unfold drain
  split
  · rename_i atOnce
    exact awaits_of_map id (List.map_id _).symm fun job member =>
      .stays ((clearsAtOnce_iff.mp atOnce).1 job member)
  · refine awaits_of_map (fun job => (job.pass p.longest).settle) ?_ fun job member => ?_
    · exact List.map_map
    · exact Job.fate_settle_pass (longest_le_iff.mp (Nat.le_refl _) job member)

theorem awaits_giveUp (apart : p.Apart millis) : Awaits (some millis) p (p.giveUp millis) := by
  unfold giveUp
  split
  · rename_i time
    exact awaits_of_map (fun job => (job.pass millis).abort) List.map_map
      fun job member => Job.fate_abort_pass time (apart job member)
  · rename_i none
    obtain rfl : millis = 0 := by omega
    exact awaits_of_map Job.abort rfl fun job member => Job.fate_abort (apart job member)

/-- It makes no difference to what comes of a wait whether it begins with the deadline or later. -/
theorem Awaits.of_courses {deadline : Option Nat} {between : Pool}
    (awaits : Awaits (deadline.map (· - elapsed)) between q) (courses : Courses elapsed p between)
    (ahead : ∀ millis ∈ deadline, elapsed ≤ millis) (apart : ∀ millis ∈ deadline, p.Apart millis) :
    Awaits deadline p q := by
  obtain ⟨change, each, jobs⟩ := courses
  rw [Awaits, jobs, List.forall₂_map_left_iff] at awaits
  have spread : ∀ job ∈ p.jobs, ∀ millis ∈ deadline, job.state ≠ .running millis :=
    fun job member millis given => apart millis given job member
  exact ((List.forall₂_and_left _ _).mpr ⟨spread, awaits⟩).imp fun job _ both =>
    both.2.of_course (each job) ahead both.1

/-- Nor whether there is a turn before. -/
theorem Awaits.of_turn {deadline : Option Nat} {between : Pool} (awaits : Awaits deadline between q)
    (courses : Courses 0 p between) (apart : ∀ millis ∈ deadline, p.Apart millis) :
    Awaits deadline p q := by
  have same : deadline.map (· - 0) = deadline := by cases deadline <;> rfl
  rw [← same] at awaits
  exact awaits.of_courses courses (fun millis _ => Nat.zero_le millis) apart

theorem waitWithin_iff : (p.waitWithin millis).1 = true ↔
    p.InTime millis ∧ (millis = 0 → p.uncollected ≤ p.steps) := by
  have result : (p.waitWithin millis).1 = true ↔
      p.clearsAtOnce ∨ 0 < millis ∧ p.clearsBefore millis := by
    unfold waitWithin
    split <;> simp_all
  rw [result, clearsAtOnce_iff, clearsBefore_iff]
  by_cases time : 0 < millis
  · have given : millis ≠ 0 := by omega
    simp only [time, given, true_and, false_implies, and_true, or_iff_right_iff_imp]
    rintro ⟨still, -⟩ job member left running
    exact absurd running (Job.isRunning_eq_false.mp (still job member) left)
  · obtain rfl : millis = 0 := by omega
    simp [inTime_zero_iff]

theorem awaits_of_waited (done : (p.waitWithin millis).1 = true) :
    Awaits none p (p.waitWithin millis).2 := by
  unfold waitWithin at done ⊢
  split at done
  · rename_i clears
    rw [if_pos clears]
    exact awaits_drain p
  · contradiction

theorem awaits_of_gaveUp (apart : p.Apart millis) (gaveUp : (p.waitWithin millis).1 = false) :
    Awaits (some millis) p (p.waitWithin millis).2 := by
  unfold waitWithin at gaveUp ⊢
  split at gaveUp
  · contradiction
  · rename_i holds
    rw [if_neg holds]
    exact awaits_giveUp apart

theorem uncollected_settle (still : ∀ job ∈ p.jobs, job.isRunning = false) :
    p.settle.uncollected = p.uncollected := by
  have none : p.jobs.filter (fun job => job.isRunning && job.endsBefore 1) = [] :=
    List.filter_eq_nil_iff.mpr fun job member => by rw [still job member]; simp
  simp [settle, countOut, none]

/-- A caller that could not collect all that ended without a pause could not after a turn either. -/
theorem uncollected_ready_le_iff (still : ∀ job ∈ p.jobs, job.isRunning = false) :
    p.ready.uncollected ≤ p.ready.steps ↔ p.uncollected ≤ p.reach := by
  unfold ready reach
  by_cases spent : p.steps = 0
  · by_cases none : p.uncollected = 0
    · have atOnce : p.clearsAtOnce := clearsAtOnce_iff.mpr ⟨still, by omega⟩
      simp [spent, atOnce, none]
    · have pauses : p.clearsAtOnce = false := by
        rw [Bool.eq_false_iff]
        intro atOnce
        have collected := (clearsAtOnce_iff.mp atOnce).2
        omega
      have turned : p.settle.steps = stepsPerTurn := rfl
      simp [spent, pauses, uncollected_settle still, turned]
  · simp [spent]

theorem drainWithin_iff (apart : p.Apart millis) : (p.drainWithin millis).1 = true ↔
    p.InTime millis ∧ (millis = 0 → p.uncollected ≤ p.reach) := by
  have inTime_ready : p.ready.InTime millis ↔ p.InTime millis :=
    (courses_ready p).inTime_iff apart (Nat.zero_le millis)
  rw [drainWithin, waitWithin_iff, inTime_ready]
  refine and_congr_right fun inTime => forall_congr' fun none => ?_
  subst none
  exact uncollected_ready_le_iff (inTime_zero_iff.mp inTime)

theorem awaits_of_drained (done : (p.drainWithin millis).1 = true) :
    Awaits none p (p.drainWithin millis).2 :=
  (awaits_of_waited done).of_turn (courses_ready p) nofun

theorem awaits_of_drainGaveUp (apart : p.Apart millis) (gaveUp : (p.drainWithin millis).1 = false) :
    Awaits (some millis) p (p.drainWithin millis).2 := by
  have spread : p.ready.Apart millis := (courses_ready p).apart apart (Nat.zero_le millis)
  exact (awaits_of_gaveUp spread gaveUp).of_turn (courses_ready p) fun _ given =>
    Option.mem_some.mp given ▸ apart

theorem Awaits.still {deadline : Option Nat} (awaits : Awaits deadline p q) :
    ∀ job ∈ q.jobs, job.isRunning = false := by
  intro after member
  obtain ⟨i, within, rfl⟩ := List.mem_iff_getElem.mp member
  have fate := awaits.get (awaits.length_eq ▸ within) within
  exact Job.Fate.still fate

theorem Accounted.pending_of_still (accounted : p.Accounted)
    (still : ∀ job ∈ p.jobs, job.isRunning = false) :
    p.pending = p.jobs.countP (·.state = .stopping) := by
  rw [accounted]
  refine List.countP_congr fun job member => ?_
  rw [Job.isPending, still job member, Bool.false_or]

/-- Where nothing runs, nothing is pending after a turn. -/
theorem Accounted.pending_settle_of_still (accounted : p.Accounted)
    (still : ∀ job ∈ p.jobs, job.isRunning = false) : p.settle.pending = 0 := by
  rw [(follows_settle p).accounted accounted, List.countP_eq_zero]
  intro after member
  obtain ⟨job, known, rfl⟩ := List.mem_map.mp member
  have stands := still job known
  obtain ⟨state, panics⟩ := job
  cases state <;> first | contradiction | exact Bool.false_ne_true

theorem Awaits.stopping {after : Job} (awaits : Awaits none p q) (member : after ∈ q.jobs)
    (stopping : after.state = .stopping) : ∃ job ∈ p.jobs, job.state = .stopping := by
  obtain ⟨i, within, rfl⟩ := List.mem_iff_getElem.mp member
  have before : i < p.jobs.length := awaits.length_eq ▸ within
  have fate : Job.Fate none p.jobs[i] q.jobs[i] := awaits.get before within
  exact ⟨p.jobs[i], List.getElem_mem before, fate.stopping stopping⟩

/-- Where no job had been told to stop before, none is pending when all have been waited for. -/
theorem Awaits.pending_eq_zero (awaits : Awaits none p q) (accounted : q.Accounted)
    (unstopped : ∀ job ∈ p.jobs, job.state ≠ .stopping) : q.pending = 0 := by
  rw [accounted.pending_of_still awaits.still, List.countP_eq_zero]
  intro after member stopping
  obtain ⟨job, known, told⟩ := awaits.stopping member (of_decide_eq_true stopping)
  exact unstopped job known told

/-- What becomes of the jobs of a pool in any run.  The count agrees with the jobs, and no more are
counted out than are counted.  A drain sees every running job to its end.  One with a deadline that is
not the end of any job succeeds if every running job ends before, unless there is no time and the
caller has to pause to collect what ended long ago; where it fails, exactly the jobs that would have
ended later are told to stop, never run to their end, and count until they have had a turn. -/
theorem every_job_is_accounted_for (moves : List Move) :
    let p := run {} moves
    p.jobs.map Job.panics = (moves.flatMap Move.newJobs).map Job.panics ∧
    (p.pending = p.jobs.countP Job.isPending ∧
      ∀ millis, p.jobs.countP (Job.endsBefore millis) ≤ p.pending) ∧
    (Awaits none p p.drain ∧ p.drain.pending = p.drain.jobs.countP (·.state = .stopping) ∧
      ((∀ job ∈ p.jobs, job.state ≠ .stopping) → p.drain.pending = 0)) ∧
    ∀ millis, p.Apart millis →
      ∃ (done : Bool) (q : Pool), p.drainWithin millis = (done, q) ∧
        (done = true ↔ p.InTime millis ∧ (millis = 0 → p.uncollected ≤ p.reach)) ∧
        (done = true → Awaits none p q) ∧
        (done = false → Awaits (some millis) p q ∧ q.settle.pending = 0 ∧
          ∀ (i : Nat) (job : Job), q.jobs[i]? = some job → job.state = .stopping → ∀ later,
            ∃ after : Job, (q.run later).jobs[i]? = some after ∧
              (after.state = .stopping ∨ after.state = .aborted)) := by
  intro p
  have accounted : p.Accounted := accounted_run moves
  have drained : p.drain.Accounted := (follows_drain p).accounted accounted
  have awaits := awaits_drain p
  refine ⟨jobs_run {} moves, ⟨accounted, accounted.countP_endsBefore_le⟩,
    ⟨awaits, drained.pending_of_still awaits.still, awaits.pending_eq_zero drained⟩, ?_⟩
  intro millis apart
  refine ⟨_, _, rfl, drainWithin_iff apart, awaits_of_drained, fun gaveUp => ?_⟩
  have awaits := awaits_of_drainGaveUp apart gaveUp
  have stopped : (p.drainWithin millis).2.Accounted :=
    (follows_drainWithin millis p).accounted accounted
  refine ⟨awaits, stopped.pending_settle_of_still awaits.still, ?_⟩
  intro i job place stopping later
  obtain ⟨after, found, lasts⟩ := lasts_run place later
  exact ⟨after, found, lasts.stopped stopping⟩

/-- A job of 10 ms, one of 20 that panics and one of 30 in a drain of 25 ms: the last one is stopped. -/
theorem last_of_three_is_stopped :
    let p := run {} [.spawn 10 false, .spawn 20 true, .spawn 30 false, .turn]
    p.Apart 25 ∧ ∃ q, p.drainWithin 25 = (false, q) ∧
      q.jobs.map Job.state = [.finished, .panicked, .stopping] ∧ q.settle.pending = 0 := by
  intro p
  have apart : p.Apart 25 := by unfold Apart; decide
  obtain ⟨-, -, -, waits⟩ :=
    every_job_is_accounted_for [.spawn 10 false, .spawn 20 true, .spawn 30 false, .turn]
  obtain ⟨done, q, drained, clears, -, cut⟩ := waits 25 apart
  have late : ¬ p.InTime 25 := by
    rw [← clearsBefore_iff]
    decide
  have gaveUp : done = false := Bool.eq_false_iff.mpr fun all => late (clears.mp all).1
  subst gaveUp
  refine ⟨apart, q, drained, ?_, (cut rfl).2.1⟩
  obtain rfl : (p.drainWithin 25).2 = q := congrArg Prod.snd drained
  decide

/-- 129 jobs that ended a millisecond ago. -/
def backlog : List Move := List.replicate 129 (.spawn 0 false) ++ [.sleep 1, .turn]

theorem state_backlog : ∀ job ∈ (run {} backlog).jobs, job.state = .finished := by decide +kernel

theorem apart_backlog : (run {} backlog).Apart millis := by
  intro job member running
  rw [state_backlog job member] at running
  nomatch running

theorem inTime_backlog : (run {} backlog).InTime millis := by
  intro job member left running
  rw [state_backlog job member] at running
  nomatch running

/-- The jobs are not all that counts.  Of a long backlog a caller without time collects a part, and
gives up although nothing runs; and a drain leaves behind, still counted, a job that an earlier one has
stopped. -/
theorem drains_depend_on_turns :
    (¬ ∀ (moves : List Move) (millis : Nat), (run {} moves).Apart millis →
      (((run {} moves).drainWithin millis).1 = true ↔ (run {} moves).InTime millis)) ∧
    ¬ ∀ moves : List Move, (run {} moves).drain.pending = 0 := by
  constructor
  · intro onlyJobs
    have gaveUp : ((run {} backlog).drainWithin 0).1 = false := by decide +kernel
    have done := (onlyJobs backlog 0 apart_backlog).mpr inTime_backlog
    exact Bool.false_ne_true (gaveUp.symm.trans done)
  · intro all
    exact absurd (all [.spawn 100 false, .turn, .drainWithin 10]) (by decide)

end Pool

end Switchboard
