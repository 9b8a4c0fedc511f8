import Switchboard.Proofs.Hub.Recovery
import Switchboard.Proofs.Time.Order

/-!
Silence by the clock.

A sweep asks the store for executions whose timestamps are less than the text of a cutoff.  The cutoff
is a silence before the present, or the earliest instant there is.  However long the silence, the
texts compare as the instants do: a cutoff before the year 0 begins with a sign and is less than all
that is recorded.
-/

namespace Switchboard

namespace Instant

/-- Nanoseconds since 1970-01-01. -/
def total (at_ : Instant) : Int := at_.seconds * nanosPerSecond + at_.nanos

def ofTotal (total : Int) : Instant :=
  ⟨total / nanosPerSecond, (total % nanosPerSecond).toNat⟩

/-- The moment that lies `seconds` and `nanos` before another one, be there such an instant or not. -/
def minus (now : Instant) (seconds nanos : Nat) : Instant :=
  ofTotal (now.total - (seconds * nanosPerSecond + nanos : Nat))

variable {now at_ moment : Instant} {seconds nanos : Nat}

theorem before_eq : now.before seconds nanos =
    if (now.minus seconds nanos).seconds < minSeconds then earliest
    else now.minus seconds nanos := by
  have same : (now.seconds - seconds) * nanosPerSecond + now.nanos - nanos =
      now.total - (seconds * nanosPerSecond + nanos : Nat) := by
    unfold total nanosPerSecond
    omega
  unfold before
  rw [same]
  rfl

theorem nanos_minus_lt : (now.minus seconds nanos).nanos < nanosPerSecond := by
  simp only [minus, ofTotal, nanosPerSecond]
  omega

theorem seconds_minus_le (reading : now.nanos < nanosPerSecond) :
    (now.minus seconds nanos).seconds ≤ now.seconds := by
  simp only [minus, ofTotal, total, nanosPerSecond] at *
  omega

/-- Instants outside leap seconds are compared by the whole microseconds since 1970-01-01. -/
theorem before_minus_iff (ordinary : at_.nanos < nanosPerSecond) :
    at_.Before (now.minus seconds nanos) ↔
      at_.total / 1000 < (now.total - (seconds * nanosPerSecond + nanos : Nat)) / 1000 := by
  simp only [Before, minus, ofTotal, total, nanosPerSecond] at *
  omega

theorem not_before_of_year_lt (later : moment.year < at_.year) : ¬ at_.Before moment := by
  intro before
  have le : at_.seconds ≤ moment.seconds := by
    unfold Before at before
    omega
  exact absurd (year_mono le) (Int.not_le.mpr later)

theorem year_earliest : earliest.year < 0 := by decide +kernel

theorem year_of_lt_minSeconds (unreachable : moment.seconds < minSeconds) : moment.year < 0 :=
  Int.lt_of_le_of_lt (year_mono (b := earliest) (Int.le_of_lt unreachable)) year_earliest

theorem forall_before_iff_of_unreachable {recorded : Option Instant}
    (unreachable : moment.seconds < minSeconds) (common : ∀ at_ ∈ recorded, at_.Common) :
    (∀ at_ ∈ recorded, at_.Before moment) ↔ recorded = none := by
  cases recorded with
  | none => simp
  | some at_ =>
      have first := (common at_ rfl).first
      have later := not_before_of_year_lt
        (Int.lt_of_lt_of_le (year_of_lt_minSeconds unreachable) first)
      simp [later]

/-- A canonical form is less than that of a past moment exactly if it names an earlier one. -/
theorem text_lt_text_before_iff (seconds nanos : Nat) (common : at_.Common)
    (reading : now.nanos < nanosPerSecond) (last : now.year ≤ 9999) :
    at_.text < (now.before seconds nanos).text ↔ at_.Before (now.minus seconds nanos) := by
  by_cases negative : (now.minus seconds nanos).year < 0
  · -- the texts of negative years are out of order, but whichever this is, none recorded is less
    have still : (now.before seconds nanos).year < 0 := by
      rw [before_eq]
      split
      · exact year_earliest
      · exact negative
    exact iff_of_false (not_text_lt_text common.first common.last still)
      (not_before_of_year_lt (Int.lt_of_lt_of_le negative common.first))
  · have reachable : ¬ (now.minus seconds nanos).seconds < minSeconds :=
      fun unreachable => negative (year_of_lt_minSeconds unreachable)
    have past : (now.minus seconds nanos).Common :=
      ⟨.inl nanos_minus_lt, Int.not_lt.mp negative,
        Int.le_trans (year_mono (seconds_minus_le reading)) last⟩
    rw [before_eq, if_neg reachable]
    exact text_lt_text_iff common past

end Instant

namespace Execution

open Transaction

variable {db : Database} {row : Execution} {now : Instant} {seconds nanos : Nat}

/-- Whether the recorded times of an execution are canonical forms of instants, if there are any. -/
structure Dated (started heard : Option Instant) (row : Execution) : Prop where
  startedAt : row.startedAt = started.map Instant.text
  lastEventAt : row.lastEventAt = heard.map Instant.text
  commonStart : ∀ at_ ∈ started, at_.Common
  commonEvent : ∀ at_ ∈ heard, at_.Common

private theorem lt_before_of_map_iff {recorded : Option String} {at_ : Option Instant}
    (same : recorded = at_.map Instant.text) (common : ∀ instant ∈ at_, instant.Common)
    (reading : now.nanos < Instant.nanosPerSecond) (last : now.year ≤ 9999) :
    (∀ text, recorded = some text → text < (now.before seconds nanos).text) ↔
      ∀ instant ∈ at_, instant.Before (now.minus seconds nanos) := by
  subst same
  cases at_ with
  | none => simp
  | some instant =>
      have compare := Instant.text_lt_text_before_iff seconds nanos (common instant rfl) reading last
      simpa using compare

theorem mem_stale_before_iff {started heard : Option Instant} (seconds nanos : Nat)
    (dated : row.Dated started heard) (member : row ∈ db.executions)
    (executing : row.state = .executing) (reading : now.nanos < Instant.nanosPerSecond)
    (last : now.year ≤ 9999) :
    row ∈ db.stale (now.before seconds nanos).text ↔
      (∀ at_ ∈ started, at_.Before (now.minus seconds nanos)) ∧
        ∀ at_ ∈ heard, at_.Before (now.minus seconds nanos) := by
  rw [Database.mem_stale, lt_before_of_map_iff dated.startedAt dated.commonStart reading last,
    lt_before_of_map_iff dated.lastEventAt dated.commonEvent reading last]
  constructor
  · intro stale
    exact ⟨stale.2.2.2, stale.2.2.1⟩
  · intro silent
    exact ⟨member, executing, silent.2, silent.1⟩

/-- Whatever the timeout, what is listed as stale are the executions that were silent for longer, by
whole microseconds.  A clock tells no leap second, though a recorded time may be one. -/
theorem staleness_is_about_time (w : World) (m : Meter) (db : Database) (now : Instant)
    (seconds nanos : Nat) (undisturbed : db.Undisturbed) (passed : w.refuses m.statements = none)
    (reading : now.nanos < Instant.nanosPerSecond) (last : now.year ≤ 9999) :
    let past := now.minus seconds nanos
    (∀ at_ : Instant, at_.nanos < Instant.nanosPerSecond → (at_.Before past ↔
      at_.total / 1000 < (now.total - (seconds * Instant.nanosPerSecond + nanos : Nat)) / 1000)) ∧
    ∃ rows, listStale (now.before seconds nanos).text w m db = (m.afterStatement, .ok (rows, db)) ∧
      ∀ row ∈ db.executions, row.state = .executing →
        ∀ started heard, row.Dated started heard →
          (row ∈ rows ↔ (∀ at_ ∈ started, at_.Before past) ∧ ∀ at_ ∈ heard, at_.Before past) ∧
          (past.seconds < Instant.minSeconds → (row ∈ rows ↔ started = none ∧ heard = none)) := by
  intro past
  refine ⟨fun at_ => Instant.before_minus_iff, db.stale (now.before seconds nanos).text, ?_, ?_⟩
  · exact (listStale_eq_ok undisturbed).mpr ⟨passed, rfl, rfl, rfl⟩
  · intro row member executing started heard dated
    have silent := mem_stale_before_iff seconds nanos dated member executing reading last
    refine ⟨silent, fun unreachable => ?_⟩
    rw [silent, Instant.forall_before_iff_of_unreachable unreachable dated.commonStart,
      Instant.forall_before_iff_of_unreachable unreachable dated.commonEvent]

/-- An execution that was heard of once. -/
private def heardAt (at_ : Instant) : Execution :=
  { (default : Execution) with state := .executing, lastEventAt := some at_.text }

private theorem dated_heardAt {at_ : Instant} (common : at_.Common) :
    (heardAt at_).Dated none (some at_) :=
  ⟨rfl, rfl, nofun, fun _ same => Option.some.inj same ▸ common⟩

/-- Half a minute after 2016 the leap second before it is too long ago, and midnight is not. -/
theorem leap_second_is_before_midnight :
    let leap : Instant := ⟨1483228799, 1500000000⟩
    let midnight : Instant := ⟨1483228800, 0⟩
    let now : Instant := ⟨1483228830, 0⟩
    let db : Database := { executions := [heardAt leap, heardAt midnight] }
    ∃ rows, listStale (now.before 30 0).text .plain {} db = (⟨0, 0, 1⟩, .ok (rows, db)) ∧
      heardAt leap ∈ rows ∧ heardAt midnight ∉ rows := by
  intro leap midnight now db
  obtain ⟨-, rows, listed, stale⟩ := staleness_is_about_time .plain {} db now 30 0
    ⟨rfl, rfl⟩ rfl (by decide) (by decide +kernel)
  have late : leap.Common := ⟨.inr (by decide), by decide +kernel, by decide +kernel⟩
  have recent : midnight.Common := ⟨.inl (by decide), by decide +kernel, by decide +kernel⟩
  obtain ⟨old, -⟩ := stale (heardAt leap) (by simp [db]) rfl none (some leap) (dated_heardAt late)
  obtain ⟨new, -⟩ := stale (heardAt midnight) (by simp [db]) rfl none (some midnight)
    (dated_heardAt recent)
  refine ⟨rows, listed, old.mpr ⟨nofun, ?_⟩, fun member => ?_⟩
  · intro at_ same
    cases same
    exact .inl (by decide)
  · have before := (new.mp member).2 midnight rfl
    exact absurd before (by unfold Instant.Before; decide)

end Execution

end Switchboard
