import Switchboard.Proofs.Text.Columns
import Switchboard.Proofs.Time.Date
import Switchboard.Time.Timestamp

/-!
The order of timestamps.

Canonical forms of the years from 0 to 9999 are written in columns of one layout, so the order of the
texts is the order of the instants.  Years before those begin with a sign, which comes before all
digits; their texts are in no useful order among each other, but they are all less than the others.
-/

namespace Switchboard.Instant

open Text

def year (at_ : Instant) : Int := (Calendar.dateOf (at_.seconds / secondsPerDay)).year

/-- Earlier by whole microseconds.  A leap second comes after the second before it and before the
next minute. -/
def Before (a b : Instant) : Prop :=
  a.seconds < b.seconds ∨ a.seconds = b.seconds ∧ a.nanos / 1000 < b.nanos / 1000

/-- Whether the nanoseconds of an instant are those of a second, or of a leap second at the end of a
minute. -/
def Sound (at_ : Instant) : Prop :=
  at_.nanos < nanosPerSecond ∨ at_.nanos < 2 * nanosPerSecond ∧ at_.seconds % 60 = 59

/-- Whether an instant lies in a year that is written with four digits and no sign. -/
structure Common (at_ : Instant) : Prop where
  sound : at_.Sound
  first : 0 ≤ at_.year
  last : at_.year ≤ 9999

variable {a b : Instant}

theorem year_mono (le : a.seconds ≤ b.seconds) : a.year ≤ b.year :=
  Calendar.year_dateOf_mono (Int.ediv_le_ediv (by decide) le)

def layout : List Column :=
  [⟨4, '-'⟩, ⟨2, '-'⟩, ⟨2, 'T'⟩, ⟨2, ':'⟩, ⟨2, ':'⟩, ⟨2, '.'⟩, ⟨6, 'Z'⟩]

def dateColumns (at_ : Instant) : List Nat :=
  let date := Calendar.dateOf (at_.seconds / secondsPerDay)
  [date.year.natAbs, date.month, date.day]

def clockColumns (at_ : Instant) : List Nat :=
  let second := (at_.seconds % secondsPerDay).toNat
  [second / 3600, second / 60 % 60, second % 60 + at_.nanos / nanosPerSecond,
    at_.nanos % nanosPerSecond / 1000]

theorem render_eq (first : 0 ≤ a.year) (last : a.year ≤ 9999) :
    a.render = inColumns layout (a.dateColumns ++ a.clockColumns) := by
  unfold year at first last
  simp only [render, yearText, if_neg (Int.not_lt.mpr first), if_neg (Int.not_lt.mpr last),
    twoDigits, layout, dateColumns, clockColumns, inColumns, List.cons_append, List.nil_append,
    List.append_assoc]

theorem clockColumns_fit (sound : a.Sound) : List.Forall₂ Column.Fits
    [⟨2, ':'⟩, ⟨2, ':'⟩, ⟨2, '.'⟩, ⟨6, 'Z'⟩] a.clockColumns := by
  unfold Sound nanosPerSecond at sound
  have second := Int.emod_lt_of_pos a.seconds (show 0 < secondsPerDay by decide)
  simp only [clockColumns, List.forall₂_cons, List.forall₂_nil_left_iff, Column.Fits,
    nanosPerSecond, and_true]
  unfold secondsPerDay at *
  omega

theorem columns_fit (common : a.Common) :
    List.Forall₂ Column.Fits layout (a.dateColumns ++ a.clockColumns) := by
  have valid := Calendar.isValid_dateOf (a.seconds / secondsPerDay)
  have month := Calendar.Date.month_le valid
  have day := Calendar.Date.day_le valid
  have first := common.first
  have last := common.last
  unfold year at first last
  refine .cons ?_ (.cons ?_ (.cons ?_ (clockColumns_fit common.sound)))
  · exact ⟨by decide, by dsimp only; omega⟩
  · exact ⟨by decide, by dsimp only; omega⟩
  · exact ⟨by decide, by dsimp only; omega⟩

theorem dateColumns_lt_iff (first : 0 ≤ a.year) (first' : 0 ≤ b.year) :
    a.dateColumns < b.dateColumns ↔ a.seconds / secondsPerDay < b.seconds / secondsPerDay := by
  unfold year at first first'
  rw [← Calendar.before_dateOf_iff]
  simp only [dateColumns, List.cons_lt_cons_iff, List.not_lt_nil, and_false, or_false,
    Calendar.Date.Before]
  omega

theorem dateColumns_inj (first : 0 ≤ a.year) (first' : 0 ≤ b.year) :
    a.dateColumns = b.dateColumns ↔ a.seconds / secondsPerDay = b.seconds / secondsPerDay := by
  unfold year at first first'
  rw [← Calendar.dateOf_inj]
  rcases date : Calendar.dateOf (a.seconds / secondsPerDay) with ⟨year, month, day⟩
  rcases date' : Calendar.dateOf (b.seconds / secondsPerDay) with ⟨year', month', day'⟩
  simp only [date] at first
  simp only [date'] at first'
  simp only [dateColumns, date, date', List.cons.injEq, Calendar.Date.mk.injEq, and_true]
  omega

/-- Hours and minutes decide first; a leap second is the last of its minute. -/
theorem clockColumns_lt_iff (sound : a.Sound) (sound' : b.Sound) :
    a.clockColumns < b.clockColumns ↔
      a.seconds % secondsPerDay < b.seconds % secondsPerDay ∨
        a.seconds % secondsPerDay = b.seconds % secondsPerDay ∧ a.nanos / 1000 < b.nanos / 1000 := by
  unfold Sound nanosPerSecond at sound sound'
  simp only [clockColumns, List.cons_lt_cons_iff, List.not_lt_nil, and_false, or_false,
    nanosPerSecond, secondsPerDay]
  generalize second : (a.seconds % 86400).toNat = s
  generalize second' : (b.seconds % 86400).toNat = s'
  have within : a.nanos / 1000000000 = 0 ∨ a.nanos / 1000000000 = 1 ∧ s % 60 = 59 := by omega
  have within' : b.nanos / 1000000000 = 0 ∨ b.nanos / 1000000000 = 1 ∧ s' % 60 = 59 := by omega
  have whole : a.seconds % 86400 = s := by omega
  have whole' : b.seconds % 86400 = s' := by omega
  rw [whole, whole']
  clear whole whole' second second' sound sound'
  omega

theorem text_lt_text_iff_render : a.text < b.text ↔ a.render < b.render := by
  rw [text, text, String.lt_iff, String.toList_ofList, String.toList_ofList]

/-- The order of canonical forms is the order of instants. -/
theorem text_lt_text_iff (common : a.Common) (common' : b.Common) : a.text < b.text ↔ a.Before b := by
  rw [text_lt_text_iff_render, render_eq common.first common.last,
    render_eq common'.first common'.last, inColumns_lt_iff (columns_fit common) (columns_fit common'),
    append_lt_append_iff (show a.dateColumns.length = b.dateColumns.length from rfl),
    dateColumns_lt_iff common.first common'.first, dateColumns_inj common.first common'.first,
    clockColumns_lt_iff common.sound common'.sound, Before]
  unfold secondsPerDay
  omega

/-- A sign comes before every digit. -/
theorem not_text_lt_text (first : 0 ≤ a.year) (last : a.year ≤ 9999) (negative : b.year < 0) :
    ¬ a.text < b.text := by
  have digits : ∀ c ∈ padded 4 (decimal a.year.natAbs), isDigit c := isDigit_of_mem_padded 4 _
  have written : yearText a.year = padded 4 (decimal a.year.natAbs) := by
    rw [yearText, if_neg (Int.not_lt.mpr first), if_neg (Int.not_lt.mpr last)]
  have signed : yearText b.year = '-' :: padded 4 (decimal b.year.natAbs) := by
    rw [yearText, if_pos negative]
  unfold year at written signed
  rw [text_lt_text_iff_render]
  cases text : padded 4 (decimal a.year.natAbs) with
  | nil => exact absurd text (padded_decimal_ne_nil 4 _)
  | cons d rest =>
      have digit := digits d (text ▸ List.mem_cons_self)
      unfold year at text
      simp only [render, written, signed, text, List.cons_append, List.cons_lt_cons_iff]
      simp only [isDigit, Bool.and_eq_true, decide_eq_true_eq] at digit
      intro lt
      rcases lt with lt | ⟨rfl, -⟩
      · exact absurd (Std.lt_of_le_of_lt digit.1 lt) (by decide)
      · exact absurd digit.1 (by decide)

end Switchboard.Instant
