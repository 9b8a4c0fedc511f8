import Switchboard.Event
import Switchboard.Proofs.Time.Canonical

/-!
Canonical forms are their own.

The canonical form of an instant in the years from 0 to 9999 is itself a timestamp.  It names the instant
in whole microseconds, so that its canonical form is the same text.  In other years it begins with a sign
and is no timestamp.
-/

namespace Switchboard

namespace Text

theorem natOfDigits_replicate_zero (count : Nat) : natOfDigits (List.replicate count '0') = 0 := by
  induction count with
  | zero => rfl
  | succ count ih => rw [List.replicate_succ', natOfDigits_append, ih]; rfl

theorem natOfDigits_padded (width n : Nat) : natOfDigits (padded width (decimal n)) = n := by
  rw [padded, natOfDigits_append_eq, natOfDigits_replicate_zero, Nat.zero_mul, Nat.zero_add,
    natOfDigits_decimal]

end Text

namespace Instant

open Text

variable {a : Instant}

theorem digits_padded {column : Column} {n : Nat} (fits : column.Fits n) :
    Digits column.width (padded column.width (decimal n)) := by
  obtain ⟨width, mark⟩ := column
  obtain ⟨wide, small⟩ := fits
  cases width with
  | zero => contradiction
  | succ width => exact ⟨length_padded_decimal small, isDigit_of_mem_padded _ n⟩

theorem fractionText_padded (width n : Nat) :
    fractionText (padded width (decimal n)) = '.' :: padded width (decimal n) :=
  if_neg (padded_decimal_ne_nil width n)

theorem fractionNanos_padded {micros : Nat} (small : micros < 10 ^ 6) :
    fractionNanos (padded 6 (decimal micros)) = micros * 1000 := by
  have six : (padded 6 (decimal micros)).length = 6 := length_padded_decimal small
  rw [fractionNanos, natOfDigits_padded, six]
  omega

/-- What is written for an instant, piece by piece. -/
def stamp (at_ : Instant) : Stamp :=
  let date := Calendar.dateOf (at_.seconds / secondsPerDay)
  let second := (at_.seconds % secondsPerDay).toNat
  { year := padded 4 (decimal date.year.natAbs)
    month := twoDigits date.month
    day := twoDigits date.day
    separator := 'T'
    hour := twoDigits (second / 3600)
    minute := twoDigits (second / 60 % 60)
    second := twoDigits (second % 60 + at_.nanos / nanosPerSecond)
    fraction := padded 6 (decimal (at_.nanos % nanosPerSecond / 1000))
    zone := .utc 'Z' }

/-- An instant in whole microseconds. -/
def inMicros (at_ : Instant) : Instant := { at_ with nanos := at_.nanos / 1000 * 1000 }

theorem text_stamp (first : 0 ≤ a.year) (last : a.year ≤ 9999) : a.stamp.text = a.render := by
  unfold year at first last
  simp only [Stamp.text, stamp, fractionText_padded, Zone.text, render, yearText,
    if_neg (Int.not_lt.mpr first), if_neg (Int.not_lt.mpr last), List.cons_append, List.append_assoc]

theorem date_stamp (first : 0 ≤ a.year) :
    a.stamp.date = Calendar.dateOf (a.seconds / secondsPerDay) := by
  unfold year at first
  simp only [Stamp.date, stamp, twoDigits, natOfDigits_padded, Int.natAbs_of_nonneg first]

theorem valid_stamp (common : a.Common) : a.stamp.Valid := by
  have columns := columns_fit common
  simp only [layout, dateColumns, clockColumns, List.cons_append, List.nil_append, List.forall₂_cons,
    List.forall₂_nil_left_iff, and_true] at columns
  obtain ⟨year, month, day, hour, minute, second, fraction⟩ := columns
  have whole := Int.emod_lt_of_pos a.seconds (show 0 < secondsPerDay by decide)
  have sound := common.sound
  unfold Sound nanosPerSecond at sound
  unfold secondsPerDay at whole
  refine
    { year := digits_padded year
      month := digits_padded month
      day := digits_padded day
      separator := List.mem_cons_self
      hour := digits_padded hour
      minute := digits_padded minute
      second := digits_padded second
      fraction := isDigit_of_mem_padded 6 _
      zone := .inl rfl
      date := date_stamp common.first ▸ Calendar.isValid_dateOf _
      hour_le := ?_
      minute_le := ?_
      second_le := ?_ }
  · simp only [stamp, twoDigits, natOfDigits_padded, secondsPerDay]
    omega
  · simp only [stamp, twoDigits, natOfDigits_padded]
    omega
  · simp only [stamp, twoDigits, natOfDigits_padded, secondsPerDay, nanosPerSecond]
    omega

theorem instant_stamp (common : a.Common) : a.stamp.instant = a.inMicros := by
  have sound := common.sound
  have micros : a.nanos % nanosPerSecond / 1000 < 10 ^ 6 := by
    unfold nanosPerSecond
    omega
  have day := Calendar.dayNumber_dateOf (a.seconds / secondsPerDay)
  simp only [Stamp.instant, date_stamp common.first, day]
  simp only [stamp, inMicros, twoDigits, natOfDigits_padded, fractionNanos_padded micros,
    Zone.minutes, Instant.mk.injEq]
  unfold Sound at sound
  unfold nanosPerSecond secondsPerDay at *
  by_cases leap : (a.seconds % 86400).toNat % 60 + a.nanos / 1000000000 = 60
  · simp only [if_pos leap]
    omega
  · simp only [if_neg leap]
    omega

theorem text_inMicros (a : Instant) : a.inMicros.text = a.text := by
  have second : a.nanos / 1000 * 1000 / nanosPerSecond = a.nanos / nanosPerSecond := by
    unfold nanosPerSecond
    omega
  have micros : a.nanos / 1000 * 1000 % nanosPerSecond / 1000 = a.nanos % nanosPerSecond / 1000 := by
    unfold nanosPerSecond
    omega
  simp only [text, render, inMicros, second, micros]

theorem read_text (common : a.Common) : read a.text.toList = some a.inMicros := by
  rw [text, String.toList_ofList]
  exact read_eq_some_iff.mpr
    ⟨a.stamp, valid_stamp common, text_stamp common.first common.last, instant_stamp common⟩

theorem normalize_text (common : a.Common) : normalize a.text = some a.text := by
  rw [normalize, read_text common, Option.map_some, text_inMicros]

theorem sign_of_render (other : a.year < 0 ∨ 9999 < a.year) :
    ∃ c ∈ a.render.head?, ¬ isDigit c := by
  unfold year at other
  by_cases negative : (Calendar.dateOf (a.seconds / secondsPerDay)).year < 0
  · refine ⟨'-', ?_, by decide⟩
    simp only [render, yearText, if_pos negative, List.cons_append, List.head?_cons, Option.mem_def]
  · refine ⟨'+', ?_, by decide⟩
    simp only [render, yearText, if_neg negative, if_pos (other.resolve_left negative),
      List.cons_append, List.head?_cons, Option.mem_def]

theorem Stamp.Valid.digit_of_text {p : Stamp} (valid : p.Valid) :
    ∀ c ∈ p.text.head?, isDigit c := by
  obtain ⟨four, digits⟩ := valid.year
  cases year : p.year with
  | nil =>
      rw [year] at four
      contradiction
  | cons d ds =>
      rw [Stamp.text, year]
      rintro c ⟨⟩
      exact digits d (year ▸ List.mem_cons_self)

/-- A timestamp has no sign. -/
theorem normalize_text_eq_none (other : a.year < 0 ∨ 9999 < a.year) : normalize a.text = none := by
  obtain ⟨c, sign, nondigit⟩ := sign_of_render other
  rw [normalize, Option.map_eq_none_iff, Option.eq_none_iff_forall_ne_some, text,
    String.toList_ofList]
  intro at_ found
  obtain ⟨p, valid, written, -⟩ := read_eq_some_iff.mp found
  exact nondigit (valid.digit_of_text c (written ▸ sign))

/-- The texts that are their own canonical forms. -/
theorem normalize_eq_self_iff {canonical : String} :
    normalize canonical = some canonical ↔ ∃ at_ : Instant, at_.Common ∧ at_.text = canonical := by
  constructor
  · intro kept
    obtain ⟨p, valid, -, rfl⟩ := normalize_eq_some_iff.mp kept
    refine ⟨p.instant, ⟨valid.sound, ?_, ?_⟩, rfl⟩
    · by_contra early
      rw [normalize_text_eq_none (.inl (Int.not_le.mp early))] at kept
      contradiction
    · by_contra late
      rw [normalize_text_eq_none (.inr (Int.not_le.mp late))] at kept
      contradiction
  · rintro ⟨at_, common, rfl⟩
    exact normalize_text common

/-- Whatever timestamp a canonical form comes from, it stands for the instant of that in whole
microseconds: it is read as this, is its own canonical form, and is kept when a worker sends it as the
timestamp of an event.  This is so in the years from 0 to 9999 in UTC.  A timestamp whose offset leads
out of them has a canonical form that is no timestamp. -/
theorem canonical_form_is_kept {raw canonical : String} (readable : normalize raw = some canonical) :
    ∃ at_, read raw.toList = some at_ ∧ at_.text = canonical ∧
      (0 ≤ at_.year → at_.year ≤ 9999 →
        read canonical.toList = some at_.inMicros ∧ normalize canonical = some canonical ∧
        ∀ event : WorkerEvent, event.timestamp = canonical → ∀ execution trace now,
          (event.toEvent execution trace now).timestamp = canonical) ∧
      (at_.year < 0 ∨ 9999 < at_.year → normalize canonical = none) := by
  obtain ⟨at_, found, rfl⟩ := Option.map_eq_some_iff.mp readable
  obtain ⟨p, valid, -, rfl⟩ := read_eq_some_iff.mp found
  refine ⟨_, found, rfl, fun first last => ?_, normalize_text_eq_none⟩
  have common : p.instant.Common := ⟨valid.sound, first, last⟩
  refine ⟨read_text common, normalize_text common, ?_⟩
  intro event sent execution trace now
  rw [WorkerEvent.toEvent, sent, normalize_text common, Option.getD_some]

/-- A tenth of a microsecond short of midnight, in a leap second that is told five hours and a half
east of UTC. -/
theorem leap_second_is_kept :
    normalize "2017-01-01T05:29:60.9999999+05:30" = some "2016-12-31T23:59:60.999999Z" ∧
      normalize "2016-12-31T23:59:60.999999Z" = some "2016-12-31T23:59:60.999999Z" := by
  have readable :
      normalize "2017-01-01T05:29:60.9999999+05:30" = some "2016-12-31T23:59:60.999999Z" := by
    decide +kernel
  obtain ⟨at_, found, -, kept, -⟩ := canonical_form_is_kept readable
  obtain rfl : ⟨1483228799, 1999999900⟩ = at_ :=
    Option.some.inj (Eq.trans (by decide +kernel) found)
  exact ⟨readable, (kept (by decide +kernel) (by decide +kernel)).2.1⟩

end Instant

end Switchboard
