import Switchboard.Proofs.Text.Bytes
import Switchboard.Proofs.Time.Order
import Switchboard.Proofs.Time.Reading

/-!
The canonical form sorts by time.

Whatever its offset, its fraction and its second, a timestamp that can be read names a sound instant,
and the canonical forms of such instants are 27 bytes in the order of time.
-/

namespace Switchboard.Instant

open Text

variable {a b : Instant}

theorem fractionNanos_lt {ds : List Char} (digits : ∀ d ∈ ds, isDigit d) :
    fractionNanos ds < nanosPerSecond := by
  rw [fractionNanos, Nat.div_lt_iff_lt_mul (Nat.pow_pos (by decide)), Nat.mul_comm]
  exact Nat.mul_lt_mul_of_pos_left (natOfDigits_lt digits) (by decide)

/-- Offsets are whole minutes, so a leap second is at the end of a minute in UTC too. -/
theorem Stamp.Valid.sound {stamp : Stamp} (valid : stamp.Valid) : stamp.instant.Sound := by
  have fraction := fractionNanos_lt valid.fraction
  by_cases leap : natOfDigits stamp.second = 60
  · refine .inr ⟨?_, ?_⟩
    · simp only [Stamp.instant, leap, if_true]
      unfold nanosPerSecond at *
      omega
    · simp only [Stamp.instant, leap, if_true]
      unfold secondsPerDay
      omega
  · refine .inl ?_
    simpa only [Stamp.instant, leap, if_false, Nat.add_zero] using fraction

theorem toList_text (common : a.Common) :
    a.text.toList = inColumns layout (a.dateColumns ++ a.clockColumns) := by
  rw [text, String.toList_ofList, render_eq common.first common.last]

theorem ascii_text (common : a.Common) : ∀ c ∈ a.text.toList, Ascii c := by
  rw [toList_text common]
  exact ascii_inColumns (by unfold Ascii; decide)

theorem length_bytes_text (common : a.Common) : (bytes a.text).length = 27 := by
  rw [bytes_of_ascii (ascii_text common), List.length_map, toList_text common,
    length_inColumns (columns_fit common)]
  rfl

theorem bytes_text_le_iff (common : a.Common) (common' : b.Common) :
    bytes a.text ≤ bytes b.text ↔ ¬ b.Before a := by
  rw [← List.not_lt, bytes_lt_bytes_iff (ascii_text common') (ascii_text common),
    text_lt_text_iff common' common]

theorem text_eq_text_iff (common : a.Common) (common' : b.Common) :
    a.text = b.text ↔ a.seconds = b.seconds ∧ a.nanos / 1000 = b.nanos / 1000 := by
  have together : a.text = b.text ↔ ¬ b.Before a ∧ ¬ a.Before b := by
    rw [← bytes_text_le_iff common common', ← bytes_text_le_iff common' common]
    constructor
    · intro same
      rw [same]
      exact ⟨List.le_refl _, List.le_refl _⟩
    · rintro ⟨le, ge⟩
      exact bytes_inj.mp (List.le_antisymm le ge)
  rw [together, Before, Before]
  omega

/-- Exactly the texts of well-formed timestamps have a canonical form.  Those of two timestamps whose
years in UTC are 0 to 9999 are 27 bytes each; they are in the order of the bytes exactly if the first
timestamp is not later than the second by whole microseconds, and one text exactly if both fall into
one microsecond.  A leap second is later than the second before it and earlier than the next minute. -/
theorem canonical_order_is_time_order (a b : String) :
    ((normalize a).isSome ↔ ∃ p : Stamp, p.Valid ∧ p.text = a.toList) ∧
    ∀ p q : Stamp, p.Valid → p.text = a.toList → q.Valid → q.text = b.toList →
      0 ≤ p.instant.year → p.instant.year ≤ 9999 → 0 ≤ q.instant.year → q.instant.year ≤ 9999 →
      ∃ s t, normalize a = some s ∧ normalize b = some t ∧
        (bytes s).length = 27 ∧ (bytes t).length = 27 ∧
        (bytes s ≤ bytes t ↔ ¬ q.instant.Before p.instant) ∧
        (s = t ↔ p.instant.seconds = q.instant.seconds ∧
          p.instant.nanos / 1000 = q.instant.nanos / 1000) := by
  refine ⟨?_, ?_⟩
  · simp only [Option.isSome_iff_exists, normalize_eq_some_iff]
    constructor
    · rintro ⟨_, p, valid, written, -⟩
      exact ⟨p, valid, written⟩
    · rintro ⟨p, valid, written⟩
      exact ⟨_, p, valid, written, rfl⟩
  · intro p q valid written valid' written' first last first' last'
    have common : p.instant.Common := ⟨valid.sound, first, last⟩
    have common' : q.instant.Common := ⟨valid'.sound, first', last'⟩
    exact ⟨p.instant.text, q.instant.text,
      normalize_eq_some_iff.mpr ⟨p, valid, written, rfl⟩,
      normalize_eq_some_iff.mpr ⟨q, valid', written', rfl⟩,
      length_bytes_text common, length_bytes_text common',
      bytes_text_le_iff common common', text_eq_text_iff common common'⟩

/-- Half a second into the leap second of 2016. -/
private def intoLeap : Stamp :=
  ⟨['2', '0', '1', '6'], ['1', '2'], ['3', '1'], 'T', ['2', '3'], ['5', '9'], ['6', '0'], ['5'],
    .utc 'Z'⟩

/-- The midnight after it, an hour east of UTC. -/
private def midnightEast : Stamp :=
  ⟨['2', '0', '1', '7'], ['0', '1'], ['0', '1'], 't', ['0', '1'], ['0', '0'], ['0', '0'], [],
    .apart '+' ['0', '1'] ['0', '0']⟩

theorem leap_second_sorts_before_midnight :
    ∃ s t, normalize "2016-12-31T23:59:60.5Z" = some s ∧
      normalize "2017-01-01t01:00:00+01:00" = some t ∧ bytes s ≤ bytes t ∧ s ≠ t := by
  have valid : intoLeap.Valid :=
    { year := by decide, month := by decide, day := by decide, separator := by decide
      hour := by decide, minute := by decide, second := by decide, fraction := List.all_eq_true.mp rfl
      zone := .inl rfl, date := by decide, hour_le := by decide, minute_le := by decide
      second_le := by decide }
  have valid' : midnightEast.Valid :=
    { year := by decide, month := by decide, day := by decide, separator := by decide
      hour := by decide, minute := by decide, second := by decide, fraction := nofun
      zone := ⟨.inl rfl, by decide, by decide, by decide, by decide⟩, date := by decide
      hour_le := by decide, minute_le := by decide, second_le := by decide }
  obtain ⟨s, t, canonical, canonical', -, -, order, same⟩ :=
    (canonical_order_is_time_order "2016-12-31T23:59:60.5Z" "2017-01-01t01:00:00+01:00").2
      intoLeap midnightEast valid (by decide) valid' (by decide)
      (by decide +kernel) (by decide +kernel) (by decide +kernel) (by decide +kernel)
  refine ⟨s, t, canonical, canonical', order.mpr ?_, fun one => ?_⟩
  · unfold Before
    decide +kernel
  · exact absurd (same.mp one).1 (by decide +kernel)

end Switchboard.Instant
