import Mathlib.Data.List.Induction
import Mathlib.Data.List.TakeWhile
import Mathlib.Tactic.Ring
import Switchboard.Time.Timestamp

/-!
What a timestamp says.

A timestamp is a date, a time of day, a fraction of a second and an offset, each in its digits.  The
reader accepts exactly the texts of well-formed timestamps, and gives the instant that such a text names:
the fraction counts in whole nanoseconds, however many digits it has, and second 60 is the second before
it with a thousand million nanoseconds more.
-/

namespace Switchboard

namespace Text

variable {ds : List Char}

theorem natOfDigits_append_eq (xs ys : List Char) :
    natOfDigits (xs ++ ys) = natOfDigits xs * 10 ^ ys.length + natOfDigits ys := by
  induction ys using List.reverseRecOn with
  | nil => simp [natOfDigits]
  | append_singleton ys y ih =>
      rw [← List.append_assoc, natOfDigits_append, natOfDigits_append, ih, List.length_append,
        List.length_singleton]
      ring

theorem digitValue_lt {d : Char} (digit : isDigit d) : digitValue d < 10 := by
  simp only [isDigit, Bool.and_eq_true, decide_eq_true_eq] at digit
  have high : d.toNat ≤ '9'.toNat := digit.2
  have nine : '9'.toNat = 57 := rfl
  unfold digitValue
  omega

theorem natOfDigits_lt (digits : ∀ d ∈ ds, isDigit d) : natOfDigits ds < 10 ^ ds.length := by
  induction ds using List.reverseRecOn with
  | nil => simp [natOfDigits]
  | append_singleton ds d ih =>
      have front := ih fun c member => digits c (List.mem_append_left _ member)
      have last := digitValue_lt (digits d (by simp))
      rw [natOfDigits_append, List.length_append, List.length_singleton, Nat.pow_succ]
      omega

/-- Digits after the ninth do not count for a number of nanoseconds. -/
theorem natOfDigits_take_nine (digits : ∀ d ∈ ds, isDigit d) :
    natOfDigits (ds.take 9) * 10 ^ (9 - (ds.take 9).length) =
      natOfDigits ds * 10 ^ 9 / 10 ^ ds.length := by
  have parts := natOfDigits_append_eq (ds.take 9) (ds.drop 9)
  rw [List.take_append_drop] at parts
  by_cases long : 9 ≤ ds.length
  · have rest : natOfDigits (ds.drop 9) < 10 ^ (ds.drop 9).length :=
      natOfDigits_lt fun d member => digits d (List.mem_of_mem_drop member)
    have width : ds.length = (ds.drop 9).length + 9 := by rw [List.length_drop]; omega
    rw [List.length_take, Nat.min_eq_left long, Nat.sub_self, Nat.pow_zero, Nat.mul_one, width,
      Nat.pow_add, Nat.mul_div_mul_right _ _ (by decide), parts, Nat.mul_comm,
      Nat.mul_add_div (Nat.pow_pos (by decide)), Nat.div_eq_of_lt rest, Nat.add_zero]
  · have all : ds.take 9 = ds := List.take_of_length_le (by omega)
    have split : 10 ^ 9 = 10 ^ (9 - ds.length) * 10 ^ ds.length := by
      rw [← Nat.pow_add]
      congr 1
      omega
    rw [all, split, ← Nat.mul_assoc, Nat.mul_div_cancel _ (Nat.pow_pos (by decide))]

end Text

namespace Instant

open Text

variable {cs rest : List Char} {count n : Nat}

/-- So many digits and nothing else. -/
def Digits (count : Nat) (ds : List Char) : Prop := ds.length = count ∧ ∀ d ∈ ds, isDigit d

instance (count : Nat) (ds : List Char) : Decidable (Digits count ds) :=
  decidable_of_iff (ds.length = count ∧ ds.all isDigit) (and_congr_right' List.all_eq_true)

theorem readDigits_eq_some_iff : readDigits count cs = some (n, rest) ↔
    ∃ ds, Digits count ds ∧ cs = ds ++ rest ∧ n = natOfDigits ds := by
  unfold readDigits Digits
  constructor
  · intro found
    dsimp only at found
    split at found
    · rename_i fits
      cases found
      simp only [Bool.and_eq_true, decide_eq_true_eq, List.all_eq_true] at fits
      exact ⟨cs.take count, fits, (List.take_append_drop count cs).symm, rfl⟩
    · contradiction
  · rintro ⟨ds, ⟨rfl, digits⟩, rfl, rfl⟩
    have fits : ds.all isDigit := List.all_eq_true.mpr digits
    simp [fits]

theorem readChar_eq_some_iff {c : Char} : readChar c cs = some rest ↔ cs = c :: rest := by
  cases cs with
  | nil => simp [readChar]
  | cons d cs =>
      simp only [readChar, List.cons.injEq]
      split <;> simp_all

/-- The marks that may stand between date and time. -/
def separators : List Char := ['T', 't', ' ']

theorem readSeparator_eq_some_iff :
    (readChar 'T' cs <|> readChar 't' cs <|> readChar ' ' cs) = some rest ↔
      ∃ c ∈ separators, cs = c :: rest := by
  cases cs with
  | nil => simp [readChar]
  | cons d cs =>
      by_cases upper : d = 'T'
      · simp [readChar, separators, upper]
      · by_cases lower : d = 't'
        · simp [readChar, separators, lower]
        · by_cases space : d = ' '
          · simp [readChar, separators, space]
          · simp [readChar, separators, upper, lower, space]

/-- The text of a fraction by its digits; none for no fraction. -/
def fractionText (ds : List Char) : List Char := if ds = [] then [] else '.' :: ds

/-- A fraction of a second in whole nanoseconds. -/
def fractionNanos (ds : List Char) : Nat := natOfDigits ds * 10 ^ 9 / 10 ^ ds.length

theorem fraction_of_readFraction (found : readFraction cs = some (n, rest)) :
    ∃ ds, (∀ d ∈ ds, isDigit d) ∧ cs = fractionText ds ++ rest ∧ n = fractionNanos ds := by
  unfold readFraction at found
  split at found
  · rename_i digits
    dsimp only at found
    split at found
    · contradiction
    · rename_i some_
      cases found
      have all : ∀ d ∈ digits.takeWhile isDigit, isDigit d := fun d member =>
        List.mem_takeWhile_imp member
      have nonempty : digits.takeWhile isDigit ≠ [] := by simpa using some_
      refine ⟨digits.takeWhile isDigit, all, ?_, natOfDigits_take_nine all⟩
      rw [fractionText, if_neg nonempty, List.cons_append, List.takeWhile_append_dropWhile]
  · cases found
    exact ⟨[], nofun, rfl, rfl⟩

/-- Whether a fraction cannot go on here. -/
def Stops (rest : List Char) : Prop := ∀ c ∈ rest.head?, ¬ isDigit c ∧ c ≠ '.'

theorem readFraction_append {ds : List Char} (digits : ∀ d ∈ ds, isDigit d) (stops : Stops rest) :
    readFraction (fractionText ds ++ rest) = some (fractionNanos ds, rest) := by
  by_cases none : ds = []
  · subst none
    cases rest with
    | nil => rfl
    | cons c rest =>
        have point : c ≠ '.' := (stops c rfl).2
        simp [fractionText, readFraction, fractionNanos, natOfDigits, point]
  · have front : (ds ++ rest).takeWhile isDigit = ds ∧ (ds ++ rest).dropWhile isDigit = rest := by
      rw [List.takeWhile_append_of_pos digits, List.dropWhile_append_of_pos digits]
      cases rest with
      | nil => simp
      | cons c rest => simp [(stops c rfl).1]
    simp only [fractionText, if_neg none, List.cons_append, readFraction, front,
      List.isEmpty_iff]
    exact congrArg (fun n => some (n, rest)) (natOfDigits_take_nine digits)

/-- An offset as it is written: a mark for none, or a sign, hours and minutes. -/
inductive Zone where
  | utc (mark : Char)
  | apart (sign : Char) (hours minutes : List Char)

namespace Zone

def text : Zone → List Char
  | utc mark => [mark]
  | apart sign hours minutes => sign :: hours ++ ':' :: minutes

def Valid : Zone → Prop
  | utc mark => mark = 'Z' ∨ mark = 'z'
  | apart sign hours minutes =>
    (sign = '+' ∨ sign = '-' ∨ sign = '\u2212') ∧ Digits 2 hours ∧ Digits 2 minutes ∧
      natOfDigits hours ≤ 23 ∧ natOfDigits minutes ≤ 59

/-- How many minutes the local time is ahead. -/
def minutes : Zone → Int
  | utc _ => 0
  | apart sign hours minutes =>
    (if sign = '+' then 1 else -1) * (natOfDigits hours * 60 + natOfDigits minutes : Nat)

theorem Valid.stops {zone : Zone} (valid : zone.Valid) (rest : List Char) :
    Stops (zone.text ++ rest) := by
  intro c head
  cases zone with
  | utc mark =>
      cases head
      rcases valid with rfl | rfl <;> decide
  | apart sign hours minutes =>
      cases head
      rcases valid.1 with rfl | rfl | rfl <;> decide

end Zone

/-- Hours and minutes behind a sign. -/
theorem readHours_eq_some_iff {sign offset : Int} :
    ((readDigits 2 cs).bind fun hours => (readChar ':' hours.2).bind fun cs =>
      (readDigits 2 cs).bind fun minutes =>
        if (decide (hours.1 ≤ 23) && decide (minutes.1 ≤ 59)) = true then
          some (sign * (hours.1 * 3600 + minutes.1 * 60), minutes.2)
        else none) = some (offset, rest) ↔
      ∃ hours minutes, Digits 2 hours ∧ Digits 2 minutes ∧ natOfDigits hours ≤ 23 ∧
        natOfDigits minutes ≤ 59 ∧ cs = hours ++ ':' :: minutes ++ rest ∧
        offset = 60 * (sign * (natOfDigits hours * 60 + natOfDigits minutes : Nat)) := by
  simp only [Option.bind_eq_some_iff, Prod.exists, readDigits_eq_some_iff, readChar_eq_some_iff]
  constructor
  · rintro ⟨_, _, ⟨hours, fits, rfl, rfl⟩, _, rfl, _, _, ⟨minutes, fits', rfl, rfl⟩, found⟩
    split at found
    · rename_i within
      cases found
      simp only [Bool.and_eq_true, decide_eq_true_eq] at within
      refine ⟨hours, minutes, fits, fits', within.1, within.2, by simp, ?_⟩
      push_cast
      ring
    · contradiction
  · rintro ⟨hours, minutes, fits, fits', within, within', rfl, rfl⟩
    refine ⟨_, _, ⟨hours, fits, List.append_assoc _ _ _, rfl⟩, _, rfl, _, _,
      ⟨minutes, fits', rfl, rfl⟩, ?_⟩
    rw [if_pos (by simp [within, within'])]
    push_cast
    ring_nf

theorem readOffset_eq_some_iff {offset : Int} : readOffset cs = some (offset, rest) ↔
    ∃ zone : Zone, zone.Valid ∧ cs = zone.text ++ rest ∧ offset = 60 * zone.minutes := by
  cases cs with
  | nil =>
      constructor
      · intro found
        contradiction
      · rintro ⟨_ | _, _, text, _⟩ <;> simp [Zone.text] at text
  | cons c cs =>
      unfold readOffset
      simp only [Option.bind_eq_bind, Bool.or_eq_true, decide_eq_true_eq]
      constructor
      · intro found
        split at found
        · rename_i utc
          cases found
          exact ⟨.utc c, utc, rfl, rfl⟩
        · split at found
          · rename_i plus
            obtain ⟨hours, minutes, fits, fits', within, within', rfl, rfl⟩ :=
              readHours_eq_some_iff.mp found
            refine ⟨.apart c hours minutes, ⟨.inl plus, fits, fits', within, within'⟩, rfl, ?_⟩
            rw [Zone.minutes, if_pos plus]
          · rename_i signed
            split at found
            · rename_i minus
              obtain ⟨hours, minutes, fits, fits', within, within', rfl, rfl⟩ :=
                readHours_eq_some_iff.mp found
              refine ⟨.apart c hours minutes, ⟨.inr minus, fits, fits', within, within'⟩, rfl, ?_⟩
              rw [Zone.minutes, if_neg signed]
            · contradiction
      · rintro ⟨zone, valid, text, rfl⟩
        cases zone with
        | utc mark =>
            cases text
            exact if_pos valid
        | apart sign hours minutes =>
            obtain ⟨signs, fits, fits', within, within'⟩ := valid
            cases text
            rcases signs with rfl | minus
            · exact readHours_eq_some_iff.mpr ⟨hours, minutes, fits, fits', within, within', rfl, rfl⟩
            · have local_ : ¬ (c = 'Z' ∨ c = 'z') ∧ c ≠ '+' := by
                rcases minus with rfl | rfl <;> decide
              rw [if_neg local_.1, if_neg local_.2, if_pos minus, Zone.minutes, if_neg local_.2]
              exact readHours_eq_some_iff.mpr
                ⟨hours, minutes, fits, fits', within, within', rfl, rfl⟩

/-- A timestamp as it is written, all numbers in their digits. -/
structure Stamp where
  year : List Char
  month : List Char
  day : List Char
  separator : Char
  hour : List Char
  minute : List Char
  second : List Char
  fraction : List Char
  zone : Zone

namespace Stamp

def text (stamp : Stamp) : List Char :=
  stamp.year ++ '-' :: (stamp.month ++ '-' :: (stamp.day ++ stamp.separator ::
    (stamp.hour ++ ':' :: (stamp.minute ++ ':' :: (stamp.second ++
      (fractionText stamp.fraction ++ stamp.zone.text))))))

def date (stamp : Stamp) : Calendar.Date :=
  ⟨natOfDigits stamp.year, natOfDigits stamp.month, natOfDigits stamp.day⟩

/-- The instant that the timestamp names. -/
def instant (stamp : Stamp) : Instant :=
  let leap := natOfDigits stamp.second = 60
  { seconds := Calendar.dayNumber stamp.date * secondsPerDay +
      60 * (60 * natOfDigits stamp.hour + natOfDigits stamp.minute - stamp.zone.minutes) +
      if leap then 59 else natOfDigits stamp.second
    nanos := fractionNanos stamp.fraction + if leap then nanosPerSecond else 0 }

theorem instant_eq (stamp : Stamp) :
    let leap := if natOfDigits stamp.second = 60 then 1 else 0
    stamp.instant =
      ⟨Calendar.dayNumber stamp.date * secondsPerDay +
        (natOfDigits stamp.hour * 3600 + natOfDigits stamp.minute * 60 +
          (natOfDigits stamp.second - leap : Nat)) - 60 * stamp.zone.minutes,
        fractionNanos stamp.fraction + leap * nanosPerSecond⟩ := by
  unfold instant
  by_cases leap : natOfDigits stamp.second = 60
  · simp only [leap, if_true, Nat.one_mul, Instant.mk.injEq, and_true]
    omega
  · simp only [leap, if_false, Nat.zero_mul, Instant.mk.injEq, and_true]
    omega

structure Valid (stamp : Stamp) : Prop where
  year : Digits 4 stamp.year
  month : Digits 2 stamp.month
  day : Digits 2 stamp.day
  separator : stamp.separator ∈ separators
  hour : Digits 2 stamp.hour
  minute : Digits 2 stamp.minute
  second : Digits 2 stamp.second
  fraction : ∀ d ∈ stamp.fraction, isDigit d
  zone : stamp.zone.Valid
  date : stamp.date.isValid
  hour_le : natOfDigits stamp.hour ≤ 23
  minute_le : natOfDigits stamp.minute ≤ 59
  second_le : natOfDigits stamp.second ≤ 60

end Stamp

variable {α : Type} {a : α}

theorem bind_readDigits {next : Nat × List Char → Option α} :
    (readDigits count cs >>= next) = some a ↔
      ∃ ds, Digits count ds ∧ ∃ rest, cs = ds ++ rest ∧ next (natOfDigits ds, rest) = some a := by
  simp only [Option.bind_eq_bind, Option.bind_eq_some_iff, Prod.exists, readDigits_eq_some_iff]
  constructor
  · rintro ⟨_, rest, ⟨ds, fits, text, rfl⟩, found⟩
    exact ⟨ds, fits, rest, text, found⟩
  · rintro ⟨ds, fits, rest, text, found⟩
    exact ⟨_, rest, ⟨ds, fits, text, rfl⟩, found⟩

theorem bind_readChar {c : Char} {next : List Char → Option α} :
    (readChar c cs >>= next) = some a ↔ ∃ rest, cs = c :: rest ∧ next rest = some a := by
  simp only [Option.bind_eq_bind, Option.bind_eq_some_iff, readChar_eq_some_iff]

theorem bind_readSeparator {next : List Char → Option α} :
    ((readChar 'T' cs <|> readChar 't' cs <|> readChar ' ' cs) >>= next) = some a ↔
      ∃ c ∈ separators, ∃ rest, cs = c :: rest ∧ next rest = some a := by
  simp only [Option.bind_eq_bind, Option.bind_eq_some_iff, readSeparator_eq_some_iff]
  constructor
  · rintro ⟨rest, ⟨c, separates, text⟩, found⟩
    exact ⟨c, separates, rest, text, found⟩
  · rintro ⟨c, separates, rest, text, found⟩
    exact ⟨rest, ⟨c, separates, text⟩, found⟩

/-- The reader accepts the texts of timestamps and nothing else. -/
theorem read_eq_some_iff {at_ : Instant} :
    read cs = some at_ ↔ ∃ stamp : Stamp, stamp.Valid ∧ stamp.text = cs ∧ stamp.instant = at_ := by
  simp only [read, bind_readDigits, bind_readChar, bind_readSeparator]
  constructor
  · rintro ⟨year, fitsYear, _, rfl, _, rfl, month, fitsMonth, _, rfl, _, rfl, day, fitsDay, _, rfl,
      separator, separates, _, rfl, hour, fitsHour, _, rfl, _, rfl, minute, fitsMinute, _, rfl, _,
      rfl, second, fitsSecond, _, rfl, found⟩
    obtain ⟨⟨nanos, zoned⟩, fractional, found⟩ := Option.bind_eq_some_iff.mp found
    obtain ⟨fraction, digits, rfl, rfl⟩ := fraction_of_readFraction fractional
    obtain ⟨⟨offset, after⟩, local_, found⟩ := Option.bind_eq_some_iff.mp found
    obtain ⟨zone, valid, rfl, rfl⟩ := readOffset_eq_some_iff.mp local_
    dsimp only at found
    split at found
    · contradiction
    · rename_i passed
      simp only [Bool.or_eq_true, Bool.not_eq_true', decide_eq_true_eq, not_or, Bool.not_eq_false,
        Nat.not_lt, List.isEmpty_iff] at passed
      obtain ⟨⟨⟨⟨rfl, date⟩, hourLe⟩, minuteLe⟩, secondLe⟩ := passed
      cases found
      exact ⟨⟨year, month, day, separator, hour, minute, second, fraction, zone⟩,
        ⟨fitsYear, fitsMonth, fitsDay, separates, fitsHour, fitsMinute, fitsSecond, digits, valid,
          date, hourLe, minuteLe, secondLe⟩, by simp [Stamp.text], Stamp.instant_eq _⟩
  · rintro ⟨stamp, valid, rfl, rfl⟩
    refine ⟨_, valid.year, _, rfl, _, rfl, _, valid.month, _, rfl, _, rfl, _, valid.day, _, rfl, _,
      valid.separator, _, rfl, _, valid.hour, _, rfl, _, rfl, _, valid.minute, _, rfl, _, rfl, _,
      valid.second, _, rfl, ?_⟩
    have stops : Stops stamp.zone.text := List.append_nil stamp.zone.text ▸ valid.zone.stops []
    have zoned : readOffset stamp.zone.text = some (60 * stamp.zone.minutes, []) :=
      readOffset_eq_some_iff.mpr ⟨stamp.zone, valid.zone, (List.append_nil _).symm, rfl⟩
    have date : Calendar.Date.isValid ⟨natOfDigits stamp.year, natOfDigits stamp.month,
      natOfDigits stamp.day⟩ = true := valid.date
    rw [readFraction_append valid.fraction stops, Option.bind_eq_bind, Option.bind_some, zoned,
      Option.bind_eq_bind, Option.bind_some, if_neg, stamp.instant_eq]
    · rfl
    · simp [date, valid.hour_le, valid.minute_le, valid.second_le]

/-- A timestamp can be read exactly if its text is that of one, and the canonical form is that of the
instant that it names. -/
theorem normalize_eq_some_iff {raw canonical : String} : normalize raw = some canonical ↔
    ∃ stamp : Stamp, stamp.Valid ∧ stamp.text = raw.toList ∧ stamp.instant.text = canonical := by
  rw [normalize, Option.map_eq_some_iff]
  simp only [read_eq_some_iff]
  constructor
  · rintro ⟨_, ⟨stamp, valid, text, rfl⟩, same⟩
    exact ⟨stamp, valid, text, same⟩
  · rintro ⟨stamp, valid, text, same⟩
    exact ⟨_, ⟨stamp, valid, text, rfl⟩, same⟩

end Instant

end Switchboard
