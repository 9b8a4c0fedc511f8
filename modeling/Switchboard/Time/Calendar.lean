/-!
Days counted from 1970-01-01 and their dates in the proleptic Gregorian calendar.  Main statements:
the year of a day is the one whose first day is not after it and whose successor's is, and
`dayNumber` undoes `dateOf`.
-/

namespace Switchboard.Calendar

/-- A date by year, month (from 1) and day (from 1). -/
structure Date where
  year : Int
  month : Nat
  day : Nat
deriving Repr, DecidableEq, Inhabited

def isLeap (year : Int) : Bool :=
  year % 4 == 0 && (year % 100 != 0 || year % 400 == 0)

/-- Lengths of the months. -/
def monthLengths (leap : Bool) : List Nat :=
  [31, if leap then 29 else 28, 31, 30, 31, 30, 31, 31, 30, 31, 30, 31]

/-- Days from 0000-01-01 to the first day of a year. -/
def daysBefore (year : Int) : Int :=
  365 * year + (year + 3) / 4 - (year + 99) / 100 + (year + 399) / 400

/-- Days from 0000-01-01 to 1970-01-01. -/
def epoch : Int := 719528

/-- The year of a day counted from 0000-01-01: an estimate by the mean length of a year is off by
one at most. -/
def yearOf (day : Int) : Int :=
  let guess := 400 * day / 146097
  if day < daysBefore guess then guess - 1
  else if daysBefore (guess + 1) ≤ day then guess + 1
  else guess

/-- Month and day, both from 1, of a day within a year counted from 0; `month` is the number of the
first length. -/
def monthAndDay (month : Nat) : List Nat → Nat → Nat × Nat
  | [], day => (month, day + 1)
  | length :: rest, day =>
    if day < length then (month, day + 1) else monthAndDay (month + 1) rest (day - length)

def dateOf (day : Int) : Date :=
  let day := day + epoch
  let year := yearOf day
  let (month, d) := monthAndDay 1 (monthLengths (isLeap year)) (day - daysBefore year).toNat
  ⟨year, month, d⟩

/-- Whether month and day exist in the year. -/
def Date.isValid (date : Date) : Bool :=
  match (monthLengths (isLeap date.year))[date.month - 1]? with
  | some length => 1 ≤ date.month && 1 ≤ date.day && date.day ≤ length
  | none => false

/-- The days of some months. -/
def total (lengths : List Nat) : Nat := lengths.foldr (· + ·) 0

def dayNumber (date : Date) : Int :=
  daysBefore date.year + total ((monthLengths (isLeap date.year)).take (date.month - 1)) +
    date.day - 1 - epoch

theorem daysBefore_succ (year : Int) :
    daysBefore (year + 1) = daysBefore year + if isLeap year then 366 else 365 := by
  simp only [daysBefore, isLeap, Bool.and_eq_true, Bool.or_eq_true, beq_iff_eq, bne_iff_ne]
  split <;> omega

theorem daysBefore_yearOf_le (day : Int) : daysBefore (yearOf day) ≤ day := by
  unfold yearOf
  dsimp only
  by_cases low : day < daysBefore (400 * day / 146097)
  · rw [if_pos low]
    unfold daysBefore at low ⊢
    omega
  · rw [if_neg low]
    split
    · assumption
    · omega

theorem lt_daysBefore_yearOf_succ (day : Int) : day < daysBefore (yearOf day + 1) := by
  unfold yearOf
  dsimp only
  by_cases low : day < daysBefore (400 * day / 146097)
  · rw [if_pos low, Int.sub_add_cancel]
    exact low
  · rw [if_neg low]
    by_cases high : daysBefore (400 * day / 146097 + 1) ≤ day
    · rw [if_pos high]
      unfold daysBefore
      omega
    · rw [if_neg high]
      omega

@[simp] theorem total_nil : total [] = 0 := rfl

theorem total_cons (length : Nat) (rest : List Nat) :
    total (length :: rest) = length + total rest := rfl

theorem monthAndDay_bounds (month : Nat) (lengths : List Nat) (day : Nat)
    (inside : day < total lengths) :
    month ≤ (monthAndDay month lengths day).1 ∧
      total (lengths.take ((monthAndDay month lengths day).1 - month)) +
        (monthAndDay month lengths day).2 = day + 1 ∧
      1 ≤ (monthAndDay month lengths day).2 ∧
      ∃ length, lengths[(monthAndDay month lengths day).1 - month]? = some length ∧
        (monthAndDay month lengths day).2 ≤ length := by
  induction lengths generalizing month day with
  | nil => simp at inside
  | cons length rest ih =>
    by_cases here : day < length
    · simp only [monthAndDay, here, if_true]
      refine ⟨Nat.le_refl _, by simp, by omega, length, by simp, by omega⟩
    · rw [total_cons] at inside
      obtain ⟨le, sum, pos, l, get, bound⟩ := ih (month + 1) (day - length) (by omega)
      simp only [monthAndDay, here, if_false]
      have step : (monthAndDay (month + 1) rest (day - length)).1 - month =
          (monthAndDay (month + 1) rest (day - length)).1 - (month + 1) + 1 := by omega
      refine ⟨by omega, ?_, pos, l, ?_, bound⟩
      · rw [step, List.take_succ_cons, total_cons]
        omega
      · rw [step, List.getElem?_cons_succ]
        exact get

theorem total_monthLengths (leap : Bool) :
    total (monthLengths leap) = if leap then 366 else 365 := by
  cases leap <;> rfl

theorem dayNumber_dateOf (day : Int) : dayNumber (dateOf day) = day := by
  have low := daysBefore_yearOf_le (day + epoch)
  have high := lt_daysBefore_yearOf_succ (day + epoch)
  rw [daysBefore_succ] at high
  have inside : ((day + epoch) - daysBefore (yearOf (day + epoch))).toNat <
      total (monthLengths (isLeap (yearOf (day + epoch)))) := by
    rw [total_monthLengths]
    split <;> simp_all <;> omega
  obtain ⟨_, sum, _, _⟩ := monthAndDay_bounds 1 _ _ inside
  simp only [dayNumber, dateOf]
  omega

theorem isValid_dateOf (day : Int) : (dateOf day).isValid = true := by
  have low := daysBefore_yearOf_le (day + epoch)
  have high := lt_daysBefore_yearOf_succ (day + epoch)
  rw [daysBefore_succ] at high
  have inside : ((day + epoch) - daysBefore (yearOf (day + epoch))).toNat <
      total (monthLengths (isLeap (yearOf (day + epoch)))) := by
    rw [total_monthLengths]
    split <;> simp_all <;> omega
  obtain ⟨month, _, first, length, get, last⟩ := monthAndDay_bounds 1 _ _ inside
  simp [Date.isValid, dateOf, get, month, first, last]

end Switchboard.Calendar
