import Mathlib.Data.List.Basic
import Switchboard.Time.Calendar

/-!
The order of dates.

Later days have later dates: the year counts first, then the month, then the day of the month.
-/

namespace Switchboard.Calendar

/-- By year first, then by month, then by day. -/
def Date.Before (a b : Date) : Prop :=
  a.year < b.year ∨ a.year = b.year ∧ (a.month < b.month ∨ a.month = b.month ∧ a.day < b.day)

variable {a b : Date}

theorem Date.before_trichotomy (a b : Date) : a.Before b ∨ a = b ∨ b.Before a := by
  obtain ⟨year, month, day⟩ := a
  obtain ⟨year', month', day'⟩ := b
  simp only [Before, mk.injEq]
  omega

theorem total_take_succ {lengths : List Nat} {i length : Nat} (get : lengths[i]? = some length) :
    total (lengths.take (i + 1)) = total (lengths.take i) + length := by
  induction lengths generalizing i with
  | nil => simp at get
  | cons first rest ih =>
      cases i with
      | zero =>
          cases get
          simp [total]
      | succ i =>
          rw [List.getElem?_cons_succ] at get
          rw [List.take_succ_cons, List.take_succ_cons, total_cons, total_cons, ih get,
            Nat.add_assoc]

theorem total_take_le (lengths : List Nat) {i j : Nat} (le : i ≤ j) :
    total (lengths.take i) ≤ total (lengths.take j) := by
  induction lengths generalizing i j with
  | nil => simp
  | cons first rest ih =>
      cases i with
      | zero => simp
      | succ i =>
          cases j with
          | zero => omega
          | succ j =>
              rw [List.take_succ_cons, List.take_succ_cons, total_cons, total_cons]
              exact Nat.add_le_add_left (ih (by omega)) first

/-- The days of the year up to a date, itself included. -/
def Date.dayOfYear (date : Date) : Nat :=
  total ((monthLengths (isLeap date.year)).take (date.month - 1)) + date.day

theorem dayNumber_eq (date : Date) :
    dayNumber date = daysBefore date.year + date.dayOfYear - 1 - epoch := by
  simp only [dayNumber, Date.dayOfYear]
  omega

theorem Date.of_isValid (valid : a.isValid) :
    1 ≤ a.month ∧ 1 ≤ a.day ∧
      ∃ length, (monthLengths (isLeap a.year))[a.month - 1]? = some length ∧ a.day ≤ length := by
  unfold isValid at valid
  split at valid
  · rename_i length get
    simp only [Bool.and_eq_true, decide_eq_true_eq] at valid
    exact ⟨valid.1.1, valid.1.2, length, get, valid.2⟩
  · contradiction

/-- A date lies within its month. -/
theorem Date.dayOfYear_le (valid : a.isValid) :
    a.dayOfYear ≤ total ((monthLengths (isLeap a.year)).take a.month) := by
  obtain ⟨month, -, length, get, last⟩ := of_isValid valid
  have whole := total_take_succ get
  rw [Nat.sub_add_cancel month] at whole
  rw [whole]
  exact Nat.add_le_add_left last _

theorem Date.dayOfYear_le_total (valid : a.isValid) :
    a.dayOfYear ≤ total (monthLengths (isLeap a.year)) := by
  have whole := total_take_le (monthLengths (isLeap a.year))
    (Nat.le_max_left a.month (monthLengths (isLeap a.year)).length)
  rw [List.take_of_length_le (Nat.le_max_right _ _)] at whole
  exact Nat.le_trans (dayOfYear_le valid) whole

theorem Date.month_le (valid : a.isValid) : a.month ≤ 12 := by
  obtain ⟨month, -, length, get, -⟩ := of_isValid valid
  obtain ⟨within, -⟩ := List.getElem?_eq_some_iff.mp get
  have twelve : (monthLengths (isLeap a.year)).length = 12 := rfl
  omega

theorem Date.day_le (valid : a.isValid) : a.day ≤ 31 := by
  obtain ⟨-, -, length, get, last⟩ := of_isValid valid
  have longest : ∀ leap, ∀ length ∈ monthLengths leap, length ≤ 31 := by decide
  exact Nat.le_trans last (longest _ length (List.mem_of_getElem? get))

theorem daysBefore_succ_eq (year : Int) :
    daysBefore (year + 1) = daysBefore year + total (monthLengths (isLeap year)) := by
  rw [daysBefore_succ, total_monthLengths]
  split <;> rfl

theorem daysBefore_mono {year year' : Int} (le : year ≤ year') :
    daysBefore year ≤ daysBefore year' := by
  unfold daysBefore
  omega

theorem yearOf_mono {day day' : Int} (le : day ≤ day') : yearOf day ≤ yearOf day' := by
  by_contra later
  have next := daysBefore_mono (show yearOf day' + 1 ≤ yearOf day by omega)
  have low := daysBefore_yearOf_le day
  have high := lt_daysBefore_yearOf_succ day'
  omega

theorem year_dateOf_mono {day day' : Int} (le : day ≤ day') :
    (dateOf day).year ≤ (dateOf day').year :=
  yearOf_mono (Int.add_le_add_right le epoch)

theorem dayNumber_lt_of_before (valid : a.isValid) (valid' : b.isValid) (before : a.Before b) :
    dayNumber a < dayNumber b := by
  obtain ⟨month', day', -⟩ := Date.of_isValid valid'
  rw [dayNumber_eq, dayNumber_eq]
  rcases before with earlier | ⟨year, earlier | ⟨month, earlier⟩⟩
  · have within := Date.dayOfYear_le_total valid
    have next := daysBefore_mono (show a.year + 1 ≤ b.year by omega)
    have first : 1 ≤ b.dayOfYear := by
      unfold Date.dayOfYear
      omega
    rw [daysBefore_succ_eq] at next
    omega
  · have within := Date.dayOfYear_le valid
    have next := total_take_le (monthLengths (isLeap b.year))
      (show a.month ≤ b.month - 1 by omega)
    have later : total ((monthLengths (isLeap b.year)).take (b.month - 1)) + b.day =
        b.dayOfYear := rfl
    rw [year] at within ⊢
    omega
  · have same : a.dayOfYear + b.day = b.dayOfYear + a.day := by
      simp only [Date.dayOfYear, year, month]
      omega
    rw [year]
    omega

theorem dayNumber_lt_iff (valid : a.isValid) (valid' : b.isValid) :
    dayNumber a < dayNumber b ↔ a.Before b := by
  refine ⟨?_, dayNumber_lt_of_before valid valid'⟩
  intro lt
  rcases a.before_trichotomy b with before | rfl | after
  · exact before
  · omega
  · have gt := dayNumber_lt_of_before valid' valid after
    omega

theorem before_dateOf_iff {day day' : Int} : (dateOf day).Before (dateOf day') ↔ day < day' := by
  rw [← dayNumber_lt_iff (isValid_dateOf day) (isValid_dateOf day'), dayNumber_dateOf,
    dayNumber_dateOf]

theorem dateOf_inj {day day' : Int} : dateOf day = dateOf day' ↔ day = day' := by
  constructor
  · intro same
    rw [← dayNumber_dateOf day, same, dayNumber_dateOf]
  · exact congrArg dateOf

end Switchboard.Calendar
