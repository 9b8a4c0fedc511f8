import Mathlib.Algebra.Group.Nat.Defs
import Mathlib.Data.List.Forall2
import Switchboard.Text.Digits

/-!
Numbers in columns.

Numbers that are padded to the width of their column are in the order of their texts, and so are lists
of numbers that are written column by column, the first column counting most.
-/

namespace Switchboard.Text

/-- Among lists that begin with parts of one length, these parts decide first. -/
theorem append_lt_append_iff {α : Type} [LT α] [Std.Irrefl (α := α) (· < ·)] {as bs xs ys : List α}
    (same : as.length = bs.length) : as ++ xs < bs ++ ys ↔ as < bs ∨ as = bs ∧ xs < ys := by
  induction as generalizing bs with
  | nil =>
      obtain rfl := List.length_eq_zero_iff.mp same.symm
      simp
  | cons a as ih =>
      cases bs with
      | nil => contradiction
      | cons b bs =>
          rw [List.length_cons, List.length_cons, Nat.succ_inj] at same
          rw [List.cons_append, List.cons_append, List.cons_lt_cons_iff, List.cons_lt_cons_iff,
            List.cons.injEq, ih same]
          tauto

theorem digitChar_lt_iff {m n : Nat} (hm : m < 10) (hn : n < 10) :
    digitChar m < digitChar n ↔ m < n := by
  have all : ∀ m < 10, ∀ n < 10, digitChar m < digitChar n ↔ m < n := by decide
  exact all m hm n hn

theorem digitChar_inj {m n : Nat} (hm : m < 10) (hn : n < 10) :
    digitChar m = digitChar n ↔ m = n := by
  have all : ∀ m < 10, ∀ n < 10, digitChar m = digitChar n ↔ m = n := by decide
  exact all m hm n hn

theorem decimal_of_lt {n : Nat} (small : n < 10) : decimal n = [digitChar n] := by
  unfold decimal
  rw [digits, dif_pos (.inl small)]

theorem decimal_of_le {n : Nat} (large : 10 ≤ n) :
    decimal n = decimal (n / 10) ++ [digitChar (n % 10)] := by
  unfold decimal
  rw [digits, dif_neg (by omega)]

theorem head?_decimal_ne_zero {n : Nat} (large : 10 ≤ n) : (decimal n).head? ≠ some '0' := by
  induction n using Nat.strongRecOn with
  | ind n ih =>
      rw [decimal_of_le large, List.head?_append_of_ne_nil _ (decimal_ne_nil _)]
      by_cases small : n / 10 < 10
      · have nonzero : ∀ k < 10, 0 < k → digitChar k ≠ '0' := by decide
        rw [decimal_of_lt small, List.head?_cons, ne_eq, Option.some.injEq]
        exact nonzero _ small (by omega)
      · exact ih (n / 10) (by omega) (by omega)

/-- The last digit stands alone behind a narrower column. -/
theorem padded_decimal_succ (width n : Nat) :
    padded (width + 2) (decimal n) =
      padded (width + 1) (decimal (n / 10)) ++ [digitChar (n % 10)] := by
  by_cases small : n < 10
  · have none : n / 10 = 0 := by omega
    have all : n % 10 = n := by omega
    rw [none, all, decimal_of_lt small, decimal_of_lt (by omega)]
    simp [padded, List.replicate_succ', digitChar]
  · rw [decimal_of_le (by omega)]
    simp [padded]

theorem length_padded_decimal {width n : Nat} (fits : n < 10 ^ (width + 1)) :
    (padded (width + 1) (decimal n)).length = width + 1 := by
  induction width generalizing n with
  | zero => simp [padded, decimal_of_lt (show n < 10 by omega)]
  | succ width ih =>
      rw [padded_decimal_succ, List.length_append, ih (by omega)]
      rfl

theorem padded_decimal_inj {width m n : Nat} (hm : m < 10 ^ (width + 1))
    (hn : n < 10 ^ (width + 1)) :
    padded (width + 1) (decimal m) = padded (width + 1) (decimal n) ↔ m = n := by
  induction width generalizing m n with
  | zero =>
      have hm : m < 10 := by omega
      have hn : n < 10 := by omega
      simp [padded, decimal_of_lt hm, decimal_of_lt hn, digitChar_inj hm hn]
  | succ width ih =>
      rw [padded_decimal_succ, padded_decimal_succ, List.append_singleton_inj,
        ih (by omega) (by omega), digitChar_inj (by omega) (by omega)]
      omega

theorem padded_decimal_lt_iff {width m n : Nat} (hm : m < 10 ^ (width + 1))
    (hn : n < 10 ^ (width + 1)) :
    padded (width + 1) (decimal m) < padded (width + 1) (decimal n) ↔ m < n := by
  induction width generalizing m n with
  | zero =>
      have hm : m < 10 := by omega
      have hn : n < 10 := by omega
      simp [padded, decimal_of_lt hm, decimal_of_lt hn, digitChar_lt_iff hm hn,
        List.cons_lt_cons_iff]
  | succ width ih =>
      have hm' : m / 10 < 10 ^ (width + 1) := by omega
      have hn' : n / 10 < 10 ^ (width + 1) := by omega
      have same : (padded (width + 1) (decimal (m / 10))).length =
          (padded (width + 1) (decimal (n / 10))).length := by
        rw [length_padded_decimal hm', length_padded_decimal hn']
      rw [padded_decimal_succ, padded_decimal_succ, append_lt_append_iff same, ih hm' hn',
        padded_decimal_inj hm' hn', List.cons_lt_cons_iff,
        digitChar_lt_iff (by omega) (by omega)]
      simp only [List.not_lt_nil, and_false, or_false]
      omega

theorem isDigit_of_mem_padded (width n : Nat) : ∀ c ∈ padded width (decimal n), isDigit c := by
  intro c member
  rcases List.mem_append.mp member with filler | digit
  · rw [List.eq_of_mem_replicate filler]
    rfl
  · exact isDigit_of_mem_decimal n c digit

theorem padded_decimal_ne_nil (width n : Nat) : padded width (decimal n) ≠ [] :=
  List.append_ne_nil_of_right_ne_nil _ (decimal_ne_nil n)

/-- A column is as wide as its numbers have digits, and is closed by a mark. -/
structure Column where
  width : Nat
  mark : Char

def Column.Fits (column : Column) (n : Nat) : Prop := 0 < column.width ∧ n < 10 ^ column.width

def inColumns : List Column → List Nat → List Char
  | column :: columns, n :: ns => padded column.width (decimal n) ++ column.mark :: inColumns columns ns
  | _, _ => []

theorem inColumns_lt_iff {columns : List Column} {ms ns : List Nat}
    (fits : List.Forall₂ Column.Fits columns ms) (fits' : List.Forall₂ Column.Fits columns ns) :
    inColumns columns ms < inColumns columns ns ↔ ms < ns := by
  induction fits generalizing ns with
  | nil =>
      cases fits'
      exact iff_of_false (List.not_lt_nil _) (List.not_lt_nil _)
  | @cons column m columns ms fit _ ih =>
      cases fits' with
      | @cons _ n _ ns fit' rest' =>
          obtain ⟨_ | width, mark⟩ := column
          · exact absurd fit.1 (Nat.lt_irrefl 0)
          have hm : m < 10 ^ (width + 1) := fit.2
          have hn : n < 10 ^ (width + 1) := fit'.2
          have same : (padded (width + 1) (decimal m)).length =
              (padded (width + 1) (decimal n)).length := by
            rw [length_padded_decimal hm, length_padded_decimal hn]
          rw [inColumns, inColumns, append_lt_append_iff same, padded_decimal_lt_iff hm hn,
            padded_decimal_inj hm hn, List.cons_lt_cons_iff, List.cons_lt_cons_iff, ih rest']
          simp

end Switchboard.Text
