/-!
Numerals.  `decimal` writes a natural number in base ten without leading zeros and `natOfDigits`
reads it back.
-/

namespace Switchboard.Text

/-- The character of a digit below sixteen, in lower case. -/
def digitChar (n : Nat) : Char :=
  if n < 10 then Char.ofNat (48 + n) else Char.ofNat (87 + n)

/-- Base-`b` digits, most significant first; at least one digit. -/
def digits (b : Nat) (n : Nat) : List Char :=
  if _h : n < b ∨ b < 2 then [digitChar n]
  else digits b (n / b) ++ [digitChar (n % b)]
termination_by n
decreasing_by exact Nat.div_lt_self (by omega) (by omega)

def decimal (n : Nat) : List Char := digits 10 n

def hexadecimal (n : Nat) : List Char := digits 16 n

/-- Pads on the left with `0` up to `width` characters. -/
def padded (width : Nat) (cs : List Char) : List Char :=
  List.replicate (width - cs.length) '0' ++ cs

def intDecimal : Int → List Char
  | .ofNat n => decimal n
  | .negSucc n => '-' :: decimal (n + 1)

def isDigit (c : Char) : Bool := '0' ≤ c && c ≤ '9'

def digitValue (c : Char) : Nat := c.toNat - 48

/-- The value of a run of decimal digits. -/
def natOfDigits (cs : List Char) : Nat :=
  cs.foldl (fun n c => 10 * n + digitValue c) 0

/-- The value of a hexadecimal digit in either case. -/
def hexValue (c : Char) : Option Nat :=
  if isDigit c then some (digitValue c)
  else if 'a' ≤ c && c ≤ 'f' then some (c.toNat - 87)
  else if 'A' ≤ c && c ≤ 'F' then some (c.toNat - 55)
  else none

/-- Reads an unsigned integer below `bound`: an optional `+`, then one or more decimal digits. -/
def natBelow? (bound : Nat) (text : String) : Option Nat :=
  let cs := match text.toList with
    | '+' :: rest => rest
    | cs => cs
  if cs.isEmpty || !cs.all isDigit then none
  else
    let n := natOfDigits cs
    if n < bound then some n else none

theorem digitValue_digitChar {n : Nat} (h : n < 10) : digitValue (digitChar n) = n := by
  have : ∀ m, m < 10 → digitValue (digitChar m) = m := by decide
  exact this n h

theorem isDigit_digitChar {n : Nat} (h : n < 10) : isDigit (digitChar n) = true := by
  have : ∀ m, m < 10 → isDigit (digitChar m) = true := by decide
  exact this n h

theorem natOfDigits_append (xs : List Char) (c : Char) :
    natOfDigits (xs ++ [c]) = 10 * natOfDigits xs + digitValue c := by
  simp [natOfDigits]

theorem natOfDigits_decimal (n : Nat) : natOfDigits (decimal n) = n := by
  unfold decimal
  induction n using Nat.strongRecOn with
  | ind n ih =>
    rw [digits]
    split
    · have : n < 10 := by omega
      simp [natOfDigits, digitValue_digitChar this]
    · rw [natOfDigits_append, ih (n / 10) (by omega), digitValue_digitChar (by omega)]
      omega

theorem isDigit_of_mem_decimal (n : Nat) : ∀ c ∈ decimal n, isDigit c = true := by
  unfold decimal
  induction n using Nat.strongRecOn with
  | ind n ih =>
    intro c hc
    rw [digits] at hc
    split at hc
    · rw [List.mem_singleton] at hc
      exact hc ▸ isDigit_digitChar (by omega)
    · rcases List.mem_append.1 hc with hc | hc
      · exact ih (n / 10) (by omega) c hc
      · rw [List.mem_singleton] at hc
        exact hc ▸ isDigit_digitChar (by omega)

theorem decimal_ne_nil (n : Nat) : decimal n ≠ [] := by
  unfold decimal
  rw [digits]
  split <;> simp

end Switchboard.Text
