import Mathlib.Algebra.Group.Nat.Defs
import Mathlib.Data.List.DropRight
import Switchboard.Json.Text
import Switchboard.Proofs.Json.Ordered
import Switchboard.Proofs.Text.Columns

/-!
Numerals in a text.

A numeral ends where nothing that follows can go on with it, so it is read in the same way alone and
before a comma or a closing bracket.  The text of an integer that fits its word is read as that integer.
-/

namespace Switchboard.Json

open Text (decimal digitChar isDigit digitValue natOfDigits)

variable {cs rest left : List Char} {negative : Bool} {n significand : Nat} {exponent : Int}
  {number : Number}

/-- Nothing follows, or a character that no numeral goes on with. -/
def Closes (rest : List Char) : Prop :=
  ∀ c ∈ rest.head?, ¬ isDigit c ∧ c ≠ '.' ∧ c ≠ 'e' ∧ c ≠ 'E'

theorem closes_nil : Closes [] := nofun

theorem closes_cons {c : Char} (stop : ¬ isDigit c ∧ c ≠ '.' ∧ c ≠ 'e' ∧ c ≠ 'E') :
    Closes (c :: rest) := by
  rintro _ ⟨⟩
  exact stop

theorem Closes.startsWithDigit (closes : Closes rest) (cs : List Char) :
    startsWithDigit (cs ++ rest) = startsWithDigit cs := by
  cases cs with
  | nil =>
      cases rest with
      | nil => rfl
      | cons c rest => exact Bool.eq_false_iff.mpr (closes c rfl).1
  | cons c cs => rfl

theorem Closes.digits (closes : Closes rest) (cs : List Char) :
    (cs ++ rest).takeWhile isDigit = cs.takeWhile isDigit ∧
      (cs ++ rest).dropWhile isDigit = cs.dropWhile isDigit ++ rest := by
  induction cs with
  | nil =>
      cases rest with
      | nil => exact ⟨rfl, rfl⟩
      | cons c rest => simp [(closes c rfl).1]
  | cons c cs ih => by_cases digit : isDigit c <;> simp [digit, ih]

theorem Closes.takeWord (closes : Closes rest) (n count : Nat) (cs : List Char) :
    takeWord n count (cs ++ rest) =
      ((takeWord n count cs).1, (takeWord n count cs).2.1, (takeWord n count cs).2.2 ++ rest) := by
  induction cs generalizing n count with
  | nil =>
      cases rest with
      | nil => rfl
      | cons c rest => simp [Json.takeWord, (closes c rfl).1]
  | cons c cs ih =>
      rw [List.cons_append, Json.takeWord, Json.takeWord]
      split
      · exact ih _ _
      · rfl

/-- Whether an exponent goes down, and its digits. -/
def signed : List Char → Bool × List Char
  | '+' :: cs => (false, cs)
  | '-' :: cs => (true, cs)
  | cs => (false, cs)

theorem signed_append (some_ : (signed cs).2 ≠ []) (rest : List Char) :
    signed (cs ++ rest) = ((signed cs).1, (signed cs).2 ++ rest) := by
  cases cs with
  | nil => exact absurd rfl some_
  | cons c cs =>
      by_cases plus : c = '+'
      · subst plus
        rfl
      · by_cases minus : c = '-'
        · subst minus
          rfl
        · simp [signed, plus, minus]

/-- The exponent of a numeral after its sign. -/
def readPower (negative : Bool) (significand : Nat) (before : Int) (down : Bool) (cs : List Char) :
    Except ReadError (Number × List Char) := do
  if cs.isEmpty then throw .ended
  if !startsWithDigit cs then throw .malformed
  let e := natOfDigits (cs.takeWhile isDigit)
  let rest := cs.dropWhile isDigit
  if exponentBound < e then
    if significand ≠ 0 && !down then throw .malformed
    return (.float (.zero negative), rest)
  let exponent := clampExponent (if down then before - e else before + e)
  return (← floatOf negative significand exponent, rest)

theorem readExponent_eq (before : Int) : readExponent negative significand before cs =
    readPower negative significand before (signed cs).1 (signed cs).2 := rfl

theorem readPower_append {before : Int} {down : Bool}
    (done : readPower negative significand before down cs = .ok (number, left))
    (closes : Closes rest) :
    readPower negative significand before down (cs ++ rest) = .ok (number, left ++ rest) := by
  have some_ : cs ≠ [] := by
    rintro rfl
    contradiction
  obtain ⟨front, back⟩ := closes.digits cs
  unfold readPower at done ⊢
  simp only [front, back, closes.startsWithDigit, List.isEmpty_iff, List.append_eq_nil_iff, some_,
    false_and, if_false] at done ⊢
  split at done
  · contradiction
  · rename_i digit
    split at done
    · rename_i far
      split at done
      · contradiction
      · rename_i kept
        cases done
        simp only [digit, far, kept, if_true]
        rfl
    · rename_i near
      obtain ⟨x, found, same⟩ := bind_eq_ok.mp done
      cases same
      simp only [digit, near, if_false, found]
      rfl

theorem readExponent_append {before : Int}
    (done : readExponent negative significand before cs = .ok (number, left))
    (closes : Closes rest) :
    readExponent negative significand before (cs ++ rest) = .ok (number, left ++ rest) := by
  rw [readExponent_eq] at done ⊢
  have some_ : (signed cs).2 ≠ [] := by
    intro none
    rw [none] at done
    contradiction
  rw [signed_append some_]
  exact readPower_append done closes

theorem readTail_of_plain (lower : ∀ cs', cs ≠ 'e' :: cs') (upper : ∀ cs', cs ≠ 'E' :: cs') :
    readTail negative significand exponent cs =
      (floatOf negative significand exponent).map fun x => (x, cs) := by
  unfold readTail
  split
  · exact absurd rfl (lower _)
  · exact absurd rfl (upper _)
  · cases floatOf negative significand exponent <;> rfl

theorem Closes.ne_cons {c : Char} (closes : Closes rest)
    (goesOn : isDigit c ∨ c = '.' ∨ c = 'e' ∨ c = 'E') (other : ∀ cs', cs ≠ c :: cs')
    (cs' : List Char) : cs ++ rest ≠ c :: cs' := by
  intro same
  cases cs with
  | nil =>
      rw [List.nil_append] at same
      have stop := closes c (by rw [same]; rfl)
      rcases goesOn with h | h | h | h
      · exact stop.1 h
      · exact stop.2.1 h
      · exact stop.2.2.1 h
      · exact stop.2.2.2 h
  | cons d cs => exact other cs (by rw [(List.cons.inj same).1])

theorem readTail_append (done : readTail negative significand exponent cs = .ok (number, left))
    (closes : Closes rest) :
    readTail negative significand exponent (cs ++ rest) = .ok (number, left ++ rest) := by
  unfold readTail at done
  split at done
  · exact readExponent_append done closes
  · exact readExponent_append done closes
  · rename_i lower upper
    obtain ⟨x, found, same⟩ := bind_eq_ok.mp done
    cases same
    rw [readTail_of_plain (closes.ne_cons (by simp) lower) (closes.ne_cons (by simp) upper), found]
    rfl

theorem readFraction_append
    (done : readFraction negative significand exponent cs = .ok (number, left))
    (closes : Closes rest) :
    readFraction negative significand exponent (cs ++ rest) = .ok (number, left ++ rest) := by
  unfold readFraction at done ⊢
  rw [closes.takeWord]
  generalize takeWord significand 0 cs = taken at done ⊢
  obtain ⟨n, count, more⟩ := taken
  simp only [closes.startsWithDigit, (closes.digits more).2] at done ⊢
  split at done
  · rename_i digit
    rw [if_pos digit]
    exact readTail_append done closes
  · rename_i digit
    split at done
    · split at done <;> contradiction
    · rename_i counted
      rw [if_neg digit, if_neg counted]
      exact readTail_append done closes

/-- A numeral after its integer part, of which the digits skipped do not fit a word. -/
def readRest (negative : Bool) (n : Nat) (skipped cs : List Char) :
    Except ReadError (Number × List Char) :=
  match cs with
  | '.' :: rest => readFraction negative n skipped.length rest
  | 'e' :: _ => readTail negative n skipped.length cs
  | 'E' :: _ => readTail negative n skipped.length cs
  | _ => do
    if skipped.isEmpty then return (← integerOf negative n, cs)
    else return (← floatOf negative n skipped.length, cs)

theorem readNumber_cons (c : Char) (cs : List Char) : readNumber negative (c :: cs) =
    if !isDigit c then .error .malformed
    else if c = '0' && startsWithDigit cs then .error .malformed
    else
      let taken := takeWord 0 0 (c :: cs)
      readRest negative taken.1 (taken.2.2.takeWhile isDigit) (taken.2.2.dropWhile isDigit) :=
  rfl

theorem readRest_append {skipped : List Char}
    (done : readRest negative n skipped cs = .ok (number, left)) (closes : Closes rest) :
    readRest negative n skipped (cs ++ rest) = .ok (number, left ++ rest) := by
  unfold readRest at done
  split at done
  · exact readFraction_append done closes
  · exact readTail_append done closes
  · exact readTail_append done closes
  · rename_i point lower upper
    unfold readRest
    split
    · rename_i same
      exact absurd same (closes.ne_cons (by simp) point _)
    · rename_i same
      exact absurd same (closes.ne_cons (by simp) lower _)
    · rename_i same
      exact absurd same (closes.ne_cons (by simp) upper _)
    · split at done
      · rename_i all
        obtain ⟨x, found, same⟩ := bind_eq_ok.mp done
        cases same
        rw [if_pos all, found]
        rfl
      · rename_i some_
        obtain ⟨x, found, same⟩ := bind_eq_ok.mp done
        cases same
        rw [if_neg some_, found]
        rfl

/-- A numeral is read in the same way before what cannot go on with it. -/
theorem readNumber_append (done : readNumber negative cs = .ok (number, left))
    (closes : Closes rest) : readNumber negative (cs ++ rest) = .ok (number, left ++ rest) := by
  cases cs with
  | nil => contradiction
  | cons c cs =>
      rw [List.cons_append, readNumber_cons, closes.startsWithDigit, ← List.cons_append,
        closes.takeWord]
      rw [readNumber_cons] at done
      split at done
      · contradiction
      · rename_i digit
        split at done
        · contradiction
        · rename_i leading
          rw [if_neg digit, if_neg leading]
          dsimp only at done ⊢
          obtain ⟨front, back⟩ := closes.digits (takeWord 0 0 (c :: cs)).2.2
          rw [front, back]
          exact readRest_append done closes

theorem le_foldl_digits (ds : List Char) (n : Nat) :
    n ≤ ds.foldl (fun n d => 10 * n + digitValue d) n := by
  induction ds generalizing n with
  | nil => exact Nat.le_refl n
  | cons d ds ih =>
      have one : n ≤ 10 * n + digitValue d := by omega
      exact Nat.le_trans one (ih _)

theorem takeWord_digits {ds : List Char} (count : Nat) (digits : ∀ d ∈ ds, isDigit d)
    (fits : ds.foldl (fun n d => 10 * n + digitValue d) n < wordBound) :
    takeWord n count ds =
      (ds.foldl (fun n d => 10 * n + digitValue d) n, count + ds.length, []) := by
  induction ds generalizing n count with
  | nil => rfl
  | cons d ds ih =>
      rw [List.forall_mem_cons] at digits
      rw [List.foldl_cons] at fits
      have next : 10 * n + digitValue d < wordBound :=
        Nat.lt_of_le_of_lt (le_foldl_digits ds _) fits
      rw [takeWord, if_pos (by simp [digits.1, next]), ih _ digits.2 fits, List.foldl_cons,
        List.length_cons, Nat.add_assoc, Nat.add_comm 1]

theorem readNumber_decimal (small : n < wordBound) :
    readNumber negative (decimal n) = (integerOf negative n).map fun x => (x, []) := by
  have value : natOfDigits (decimal n) = n := Text.natOfDigits_decimal n
  have all := takeWord_digits 0 (Text.isDigit_of_mem_decimal n) (n := 0)
    (by rw [← natOfDigits, value]; exact small)
  rw [← natOfDigits, value] at all
  cases written : decimal n with
  | nil => exact absurd written (Text.decimal_ne_nil n)
  | cons c cs =>
      rw [written] at all
      have digit : isDigit c := Text.isDigit_of_mem_decimal n c (by rw [written]; exact .head _)
      have leading : (c = '0' && startsWithDigit cs) = false := by
        by_cases short : n < 10
        · obtain ⟨-, rfl⟩ := List.cons.inj (written.symm.trans (Text.decimal_of_lt short))
          exact Bool.and_false _
        · have first := Text.head?_decimal_ne_zero (Nat.not_lt.mp short)
          have differs : c ≠ '0' := fun same => first (by rw [written, same]; rfl)
          simp [differs]
      rw [readNumber_cons, digit, leading, all]
      rfl

theorem skipSpace_cons {c : Char} (visible : isSpace c = false) (cs : List Char) :
    skipSpace (c :: cs) = c :: cs := by
  simp [skipSpace, visible]

theorem isSpace_of_isDigit {c : Char} (digit : isDigit c) : isSpace c = false := by
  rw [isSpace]
  by_contra space
  simp only [Bool.not_eq_false, Bool.or_eq_true, decide_eq_true_eq] at space
  rcases space with ((rfl | rfl) | rfl) | rfl <;> exact absurd digit (by decide)

/-- A value that begins with a digit is a number. -/
theorem readValue_digit {c : Char} (depth : Nat) (digit : isDigit c) (cs : List Char) :
    readValue depth (c :: cs) =
      (readNumber false (c :: cs)).map fun read => (.number read.1, read.2) := by
  unfold readValue
  rw [skipSpace_cons (isSpace_of_isDigit digit)]
  split
  case h_9 =>
    rename_i same
    cases same
    rw [if_pos digit]
    cases readNumber false (c :: cs) <;> rfl
  case h_1 => contradiction
  -- No other character that begins a value is a digit.
  all_goals
    rename_i same
    cases same
    exact absurd digit (by decide)

theorem readValue_minus (depth : Nat) (cs : List Char) : readValue depth ('-' :: cs) =
    (readNumber true cs).map fun read => (.number read.1, read.2) := by
  unfold readValue
  change (readNumber true cs >>= fun read => pure (Json.number read.1, read.2)) = _
  cases readNumber true cs <;> rfl

/-- Only numerals are read as numbers. -/
theorem of_readValue_eq_number {depth : Nat}
    (done : readValue depth cs = .ok (.number number, left)) :
    (∃ ds, skipSpace cs = '-' :: ds ∧ readNumber true ds = .ok (number, left)) ∨
    ∃ d ds, skipSpace cs = d :: ds ∧ isDigit d ∧
      readNumber false (d :: ds) = .ok (number, left) := by
  unfold readValue at done
  split at done
  · contradiction
  · obtain ⟨_, -, same⟩ := of_made (fun _ => .null) done
    contradiction
  · obtain ⟨_, -, same⟩ := of_made (fun _ => .bool true) done
    contradiction
  · obtain ⟨_, -, same⟩ := of_made (fun _ => .bool false) done
    contradiction
  · rename_i ds shown
    obtain ⟨_, read, ⟨⟩⟩ := of_made .number done
    exact .inl ⟨ds, shown, read⟩
  · obtain ⟨_, -, same⟩ := of_made .string done
    contradiction
  · split at done
    · contradiction
    · obtain ⟨_, -, same⟩ := of_made .array done
      contradiction
  · split at done
    · contradiction
    · obtain ⟨_, -, same⟩ := of_made (fun fields => .object (Fields.ofList fields)) done
      contradiction
  · rename_i d ds _ _ _ _ _ _ _ shown
    split at done
    · rename_i digit
      obtain ⟨_, read, ⟨⟩⟩ := of_made .number done
      exact .inr ⟨d, ds, shown, digit, read⟩
    · contradiction

/-- A number whose text is read as the number itself. -/
def Number.Legible (number : Number) : Prop :=
  readValue 0 number.render = .ok (.number number, [])

theorem readValue_skipSpace (depth : Nat) (cs : List Char) :
    readValue depth (skipSpace cs) = readValue depth cs := by
  have once : skipSpace (skipSpace cs) = skipSpace cs := List.dropWhile_idempotent _ _
  unfold readValue
  rw [once]

theorem skipSpace_append {c : Char} {ds : List Char} (shown : skipSpace cs = c :: ds)
    (rest : List Char) : skipSpace (cs ++ rest) = c :: ds ++ rest := by
  rw [skipSpace, List.dropWhile_append, ← skipSpace, shown]
  rfl

/-- Wherever a value may stand, a legible number is read from its text, if nothing goes on with it. -/
theorem readValue_number (legible : number.Legible) (depth : Nat) (closes : Closes rest) :
    readValue depth (number.render ++ rest) = .ok (.number number, rest) := by
  rw [← readValue_skipSpace]
  obtain ⟨ds, shown, read⟩ | ⟨d, ds, shown, digit, read⟩ := of_readValue_eq_number legible
  · rw [skipSpace_append shown, List.cons_append, readValue_minus, readNumber_append read closes]
    rfl
  · rw [skipSpace_append shown, List.cons_append, readValue_digit depth digit, ← List.cons_append,
      readNumber_append read closes]
    rfl

theorem readValue_decimal (depth : Nat) (small : n < wordBound) :
    readValue depth (decimal n) = .ok (.number (.integer n), []) := by
  cases written : decimal n with
  | nil => exact absurd written (Text.decimal_ne_nil n)
  | cons c cs =>
      have digit : isDigit c := Text.isDigit_of_mem_decimal n c (by rw [written]; exact .head _)
      rw [readValue_digit depth digit, ← written, readNumber_decimal small]
      rfl

theorem legible_integer {i : Int} (low : -(Nat.pow 2 63 : Int) ≤ i)
    (high : i < (Nat.pow 2 64 : Int)) : (Number.integer i).Legible := by
  have bound : wordBound = 18446744073709551616 := rfl
  have half : Nat.pow 2 63 = 9223372036854775808 := rfl
  cases i with
  | ofNat n => exact readValue_decimal 0 (Int.ofNat_lt.mp high)
  | negSucc n =>
      rw [half] at low
      have small : n + 1 < wordBound := by omega
      have fits : (n + 1 = 0 || Nat.pow 2 63 < n + 1) = false := by
        rw [half]
        simp
        omega
      have negative : integerOf true (n + 1) = .ok (.integer (Int.negSucc n)) := by
        rw [integerOf, fits]
        rfl
      change readValue 0 ('-' :: decimal (n + 1)) = _
      rw [readValue_minus, readNumber_decimal small, negative]
      rfl

end Switchboard.Json
