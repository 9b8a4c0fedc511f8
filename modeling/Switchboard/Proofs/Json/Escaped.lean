import Mathlib.Algebra.Group.Nat.Defs
import Switchboard.Json.Text
import Switchboard.Proofs.Json.Ordered

/-!
Strings in a text.

Every character is escaped in a way that is read back as the character, whatever follows.
-/

namespace Switchboard.Json

open Text (digits hexadecimal padded digitChar hexValue)

variable {cs left rest : List Char} {c : Char} {fuel n : Nat}

theorem hexadecimal_of_lt (small : n < 16) : hexadecimal n = [digitChar n] := by
  unfold hexadecimal
  rw [digits, dif_pos (.inl small)]

theorem padded_hexadecimal (small : n < 256) :
    padded 4 (hexadecimal n) = ['0', '0', digitChar (n / 16), digitChar (n % 16)] := by
  by_cases one : n < 16
  · have none : n / 16 = 0 := by omega
    have all : n % 16 = n := by omega
    rw [hexadecimal_of_lt one, none, all]
    rfl
  · have front : digits 16 (n / 16) = [digitChar (n / 16)] := hexadecimal_of_lt (by omega)
    unfold hexadecimal
    rw [digits, dif_neg (by omega), front]
    rfl

theorem hexValue_digitChar (small : n < 16) : hexValue (digitChar n) = some n := by
  have all : ∀ n < 16, hexValue (digitChar n) = some n := by decide
  exact all n small

theorem utf8Size_digitChar (small : n < 16) : (digitChar n).utf8Size = 1 := by
  have all : ∀ n < 16, (digitChar n).utf8Size = 1 := by decide
  exact all n small

theorem readHex_padded (small : n < 256) (rest : List Char) :
    readHex (padded 4 (hexadecimal n) ++ rest) = .ok (n, rest) := by
  have high : n / 16 < 16 := by omega
  have low : n % 16 < 16 := by omega
  have zero : hexValue '0' = some 0 := by decide
  have size : Char.utf8Size '0' = 1 := by decide
  rw [padded_hexadecimal small]
  simp only [readHex, List.cons_append, List.nil_append, List.take, List.map, List.foldr, size,
    utf8Size_digitChar high, utf8Size_digitChar low, zero, hexValue_digitChar high,
    hexValue_digitChar low]
  have value : 4096 * 0 + 256 * 0 + 16 * (n / 16) + n % 16 = n := by omega
  rw [value]
  rfl

theorem readEscape_numbered (control : c.toNat < 0x20) (rest : List Char) :
    readEscape ('u' :: (padded 4 (hexadecimal c.toNat) ++ rest)) = .ok (c, rest) := by
  have alone : (decide (0xDC00 ≤ c.toNat) && decide (c.toNat ≤ 0xDFFF)) = false := by
    simp
    omega
  have whole : (decide (c.toNat < 0xD800) || decide (0xDBFF < c.toNat)) = true := by
    simp
    omega
  change readNumbered (padded 4 (hexadecimal c.toNat) ++ rest) = _
  rw [readNumbered, readHex_padded (by omega)]
  change (if (decide (0xDC00 ≤ c.toNat) && decide (c.toNat ≤ 0xDFFF)) = true then _ else
    if (decide (c.toNat < 0xD800) || decide (0xDBFF < c.toNat)) = true then _ else _) = _
  rw [alone, whole]
  exact congrArg (fun c => Except.ok (c, rest)) (Char.ofNat_toNat c)

theorem readChars_escape (read : readEscape cs = .ok (c, left)) (fuel : Nat) :
    readChars (fuel + 1) ('\\' :: cs) =
      (readChars fuel left).map fun more => (c :: more.1, more.2) := by
  rw [readChars, if_neg (by decide), if_pos rfl, read]
  dsimp only
  cases readChars fuel left <;> rfl

/-- The escape of a character is read as the character. -/
theorem readChars_escapedChar (fuel : Nat) (c : Char) (rest : List Char) :
    readChars (fuel + 1) (escapedChar c ++ rest) =
      (readChars fuel rest).map fun more => (c :: more.1, more.2) := by
  have named {n : Nat} (code : c.toNat = n) : c = Char.ofNat n := by
    rw [← code, Char.ofNat_toNat]
  unfold escapedChar
  iterate 2
    split
    · rename_i same
      subst same
      exact readChars_escape rfl fuel
  -- Five control characters have a letter of their own.
  iterate 5
    split
    · rename_i code
      obtain rfl := named code
      exact readChars_escape rfl fuel
  split
  · rename_i control
    exact readChars_escape (readEscape_numbered control rest) fuel
  · rename_i quote backslash _ _ _ _ _ plain
    rw [List.singleton_append, readChars, if_neg quote, if_neg backslash, if_neg plain]
    cases readChars fuel rest <;> rfl

theorem readChars_escaped (rest : List Char) (enough : cs.length < fuel) :
    readChars fuel (cs.flatMap escapedChar ++ '"' :: rest) = .ok (cs, rest) := by
  induction cs generalizing fuel with
  | nil =>
      obtain _ | fuel := fuel
      · contradiction
      · rw [List.flatMap_nil, List.nil_append, readChars, if_pos rfl]
  | cons c cs ih =>
      obtain _ | fuel := fuel
      · contradiction
      · rw [List.flatMap_cons, List.append_assoc, readChars_escapedChar,
          ih (Nat.lt_of_succ_lt_succ enough)]
        rfl

theorem length_le_escaped (cs : List Char) : cs.length ≤ (cs.flatMap escapedChar).length := by
  induction cs with
  | nil => exact Nat.le_refl 0
  | cons c cs ih =>
      have some_ : 0 < (escapedChar c).length := by
        unfold escapedChar
        repeat' split
        all_goals simp
      rw [List.flatMap_cons, List.length_append, List.length_cons]
      omega

/-- A string in quotes is read back as the string, whatever follows it. -/
theorem readString_renderString (s : String) (rest : List Char) :
    ∃ cs, renderString s ++ rest = '"' :: cs ∧ readString cs = .ok (s, rest) := by
  refine ⟨s.toList.flatMap escapedChar ++ '"' :: rest, by simp [renderString], ?_⟩
  have enough : s.toList.length < (s.toList.flatMap escapedChar ++ '"' :: rest).length + 1 := by
    have := length_le_escaped s.toList
    rw [List.length_append]
    omega
  rw [readString, readChars_escaped rest enough]
  exact congrArg (fun s => Except.ok (s, rest)) String.ofList_toList

end Switchboard.Json
