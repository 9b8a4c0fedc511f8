import Switchboard.Proofs.Text.Bytes
import Switchboard.Text.Utf8

/-!
Bytes of a text are read as the text.

A character is written in one to four bytes.  The first says how many follow, and for the second
leaves just the bytes with which the character is not one that has a shorter form.
-/

namespace Switchboard.Text.Utf8

variable {n h low high bits missing : Nat} {state : Option Partial} {rest : List UInt8}

theorem decodeFrom_cons (state : Option Partial) (small : n < 256) (rest : List UInt8) :
    decodeFrom state (UInt8.ofNat n :: rest) =
      (feed state n).1 ++ decodeFrom (feed state n).2 rest := by
  have value : (UInt8.ofNat n).toNat = n := UInt8.toNat_ofNat_of_lt' small
  cases state <;> rw [decodeFrom, value]

theorem decodeFrom_last (lower : low ≤ n % 64 + 128) (upper : n % 64 + 128 ≤ high) :
    decodeFrom (some ⟨1, low, high, bits⟩) (UInt8.ofNat (n % 64 + 128) :: rest) =
      some (Char.ofNat (64 * bits + n % 64)) :: decodeFrom none rest := by
  rw [decodeFrom_cons _ (by omega)]
  simp only [feed, lower, upper, decide_true, Bool.and_true, if_true, Nat.le_refl,
    Nat.add_sub_cancel, List.singleton_append]

theorem decodeFrom_more (lower : low ≤ n % 64 + 128) (upper : n % 64 + 128 ≤ high) :
    decodeFrom (some ⟨missing + 2, low, high, bits⟩) (UInt8.ofNat (n % 64 + 128) :: rest) =
      decodeFrom (some ⟨missing + 1, 0x80, 0xBF, 64 * bits + n % 64⟩) rest := by
  have more : ¬ missing + 2 ≤ 1 := by omega
  rw [decodeFrom_cons _ (by omega)]
  simp only [feed, lower, upper, more, decide_true, Bool.and_true, if_true, if_false,
    Nat.add_sub_cancel, List.nil_append]
  rfl

theorem start_two (low : 2 ≤ h) (high : h < 32) :
    start (h + 192) = ([], some ⟨1, 0x80, 0xBF, h⟩) := by
  have all : ∀ h < 32, 2 ≤ h → start (h + 192) = ([], some ⟨1, 0x80, 0xBF, h⟩) := by decide
  exact all h high low

theorem start_three (small : h < 16) : start (h + 224) =
    ([], some ⟨2, if h = 0 then 0xA0 else 0x80, if h = 13 then 0x9F else 0xBF, h⟩) := by
  have all : ∀ h < 16, start (h + 224) =
      ([], some ⟨2, if h = 0 then 0xA0 else 0x80, if h = 13 then 0x9F else 0xBF, h⟩) := by decide
  exact all h small

theorem start_four (small : h < 5) : start (h + 240) =
    ([], some ⟨3, if h = 0 then 0x90 else 0x80, if h = 4 then 0x8F else 0xBF, h⟩) := by
  have all : ∀ h < 5, start (h + 240) =
      ([], some ⟨3, if h = 0 then 0x90 else 0x80, if h = 4 then 0x8F else 0xBF, h⟩) := by decide
  exact all h small

theorem decodeFrom_start (begins : start n = ([], state)) (small : n < 256) :
    decodeFrom none (UInt8.ofNat n :: rest) = decodeFrom state rest := by
  rw [decodeFrom_cons none small, feed, begins, List.nil_append]

theorem decodeFrom_utf8EncodeChar (c : Char) (rest : List UInt8) :
    decodeFrom none (String.utf8EncodeChar c ++ rest) = some c :: decodeFrom none rest := by
  have valid : c.toNat < 0xD800 ∨ 0xDFFF < c.toNat ∧ c.toNat < 0x110000 := c.valid
  have back : Char.ofNat c.toNat = c := Char.ofNat_toNat c
  rw [String.utf8EncodeChar, Char.toNat_val]
  generalize c.toNat = n at valid back
  split
  · rw [List.singleton_append, decodeFrom_cons none (by omega), feed, start, if_pos (by omega), back]
    rfl
  split
  · have lead : n / 64 % 32 = n / 64 := by omega
    have whole : 64 * (n / 64) + n % 64 = n := by omega
    rw [lead, List.cons_append, List.cons_append, List.nil_append,
      decodeFrom_start (start_two (by omega) (by omega)) (by omega),
      decodeFrom_last (by omega) (by omega), whole, back]
  split
  · have lead : n / 4096 % 16 = n / 4096 := by omega
    have whole : 64 * (64 * (n / 4096) + n / 64 % 64) + n % 64 = n := by omega
    rw [lead, List.cons_append, List.cons_append, List.cons_append, List.nil_append,
      decodeFrom_start (start_three (by omega)) (by omega),
      decodeFrom_more (by split <;> omega) (by split <;> omega),
      decodeFrom_last (by omega) (by omega), whole, back]
  · have lead : n / 262144 % 8 = n / 262144 := by omega
    have whole : 64 * (64 * (64 * (n / 262144) + n / 4096 % 64) + n / 64 % 64) + n % 64 = n := by
      omega
    rw [lead, List.cons_append, List.cons_append, List.cons_append, List.cons_append,
      List.nil_append, decodeFrom_start (start_four (by omega)) (by omega),
      decodeFrom_more (by split <;> omega) (by split <;> omega),
      decodeFrom_more (by omega) (by omega), decodeFrom_last (by omega) (by omega), whole, back]

/-- The bytes of a text are read as its characters. -/
theorem decode_bytes (text : String) : decode (bytes text) = text.toList.map some := by
  rw [decode, bytes_eq_flatMap]
  generalize text.toList = cs
  induction cs with
  | nil => rfl
  | cons c cs ih => rw [List.flatMap_cons, decodeFrom_utf8EncodeChar, ih, List.map_cons]

theorem decodeLossy_bytes (text : String) : decodeLossy (bytes text) = text.toList := by
  rw [decodeLossy, decode_bytes, List.map_map]
  exact List.map_id _

theorem decode?_bytes (text : String) : decode? (bytes text) = some text.toList := by
  rw [decode?, decode_bytes]
  generalize text.toList = cs
  induction cs with
  | nil => rfl
  | cons c cs ih =>
      rw [List.map_cons, List.mapM_cons, ih]
      rfl

end Switchboard.Text.Utf8
