import Mathlib.Data.List.Basic
import Switchboard.Proofs.Text.Columns

/-!
Texts as bytes.

A text of ASCII characters has a byte for each of them, and the order of the bytes is that of the
characters.  Columns are written in ASCII where their marks are.
-/

namespace Switchboard.Text

variable {a b : String} {c d : Char} {cs ds : List Char}

/-- The bytes of a text in UTF-8. -/
def bytes (text : String) : List UInt8 := text.toUTF8.data.toList

theorem bytes_inj : bytes a = bytes b ↔ a = b := by
  rw [bytes, bytes, Array.toList_inj, ← ByteArray.ext_iff, String.toUTF8_eq_toByteArray,
    String.toUTF8_eq_toByteArray, String.toByteArray_inj]

theorem bytes_eq_flatMap (text : String) :
    bytes text = text.toList.flatMap String.utf8EncodeChar := by
  conv => lhs; rw [← String.ofList_toList (s := text)]
  rw [bytes, String.toUTF8_eq_toByteArray, String.toByteArray_ofList, List.utf8Encode,
    List.toList_data_toByteArray]

def Ascii (c : Char) : Prop := c.toNat < 128

theorem ascii_of_isDigit (digit : isDigit c) : Ascii c := by
  simp only [isDigit, Bool.and_eq_true, decide_eq_true_eq] at digit
  have high : c.toNat ≤ '9'.toNat := digit.2
  have nine : '9'.toNat = 57 := rfl
  unfold Ascii
  omega

theorem utf8EncodeChar_of_ascii (ascii : Ascii c) : String.utf8EncodeChar c = [c.toUInt8] := by
  have size : c.utf8Size = 1 := Char.utf8Size_eq_one_iff.mpr <| by
    have : c.toNat < 128 := ascii
    exact UInt32.le_iff_toNat_le.mpr (Nat.le_of_lt_succ this)
  rw [String.utf8EncodeChar_eq_singleton size]
  rfl

theorem bytes_of_ascii (ascii : ∀ c ∈ a.toList, Ascii c) :
    bytes a = a.toList.map Char.toUInt8 := by
  rw [bytes_eq_flatMap, List.map_eq_flatMap]
  exact List.flatMap_congr fun c member => utf8EncodeChar_of_ascii (ascii c member)

theorem toNat_toUInt8 (ascii : Ascii c) : c.toUInt8.toNat = c.toNat := by
  have small : c.toNat < 128 := ascii
  exact Nat.mod_eq_of_lt (show c.toNat < 256 by omega)

theorem toUInt8_lt_iff (ascii : Ascii c) (ascii' : Ascii d) : c.toUInt8 < d.toUInt8 ↔ c < d := by
  rw [UInt8.lt_iff_toNat_lt, toNat_toUInt8 ascii, toNat_toUInt8 ascii']
  exact Iff.rfl

theorem toUInt8_inj (ascii : Ascii c) (ascii' : Ascii d) : c.toUInt8 = d.toUInt8 ↔ c = d := by
  rw [← UInt8.toNat_inj, toNat_toUInt8 ascii, toNat_toUInt8 ascii', Char.toNat_inj]

theorem map_toUInt8_lt_iff (ascii : ∀ c ∈ cs, Ascii c) (ascii' : ∀ d ∈ ds, Ascii d) :
    cs.map Char.toUInt8 < ds.map Char.toUInt8 ↔ cs < ds := by
  induction cs generalizing ds with
  | nil => cases ds <;> simp
  | cons c cs ih =>
      cases ds with
      | nil => simp
      | cons d ds =>
          simp only [List.forall_mem_cons] at ascii ascii'
          rw [List.map_cons, List.map_cons, List.cons_lt_cons_iff, List.cons_lt_cons_iff,
            toUInt8_lt_iff ascii.1 ascii'.1, toUInt8_inj ascii.1 ascii'.1, ih ascii.2 ascii'.2]

/-- Texts of ASCII characters are in the order of their bytes. -/
theorem bytes_lt_bytes_iff (ascii : ∀ c ∈ a.toList, Ascii c) (ascii' : ∀ c ∈ b.toList, Ascii c) :
    bytes a < bytes b ↔ a < b := by
  rw [bytes_of_ascii ascii, bytes_of_ascii ascii', map_toUInt8_lt_iff ascii ascii', String.lt_iff]

variable {columns : List Column} {ns : List Nat}

theorem ascii_inColumns (marks : ∀ column ∈ columns, Ascii column.mark) :
    ∀ c ∈ inColumns columns ns, Ascii c := by
  induction columns generalizing ns with
  | nil => cases ns <;> exact nofun
  | cons column columns ih =>
      cases ns with
      | nil => exact nofun
      | cons n ns =>
          rw [List.forall_mem_cons] at marks
          rw [inColumns]
          intro c member
          rcases List.mem_append.mp member with digit | rest
          · exact ascii_of_isDigit (isDigit_of_mem_padded column.width n c digit)
          · rcases List.mem_cons.mp rest with rfl | rest
            · exact marks.1
            · exact ih marks.2 c rest

/-- How many characters numbers take in these columns, the marks counted. -/
def lineWidth : List Column → Nat
  | [] => 0
  | column :: columns => column.width + 1 + lineWidth columns

theorem length_inColumns (fits : List.Forall₂ Column.Fits columns ns) :
    (inColumns columns ns).length = lineWidth columns := by
  induction fits with
  | nil => rfl
  | @cons column n columns ns fit _ ih =>
      obtain ⟨_ | width, mark⟩ := column
      · exact absurd fit.1 (Nat.lt_irrefl 0)
      rw [inColumns, List.length_append, length_padded_decimal fit.2, List.length_cons, ih, lineWidth]
      dsimp only
      omega

end Switchboard.Text
