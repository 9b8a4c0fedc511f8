import Switchboard.Proofs.Bus.Wire

/-!
Places and their numbers.

The notices have fewer places than there are numbers below zero, and the workers have more places than
there are numbers from zero on.  A number too low is read as the lowest notice, and a place too high is
written as the last number.  Neither changes the order, nor whether a reader still needs the event.
-/

namespace Switchboard.Sequence

variable {sequence : Sequence} {wire : Int}

theorem exact_ofWire (high : wire ≤ wireMax) : (ofWire wire).Exact := by
  rw [wireMax_eq] at high
  by_cases sign : 0 ≤ wire
  · have small : wire.toNat < 2 ^ 64 := by omega
    rw [ofWire, if_pos sign, Exact, wireMax_eq, UInt64.toNat_ofNat', Nat.mod_eq_of_lt small]
    omega
  · have small : min wire.natAbs slotMax < 2 ^ 32 := by
      rw [slotMax_eq]
      omega
    rw [ofWire, if_neg sign, Exact, UInt32.toNat_ofNat', Nat.mod_eq_of_lt small, slotMax_eq]
    omega

/-- Below the lowest notice all numbers are read alike. -/
theorem ofWire_of_lt (low : wire < -(slotMax : Int)) : ofWire wire = ofWire (-(slotMax : Int)) := by
  rw [slotMax_eq] at low
  have below : ¬ 0 ≤ wire := by omega
  have least : min wire.natAbs slotMax = min (-(slotMax : Int)).natAbs slotMax := by
    rw [slotMax_eq]
    omega
  rw [ofWire, if_neg below, least, ofWire, if_neg (by decide)]

theorem toWire_ofWire_eq_max (high : wire ≤ wireMax) :
    (ofWire wire).toWire = max wire (-(slotMax : Int)) := by
  by_cases low : -(slotMax : Int) ≤ wire
  · rw [toWire_ofWire low high, Int.max_eq_left low]
  · have below := Int.not_le.mp low
    rw [ofWire_of_lt below, toWire_ofWire (Int.le_refl _) (by decide),
      Int.max_eq_right (Int.le_of_lt below)]

theorem toWire_le_wireMax (sequence : Sequence) : sequence.toWire ≤ wireMax := by
  cases sequence with
  | ordinal position => exact Int.min_le_right _ _
  | synthetic slot =>
      rw [toWire, wireMax_eq]
      omega

theorem slotMax_le_toWire (sequence : Sequence) : -(slotMax : Int) ≤ sequence.toWire := by
  rw [slotMax_eq]
  cases sequence with
  | ordinal position =>
      rw [toWire, wireMax_eq]
      omega
  | synthetic slot =>
      have := slot.toNat_lt
      rw [toWire]
      omega

/-- Exactly the places whose number says it all are read as what was written. -/
theorem ofWire_toWire_iff : ofWire sequence.toWire = sequence ↔ sequence.Exact := by
  refine ⟨fun same => ?_, ofWire_toWire⟩
  rw [← same]
  exact exact_ofWire sequence.toWire_le_wireMax

/-- Whatever place is read, it has the number that was written. -/
theorem toWire_ofWire_toWire (sequence : Sequence) :
    (ofWire sequence.toWire).toWire = sequence.toWire :=
  toWire_ofWire sequence.slotMax_le_toWire sequence.toWire_le_wireMax

/-- A notice is told by its sign, all but one. -/
theorem isSynthetic_iff (named : sequence ≠ .synthetic 0) :
    sequence.isSynthetic ↔ sequence.toWire < 0 := by
  cases sequence with
  | ordinal position =>
      rw [toWire, wireMax_eq]
      simp only [isSynthetic, Bool.false_eq_true, false_iff]
      omega
  | synthetic slot =>
      have some_ : slot.toNat ≠ 0 := fun none =>
        named (congrArg synthetic (UInt32.toNat_inj.mp none))
      rw [toWire]
      simp only [isSynthetic, true_iff]
      omega

theorem isSynthetic_ofWire_toWire (named : sequence ≠ .synthetic 0) :
    (ofWire sequence.toWire).isSynthetic = sequence.isSynthetic := by
  rw [Bool.eq_iff_iff, isSynthetic_ofWire, isSynthetic_iff named]

/-- A cursor looks at the number, and at whether it is that of a notice. -/
theorem isAfter_eq (sequence : Sequence) (cursor : Int) :
    sequence.isAfter cursor =
      (sequence.isSynthetic && decide (0 ≤ cursor) || decide (cursor < sequence.toWire)) := by
  cases sequence <;> simp [isAfter, isSynthetic]

theorem toInt_le_wireMax (wire : Int64) : wire.toInt ≤ wireMax := by
  have := wire.toInt_lt
  rw [wireMax_eq]
  omega

/-- Numbers and places tell each other.  Every number of sixty-four bits is written again as it was, or
as the least that stands for a notice if it is less; so no two numbers change their order.  Exactly the
places that fit are read as they were written.  And whether a reader at a cursor still needs an event is
the same for the place that is read as for the place that was written, but for the notice whose number
is zero: that is read as a worker's place, which a reader who has seen an event does not need. -/
theorem numbers_and_places_agree :
    (∀ wire : Int64, (ofWire wire.toInt).toWire = max wire.toInt (-(slotMax : Int))) ∧
    (∀ wire wire' : Int64, wire ≤ wire' →
      (ofWire wire.toInt).toWire ≤ (ofWire wire'.toInt).toWire) ∧
    (∀ wire : Int64, (ofWire wire.toInt).toWire = wire.toInt ↔ -(slotMax : Int) ≤ wire.toInt) ∧
    (∀ sequence : Sequence, ofWire sequence.toWire = sequence ↔ sequence.Exact) ∧
    (∀ sequence : Sequence, sequence ≠ .synthetic 0 → ∀ cursor,
      (ofWire sequence.toWire).isAfter cursor = sequence.isAfter cursor) ∧
    ∀ cursor, (ofWire (synthetic 0).toWire).isAfter cursor = (synthetic 0).isAfter cursor ↔
      cursor < 0 := by
  have written : ∀ wire : Int64, (ofWire wire.toInt).toWire = max wire.toInt (-(slotMax : Int)) :=
    fun wire => toWire_ofWire_eq_max (toInt_le_wireMax wire)
  refine ⟨written, ?_, ?_, fun _ => ofWire_toWire_iff, ?_, ?_⟩
  · intro wire wire' le
    have numbers := Int64.le_iff_toInt_le.mp le
    rw [written, written]
    omega
  · intro wire
    rw [written]
    omega
  · intro sequence named cursor
    rw [isAfter_eq, isAfter_eq, toWire_ofWire_toWire, isSynthetic_ofWire_toWire named]
  · intro cursor
    have zero : (synthetic 0).toWire = 0 := rfl
    have needed : (synthetic 0).isAfter cursor := by
      simp only [isAfter_eq, zero, isSynthetic, Bool.true_and, Bool.or_eq_true, decide_eq_true_eq]
      omega
    have read : ofWire 0 = .ordinal 0 := rfl
    have first : (ordinal 0).toWire = 0 := rfl
    rw [needed, zero, read, isAfter_eq, isSynthetic, first]
    simp

end Switchboard.Sequence
