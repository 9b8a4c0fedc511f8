import Switchboard.Json.Decode

/-!
The place of an event in the stream of its execution.

Workers number their events; the hub's own notices stand outside that numbering.  On the wire both
share one signed integer, with the notices below zero.  Main statements: `ofWire` is exact down to
the least notice, and `toWire` undoes it.
-/

namespace Switchboard

inductive Sequence where
  | ordinal (position : UInt64)
  /-- Assigned by the hub, `slot` below zero on the wire. -/
  | synthetic (slot : UInt32)
deriving Repr, DecidableEq, Inhabited

namespace Sequence

def wireMax : Int := Nat.pow 2 63 - 1

def slotMax : Nat := Nat.pow 2 32 - 1

/-- Where cancellations, failed dispatches, timeouts and decisions are announced. -/
def notice : Sequence := .synthetic 1

/-- Where the hub closes a stream that no worker closed. -/
def terminal : Sequence := .synthetic 2

def toWire : Sequence → Int
  | .ordinal position => min (position.toNat : Int) wireMax
  | .synthetic slot => -(slot.toNat : Int)

def ofWire (wire : Int) : Sequence :=
  if 0 ≤ wire then .ordinal (UInt64.ofNat wire.toNat)
  else .synthetic (UInt32.ofNat (min wire.natAbs slotMax))

def isSynthetic : Sequence → Bool
  | .synthetic _ => true
  | .ordinal _ => false

/-- Whether a client that has seen everything up to `cursor` still needs the event.  A notice is
new to every client that has seen worker events only. -/
def isAfter (sequence : Sequence) (cursor : Int) : Bool :=
  match sequence with
  | .ordinal _ => cursor < sequence.toWire
  | .synthetic _ => 0 ≤ cursor || cursor < sequence.toWire

def toJson (sequence : Sequence) : Json := .ofInt sequence.toWire

def decode : Json.Decoder Sequence := fun v => (Json.Decoder.signed64 v).map ofWire

theorem wireMax_eq : wireMax = 9223372036854775807 := rfl

theorem slotMax_eq : slotMax = 4294967295 := rfl

theorem toWire_ofWire {wire : Int} (low : -(slotMax : Int) ≤ wire) (high : wire ≤ wireMax) :
    (ofWire wire).toWire = wire := by
  rw [wireMax_eq] at high
  rw [slotMax_eq] at low
  by_cases sign : 0 ≤ wire
  · have small : wire.toNat < 2 ^ 64 := by omega
    simp only [ofWire, sign, if_true, toWire, wireMax_eq, UInt64.toNat_ofNat']
    omega
  · have small : min wire.natAbs slotMax < 2 ^ 32 := by
      rw [slotMax_eq]
      omega
    simp only [ofWire, sign, if_false, toWire, UInt32.toNat_ofNat']
    rw [slotMax_eq] at small ⊢
    omega

theorem isSynthetic_ofWire {wire : Int} : (ofWire wire).isSynthetic ↔ wire < 0 := by
  unfold ofWire
  split <;> simp [isSynthetic] <;> omega

end Sequence

end Switchboard
