import Switchboard.Event

/-!
What the hub takes from outside: readings of a clock, unique texts for fresh identifiers, and
statements that fail for reasons outside the hub.

A `World` fixes all of them in advance, by number; a `Meter` counts how far they have been used.
What is used stays used, also by a transaction that fails.
-/

namespace Switchboard

/-- Why a statement was refused by whatever lies below the store. -/
structure Refusal where
  reason : String
deriving Repr, DecidableEq, Inhabited

structure World where
  /-- The clock's readings in order. -/
  clock : Nat → Instant
  /-- Unique texts in order. -/
  unique : Nat → String
  /-- Which statements fail, by their number. -/
  refuses : Nat → Option Refusal

structure Meter where
  readings : Nat := 0
  minted : Nat := 0
  statements : Nat := 0
deriving Repr, DecidableEq, Inhabited

namespace World

/-- The time at a reading, in canonical form. -/
def now (w : World) (m : Meter) : String := (w.clock m.readings).text

/-- The next fresh identifier of a kind. -/
def fresh (w : World) (m : Meter) (kind : IdKind) : String := kind.identifier (w.unique m.minted)

end World

namespace Meter

def afterReading (m : Meter) : Meter := { m with readings := m.readings + 1 }

def afterMint (m : Meter) : Meter := { m with minted := m.minted + 1 }

def afterStatement (m : Meter) : Meter := { m with statements := m.statements + 1 }

end Meter

end Switchboard
