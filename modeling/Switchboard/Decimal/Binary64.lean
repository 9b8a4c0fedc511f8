/-!
Finite binary floating-point numbers of 53 bits, computed exactly.

A number is `mantissa * 2 ^ exponent` with a sign.  Every value has one representation here: either
the mantissa has 53 bits, or the exponent is the least one.  `ofRatio` rounds a quotient of natural
numbers to the nearest representable value, a tie to the even mantissa, and all other operations
are exact arithmetic followed by that one rounding.
-/

namespace Switchboard

structure Binary64 where
  negative : Bool
  mantissa : Nat
  exponent : Int
deriving Repr, DecidableEq, Inhabited

namespace Binary64

def minExponent : Int := -1074

def maxExponent : Int := 971

def zero (negative : Bool) : Binary64 := ⟨negative, 0, minExponent⟩

def isZero (x : Binary64) : Bool := x.mantissa == 0

def negate (x : Binary64) : Binary64 := { x with negative := !x.negative }

/-- `num / den` to the nearest natural number, a tie to the even one. -/
def roundedQuotient (num den : Nat) : Nat :=
  let q := num / den
  let r := num % den
  if 2 * r < den then q
  else if den < 2 * r then q + 1
  else q + q % 2

def bitLength (n : Nat) : Nat := if n = 0 then 0 else n.log2 + 1

/-- The greatest exponent at which the quotient still has 53 bits, and never below the least. -/
def exponentFor (num den : Nat) : Int :=
  let guess : Int := (bitLength num : Int) - (bitLength den : Int) - 52
  let tooCoarse :=
    if 0 ≤ guess then num < Nat.pow 2 52 * (den * Nat.pow 2 guess.toNat)
    else num * Nat.pow 2 (-guess).toNat < Nat.pow 2 52 * den
  max minExponent (if tooCoarse then guess - 1 else guess)

/-- The nearest number to `num / den`; `none` when it is beyond the largest one. -/
def ofRatio (negative : Bool) (num den : Nat) : Option Binary64 :=
  if num = 0 then some (zero negative)
  else
    let e := exponentFor num den
    let m :=
      if 0 ≤ e then roundedQuotient num (den * Nat.pow 2 e.toNat)
      else roundedQuotient (num * Nat.pow 2 (-e).toNat) den
    let (m, e) := if m = Nat.pow 2 53 then (Nat.pow 2 52, e + 1) else (m, e)
    if maxExponent < e then none else some ⟨negative, m, e⟩

/-- The value without its sign, as a quotient. -/
def ratio (x : Binary64) : Nat × Nat :=
  if 0 ≤ x.exponent then (x.mantissa * Nat.pow 2 x.exponent.toNat, 1)
  else (x.mantissa, Nat.pow 2 (-x.exponent).toNat)

def ofNat (n : Nat) : Option Binary64 := ofRatio false n 1

def mul? (x y : Binary64) : Option Binary64 :=
  let (a, b) := x.ratio
  let (c, d) := y.ratio
  ofRatio (x.negative != y.negative) (a * c) (b * d)

/-- The quotient by a number that is not zero. -/
def div? (x y : Binary64) : Option Binary64 :=
  let (a, b) := x.ratio
  let (c, d) := y.ratio
  ofRatio (x.negative != y.negative) (a * d) (b * c)

/-- The greatest power of ten among the numbers. -/
def maxPower : Nat := 308

def powerOfTen (n : Nat) : Option Binary64 := ofRatio false (Nat.pow 10 n) 1

/-- `x * 10 ^ k`: the power is rounded first, then the product; `none` on overflow. -/
def scaleUp (x : Binary64) (k : Nat) : Option Binary64 :=
  if k ≤ maxPower then (powerOfTen k).bind x.mul?
  else if x.isZero then some x
  else none

/-- Divides by the greatest power `times` times and then by `10 ^ rest`; zero stays zero. -/
def divideOut (x : Binary64) : Nat → Nat → Option Binary64
  | 0, rest => (powerOfTen rest).bind x.div?
  | times + 1, rest =>
    if x.isZero then some x
    else match (powerOfTen maxPower).bind x.div? with
      | some y => divideOut y times rest
      | none => none

/-- `x / 10 ^ k`, powers beyond the greatest in several steps. -/
def scaleDown (x : Binary64) (k : Nat) : Option Binary64 :=
  let times := (k - 1) / maxPower
  x.divideOut times (k - maxPower * times)

/-- `significand * 10 ^ exponent`, both factors rounded before they meet; `none` on overflow. -/
def ofDecimal (negative : Bool) (significand : Nat) (exponent : Int) : Option Binary64 := do
  let x ← ofNat significand
  let y ← if 0 ≤ exponent then x.scaleUp exponent.toNat else x.scaleDown (-exponent).toNat
  return if negative then y.negate else y

end Binary64

end Switchboard
