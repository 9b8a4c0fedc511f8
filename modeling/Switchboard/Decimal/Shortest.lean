import Switchboard.Decimal.Binary64
import Switchboard.Text.Digits

/-!
The shortest decimal text of a floating-point number.

Of the decimals that read back as the number, one with the fewest digits is written; of several
such, the nearest to the number, and of two equally near the even one.  Positional notation is used
for decimal exponents from `-5` to `15`.
-/

namespace Switchboard.Binary64

structure Decimal where
  digits : Nat
  exponent : Int
deriving Repr, DecidableEq, Inhabited

/-- The reals that round to a positive number, with the number itself, over a common denominator.
The ends belong to the interval iff the mantissa is even. -/
structure Interval where
  low : Nat
  value : Nat
  high : Nat
  den : Nat
  closed : Bool

/-- Half a step down and half a step up; below a power of two the step down is half as wide. -/
def interval (x : Binary64) : Interval :=
  let m := x.mantissa
  let narrow := m == Nat.pow 2 52 && minExponent < x.exponent
  let low := if narrow then 4 * m - 1 else 4 * m - 2
  let high := 4 * m + 2
  let closed := m % 2 == 0
  let e := x.exponent - 2
  if 0 ≤ e then
    ⟨low * Nat.pow 2 e.toNat, 4 * m * Nat.pow 2 e.toNat, high * Nat.pow 2 e.toNat, 1, closed⟩
  else ⟨low, 4 * m, high, Nat.pow 2 (-e).toNat, closed⟩

def Interval.contains (i : Interval) (n : Nat) (e : Int) : Bool :=
  let scaled := if 0 ≤ e then n * Nat.pow 10 e.toNat * i.den else n * i.den
  let unit := if 0 ≤ e then 1 else Nat.pow 10 (-e).toNat
  if i.closed then i.low * unit ≤ scaled && scaled ≤ i.high * unit
  else i.low * unit < scaled && scaled < i.high * unit

/-- The greatest multiple of `10 ^ e` not above the value, as its factor, and twice the rest of the
value compared with one such step. -/
def Interval.floorOn (i : Interval) (e : Int) : Nat × Ordering :=
  let num := if 0 ≤ e then i.value else i.value * Nat.pow 10 (-e).toNat
  let den := if 0 ≤ e then i.den * Nat.pow 10 e.toNat else i.den
  (num / den, compare (2 * (num % den)) den)

/-- The neighbour of the value on the grid of multiples of `10 ^ e` that lies in the interval, the
nearer one if both do. -/
def Interval.nearestOn (i : Interval) (e : Int) : Option Decimal :=
  let (q, side) := i.floorOn e
  match i.contains q e, i.contains (q + 1) e with
  | false, false => none
  | true, false => some ⟨q, e⟩
  | false, true => some ⟨q + 1, e⟩
  | true, true =>
    match side with
    | .lt => some ⟨q, e⟩
    | .gt => some ⟨q + 1, e⟩
    | .eq => some ⟨q + q % 2, e⟩

/-- The exponent of the leading decimal digit of `num / den`. -/
def leadingExponent (num den : Nat) : Int :=
  if den ≤ num then ((Text.decimal (num / den)).length : Int) - 1
  else
    let rec search : Nat → Nat → Int
      | 0, k => -(k : Int)
      | fuel + 1, k => if den ≤ num * Nat.pow 10 k then -(k : Int) else search fuel (k + 1)
    search 400 1

/-- Tries grids from coarse to fine, `count` of them, beginning at `10 ^ e`. -/
def Interval.search (i : Interval) : Nat → Int → Option Decimal
  | 0, _ => none
  | count + 1, e => i.nearestOn e <|> i.search count (e - 1)

/-- Every digit of the number: `m * 2 ^ e` is `m * 5 ^ (-e)` units of `10 ^ e`. -/
def exactDecimal (x : Binary64) : Decimal :=
  if 0 ≤ x.exponent then ⟨x.mantissa * Nat.pow 2 x.exponent.toNat, 0⟩
  else ⟨x.mantissa * Nat.pow 5 (-x.exponent).toNat, x.exponent⟩

/-- Moves trailing zeros from the digits into the exponent. -/
def Decimal.trimmed (d : Decimal) : Decimal :=
  if h : d.digits ≠ 0 ∧ d.digits % 10 = 0 then
    Decimal.trimmed ⟨d.digits / 10, d.exponent + 1⟩
  else d
termination_by d.digits
decreasing_by exact Nat.div_lt_self (Nat.pos_of_ne_zero h.1) (by omega)

/-- The shortest decimal that reads back as the number without its sign.  Seventeen digits always
suffice, so the full expansion is never reached by a number that is not zero. -/
def shortest (x : Binary64) : Decimal :=
  if x.isZero then ⟨0, 0⟩
  else
    let i := x.interval
    let d := (i.search 18 (leadingExponent i.value i.den + 1)).getD x.exactDecimal
    d.trimmed

/-- Lays out digits whose leading one has decimal exponent `lead`. -/
def layout (digits : List Char) (lead : Int) : List Char :=
  if -5 ≤ lead && lead ≤ 15 then
    if lead < 0 then
      '0' :: '.' :: List.replicate (-lead - 1).toNat '0' ++ digits
    else
      let whole := lead.toNat + 1
      if digits.length ≤ whole then
        digits ++ List.replicate (whole - digits.length) '0' ++ ['.', '0']
      else digits.take whole ++ '.' :: digits.drop whole
  else
    let mark := if lead < 0 then ['e', '-'] else ['e', '+']
    let body := match digits with
      | [] => []
      | [d] => [d]
      | d :: rest => d :: '.' :: rest
    body ++ mark ++ Text.decimal lead.natAbs

/-- The text of a number: `1.5`, `1000.0`, `-0.0`, `1e-7`, `1.8446744073709552e+19`. -/
def render (x : Binary64) : List Char :=
  let sign := if x.negative then ['-'] else []
  let d := x.shortest
  let digits := Text.decimal d.digits
  sign ++ layout digits (d.exponent + digits.length - 1)

end Switchboard.Binary64
