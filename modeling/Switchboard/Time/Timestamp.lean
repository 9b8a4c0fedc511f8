import Switchboard.Text.Digits
import Switchboard.Time.Calendar

/-!
Instants in UTC and their texts.

The canonical form is `YYYY-MM-DDThh:mm:ss.ffffffZ`: microseconds, no offset, and for years of four
digits a fixed width, so that the order of texts is the order of instants.  `normalize` brings any
timestamp with an offset into that form.
-/

namespace Switchboard

/-- Seconds since 1970-01-01 and nanoseconds within the second.  A leap second is the second before
it with a thousand million nanoseconds or more. -/
structure Instant where
  seconds : Int
  nanos : Nat
deriving Repr, DecidableEq, Inhabited

namespace Instant

def nanosPerSecond : Nat := 1000000000

def secondsPerDay : Int := 86400

/-- The years for which there are instants. -/
def minYear : Int := -262143

def maxYear : Int := 262142

def minSeconds : Int := Calendar.dayNumber ⟨minYear, 1, 1⟩ * secondsPerDay

def maxSeconds : Int := Calendar.dayNumber ⟨maxYear + 1, 1, 1⟩ * secondsPerDay - 1

/-- The earliest instant. -/
def earliest : Instant := ⟨minSeconds, 0⟩

/-- An instant by seconds and nanoseconds, if there is such a one. -/
def of? (seconds : Int) (nanos : Nat) : Option Instant :=
  if minSeconds ≤ seconds && seconds ≤ maxSeconds &&
      (nanos < nanosPerSecond || (nanos < 2 * nanosPerSecond && seconds % 60 == 59)) then
    some ⟨seconds, nanos⟩
  else none

/-- Earlier by seconds first, by nanoseconds next. -/
def le (a b : Instant) : Bool :=
  a.seconds < b.seconds || (a.seconds == b.seconds && a.nanos ≤ b.nanos)

/-- The instant `seconds` and `nanos` before another one, and the earliest if there is none. -/
def before (now : Instant) (seconds nanos : Nat) : Instant :=
  let total := (now.seconds - seconds) * nanosPerSecond + now.nanos - nanos
  let s := total / nanosPerSecond
  if s < minSeconds then earliest else ⟨s, (total % nanosPerSecond).toNat⟩

def twoDigits (n : Nat) : List Char := Text.padded 2 (Text.decimal n)

/-- Four digits, and a sign for the years before 0 or after 9999. -/
def yearText (year : Int) : List Char :=
  let digits := Text.padded 4 (Text.decimal year.natAbs)
  if year < 0 then '-' :: digits
  else if 9999 < year then '+' :: digits
  else digits

/-- The canonical form, as characters. -/
def render (at_ : Instant) : List Char :=
  let date := Calendar.dateOf (at_.seconds / secondsPerDay)
  let second := (at_.seconds % secondsPerDay).toNat
  yearText date.year ++ '-' :: twoDigits date.month ++ '-' :: twoDigits date.day ++
    'T' :: twoDigits (second / 3600) ++ ':' :: twoDigits (second / 60 % 60) ++
    ':' :: twoDigits (second % 60 + at_.nanos / nanosPerSecond) ++
    '.' :: Text.padded 6 (Text.decimal (at_.nanos % nanosPerSecond / 1000)) ++ ['Z']

/-- The canonical form. -/
def text (at_ : Instant) : String := String.ofList at_.render

/-- Exactly `count` digits. -/
def readDigits (count : Nat) (cs : List Char) : Option (Nat × List Char) :=
  let ds := cs.take count
  if ds.length = count && ds.all Text.isDigit then some (Text.natOfDigits ds, cs.drop count)
  else none

def readChar (c : Char) : List Char → Option (List Char)
  | [] => none
  | d :: cs => if d = c then some cs else none

/-- A fraction of a second in nanoseconds; digits after the ninth do not count. -/
def readFraction (cs : List Char) : Option (Nat × List Char) :=
  match cs with
  | '.' :: cs =>
    let ds := cs.takeWhile Text.isDigit
    if ds.isEmpty then none
    else
      let nine := ds.take 9
      some (Text.natOfDigits nine * Nat.pow 10 (9 - nine.length), cs.dropWhile Text.isDigit)
  | cs => some (0, cs)

/-- An offset from UTC in seconds: `Z`, or a sign, hours up to 23 and minutes up to 59.  The minus
sign may be a hyphen or U+2212. -/
def readOffset (cs : List Char) : Option (Int × List Char) :=
  let signed (sign : Int) (cs : List Char) : Option (Int × List Char) := do
    let (hours, cs) ← readDigits 2 cs
    let cs ← readChar ':' cs
    let (minutes, cs) ← readDigits 2 cs
    if hours ≤ 23 && minutes ≤ 59 then some (sign * (hours * 3600 + minutes * 60), cs) else none
  match cs with
  | [] => none
  | c :: cs =>
    if c = 'Z' || c = 'z' then some (0, cs)
    else if c = '+' then signed 1 cs
    else if c = '-' || c = '\u2212' then signed (-1) cs
    else none

/-- Reads date, time and offset with nothing around them.  Second 60 is a leap second at whatever
minute it stands. -/
def read (cs : List Char) : Option Instant := do
  let (year, cs) ← readDigits 4 cs
  let cs ← readChar '-' cs
  let (month, cs) ← readDigits 2 cs
  let cs ← readChar '-' cs
  let (day, cs) ← readDigits 2 cs
  let cs ← readChar 'T' cs <|> readChar 't' cs <|> readChar ' ' cs
  let (hour, cs) ← readDigits 2 cs
  let cs ← readChar ':' cs
  let (minute, cs) ← readDigits 2 cs
  let cs ← readChar ':' cs
  let (second, cs) ← readDigits 2 cs
  let (nanos, cs) ← readFraction cs
  let (offset, cs) ← readOffset cs
  let date : Calendar.Date := ⟨year, month, day⟩
  if !cs.isEmpty || !date.isValid || 23 < hour || 59 < minute || 60 < second then none
  else
    let leap := if second = 60 then 1 else 0
    let clock : Int := hour * 3600 + minute * 60 + (second - leap : Nat)
    some ⟨Calendar.dayNumber date * secondsPerDay + clock - offset,
      nanos + leap * nanosPerSecond⟩

end Instant

/-- The canonical form of a timestamp, if it is one. -/
def normalize (raw : String) : Option String := (Instant.read raw.toList).map Instant.text

end Switchboard
