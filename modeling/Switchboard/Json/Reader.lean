import Switchboard.Json.Basic
import Switchboard.Text.Digits

/-!
Reading JSON text.

Values nest at most `maxDepth` deep.  A text is refused for one of two causes: it ends where more
must follow, or it is malformed at some place before its end.  An integer that fits sixty-four bits
stays exact; of longer numerals only the leading digits that fit take part, and a numeral too large
for a floating-point number is malformed.
-/

namespace Switchboard.Json

inductive ReadError where
  | ended
  | malformed
deriving Repr, DecidableEq, Inhabited

abbrev Reader (α : Type) := List Char → Except ReadError (α × List Char)

/-- Arrays and objects inside one another, the outermost counted. -/
def maxDepth : Nat := 127

/-- The first number that needs more than sixty-four bits. -/
def wordBound : Nat := Nat.pow 2 64

def isSpace (c : Char) : Bool := c = ' ' || c = '\n' || c = '\t' || c = '\r'

def skipSpace (cs : List Char) : List Char := cs.dropWhile isSpace

/-- Reads the characters of `word` and nothing else. -/
def expectWord : List Char → Reader Unit
  | [], cs => .ok ((), cs)
  | _ :: _, [] => .error .ended
  | w :: word, c :: cs => if w = c then expectWord word cs else .error .malformed

/-- Four hexadecimal digits.  A text with fewer than four bytes left has ended, whatever they
are. -/
def readHex (cs : List Char) : Except ReadError (Nat × List Char) :=
  if ((cs.take 4).map Char.utf8Size).foldr (· + ·) 0 < 4 then .error .ended
  else
    match cs with
    | a :: b :: c :: d :: rest =>
      match Text.hexValue a, Text.hexValue b, Text.hexValue c, Text.hexValue d with
      | some a, some b, some c, some d => .ok (4096 * a + 256 * b + 16 * c + d, rest)
      | _, _, _, _ => .error .malformed
    | _ => .error .malformed

/-- One character after `\u`; numbers beyond the first plane are written as a pair of surrogates,
and a surrogate alone is malformed. -/
def readNumbered (cs : List Char) : Except ReadError (Char × List Char) := do
  let (n, cs) ← readHex cs
  if 0xDC00 ≤ n && n ≤ 0xDFFF then throw .malformed
  if n < 0xD800 || 0xDBFF < n then return (Char.ofNat n, cs)
  match cs with
  | [] => throw .ended
  | '\\' :: [] => throw .ended
  | '\\' :: 'u' :: cs =>
    let (low, cs) ← readHex cs
    if low < 0xDC00 || 0xDFFF < low then throw .malformed
    return (Char.ofNat (0x10000 + 0x400 * (n - 0xD800) + (low - 0xDC00)), cs)
  | _ => throw .malformed

def readEscape : List Char → Except ReadError (Char × List Char)
  | [] => .error .ended
  | '"' :: cs => .ok ('"', cs)
  | '\\' :: cs => .ok ('\\', cs)
  | '/' :: cs => .ok ('/', cs)
  | 'b' :: cs => .ok (Char.ofNat 8, cs)
  | 'f' :: cs => .ok (Char.ofNat 12, cs)
  | 'n' :: cs => .ok ('\n', cs)
  | 'r' :: cs => .ok ('\r', cs)
  | 't' :: cs => .ok ('\t', cs)
  | 'u' :: cs => readNumbered cs
  | _ :: _ => .error .malformed

/-- The rest of a string after its opening quote.  Each round takes a character at least, so the
length of the text is fuel enough. -/
def readChars : Nat → List Char → Except ReadError (List Char × List Char)
  | 0, _ => .error .ended
  | _ + 1, [] => .error .ended
  | fuel + 1, c :: cs =>
    if c = '"' then .ok ([], cs)
    else if c = '\\' then
      match readEscape cs with
      | .error e => .error e
      | .ok (c, cs) =>
        match readChars fuel cs with
        | .error e => .error e
        | .ok (s, cs) => .ok (c :: s, cs)
    else if c.toNat < 0x20 then .error .malformed
    else
      match readChars fuel cs with
      | .error e => .error e
      | .ok (s, cs) => .ok (c :: s, cs)

def readString (cs : List Char) : Except ReadError (String × List Char) :=
  match readChars (cs.length + 1) cs with
  | .error e => .error e
  | .ok (s, cs) => .ok (String.ofList s, cs)

/-- Takes digits as long as the number so far fits a word; gives the number, how many digits were
taken, and the rest. -/
def takeWord (n : Nat) (count : Nat) : List Char → Nat × Nat × List Char
  | [] => (n, count, [])
  | c :: cs =>
    if Text.isDigit c && 10 * n + Text.digitValue c < wordBound then
      takeWord (10 * n + Text.digitValue c) (count + 1) cs
    else (n, count, c :: cs)

def startsWithDigit : List Char → Bool
  | [] => false
  | c :: _ => Text.isDigit c

/-- A floating-point number from its parts; one that is too large is malformed. -/
def floatOf (negative : Bool) (significand : Nat) (exponent : Int) : Except ReadError Number :=
  match Binary64.ofDecimal negative significand exponent with
  | some x => .ok (.float x)
  | none => .error .malformed

/-- The greatest exponent that is told apart from larger ones. -/
def exponentBound : Nat := Nat.pow 2 31 - 1

def clampExponent (e : Int) : Int := max (-(Nat.pow 2 31 : Int)) (min exponentBound e)

def readExponent (negative : Bool) (significand : Nat) (before : Int) (cs : List Char) :
    Except ReadError (Number × List Char) := do
  let (down, cs) := match cs with
    | '+' :: cs => (false, cs)
    | '-' :: cs => (true, cs)
    | cs => (false, cs)
  if cs.isEmpty then throw .ended
  if !startsWithDigit cs then throw .malformed
  let e := Text.natOfDigits (cs.takeWhile Text.isDigit)
  let rest := cs.dropWhile Text.isDigit
  if exponentBound < e then
    if significand ≠ 0 && !down then throw .malformed
    return (.float (.zero negative), rest)
  let exponent := clampExponent (if down then before - e else before + e)
  return (← floatOf negative significand exponent, rest)

/-- The end of a numeral: an exponent or nothing. -/
def readTail (negative : Bool) (significand : Nat) (exponent : Int) (cs : List Char) :
    Except ReadError (Number × List Char) := do
  match cs with
  | 'e' :: cs => readExponent negative significand exponent cs
  | 'E' :: cs => readExponent negative significand exponent cs
  | cs => return (← floatOf negative significand exponent, cs)

/-- What follows the decimal point: at least one digit, of which those beyond a word's size do not
count. -/
def readFraction (negative : Bool) (significand : Nat) (exponent : Int) (cs : List Char) :
    Except ReadError (Number × List Char) :=
  let (n, count, rest) := takeWord significand 0 cs
  if startsWithDigit rest then
    readTail negative n (exponent - count) (rest.dropWhile Text.isDigit)
  else if count = 0 then
    if rest.isEmpty then .error .ended else .error .malformed
  else readTail negative n (exponent - count) rest

/-- An integer: below zero it must fit sixty-three bits, and minus zero is a floating-point
number. -/
def integerOf (negative : Bool) (n : Nat) : Except ReadError Number :=
  if !negative then .ok (.integer n)
  else if n = 0 || Nat.pow 2 63 < n then floatOf true n 0
  else .ok (.integer (-(n : Int)))

def readNumber (negative : Bool) (cs : List Char) : Except ReadError (Number × List Char) := do
  match cs with
  | [] => throw .ended
  | c :: rest =>
    if !Text.isDigit c then throw .malformed
    if c = '0' && startsWithDigit rest then throw .malformed
    let (n, _, rest) := takeWord 0 0 cs
    let skipped := rest.takeWhile Text.isDigit
    let rest := rest.dropWhile Text.isDigit
    match rest with
    | '.' :: rest => readFraction negative n skipped.length rest
    | 'e' :: _ => readTail negative n skipped.length rest
    | 'E' :: _ => readTail negative n skipped.length rest
    | _ =>
      if skipped.isEmpty then return (← integerOf negative n, rest)
      else return (← floatOf negative n skipped.length, rest)

/-- The items after the opening bracket; `first` until one has been read. -/
def readItems (readValue : Reader Json) : Nat → Bool → List Char →
    Except ReadError (List Json × List Char)
  | 0, _, _ => .error .ended
  | fuel + 1, first, cs =>
    match skipSpace cs with
    | [] => .error .ended
    | ']' :: cs => .ok ([], cs)
    | c :: cs => do
      let cs ←
        if first then pure (c :: cs)
        else if c ≠ ',' then throw .malformed
        else match skipSpace cs with
          | [] => throw .ended
          | ']' :: _ => throw .malformed
          | cs => pure cs
      let (item, cs) ← readValue cs
      let (items, cs) ← readItems readValue fuel false cs
      return (item :: items, cs)

/-- A key with its value, from the key's opening quote on. -/
def readField (readValue : Reader Json) (cs : List Char) :
    Except ReadError ((String × Json) × List Char) := do
  match cs with
  | '"' :: cs =>
    let (key, cs) ← readString cs
    match skipSpace cs with
    | [] => throw .ended
    | ':' :: cs =>
      let (value, cs) ← readValue cs
      return ((key, value), cs)
    | _ => throw .malformed
  | _ => throw .malformed

/-- The fields after the opening brace, in the order of the text. -/
def readFields (readValue : Reader Json) : Nat → Bool → List Char →
    Except ReadError (List (String × Json) × List Char)
  | 0, _, _ => .error .ended
  | fuel + 1, first, cs =>
    match skipSpace cs with
    | [] => .error .ended
    | '\x7d' :: cs => .ok ([], cs)
    | c :: cs => do
      let cs ←
        if first then pure (c :: cs)
        else if c ≠ ',' then throw .malformed
        else match skipSpace cs with
          | [] => throw .ended
          | cs => pure cs
      let (field, cs) ← readField readValue cs
      let (fields, cs) ← readFields readValue fuel false cs
      return (field :: fields, cs)

/-- A value with room for `depth` levels of nesting. -/
def readValue : Nat → Reader Json
  | depth, cs =>
    match skipSpace cs with
    | [] => .error .ended
    | 'n' :: cs => do
      let (_, cs) ← expectWord ['u', 'l', 'l'] cs
      return (.null, cs)
    | 't' :: cs => do
      let (_, cs) ← expectWord ['r', 'u', 'e'] cs
      return (.bool true, cs)
    | 'f' :: cs => do
      let (_, cs) ← expectWord ['a', 'l', 's', 'e'] cs
      return (.bool false, cs)
    | '-' :: cs => do
      let (n, cs) ← readNumber true cs
      return (.number n, cs)
    | '"' :: cs => do
      let (s, cs) ← readString cs
      return (.string s, cs)
    | '[' :: cs =>
      match depth with
      | 0 => .error .malformed
      | depth + 1 => do
        let (items, cs) ← readItems (readValue depth) (cs.length + 1) true cs
        return (.array items, cs)
    | '\x7b' :: cs =>
      match depth with
      | 0 => .error .malformed
      | depth + 1 => do
        let (fields, cs) ← readFields (readValue depth) (cs.length + 1) true cs
        return (.object (Fields.ofList fields), cs)
    | c :: cs =>
      if Text.isDigit c then do
        let (n, cs) ← readNumber false (c :: cs)
        return (.number n, cs)
      else .error .malformed

/-- The value a text consists of, with nothing but space around it. -/
def read (text : String) : Except ReadError Json := do
  let (value, rest) ← readValue maxDepth text.toList
  if (skipSpace rest).isEmpty then return value
  else throw .malformed

end Switchboard.Json
