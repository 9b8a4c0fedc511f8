/-!
Bytes read as UTF-8, and texts cut to a number of bytes.

A byte string is read as a list in which every well-formed character stands for itself and every
maximal ill-formed stretch (the bytes that could still have become a character, or one byte that
could not) is one gap.  `decode?` refuses gaps, `decodeLossy` shows them as U+FFFD.
-/

namespace Switchboard.Text.Utf8

/-- A character that has begun: how many bytes it lacks, where the next one may lie, and the bits
read so far. -/
structure Partial where
  missing : Nat
  low : Nat
  high : Nat
  bits : Nat
deriving Repr, DecidableEq

/-- Reads a byte at the start of a character.  The ranges for the second byte leave out overlong
forms, surrogates and numbers above U+10FFFF. -/
def start (b : Nat) : List (Option Char) × Option Partial :=
  if b < 0x80 then ([some (Char.ofNat b)], none)
  else if 0xC2 ≤ b && b ≤ 0xDF then ([], some ⟨1, 0x80, 0xBF, b - 0xC0⟩)
  else if b = 0xE0 then ([], some ⟨2, 0xA0, 0xBF, 0⟩)
  else if b = 0xED then ([], some ⟨2, 0x80, 0x9F, 0xD⟩)
  else if 0xE1 ≤ b && b ≤ 0xEF then ([], some ⟨2, 0x80, 0xBF, b - 0xE0⟩)
  else if b = 0xF0 then ([], some ⟨3, 0x90, 0xBF, 0⟩)
  else if 0xF1 ≤ b && b ≤ 0xF3 then ([], some ⟨3, 0x80, 0xBF, b - 0xF0⟩)
  else if b = 0xF4 then ([], some ⟨3, 0x80, 0x8F, 4⟩)
  else ([none], none)

/-- Reads a byte after what came before it. -/
def feed : Option Partial → Nat → List (Option Char) × Option Partial
  | none, b => start b
  | some p, b =>
    if p.low ≤ b && b ≤ p.high then
      let bits := 64 * p.bits + (b - 0x80)
      if p.missing ≤ 1 then ([some (Char.ofNat bits)], none)
      else ([], some ⟨p.missing - 1, 0x80, 0xBF, bits⟩)
    else
      let (out, next) := start b
      (none :: out, next)

def decodeFrom : Option Partial → List UInt8 → List (Option Char)
  | none, [] => []
  | some _, [] => [none]
  | state, b :: rest =>
    let (out, next) := feed state b.toNat
    out ++ decodeFrom next rest

/-- The characters of a byte string; `none` marks an ill-formed stretch. -/
def decode (bytes : List UInt8) : List (Option Char) := decodeFrom none bytes

def decode? (bytes : List UInt8) : Option (List Char) := (decode bytes).mapM id

def decodeLossy (bytes : List UInt8) : List Char :=
  (decode bytes).map (·.getD '\uFFFD')

/-- How many bytes a text takes. -/
def byteCount (cs : List Char) : Nat := (cs.map Char.utf8Size).foldr (· + ·) 0

/-- Whether `n` bytes from the start of the text a character ends (or the text begins). -/
def isBoundary : List Char → Nat → Bool
  | _, 0 => true
  | [], _ + 1 => false
  | c :: cs, n + 1 => c.utf8Size ≤ n + 1 && isBoundary cs (n + 1 - c.utf8Size)

/-- The last boundary at or before `n`. -/
def boundaryBefore (cs : List Char) : Nat → Nat
  | 0 => 0
  | n + 1 => if isBoundary cs (n + 1) then n + 1 else boundaryBefore cs n

/-- The characters that lie wholly within the first `n` bytes. -/
def takeBytes : Nat → List Char → List Char
  | _, [] => []
  | n, c :: cs => if c.utf8Size ≤ n then c :: takeBytes (n - c.utf8Size) cs else []

/-- Cuts a text that is longer than `limit` bytes at the last boundary that fits. -/
def preview (limit : Nat) (cs : List Char) : List Char :=
  if byteCount cs ≤ limit then cs else takeBytes (boundaryBefore cs limit) cs

end Switchboard.Text.Utf8
