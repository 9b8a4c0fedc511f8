import Switchboard.Text.Case

/-!
How a statement that creates a table spells its name: as a word or as a name in quotes, after the
name of a database and a point where one is given.  A word that the language of statements needs
for itself is no name unless it is quoted.
-/

namespace Switchboard

structure TableName where
  /-- The database the table is to be in, where the spelling says. -/
  database : Option String
  name : String
deriving Repr, DecidableEq, Inhabited

inductive SpellingFault where
  | misspelled
  /-- The statement is cut off within its name or behind it. -/
  | unfinished
deriving Repr, DecidableEq, Inhabited

namespace TableName

inductive Token where
  | name (text : String)
  | point
  | stray
deriving Repr, DecidableEq, Inhabited

/-- Words that are no names, in lower case. -/
def reservedWords : List String :=
  ["add", "all", "alter", "and", "as", "autoincrement", "between", "case", "check", "collate",
    "commit", "constraint", "create", "default", "deferrable", "delete", "distinct", "drop", "else",
    "escape", "except", "exists", "foreign", "from", "group", "having", "if", "in", "index",
    "insert", "intersect", "into", "is", "isnull", "join", "limit", "not", "nothing", "notnull",
    "null", "on", "or", "order", "primary", "references", "returning", "select", "set", "table",
    "then", "to", "transaction", "union", "unique", "update", "using", "values", "when", "where"]

/-- Letters, the underscore and everything beyond ASCII begin a word. -/
def isWordStart (c : Char) : Bool := c.isAlpha || c == '_' || 0x80 ≤ c.toNat

def isWordPart (c : Char) : Bool := isWordStart c || c.isDigit || c == '$'

/-- Blanks, and the mark that may open a text. -/
def isBlank (c : Char) : Bool := c ∈ [' ', '\t', '\n', '\x0c', '\r', '\ufeff']

/-- A vertical tab is a blank after another one only. -/
def continuesBlank (c : Char) : Bool := isBlank c || c == '\x0b'

def ofWord (word : String) : Token :=
  if Text.lowered word ∈ reservedWords then .stray else .name word

/-- The mark that closes a name which this one opens: the double quote, the grave accent and the
apostrophe close what they open. -/
def closing? : Char → Option Char
  | '"' => some '"'
  | '\x60' => some '\x60'
  | '\x27' => some '\x27'
  | '[' => some ']'
  | _ => none

/-- A name up to the mark that closes it, and what follows.  Written twice the mark stands for
itself, unless it is a bracket. -/
def upTo (close : Char) : List Char → Option (List Char × List Char)
  | [] => none
  | c :: rest =>
    if c != close then (upTo close rest).map fun (text, after) => (c :: text, after)
    else
      match rest with
      | [] => some ([], [])
      | d :: more =>
        if d == close && close != ']' then
          (upTo close more).map fun (text, after) => (c :: text, after)
        else some ([], d :: more)

theorem length_lt_of_upTo {close : Char} {cs text after : List Char}
    (read : upTo close cs = some (text, after)) : after.length < cs.length := by
  fun_induction upTo close cs generalizing text with
  | case1 => simp at read
  | case2 c rest _ ih =>
    obtain ⟨⟨inner, following⟩, found, same⟩ := Option.map_eq_some_iff.1 read
    cases same
    exact Nat.lt_succ_of_lt (ih found)
  | case3 => cases read; simp
  | case4 c _ d more _ ih =>
    obtain ⟨⟨inner, following⟩, found, same⟩ := Option.map_eq_some_iff.1 read
    cases same
    exact Nat.lt_succ_of_lt (Nat.lt_succ_of_lt (ih found))
  | case5 => cases read; simp

/-- Reading stops at the first thing that no name is made of. -/
def scan : List Char → List Token
  | [] => []
  | c :: rest =>
    if isBlank c then scan (rest.dropWhile continuesBlank)
    else if c == '.' then .point :: scan rest
    else if isWordStart c then
      ofWord (String.ofList (c :: rest.takeWhile isWordPart)) :: scan (rest.dropWhile isWordPart)
    else
      match closing? c with
      | none => [.stray]
      | some close =>
        match _closed : upTo close rest with
        | none => [.stray]
        | some (text, after) => .name (String.ofList text) :: scan after
termination_by cs => cs.length
decreasing_by
  · exact Nat.lt_succ_of_le (List.dropWhile_suffix _).length_le
  · simp
  · exact Nat.lt_succ_of_le (List.dropWhile_suffix _).length_le
  · exact Nat.lt_succ_of_lt (length_lt_of_upTo _closed)

/-- The name that a spelling gives.  A null character cuts the statement off. -/
def read (spelling : String) : Except SpellingFault TableName :=
  let isText (c : Char) : Bool := c != '\x00'
  let tokens := scan (' ' :: spelling.toList.takeWhile isText)
  if spelling.toList.all isText then
    match tokens with
    | [.name name] => .ok ⟨none, name⟩
    | [.name database, .point, .name name] => .ok ⟨some database, name⟩
    | _ => .error .misspelled
  else
    match tokens with
    | [] | [.name _] | [.name _, .point] | [.name _, .point, .name _] => .error .unfinished
    | _ => .error .misspelled

end TableName

end Switchboard
