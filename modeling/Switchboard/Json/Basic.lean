import Switchboard.Decimal.Binary64

/-!
JSON values.  The fields of an object are kept in ascending order of their keys, each key once;
`Fields.insert` is the only way fields are added, and `Ordered` says of a whole value that all its
objects are in that form.
-/

namespace Switchboard

namespace Json

/-- Integers stay exact; every other numeral is a floating-point number. -/
inductive Number where
  | integer (value : Int)
  | float (value : Binary64)
deriving Repr, DecidableEq, Inhabited

end Json

inductive Json where
  | null
  | bool (value : Bool)
  | number (value : Json.Number)
  | string (value : String)
  | array (items : List Json)
  | object (fields : List (String × Json))
deriving Repr, Inhabited, BEq

namespace Json

abbrev Fields := List (String × Json)

namespace Fields

def get? (fields : Fields) (key : String) : Option Json :=
  match fields with
  | [] => none
  | (k, v) :: rest => if k = key then some v else get? rest key

/-- Puts a value under a key, in its place in the order; a value already there is replaced. -/
def insert (fields : Fields) (key : String) (value : Json) : Fields :=
  match fields with
  | [] => [(key, value)]
  | (k, v) :: rest =>
    if key < k then (key, value) :: (k, v) :: rest
    else if key = k then (key, value) :: rest
    else (k, v) :: insert rest key value

def ofList (entries : List (String × Json)) : Fields :=
  entries.foldl (fun fields (k, v) => fields.insert k v) []

def Ascending : Fields → Prop
  | [] => True
  | [_] => True
  | (k, _) :: (l, v) :: rest => k < l ∧ Ascending ((l, v) :: rest)

@[simp] theorem get?_insert_self (fields : Fields) (key : String) (value : Json) :
    (fields.insert key value).get? key = some value := by
  induction fields with
  | nil => simp [insert, get?]
  | cons entry rest ih =>
    obtain ⟨k, v⟩ := entry
    by_cases below : key < k
    · simp [insert, get?, below]
    · by_cases same : key = k
      · simp [insert, get?, same]
      · have differs : k ≠ key := fun h => same h.symm
        simp [insert, get?, below, same, differs, ih]

theorem get?_insert_of_ne (fields : Fields) {key other : String} (value : Json)
    (differs : key ≠ other) : (fields.insert key value).get? other = fields.get? other := by
  induction fields with
  | nil => simp [insert, get?, differs]
  | cons entry rest ih =>
    obtain ⟨k, v⟩ := entry
    by_cases below : key < k
    · simp [insert, get?, below, differs]
    · by_cases same : key = k
      · subst same
        simp [insert, get?, differs]
      · simp only [insert, below, same, if_false, get?, ih]

end Fields

mutual

/-- All objects inside the value have ascending keys. -/
def Ordered : Json → Prop
  | .array items => OrderedItems items
  | .object fields => Fields.Ascending fields ∧ OrderedFields fields
  | _ => True

def OrderedItems : List Json → Prop
  | [] => True
  | item :: rest => Ordered item ∧ OrderedItems rest

def OrderedFields : List (String × Json) → Prop
  | [] => True
  | field :: rest => OrderedField field ∧ OrderedFields rest

def OrderedField : String × Json → Prop
  | (_, value) => Ordered value

end

def ofNat (n : Nat) : Json := .number (.integer n)

def ofInt (n : Int) : Json := .number (.integer n)

/-- An object from entries in any order; of entries with one key the last counts. -/
def ofEntries (entries : List (String × Json)) : Json := .object (Fields.ofList entries)

def get? : Json → String → Option Json
  | .object fields, key => Fields.get? fields key
  | _, _ => none

def isNull : Json → Bool
  | .null => true
  | _ => false

def asString? : Json → Option String
  | .string s => some s
  | _ => none

end Json

end Switchboard
