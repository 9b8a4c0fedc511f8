import Switchboard.Json.Text
import Switchboard.Text.Quoted

/-!
Reading domain values out of JSON values.

A record is described by a `Shape`: its fields in order, each with a decoder and with what holds
when it is missing.  A record decodes from an object, whose fields are looked at in the order they
are kept and where unknown ones do not count, or from an array, by position.  The first fault found
is the one reported; missing fields come after all faults of fields that are there.
-/

namespace Switchboard.Json

inductive DecodeError where
  | wrongType (got : Json) (want : String)
  | outOfRange (got : Int) (want : String)
  | unknownVariant (got : String) (known : List String)
  | notSingleKey
  | missingField (name : String)
  | tooShort (length : Nat) (record : String) (fields : Nat)
  | tooLong (length : Nat)
deriving Repr, Inhabited, BEq

abbrev Decoder (α : Type) := Json → Except DecodeError α

/-- How a value is spoken of in a message. -/
def described : Json → String
  | .null => "null"
  | .bool b => s!"boolean `{b}`"
  | .number (.integer n) => s!"integer `{String.ofList (Text.intDecimal n)}`"
  | .number (.float x) => s!"floating point `{String.ofList x.render}`"
  | .string s => s!"string {Text.quoted s}"
  | .array _ => "sequence"
  | .object _ => "map"

def DecodeError.message : DecodeError → String
  | .wrongType got want => s!"invalid type: {got.described}, expected {want}"
  | .outOfRange got want =>
    s!"invalid value: integer `{String.ofList (Text.intDecimal got)}`, expected {want}"
  | .unknownVariant got known =>
    let names := ", ".intercalate (known.map fun name => s!"`{name}`")
    s!"unknown variant `{got}`, expected one of {names}"
  | .notSingleKey => "invalid value: map, expected map with a single key"
  | .missingField name => s!"missing field `{name}`"
  | .tooShort length record fields =>
    s!"invalid length {length}, expected struct {record} with {fields} elements"
  | .tooLong length => s!"invalid length {length}, expected fewer elements in array"

namespace Decoder

def any : Decoder Json := .ok

def string : Decoder String
  | .string s => .ok s
  | v => .error (.wrongType v "a string")

def bool : Decoder Bool
  | .bool b => .ok b
  | v => .error (.wrongType v "a boolean")

/-- An integer from `low` up to but not including `high`; `want` names the range. -/
def integer (want : String) (low high : Int) : Decoder Int
  | .number (.integer n) =>
    if low ≤ n && n < high then .ok n else .error (.outOfRange n want)
  | v => .error (.wrongType v want)

def signed64 : Decoder Int := integer "i64" (-(Nat.pow 2 63 : Int)) (Nat.pow 2 63)

def unsigned32 : Decoder UInt32 := fun v =>
  (integer "u32" 0 (Nat.pow 2 32) v).map fun n => UInt32.ofNat n.toNat

def unsigned64 : Decoder UInt64 := fun v =>
  (integer "u64" 0 (Nat.pow 2 64) v).map fun n => UInt64.ofNat n.toNat

/-- A count of things in memory; the same range as sixty-four bits under a name of its own. -/
def size64 : Decoder UInt64 := fun v =>
  (integer "usize" 0 (Nat.pow 2 64) v).map fun n => UInt64.ofNat n.toNat

def nullable (decode : Decoder α) : Decoder (Option α)
  | .null => .ok none
  | v => (decode v).map some

/-- One of a list of names, given as a string or as the only key of an object whose value is
`null`. -/
def variant (known : List (String × α)) : Decoder α := fun v =>
  let find (name : String) : Except DecodeError α :=
    match known.lookup name with
    | some a => .ok a
    | none => .error (.unknownVariant name (known.map (·.1)))
  match v with
  | .string name => find name
  | .object [(name, inner)] => do
    let a ← find name
    match inner with
    | .null => return a
    | other => throw (.wrongType other "unit")
  | .object _ => .error .notSingleKey
  | other => .error (.wrongType other "string or map")

end Decoder

/-- A field of a record as seen by the first pass: its name, whether a value suits it, and whether
an array may end before it. -/
structure FieldRule where
  name : String
  check : Json → Except DecodeError Unit
  spare : Bool

/-- The fields of a record and how its value is built from them. -/
structure Shape (α : Type) where
  rules : List FieldRule
  build : (String → Option Json) → Except DecodeError α

namespace Shape

instance : Functor Shape where
  map f s := ⟨s.rules, fun look => (s.build look).map f⟩

instance : Applicative Shape where
  pure a := ⟨[], fun _ => .ok a⟩
  seq f x :=
    let x := x ()
    ⟨f.rules ++ x.rules, fun look => do return (← f.build look) (← x.build look)⟩

def checkOf (decode : Decoder α) (v : Json) : Except DecodeError Unit := (decode v).map fun _ => ()

def required (name : String) (decode : Decoder α) : Shape α :=
  ⟨[⟨name, checkOf decode, false⟩], fun look =>
    match look name with
    | some v => decode v
    | none => .error (.missingField name)⟩

/-- A field that may be missing or `null` in an object; an array must have its place. -/
def optional (name : String) (decode : Decoder α) : Shape (Option α) :=
  ⟨[⟨name, checkOf decode.nullable, false⟩], fun look =>
    match look name with
    | some v => decode.nullable v
    | none => .ok none⟩

/-- A field with a value of its own when it is missing. -/
def defaulted (name : String) (decode : Decoder α) (fallback : α) : Shape α :=
  ⟨[⟨name, checkOf decode, true⟩], fun look =>
    match look name with
    | some v => decode v
    | none => .ok fallback⟩

/-- Checks the fields of an object in the order they are kept. -/
def checkFields (rules : List FieldRule) : List (String × Json) → Except DecodeError Unit
  | [] => .ok ()
  | (key, value) :: rest =>
    match rules.find? (·.name = key) with
    | some rule => do
      rule.check value
      checkFields rules rest
    | none => checkFields rules rest

/-- Pairs the items of an array with the fields of a record whose first field has number `index`;
`total` is their number. -/
def placeItems (record : String) (total : Nat) :
    Nat → List FieldRule → List Json → Except DecodeError (List (String × Json))
  | _, [], [] => .ok []
  | index, [], items => .error (.tooLong (index + items.length))
  | index, rule :: rules, [] =>
    if rule.spare then placeItems record total (index + 1) rules []
    else .error (.tooShort index record total)
  | index, rule :: rules, item :: items => do
    rule.check item
    return (rule.name, item) :: (← placeItems record total (index + 1) rules items)

/-- The decoder of a record with these fields. -/
def decoder (record : String) (shape : Shape α) : Decoder α
  | .object fields => do
    checkFields shape.rules fields
    shape.build (Fields.get? fields)
  | .array items => do
    let placed ← placeItems record shape.rules.length 0 shape.rules items
    shape.build (Fields.get? placed)
  | v => .error (.wrongType v s!"struct {record}")

end Shape

end Switchboard.Json
