import Switchboard.Json.Basic

/-!
Laying one JSON value over another.
-/

namespace Switchboard.Json

mutual

/-- Objects are laid over objects field by field; anything else replaces what it is laid over. -/
def merge : Json → Json → Json
  | .object base, .object layer => .object (mergeFields base layer)
  | _, layer => layer
termination_by structural _ layer => layer

def mergeFields : Fields → List (String × Json) → Fields
  | base, [] => base
  | base, field :: rest => mergeFields (mergeField base field) rest
termination_by structural _ layer => layer

/-- A `null` leaves the field as it is. -/
def mergeField : Fields → String × Json → Fields
  | base, (key, value) =>
    if value.isNull then base
    else
      match Fields.get? base key with
      | some old => Fields.insert base key (merge old value)
      | none => Fields.insert base key value
termination_by structural _ field => field

end

end Switchboard.Json
