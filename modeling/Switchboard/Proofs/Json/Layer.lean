import Switchboard.Json.Merge
import Switchboard.Proofs.Json.Ordered

/-!
One object over another, field by field.

A field of the layer that is there and not `null` counts, laid over what the base has under its key;
every other field of the base stays.  No field has a part in what becomes of another.
-/

namespace Switchboard.Json

variable {base layer : Fields} {key : String} {old new : Option Json} {v : Json}

/-- A field that is there and not `null`. -/
def given (field : Option Json) : Option Json := field.filter (!·.isNull)

theorem given_of_isNull (nothing : v.isNull) : given (some v) = none := by
  simp [given, nothing]

theorem given_some (there : v.isNull = false) : given (some v) = some v := by
  simp [given, there]

/-- What becomes of a field of the base under a field of the layer. -/
def layered (old new : Option Json) : Option Json :=
  match given new with
  | none => old
  | some v => some (match old with | some old => merge old v | none => v)

@[simp] theorem layered_none : layered old none = old := rfl

theorem get?_mergeField (k : String) :
    Fields.get? (mergeField base (k, v)) key =
      if k = key then layered (base.get? key) (some v) else base.get? key := by
  unfold mergeField layered
  by_cases nothing : v.isNull
  · rw [given_of_isNull nothing]
    simp [nothing]
  · rw [given_some (Bool.eq_false_iff.mpr nothing)]
    by_cases same : k = key
    · subst same
      cases there : base.get? k <;> simp [nothing]
    · cases there : base.get? k <;> simp [nothing, same, Fields.get?_insert_of_ne]

theorem ascending_mergeField (ascending : base.Ascending) (field : String × Json) :
    Fields.Ascending (mergeField base field) := by
  obtain ⟨k, v⟩ := field
  unfold mergeField
  split
  · exact ascending
  · split <;> exact ascending.insert

theorem ascending_mergeFields (ascending : base.Ascending) (layer : List (String × Json)) :
    Fields.Ascending (mergeFields base layer) := by
  induction layer generalizing base with
  | nil => exact ascending
  | cons field layer ih => exact ih (ascending_mergeField ascending field)

theorem get?_mergeFields (ascending : layer.Ascending) :
    Fields.get? (mergeFields base layer) key = layered (base.get? key) (layer.get? key) := by
  induction layer generalizing base with
  | nil => rfl
  | cons field layer ih =>
      obtain ⟨k, v⟩ := field
      obtain ⟨above, ascending⟩ := Fields.ascending_cons_iff.mp ascending
      rw [mergeFields, ih ascending, get?_mergeField, Fields.get?]
      by_cases same : k = key
      · subst same
        -- The key comes once, so what it has become here is what it stays.
        simp [Fields.get?_eq_none_of_below above]
      · simp [same]

/-- Whether the layer cannot go on inside the value. -/
def Plain (v : Json) : Prop := ∀ fields, v ≠ .object fields

theorem Plain.merge (plain : v.Plain) (upper : Json) : merge v upper = upper := by
  cases v with
  | object fields => exact absurd rfl (plain fields)
  | _ => cases upper <;> rfl

theorem layered_of_plain (plain : ∀ v ∈ old, v.Plain) :
    layered old new = (given new).or old := by
  unfold layered
  cases given new with
  | none => rfl
  | some v =>
      cases old with
      | none => rfl
      | some v' => simp [(plain v' rfl).merge]

/-- The fields of a section; none where it is missing or `null`. -/
def inner : Option Json → Fields
  | some (.object fields) => fields
  | _ => []

theorem ascending_inner (ordered : (Json.object layer).Ordered) (key : String) :
    (inner (layer.get? key)).Ascending := by
  unfold inner
  split
  · rename_i fields found
    have member := ordered.1.get?_eq_some_iff.mp found
    have value : (Json.object fields).Ordered := orderedFields_iff.mp ordered.2 _ member
    exact value.1
  · trivial

/-- A section is missing, `null` or an object. -/
def Sectional : Option Json → Prop
  | none | some .null | some (.object _) => True
  | _ => False

theorem layered_section (sectional : Sectional new) :
    layered (some (.object base)) new = some (.object (mergeFields base (inner new))) := by
  match new, sectional with
  | none, _ => rfl
  | some .null, _ => rfl
  | some (.object _), _ => rfl

end Switchboard.Json
