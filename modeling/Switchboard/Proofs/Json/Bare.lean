import Switchboard.Proofs.Json.Layer
import Switchboard.Proofs.Json.Outward

/-!
Values without the `null` fields of their objects.

Laid over an object, a layer and the same layer without its `null` fields give objects that differ only
inside values which the base has no object for.
-/

namespace Switchboard.Json

mutual

/-- A value without the fields of its objects that are `null`; arrays stay as they are. -/
def bare : Json → Json
  | .object fields => .object (bareFields fields)
  | v => v
termination_by structural v => v

def bareFields : List (String × Json) → Fields
  | [] => []
  | field :: rest => bareField field ++ bareFields rest
termination_by structural fields => fields

def bareField : String × Json → Fields
  | (key, value) => if value.isNull then [] else [(key, bare value)]
termination_by structural field => field

end

variable {v : Json} {base layer : Fields} {key : String} {entry : String × Json}

theorem isNull_bare (v : Json) : (bare v).isNull = v.isNull := by
  cases v <;> rfl

theorem outward_bare (v : Json) : Outward v (bare v) := by
  cases v with
  | object fields => exact .inr ⟨fields, bareFields fields, rfl, rfl⟩
  | _ => exact .inl rfl

theorem key_of_mem_bareFields (member : entry ∈ bareFields layer) : ∃ v, (entry.1, v) ∈ layer := by
  induction layer with
  | nil => nomatch member
  | cons field layer ih =>
      obtain ⟨k, v⟩ := field
      rw [bareFields, List.mem_append] at member
      rcases member with here | later
      · unfold bareField at here
        split at here
        · nomatch here
        · obtain rfl := List.mem_singleton.mp here
          exact ⟨v, List.mem_cons_self⟩
      · obtain ⟨v', there⟩ := ih later
        exact ⟨v', List.mem_cons_of_mem _ there⟩

theorem ascending_bareFields (ascending : layer.Ascending) : (bareFields layer).Ascending := by
  induction layer with
  | nil => trivial
  | cons field layer ih =>
      obtain ⟨k, v⟩ := field
      obtain ⟨above, ascending⟩ := Fields.ascending_cons_iff.mp ascending
      rw [bareFields, bareField]
      split
      · exact ih ascending
      · refine Fields.ascending_cons_iff.mpr ⟨fun entry member => ?_, ih ascending⟩
        obtain ⟨v', there⟩ := key_of_mem_bareFields member
        exact above (entry.1, v') there

theorem get?_bareFields (ascending : layer.Ascending) :
    Fields.get? (bareFields layer) key = (given (layer.get? key)).map bare := by
  induction layer with
  | nil => rfl
  | cons field layer ih =>
      obtain ⟨k, v⟩ := field
      obtain ⟨above, ascending⟩ := Fields.ascending_cons_iff.mp ascending
      rw [bareFields, bareField, Fields.get?]
      by_cases nothing : v.isNull
      · by_cases same : k = key
        · subst same
          simp [nothing, ih ascending, Fields.get?_eq_none_of_below above, given]
        · simp [nothing, ih ascending, same]
      · by_cases same : k = key
        · simp [nothing, same, Fields.get?, given_some]
        · simp [nothing, same, Fields.get?, ih ascending]

/-- Where the layer gives nothing the base stays, and elsewhere the two give related values. -/
theorem rel_layered {related : Json → Json → Prop} {old new : Option Json}
    (kept : ∀ o, old = some o → related o o)
    (laid : ∀ o v, old = some o → given new = some v → related (merge o v) (merge o (bare v)))
    (added : ∀ v, old = none → given new = some v → related v (bare v)) :
    Option.Rel related (layered old new) (layered old ((given new).map bare)) := by
  unfold layered
  cases there : given new with
  | none =>
      cases old with
      | none => exact .none
      | some o => exact .some (kept o rfl)
  | some v =>
      have some_ : (bare v).isNull = false := by
        rw [isNull_bare]
        simpa using (Option.filter_eq_some_iff.mp there).2
      simp only [Option.map_some, given_some some_]
      cases old with
      | none => exact .some (added v rfl there)
      | some o => exact .some (laid o v rfl there)

theorem outward_merge (old v : Json) : Outward (merge old v) (merge old (bare v)) := by
  cases v with
  | object fields =>
      cases old with
      | object base => exact .inr ⟨_, _, rfl, rfl⟩
      | _ => exact outward_bare _
  | _ => exact .inl rfl

theorem parallel_merge (ascending : base.Ascending) (ascending' : layer.Ascending) :
    Parallel (fun _ => Outward) (mergeFields base layer) (mergeFields base (bareFields layer)) := by
  refine parallel_of_get? (ascending_mergeFields ascending _) (ascending_mergeFields ascending _)
    fun key => ?_
  rw [get?_mergeFields ascending', get?_mergeFields (ascending_bareFields ascending'),
    get?_bareFields ascending']
  exact rel_layered (fun o _ => .inl rfl) (fun o v _ _ => outward_merge o v)
    fun v _ _ => outward_bare v

/-- Over an object, a layer and the same layer without its `null` fields give the same keys. -/
theorem inward_merge (ascending : base.Ascending) (ordered : v.Ordered) :
    Inward (fun _ => Outward) (merge (.object base) v) (merge (.object base) (bare v)) := by
  cases v with
  | object fields => exact .inr ⟨_, _, rfl, rfl, parallel_merge ascending ordered.1⟩
  | _ => exact .inl rfl

end Switchboard.Json
