import Mathlib.Logic.Function.Iterate
import Switchboard.Proofs.Json.Layer
import Switchboard.Proofs.Json.Outward

/-!
A layer counts once.

A layer changes nothing where it has been laid before.  Over an object its fields meet what they have
been laid over already.  Elsewhere the layer was taken as it is, with its `null` fields, so that it is
laid over itself the second time; and a value over itself is that value.
-/

namespace Switchboard.Json

variable {base layer v : Json} {old new : Option Json} {fs gs : Fields}

theorem sizeOf_field_lt {entry : String × Json} (member : entry ∈ fs) :
    sizeOf entry.2 < sizeOf (Json.object fs) := by
  have inside := List.sizeOf_lt_of_mem member
  obtain ⟨key, value⟩ := entry
  simp only [Prod.mk.sizeOf_spec, Json.object.sizeOf_spec] at inside ⊢
  omega

/-- Induction on the objects inside a value; arrays are not looked into. -/
theorem object_induction {Holds : Json → Prop} (plain : ∀ v : Json, v.Plain → Holds v)
    (object : ∀ fields, (∀ entry ∈ fields, Holds entry.2) → Holds (.object fields)) :
    ∀ v : Json, Holds v
  | .object fields => object fields fun entry _ => object_induction plain object entry.2
  | .null | .bool _ | .number _ | .string _ | .array _ => plain _ nofun
termination_by v => sizeOf v
decreasing_by exact sizeOf_field_lt ‹_›

/-- Of fields in ascending order the lookups say everything. -/
theorem Fields.ext_get? (ascending : fs.Ascending) (ascending' : gs.Ascending)
    (each : ∀ key, fs.get? key = gs.get? key) : fs = gs := by
  have parallel : Parallel (fun _ => Eq) fs gs := by
    refine parallel_of_get? ascending ascending' fun key => ?_
    rw [each]
    cases gs.get? key with
    | none => exact .none
    | some v => exact .some rfl
  have same : List.Forall₂ Eq fs gs := parallel.imp fun _ _ one => Prod.ext one.1 one.2
  rwa [List.forall₂_eq_eq_eq] at same

theorem merge_of_plain (plain : layer.Plain) : merge base layer = layer := by
  cases layer with
  | object fields => exact absurd rfl (plain fields)
  | _ => cases base <;> rfl

theorem layered_self (each : ∀ v ∈ old, merge v v = v) : layered old old = old := by
  unfold layered
  cases there : given old with
  | none => rfl
  | some v =>
      obtain ⟨rfl, -⟩ := Option.filter_eq_some_iff.mp there
      exact congrArg some (each v rfl)

theorem merge_self (ordered : v.Ordered) : merge v v = v := by
  induction v using object_induction with
  | plain v plain => exact plain.merge v
  | object fields ih =>
      obtain ⟨ascending, values⟩ := ordered
      have same : mergeFields fields fields = fields := by
        refine Fields.ext_get? (ascending_mergeFields ascending _) ascending fun key => ?_
        rw [get?_mergeFields ascending]
        refine layered_self fun v found => ?_
        have member := ascending.get?_eq_some_iff.mp found
        exact ih _ member (orderedFields_iff.mp values _ member)
      rw [merge, same]

theorem layered_layered (inside : ∀ o ∈ old, ∀ v ∈ new, merge (merge o v) v = merge o v)
    (itself : ∀ v ∈ new, merge v v = v) : layered (layered old new) new = layered old new := by
  unfold layered
  cases there : given new with
  | none => rfl
  | some v =>
      obtain ⟨rfl, -⟩ := Option.filter_eq_some_iff.mp there
      cases old with
      | none => exact congrArg some (itself v rfl)
      | some o => exact congrArg some (inside o rfl v rfl)

theorem merge_merge (ordered : base.Ordered) (ordered' : layer.Ordered) :
    merge (merge base layer) layer = merge base layer := by
  induction layer using object_induction generalizing base with
  | plain layer plain => rw [merge_of_plain plain, merge_of_plain plain]
  | object fields ih =>
      cases base with
      | object base =>
          obtain ⟨ascending, values⟩ := ordered
          obtain ⟨ascending', values'⟩ := ordered'
          rw [merge, merge, object.injEq]
          have once := ascending_mergeFields ascending fields
          refine Fields.ext_get? (ascending_mergeFields once fields) once fun key => ?_
          rw [get?_mergeFields ascending', get?_mergeFields ascending']
          refine layered_layered (fun o found v found' => ?_) fun v found => ?_
          · have member := ascending.get?_eq_some_iff.mp found
            have member' := ascending'.get?_eq_some_iff.mp found'
            exact ih _ member' (orderedFields_iff.mp values _ member)
              (orderedFields_iff.mp values' _ member')
          · exact merge_self (orderedFields_iff.mp values' _ (ascending'.get?_eq_some_iff.mp found))
      | _ => exact merge_self ordered'

/-- However often a layer is laid over a value, it counts once; and over itself it does not count. -/
theorem layer_counts_once (ordered : base.Ordered) (ordered' : layer.Ordered) :
    merge (merge base layer) layer = merge base layer ∧ merge layer layer = layer ∧
      ∀ times, (fun v => merge v layer)^[times + 1] base = merge base layer := by
  have again := merge_merge ordered ordered'
  refine ⟨again, merge_self ordered', fun times => ?_⟩
  induction times with
  | zero => rfl
  | succ times ih => rw [Function.iterate_succ_apply', ih, again]

private def listening : Json :=
  .object [("hub", .object [("bind", .string "127.0.0.1"), ("peers", .null)]), ("tags", .null)]

/-- Its `null` is no setting under `hub`, is copied under `store`, and is an item of `tags`. -/
private def storing : Json :=
  .object [("hub", .object [("bind", .null)]),
    ("store", .object [("path", .object [("root", .null)])]), ("tags", .array [.null, .object []])]

theorem storing_counts_once :
    merge listening storing =
        .object [("hub", .object [("bind", .string "127.0.0.1"), ("peers", .null)]),
          ("store", .object [("path", .object [("root", .null)])]),
          ("tags", .array [.null, .object []])] ∧
      merge (merge listening storing) storing = merge listening storing ∧
      merge storing storing = storing := by
  have ordered : listening.Ordered := by
    simp only [listening, Ordered, OrderedFields, OrderedField, Fields.Ascending, and_true]
    decide
  have ordered' : storing.Ordered := by
    simp only [storing, Ordered, OrderedFields, OrderedField, OrderedItems, Fields.Ascending,
      and_true]
    decide
  obtain ⟨again, itself, -⟩ := layer_counts_once ordered ordered'
  exact ⟨rfl, again, itself⟩

end Switchboard.Json
