import Mathlib.Data.List.Nodup
import Switchboard.Proofs.Json.Record

/-!
Records out of arrays.

An array gives the fields of a record by their positions.  So whatever a record is read from, each field
is built of what stands in its place there.
-/

namespace Switchboard.Json

variable {α : Type} {shape : Shape α} {v : Json} {a fallback : α} {record name : String}
  {total index i : Nat} {rules : List FieldRule} {items : List Json} {known : List String}
  {placed : List (String × Json)}

/-- What stands in the place of a field, which has a key in objects and a position in arrays. -/
def at? (v : Json) (key : String) (index : Nat) : Option Json :=
  match v with
  | .object fields => Fields.get? fields key
  | .array items => items[index]?
  | _ => none

theorem Fields.get?_zip (distinct : known.Nodup) (there : known[i]? = some name)
    (items : List Json) : get? (known.zip items) name = items[i]? := by
  induction known generalizing i items with
  | nil => contradiction
  | cons first known ih =>
      obtain ⟨fresh, distinct⟩ := List.nodup_cons.mp distinct
      cases items with
      | nil => rfl
      | cons item items =>
          rw [List.zip_cons_cons, get?]
          cases i with
          | zero =>
              obtain rfl : first = name := Option.some.inj there
              rw [if_pos rfl]
              rfl
          | succ i =>
              have later : known[i]? = some name := there
              have differs : first ≠ name := fun same => fresh (same ▸ List.mem_of_getElem? later)
              rw [if_neg differs, ih distinct later]
              rfl

namespace Shape

theorem eq_zip_of_placeItems (done : placeItems record total index rules items = .ok placed) :
    placed = (rules.map (·.name)).zip items := by
  induction rules generalizing index items placed with
  | nil =>
      cases items with
      | nil => exact (Except.ok.inj done).symm
      | cons item items => contradiction
  | cons rule rules ih =>
      cases items with
      | nil =>
          rw [placeItems] at done
          split at done
          · exact (ih done).trans List.zip_nil_right
          · contradiction
      | cons item items =>
          rw [placeItems] at done
          obtain ⟨_, -, done⟩ := bind_eq_ok.mp done
          obtain ⟨more, placed, same⟩ := bind_eq_ok.mp done
          cases same
          rw [ih placed, List.map_cons, List.zip_cons_cons]

/-- The names of the fields, in their order in arrays. -/
def names (shape : Shape α) : List String := shape.rules.map (·.name)

theorem build_of_decoder (distinct : shape.names.Nodup) (done : shape.decoder record v = .ok a) :
    ∃ look, shape.build look = .ok a ∧
      ∀ i name, shape.names[i]? = some name → look name = v.at? name i := by
  cases v with
  | object fields =>
      obtain ⟨_, -, built⟩ := bind_eq_ok.mp done
      exact ⟨_, built, fun _ _ _ => rfl⟩
  | array items =>
      obtain ⟨placed, found, built⟩ := bind_eq_ok.mp done
      obtain rfl := eq_zip_of_placeItems found
      exact ⟨_, built, fun i name there => Fields.get?_zip distinct there items⟩
  | _ => contradiction

/-- A record that may be missing is built of its parts all the same; then all of them are missing. -/
theorem build_of_taken (distinct : shape.names.Nodup)
    (usual : shape.build (fun _ => none) = .ok fallback) {o : Option Json}
    (done : taken (shape.decoder record) fallback o = .ok a) :
    ∃ look, shape.build look = .ok a ∧
      ∀ i name, shape.names[i]? = some name → look name = o.bind (·.at? name i) := by
  cases o with
  | none => exact ⟨_, usual.trans done, fun _ _ _ => rfl⟩
  | some v => exact build_of_decoder distinct done

end Shape

end Switchboard.Json
