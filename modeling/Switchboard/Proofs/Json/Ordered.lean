import Switchboard.Json.Reader

/-!
Values that were read are in order.

Fields in ascending order are found by their keys alone: looking a key up and being among the fields
are the same.  Whatever the reader accepts has all its objects in that form, so a key that a text gives
twice counts once.
-/

namespace Switchboard.Json

variable {ε α β : Type}

theorem bind_eq_ok {x : Except ε α} {f : α → Except ε β} {b : β} :
    x >>= f = .ok b ↔ ∃ a, x = .ok a ∧ f a = .ok b := by
  cases x <;> simp [bind, Except.bind]

theorem map_eq_ok {x : Except ε α} {f : α → β} {b : β} :
    x.map f = .ok b ↔ ∃ a, x = .ok a ∧ f a = b := by
  cases x <;> simp [Except.map]

theorem mapError_eq_ok {ε' : Type} {x : Except ε α} {wrap : ε → ε'} {a : α} :
    x.mapError wrap = .ok a ↔ x = .ok a := by
  cases x with
  | ok b => exact ⟨fun | rfl => rfl, fun | rfl => rfl⟩
  | error e => exact iff_of_false nofun nofun

variable {fields rest : Fields} {key k : String} {value v : Json} {entry : String × Json}

namespace Fields

theorem ascending_cons_iff :
    Ascending ((k, v) :: rest) ↔ (∀ entry ∈ rest, k < entry.1) ∧ Ascending rest := by
  induction rest generalizing k v with
  | nil => simp [Ascending]
  | cons next rest ih =>
      obtain ⟨l, w⟩ := next
      rw [Ascending, List.forall_mem_cons, and_congr_left_iff]
      intro ascending
      have above := (ih.mp ascending).1
      refine ⟨fun below => ⟨below, fun entry member => ?_⟩, fun all => all.1⟩
      exact String.lt_trans below (above entry member)

/-- Among fields in order a key is looked up exactly where it stands. -/
theorem Ascending.get?_eq_some_iff (ascending : fields.Ascending) :
    fields.get? key = some value ↔ (key, value) ∈ fields := by
  induction fields with
  | nil => simp [get?]
  | cons first rest ih =>
      obtain ⟨k, v⟩ := first
      obtain ⟨above, ascending⟩ := ascending_cons_iff.mp ascending
      rw [get?, List.mem_cons, ← ih ascending]
      by_cases same : k = key
      · subst same
        have absent : get? rest k ≠ some value := fun found =>
          String.lt_irrefl k (above _ ((ih ascending).mp found))
        simp [absent, eq_comm]
      · have differs : (key, value) ≠ (k, v) := fun one => same (congrArg Prod.fst one).symm
        simp [same, differs]

/-- A key below all others is not among them. -/
theorem get?_eq_none_of_below (below : ∀ entry ∈ fields, key < entry.1) :
    fields.get? key = none := by
  induction fields with
  | nil => rfl
  | cons first rest ih =>
      obtain ⟨k, v⟩ := first
      obtain ⟨here, below⟩ := List.forall_mem_cons.mp below
      have differs : k ≠ key := fun same => String.lt_irrefl k (same ▸ here)
      rw [get?, if_neg differs, ih below]

theorem of_mem_insert (member : entry ∈ fields.insert key value) :
    entry = (key, value) ∨ entry ∈ fields := by
  induction fields with
  | nil => exact .inl (List.mem_singleton.mp member)
  | cons first rest ih =>
      obtain ⟨k, v⟩ := first
      unfold insert at member
      split at member
      · exact List.mem_cons.mp member
      · split at member
        · exact (List.mem_cons.mp member).imp_right (List.mem_cons_of_mem _)
        · rcases List.mem_cons.mp member with same | member
          · exact .inr (List.mem_cons.mpr (.inl same))
          · exact (ih member).imp_right (List.mem_cons_of_mem _)

theorem Ascending.insert (ascending : fields.Ascending) :
    (fields.insert key value).Ascending := by
  induction fields with
  | nil => trivial
  | cons first rest ih =>
      obtain ⟨k, v⟩ := first
      obtain ⟨above, ascending'⟩ := ascending_cons_iff.mp ascending
      unfold Fields.insert
      split
      · rename_i below
        refine ascending_cons_iff.mpr ⟨?_, ascending⟩
        rw [List.forall_mem_cons]
        exact ⟨below, fun entry member => String.lt_trans below (above entry member)⟩
      · rename_i below
        split
        · rename_i same
          subst same
          exact ascending_cons_iff.mpr ⟨above, ascending'⟩
        · rename_i differs
          refine ascending_cons_iff.mpr ⟨fun entry member => ?_, ih ascending'⟩
          rcases of_mem_insert member with rfl | member
          · exact Std.lt_of_le_of_ne (String.not_lt.mp below) (Ne.symm differs)
          · exact above entry member

/-- Entries put in one after the other, in whatever order they come. -/
theorem ascending_foldl_insert {entries : List (String × Json)} (ascending : fields.Ascending) :
    (entries.foldl (fun fields (k, v) => fields.insert k v) fields).Ascending := by
  induction entries generalizing fields with
  | nil => exact ascending
  | cons entry entries ih => exact ih ascending.insert

theorem of_mem_foldl_insert {entries : List (String × Json)}
    (member : entry ∈ entries.foldl (fun fields (k, v) => fields.insert k v) fields) :
    entry ∈ fields ∨ entry ∈ entries := by
  induction entries generalizing fields with
  | nil => exact .inl member
  | cons first entries ih =>
      rcases ih member with inside | later
      · rcases of_mem_insert inside with rfl | inside
        · exact .inr List.mem_cons_self
        · exact .inl inside
      · exact .inr (List.mem_cons_of_mem _ later)

theorem ascending_ofList (entries : List (String × Json)) : (ofList entries).Ascending :=
  ascending_foldl_insert trivial

theorem mem_of_mem_ofList {entries : List (String × Json)} (member : entry ∈ ofList entries) :
    entry ∈ entries :=
  (of_mem_foldl_insert member).resolve_left List.not_mem_nil

end Fields

theorem orderedItems_iff {items : List Json} :
    OrderedItems items ↔ ∀ item ∈ items, item.Ordered := by
  induction items with
  | nil => simp [OrderedItems]
  | cons item items ih => rw [OrderedItems, ih, List.forall_mem_cons]

theorem orderedFields_iff {fields : List (String × Json)} :
    OrderedFields fields ↔ ∀ entry ∈ fields, entry.2.Ordered := by
  induction fields with
  | nil => simp [OrderedFields]
  | cons entry fields ih => rw [OrderedFields, OrderedField, ih, List.forall_mem_cons]

/-- Whether a reader gives values in order only. -/
def Orderly (reader : Reader Json) : Prop :=
  ∀ cs value rest, reader cs = .ok (value, rest) → value.Ordered

variable {reader : Reader Json} {fuel depth : Nat} {first : Bool} {cs left : List Char}

theorem Orderly.readItems (orderly : Orderly reader) {items : List Json}
    (done : readItems reader fuel first cs = .ok (items, left)) :
    ∀ item ∈ items, item.Ordered := by
  induction fuel generalizing first cs items left with
  | zero => contradiction
  | succ fuel ih =>
      unfold Json.readItems at done
      split at done
      · contradiction
      · cases done
        exact nofun
      · -- Whether a comma was read before it or not, an item comes next.
        have taken : ∀ cs, (reader cs >>= fun one => Json.readItems reader fuel false one.2 >>=
            fun more => pure (one.1 :: more.1, more.2)) = .ok (items, left) →
              ∀ item ∈ items, item.Ordered := by
          intro cs done
          simp only [bind_eq_ok, Prod.exists] at done
          obtain ⟨item, _, found, items, _, more, same⟩ := done
          cases same
          exact List.forall_mem_cons.mpr ⟨orderly _ _ _ found, ih more⟩
        split at done
        · exact taken _ done
        · split at done
          · contradiction
          · split at done
            · contradiction
            · contradiction
            · exact taken _ done

theorem Orderly.readField (orderly : Orderly reader)
    (done : readField reader cs = .ok (entry, left)) : entry.2.Ordered := by
  unfold Json.readField at done
  split at done
  · simp only [bind_eq_ok, Prod.exists] at done
    obtain ⟨key, _, -, done⟩ := done
    split at done
    · contradiction
    · simp only [bind_eq_ok, Prod.exists] at done
      obtain ⟨value, _, found, same⟩ := done
      cases same
      exact orderly _ _ _ found
    · contradiction
  · contradiction

theorem Orderly.readFields (orderly : Orderly reader) {fields : List (String × Json)}
    (done : readFields reader fuel first cs = .ok (fields, left)) :
    ∀ entry ∈ fields, entry.2.Ordered := by
  induction fuel generalizing first cs fields left with
  | zero => contradiction
  | succ fuel ih =>
      unfold Json.readFields at done
      split at done
      · contradiction
      · cases done
        exact nofun
      · have taken : ∀ cs, (Json.readField reader cs >>= fun one =>
            Json.readFields reader fuel false one.2 >>=
              fun more => pure (one.1 :: more.1, more.2)) = .ok (fields, left) →
              ∀ entry ∈ fields, entry.2.Ordered := by
          intro cs done
          simp only [bind_eq_ok, Prod.exists] at done
          obtain ⟨key, value, _, found, fields, _, more, same⟩ := done
          cases same
          exact List.forall_mem_cons.mpr ⟨orderly.readField found, ih more⟩
        split at done
        · exact taken _ done
        · split at done
          · contradiction
          · split at done
            · contradiction
            · exact taken _ done

/-- A value made of what was read comes with what was left. -/
theorem of_made {found : Except ReadError (α × List Char)} (make : α → Json)
    (done : (do let (a, cs) ← found; return (make a, cs)) = .ok (value, left)) :
    ∃ a, found = .ok (a, left) ∧ make a = value := by
  simp only [bind_eq_ok, Prod.exists] at done
  obtain ⟨a, _, read, same⟩ := done
  cases same
  exact ⟨a, read, rfl⟩

/-- A value made of what was read is in order if it is whatever was read. -/
theorem ordered_of_made {found : Except ReadError (α × List Char)} (make : α → Json)
    (done : (do let (a, cs) ← found; return (make a, cs)) = .ok (value, left))
    (orderly : ∀ a rest, found = .ok (a, rest) → (make a).Ordered) : value.Ordered := by
  obtain ⟨a, read, rfl⟩ := of_made make done
  exact orderly a left read

/-- The values inside come from a reader with less room. -/
theorem orderly_of_inner (inner : ∀ less, depth = less + 1 → Orderly (readValue less)) :
    Orderly (readValue depth) := by
  intro cs value rest done
  unfold readValue at done
  split at done
  · contradiction
  · exact ordered_of_made (fun _ => .null) done fun _ _ _ => trivial
  · exact ordered_of_made (fun _ => .bool true) done fun _ _ _ => trivial
  · exact ordered_of_made (fun _ => .bool false) done fun _ _ _ => trivial
  · exact ordered_of_made .number done fun _ _ _ => trivial
  · exact ordered_of_made .string done fun _ _ _ => trivial
  · split at done
    · contradiction
    · rename_i less
      refine ordered_of_made .array done fun items _ read => ?_
      exact orderedItems_iff.mpr ((inner less rfl).readItems read)
  · split at done
    · contradiction
    · rename_i less
      refine ordered_of_made (fun fields => .object (Fields.ofList fields)) done
        fun fields _ read => ?_
      have values := (inner less rfl).readFields read
      exact ⟨Fields.ascending_ofList fields, orderedFields_iff.mpr fun entry member =>
        values entry (Fields.mem_of_mem_ofList member)⟩
  · split at done
    · exact ordered_of_made .number done fun _ _ _ => trivial
    · contradiction

theorem orderly_readValue (depth : Nat) : Orderly (readValue depth) := by
  induction depth with
  | zero => exact orderly_of_inner nofun
  | succ depth ih => exact orderly_of_inner fun less same => Nat.succ.inj same ▸ ih

theorem ordered_of_read {text : String} (done : read text = .ok value) : value.Ordered := by
  simp only [read, bind_eq_ok, Prod.exists] at done
  obtain ⟨value, _, found, done⟩ := done
  split at done
  · cases done
    exact orderly_readValue maxDepth _ _ _ found
  · contradiction

end Switchboard.Json
