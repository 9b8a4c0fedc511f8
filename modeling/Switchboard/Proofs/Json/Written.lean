import Switchboard.Proofs.Json.Escaped
import Switchboard.Proofs.Json.Numeral

/-!
Values and their texts.

The text of a value is read as the value with the fields of its objects in order, so a value that is in
order comes back as it is.  Two things can stand against it: a value may nest too deep, and a
floating-point number may be written with more digits than the reader takes account of.
-/

namespace Switchboard.Json

/-- A value that is read from its text: it nests at most so deep, and each of its numbers is read as
itself. -/
inductive Legible : Nat → Json → Prop where
  | null {depth : Nat} : Legible depth .null
  | bool {depth : Nat} (b : Bool) : Legible depth (.bool b)
  | number {depth : Nat} {number : Number} (legible : number.Legible) :
      Legible depth (.number number)
  | string {depth : Nat} (s : String) : Legible depth (.string s)
  | array {depth : Nat} {items : List Json} (each : ∀ item ∈ items, Legible depth item) :
      Legible (depth + 1) (.array items)
  | object {depth : Nat} {fields : List (String × Json)}
      (each : ∀ field ∈ fields, Legible depth field.2) : Legible (depth + 1) (.object fields)

theorem legible_ofNat {depth n : Nat} (small : n < Nat.pow 2 64) : Legible depth (.ofNat n) := by
  have low : -(Nat.pow 2 63 : Int) ≤ n := Int.le_trans (by decide) (Int.natCast_nonneg n)
  exact .number (legible_integer low (Int.ofNat_lt.mpr small))

mutual

/-- A value with the fields of its objects in order; of fields with one key the last counts. -/
def inOrder : Json → Json
  | .array items => .array (inOrderItems items)
  | .object fields => .object (Fields.ofList (inOrderFields fields))
  | v => v
termination_by structural v => v

def inOrderItems : List Json → List Json
  | [] => []
  | item :: rest => inOrder item :: inOrderItems rest
termination_by structural items => items

def inOrderFields : List (String × Json) → List (String × Json)
  | [] => []
  | field :: rest => inOrderField field :: inOrderFields rest
termination_by structural fields => fields

def inOrderField : String × Json → String × Json
  | (key, value) => (key, inOrder value)
termination_by structural field => field

end

variable {depth fuel : Nat} {v item w : Json} {key : String} {entry field : String × Json}
  {cs left rest : List Char} {items : List Json} {fields before : List (String × Json)}

theorem inOrderItems_eq_self (same : ∀ item ∈ items, inOrder item = item) :
    inOrderItems items = items := by
  induction items with
  | nil => rfl
  | cons item items ih =>
      obtain ⟨here, same⟩ := List.forall_mem_cons.mp same
      rw [inOrderItems, here, ih same]

theorem inOrderFields_eq_self (same : ∀ field ∈ fields, inOrder field.2 = field.2) :
    inOrderFields fields = fields := by
  induction fields with
  | nil => rfl
  | cons field fields ih =>
      obtain ⟨here, same⟩ := List.forall_mem_cons.mp same
      rw [inOrderFields, inOrderField, here, ih same]

namespace Fields

theorem insert_of_above (above : ∀ entry ∈ fields, entry.1 < key) :
    insert fields key v = fields ++ [(key, v)] := by
  induction fields with
  | nil => rfl
  | cons first fields ih =>
      obtain ⟨k, w⟩ := first
      obtain ⟨here, above⟩ := List.forall_mem_cons.mp above
      have below : ¬ key < k := fun below => String.lt_irrefl k (String.lt_trans here below)
      have differs : key ≠ k := fun same => String.lt_irrefl k (same ▸ here)
      rw [insert, if_neg below, if_neg differs, ih above, List.cons_append]

theorem Ascending.foldl_insert (ascending : Ascending fields)
    (above : ∀ entry ∈ before, ∀ field ∈ fields, entry.1 < field.1) :
    fields.foldl (fun fields (k, v) => Fields.insert fields k v) before = before ++ fields := by
  induction fields generalizing before with
  | nil => exact (List.append_nil before).symm
  | cons first fields ih =>
      obtain ⟨k, w⟩ := first
      obtain ⟨later, ascending⟩ := ascending_cons_iff.mp ascending
      have here : Fields.insert before k w = before ++ [(k, w)] :=
        insert_of_above fun entry member => above entry member _ List.mem_cons_self
      have next : ∀ entry ∈ before ++ [(k, w)], ∀ field ∈ fields, entry.1 < field.1 := by
        intro entry member field inside
        rcases List.mem_append.mp member with member | member
        · exact above entry member field (List.mem_cons_of_mem _ inside)
        · obtain rfl := List.mem_singleton.mp member
          exact later field inside
      rw [List.foldl_cons]
      dsimp only
      rw [here, ih ascending next, List.append_assoc, List.singleton_append]

theorem Ascending.ofList_eq (ascending : Ascending fields) : ofList fields = fields :=
  ascending.foldl_insert fun _ member => absurd member List.not_mem_nil

end Fields

/-- A value that is in order stays as it is. -/
theorem Legible.inOrder_eq (legible : Legible depth v) (ordered : v.Ordered) : inOrder v = v := by
  induction legible with
  | null | bool | number | string => rfl
  | array _ ih =>
      have ordered := orderedItems_iff.mp ordered
      rw [inOrder, inOrderItems_eq_self fun item member => ih item member (ordered item member)]
  | object _ ih =>
      obtain ⟨ascending, ordered⟩ := ordered
      have ordered := orderedFields_iff.mp ordered
      rw [inOrder, inOrderFields_eq_self fun field member => ih field member (ordered field member),
        ascending.ofList_eq]

/-- One thing is read and then the others. -/
theorem bind_cons {α : Type} {one : Except ReadError (α × List Char)} {a : α}
    (done : one = .ok (a, left)) (more : Reader (List α)) :
    (one >>= fun first => more first.2 >>= fun read => pure (first.1 :: read.1, read.2)) =
      (more left).map fun read => (a :: read.1, read.2) := by
  rw [done]
  change (more left >>= fun read => pure (a :: read.1, read.2)) = _
  cases more left <;> rfl

/-- What is read as a value does not begin like the end of an array. -/
theorem of_readValue_eq_ok (done : readValue depth cs = .ok (v, left)) :
    ∃ c ds, skipSpace cs = c :: ds ∧ c ≠ ']' ∧ readValue depth (c :: ds) = .ok (v, left) := by
  rw [← readValue_skipSpace] at done
  cases shown : skipSpace cs with
  | nil =>
      rw [shown] at done
      unfold readValue at done
      contradiction
  | cons c ds =>
      rw [shown] at done
      refine ⟨c, ds, rfl, ?_, done⟩
      rintro rfl
      unfold readValue at done
      contradiction

theorem readItems_first (done : readValue depth cs = .ok (item, left)) (fuel : Nat) :
    readItems (readValue depth) (fuel + 1) true cs =
      (readItems (readValue depth) fuel false left).map fun read => (item :: read.1, read.2) := by
  obtain ⟨c, ds, shown, inside, done⟩ := of_readValue_eq_ok done
  rw [readItems, shown]
  split
  · contradiction
  · rename_i same
    exact absurd (List.cons.inj same).1 inside
  · rename_i same
    rw [← same]
    exact bind_cons done (readItems (readValue depth) fuel false)

theorem readItems_next (done : readValue depth cs = .ok (item, left)) (fuel : Nat) :
    readItems (readValue depth) (fuel + 1) false (',' :: cs) =
      (readItems (readValue depth) fuel false left).map fun read => (item :: read.1, read.2) := by
  obtain ⟨c, ds, shown, inside, done⟩ := of_readValue_eq_ok done
  rw [readItems, skipSpace_cons (by decide)]
  split
  · contradiction
  · rename_i same
    exact absurd (List.cons.inj same).1 (by decide)
  · rename_i same
    cases same
    simp only [Bool.false_eq_true, if_false, ne_eq, not_true_eq_false, shown]
    split
    · contradiction
    · rename_i same
      exact absurd (List.cons.inj same).1 inside
    · exact bind_cons done (readItems (readValue depth) fuel false)

/-- Whether a value is read from its text as it is in order, whatever follows. -/
def Reads (depth : Nat) (v : Json) : Prop :=
  ∀ rest, Closes rest → readValue depth (render v ++ rest) = .ok (inOrder v, rest)

theorem closes_renderMoreItems (items : List Json) (rest : List Char) :
    Closes (renderMoreItems items ++ rest) := by
  cases items <;> exact closes_cons (by decide)

theorem readItems_renderMoreItems (each : ∀ item ∈ items, Reads depth item)
    (enough : items.length < fuel) (rest : List Char) :
    readItems (readValue depth) fuel false (renderMoreItems items ++ rest) =
      .ok (inOrderItems items, rest) := by
  induction items generalizing fuel with
  | nil =>
      obtain _ | fuel := fuel
      · contradiction
      · rfl
  | cons item items ih =>
      obtain _ | fuel := fuel
      · contradiction
      · obtain ⟨here, each⟩ := List.forall_mem_cons.mp each
        have read := here _ (closes_renderMoreItems items rest)
        rw [renderMoreItems, List.cons_append, List.cons_append, List.append_assoc,
          readItems_next read, ih each (Nat.lt_of_succ_lt_succ enough)]
        rfl

theorem length_lt_renderMoreItems (items : List Json) :
    items.length < (renderMoreItems items).length := by
  induction items with
  | nil => exact Nat.one_pos
  | cons item items ih =>
      rw [renderMoreItems, List.length_cons, List.length_append, List.length_cons]
      omega

theorem readItems_renderItems (each : ∀ item ∈ items, Reads depth item) (rest : List Char) :
    readItems (readValue depth) ((renderItems items ++ rest).length + 1) true
      (renderItems items ++ rest) = .ok (inOrderItems items, rest) := by
  cases items with
  | nil => rfl
  | cons item items =>
      obtain ⟨here, each⟩ := List.forall_mem_cons.mp each
      have read := here _ (closes_renderMoreItems items rest)
      have enough : items.length < (renderItems (item :: items) ++ rest).length := by
        have := length_lt_renderMoreItems items
        rw [renderItems, List.length_append, List.length_append]
        omega
      rw [renderItems, List.append_assoc] at enough ⊢
      rw [readItems_first read, readItems_renderMoreItems each enough]
      rfl

theorem readField_renderField (reads : Reads depth field.2) (closes : Closes rest) :
    readField (readValue depth) (renderField field ++ rest) = .ok (inOrderField field, rest) := by
  obtain ⟨key, v⟩ := field
  have value : readValue depth (render v ++ rest) = .ok (inOrder v, rest) := reads rest closes
  have colon : isSpace ':' = false := by decide
  obtain ⟨cs, quoted, read⟩ := readString_renderString key (':' :: (render v ++ rest))
  rw [renderField, List.append_assoc, List.cons_append, quoted]
  simp only [readField, read, bind, Except.bind, skipSpace_cons colon, value]
  rfl

theorem readFields_first
    (done : readField (readValue depth) ('"' :: cs) = .ok (entry, left)) (fuel : Nat) :
    readFields (readValue depth) (fuel + 1) true ('"' :: cs) =
      (readFields (readValue depth) fuel false left).map fun read => (entry :: read.1, read.2) :=
  bind_cons done (readFields (readValue depth) fuel false)

theorem readFields_next
    (done : readField (readValue depth) ('"' :: cs) = .ok (entry, left)) (fuel : Nat) :
    readFields (readValue depth) (fuel + 1) false (',' :: '"' :: cs) =
      (readFields (readValue depth) fuel false left).map fun read => (entry :: read.1, read.2) :=
  bind_cons done (readFields (readValue depth) fuel false)

theorem renderField_append (field : String × Json) (rest : List Char) :
    ∃ cs, renderField field ++ rest = '"' :: cs := by
  obtain ⟨key, v⟩ := field
  exact ⟨_, rfl⟩

theorem closes_renderMoreFields (fields : List (String × Json)) (rest : List Char) :
    Closes (renderMoreFields fields ++ rest) := by
  cases fields <;> exact closes_cons (by decide)

theorem readFields_renderMoreFields (each : ∀ field ∈ fields, Reads depth field.2)
    (enough : fields.length < fuel) (rest : List Char) :
    readFields (readValue depth) fuel false (renderMoreFields fields ++ rest) =
      .ok (inOrderFields fields, rest) := by
  induction fields generalizing fuel with
  | nil =>
      obtain _ | fuel := fuel
      · contradiction
      · rfl
  | cons field fields ih =>
      obtain _ | fuel := fuel
      · contradiction
      · obtain ⟨here, each⟩ := List.forall_mem_cons.mp each
        have read := readField_renderField here (closes_renderMoreFields fields rest)
        obtain ⟨cs, quoted⟩ := renderField_append field (renderMoreFields fields ++ rest)
        rw [quoted] at read
        rw [renderMoreFields, List.cons_append, List.cons_append, List.append_assoc, quoted,
          readFields_next read, ih each (Nat.lt_of_succ_lt_succ enough)]
        rfl

theorem length_lt_renderMoreFields (fields : List (String × Json)) :
    fields.length < (renderMoreFields fields).length := by
  induction fields with
  | nil => exact Nat.one_pos
  | cons field fields ih =>
      rw [renderMoreFields, List.length_cons, List.length_append, List.length_cons]
      omega

theorem readFields_renderFields (each : ∀ field ∈ fields, Reads depth field.2) (rest : List Char) :
    readFields (readValue depth) ((renderFields fields ++ rest).length + 1) true
      (renderFields fields ++ rest) = .ok (inOrderFields fields, rest) := by
  cases fields with
  | nil => rfl
  | cons field fields =>
      obtain ⟨here, each⟩ := List.forall_mem_cons.mp each
      have read := readField_renderField here (closes_renderMoreFields fields rest)
      obtain ⟨cs, quoted⟩ := renderField_append field (renderMoreFields fields ++ rest)
      have enough : fields.length < (renderFields (field :: fields) ++ rest).length := by
        have := length_lt_renderMoreFields fields
        rw [renderFields, List.length_append, List.length_append]
        omega
      rw [quoted] at read
      rw [renderFields, List.append_assoc, quoted] at enough ⊢
      rw [readFields_first read, readFields_renderMoreFields each enough]
      rfl

theorem Legible.reads (legible : Legible depth v) : Reads depth v := by
  intro rest closes
  induction legible generalizing rest with
  | null =>
      unfold readValue
      rfl
  | bool b =>
      unfold readValue
      cases b <;> rfl
  | number legible => exact readValue_number legible _ closes
  | string s =>
      obtain ⟨cs, quoted, read⟩ := readString_renderString s rest
      rw [render, quoted, readValue]
      change (readString cs >>= fun read => pure (Json.string read.1, read.2)) = _
      rw [read]
      rfl
  | @array depth items _ ih =>
      rw [render, List.cons_append, readValue]
      change (readItems (readValue depth) ((renderItems items ++ rest).length + 1) true
        (renderItems items ++ rest) >>= fun read => pure (Json.array read.1, read.2)) = _
      rw [readItems_renderItems ih]
      rfl
  | @object depth fields _ ih =>
      rw [render, List.cons_append, readValue]
      change (readFields (readValue depth) ((renderFields fields ++ rest).length + 1) true
        (renderFields fields ++ rest) >>=
          fun read => pure (Json.object (Fields.ofList read.1), read.2)) = _
      rw [readFields_renderFields ih]
      rfl

/-- The text of a value is read as the value in order. -/
theorem read_text (legible : Legible maxDepth v) : read v.text = .ok v.inOrder := by
  have whole := legible.reads [] closes_nil
  rw [List.append_nil] at whole
  rw [read, text, String.toList_ofList, whole]
  rfl

end Switchboard.Json
