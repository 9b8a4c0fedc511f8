import Mathlib.Algebra.Group.Nat.Defs
import Switchboard.Json.Decode
import Switchboard.Proofs.Json.Ordered

/-!
Records out of objects.

The fields of an object are checked in the order they are kept, before the record is built of them.
For a record that is built of every field that it knows, the check adds nothing: an object gives the
record exactly if each known field gives its part.
-/

namespace Switchboard.Json

variable {α β : Type} {shape : Shape α} {look : String → Option Json} {a : α} {b : β} {name : String}
  {fields : Fields} {rules : List FieldRule}

theorem ofNat_inj {m n : Nat} (same : ofNat m = .ofNat n) : m = n := by
  injection same with same
  injection same with same
  exact Int.ofNat_inj.mp same

namespace Decoder

theorem string_eq_ok_iff {v : Json} {s : String} : string v = .ok s ↔ v = .string s := by
  cases v <;> simp [string]

theorem bool_eq_ok_iff {v : Json} {b : Bool} : bool v = .ok b ↔ v = .bool b := by
  cases v <;> simp [bool]

theorem integer_eq_ok_iff {want : String} {low high n : Int} {v : Json} :
    integer want low high v = .ok n ↔ v = .ofInt n ∧ low ≤ n ∧ n < high := by
  unfold integer ofInt
  split
  · rename_i m
    simp only [Bool.and_eq_true, decide_eq_true_eq, Json.number.injEq, Number.integer.injEq]
    by_cases within : low ≤ m ∧ m < high
    · simp only [within, and_self, if_true, Except.ok.injEq]
      constructor
      · rintro rfl
        exact ⟨rfl, within⟩
      · exact And.left
    · simp only [within, if_false, reduceCtorEq, false_iff]
      rintro ⟨rfl, inside⟩
      exact within inside
  · rename_i other
    simp only [reduceCtorEq, false_iff]
    rintro ⟨rfl, -⟩
    exact other n rfl

/-- A number that fits so many bits is read as itself. -/
theorem word_eq_ok_iff {want : String} {bits : Nat} {toNat : α → Nat} {ofNat : Nat → α}
    (below : ∀ a, toNat a < 2 ^ bits) (back : ∀ a, ofNat (toNat a) = a)
    (forth : ∀ n < 2 ^ bits, toNat (ofNat n) = n) {v : Json} :
    (integer want 0 (Nat.pow 2 bits) v).map (fun n => ofNat n.toNat) = .ok a ↔
      v = .ofNat (toNat a) := by
  simp only [map_eq_ok, integer_eq_ok_iff]
  constructor
  · rintro ⟨n, ⟨rfl, least, most⟩, rfl⟩
    obtain ⟨m, rfl⟩ := Int.eq_ofNat_of_zero_le least
    rw [Int.toNat_natCast, forth m (by exact_mod_cast most)]
    rfl
  · rintro rfl
    exact ⟨toNat a, ⟨rfl, by omega, by exact_mod_cast below a⟩, by rw [Int.toNat_natCast, back]⟩

end Decoder

namespace Shape

/-- What a field with a value of its own gives. -/
def taken (decode : Decoder α) (fallback : α) : Option Json → Except DecodeError α
  | some v => decode v
  | none => .ok fallback

theorem build_defaulted (decode : Decoder α) (fallback : α) :
    (defaulted name decode fallback).build look = taken decode fallback (look name) := by
  cases found : look name <;> simp [defaulted, taken, found]

theorem build_required (decode : Decoder α) : (required name decode).build look =
    match look name with
    | some v => decode v
    | none => .error (.missingField name) := rfl

theorem build_optional (decode : Decoder α) :
    (optional name decode).build look = taken decode.nullable none (look name) := by
  cases found : look name <;> simp [optional, taken, found]

theorem build_map (f : α → β) :
    (f <$> shape).build look = .ok b ↔ ∃ a, shape.build look = .ok a ∧ f a = b :=
  map_eq_ok

theorem build_seq {makers : Shape (α → β)} :
    (makers <*> shape).build look = .ok b ↔
      ∃ f, makers.build look = .ok f ∧ ∃ a, shape.build look = .ok a ∧ f a = b := by
  change (makers.build look >>= fun f => shape.build look >>= fun a => Except.ok (f a)) = _ ↔ _
  simp only [bind_eq_ok, Except.ok.injEq]

/-- Whether a record is built only where all fields that it knows suit it. -/
def Strict (shape : Shape α) : Prop :=
  ∀ look a, shape.build look = .ok a →
    ∀ rule ∈ shape.rules, ∀ v, look rule.name = some v → rule.check v = .ok ()

/-- A record of one field, of which nothing but a value that suits it is built. -/
theorem strict_of_one {decode : Decoder β} {spare : Bool}
    (one : shape.rules = [⟨name, checkOf decode, spare⟩])
    (built : ∀ look a v, shape.build look = .ok a → look name = some v → ∃ b, decode v = .ok b) :
    shape.Strict := by
  intro look a done rule member v there
  rw [one] at member
  obtain rfl := List.mem_singleton.mp member
  obtain ⟨b, suits⟩ := built look a v done there
  exact map_eq_ok.mpr ⟨b, suits, rfl⟩

theorem strict_defaulted (name : String) (decode : Decoder α) (fallback : α) :
    (defaulted name decode fallback).Strict := by
  refine strict_of_one rfl fun look a v built there => ⟨a, ?_⟩
  rw [build_defaulted, there] at built
  exact built

theorem strict_required (name : String) (decode : Decoder α) : (required name decode).Strict := by
  refine strict_of_one rfl fun look a v built there => ⟨a, ?_⟩
  rw [build_required, there] at built
  exact built

theorem strict_optional (name : String) (decode : Decoder α) : (optional name decode).Strict := by
  refine strict_of_one rfl fun look a v built there => ⟨a, ?_⟩
  rw [build_optional, there] at built
  exact built

theorem Strict.map (strict : shape.Strict) (f : α → β) : (f <$> shape).Strict := by
  intro look b built
  obtain ⟨a, built, -⟩ := (build_map f).mp built
  exact strict look a built

theorem Strict.seq {makers : Shape (α → β)} (strict : makers.Strict) (strict' : shape.Strict) :
    (makers <*> shape).Strict := by
  intro look b built rule member
  obtain ⟨f, built, a, built', -⟩ := build_seq.mp built
  rcases List.mem_append.mp member with member | member
  · exact strict look f built rule member
  · exact strict' look a built' rule member

theorem checkFields_eq_ok_iff {fields : List (String × Json)} :
    checkFields rules fields = .ok () ↔
      ∀ entry ∈ fields, ∀ rule, rules.find? (·.name = entry.1) = some rule →
        rule.check entry.2 = .ok () := by
  induction fields with
  | nil => simp [checkFields]
  | cons entry fields ih =>
      obtain ⟨key, value⟩ := entry
      rw [List.forall_mem_cons, checkFields]
      cases found : rules.find? (·.name = key) with
      | none => simp [ih]
      | some rule =>
          simp only [bind_eq_ok, ih, Option.some.injEq, forall_eq']
          exact ⟨fun ⟨(), checked, rest⟩ => ⟨checked, rest⟩, fun ⟨checked, rest⟩ => ⟨(), checked, rest⟩⟩

/-- The first pass over the fields of an object refuses nothing that the second one takes. -/
theorem Strict.decoder_object (strict : shape.Strict) (record : String)
    (ascending : fields.Ascending) :
    shape.decoder record (.object fields) = .ok a ↔ shape.build fields.get? = .ok a := by
  rw [decoder, bind_eq_ok]
  constructor
  · rintro ⟨_, -, built⟩
    exact built
  · intro built
    refine ⟨(), checkFields_eq_ok_iff.mpr fun entry member rule found => ?_, built⟩
    have known : rule ∈ shape.rules := List.mem_of_find?_eq_some found
    have named : rule.name = entry.1 := by simpa using List.find?_some found
    refine strict _ a built rule known entry.2 ?_
    rw [named]
    exact ascending.get?_eq_some_iff.mpr member

end Shape

end Switchboard.Json
