import Mathlib.Data.List.Forall2
import Mathlib.Data.Option.Basic
import Switchboard.Proofs.Json.Record

/-!
What a decoder sees of a value.

A decoder of plain values does not look into an object: it refuses every object in the same words.  A
record looks at the fields it knows and at nothing else.  So values that differ only where nobody looks
give the same result, or are refused with the same message.
-/

namespace Switchboard.Json

variable {α β : Type} {v w : Json} {fs gs : Fields} {key name : String}
  {related : String → Json → Json → Prop}

/-- Equal values, or two objects whatever they hold. -/
def Outward (v w : Json) : Prop :=
  v = w ∨ ∃ fs gs, v = .object fs ∧ w = .object gs

/-- The same keys in the same order, with related values under each. -/
def Parallel (related : String → Json → Json → Prop) (fs gs : Fields) : Prop :=
  List.Forall₂ (fun e f => e.1 = f.1 ∧ related e.1 e.2 f.2) fs gs

/-- Equal values, or two objects with related values under the same keys. -/
def Inward (related : String → Json → Json → Prop) (v w : Json) : Prop :=
  v = w ∨ ∃ fs gs, v = .object fs ∧ w = .object gs ∧ Parallel related fs gs

theorem Parallel.get? (parallel : Parallel related fs gs) (key : String) :
    Option.Rel (related key) (fs.get? key) (gs.get? key) := by
  induction parallel with
  | nil => exact .none
  | @cons e f _ _ one _ ih =>
      obtain ⟨k, v⟩ := e
      obtain ⟨l, w⟩ := f
      obtain ⟨rfl, values⟩ := one
      by_cases same : k = key
      · subst same
        simpa only [Fields.get?, if_true] using .some values
      · simpa only [Fields.get?, same, if_false] using ih

/-- Of fields in ascending order the lookups say everything. -/
theorem parallel_of_get? (ascending : fs.Ascending) (ascending' : gs.Ascending)
    (each : ∀ key, Option.Rel (related key) (fs.get? key) (gs.get? key)) :
    Parallel related fs gs := by
  induction fs generalizing gs with
  | nil =>
      cases gs with
      | nil => exact .nil
      | cons f gs =>
          have first := each f.1
          simp [Fields.get?] at first
  | cons e fs ih =>
      obtain ⟨k, v⟩ := e
      obtain ⟨above, rest⟩ := Fields.ascending_cons_iff.mp ascending
      cases gs with
      | nil =>
          have first := each k
          simp [Fields.get?] at first
      | cons f gs =>
          obtain ⟨l, w⟩ := f
          obtain ⟨above', rest'⟩ := Fields.ascending_cons_iff.mp ascending'
          have here : Fields.get? ((k, v) :: fs) k = some v := if_pos rfl
          have here' : Fields.get? ((l, w) :: gs) l = some w := if_pos rfl
          -- A lesser key at the head of one list would be missing from the other.
          have same : k = l := by
            rcases Std.lt_trichotomy k l with below | same | below
            · have missing : Fields.get? ((l, w) :: gs) k = none :=
                Fields.get?_eq_none_of_below <| List.forall_mem_cons.mpr
                  ⟨below, fun entry member => String.lt_trans below (above' entry member)⟩
              have first := each k
              rw [here, missing] at first
              cases first
            · exact same
            · have missing : Fields.get? ((k, v) :: fs) l = none :=
                Fields.get?_eq_none_of_below <| List.forall_mem_cons.mpr
                  ⟨below, fun entry member => String.lt_trans below (above entry member)⟩
              have first := each l
              rw [here', missing] at first
              cases first
          subst same
          have values := each k
          rw [here, here'] at values
          refine .cons ⟨rfl, by simpa using values⟩ (ih rest rest' fun key => ?_)
          by_cases same : k = key
          · subst same
            rw [Fields.get?_eq_none_of_below above, Fields.get?_eq_none_of_below above']
            exact .none
          · simpa only [Fields.get?, same, if_false] using each key

/-- What comes of decoding: a value or a message. -/
def outcome (x : Except DecodeError α) : Except String α := x.mapError DecodeError.message

@[simp] theorem outcome_ok (a : α) : outcome (.ok a) = .ok a := rfl

@[simp] theorem outcome_error (e : DecodeError) : outcome (.error e : Except _ α) = .error e.message :=
  rfl

theorem outcome_bind_congr {x y : Except DecodeError α} {f g : α → Except DecodeError β}
    (first : outcome x = outcome y) (next : ∀ a, outcome (f a) = outcome (g a)) :
    outcome (x >>= f) = outcome (y >>= g) := by
  cases x with
  | error e =>
      cases y with
      | error e' =>
          have messages : e.message = e'.message := by simpa using first
          exact congrArg Except.error messages
      | ok b => simp at first
  | ok a =>
      cases y with
      | error e' => simp at first
      | ok b =>
          obtain rfl : a = b := by simpa using first
          exact next a

theorem outcome_map_congr {x y : Except DecodeError α} (f : α → β) (same : outcome x = outcome y) :
    outcome (x.map f) = outcome (y.map f) := by
  cases x <;> cases y <;> simp_all [Except.map]

/-- Whether a decoder gives the same for related values. -/
def Decoder.Respects (decode : Decoder α) (related : Json → Json → Prop) : Prop :=
  ∀ v w, related v w → outcome (decode v) = outcome (decode w)

namespace Decoder

theorem respects_of_refused {decode : Decoder α} {want : String}
    (refused : ∀ fields, decode (.object fields) = .error (.wrongType (.object fields) want)) :
    decode.Respects Outward := by
  rintro v w (rfl | ⟨fs, gs, rfl, rfl⟩)
  · rfl
  · rw [refused, refused]
    rfl

theorem respects_string : string.Respects Outward := respects_of_refused fun _ => rfl

theorem respects_bool : bool.Respects Outward := respects_of_refused fun _ => rfl

theorem respects_unsigned32 : unsigned32.Respects Outward := respects_of_refused fun _ => rfl

theorem respects_unsigned64 : unsigned64.Respects Outward := respects_of_refused fun _ => rfl

theorem respects_size64 : size64.Respects Outward := respects_of_refused fun _ => rfl

theorem Respects.nullable {decode : Decoder α} (respects : decode.Respects Outward) :
    decode.nullable.Respects Outward := by
  rintro v w (rfl | ⟨fs, gs, rfl, rfl⟩)
  · rfl
  · exact outcome_map_congr _ (respects _ _ (.inr ⟨fs, gs, rfl, rfl⟩))

end Decoder

namespace Shape

variable {shape : Shape α}

/-- Whether a record is checked and built in the same way of related fields. -/
structure Respects (shape : Shape α) (related : String → Json → Json → Prop) : Prop where
  check : ∀ rule ∈ shape.rules, ∀ v w, related rule.name v w →
    outcome (rule.check v) = outcome (rule.check w)
  build : ∀ look look' : String → Option Json,
    (∀ name, Option.Rel (related name) (look name) (look' name)) →
    outcome (shape.build look) = outcome (shape.build look')

theorem respects_defaulted {decode : Decoder α} (respects : decode.Respects (related name))
    (fallback : α) : (defaulted name decode fallback).Respects related where
  check := by
    intro rule member v w alike
    obtain rfl := List.mem_singleton.mp member
    exact outcome_map_congr _ (respects v w alike)
  build := by
    intro look look' alike
    rw [build_defaulted, build_defaulted]
    match look name, look' name, alike name with
    | none, none, .none => rfl
    | some v, some w, .some alike => exact respects v w alike

theorem Respects.map (respects : shape.Respects related) (f : α → β) :
    (f <$> shape).Respects related where
  check := respects.check
  build := fun look look' alike => outcome_map_congr f (respects.build look look' alike)

theorem Respects.seq {makers : Shape (α → β)} (respects : makers.Respects related)
    (respects' : shape.Respects related) : (makers <*> shape).Respects related where
  check := by
    intro rule member
    rcases List.mem_append.mp member with member | member
    · exact respects.check rule member
    · exact respects'.check rule member
  build := by
    intro look look' alike
    refine outcome_bind_congr (respects.build look look' alike) fun f => ?_
    exact outcome_bind_congr (respects'.build look look' alike) fun a => rfl

theorem Respects.checkFields (respects : shape.Respects related) (parallel : Parallel related fs gs) :
    outcome (checkFields shape.rules fs) = outcome (checkFields shape.rules gs) := by
  induction parallel with
  | nil => rfl
  | @cons e f _ _ one _ ih =>
      obtain ⟨k, v⟩ := e
      obtain ⟨l, w⟩ := f
      obtain ⟨rfl, alike⟩ := one
      unfold Shape.checkFields
      cases found : shape.rules.find? (·.name = k) with
      | none => exact ih
      | some rule =>
          obtain rfl : rule.name = k := by simpa using List.find?_some found
          have first := respects.check rule (List.mem_of_find?_eq_some found) v w alike
          exact outcome_bind_congr first fun _ => ih

/-- A record is the same, or refused in the same words, for objects that agree where it looks. -/
theorem Respects.decoder (respects : shape.Respects related) (record : String) :
    (shape.decoder record).Respects (Inward related) := by
  rintro v w (rfl | ⟨fs, gs, rfl, rfl, parallel⟩)
  · rfl
  · refine outcome_bind_congr (respects.checkFields parallel) fun _ => ?_
    exact respects.build _ _ parallel.get?

end Shape

end Switchboard.Json
