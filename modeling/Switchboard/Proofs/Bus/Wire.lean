import Mathlib.Tactic.Simproc.ExistsAndEq
import Switchboard.Event
import Switchboard.Proofs.Json.Record
import Switchboard.Proofs.Json.Written

/-!
Events on the wire.

A place in the stream is told from its number on the wire if the number says it all: a worker's place
fits sixty-three bits and a notice is below zero.  An event in such a place is read as what was written.
-/

namespace Switchboard

namespace Sequence

/-- Whether the number on the wire says it all. -/
def Exact : Sequence → Prop
  | ordinal position => (position.toNat : Int) ≤ wireMax
  | synthetic slot => 1 ≤ slot.toNat

instance : (sequence : Sequence) → Decidable sequence.Exact
  | ordinal _ => inferInstanceAs (Decidable (_ ≤ _))
  | synthetic _ => inferInstanceAs (Decidable (_ ≤ _))

variable {sequence : Sequence}

theorem ofWire_toWire (exact : sequence.Exact) : ofWire sequence.toWire = sequence := by
  cases sequence with
  | ordinal position =>
      have fits : (position.toNat : Int) ≤ wireMax := exact
      have wire : toWire (ordinal position) = position.toNat := Int.min_eq_left fits
      rw [wire, ofWire, if_pos (Int.natCast_nonneg _), Int.toNat_natCast, UInt64.ofNat_toNat]
  | synthetic slot =>
      have some_ : 1 ≤ slot.toNat := exact
      have below : ¬ 0 ≤ -(slot.toNat : Int) := by omega
      have small : min slot.toNat slotMax = slot.toNat := by
        have := slot.toNat_lt
        rw [slotMax_eq]
        omega
      rw [toWire, ofWire, if_neg below, Int.natAbs_neg, Int.natAbs_natCast, small,
        UInt32.ofNat_toNat]

theorem toWire_bounds (sequence : Sequence) :
    -(Nat.pow 2 63 : Int) ≤ sequence.toWire ∧ sequence.toWire < (Nat.pow 2 63 : Int) := by
  have half : Nat.pow 2 63 = 9223372036854775808 := rfl
  rw [half]
  cases sequence with
  | ordinal position =>
      rw [toWire, wireMax_eq]
      omega
  | synthetic slot =>
      have := slot.toNat_lt
      rw [toWire]
      omega

theorem decode_toJson (exact : sequence.Exact) : decode sequence.toJson = .ok sequence := by
  have read : Json.Decoder.signed64 sequence.toJson = .ok sequence.toWire :=
    Json.Decoder.integer_eq_ok_iff.mpr ⟨rfl, sequence.toWire_bounds⟩
  rw [decode, read, Except.map, ofWire_toWire exact]

end Sequence

namespace Event

open Json Json.Shape

variable {event : Event} {depth : Nat}

theorem strict_shape : shape.Strict :=
  ((((((strict_required _ _).map _).seq (strict_optional _ _)).seq (strict_required _ _)).seq
    (strict_required _ _)).seq (strict_required _ _)).seq (strict_required _ _)

theorem build_shape {look : String → Option Json} : shape.build look = .ok event ↔
    (required "execution_id" .string).build look = .ok event.execution ∧
    (optional "trace_id" .string).build look = .ok event.trace ∧
    (required "seq" Sequence.decode).build look = .ok event.sequence ∧
    (required "ts" .string).build look = .ok event.timestamp ∧
    (required "type" .string).build look = .ok event.type ∧
    (required "payload" .any).build look = .ok event.payload := by
  obtain ⟨_, _, _, _, _, _⟩ := event
  simp only [shape, build_seq, build_map, existsAndEq, Event.mk.injEq, and_assoc, and_true]

theorem decode_toJson (exact : event.sequence.Exact) : decode event.toJson = .ok event := by
  have place := Sequence.decode_toJson exact
  have ascending : (Fields.ofList event.fields).Ascending := Fields.ascending_ofList _
  rw [toJson, ofEntries, decode, strict_shape.decoder_object _ ascending, build_shape]
  obtain ⟨execution, trace, sequence, timestamp, type, payload⟩ := event
  cases trace <;> exact ⟨rfl, rfl, place, rfl, rfl, rfl⟩

theorem forall_mem_fields (holds : Json → Prop) (strings : ∀ s, holds (.string s))
    (place : holds event.sequence.toJson) (payload : holds event.payload) :
    ∀ field ∈ event.fields, holds field.2 := by
  simp only [fields, List.forall_mem_append, List.forall_mem_cons]
  refine ⟨⟨⟨strings _, List.forall_mem_nil _⟩, ?_⟩, place, strings _, strings _, payload,
    List.forall_mem_nil _⟩
  cases event.trace with
  | none => exact List.forall_mem_nil _
  | some trace => exact List.forall_mem_cons.mpr ⟨strings _, List.forall_mem_nil _⟩

theorem legible_fields (legible : event.payload.Legible depth) :
    Legible (depth + 1) (.object event.fields) := by
  obtain ⟨low, high⟩ := event.sequence.toWire_bounds
  have place : (Number.integer event.sequence.toWire).Legible :=
    legible_integer low (Int.lt_trans high (by decide))
  exact .object (forall_mem_fields _ .string (.number place) legible)

theorem inOrder_fields (same : event.payload.inOrder = event.payload) :
    inOrder (.object event.fields) = event.toJson := by
  have each : ∀ field ∈ event.fields, inOrder field.2 = field.2 :=
    forall_mem_fields (fun v => inOrder v = v) (fun _ => rfl) rfl same
  rw [inOrder, inOrderFields_eq_self each]
  rfl

/-- An event whose place is told from its number is read as what was written, whatever it carries.  On
the way through a text this goes for a payload that the reader of texts gives back. -/
theorem events_survive_the_wire (exact : event.sequence.Exact) :
    decode event.toJson = .ok event ∧
      (event.payload.Ordered → event.payload.Legible 126 →
        ∃ v, Json.read event.text = .ok v ∧ decode v = .ok event) := by
  have decoded := decode_toJson exact
  refine ⟨decoded, fun ordered legible => ⟨_, ?_, decoded⟩⟩
  have read : Json.read event.text = .ok (inOrder (.object event.fields)) :=
    read_text (legible_fields legible)
  rw [read, inOrder_fields (legible.inOrder_eq ordered)]

/-- The last place of a worker, no trace and a payload of nothing. -/
private def last : Event where
  execution := "exec\n\"1\""
  trace := none
  sequence := .ordinal 9223372036854775807
  timestamp := ""
  type := EventType.done
  payload := .null

/-- The lowest notice, with a payload that has something inside. -/
private def deepest : Event where
  execution := "é😀"
  trace := some ""
  sequence := .synthetic 4294967295
  timestamp := "2999-01-01T00:00:00.000000Z"
  type := "\x01"
  payload := .object [("error", .array [.null, .bool true]), ("status", .null)]

theorem extreme_events_survive_the_wire : decode last.toJson = .ok last ∧
    ∃ v, Json.read deepest.text = .ok v ∧ decode v = .ok deepest := by
  have exact : deepest.sequence.Exact := by decide
  have ordered : deepest.payload.Ordered := by
    simp only [deepest, Ordered, OrderedFields, OrderedField, OrderedItems, Fields.Ascending,
      and_true]
    decide
  have legible : deepest.payload.Legible 126 := by
    refine .object ?_
    simp only [List.forall_mem_cons]
    refine ⟨.array ?_, .null, List.forall_mem_nil _⟩
    simp only [List.forall_mem_cons]
    exact ⟨.null, .bool true, List.forall_mem_nil _⟩
  have small : last.sequence.Exact := by decide
  exact ⟨(events_survive_the_wire small).1, (events_survive_the_wire exact).2 ordered legible⟩

end Event

end Switchboard
