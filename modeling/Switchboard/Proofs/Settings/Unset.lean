import Switchboard.Proofs.Json.Bare
import Switchboard.Proofs.Settings.File

/-!
Fields that a file leaves unset.

A field that is `null` counts as one that is not there, wherever it stands: for a setting, for a whole
section, and for what nobody knows.
-/

namespace Switchboard.Settings

open Json Json.Shape

variable {α : Type} {layer : Fields}

theorem respects_database : DatabaseSettings.decode.Respects (Inward fun _ => Outward) :=
  Respects.decoder
    ((((respects_defaulted Decoder.respects_string _).map _).seq
      (respects_defaulted Decoder.respects_unsigned32 _)).seq
      (respects_defaulted Decoder.respects_unsigned32 _)) _

theorem respects_scheduler : SchedulerSettings.decode.Respects (Inward fun _ => Outward) :=
  Respects.decoder
    (((((respects_defaulted Decoder.respects_size64 _).map _).seq
      (respects_defaulted Decoder.respects_string _)).seq
      (respects_defaulted Decoder.respects_string.nullable _)).seq
      (respects_defaulted Decoder.respects_unsigned64 _)) _

theorem respects_watchdog : WatchdogSettings.decode.Respects (Inward fun _ => Outward) :=
  Respects.decoder
    ((((respects_defaulted Decoder.respects_bool _).map _).seq
      (respects_defaulted Decoder.respects_unsigned64 _)).seq
      (respects_defaulted Decoder.respects_unsigned64 _)) _

theorem respects_eventBus : EventBusSettings.decode.Respects (Inward fun _ => Outward) :=
  Respects.decoder
    (((respects_defaulted Decoder.respects_size64 _).map _).seq
      (respects_defaulted Decoder.respects_size64 _)) _

theorem respects_logging : LoggingSettings.decode.Respects (Inward fun _ => Outward) :=
  Respects.decoder
    (((respects_defaulted Decoder.respects_string _).map _).seq
      (respects_defaulted Decoder.respects_bool _)) _

/-- Under the name of a section the same fields, alike from outside; anything under other keys. -/
def SectionAlike (key : String) (v w : Json) : Prop :=
  (∃ part : Section, part.name = key) → Inward (fun _ => Outward) v w

theorem respects_section (part : Section) {decode : Decoder α}
    (respects : decode.Respects (Inward fun _ => Outward)) :
    decode.Respects (SectionAlike part.name) :=
  fun v w alike => respects v w (alike ⟨part, rfl⟩)

theorem respects_decode : decode.Respects (Inward SectionAlike) :=
  Respects.decoder
    ((((((respects_defaulted (respects_section .database respects_database) _).map _).seq
      (respects_defaulted (respects_section .scheduler respects_scheduler) _)).seq
      (respects_defaulted (respects_section .watchdog respects_watchdog) _)).seq
      (respects_defaulted (respects_section .eventBus respects_eventBus) _)).seq
      (respects_defaulted (respects_section .logging respects_logging) _)) _

theorem parallel_sections (ordered : (Json.object layer).Ordered) :
    Parallel SectionAlike (mergeFields usualFields layer)
      (mergeFields usualFields (bareFields layer)) := by
  refine parallel_of_get? (ascending_mergeFields ascending_usualFields _)
    (ascending_mergeFields ascending_usualFields _) fun key => ?_
  rw [get?_mergeFields ordered.1, get?_mergeFields (ascending_bareFields ordered.1),
    get?_bareFields ordered.1]
  refine rel_layered (fun o _ _ => .inl rfl) ?_ ?_
  · rintro o v there laid ⟨part, rfl⟩
    obtain rfl : Json.object part.usual = o :=
      Option.some.inj ((get?_usualFields part).symm.trans there)
    have member : (part.name, v) ∈ layer :=
      ordered.1.get?_eq_some_iff.mp (Option.filter_eq_some_iff.mp laid).1
    exact inward_merge (ascending_usual part) (orderedFields_iff.mp ordered.2 _ member)
  · -- The defaults have every section.
    rintro v missing - ⟨part, rfl⟩
    rw [get?_usualFields] at missing
    nomatch missing

/-- A layer gives the same settings, or is refused with the same message, as the layer without the
`null` fields of its objects, however deep they lie and whether anybody knows them or not. -/
theorem null_means_not_set (ordered : (Json.object layer).Ordered) :
    outcome (ofLayer (.object layer)) = outcome (ofLayer (bare (.object layer))) :=
  respects_decode _ _ (.inr ⟨_, _, rfl, rfl, parallel_sections ordered⟩)

/-- Something is `null` in a section, in place of a section, where nobody knows the key, and inside a
value that is no secret. -/
private def openFields : Fields :=
  [("database", .object [("path", .null), ("poolSize", .ofNat 3)]),
    ("extra", .object [("a", .null)]), ("logging", .null),
    ("scheduler", .object [("runtimeSharedSecret", .object [("b", .null)])])]

private def closedFields : Fields :=
  [("database", .object [("poolSize", .ofNat 3)]), ("extra", .object []),
    ("scheduler", .object [("runtimeSharedSecret", .object [])])]

theorem null_inside_is_refused_alike : (Json.object openFields).Ordered ∧
    bare (.object openFields) = .object closedFields ∧
    outcome (ofLayer (.object closedFields)) = .error "invalid type: map, expected a string" := by
  have ordered : (Json.object openFields).Ordered := by
    simp only [openFields, Ordered, OrderedFields, OrderedField, Fields.Ascending, Json.ofNat,
      and_true]
    decide
  have same : bare (.object openFields) = .object closedFields := by rfl
  have refused : outcome (ofLayer (.object openFields)) =
      .error "invalid type: map, expected a string" := by rfl
  exact ⟨ordered, same, same ▸ (null_means_not_set ordered).symm.trans refused⟩

end Switchboard.Settings
