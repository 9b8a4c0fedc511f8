import Mathlib.Tactic.Simproc.ExistsAndEq
import Switchboard.Proofs.Settings.Field

/-!
Settings files.

A file lies over the defaults section by section, so it gives settings exactly if whatever it gives for
a field is of the field's kind.
-/

namespace Switchboard.Settings

open Json Json.Shape Switchboard.Settings.Field

variable {fields layer : Fields} {s : Settings} {look : String → Option Json}

/-- Whether a setting has the value that is made of what stands in its place. -/
def Field.Made (f : Field) (o : Option Json) (s : Settings) : Prop :=
  taken f.kind.decode f.usual o = .ok (f.get s)

theorem build_database : DatabaseSettings.shape.build look = .ok s.database ↔
    Made .path (look "path") s ∧ Made .poolSize (look "poolSize") s ∧
      Made .busyTimeoutMs (look "busyTimeoutMs") s := by
  obtain ⟨⟨_, _, _⟩, _, _, _, _⟩ := s
  simp only [DatabaseSettings.shape, build_seq, build_map, build_defaulted, existsAndEq,
    DatabaseSettings.mk.injEq, and_assoc, and_true]
  exact Iff.rfl

theorem build_scheduler : SchedulerSettings.shape.build look = .ok s.scheduler ↔
    Made .maxConcurrentExecutions (look "maxConcurrentExecutions") s ∧
      Made .workerBaseUrl (look "workerBaseUrl") s ∧
      Made .runtimeSharedSecret (look "runtimeSharedSecret") s ∧
      Made .dispatchTimeoutMs (look "dispatchTimeoutMs") s := by
  obtain ⟨_, ⟨_, _, _, _⟩, _, _, _⟩ := s
  simp only [SchedulerSettings.shape, build_seq, build_map, build_defaulted, existsAndEq,
    SchedulerSettings.mk.injEq, and_assoc, and_true]
  exact Iff.rfl

theorem build_watchdog : WatchdogSettings.shape.build look = .ok s.watchdog ↔
    Made .enabled (look "enabled") s ∧ Made .timeoutSecs (look "timeoutSecs") s ∧
      Made .intervalSecs (look "intervalSecs") s := by
  obtain ⟨_, _, ⟨_, _, _⟩, _, _⟩ := s
  simp only [WatchdogSettings.shape, build_seq, build_map, build_defaulted, existsAndEq,
    WatchdogSettings.mk.injEq, and_assoc, and_true]
  exact Iff.rfl

theorem build_eventBus : EventBusSettings.shape.build look = .ok s.eventBus ↔
    Made .ringCapacity (look "ringCapacity") s ∧
      Made .subscriberQueue (look "subscriberQueue") s := by
  obtain ⟨_, _, _, ⟨_, _⟩, _⟩ := s
  simp only [EventBusSettings.shape, build_seq, build_map, build_defaulted, existsAndEq,
    EventBusSettings.mk.injEq, and_true]
  exact Iff.rfl

theorem build_logging : LoggingSettings.shape.build look = .ok s.logging ↔
    Made .level (look "level") s ∧ Made .json (look "json") s := by
  obtain ⟨_, _, _, _, ⟨_, _⟩⟩ := s
  simp only [LoggingSettings.shape, build_seq, build_map, build_defaulted, existsAndEq,
    LoggingSettings.mk.injEq, and_true]
  exact Iff.rfl

theorem build_settings : shape.build look = .ok s ↔
    taken DatabaseSettings.decode {} (look "database") = .ok s.database ∧
    taken SchedulerSettings.decode {} (look "scheduler") = .ok s.scheduler ∧
    taken WatchdogSettings.decode {} (look "watchdog") = .ok s.watchdog ∧
    taken EventBusSettings.decode {} (look "eventBus") = .ok s.eventBus ∧
    taken LoggingSettings.decode {} (look "logging") = .ok s.logging := by
  obtain ⟨_, _, _, _, _⟩ := s
  simp only [shape, build_seq, build_map, build_defaulted, existsAndEq, Settings.mk.injEq,
    and_assoc, and_true]

/-- Whether the fields of a section give a setting its value. -/
def Field.Built (f : Field) (fields : Fields) (s : Settings) : Prop :=
  taken f.kind.decode f.usual (fields.get? f.key) = .ok (f.get s)

theorem decode_database (ascending : fields.Ascending) :
    DatabaseSettings.decode (.object fields) = .ok s.database ↔
      Built .path fields s ∧ Built .poolSize fields s ∧ Built .busyTimeoutMs fields s := by
  have strict : DatabaseSettings.shape.Strict :=
    (((strict_defaulted _ _ _).map _).seq (strict_defaulted _ _ _)).seq (strict_defaulted _ _ _)
  rw [DatabaseSettings.decode, strict.decoder_object _ ascending]
  exact build_database

theorem decode_scheduler (ascending : fields.Ascending) :
    SchedulerSettings.decode (.object fields) = .ok s.scheduler ↔
      Built .maxConcurrentExecutions fields s ∧ Built .workerBaseUrl fields s ∧
        Built .runtimeSharedSecret fields s ∧ Built .dispatchTimeoutMs fields s := by
  have strict : SchedulerSettings.shape.Strict :=
    ((((strict_defaulted _ _ _).map _).seq (strict_defaulted _ _ _)).seq
      (strict_defaulted _ _ _)).seq (strict_defaulted _ _ _)
  rw [SchedulerSettings.decode, strict.decoder_object _ ascending]
  exact build_scheduler

theorem decode_watchdog (ascending : fields.Ascending) :
    WatchdogSettings.decode (.object fields) = .ok s.watchdog ↔
      Built .enabled fields s ∧ Built .timeoutSecs fields s ∧ Built .intervalSecs fields s := by
  have strict : WatchdogSettings.shape.Strict :=
    (((strict_defaulted _ _ _).map _).seq (strict_defaulted _ _ _)).seq (strict_defaulted _ _ _)
  rw [WatchdogSettings.decode, strict.decoder_object _ ascending]
  exact build_watchdog

theorem decode_eventBus (ascending : fields.Ascending) :
    EventBusSettings.decode (.object fields) = .ok s.eventBus ↔
      Built .ringCapacity fields s ∧ Built .subscriberQueue fields s := by
  have strict : EventBusSettings.shape.Strict :=
    ((strict_defaulted _ _ _).map _).seq (strict_defaulted _ _ _)
  rw [EventBusSettings.decode, strict.decoder_object _ ascending]
  exact build_eventBus

theorem decode_logging (ascending : fields.Ascending) :
    LoggingSettings.decode (.object fields) = .ok s.logging ↔
      Built .level fields s ∧ Built .json fields s := by
  have strict : LoggingSettings.shape.Strict :=
    ((strict_defaulted _ _ _).map _).seq (strict_defaulted _ _ _)
  rw [LoggingSettings.decode, strict.decoder_object _ ascending]
  exact build_logging

theorem decode_settings (ascending : fields.Ascending) :
    decode (.object fields) = .ok s ↔
      taken DatabaseSettings.decode {} (fields.get? (Section.name .database)) = .ok s.database ∧
      taken SchedulerSettings.decode {} (fields.get? (Section.name .scheduler)) = .ok s.scheduler ∧
      taken WatchdogSettings.decode {} (fields.get? (Section.name .watchdog)) = .ok s.watchdog ∧
      taken EventBusSettings.decode {} (fields.get? (Section.name .eventBus)) = .ok s.eventBus ∧
      taken LoggingSettings.decode {} (fields.get? (Section.name .logging)) = .ok s.logging := by
  have strict : shape.Strict :=
    (((((strict_defaulted _ _ _).map _).seq (strict_defaulted _ _ _)).seq
      (strict_defaulted _ _ _)).seq (strict_defaulted _ _ _)).seq (strict_defaulted _ _ _)
  rw [decode, strict.decoder_object _ ascending]
  exact build_settings

/-- The defaults as a file would give them. -/
def usualFields : Fields :=
  .ofList ((sections {}).map fun (name, fields) => (name, .ofEntries fields))

theorem get?_usualFields (part : Section) :
    usualFields.get? part.name = some (.object part.usual) := by
  cases part <;> rfl

theorem ascending_usualFields : usualFields.Ascending := Fields.ascending_ofList _

theorem ascending_usual (part : Section) : part.usual.Ascending := by
  cases part <;> exact Fields.ascending_ofList _

theorem Field.forall_iff {holds : Field → Prop} : (∀ f, holds f) ↔
    (holds .path ∧ holds .poolSize ∧ holds .busyTimeoutMs) ∧
    (holds .maxConcurrentExecutions ∧ holds .workerBaseUrl ∧ holds .runtimeSharedSecret ∧
      holds .dispatchTimeoutMs) ∧
    (holds .enabled ∧ holds .timeoutSecs ∧ holds .intervalSecs) ∧
    (holds .ringCapacity ∧ holds .subscriberQueue) ∧ holds .level ∧ holds .json := by
  constructor
  · intro all
    simp only [all, and_self]
  · intro all f
    cases f <;> simp only [all]

/-- A layer gives settings exactly if each of them is what the layer gives for it, and its default
where the layer gives nothing. -/
theorem ofLayer_eq_ok_iff (ordered : (Json.object layer).Ordered)
    (sectional : ∀ part : Section, Sectional (layer.get? part.name)) :
    ofLayer (.object layer) = .ok s ↔ ∀ f : Field, f.Takes layer (f.get s) := by
  -- Both layers have every section as an object, or the upper one has nothing there.
  have merged (part : Section) : Fields.get? (mergeFields usualFields layer) part.name =
      some (.object (mergeFields part.usual (inner (layer.get? part.name)))) := by
    rw [get?_mergeFields ordered.1, get?_usualFields, layered_section (sectional part)]
  have inOrder (part : Section) :
      Fields.Ascending (mergeFields part.usual (inner (layer.get? part.name))) :=
    ascending_mergeFields (ascending_usual part) _
  have built (f : Field) :
      Built f (mergeFields f.home.usual (inner (layer.get? f.home.name))) s ↔
        f.Takes layer (f.get s) :=
    taken_eq_ok_iff f (ascending_inner ordered f.home.name)
  have whole : ofLayer (.object layer) = decode (.object (mergeFields usualFields layer)) := rfl
  rw [whole, decode_settings (ascending_mergeFields ascending_usualFields layer), Field.forall_iff]
  simp only [merged, taken, decode_database (inOrder .database),
    decode_scheduler (inOrder .scheduler), decode_watchdog (inOrder .watchdog),
    decode_eventBus (inOrder .eventBus), decode_logging (inOrder .logging), ← built]
  exact Iff.rfl

/-- A layer is refused only for a value that it gives for a field and that is not of the field's
kind. -/
theorem ofLayer_exists_iff (ordered : (Json.object layer).Ordered)
    (sectional : ∀ part : Section, Sectional (layer.get? part.name)) :
    (∃ s, ofLayer (.object layer) = .ok s) ↔
      ∀ (f : Field) v, f.given layer = some v → ∃ a, v = f.kind.write a := by
  simp only [ofLayer_eq_ok_iff ordered sectional]
  constructor
  · rintro ⟨s, takes⟩ f v there
    have takes := takes f
    rw [Takes, there] at takes
    exact ⟨f.get s, takes⟩
  · intro suits
    have each (f : Field) : ∃ a, f.Takes layer a := by
      unfold Takes
      cases there : f.given layer with
      | none => exact ⟨f.usual, rfl⟩
      | some v => exact suits f v there
    refine ⟨collect fun f => (each f).choose, fun f => ?_⟩
    rw [get_collect]
    exact (each f).choose_spec

/-- A file that holds an object, in JSON and in UTF-8. -/
def File.Holds (file : File) (layer : Fields) : Prop :=
  ∃ bytes cs, file = .content bytes ∧ Text.Utf8.decode? bytes = some cs ∧
    Json.read (String.ofList cs) = .ok (.object layer)

theorem File.Holds.ordered {file : File} (holds : file.Holds layer) :
    (Json.object layer).Ordered := by
  obtain ⟨_, _, -, -, read⟩ := holds
  exact ordered_of_read read

theorem File.Holds.ofFile_eq_ok_iff {file : File} (holds : file.Holds layer) :
    ofFile file = .ok s ↔ ofLayer (.object layer) = .ok s := by
  obtain ⟨bytes, cs, rfl, decoded, read⟩ := holds
  simp only [ofFile, decoded, ofText, read, bind_eq_ok, mapError_eq_ok, Except.ok.injEq,
    exists_eq_left']

theorem File.Holds.load_eq_ok_iff {file : File} {env : Environment} (holds : file.Holds layer) :
    load file env = .ok s ↔
      ∃ before, ofLayer (.object layer) = .ok before ∧ override env before = s := by
  simp only [load, map_eq_ok, holds.ofFile_eq_ok_iff]

end Switchboard.Settings
