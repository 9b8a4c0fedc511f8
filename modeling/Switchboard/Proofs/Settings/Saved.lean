import Switchboard.Proofs.Json.Written
import Switchboard.Proofs.Settings.Load
import Switchboard.Proofs.Text.Utf8

/-!
Settings that are saved and loaded again.

What is written for settings gives every field its own value, with one exception: where there is no
secret none is written, and no secret is what the default says as well.
-/

namespace Switchboard.Settings

open Json

variable {file : File} {layer : Fields} {env : Environment} {s : Settings} {depth : Nat}

/-- The fields of settings as a file has them. -/
def saved (s : Settings) : Fields :=
  .ofList (s.sections.map fun (name, fields) => (name, .ofEntries fields))

theorem sectional_saved (s : Settings) (part : Section) : Sectional (s.saved.get? part.name) := by
  cases part <;> exact trivial

theorem Field.given_saved (f : Field) (s : Settings) :
    f.given s.saved = Json.given (some (f.kind.write (f.get s))) := by
  obtain ⟨_, ⟨_, _, secret, _⟩, _, _, _⟩ := s
  cases secret <;> cases f <;> rfl

theorem Field.takes_saved (f : Field) (s : Settings) : f.Takes s.saved (f.get s) := by
  rw [Takes, given_saved]
  by_cases nothing : (f.kind.write (f.get s)).isNull
  · rw [given_of_isNull nothing]
    exact eq_usual_of_isNull nothing
  · rw [given_some (Bool.eq_false_iff.mpr nothing)]

theorem ofLayer_saved (ordered : (Json.object s.saved).Ordered) :
    ofLayer (.object s.saved) = .ok s :=
  (ofLayer_eq_ok_iff ordered (sectional_saved s)).mpr fun f => f.takes_saved s

theorem eq_of_get {s' : Settings} (same : ∀ f : Field, f.get s = f.get s') : s = s' := by
  have all : (fun f : Field => f.get s) = fun f => f.get s' := funext same
  exact congrArg Field.collect all

/-- With no variable set the environment changes nothing. -/
theorem override_of_unset (unset : ∀ f : Field, ∀ name ∈ f.variableName, env name = none)
    (s : Settings) : override env s = s := by
  refine eq_of_get fun f => ?_
  have none : f.replacement env = none := by
    refine f.replacement_eq_none_iff.mpr fun a set => ?_
    obtain ⟨name, named, text, there, -⟩ := set
    exact Option.some_ne_none text (there.symm.trans (unset f name named))
  rw [f.get_override, none, Option.getD_none]

theorem legible_word64 (n : UInt64) : Legible depth (.ofNat n.toNat) := legible_ofNat n.toNat_lt

theorem legible_word32 (n : UInt32) : Legible depth (.ofNat n.toNat) :=
  legible_ofNat (Nat.lt_trans n.toNat_lt (by decide))

theorem legible_sections (s : Settings) :
    Legible (depth + 2) (.object (s.sections.map fun (name, fields) => (name, .object fields))) := by
  refine .object ?_
  simp only [sections, List.map_cons, List.map_nil, List.forall_mem_cons]
  refine ⟨.object ?_, .object ?_, .object ?_, .object ?_, .object ?_, List.forall_mem_nil _⟩
  · simp only [DatabaseSettings.fields, List.forall_mem_cons]
    exact ⟨.string _, legible_word32 _, legible_word32 _, List.forall_mem_nil _⟩
  · simp only [SchedulerSettings.fields, List.forall_mem_append, List.forall_mem_cons]
    refine ⟨⟨⟨legible_word64 _, .string _, List.forall_mem_nil _⟩, ?_⟩, legible_word64 _,
      List.forall_mem_nil _⟩
    cases s.scheduler.runtimeSharedSecret with
    | none => exact List.forall_mem_nil _
    | some secret => exact List.forall_mem_cons.mpr ⟨.string _, List.forall_mem_nil _⟩
  · simp only [WatchdogSettings.fields, List.forall_mem_cons]
    exact ⟨.bool _, legible_word64 _, legible_word64 _, List.forall_mem_nil _⟩
  · simp only [EventBusSettings.fields, List.forall_mem_cons]
    exact ⟨legible_word64 _, legible_word64 _, List.forall_mem_nil _⟩
  · simp only [LoggingSettings.fields, List.forall_mem_cons]
    exact ⟨.string _, .bool _, List.forall_mem_nil _⟩

theorem inOrder_sections (s : Settings) :
    inOrder (.object (s.sections.map fun (name, fields) => (name, .object fields))) =
      .object s.saved := by
  obtain ⟨_, ⟨_, _, secret, _⟩, _, _, _⟩ := s
  cases secret <;> rfl

theorem holds_saved (s : Settings) : File.Holds (.content (Text.bytes s.text)) s.saved := by
  refine ⟨_, _, rfl, Text.Utf8.decode?_bytes s.text, ?_⟩
  rw [String.ofList_toList, text, recordText, read_text (legible_sections s), inOrder_sections]

/-- Settings that were saved are loaded as they were, whatever they are, from the text that is written
for them and from any other that says the same. -/
theorem saved_settings_are_loaded (unset : ∀ f : Field, ∀ name ∈ f.variableName, env name = none)
    (s : Settings) :
    load (.content (Text.bytes s.text)) env = .ok s ∧
      ∀ (file : File) (layer : Fields), file.Holds layer → .object layer = s.toJson →
        load file env = .ok s := by
  have loads {file : File} (holds : file.Holds s.saved) : load file env = .ok s :=
    holds.load_eq_ok_iff.mpr ⟨s, ofLayer_saved holds.ordered, override_of_unset unset s⟩
  refine ⟨loads (holds_saved s), fun file layer holds same => ?_⟩
  have written : s.toJson = .object s.saved := rfl
  obtain rfl : layer = s.saved := Json.object.inj (same.trans written)
  exact loads holds

/-- Texts with all that has to be escaped, the greatest numbers and a secret. -/
private def odd : Settings where
  database := { path := "C:\\hub \"1\"\n", poolSize := 4294967295, busyTimeoutMs := 0 }
  scheduler :=
    { maxConcurrentExecutions := 18446744073709551615, workerBaseUrl := ""
      runtimeSharedSecret := some "\x01é😀" }
  watchdog := { enabled := false, timeoutSecs := 0, intervalSecs := 18446744073709551615 }

theorem odd_settings_are_loaded :
    load (.content (Text.bytes odd.text)) (fun _ => none) = .ok odd :=
  (saved_settings_are_loaded (fun _ _ _ => rfl) odd).1

end Switchboard.Settings
