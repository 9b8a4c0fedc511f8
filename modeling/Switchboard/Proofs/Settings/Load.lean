import Switchboard.Proofs.Settings.File
import Switchboard.Proofs.Settings.Variable
import Switchboard.Proofs.Text.Bytes

/-!
Where each setting comes from.

A variable goes before the file, and the file goes before the default, for each field by itself.
Whether settings can be loaded is up to the file alone.
-/

namespace Switchboard.Settings

open Json

variable {file : File} {layer : Fields} {env : Environment} {s : Settings}

theorem load_exists_iff (holds : file.Holds layer)
    (sectional : ∀ part : Section, Sectional (layer.get? part.name)) :
    (∃ s, load file env = .ok s) ↔
      ∀ (f : Field) v, f.given layer = some v → ∃ a, v = f.kind.write a := by
  rw [← ofLayer_exists_iff holds.ordered sectional]
  simp only [holds.load_eq_ok_iff]
  constructor
  · rintro ⟨_, before, loaded, -⟩
    exact ⟨before, loaded⟩
  · rintro ⟨before, loaded⟩
    exact ⟨_, before, loaded, rfl⟩

/-- What the sources of a field say decides what it is. -/
theorem Field.get_of_load (holds : file.Holds layer)
    (sectional : ∀ part : Section, Sectional (layer.get? part.name)) (loaded : load file env = .ok s)
    (f : Field) : ∃ a, f.Takes layer a ∧ f.get s = (f.replacement env).getD a := by
  obtain ⟨before, layered, rfl⟩ := holds.load_eq_ok_iff.mp loaded
  exact ⟨f.get before, (ofLayer_eq_ok_iff holds.ordered sectional).mp layered f, f.get_override before⟩

theorem Field.Takes.unique {f : Field} {layer' : Fields} {a b : f.kind.Value}
    (takes : f.Takes layer a) (takes' : f.Takes layer' b) (same : f.given layer = f.given layer') :
    a = b := by
  unfold Takes at takes takes'
  rw [← same] at takes'
  cases there : f.given layer with
  | none =>
      rw [there] at takes takes'
      exact takes.trans takes'.symm
  | some v =>
      rw [there] at takes takes'
      exact Kind.write_inj.mp (takes.symm.trans takes')

theorem Field.replacement_congr {env' : Environment} (f : Field)
    (agree : ∀ name ∈ f.variableName, env name = env' name) :
    f.replacement env = f.replacement env' := by
  refine Option.ext fun a => ?_
  rw [replacement_eq_some_iff, replacement_eq_some_iff]
  refine exists_congr fun name => and_congr_right fun named => ?_
  rw [agree name named]

/-- A file that holds an object, each section of which is missing, `null` or an object, gives settings
whatever the environment, unless it gives a field a value that is not of the field's kind.  Each field
is then what its variable says; what the file gives, where the variable says nothing; and its default,
where the file gives nothing either.  Nothing else in the environment or in the file has a part in
it. -/
theorem each_setting_stands_alone (holds : file.Holds layer)
    (sectional : ∀ part : Section, Sectional (layer.get? part.name)) (env : Environment) :
    ((∃ s, load file env = .ok s) ↔
      ∀ (f : Field) v, f.given layer = some v → ∃ a, v = f.kind.write a) ∧
    ∀ s, load file env = .ok s → ∀ f : Field,
      (∀ a, f.SetTo env a → f.get s = a) ∧
      ((∀ a, ¬ f.SetTo env a) → f.Takes layer (f.get s)) ∧
      ∀ (file' : File) (layer' : Fields) (env' : Environment) s', file'.Holds layer' →
        (∀ part : Section, Sectional (layer'.get? part.name)) → load file' env' = .ok s' →
        (∀ name ∈ f.variableName, env name = env' name) → f.given layer = f.given layer' →
        f.get s = f.get s' := by
  refine ⟨load_exists_iff holds sectional, fun s loaded f => ?_⟩
  obtain ⟨a, takes, same⟩ := f.get_of_load holds sectional loaded
  refine ⟨fun b set => ?_, fun unset => ?_, ?_⟩
  · rw [same, f.replacement_eq_some_iff.mpr set, Option.getD_some]
  · have none : f.replacement env = none :=
      Option.eq_none_iff_forall_ne_some.mpr fun b set => unset b (f.replacement_eq_some_iff.mp set)
    rw [same, none, Option.getD_none]
    exact takes
  · intro file' layer' env' s' holds' sectional' loaded' agree given
    obtain ⟨a', takes', same'⟩ := f.get_of_load holds' sectional' loaded'
    rw [same, same', f.replacement_congr agree, takes.unique takes' given]

/-- A file that changes one field and leaves another one open. -/
private def sparse : File :=
  .content (Text.bytes
    "\x7b\"watchdog\": \x7b\"timeoutSecs\": 7, \"enabled\": null\x7d, \"logging\": null\x7d")

private def sparseFields : Fields :=
  [("logging", .null), ("watchdog", .object [("enabled", .null), ("timeoutSecs", .ofNat 7)])]

/-- No worker, and a number out of bounds. -/
private def noWorker : Environment := fun name =>
  if name = "HUB_WORKER_BASE_URL" then some ""
  else if name = "HUB_WATCHDOG_TIMEOUT_SECS" then some "86401"
  else none

theorem sources_come_in_order : ∃ s, load sparse noWorker = .ok s ∧
    s.scheduler.workerBaseUrl = "" ∧ s.watchdog.timeoutSecs = 7 ∧ s.watchdog.enabled = true := by
  have holds : sparse.Holds sparseFields := ⟨_, _, rfl, by rfl, by rfl⟩
  have sectional : ∀ part : Section, Sectional (sparseFields.get? part.name) := by
    intro part
    cases part <;> trivial
  obtain ⟨loads, each⟩ := each_setting_stands_alone holds sectional noWorker
  obtain ⟨s, loaded⟩ := loads.mpr fun f v there => by
    cases f with
    | timeoutSecs => exact ⟨(7 : UInt64), (Option.some.inj there).symm⟩
    | _ => exact nomatch (show none = some v from there)
  have unset : ∀ a, ¬ Field.SetTo .timeoutSecs noWorker a := by
    intro a set
    have none : Field.replacement .timeoutSecs noWorker = none := by rfl
    exact nomatch none.symm.trans ((Field.replacement_eq_some_iff .timeoutSecs).mpr set)
  refine ⟨s, loaded, ?_, ?_, ?_⟩
  · exact (each s loaded .workerBaseUrl).1 "" ⟨_, rfl, "", rfl, rfl⟩
  · have written : Json.ofNat 7 = Kind.write .word64 s.watchdog.timeoutSecs :=
      (each s loaded .timeoutSecs).2.1 unset
    exact (Kind.write_inj.mp (show Kind.write .word64 (7 : UInt64) = _ from written)).symm
  · exact (each s loaded .enabled).2.1 (fun a set => Field.not_setTo rfl set)

end Switchboard.Settings
