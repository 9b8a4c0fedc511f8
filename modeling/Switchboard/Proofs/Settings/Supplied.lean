import Switchboard.Proofs.Json.Place
import Switchboard.Proofs.Settings.File

/-!
What a file supplies, in whatever form.

A file may give settings by keys or by positions, and each of their sections as well.  Over all these
forms, settings that were made of a file have the values that the file supplies, and defaults for the
rest.
-/

namespace Switchboard.Settings

open Json Json.Shape Switchboard.Settings.Field

/-- The place of a section in an array. -/
def Section.index : Section → Nat
  | database => 0
  | scheduler => 1
  | watchdog => 2
  | eventBus => 3
  | logging => 4

/-- The place of a field in its section, if that is an array. -/
def Field.index : Field → Nat
  | path | maxConcurrentExecutions | enabled | ringCapacity | level => 0
  | poolSize | workerBaseUrl | timeoutSecs | subscriberQueue | json => 1
  | busyTimeoutMs | runtimeSharedSecret | intervalSecs => 2
  | dispatchTimeoutMs => 3

/-- What stands for a field in its section. -/
def Field.within (f : Field) (part : Option Json) : Option Json :=
  part.bind (·.at? f.key f.index)

/-- What stands for a field in a file. -/
def Field.supplied (f : Field) (layer : Json) : Option Json :=
  f.within (layer.at? f.home.name f.home.index)

variable {f : Field} {o part : Option Json} {layer v : Json} {fields : Fields} {s : Settings}

theorem made_database (done : taken DatabaseSettings.decode {} part = .ok s.database) :
    Made .path (within .path part) s ∧ Made .poolSize (within .poolSize part) s ∧
      Made .busyTimeoutMs (within .busyTimeoutMs part) s := by
  obtain ⟨look, built, placed⟩ := build_of_taken (by decide) rfl done
  rw [build_database, placed 0 _ rfl, placed 1 _ rfl, placed 2 _ rfl] at built
  exact built

theorem made_scheduler (done : taken SchedulerSettings.decode {} part = .ok s.scheduler) :
    Made .maxConcurrentExecutions (within .maxConcurrentExecutions part) s ∧
      Made .workerBaseUrl (within .workerBaseUrl part) s ∧
      Made .runtimeSharedSecret (within .runtimeSharedSecret part) s ∧
      Made .dispatchTimeoutMs (within .dispatchTimeoutMs part) s := by
  obtain ⟨look, built, placed⟩ := build_of_taken (by decide) rfl done
  rw [build_scheduler, placed 0 _ rfl, placed 1 _ rfl, placed 2 _ rfl, placed 3 _ rfl] at built
  exact built

theorem made_watchdog (done : taken WatchdogSettings.decode {} part = .ok s.watchdog) :
    Made .enabled (within .enabled part) s ∧ Made .timeoutSecs (within .timeoutSecs part) s ∧
      Made .intervalSecs (within .intervalSecs part) s := by
  obtain ⟨look, built, placed⟩ := build_of_taken (by decide) rfl done
  rw [build_watchdog, placed 0 _ rfl, placed 1 _ rfl, placed 2 _ rfl] at built
  exact built

theorem made_eventBus (done : taken EventBusSettings.decode {} part = .ok s.eventBus) :
    Made .ringCapacity (within .ringCapacity part) s ∧
      Made .subscriberQueue (within .subscriberQueue part) s := by
  obtain ⟨look, built, placed⟩ := build_of_taken (by decide) rfl done
  rw [build_eventBus, placed 0 _ rfl, placed 1 _ rfl] at built
  exact built

theorem made_logging (done : taken LoggingSettings.decode {} part = .ok s.logging) :
    Made .level (within .level part) s ∧ Made .json (within .json part) s := by
  obtain ⟨look, built, placed⟩ := build_of_taken (by decide) rfl done
  rw [build_logging, placed 0 _ rfl, placed 1 _ rfl] at built
  exact built

/-- Every setting is made of what stands in its place. -/
theorem made_of_decode (done : decode v = .ok s) (f : Field) : f.Made (f.supplied v) s := by
  obtain ⟨look, built, placed⟩ := build_of_decoder (by decide) done
  rw [build_settings, placed 0 _ rfl, placed 1 _ rfl, placed 2 _ rfl, placed 3 _ rfl,
    placed 4 _ rfl] at built
  obtain ⟨database, scheduler, watchdog, eventBus, logging⟩ := built
  revert f
  rw [Field.forall_iff]
  exact ⟨made_database database, made_scheduler scheduler, made_watchdog watchdog,
    made_eventBus eventBus, made_logging logging⟩

namespace Field

theorem Made.follows (made : f.Made o s) : f.Follows o (f.get s) := by
  unfold Follows
  cases o with
  | none => exact (Except.ok.inj made).symm
  | some v =>
      have written : v = f.kind.write (f.get s) := f.kind.decode_eq_ok_iff.mp made
      by_cases nothing : v.isNull
      · rw [given_of_isNull nothing]
        exact eq_usual_of_isNull (written ▸ nothing)
      · rw [given_some (Bool.eq_false_iff.mpr nothing)]
        exact written

theorem follows_section (ordered : (Json.object fields).Ordered)
    (made : f.Made (f.within (layered (some (.object f.home.usual)) (fields.get? f.home.name))) s) :
    f.Follows (f.within (fields.get? f.home.name)) (f.get s) := by
  have usual : f.Made (Fields.get? f.home.usual f.key) s → f.Follows none (f.get s) :=
    fun made => f.taken_layered_eq_ok_iff.mp made
  cases there : fields.get? f.home.name with
  | none =>
      rw [there] at made
      exact usual made
  | some v =>
      rw [there] at made
      cases v with
      | null => exact usual made
      | object inside =>
          have ascending : Fields.Ascending inside := by
            have ascending := ascending_inner ordered f.home.name
            rw [there] at ascending
            exact ascending
          have merged : f.Made (Fields.get? (mergeFields f.home.usual inside) f.key) s := made
          rw [get?_mergeFields ascending] at merged
          exact f.taken_layered_eq_ok_iff.mp merged
      | _ => exact Made.follows made

end Field

/-- Settings made of a layer over the defaults have the values that the layer supplies. -/
theorem follows_of_ofLayer (ordered : layer.Ordered) (done : ofLayer layer = .ok s) (f : Field) :
    f.Follows (f.supplied layer) (f.get s) := by
  have made := made_of_decode done f
  cases layer with
  | object fields =>
      refine Field.follows_section ordered ?_
      have there : f.supplied (.object (mergeFields usualFields fields)) =
          f.within (layered (some (.object f.home.usual)) (Fields.get? fields f.home.name)) := by
        rw [← get?_usualFields, ← get?_mergeFields ordered.1]
        rfl
      exact there ▸ made
  | _ => exact made.follows

/-- A file that holds some value, in JSON and in UTF-8. -/
def File.Contains (file : File) (layer : Json) : Prop :=
  ∃ bytes cs, file = .content bytes ∧ Text.Utf8.decode? bytes = some cs ∧
    Json.read (String.ofList cs) = .ok layer

variable {file : File} {layer' : Json}

theorem File.Contains.unique (contains : file.Contains layer) (contains' : file.Contains layer') :
    layer = layer' := by
  obtain ⟨bytes, cs, rfl, decoded, read⟩ := contains
  obtain ⟨bytes', cs', ⟨⟩, decoded', read'⟩ := contains'
  obtain rfl := Option.some.inj (decoded.symm.trans decoded')
  exact Except.ok.inj (read.symm.trans read')

/-- Settings come of a file's value, or there is no file and each is its default. -/
theorem follows_of_ofFile (done : ofFile file = .ok s) :
    (∃ layer, file.Contains layer ∧ ∀ f : Field, f.Follows (f.supplied layer) (f.get s)) ∨
      (∀ layer, ¬ file.Contains layer) ∧ ∀ f : Field, f.Follows none (f.get s) := by
  cases file with
  | absent =>
      -- Without a file the defaults stand as under a file with nothing in it.
      have empty : ofLayer (.object []) = .ok s := by
        rw [ofFile, mapError_eq_ok] at done
        exact done
      have ordered : (Json.object []).Ordered := ⟨trivial, trivial⟩
      refine .inr ⟨?_, follows_of_ofLayer ordered empty⟩
      rintro layer ⟨_, _, ⟨⟩, _⟩
  | directory => contradiction
  | content bytes =>
      rw [ofFile] at done
      split at done
      · rename_i cs decoded
        simp only [ofText, bind_eq_ok, mapError_eq_ok] at done
        obtain ⟨layer, read, done⟩ := done
        exact .inl ⟨layer, ⟨bytes, cs, rfl, decoded, read⟩,
          follows_of_ofLayer (ordered_of_read read) done⟩
      · contradiction

end Switchboard.Settings
