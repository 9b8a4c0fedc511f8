import Switchboard.Proofs.Settings.Supplied
import Switchboard.Proofs.Settings.Variable
import Switchboard.Proofs.Text.Bytes

/-!
Bounds of settings.

Four numbers have bounds, which their variables keep to.  A number out of bounds in a file is not looked
at in the same way: it becomes the setting, unless a variable takes its place.
-/

namespace Switchboard.Settings

open Json

/-- A setting with bounds. -/
inductive Limit where
  | executions
  | dispatch
  | silence
  | cadence

namespace Limit

def field : Limit → Field
  | executions => .maxConcurrentExecutions
  | dispatch => .dispatchTimeoutMs
  | silence => .timeoutSecs
  | cadence => .intervalSecs

def low : Limit → Nat
  | executions => 0
  | dispatch => 100
  | silence | cadence => 1

def high : Limit → Nat
  | executions => 100000
  | dispatch => 600000
  | silence => 86400
  | cadence => 3600

def value : Limit → Settings → Nat
  | executions, s => s.scheduler.maxConcurrentExecutions.toNat
  | dispatch, s => s.scheduler.dispatchTimeoutMs.toNat
  | silence, s => s.watchdog.timeoutSecs.toNat
  | cadence, s => s.watchdog.intervalSecs.toNat

def Within (limit : Limit) (n : Nat) : Prop := limit.low ≤ n ∧ n ≤ limit.high

instance (limit : Limit) (n : Nat) : Decidable (limit.Within n) :=
  inferInstanceAs (Decidable (_ ∧ _))

variable {limit : Limit} {o : Option Json} {n : Nat} {s s' : Settings} {env : Environment}

theorem write_get (limit : Limit) (s : Settings) :
    limit.field.kind.write (limit.field.get s) = .ofNat (limit.value s) := by
  cases limit <;> rfl

theorem value_congr (same : limit.field.get s = limit.field.get s') :
    limit.value s = limit.value s' := by
  cases limit <;> exact congrArg UInt64.toNat same

theorem within_of_setTo (set : limit.field.SetTo env (limit.field.get s)) :
    limit.Within (limit.value s) := by
  obtain ⟨name, named, text, there, within⟩ := set
  cases limit <;> exact within.2

theorem within_of_usual (usual : limit.field.get s = limit.field.usual) :
    limit.Within (limit.value s) := by
  have same : limit.value s = limit.value {} := value_congr usual
  rw [same]
  cases limit <;> decide

/-- A number that stands for a limit becomes its value as it is, and a default is within the bounds. -/
theorem within_iff_of_follows (follows : limit.field.Follows o (limit.field.get s)) :
    limit.Within (limit.value s) ↔ ∀ n, o = some (.ofNat n) → limit.Within n := by
  unfold Field.Follows at follows
  cases there : Json.given o with
  | none =>
      rw [there] at follows
      refine iff_of_true (within_of_usual follows) ?_
      rintro n rfl
      contradiction
  | some v =>
      rw [there] at follows
      have written : v = .ofNat (limit.value s) := follows.trans (limit.write_get s)
      obtain rfl : o = some v := (Option.filter_eq_some_iff.mp there).1
      constructor
      · intro within n same
        rw [ofNat_inj ((Option.some.inj same).symm.trans written)]
        exact within
      · intro each
        exact each _ (congrArg some written)

end Limit

variable {file : File} {env : Environment} {s : Settings}

/-- A limit of settings that were loaded is within its bounds if its variable sets it, and otherwise if
no number out of bounds stands for it in the file. -/
theorem limits_are_up_to_the_file (loaded : load file env = .ok s) (limit : Limit) :
    limit.Within (limit.value s) ↔
      (∃ a, limit.field.SetTo env a) ∨ ∀ layer n, file.Contains layer →
        limit.field.supplied layer = some (.ofNat n) → limit.Within n := by
  obtain ⟨before, made, rfl⟩ := map_eq_ok.mp loaded
  have overridden : limit.field.get (override env before) =
      (limit.field.replacement env).getD (limit.field.get before) :=
    limit.field.get_override before
  by_cases set : ∃ a, limit.field.SetTo env a
  · refine iff_of_true ?_ (.inl set)
    obtain ⟨a, set⟩ := set
    rw [limit.field.replacement_eq_some_iff.mpr set, Option.getD_some] at overridden
    exact Limit.within_of_setTo (overridden ▸ set)
  · have unset : limit.field.replacement env = none :=
      limit.field.replacement_eq_none_iff.mpr (not_exists.mp set)
    rw [unset, Option.getD_none] at overridden
    rw [Limit.value_congr overridden, or_iff_right set]
    obtain ⟨layer, contains, follows⟩ | ⟨missing, usual⟩ := follows_of_ofFile made
    · rw [Limit.within_iff_of_follows (follows limit.field)]
      constructor
      · intro each layer' n contains' there
        obtain rfl := contains.unique contains'
        exact each n there
      · exact fun each n there => each layer n contains there
    · refine iff_of_true (Limit.within_of_usual (usual limit.field)) ?_
      exact fun layer n contains => absurd contains (missing layer)

/-- Two numbers out of bounds. -/
private def restlessFields : Fields :=
  [("watchdog", .object [("intervalSecs", .ofNat 0), ("timeoutSecs", .ofNat 0)])]

private def restless : File :=
  .content (Text.bytes
    "\x7b\"watchdog\": \x7b\"timeoutSecs\": 0, \"intervalSecs\": 0\x7d\x7d")

private def hurried : Environment := fun name =>
  if name = "HUB_WATCHDOG_INTERVAL_SECS" then some "5" else none

theorem variable_mends_one_of_two : ∃ s, load restless hurried = .ok s ∧
    Limit.cadence.Within s.watchdog.intervalSecs.toNat ∧
    ¬ Limit.silence.Within s.watchdog.timeoutSecs.toNat := by
  have holds : restless.Holds restlessFields := ⟨_, _, rfl, by rfl, by rfl⟩
  have made : ofLayer (.object restlessFields) =
      .ok { watchdog := { timeoutSecs := 0, intervalSecs := 0 } } := by rfl
  have loaded : load restless hurried =
      .ok (override hurried { watchdog := { timeoutSecs := 0, intervalSecs := 0 } }) :=
    holds.load_eq_ok_iff.mpr ⟨_, made, rfl⟩
  have five : Text.Numeral "5" 5 :=
    ⟨['5'], .inl rfl, List.cons_ne_nil _ _, List.forall_mem_singleton.mpr rfl, rfl⟩
  have set : Field.SetTo .intervalSecs hurried (5 : UInt64) :=
    ⟨_, rfl, "5", rfl, five, by decide, by decide⟩
  have unset : ∀ a, ¬ Field.SetTo .timeoutSecs hurried a :=
    (Field.replacement_eq_none_iff .timeoutSecs).mp (by rfl)
  refine ⟨_, loaded, (limits_are_up_to_the_file loaded .cadence).mpr (.inl ⟨_, set⟩), ?_⟩
  intro within
  obtain ⟨a, set⟩ | each := (limits_are_up_to_the_file loaded .silence).mp within
  · exact unset a set
  · exact absurd (each _ 0 holds rfl) (by decide)

/-- An interval of nothing. -/
private def idleFields : Fields := [("watchdog", .object [("intervalSecs", .ofNat 0)])]

private def idle : File :=
  .content (Text.bytes "\x7b\"watchdog\": \x7b\"intervalSecs\": 0\x7d\x7d")

theorem loaded_limits_may_be_out_of_bounds :
    ¬ ∀ (file : File) (env : Environment) (s : Settings), load file env = .ok s →
      ∀ limit : Limit, limit.Within (limit.value s) := by
  intro all
  have holds : idle.Holds idleFields := ⟨_, _, rfl, by rfl, by rfl⟩
  have made : ofLayer (.object idleFields) = .ok { watchdog := { intervalSecs := 0 } } := by rfl
  have loaded : load idle (fun _ => none) = .ok { watchdog := { intervalSecs := 0 } } :=
    holds.load_eq_ok_iff.mpr ⟨_, made, rfl⟩
  exact absurd (all _ _ _ loaded .cadence) (by decide)

end Switchboard.Settings
