import Switchboard.Proofs.Settings.Field

/-!
Settings from the environment.

Nine fields have a variable.  A variable counts if it is set to a text that says a value of its field's
kind and range; any other text is passed over, and no variable has a part in another field.
-/

namespace Switchboard

namespace Text

/-- A text that is a number in decimal digits, with or without a plus sign. -/
def Numeral (text : String) (n : Nat) : Prop :=
  ∃ ds, (text.toList = ds ∨ text.toList = '+' :: ds) ∧ ds ≠ [] ∧ (∀ d ∈ ds, isDigit d) ∧
    natOfDigits ds = n

/-- What follows a plus sign, if there is one. -/
def unsigned : List Char → List Char
  | '+' :: rest => rest
  | cs => cs

theorem unsigned_cases (cs : List Char) : cs = unsigned cs ∨ cs = '+' :: unsigned cs := by
  unfold unsigned
  split
  · exact .inr rfl
  · exact .inl rfl

theorem unsigned_eq {cs ds : List Char} (digits : ∀ d ∈ ds, isDigit d)
    (written : cs = ds ∨ cs = '+' :: ds) : unsigned cs = ds := by
  rcases written with rfl | rfl
  · unfold unsigned
    split
    · -- The plus sign would be one of the digits.
      exact absurd (digits '+' List.mem_cons_self) (by decide)
    · rfl
  · rfl

theorem natBelow?_eq (bound : Nat) (text : String) : natBelow? bound text =
    let ds := unsigned text.toList
    if (ds.isEmpty || !ds.all isDigit) = true then none
    else if natOfDigits ds < bound then some (natOfDigits ds) else none := rfl

theorem natBelow?_eq_some_iff {bound n : Nat} {text : String} :
    natBelow? bound text = some n ↔ Numeral text n ∧ n < bound := by
  rw [natBelow?_eq]
  simp only [Option.ite_none_left_eq_some, Option.ite_none_right_eq_some, Option.some.injEq,
    Bool.or_eq_true, List.isEmpty_iff, Bool.not_eq_true', not_or, Bool.not_eq_false,
    List.all_eq_true]
  constructor
  · rintro ⟨⟨some_, digits⟩, below, rfl⟩
    exact ⟨⟨_, unsigned_cases _, some_, digits, rfl⟩, below⟩
  · rintro ⟨⟨ds, written, some_, digits, rfl⟩, below⟩
    rw [unsigned_eq digits written]
    exact ⟨⟨some_, digits⟩, below, rfl⟩

end Text

namespace Environment

variable {env : Environment} {name text : String}

theorem string_eq_some_iff {a : String} :
    env.string name = some a ↔ ∃ text, env name = some text ∧ text ≠ "" ∧ text = a := by
  simp only [string, Option.filter_eq_some_iff, decide_eq_true_eq]
  constructor
  · rintro ⟨there, some_⟩
    exact ⟨a, there, some_, rfl⟩
  · rintro ⟨_, there, some_, rfl⟩
    exact ⟨there, some_⟩

theorem readNat_eq_some_iff {low high n : Nat} (fits : high < Nat.pow 2 64) :
    readNat text low high = some n ↔ Text.Numeral text n ∧ low ≤ n ∧ n ≤ high := by
  simp only [readNat, Option.filter_eq_some_iff, Text.natBelow?_eq_some_iff, Bool.and_eq_true,
    decide_eq_true_eq]
  constructor
  · rintro ⟨⟨numeral, -⟩, within⟩
    exact ⟨numeral, within⟩
  · rintro ⟨numeral, within⟩
    exact ⟨⟨numeral, Nat.lt_of_le_of_lt within.2 fits⟩, within⟩

theorem word_eq_some_iff {low high : Nat} {a : UInt64} (fits : high < Nat.pow 2 64) :
    env.word name low high = some a ↔
      ∃ text, env name = some text ∧ Text.Numeral text a.toNat ∧ low ≤ a.toNat ∧ a.toNat ≤ high := by
  simp only [word, Option.bind_eq_some_iff, Option.map_eq_some_iff, readNat_eq_some_iff fits]
  constructor
  · rintro ⟨text, there, n, reads, rfl⟩
    have small : n < 2 ^ 64 := Nat.lt_of_le_of_lt reads.2.2 fits
    rw [UInt64.toNat_ofNat_of_lt' small]
    exact ⟨text, there, reads⟩
  · rintro ⟨text, there, reads⟩
    exact ⟨text, there, a.toNat, reads, UInt64.ofNat_toNat⟩

theorem mem_of_lookup {α β : Type} [BEq α] [LawfulBEq α] {entries : List (α × β)} {a : α} {b : β}
    (found : entries.lookup a = some b) : (a, b) ∈ entries := by
  obtain ⟨before, after, rfl, -⟩ := List.lookup_eq_some_iff.mp found
  simp

theorem readBool_eq_some_iff {b : Bool} :
    readBool text = some b ↔ (Text.lowered text, b) ∈ boolWords := by
  unfold readBool
  constructor
  · exact mem_of_lookup
  · intro member
    generalize Text.lowered text = word at member
    simp only [boolWords, List.mem_cons, Prod.mk.injEq, List.not_mem_nil, or_false] at member
    rcases member with h | h | h | h | h | h | h | h <;> (obtain ⟨rfl, rfl⟩ := h; rfl)

theorem bool_eq_some_iff {b : Bool} : env.bool name = some b ↔
    ∃ text, env name = some text ∧ (Text.lowered text, b) ∈ boolWords := by
  simp only [bool, Option.bind_eq_some_iff, readBool_eq_some_iff]

end Environment

namespace Settings.Field

/-- The variable of a field, if it has one. -/
def variableName : Field → Option String
  | path => some "HUB_DB_PATH"
  | maxConcurrentExecutions => some "HUB_MAX_CONCURRENT_EXECUTIONS"
  | workerBaseUrl => some "HUB_WORKER_BASE_URL"
  | runtimeSharedSecret => some "HUB_RUNTIME_SHARED_SECRET"
  | dispatchTimeoutMs => some "HUB_DISPATCH_TIMEOUT_MS"
  | timeoutSecs => some "HUB_WATCHDOG_TIMEOUT_SECS"
  | intervalSecs => some "HUB_WATCHDOG_INTERVAL_SECS"
  | level => some "HUB_LOG_LEVEL"
  | json => some "HUB_LOG_JSON"
  | poolSize | busyTimeoutMs | enabled | ringCapacity | subscriberQueue => none

/-- Whether a text is a number within some bounds. -/
def Within (low high : Nat) (text : String) (a : UInt64) : Prop :=
  Text.Numeral text a.toNat ∧ low ≤ a.toNat ∧ a.toNat ≤ high

/-- Whether a text in a field's variable says a value.  An empty text says something only as the
address of the worker. -/
def Says : (f : Field) → String → f.kind.Value → Prop
  | path, text, a => text ≠ "" ∧ text = a
  | workerBaseUrl, text, a => text = a
  | level, text, a => text ≠ "" ∧ text = a
  | runtimeSharedSecret, text, a => text ≠ "" ∧ some text = a
  | maxConcurrentExecutions, text, a => Within 0 100000 text a
  | dispatchTimeoutMs, text, a => Within 100 600000 text a
  | timeoutSecs, text, a => Within 1 86400 text a
  | intervalSecs, text, a => Within 1 3600 text a
  | json, text, a => (Text.lowered text, a) ∈ Environment.boolWords
  | poolSize, _, _ | busyTimeoutMs, _, _ | enabled, _, _ | ringCapacity, _, _
  | subscriberQueue, _, _ => False

/-- Whether the environment sets a field to a value. -/
def SetTo (f : Field) (env : Environment) (a : f.kind.Value) : Prop :=
  ∃ name, f.variableName = some name ∧ ∃ text, env name = some text ∧ f.Says text a

/-- What the environment puts in the place of a field. -/
def replacement : (f : Field) → Environment → Option f.kind.Value
  | path, env => env.string "HUB_DB_PATH"
  | workerBaseUrl, env => env "HUB_WORKER_BASE_URL"
  | level, env => env.string "HUB_LOG_LEVEL"
  | runtimeSharedSecret, env => (env.string "HUB_RUNTIME_SHARED_SECRET").map some
  | maxConcurrentExecutions, env => env.word "HUB_MAX_CONCURRENT_EXECUTIONS" 0 100000
  | dispatchTimeoutMs, env => env.word "HUB_DISPATCH_TIMEOUT_MS" 100 600000
  | timeoutSecs, env => env.word "HUB_WATCHDOG_TIMEOUT_SECS" 1 86400
  | intervalSecs, env => env.word "HUB_WATCHDOG_INTERVAL_SECS" 1 3600
  | json, env => env.bool "HUB_LOG_JSON"
  | poolSize, _ | busyTimeoutMs, _ | enabled, _ | ringCapacity, _ | subscriberQueue, _ => none

variable {env : Environment}

theorem get_override (f : Field) (s : Settings) :
    f.get (override env s) = (f.replacement env).getD (f.get s) := by
  cases f with
  | runtimeSharedSecret =>
      change (env.string _ <|> s.scheduler.runtimeSharedSecret) =
        ((env.string _).map some).getD s.scheduler.runtimeSharedSecret
      cases env.string "HUB_RUNTIME_SHARED_SECRET" <;> rfl
  | _ => rfl

theorem setTo_iff {f : Field} {a : f.kind.Value} {name : String}
    (named : f.variableName = some name) :
    f.SetTo env a ↔ ∃ text, env name = some text ∧ f.Says text a := by
  simp [SetTo, named]

theorem not_setTo {f : Field} {a : f.kind.Value} (unnamed : f.variableName = none) :
    ¬ f.SetTo env a := by
  simp [SetTo, unnamed]

theorem replacement_eq_some_iff (f : Field) {a : f.kind.Value} :
    f.replacement env = some a ↔ f.SetTo env a := by
  cases f with
  | path =>
      rw [setTo_iff rfl]
      exact Environment.string_eq_some_iff
  | level =>
      rw [setTo_iff rfl]
      exact Environment.string_eq_some_iff
  | workerBaseUrl =>
      rw [setTo_iff rfl]
      exact ⟨fun there => ⟨a, there, rfl⟩, fun ⟨_, there, same⟩ => same ▸ there⟩
  | runtimeSharedSecret =>
      rw [setTo_iff rfl]
      refine Option.map_eq_some_iff.trans ⟨?_, ?_⟩
      · rintro ⟨secret, set, rfl⟩
        obtain ⟨text, there, some_, rfl⟩ := Environment.string_eq_some_iff.mp set
        exact ⟨text, there, some_, rfl⟩
      · rintro ⟨text, there, some_, rfl⟩
        exact ⟨text, Environment.string_eq_some_iff.mpr ⟨text, there, some_, rfl⟩, rfl⟩
  | maxConcurrentExecutions | dispatchTimeoutMs | timeoutSecs | intervalSecs =>
      rw [setTo_iff rfl]
      exact Environment.word_eq_some_iff (by decide)
  | json =>
      rw [setTo_iff rfl]
      exact Environment.bool_eq_some_iff
  | poolSize | busyTimeoutMs | enabled | ringCapacity | subscriberQueue =>
      exact iff_of_false nofun (not_setTo rfl)

theorem replacement_eq_none_iff (f : Field) : f.replacement env = none ↔ ∀ a, ¬ f.SetTo env a := by
  rw [Option.eq_none_iff_forall_ne_some]
  exact forall_congr' fun a => not_congr f.replacement_eq_some_iff

end Settings.Field

end Switchboard
