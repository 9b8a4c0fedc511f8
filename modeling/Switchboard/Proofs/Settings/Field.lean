import Switchboard.Proofs.Json.Layer
import Switchboard.Proofs.Json.Record
import Switchboard.Settings.Load

/-!
The settings one by one.

Each field has its section and its key, and a kind that says which JSON values suit it.  A file laid
over the defaults gives settings exactly if all fields that it gives suit their kinds; a field is then
what the file gives, and its default where the file gives nothing.
-/

namespace Switchboard.Settings

open Json

inductive Kind where
  | text
  /-- A text or none. -/
  | secret
  | word32
  | word64
  | size64
  | flag

namespace Kind

def Value : Kind → Type
  | text => String
  | secret => Option String
  | word32 => UInt32
  | word64 => UInt64
  | size64 => UInt64
  | flag => Bool

/-- A value as a file gives it. -/
def write : (kind : Kind) → kind.Value → Json
  | text, s => .string s
  | secret, none => .null
  | secret, some s => .string s
  | word32, n => .ofNat n.toNat
  | word64, n => .ofNat n.toNat
  | size64, n => .ofNat n.toNat
  | flag, b => .bool b

def decode : (kind : Kind) → Decoder kind.Value
  | text => .string
  | secret => .nullable .string
  | word32 => .unsigned32
  | word64 => .unsigned64
  | size64 => .size64
  | flag => .bool

end Kind

/-- A value is taken for what it was written from. -/
theorem Kind.decode_eq_ok_iff {kind : Kind} {v : Json} {a : kind.Value} :
    kind.decode v = .ok a ↔ v = kind.write a := by
  cases kind with
  | text => exact Decoder.string_eq_ok_iff
  | secret =>
      change Decoder.nullable .string v = .ok a ↔ _
      cases a with
      | none => cases v <;> simp [Decoder.nullable, map_eq_ok, write]
      | some s => cases v <;> simp [Decoder.nullable, map_eq_ok, Decoder.string_eq_ok_iff, write]
  | word32 =>
      exact Decoder.word_eq_ok_iff UInt32.toNat_lt (fun _ => UInt32.ofNat_toNat)
        fun n small => UInt32.toNat_ofNat_of_lt small
  | word64 =>
      exact Decoder.word_eq_ok_iff UInt64.toNat_lt (fun _ => UInt64.ofNat_toNat)
        fun n small => UInt64.toNat_ofNat_of_lt small
  | size64 =>
      exact Decoder.word_eq_ok_iff UInt64.toNat_lt (fun _ => UInt64.ofNat_toNat)
        fun n small => UInt64.toNat_ofNat_of_lt small
  | flag => exact Decoder.bool_eq_ok_iff

theorem Kind.write_inj {kind : Kind} {a b : kind.Value} : kind.write a = kind.write b ↔ a = b := by
  refine ⟨fun same => ?_, congrArg kind.write⟩
  have back := kind.decode_eq_ok_iff.mpr same
  exact (Except.ok.inj (back.symm.trans (kind.decode_eq_ok_iff.mpr rfl))).symm

inductive Section where
  | database
  | scheduler
  | watchdog
  | eventBus
  | logging

namespace Section

def name : Section → String
  | database => "database"
  | scheduler => "scheduler"
  | watchdog => "watchdog"
  | eventBus => "eventBus"
  | logging => "logging"

/-- The fields of a section in the defaults. -/
def usual : Section → Fields
  | database => .ofList (DatabaseSettings.fields {})
  | scheduler => .ofList (SchedulerSettings.fields {})
  | watchdog => .ofList (WatchdogSettings.fields {})
  | eventBus => .ofList (EventBusSettings.fields {})
  | logging => .ofList (LoggingSettings.fields {})

end Section

inductive Field where
  | path
  | poolSize
  | busyTimeoutMs
  | maxConcurrentExecutions
  | workerBaseUrl
  | runtimeSharedSecret
  | dispatchTimeoutMs
  | enabled
  | timeoutSecs
  | intervalSecs
  | ringCapacity
  | subscriberQueue
  | level
  | json

namespace Field

def home : Field → Section
  | path | poolSize | busyTimeoutMs => .database
  | maxConcurrentExecutions | workerBaseUrl | runtimeSharedSecret | dispatchTimeoutMs => .scheduler
  | enabled | timeoutSecs | intervalSecs => .watchdog
  | ringCapacity | subscriberQueue => .eventBus
  | level | json => .logging

def key : Field → String
  | path => "path"
  | poolSize => "poolSize"
  | busyTimeoutMs => "busyTimeoutMs"
  | maxConcurrentExecutions => "maxConcurrentExecutions"
  | workerBaseUrl => "workerBaseUrl"
  | runtimeSharedSecret => "runtimeSharedSecret"
  | dispatchTimeoutMs => "dispatchTimeoutMs"
  | enabled => "enabled"
  | timeoutSecs => "timeoutSecs"
  | intervalSecs => "intervalSecs"
  | ringCapacity => "ringCapacity"
  | subscriberQueue => "subscriberQueue"
  | level => "level"
  | json => "json"

def kind : Field → Kind
  | path | workerBaseUrl | level => .text
  | runtimeSharedSecret => .secret
  | poolSize | busyTimeoutMs => .word32
  | dispatchTimeoutMs | timeoutSecs | intervalSecs => .word64
  | maxConcurrentExecutions | ringCapacity | subscriberQueue => .size64
  | enabled | json => .flag

def get : (f : Field) → Settings → f.kind.Value
  | path, s => s.database.path
  | poolSize, s => s.database.poolSize
  | busyTimeoutMs, s => s.database.busyTimeoutMs
  | maxConcurrentExecutions, s => s.scheduler.maxConcurrentExecutions
  | workerBaseUrl, s => s.scheduler.workerBaseUrl
  | runtimeSharedSecret, s => s.scheduler.runtimeSharedSecret
  | dispatchTimeoutMs, s => s.scheduler.dispatchTimeoutMs
  | enabled, s => s.watchdog.enabled
  | timeoutSecs, s => s.watchdog.timeoutSecs
  | intervalSecs, s => s.watchdog.intervalSecs
  | ringCapacity, s => s.eventBus.ringCapacity
  | subscriberQueue, s => s.eventBus.subscriberQueue
  | level, s => s.logging.level
  | json, s => s.logging.json

/-- The default of a field. -/
def usual (f : Field) : f.kind.Value := f.get {}

/-- What a file gives for a field, if it is there and not `null`. -/
def given (f : Field) (layer : Fields) : Option Json :=
  Json.given (Fields.get? (inner (layer.get? f.home.name)) f.key)

/-- Whether a field has the value that a file gives, or else its default. -/
def Takes (f : Field) (layer : Fields) (a : f.kind.Value) : Prop :=
  match f.given layer with
  | some v => v = f.kind.write a
  | none => a = f.usual

/-- Settings of given values. -/
def collect (values : (f : Field) → f.kind.Value) : Settings :=
  { database :=
      { path := values path, poolSize := values poolSize, busyTimeoutMs := values busyTimeoutMs }
    scheduler :=
      { maxConcurrentExecutions := values maxConcurrentExecutions
        workerBaseUrl := values workerBaseUrl
        runtimeSharedSecret := values runtimeSharedSecret
        dispatchTimeoutMs := values dispatchTimeoutMs }
    watchdog :=
      { enabled := values enabled, timeoutSecs := values timeoutSecs
        intervalSecs := values intervalSecs }
    eventBus :=
      { ringCapacity := values ringCapacity, subscriberQueue := values subscriberQueue }
    logging := { level := values level, json := values json } }

@[simp] theorem get_collect (values : (f : Field) → f.kind.Value) (f : Field) :
    f.get (collect values) = values f := by
  cases f <;> rfl

theorem get?_usual (f : Field) :
    Fields.get? f.home.usual f.key = Json.given (some (f.kind.write f.usual)) := by
  cases f <;> rfl

theorem plain_write {kind : Kind} (a : kind.Value) : (kind.write a).Plain := by
  intro fields same
  cases kind with
  | secret => cases a <;> nomatch same
  | _ => nomatch same

/-- Only the missing secret is written as nothing. -/
theorem eq_usual_of_isNull {f : Field} {a : f.kind.Value} (nothing : (f.kind.write a).isNull) :
    a = f.usual := by
  cases f with
  | runtimeSharedSecret =>
      cases a with
      | none => rfl
      | some secret => nomatch nothing
  | _ => nomatch nothing

/-- Whether a field has the value that is given for it, or its default if there is none. -/
def Follows (f : Field) (o : Option Json) (a : f.kind.Value) : Prop :=
  match Json.given o with
  | some v => v = f.kind.write a
  | none => a = f.usual

theorem plain_usual (f : Field) : ∀ v ∈ Json.given (some (f.kind.write f.usual)), v.Plain := by
  intro v there
  obtain rfl : f.kind.write f.usual = v := Option.some.inj (Option.filter_eq_some_iff.mp there).1
  exact plain_write f.usual

variable {layer : Fields} {o : Option Json}

/-- Over its default a field is what is given for it. -/
theorem taken_layered_eq_ok_iff (f : Field) {a : f.kind.Value} :
    Shape.taken f.kind.decode f.usual (layered (Fields.get? f.home.usual f.key) o) = .ok a ↔
      f.Follows o a := by
  rw [get?_usual, layered_of_plain f.plain_usual, Follows]
  cases Json.given o with
  | some v => exact f.kind.decode_eq_ok_iff
  | none =>
      -- Among the defaults stands what the default is written as; no secret is not written at all.
      have usual : Shape.taken f.kind.decode f.usual (Json.given (some (f.kind.write f.usual))) =
          .ok f.usual := by
        by_cases nothing : (f.kind.write f.usual).isNull
        · rw [given_of_isNull nothing]
          rfl
        · rw [given_some (Bool.eq_false_iff.mpr nothing)]
          exact f.kind.decode_eq_ok_iff.mpr rfl
      rw [Option.none_or, usual, Except.ok.injEq, eq_comm]

theorem taken_eq_ok_iff (f : Field) (ascending : (inner (layer.get? f.home.name)).Ascending)
    {a : f.kind.Value} :
    Shape.taken f.kind.decode f.usual (Fields.get?
      (mergeFields f.home.usual (inner (layer.get? f.home.name))) f.key) = .ok a ↔
      f.Takes layer a := by
  rw [get?_mergeFields ascending]
  exact f.taken_layered_eq_ok_iff

end Field

end Switchboard.Settings
