import Switchboard.Json.Merge
import Switchboard.Json.Reader
import Switchboard.Settings.Basic
import Switchboard.Text.Case
import Switchboard.Text.Path
import Switchboard.Text.Utf8

/-!
Where settings come from: a file laid over the defaults, and the environment over both.

A variable that is missing or holds no value of its kind and range is passed over; a file that does
not fit is an error.
-/

namespace Switchboard

/-- The environment: the value of each variable that is set. -/
abbrev Environment := String → Option String

namespace Environment

def boolWords : List (String × Bool) :=
  [("true", true), ("1", true), ("yes", true), ("on", true),
    ("false", false), ("0", false), ("no", false), ("off", false)]

/-- A yes or no in one of its spellings; upper and lower case are the same. -/
def readBool (text : String) : Option Bool :=
  boolWords.lookup (Text.lowered text)

def readNat (text : String) (low high : Nat) : Option Nat :=
  (Text.natBelow? (Nat.pow 2 64) text).filter fun n => low ≤ n && n ≤ high

/-- The value of a variable that is set to more than nothing. -/
def string (env : Environment) (name : String) : Option String :=
  (env name).filter (· ≠ "")

def bool (env : Environment) (name : String) : Option Bool := (env name).bind readBool

def word (env : Environment) (name : String) (low high : Nat) : Option UInt64 :=
  (env name).bind fun text => (readNat text low high).map UInt64.ofNat

end Environment

namespace Settings

/-- The variables over the settings.  An empty address of the worker counts: it means that there is
no worker. -/
def override (env : Environment) (s : Settings) : Settings :=
  { s with
    database := { s.database with path := (env.string "HUB_DB_PATH").getD s.database.path }
    scheduler :=
      { workerBaseUrl := (env "HUB_WORKER_BASE_URL").getD s.scheduler.workerBaseUrl
        runtimeSharedSecret :=
          env.string "HUB_RUNTIME_SHARED_SECRET" <|> s.scheduler.runtimeSharedSecret
        maxConcurrentExecutions :=
          (env.word "HUB_MAX_CONCURRENT_EXECUTIONS" 0 100000).getD
            s.scheduler.maxConcurrentExecutions
        dispatchTimeoutMs :=
          (env.word "HUB_DISPATCH_TIMEOUT_MS" 100 600000).getD s.scheduler.dispatchTimeoutMs }
    watchdog :=
      { s.watchdog with
        timeoutSecs :=
          (env.word "HUB_WATCHDOG_TIMEOUT_SECS" 1 86400).getD s.watchdog.timeoutSecs
        intervalSecs :=
          (env.word "HUB_WATCHDOG_INTERVAL_SECS" 1 3600).getD s.watchdog.intervalSecs }
    logging :=
      { level := (env.string "HUB_LOG_LEVEL").getD s.logging.level
        json := (env.bool "HUB_LOG_JSON").getD s.logging.json } }

inductive File where
  | absent
  | directory
  | content (bytes : List UInt8)
deriving Repr, DecidableEq, Inhabited

inductive LoadError where
  | isDirectory
  | notUtf8
  | unreadable (cause : Json.ReadError)
  | misfit (cause : Json.DecodeError)
deriving Repr, Inhabited, BEq

/-- The settings of a file's JSON value: the value over the defaults. -/
def ofLayer (layer : Json) : Except Json.DecodeError Settings :=
  decode (Json.merge (toJson {}) layer)

def ofText (content : String) : Except LoadError Settings := do
  let layer ← (Json.read content).mapError .unreadable
  (ofLayer layer).mapError .misfit

def ofFile : File → Except LoadError Settings
  | .absent => (decode (toJson {})).mapError .misfit
  | .directory => .error .isDirectory
  | .content bytes =>
    match Text.Utf8.decode? bytes with
    | some cs => ofText (String.ofList cs)
    | none => .error .notUtf8

def load (file : File) (env : Environment) : Except LoadError Settings :=
  (ofFile file).map (override env)

/-- Where the settings file lies: where a variable says, else in the home directory. -/
def path (env : Environment) : String :=
  match env.string "HUB_SETTINGS_PATH" with
  | some explicit => explicit
  | none =>
    Text.joinPath (Text.joinPath ((env "HOME").getD "/tmp") ".hub") "settings.json"

end Settings

end Switchboard
