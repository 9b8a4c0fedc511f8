import Switchboard.Json.Decode

/-!
The settings of a hub, their defaults and their JSON form.  Every section and every field may be
missing from the JSON form and has a default then.
-/

namespace Switchboard

structure DatabaseSettings where
  path : String := "./data/hub.db"
  poolSize : UInt32 := 8
  busyTimeoutMs : UInt32 := 5000
deriving Repr, DecidableEq, Inhabited

structure SchedulerSettings where
  /-- Per workspace; zero for any number. -/
  maxConcurrentExecutions : UInt64 := 5
  /-- Empty for no worker. -/
  workerBaseUrl : String := "http://127.0.0.1:8040"
  runtimeSharedSecret : Option String := none
  dispatchTimeoutMs : UInt64 := 30000
deriving Repr, DecidableEq, Inhabited

structure WatchdogSettings where
  enabled : Bool := true
  timeoutSecs : UInt64 := 120
  intervalSecs : UInt64 := 30
deriving Repr, DecidableEq, Inhabited

structure EventBusSettings where
  ringCapacity : UInt64 := 500
  subscriberQueue : UInt64 := 64
deriving Repr, DecidableEq, Inhabited

structure LoggingSettings where
  level : String := "info"
  json : Bool := false
deriving Repr, DecidableEq, Inhabited

structure Settings where
  database : DatabaseSettings := {}
  scheduler : SchedulerSettings := {}
  watchdog : WatchdogSettings := {}
  eventBus : EventBusSettings := {}
  logging : LoggingSettings := {}
deriving Repr, DecidableEq, Inhabited

namespace DatabaseSettings

def fields (s : DatabaseSettings) : List (String × Json) :=
  [("path", .string s.path), ("poolSize", .ofNat s.poolSize.toNat),
    ("busyTimeoutMs", .ofNat s.busyTimeoutMs.toNat)]

def shape : Json.Shape DatabaseSettings :=
  let usual : DatabaseSettings := {}
  DatabaseSettings.mk <$> .defaulted "path" .string usual.path <*>
    .defaulted "poolSize" .unsigned32 usual.poolSize <*>
    .defaulted "busyTimeoutMs" .unsigned32 usual.busyTimeoutMs

def decode : Json.Decoder DatabaseSettings := shape.decoder "DatabaseSettings"

end DatabaseSettings

namespace SchedulerSettings

/-- A missing secret is left out. -/
def fields (s : SchedulerSettings) : List (String × Json) :=
  [("maxConcurrentExecutions", .ofNat s.maxConcurrentExecutions.toNat),
    ("workerBaseUrl", .string s.workerBaseUrl)] ++
    (match s.runtimeSharedSecret with
      | some secret => [("runtimeSharedSecret", .string secret)]
      | none => []) ++
    [("dispatchTimeoutMs", .ofNat s.dispatchTimeoutMs.toNat)]

def shape : Json.Shape SchedulerSettings :=
  let usual : SchedulerSettings := {}
  SchedulerSettings.mk <$>
    .defaulted "maxConcurrentExecutions" .size64 usual.maxConcurrentExecutions <*>
    .defaulted "workerBaseUrl" .string usual.workerBaseUrl <*>
    .defaulted "runtimeSharedSecret" (.nullable .string) usual.runtimeSharedSecret <*>
    .defaulted "dispatchTimeoutMs" .unsigned64 usual.dispatchTimeoutMs

def decode : Json.Decoder SchedulerSettings := shape.decoder "SchedulerSettings"

end SchedulerSettings

namespace WatchdogSettings

def fields (s : WatchdogSettings) : List (String × Json) :=
  [("enabled", .bool s.enabled), ("timeoutSecs", .ofNat s.timeoutSecs.toNat),
    ("intervalSecs", .ofNat s.intervalSecs.toNat)]

def shape : Json.Shape WatchdogSettings :=
  let usual : WatchdogSettings := {}
  WatchdogSettings.mk <$> .defaulted "enabled" .bool usual.enabled <*>
    .defaulted "timeoutSecs" .unsigned64 usual.timeoutSecs <*>
    .defaulted "intervalSecs" .unsigned64 usual.intervalSecs

def decode : Json.Decoder WatchdogSettings := shape.decoder "WatchdogSettings"

end WatchdogSettings

namespace EventBusSettings

def fields (s : EventBusSettings) : List (String × Json) :=
  [("ringCapacity", .ofNat s.ringCapacity.toNat),
    ("subscriberQueue", .ofNat s.subscriberQueue.toNat)]

def shape : Json.Shape EventBusSettings :=
  let usual : EventBusSettings := {}
  EventBusSettings.mk <$> .defaulted "ringCapacity" .size64 usual.ringCapacity <*>
    .defaulted "subscriberQueue" .size64 usual.subscriberQueue

def decode : Json.Decoder EventBusSettings := shape.decoder "EventBusSettings"

end EventBusSettings

namespace LoggingSettings

def fields (s : LoggingSettings) : List (String × Json) :=
  [("level", .string s.level), ("json", .bool s.json)]

def shape : Json.Shape LoggingSettings :=
  let usual : LoggingSettings := {}
  LoggingSettings.mk <$> .defaulted "level" .string usual.level <*>
    .defaulted "json" .bool usual.json

def decode : Json.Decoder LoggingSettings := shape.decoder "LoggingSettings"

end LoggingSettings

namespace Settings

def sections (s : Settings) : List (String × List (String × Json)) :=
  [("database", s.database.fields), ("scheduler", s.scheduler.fields),
    ("watchdog", s.watchdog.fields), ("eventBus", s.eventBus.fields),
    ("logging", s.logging.fields)]

def toJson (s : Settings) : Json :=
  .ofEntries (s.sections.map fun (name, fields) => (name, .ofEntries fields))

def text (s : Settings) : String :=
  Json.recordText (s.sections.map fun (name, fields) => (name, .object fields))

def shape : Json.Shape Settings :=
  let usual : Settings := {}
  Settings.mk <$> .defaulted "database" DatabaseSettings.decode usual.database <*>
    .defaulted "scheduler" SchedulerSettings.decode usual.scheduler <*>
    .defaulted "watchdog" WatchdogSettings.decode usual.watchdog <*>
    .defaulted "eventBus" EventBusSettings.decode usual.eventBus <*>
    .defaulted "logging" LoggingSettings.decode usual.logging

def decode : Json.Decoder Settings := shape.decoder "HubSettings"

end Settings

end Switchboard
