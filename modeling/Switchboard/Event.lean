import Switchboard.Identifier
import Switchboard.Sequence
import Switchboard.Time.Timestamp

/-!
What subscribers of an execution are told, and its form on the wire.
-/

namespace Switchboard

structure Event where
  execution : ExecutionId
  trace : Option TraceId
  sequence : Sequence
  timestamp : String
  type : String
  payload : Json
deriving Repr, Inhabited, BEq

namespace EventType

/-- Ends the stream; the payload's `status` names the outcome. -/
def done : String := "done"

def error : String := "error"

def cancelled : String := "cancelled"

def confirmationRequest : String := "confirmation_request"

def confirmationDecision : String := "confirmation_decision"

end EventType

namespace ErrorCode

def executionTimeout : String := "E_EXECUTION_TIMEOUT"

def workerDispatch : String := "E_WORKER_DISPATCH"

def noWorker : String := "E_NO_WORKER"

end ErrorCode

namespace Event

def isDone (event : Event) : Bool := event.type == EventType.done

/-- The fields on the wire, in order; an unknown trace is left out. -/
def fields (event : Event) : List (String × Json) :=
  [("execution_id", .string event.execution)] ++
    (match event.trace with
      | some trace => [("trace_id", .string trace)]
      | none => []) ++
    [("seq", event.sequence.toJson), ("ts", .string event.timestamp),
      ("type", .string event.type), ("payload", event.payload)]

def toJson (event : Event) : Json := .ofEntries event.fields

def text (event : Event) : String := Json.recordText event.fields

def shape : Json.Shape Event :=
  Event.mk <$> .required "execution_id" .string <*> .optional "trace_id" .string <*>
    .required "seq" Sequence.decode <*> .required "ts" .string <*> .required "type" .string <*>
    .required "payload" .any

def decode : Json.Decoder Event := shape.decoder "ExecutionEvent"

def errorPayload (trace : Option TraceId) (code message : String) : Json :=
  let about := [("code", .string code), ("message", .string message)] ++
    (match trace with
      | some trace => [("trace_id", .string trace)]
      | none => [])
  .ofEntries [("error", .ofEntries about)]

def error (execution : ExecutionId) (trace : Option TraceId) (code message : String)
    (timestamp : String) : Event :=
  ⟨execution, trace, .notice, timestamp, EventType.error, errorPayload trace code message⟩

end Event

structure WorkerEvent where
  wire : Int
  timestamp : String
  type : String
  payload : Option Json
deriving Repr, Inhabited, BEq

namespace WorkerEvent

def shape : Json.Shape WorkerEvent :=
  WorkerEvent.mk <$> .required "seq" .signed64 <*> .defaulted "ts" .string "" <*>
    .required "type" .string <*> .defaulted "payload" (.nullable .any) none

def decode : Json.Decoder WorkerEvent := shape.decoder "WorkerEvent"

/-- The body; absent and `null` are an empty object. -/
def body (event : WorkerEvent) : Json :=
  match event.payload with
  | some .null => .object []
  | some payload => payload
  | none => .object []

/-- The event under the execution it is posted for.  A timestamp that is none is replaced by
`now`. -/
def toEvent (event : WorkerEvent) (execution : ExecutionId) (trace : Option TraceId)
    (now : String) : Event :=
  ⟨execution, trace, .ofWire event.wire, (normalize event.timestamp).getD now, event.type,
    event.body⟩

end WorkerEvent

end Switchboard
