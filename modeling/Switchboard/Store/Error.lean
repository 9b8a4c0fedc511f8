import Switchboard.Lifecycle

/-!
Why the store refuses.
-/

namespace Switchboard

inductive DatabaseFault where
  | duplicate (table column : String)
  | missingParent
  | noTable (name : String)
  | refused (reason : String)
deriving Repr, DecidableEq, Inhabited

def DatabaseFault.message : DatabaseFault → String
  | .duplicate table column => s!"UNIQUE constraint failed: {table}.{column}"
  | .missingParent => "FOREIGN KEY constraint failed"
  | .noTable name => s!"no such table: {name}"
  | .refused reason => reason

inductive StoreError where
  | database (fault : DatabaseFault)
  | malformed (cause : Json.DecodeError)
  | migration (message : String)
  | corruptRow (cause : UnknownState)
  | sessionNotFound (session : String)
  | executionNotFound (execution : String)
deriving Repr, Inhabited, BEq

def StoreError.message : StoreError → String
  | .database fault => s!"sqlite error: {fault.message}"
  | .malformed cause => s!"serde error: {cause.message}"
  | .migration message => s!"migration error: {message}"
  | .corruptRow cause => s!"corrupt row: {cause.message}"
  | .sessionNotFound session => s!"session not found: {session}"
  | .executionNotFound execution => s!"execution not found: {execution}"

end Switchboard
