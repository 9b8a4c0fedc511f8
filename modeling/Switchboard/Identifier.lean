import Switchboard.Text.Digits

/-!
Identifiers.  They are texts; a fresh one is a label for its kind, an underscore and a version 7
UUID, whose leading bits are the time, so that identifiers of one kind sort by age.
-/

namespace Switchboard

abbrev SessionId := String
abbrev ExecutionId := String
abbrev WorkspaceId := String
abbrev ProjectId := String
abbrev TraceId := String
abbrev AuditId := String
abbrev UserId := String

/-- The acting user of what the hub does of its own accord. -/
def systemUser : UserId := "system"

inductive IdKind where
  | session
  | execution
  | workspace
  | project
  | trace
  | audit
  | user
deriving Repr, DecidableEq, Inhabited

namespace IdKind

def all : List IdKind := [.session, .execution, .workspace, .project, .trace, .audit, .user]

def name : IdKind → String
  | .session => "session"
  | .execution => "execution"
  | .workspace => "workspace"
  | .project => "project"
  | .trace => "trace"
  | .audit => "audit"
  | .user => "user"

def ofName? (name : String) : Option IdKind := all.find? (·.name = name)

def label : IdKind → String
  | .session => "sess"
  | .execution => "exec"
  | .workspace => "ws"
  | .project => "proj"
  | .trace => "trace"
  | .audit => "audit"
  | .user => "user"

/-- An identifier of the kind around a unique text. -/
def identifier (kind : IdKind) (unique : String) : String := s!"{kind.label}_{unique}"

theorem identifier_ne_empty (kind : IdKind) (unique : String) : kind.identifier unique ≠ "" := by
  intro empty
  have chars := congrArg String.length empty
  simp [identifier, toString] at chars

theorem eq_of_identifier_eq {kind : IdKind} {a b : String}
    (same : kind.identifier a = kind.identifier b) : a = b := by
  simpa [identifier, toString] using same

end IdKind

/-- A version 7 UUID: forty-eight bits of milliseconds and a serial number of sixty-two bits. -/
structure Uuid where
  millis : Nat
  serial : Nat
deriving Repr, DecidableEq, Inhabited

namespace Uuid

def hex (width : Nat) (n : Nat) : List Char := Text.padded width (Text.hexadecimal n)

/-- Five groups of hexadecimal digits; the third starts with the version, the fourth with the
variant. -/
def render (u : Uuid) : List Char :=
  hex 8 (u.millis / Nat.pow 2 16 % Nat.pow 2 32) ++ '-' :: hex 4 (u.millis % Nat.pow 2 16) ++ '-' :: '7' ::
    hex 3 0 ++ '-' :: hex 4 (0x8000 + u.serial / Nat.pow 2 48 % Nat.pow 2 14) ++ '-' ::
    hex 12 (u.serial % Nat.pow 2 48)

def text (u : Uuid) : String := String.ofList u.render

def isHex (c : Char) : Bool := Text.isDigit c || ('a' ≤ c && c ≤ 'f')

def isText (cs : List Char) : Bool :=
  cs.length == 36 && cs.zipIdx.all fun (c, i) =>
    if i = 8 || i = 13 || i = 18 || i = 23 then c = '-'
    else if i = 14 then c = '7'
    else if i = 19 then c = '8' || c = '9' || c = 'a' || c = 'b'
    else isHex c

end Uuid

end Switchboard
