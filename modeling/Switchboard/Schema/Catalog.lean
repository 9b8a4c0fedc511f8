import Switchboard.Schema.TableName

/-!
What a database holds before and after it is migrated: tables by name and columns, indexes, views,
and the rows of the version table.  Names are kept as they were given and found whatever the case of
their letters.
-/

namespace Switchboard

structure VersionRow where
  version : Int
  description : String
  appliedAt : String
deriving Repr, DecidableEq, Inhabited

inductive SchemaItem where
  /-- `shortLimit` bounds the length of descriptions in the table, if something does. -/
  | table (name : String) (columns : List String) (shortLimit : Option Nat)
  | index (name : String) (table : String) (columns : List String)
  | view (name : String)
deriving Repr, DecidableEq, Inhabited

namespace SchemaItem

def name : SchemaItem → String
  | .table name _ _ | .index name _ _ | .view name => name

def kind : SchemaItem → String
  | .table _ _ _ => "table"
  | .index _ _ _ => "index"
  | .view _ => "view"

end SchemaItem

/-- Why the database does not carry out a step. -/
inductive CatalogFault where
  | noTable (name : String)
  | isView (name : String)
  | duplicateVersion
  | tooLong (limit : Nat)
  | nestedTransaction
  | noTransaction
  /-- A name that the database keeps for itself. -/
  | reserved (name : String)
  | tableNamed (name : String)
  | indexNamed (name : String)
  | noColumn (table column : String)
  /-- Values for another number of columns than the table has. -/
  | columnCount (table : String) (columns values : Nat)
  | unfinished
  | outOfRange (version : Int)
  /-- A statement that cannot be read, or that names what is not there or what is there already; the
  database quotes the statement. -/
  | quotesStatement
deriving Repr, DecidableEq, Inhabited

def CatalogFault.message? : CatalogFault → Option String
  | .noTable name => some s!"no such table: {name}"
  | .isView name => some s!"cannot modify {name} because it is a view"
  | .duplicateVersion => some "UNIQUE constraint failed: schema_version.version"
  | .tooLong limit => some s!"CHECK constraint failed: length(description) < {limit}"
  | .nestedTransaction => some "cannot start a transaction within a transaction"
  | .noTransaction => some "cannot rollback - no transaction is active"
  | .reserved name => some s!"object name reserved for internal use: {name}"
  | .tableNamed name => some s!"there is already a table named {name}"
  | .indexNamed name => some s!"there is already an index named {name}"
  | .noColumn table column => some s!"table {table} has no column named {column}"
  | .columnCount table columns values =>
    some s!"table {table} has {columns} columns but {values} values were supplied"
  | .unfinished => some "incomplete input"
  | .outOfRange version => some s!"Integer {version} out of range at index 0"
  | .quotesStatement => none

/-- The part of the database that a transaction can take back. -/
structure Contents where
  items : List SchemaItem := []
  versions : List VersionRow := []
deriving Repr, DecidableEq, Inhabited

structure Catalog where
  contents : Contents := {}
  foreignKeys : Bool := true
  /-- The contents at the beginning of the open transaction. -/
  saved : Option Contents := none
deriving Repr, DecidableEq, Inhabited

namespace Contents

def relation? (c : Contents) (name : String) : Option SchemaItem :=
  c.items.find? fun item => Text.sameButCase item.name name && item.kind != "index"

def add (item : SchemaItem) (c : Contents) : Contents := { c with items := c.items ++ [item] }

def hasIndex (c : Contents) (name : String) : Bool :=
  c.items.any fun item => Text.sameButCase item.name name && item.kind == "index"

/-- Names that start like this belong to the database. -/
def reservedOpening : String := "sqlite_"

def isReserved (name : String) : Bool :=
  Text.sameButCase (String.ofList (name.toList.take reservedOpening.length)) reservedOpening

/-- Creates what must not be there yet.  An index needs the columns it is on. -/
def createNew (item : SchemaItem) (c : Contents) : Except CatalogFault Contents :=
  match item with
  | .table name _ _ | .view name =>
    if isReserved name then .error (.reserved name)
    else if (c.relation? name).isSome then .error .quotesStatement
    else if c.hasIndex name then .error (.indexNamed name)
    else .ok (c.add item)
  | .index name table columns =>
    if isReserved name then .error (.reserved name)
    else if (c.relation? name).isSome then .error (.tableNamed name)
    else if c.hasIndex name then .error .quotesStatement
    else
      match c.relation? table with
      | some (.table _ present _) =>
        if columns.all (· ∈ present) then .ok (c.add item) else .error .quotesStatement
      | _ => .error .quotesStatement

/-- Creates a table under a name as a statement spells it.  A table of the temporary database is
apart from these contents. -/
def createTable (spelling : String) (columns : List String) (c : Contents) :
    Except CatalogFault Contents :=
  match TableName.read spelling with
  | .error .misspelled => .error .quotesStatement
  | .error .unfinished => .error .unfinished
  | .ok ⟨database, name⟩ =>
    match database.map Text.lowered with
    | none | some "main" => c.createNew (.table name columns none)
    | some "temp" => if isReserved name then .error (.reserved name) else .ok c
    | some _ => .error .quotesStatement

/-- Whether something of the item's name and kind is there; tables and views are of one kind. -/
def holds (c : Contents) (item : SchemaItem) : Bool :=
  match item with
  | .table name _ _ | .view name => (c.relation? name).isSome
  | .index name _ _ => c.hasIndex name

/-- Creates what is not there yet. -/
def create (item : SchemaItem) (c : Contents) : Except CatalogFault Contents :=
  if c.holds item then .ok c else c.createNew item

def createAll (items : List SchemaItem) (c : Contents) : Except CatalogFault Contents :=
  items.foldlM (fun c item => c.create item) c

/-- The table of versions and its columns. -/
def versionTable : String := "schema_version"

def versionColumns : List String := ["version", "applied_at", "description"]

def versionItem : SchemaItem := .table versionTable versionColumns none

/-- What a view in the place of the version table shows. -/
def viewedVersion : VersionRow := ⟨0, "", ""⟩

/-- The rows of the version table, if it can be asked for them. -/
def readVersions (c : Contents) : Except CatalogFault (List VersionRow) :=
  match c.relation? versionTable with
  | none => .error (.noTable versionTable)
  | some (.table _ columns _) =>
    if versionColumns.all (· ∈ columns) then
      .ok (c.versions.mergeSort fun a b => a.version ≤ b.version)
    else .error .quotesStatement
  | some _ => .ok [viewedVersion]

/-- The greatest version recorded; zero for none. -/
def currentVersion (c : Contents) : Except CatalogFault Nat := do
  let rows ← c.readVersions
  match rows.getLast? with
  | none => return 0
  | some row =>
    if 0 ≤ row.version && row.version < Nat.pow 2 32 then return row.version.toNat
    else throw (.outOfRange row.version)

/-- Puts a row into a version table whose columns are found to fit the statement. -/
def insertVersion (fits : List String → Except CatalogFault Unit) (row : VersionRow)
    (c : Contents) : Except CatalogFault Contents :=
  match c.relation? versionTable with
  | none => .error (.noTable versionTable)
  | some (.table _ columns limit) => do
    fits columns
    if let some n := limit then
      if n ≤ row.description.length then throw (.tooLong n)
    if c.versions.any (·.version == row.version) then throw .duplicateVersion
    return { c with versions := c.versions ++ [row] }
  | some _ => .error (.isView versionTable)

/-- Every column that a statement names has to be there. -/
def fitByName (columns : List String) : Except CatalogFault Unit :=
  match versionColumns.find? (· ∉ columns) with
  | some column => .error (.noColumn versionTable column)
  | none => .ok ()

/-- A statement that names no columns has a value for each. -/
def fitByCount (columns : List String) : Except CatalogFault Unit :=
  if columns.length == versionColumns.length then .ok ()
  else .error (.columnCount versionTable columns.length versionColumns.length)

/-- Kind and name of everything there is, sorted. -/
def listing (c : Contents) : List String :=
  (c.items.map fun item => s!"{item.kind}:{item.name}").mergeSort fun a b => !decide (b < a)

end Contents

namespace Catalog

/-- Contents changed outside or inside the open transaction. -/
def change (step : Contents → Except CatalogFault Contents) (c : Catalog) :
    Except CatalogFault Catalog := do
  return { c with contents := ← step c.contents }

def begin (c : Catalog) : Except CatalogFault Catalog :=
  match c.saved with
  | some _ => .error .nestedTransaction
  | none => .ok { c with saved := some c.contents }

def rollback (c : Catalog) : Except CatalogFault Catalog :=
  match c.saved with
  | some contents => .ok { c with contents := contents, saved := none }
  | none => .error .noTransaction

/-- Foreign keys are switched outside transactions only. -/
def switchForeignKeys (on : Bool) (c : Catalog) : Catalog :=
  if c.saved.isSome then c else { c with foreignKeys := on }

end Catalog

end Switchboard
