import SchemaTypes.Json.Mismatch
import SchemaTypes.Text.Affix

/-!
# Documentation tables

A table found in documentation describes the fields of some object, a row for each. To be compared
with a schema it is normalised: a question mark behind the name of a field says that the field is
optional, one in front of its type that the type includes null.

Cells keep the value they were given, since nothing checks that they are texts before they are
normalised.
-/

namespace SchemaTypes

/-- What is known about one field of an object. -/
structure FieldInfo where
  name : String
  type : String
  /-- What is said about the field, not looked at until it is shown. -/
  comment : Json
  optional : Bool
  nullable : Bool
deriving Inhabited

/-- A named list of fields, the form in which objects are compared. -/
structure FieldTable where
  name : String
  fields : List FieldInfo
deriving Inhabited

namespace DocTable

/-- A row of a documentation table. -/
structure Row where
  field : Json
  type : Json
  description : Json

/-- Where a table was found. -/
structure Source where
  path : String
  position : Nat
deriving DecidableEq, Repr

end DocTable

/-- A documentation table, with the headings it stands under, outermost first. -/
structure DocTable where
  sections : List Json
  description : Json
  rows : List DocTable.Row
  source : DocTable.Source

namespace DocTable

/-- What a row says about its field. -/
def Row.fieldInfo (r : Row) : Except Mismatch FieldInfo := do
  let field ← r.field.textOr "removesuffix"
  let type ← r.type.textOr "removeprefix"
  return {
    name := Text.removeEnding field "?"
    type := Text.removeBeginning type "?"
    comment := r.description
    optional := Text.endsWith field "?"
    nullable := Text.beginsWith type "?" }

/-- What the rows of a table say about its fields. -/
def fieldInfos (t : DocTable) : Except Mismatch (List FieldInfo) := t.rows.mapM Row.fieldInfo

/-- A table in the form in which it is compared, named by its headings. -/
def fieldTable (t : DocTable) : Except Mismatch FieldTable := do
  let sections ← Json.joinable 0 t.sections
  return { name := " ".intercalate sections, fields := ← t.fieldInfos }

/-! ## Tables as JSON -/

/-- A member of an object, or a default. -/
def memberOr (value : Json) (key : String) (default : Json) : Except Mismatch Json := do
  return ((← value.members "get").lookup key).getD default

/-- A row from its JSON form. -/
def Row.ofJson (value : Json) : Except Mismatch Row := do
  return {
    field := ← memberOr value "field" (.text "")
    type := ← memberOr value "type" (.text "")
    description := ← memberOr value "description" (.text "") }

/-- A table from its JSON form. -/
def ofJson (value : Json) : Except Mismatch DocTable := do
  let rows ← (← memberOr value "rows" (.list [])).elements
  let rows ← rows.mapM Row.ofJson
  let sections ← (← memberOr value "sectionPath" (.list [])).elements
  return {
    sections
    description := ← memberOr value "description" (.text "")
    rows
    source := ⟨"", 0⟩ }

/-- All tables of a JSON list. -/
def listOfJson (value : Json) : Except Mismatch (List DocTable) := do
  (← value.elements).mapM ofJson

end DocTable

end SchemaTypes
