import SchemaTypes.Config
import SchemaTypes.Declaration.Emit
import SchemaTypes.Schema.Document
import SchemaTypes.Snowflake.Table

/-!
# Environment of an emission

What stays the same while the schemas of a document are emitted: the document, the options, the
kinds of snowflakes, the documentation tables, and the schemas that go by another name.
-/

namespace SchemaTypes

/-- What an emission looks things up in. -/
structure Environment where
  document : Document
  options : Options
  snowflakes : Snowflake.Table
  correlator : Correlator
  /-- Emitted names of schemas that are renamed. -/
  renames : List (String × String)

namespace Environment

/-- The name that a schema of the document goes by. -/
def emittedName (env : Environment) (schema : String) : String :=
  (env.renames.lookup schema).getD schema

/-- The identifier of a schema of the document. -/
def typeName (env : Environment) (schema : String) : String :=
  Identifier.ofMixedCase (env.emittedName schema)

/-- Whether a branch allows nothing but null. -/
def isNull (env : Environment) (branch : Schema) : Except Mismatch Bool := do
  return (← env.document.deref branch).types == ["null"]

/-- Which branches allow nothing but null. -/
def nullBranches (env : Environment) (branches : List Schema) : Except Mismatch (List Bool) :=
  branches.mapM env.isNull

/-- The number of the branch beside null, if there are two branches and one of them is null. -/
def branchBesideNull (env : Environment) (branches : List Schema) :
    Except Mismatch (Option Nat) := do
  if branches.length = 2 then
    match ← env.nullBranches branches with
    | [true, false] => return some 1
    | [false, true] => return some 0
    | _ => return none
  else return none

/-- The branches of a node that is declared as a tagged union, if it is one. -/
def unionBranches (env : Environment) (s : Schema) : Except Mismatch (Option (List Schema)) := do
  if !s.types.isEmpty || !s.allOf.isEmpty then return none
  let branches := if s.oneOf.isEmpty then s.anyOf else s.oneOf
  if branches.isEmpty then return none
  match ← env.branchBesideNull branches with
  | some _ => return none
  | none => return some branches

/-- Records an issue of the part at a path. -/
def issue (path : Path) (cause : Issue.Cause) : Emit Unit := .tell (.report ⟨path.text, cause⟩)

/-- Records that the package of optional values is needed. -/
def requireOption (env : Environment) : Emit Unit := do
  Emit.tell (.require (← Emit.lift env.options.optionImportPath.asKey))

/-- The fields that documentation tells about an object, by name. -/
def documentedFields (env : Environment) (path : Path) (s : Schema) :
    Emit (List (String × FieldInfo)) := do
  if env.options.docComments then
    let candidates ← Emit.search fun memory ↦
      env.correlator.searchFields env.document.deref memory path s
    Emit.lift (Correlator.bestFields candidates)
  else return []

end Environment

end SchemaTypes
