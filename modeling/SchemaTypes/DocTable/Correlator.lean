import SchemaTypes.DocTable.Likelihood
import SchemaTypes.Json.Literal
import SchemaTypes.Log
import SchemaTypes.Number.Fixed
import SchemaTypes.Path
import SchemaTypes.Schema.Canonical
import SchemaTypes.Schema.PrimaryType
import SchemaTypes.Text.Blank

/-!
# Tables for a schema

Finds the documentation tables that most likely describe a schema object. The object is described
the way a table is and compared with every table; the five best tables above a threshold are
candidates.

Candidates are remembered by the shape of the schema. The name of a path takes part in the score but
not in the memory, so the path that asks first decides for all schemas of that shape.
-/

namespace SchemaTypes

/-- Documentation tables, each with the form in which it is compared. -/
structure Correlator where
  tables : List (DocTable × FieldTable)

namespace Correlator

/-- A table with its score against an object. -/
structure Candidate where
  table : DocTable
  score : Rat

/-- Candidates by the canonical text of the shape they were found for. -/
abbrev Memory := List (String × List Candidate)

/-- At most this many candidates are kept. -/
def candidateLimit : Nat := 5

/-- A table that scores less is no candidate. -/
def threshold : Rat := 5

/-- Prepares tables for comparison. -/
def ofTables (tables : List DocTable) : Except Mismatch Correlator := do
  return ⟨← tables.mapM fun t ↦ do return (t, ← t.fieldTable)⟩

/-- The name of a path in words: `guild member joined at` for `GuildMember.joined_at`. -/
def humanize (path : String) : String :=
  let spaced := path.toList.flatMap fun c ↦
    if c == '.' || c == '_' then [' ']
    else if c.isUpper then [' ', c.toLower]
    else [c]
  " ".intercalate ((Text.words spaced).map String.ofList)

/-- What a schema says about one property of an object; `resolve` follows references. -/
def fieldOf (resolve : Schema → Except Mismatch Schema) (keywords : Schema.Keywords)
    (name : String) (s : Schema) : Except Mismatch FieldInfo := do
  let s ← resolve s
  let type := match PrimaryType.ofTypes s.types with
    | .ok type => type
    | .error _ => ⟨"", false⟩
  return {
    name
    type := type.name
    comment := .text ""
    optional := !keywords.requires name
    nullable := type.nullable }

/-- Describes an object the way documentation tables are described. -/
def describe (resolve : Schema → Except Mismatch Schema) (path : Path) (s : Schema) :
    Except Mismatch FieldTable := do
  let fields ← s.properties.mapM fun (name, part) ↦ fieldOf resolve s.keywords name part
  return { name := humanize path.text, fields }

/-- Every table with its score against an object. -/
def scored (ρ : Rat → Rat) (c : Correlator) (object : FieldTable) : List Candidate :=
  c.tables.map fun (table, form) ↦ ⟨table, Likelihood.object ρ object form⟩

/-- The best candidates, best first; tables with one score keep their order. -/
def best (candidates : List Candidate) : List Candidate :=
  (sorted (fun a b ↦ b.score ≤ a.score) (candidates.filter fun c ↦ threshold ≤ c.score)).take
    candidateLimit

/-- The record of candidates that were found. -/
def candidateLog (path : Path) (candidates : List Candidate) : List Log.Record :=
  if candidates.isEmpty then []
  else
    let lines := candidates.map fun c ↦
      "  - " ++ Number.hundredths c.score ++ ": " ++ (Json.list c.table.sections).literal
    [⟨.debug, .correlation,
      "\n".intercalate ((path.text ++ " might correlate to these tables:") :: lines)⟩]

/-- What a search for tables brings: the candidates, what is to be remembered besides, and its log.
-/
structure Finding where
  candidates : List Candidate
  learnt : Memory
  log : List Log.Record

/-- Searches the tables for an object, unless its shape is remembered. -/
def search (c : Correlator) (resolve : Schema → Except Mismatch Schema) (memory : Memory)
    (path : Path) (s : Schema) : Except Mismatch Finding :=
  match memory.lookup s.canonicalText with
  | some candidates => .ok ⟨candidates, [], []⟩
  | none => do
    -- The memory is keyed by the shape alone, although the path has a part in the score.
    let object ← describe resolve path s
    let candidates := best (scored Number.roundRat c object)
    return ⟨candidates, [(s.canonicalText, candidates)], candidateLog path candidates⟩

/-- Searches the tables for the fields of an object; without tables nothing is looked at. -/
def searchFields (c : Correlator) (resolve : Schema → Except Mismatch Schema) (memory : Memory)
    (path : Path) (s : Schema) : Except Mismatch Finding :=
  if c.tables.isEmpty then .ok ⟨[], [], []⟩ else c.search resolve memory path s

/-- The fields of the best candidate, by name. -/
def bestFields (candidates : List Candidate) : Except Mismatch (List (String × FieldInfo)) :=
  match candidates with
  | [] => .ok []
  | c :: _ => Likelihood.fieldMap <$> c.table.fieldInfos

end Correlator

end SchemaTypes
