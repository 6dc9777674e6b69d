import SchemaTypes.Declaration.TypeExpression
import SchemaTypes.FileTree
import SchemaTypes.Run.Schedule
import SchemaTypes.Snowflake.Curated

/-!
# Generating a file

A file holds a declaration for every schema of a document that is not left out, in the order of
their names, behind the declarations that were hoisted out of them, in the order of theirs.

A schema that is named for a response goes by its name without that word, where no schema has that
name already. Two schemas with one identifier cannot both be declared: the first in name order is,
and the other one is an issue. The file is written whatever issues there are, unless one of them or
a setting turns out to be an obstacle; what the run has collected by then stays.
-/

namespace SchemaTypes

namespace Generation

/-! ## Choice of schemas -/

/-- The end of a name that is trimmed. -/
def responseSuffix : String := "Response"

/-- The names of schemas that are renamed, with the names they go by. -/
def renames (document : Document) (trim : Bool) : List (String × String) :=
  if trim then
    let names := Entries.names document.schemas
    names.filterMap fun name ↦
      let trimmed := Text.removeEnding name responseSuffix
      if trimmed.isEmpty || trimmed == name || names.contains trimmed then none
      else some (name, trimmed)
  else []

/-- The environment in which the schemas of a document are emitted. -/
def environment (document : Document) (options : Options) (tables : List DocTable) :
    Except Mismatch Environment := do
  let snowflakes := Snowflake.curated.override options.snowflakeKinds options.snowflakeFields
  let correlator ← Correlator.ofTables tables
  return {
    document, options, snowflakes, correlator
    renames := renames document options.trimResponseSuffix }

/-- The environment of a document without configuration and tables. -/
def plainEnvironment (document : Document) : Environment where
  document := document
  options := .initial
  snowflakes := Snowflake.curated.override [] []
  correlator := ⟨[]⟩
  renames := renames document true

theorem environment_initial (document : Document) :
    environment document .initial [] = .ok (plainEnvironment document) := rfl

/-- A schema that is declared, with the name it goes by. -/
structure Entry where
  name : String
  schema : Schema

/-- Chooses the schemas that are declared, without the ignored ones and given the identifiers of
those chosen before with their names, and tells what is left out. -/
def choose (env : Environment) (ignored : List String) (taken : List (String × String)) :
    List (String × Schema) → List Entry × List Event
  | [] => ([], [])
  | (name, schema) :: rest =>
    if ignored.contains name then
      let (entries, events) := choose env ignored taken rest
      (entries, .note ⟨.debug, .generation, "ignoring schema " ++ name⟩ :: events)
    else
      let emitted := env.emittedName name
      let identifier := Identifier.ofMixedCase emitted
      match taken.lookup identifier with
      | some first =>
        let (entries, events) := choose env ignored taken rest
        (entries, .report ⟨"", .sameIdentifier first name identifier⟩ :: events)
      | none =>
        let (entries, events) := choose env ignored ((identifier, name) :: taken) rest
        (⟨emitted, schema⟩ :: entries, events)

/-- The schemas that are declared, in the order of the names they go by, and what is left out. -/
def entries (env : Environment) (ignored : List String) : List Entry × List Event :=
  let (chosen, events) := choose env ignored [] (Text.sortByName env.document.schemas)
  (sorted (fun a b ↦ a.name ≤ b.name) chosen, events)

/-! ## Steps -/

/-- Why no file comes of a document. -/
inductive Fault where
  /-- A value has an unexpected type. -/
  | mismatch (cause : Mismatch)
  /-- A path on the command line cannot be looked up. -/
  | path (cause : FileTree.PathError)
deriving DecidableEq, Repr

/-- A step of generation: it changes the run, and may end generation. -/
abbrev Step := ExceptT Fault (StateM Run)

/-- What comes of a step, and the run behind it. -/
def Step.runFrom {α : Type} (x : Step α) (run : Run) : Except Fault α × Run := x.run.run run

/-- Goes on with a value, or ends generation. -/
def Step.lift {α : Type} : Except Mismatch α → Step α
  | .ok a => pure a
  | .error e => throw (.mismatch e)

/-- Lets events happen, up to one that leaves an obstacle. -/
def Step.tell (events : List Event) : Step Unit := do
  let done := (← get).perform (events.map .tell)
  set done.run
  if let some e := done.obstacle then throw (.mismatch e)

/-! ## Emission of all schemas -/

/-- The declaration of an entry. -/
def Entry.declaration (env : Environment) (e : Entry) : Emit Unit :=
  Schema.emitNamed env e.name e.schema

/-- Emits the declaration of an entry. -/
def emitEntry (env : Environment) (e : Entry) (run : Run) : Schedule.Outcome × Run :=
  let done := run.take (e.declaration env)
  (⟨e.name, done.text, done.obstacle.map Mismatch.message⟩, done.run)

/-- The types that the texts of schemas declare, by the names the schemas go by. -/
def declaredTypes (declared : List (String × String)) : List String :=
  declared.map fun (name, _) ↦ Identifier.ofMixedCase name

/-- Runs tasks on workers, and finds their texts by name. -/
def runTasks {τ : Type} (run : τ → Run → Schedule.Outcome × Run) (workers : Json)
    (tasks : List τ) : Step (List (String × String)) := do
  Step.tell ((← Step.lift (Schedule.startLog workers tasks.length)).map .note)
  let (outcomes, run) := Schedule.runAll run tasks (← get)
  set run
  Step.tell (Schedule.failureEvents outcomes)
  return Schedule.results outcomes

/-- Emits entries on workers, and finds the texts by name. -/
def emitAll (env : Environment) (workers : Json) (entries : List Entry) :
    Step (List (String × String)) :=
  runTasks (emitEntry env) workers entries

/-! ## The file -/

/-- The remark on the origin of a file, for which alone the command line is looked at. -/
def remark (options : Options) (commandLine : Except FileTree.PathError String) :
    Except FileTree.PathError String :=
  if options.generationComment then do
    return "// Code generated by openapi_to_code v1.0.0 : " ++ (← commandLine) ++ ". DO NOT EDIT."
  else .ok ""

/-- The hoisted declarations that have the name of no schema, in the order of their names. -/
def hoisted (schemas : List String) (items : List (String × String)) : List (String × String) :=
  items.filter fun (name, _) ↦ !schemas.contains name

/-- What the hoisted declarations amount to that have the name of a schema. -/
def shadowingEvents (schemas : List String) (items : List (String × String)) : List Event :=
  (items.filter fun (name, _) ↦ schemas.contains name).map fun (name, _) ↦
    .report ⟨"", .shadowsSchema name⟩

/-- A file in its parts: what stands in front, and the declarations by the names they go by. -/
structure SourceFile where
  head : String
  /-- The declarations hoisted out of schemas. -/
  hoisted : List (String × String)
  /-- The declarations of schemas. -/
  declared : List (String × String)
deriving DecidableEq, Repr

/-- The declarations of a file, one behind the other. -/
def SourceFile.body (f : SourceFile) : String :=
  String.join ((f.hoisted ++ f.declared).map Prod.snd)

/-- The text of a file. -/
def SourceFile.text (f : SourceFile) : String :=
  TypeExpression.trimFeeds f.head ++ "\n\n" ++ TypeExpression.trimFeeds f.body ++ "\n"

/-- The head of the file of a run. -/
def head (options : Options) (commandLine : Except FileTree.PathError String) (run : Run) :
    Except Fault String := do
  let imports ← run.imports.mapError .mismatch
  let remark ← (remark options commandLine).mapError .path
  return Declaration.fileHead options.packageName
    (imports.map fun path ↦ path.toJson.display) remark

/-- The record of the issues of a run, if there are any. -/
def summaryLog (run : Run) : List Log.Record :=
  if run.issues.isEmpty then [] else [⟨.error, .generation, run.issues.summary⟩]

/-- Puts the file together of the texts of schemas. -/
def putTogether (env : Environment) (commandLine : Except FileTree.PathError String)
    (declared : List (String × String)) : Step SourceFile := do
  -- Only a schema that left a text behind takes its name away from hoisted declarations.
  Step.tell (shadowingEvents (declaredTypes declared) (← get).items)
  let run ← get
  let head ← head env.options commandLine run
  Step.tell ((summaryLog run).map .note)
  return { head, hoisted := hoisted (declaredTypes declared) run.items, declared }

/-- Emits entries in the given order and puts the file together. -/
def assemble (env : Environment) (commandLine : Except FileTree.PathError String)
    (workers : Except Mismatch Json) (entries : List Entry) : Step SourceFile := do
  putTogether env commandLine (← emitAll env (← Step.lift workers) entries)

/-- The record of how many schemas are declared. -/
def startRecord (entries : List Entry) : Log.Record :=
  ⟨.info, .generation, "generating " ++ toString entries.length ++ " schemas"⟩

/-- Chooses the schemas of a document and generates its file. -/
def compose (env : Environment) (commandLine : Except FileTree.PathError String)
    (workers : Except Mismatch Json) : Step SourceFile := do
  let (entries, events) := entries env (← Step.lift env.options.ignoreSchemas)
  Step.tell events
  Step.tell [.note (startRecord entries)]
  assemble env commandLine workers entries

/-- The run of a document and its file in parts, if it gets one. -/
def generateFile (env : Environment) (commandLine : Except FileTree.PathError String)
    (workers : Except Mismatch Json) : Except Fault SourceFile × Run :=
  (compose env commandLine workers).runFrom (.start env.options.maxReportedErrors)

/-- The run of a document and the text of its file, if it gets one. -/
def generate (env : Environment) (commandLine : Except FileTree.PathError String)
    (workers : Except Mismatch Json) : Except Fault String × Run :=
  let (file, run) := generateFile env commandLine workers
  (file.map SourceFile.text, run)

end Generation

end SchemaTypes
