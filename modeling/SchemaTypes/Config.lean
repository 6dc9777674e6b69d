import SchemaTypes.Json.Literal
import SchemaTypes.Json.Mismatch

/-!
# Configuration

A configuration is read from a JSON object whose keys name its settings; settings that are not named
have a default. Values are kept as they are written, whatever their type, and take the type that
generation needs only when `Config.options` is asked for.

A few keys name no setting but an operation of the record or the record itself. They are accepted
like a setting and hide what they name, so that the operation fails when it is used. A record that
is replaced as a whole may leave some settings without a value, which fails only where one is asked
for.
-/

namespace SchemaTypes

/-- What can be configured. -/
inductive Setting where
  | packageName | optionImportPath | generationComment | maxWorkers | maxReportedErrors
  | trimResponseSuffix | ignoreSchemas | enumNames | docComments | snowflakeKinds | snowflakeFields
deriving DecidableEq, Repr

namespace Setting

/-- All settings, in the order in which they are listed. -/
def all : List Setting :=
  [packageName, optionImportPath, generationComment, maxWorkers, maxReportedErrors,
   trimResponseSuffix, ignoreSchemas, enumNames, docComments, snowflakeKinds, snowflakeFields]

/-- The key of a setting. -/
def key : Setting → String
  | packageName => "package_name"
  | optionImportPath => "option_import_path"
  | generationComment => "add_generation_comment"
  | maxWorkers => "max_workers"
  | maxReportedErrors => "max_reported_errors"
  | trimResponseSuffix => "trim_response_suffix"
  | ignoreSchemas => "ignore_schemas"
  | enumNames => "enum_names"
  | docComments => "apply_doc_comments"
  | snowflakeKinds => "snowflake_kinds"
  | snowflakeFields => "snowflake_fields"

/-- The value of a setting that is not configured. -/
def initial : Setting → Json
  | packageName => .text "main"
  | optionImportPath => .text "github.com/diamondburned/arikawa/v3/utils/json/option"
  | generationComment => .bool true
  | maxWorkers => .int 0
  | maxReportedErrors => .int 10
  | trimResponseSuffix => .bool true
  | ignoreSchemas => .list []
  | enumNames => .list [.text "type", .text "flags"]
  | docComments => .bool false
  | snowflakeKinds => .list []
  | snowflakeFields => .object []

/-- Whether a setting belongs to the record alone, so that it is gone when the record is replaced.
-/
def isOwned : Setting → Bool
  | ignoreSchemas | enumNames | snowflakeKinds | snowflakeFields => true
  | _ => false

/-- The setting with a given key. -/
def ofKey? (key : String) : Option Setting := all.find? fun s ↦ s.key == key

theorem ofKey?_key (s : Setting) : ofKey? s.key = some s := by
  cases s <;> decide +kernel

end Setting

/-- A configuration: the values of settings, and those that hide an operation. -/
structure Config where
  /-- The value of a setting, if it has one. -/
  value? : Setting → Option Json
  /-- The value that hides the listing of settings. -/
  hiddenListing : Option Json
  /-- The value that hides the number of workers. -/
  hiddenWorkers : Option Json

namespace Config

/-- The configuration without any key. -/
def default : Config := ⟨fun s ↦ some s.initial, none, none⟩

/-- The value of a setting. -/
def get (c : Config) (s : Setting) : Except Mismatch Json :=
  match c.value? s with
  | some value => .ok value
  | none => .error (.unset s.key)

/-- The configuration with another value of a setting. -/
def set (c : Config) (s : Setting) (value : Json) : Config :=
  { c with value? := fun t ↦ if t = s then some value else c.value? t }

/-! ## Reading -/

/-- The configuration that consists of the members of an object. A setting that belongs to the
record alone has no value unless it is among them. -/
def ofRecord (members : List (String × Json)) : Config where
  value? s := members.lookup s.key <|> if s.isOwned then none else some s.initial
  hiddenListing := members.lookup "to_dict"
  hiddenWorkers := members.lookup "worker_count"

/-- Takes one member of a configuration object in. A key without a meaning changes nothing, nor does
one of a setting that has lost its value. -/
def assign (c : Config) (key : String) (value : Json) : Except Mismatch Config :=
  match Setting.ofKey? key with
  | some s => .ok (if (c.value? s).isSome then c.set s value else c)
  | none =>
    -- Names of operations pass for settings; the record itself can only be replaced as a whole.
    match key, value with
    | "worker_count", _ => .ok { c with hiddenWorkers := some value }
    | "to_dict", _ => .ok { c with hiddenListing := some value }
    | "__dict__", .object members => .ok (ofRecord members)
    | "__dict__", _ => .error (.notAssignable key)
    | "__class__", _ => .error (.notAssignable key)
    | "__weakref__", _ => .error (.notAssignable key)
    | _, _ => .ok c

/-- Takes members in one after the other. -/
def assignAll (c : Config) : List (String × Json) → Except Mismatch Config
  | [] => .ok c
  | (key, value) :: rest => do assignAll (← c.assign key value) rest

/-- Reads a configuration object. -/
def read (value : Json) : Except Mismatch Config := do
  default.assignAll (← value.members "items")

/-! ## Use -/

/-- All settings with their values. -/
def toJson (c : Config) : Except Mismatch Json :=
  match c.hiddenListing with
  | some value => .error (.notCallable value.kind)
  | none => do
    return .object (← Setting.all.mapM fun s ↦ do return (s.key, ← c.get s))

/-- Whether a value is a number above zero. -/
def isPositive : Json → Except Mismatch Bool
  | .bool b => .ok b
  | .int n => .ok (0 < n)
  | .real x => .ok (!x.isNaN && !x.isZero && !x.isNegative)
  | value => .error (.notComparable ">" value.kind .int)

/-- The number of workers as it is configured, or else the number of processors. -/
def workers (c : Config) (processors : Nat) : Except Mismatch Json :=
  match c.hiddenWorkers with
  | some value => .error (.notCallable value.kind)
  | none => do
    let value ← c.get .maxWorkers
    return if ← isPositive value then value else .int processors

/-- The texts among the elements of a value, all of which are used as keys. -/
def textKeys (value : Json) : Except Mismatch (List String) := do
  return (← (← value.elements).mapM Json.asKey).filterMap Json.Key.text?

/-- The kinds by path that a value holds. -/
def fieldKinds (value : Json) : Except Mismatch (List (String × String)) :=
  if value.isVoid then .ok []
  else do
    (← value.members "items").mapM fun (path, kind) ↦
      if kind.isVoid then return (path, "") else return (path, ← kind.textOr "strip")

/-- The kinds that a value lists. -/
def kindLines (value : Json) : Except Mismatch (List String) :=
  if value.isVoid then .ok [] else do Json.joinable 0 (← value.elements)

end Config

/-- The settings that generation uses, in the types that it needs. What not every document makes use
of may still turn out to have an unexpected type or no value. -/
structure Options where
  packageName : String
  /-- Import path of the package that provides optional values. -/
  optionImportPath : Json
  /-- Whether the file begins with a remark on its origin. -/
  generationComment : Bool
  /-- How many issues are kept for reporting; all of them are counted. -/
  maxReportedErrors : Json
  /-- Whether a schema named for a response loses that part of its name. -/
  trimResponseSuffix : Bool
  /-- Schemas that are left out of a file. -/
  ignoreSchemas : Except Mismatch (List String)
  /-- Holds the names of integer fields that should have been enumerations. -/
  enumNames : Except Mismatch Json
  /-- Whether fields get comments from documentation tables. -/
  docComments : Bool
  /-- Kinds of snowflakes that are tried before the curated ones. -/
  snowflakeKinds : List String
  /-- Kinds of snowflakes by path. -/
  snowflakeFields : List (String × String)

/-- Whether an integer field of a name should have been an enumeration. -/
def Options.isEnumName (o : Options) (name : String) : Except Mismatch Bool := do
  (← o.enumNames).holds name

/-- The settings of the configuration without any key. -/
def Options.initial : Options where
  packageName := "main"
  optionImportPath := .text "github.com/diamondburned/arikawa/v3/utils/json/option"
  generationComment := true
  maxReportedErrors := .int 10
  trimResponseSuffix := true
  ignoreSchemas := .ok []
  enumNames := .ok (.list [.text "type", .text "flags"])
  docComments := false
  snowflakeKinds := []
  snowflakeFields := []

/-- The settings in the types that generation needs. -/
def Config.options (c : Config) : Except Mismatch Options := do
  let kinds ← c.get .snowflakeKinds
  let fields ← c.get .snowflakeFields
  return {
    packageName := (← c.get .packageName).display
    optionImportPath := ← c.get .optionImportPath
    generationComment := !(← c.get .generationComment).isVoid
    maxReportedErrors := ← c.get .maxReportedErrors
    trimResponseSuffix := !(← c.get .trimResponseSuffix).isVoid
    ignoreSchemas := do textKeys (← c.get .ignoreSchemas)
    enumNames := c.get .enumNames
    docComments := !(← c.get .docComments).isVoid
    snowflakeKinds := ← kindLines kinds
    snowflakeFields := ← fieldKinds fields }

/-- The initial settings are those that the configuration without any key amounts to. -/
theorem Config.options_default : Config.default.options = .ok Options.initial := rfl

end SchemaTypes
