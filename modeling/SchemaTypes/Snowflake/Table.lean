import SchemaTypes.Entries
import SchemaTypes.Log
import SchemaTypes.Path
import SchemaTypes.Text.Blank
import SchemaTypes.Text.Lines

/-!
# Snowflake kinds

A snowflake identifies an entity of some kind, and its type is named for that kind. Which kind a
field identifies is curated for some paths and guessed for all others from the name of the field,
by the first entry of an ordered list of kinds and aliases that fits.

Both lists are kept as text, one entry a line, with remarks behind a hash sign in the first column.
-/

namespace SchemaTypes.Snowflake

/-- A kind of entity and the other names its fields go by. -/
structure Kind where
  name : String
  aliases : List String
deriving DecidableEq, Repr

/-- The names by which fields of a kind are recognised. -/
def Kind.tokens (k : Kind) : List String := k.name :: k.aliases

/-- Ordered kinds, and the kinds that are settled by path. -/
structure Table where
  kinds : List Kind
  fields : List (String × String)
deriving DecidableEq, Repr

/-! ## Reading lists -/

/-- Whether a line is a remark. -/
def isRemark (line : List Char) : Bool := line.head? == some '#'

/-- The kind of one line, if it holds one. -/
def kindOfLine (line : List Char) : Option Kind :=
  if isRemark line then none
  else match Text.words line with
    | [] => none
    | name :: aliases => some {
        name := Identifier.ofMixedCase (String.ofList name)
        aliases := aliases.map fun a ↦ Identifier.ofSnakeCase (String.ofList a) }

/-- The kinds of a text, in the order of its lines. -/
def readKinds (text : String) : List Kind := (Text.splitLines text.toList).filterMap kindOfLine

/-- What one line of the list of paths says. -/
inductive FieldLine where
  /-- Nothing: a remark or an empty line. -/
  | silent
  /-- The kind of a path. -/
  | entry (path kind : String)
  /-- Something else than a path and a kind. -/
  | invalid (line : String)
deriving DecidableEq, Repr

/-- Reads one line of the list of paths. -/
def readFieldLine (line : List Char) : FieldLine :=
  if isRemark line then .silent
  else match Text.words line with
    | [] => .silent
    | [path, kind] => .entry (String.ofList path) (Identifier.ofMixedCase (String.ofList kind))
    | _ => .invalid (String.ofList line)

/-- The lines of the list of paths. -/
def readFieldLines (text : String) : List FieldLine :=
  (Text.splitLines text.toList).map readFieldLine

/-- The kinds by path of a text. -/
def readFields (text : String) : List (String × String) :=
  Entries.ofList ((readFieldLines text).filterMap fun
    | .entry path kind => some (path, kind)
    | _ => none)

/-- A warning for every line that is no entry. -/
def fieldWarnings (text : String) : List Log.Record :=
  (readFieldLines text).filterMap fun
    | .invalid line => some ⟨.warning, .snowflakes, "invalid snowflake field: " ++ Text.quoted line⟩
    | _ => none

/-- The table with further kinds, tried first, and further paths. -/
def Table.override (t : Table) (kinds : List String) (fields : List (String × String)) : Table where
  kinds := readKinds ("\n".intercalate kinds) ++ t.kinds
  fields := Entries.setAll t.fields
    (fields.map fun (path, kind) ↦ (path, Identifier.ofMixedCase kind))

/-! ## Guessing -/

/-- Whether a field of the given name in a parent of the given name goes by `token`. -/
def matchesToken (token fieldName parentName : String) : Bool :=
  (fieldName == token ++ "ID" || fieldName == token ++ "IDs") ||
    (Text.endsWith fieldName token || Text.endsWith fieldName (token ++ "s") ||
      Text.endsWith fieldName (token ++ "ID") || Text.endsWith fieldName (token ++ "IDs")) ||
    (fieldName == "ID" && Text.beginsWith parentName token)

/-- The name of the field at the end of a path, as it is compared with kinds. -/
def fieldName (p : Path) : String := Identifier.ofSnakeCase p.popPrivate.current

/-- The name of what holds the field at the end of a path; nothing holds a root. -/
def parentName (p : Path) : String :=
  match p.popPrivate.parent? with
  | some parent => Identifier.ofMixedCase parent.popPrivate.current
  | none => ""

/-- The kind that the field at the end of a path identifies. -/
def Table.kindOf (t : Table) (p : Path) : Option String :=
  match t.fields.lookup p.popPrivate.text with
  | some kind => some kind
  | none =>
    (t.kinds.find? fun k ↦ k.tokens.any fun token ↦
      matchesToken token (fieldName p) (parentName p)).map Kind.name

/-- The type of a snowflake of an unknown kind. -/
def genericType : String := "Snowflake"

/-- The type of the snowflake field at the end of a path. -/
def Table.guess (t : Table) (p : Path) : String :=
  match t.kindOf p with
  | some kind => kind ++ "ID"
  | none => genericType

/-- The record of a guess: one only if the kind stays unknown. -/
def Table.guessLog (t : Table) (p : Path) : List Log.Record :=
  match t.kindOf p with
  | some _ => []
  | none =>
    [⟨.debug, .snowflakes, "unknown snowflake field " ++ p.popPrivate.text ++ " (field " ++
      fieldName p ++ ", parent " ++ parentName p ++ ")"⟩]

end SchemaTypes.Snowflake
