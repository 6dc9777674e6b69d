import SchemaTypes.Declaration.Block
import SchemaTypes.Declaration.Environment

/-!
# Type expressions

The type of a schema node as text. A node is written from its own keywords and from its parts, each
of which is handed over together with what writes it. So the rules for one node are plain functions
without recursion, and `Schema.emit` only ties the knot over the tree.

Unions, their inline variants and nested sets of constants cannot stand inside an expression. They
are hoisted: declared under a name of their own and written as that name.
-/

namespace SchemaTypes

/-- A schema below a node, with what writes its type at a given path. -/
structure Part where
  schema : Schema
  write : Path → Emit Unit

/-- The schemas below a node. -/
structure Parts where
  /-- In document order. -/
  properties : List (String × Part)
  items : Option Part
  allOf : List Part
  oneOf : List Part
  anyOf : List Part

namespace Parts

/-- Properties in the order of their position. -/
def sortedProperties (p : Parts) : List (String × Part) :=
  sorted (fun a b ↦ a.2.schema.line ≤ b.2.schema.line) p.properties

end Parts

namespace TypeExpression

open Environment Declaration

variable (env : Environment)

/-! ## Simple types -/

/-- The type of an optional value. -/
def optional (type : String) : String :=
  "option.Optional[" ++ Text.removeBeginning type "*" ++ "]"

/-- The type of numbers in a given format. -/
def numberType : Json → Except Mismatch String
  | .text "float" => .ok "float32"
  | .list _ => .error (.notKey .list)
  | .object _ => .error (.notKey .object)
  | _ => .ok "float64"

/-- Writes a value that has to be a text. -/
def writeText : Json → Emit Unit
  | .text s => .write s
  | value => .lift (.error (.notText value.kind))

/-- Writes a node whose type is not known. -/
def unknown (types : List String) (path : Path) : Emit Unit := do
  Emit.note .warning .emission
    ("unknown schema type at " ++ path.text ++ ": " ++ Text.quotedList types)
  let named := " ".intercalate types
  Emit.write (placeholder (if named.isEmpty then "unknown" else named))

/-- Writes a reference by the name of what it refers to. -/
def referenceType (s : Schema) (ref : Json) (path : Path) : Emit Unit := do
  let space ← Emit.lift s.refNamespace
  if space == schemasNamespace then
    Emit.mention (env.typeName (← Emit.lift s.refName))
  else if space == responsesNamespace then do
    Emit.note .debug .emission
      ("skipping response reference " ++ ref.display ++ " at " ++ path.text)
    Emit.write (placeholder ref.display)
  else do
    issue path (.unknownReference ref)
    Emit.write (placeholder ref.display)

/-! ## Objects and lists -/

/-- Writes the comment of a field, if documentation has one. -/
def fieldComment (documented : List (String × FieldInfo)) (name identifier : String) : Emit Unit :=
  match documented.lookup name with
  | none => .done ()
  | some info =>
    if info.comment.isVoid then .done ()
    else do
      let description ← Emit.lift (info.comment.textOr "strip")
      Emit.write (Comment.partComment (Comment.prose identifier description name))

/-- Writes the line of one property. A property without a usable name is left out. -/
def fieldLine (keywords : Schema.Keywords) (documented : List (String × FieldInfo)) (path : Path)
    (name : String) (part : Part) : Emit Unit := do
  let identifier := Identifier.ofSnakeCase name
  if identifier.isEmpty then
    Emit.note .warning .emission
      ("skipping property " ++ Text.quoted name ++ " of " ++ path.text ++ ": no usable Go name")
  else do
    fieldComment documented name identifier
    -- The type is captured, because an optional value is written around it without its pointer.
    let type ← Emit.capture (part.write (path.push name))
    if keywords.requires name then
      Emit.write ("\t" ++ identifier ++ " " ++ type ++ " `json:\"" ++ name ++ "\"`\n")
    else do
      requireOption env
      Emit.write
        ("\t" ++ identifier ++ " " ++ optional type ++ " `json:\"" ++ name ++ ",omitempty\"`\n")

/-- Writes an object with a field for each property. -/
def objectType (s : Schema) (parts : Parts) (path : Path) : Emit Unit := do
  let documented ← env.documentedFields path s
  Emit.write "struct \x7b\n"
  Emit.each (parts.sortedProperties.map fun (name, part) ↦
    fieldLine env s.keywords documented path name part)
  Emit.write "\x7d"

/-- Writes a list by the type of its items. -/
def listType (parts : Parts) (path : Path) : Emit Unit :=
  match parts.items with
  | none => do
    issue path .missingItems
    Emit.write (placeholder "array without items")
  | some part => do
    Emit.write "[]"
    Emit.write (← Emit.capture (part.write (path.push "_[]")))

/-- Writes a composition: an object in which every member is embedded. -/
def compositionType (parts : Parts) (path : Path) : Emit Unit := do
  Emit.write "struct \x7b\n"
  Emit.each (parts.allOf.mapIdx fun index part ↦ do
    let type ← Emit.capture (part.write (path.push ("_allOf[" ++ toString index ++ "]")))
    Emit.write ("\t" ++ type ++ "\n"))
  Emit.write "\x7d"

/-! ## Sets of constants -/

/-- The constant of a branch that has a value. -/
def constant (type : String) (keywords : Schema.Keywords) (value : Json) :
    Except Mismatch Constant := do
  let title ← if keywords.title.isVoid then pure value.display else keywords.title.textOr "lower"
  let name := Text.removeEnding type "s" ++ Identifier.ofConstant title
  let description ← keywords.description.textOr "strip"
  return ⟨name, value.write, Comment.prose name description ""⟩

/-- The constants of branches, numbered from `index`. A branch without a value is an issue. -/
def constants (type : String) (path : Path) (index : Nat) : List Schema → Emit (List Constant)
  | [] => return []
  | branch :: rest => do
    let branch ← Emit.lift (env.document.deref branch)
    match branch.keywords.const with
    | none => do
      issue path (.branchWithoutConst index)
      constants type path (index + 1) rest
    | some value => do
      let constant ← Emit.lift (constant type branch.keywords value)
      return constant :: (← constants type path (index + 1) rest)

/-- The name of a type that is declared for a path. -/
def declaredName (path : Path) : String :=
  if path.isRoot then Identifier.ofMixedCase path.current else path.exportedName

/-- Writes a set of constants over a base type. At the root the constants follow the type; elsewhere
type and constants are hoisted. -/
def constantSet (base : String) (branches : List Schema) (path : Path) : Emit Unit := do
  let name := declaredName path
  let block := constantBlock name (← constants env name path 0 branches)
  if path.isRoot then Emit.write (base ++ "\n\n" ++ block)
  else Emit.hoist name ("type " ++ name ++ " " ++ base ++ "\n\n" ++ block ++ "\n\n")

/-- Writes a text: a snowflake, a point in time, a set of constants or any text. -/
def textType (s : Schema) (path : Path) : Emit Unit :=
  match s.keywords.format with
  | .text "snowflake" => do
    Emit.each ((env.snowflakes.guessLog path).map fun record ↦ .tell (.note record))
    Emit.write (env.snowflakes.guess path)
  | .text "date-time" => do
    Emit.tell (.require (.text "time"))
    Emit.write "time.Time"
  | _ => if s.oneOf.isEmpty then Emit.write "string" else constantSet env "string" s.oneOf path

/-- The named type that an integer is composed of, if it is. -/
def integerName (s : Schema) : Except Mismatch String :=
  match s.allOf with
  | [member] => do
    if ← member.isSchemaReference then return env.typeName (← member.refName) else return ""
  | _ => .ok ""

/-- Writes an integer: a named type, the type of its format, or a set of constants over either. -/
def integerType (s : Schema) (path : Path) : Emit Unit := do
  let name ← Emit.lift (integerName env s)
  let isEnum ← Emit.lift
    (if name.isEmpty then env.options.isEnumName path.current else .ok false)
  Emit.whenever isEnum
    (Emit.note .warning .emission (path.text ++ " is an integer but should be an enum"))
  Emit.whenever (!name.isEmpty) (Emit.tell (.mention name))
  let base := if !name.isEmpty then .text name
    else if s.keywords.format.isVoid then .text "int"
    else s.keywords.format
  if s.oneOf.isEmpty then writeText base else constantSet env base.display s.oneOf path

/-! ## Unions -/

/-- The name of a branch of a union, given the names before it: that of the schema it refers to, or
the name of the union with that of its type or its number. -/
def variantName (union : String) (before : List String) (branch : Schema) :
    Except Mismatch String := do
  let numbered := union ++ toString before.length
  let name ← if ← branch.isSchemaReference then pure (env.typeName (← branch.refName))
    else match PrimaryType.ofTypes branch.types with
      | .ok type =>
        pure (if type.name.isEmpty then numbered else union ++ Identifier.ofSnakeCase type.name)
      | .error _ => pure numbered
  return if before.contains name then numbered else name

/-- The names of the branches of a union behind those named before. -/
def variantNamesAfter (union : String) (before : List String) :
    List Schema → Except Mismatch (List String)
  | [] => .ok before
  | branch :: rest => do
    let name ← variantName env union before branch
    variantNamesAfter union (before ++ [name]) rest

/-- The names of the branches of a union. -/
def variantNames (union : String) (branches : List Schema) : Except Mismatch (List String) :=
  variantNamesAfter env union [] branches

/-- Declares an inline variant of a union. A branch that refers to a schema is declared there. -/
def declareVariant (path : Path) (name : String) (part : Part) : Emit Unit := do
  if ← Emit.lift part.schema.isSchemaReference then return ()
  let body ← Emit.capture (part.write (path.push name))
  Emit.tell (.register name ("type " ++ name ++ " " ++ body ++ "\n\n"))

/-- A text without the line feeds at its end. -/
def trimFeeds (s : String) : String :=
  Text.onChars (fun cs ↦ (cs.reverse.dropWhile (· == '\n')).reverse) s

/-- Writes the block of a union and declares its inline variants. -/
def namedUnion (union : String) (branches : List Part) (path : Path) : Emit Unit := do
  Emit.note .debug .emission ("generating union " ++ path.text ++ " as " ++ union)
  let names ← Emit.lift (variantNames env union (branches.map Part.schema))
  Emit.write (trimFeeds (unionBlock union names) ++ "\n\n")
  Emit.each ((names.zip branches).map fun (name, part) ↦ declareVariant path name part)

/-- Writes alternatives: a pointer to the one beside null, or a union that is hoisted. -/
def unionType (nullable : Bool) (marker : String) (branches : List Part) (path : Path) :
    Emit Unit := do
  let beside ← Emit.lift (env.branchBesideNull (branches.map Part.schema))
  match beside.bind fun index ↦ branches[index]?.map fun part ↦ (index, part) with
  | some (index, part) => do
    let step := marker ++ "[" ++ toString index ++ "]"
    -- Null is allowed already: by the other branch, or by the pointer that the node has written.
    let type := Text.removeBeginning (← Emit.capture (part.write (path.push step))) "*"
    Emit.write (if nullable then type else "*" ++ type)
  | none => do
    let name := path.exportedName
    Emit.hoist name (← Emit.capture (namedUnion env name branches path))

/-! ## Nodes -/

/-- Writes a node without a declared type: a combinator, an object, or something unknown. -/
def untypedType (s : Schema) (parts : Parts) (path : Path) : Emit Unit :=
  if !parts.allOf.isEmpty then compositionType parts path
  else if !parts.oneOf.isEmpty then unionType env s.keywords.nullable "_oneOf" parts.oneOf path
  else if !parts.anyOf.isEmpty then unionType env s.keywords.nullable "_anyOf" parts.anyOf path
  else if s.negated.isSome then do
    issue path .negation
    Emit.write (placeholder "not")
  else if !parts.properties.isEmpty then objectType env s parts path
  else unknown s.types path

/-- Writes a node of a given kind. -/
def kindType (kind : Option PrimitiveKind) (s : Schema) (parts : Parts) (path : Path) : Emit Unit :=
  match kind with
  | some .object => objectType env s parts path
  | some .array => listType parts path
  | some .string => textType env s path
  | some .integer => integerType env s path
  | some .number => do Emit.write (← Emit.lift (numberType s.keywords.format))
  | some .boolean => Emit.write "bool"
  | some .null => do
    requireOption env
    Emit.write "option.Null"
  | some .untyped => untypedType env s parts path
  | none => unknown s.types path

/-- Writes a node, with a pointer in front if null is allowed. -/
def nodeType (s : Schema) (parts : Parts) (path : Path) : Emit Unit :=
  match PrimaryType.ofTypes s.types with
  | .error e => do
    issue path (.invalidTypes e)
    Emit.write (placeholder ("invalid type " ++ Text.quotedList s.types))
  | .ok type => do
    Emit.whenever (type.nullable || s.keywords.nullable) (Emit.write "*")
    kindType env type.kind s parts path

/-- Notes that the part at a path is being written. -/
def noteStart (path : Path) : Emit Unit :=
  Emit.note .debug .emission ("generating " ++ path.text)

/-- Writes a schema below another one: a reference by name, anything else by `body`. -/
def partType (s : Schema) (body : Path → Emit Unit) (path : Path) : Emit Unit := do
  noteStart path
  match s.ref with
  | some ref => referenceType env s ref path
  | none => body path

/-- A schema below another one, with what writes it. -/
def part (s : Schema) (body : Path → Emit Unit) : Part := ⟨s, partType env s body⟩

end TypeExpression

namespace Schema

open TypeExpression

variable (env : Environment)

mutual

/-- Writes a node that is taken for what it says itself, not for what it refers to. -/
def emit : Schema → Path → Emit Unit
  | .node keywords properties items allOf oneOf anyOf negated =>
    nodeType env (.node keywords properties items allOf oneOf anyOf negated) {
      properties := namedParts properties
      items := optionalPart items
      allOf := branchParts allOf
      oneOf := branchParts oneOf
      anyOf := branchParts anyOf }

/-- The properties of a node, each with what writes it. -/
def namedParts : List (String × Schema) → List (String × Part)
  | [] => []
  | (name, s) :: rest => (name, part env s (emit s)) :: namedParts rest

/-- The schema of the items of a node, with what writes it. -/
def optionalPart : Option Schema → Option Part
  | none => none
  | some s => some (part env s (emit s))

/-- The branches of a combinator, each with what writes it. -/
def branchParts : List Schema → List Part
  | [] => []
  | s :: rest => part env s (emit s) :: branchParts rest

end

theorem namedParts_eq_map (properties : List (String × Schema)) :
    namedParts env properties =
      properties.map fun (name, s) ↦ (name, part env s (emit env s)) := by
  induction properties with
  | nil => rw [namedParts, List.map_nil]
  | cons p rest ih => rw [namedParts, ih, List.map_cons]

theorem optionalPart_eq_map (s : Option Schema) :
    optionalPart env s = s.map fun s ↦ part env s (emit env s) := by
  cases s <;> rw [optionalPart] <;> rfl

theorem branchParts_eq_map (branches : List Schema) :
    branchParts env branches = branches.map fun s ↦ part env s (emit env s) := by
  induction branches with
  | nil => rw [branchParts, List.map_nil]
  | cons s rest ih => rw [branchParts, ih, List.map_cons]

/-- The schemas below a node, with what writes them. -/
def parts (s : Schema) : Parts where
  properties := namedParts env s.properties
  items := optionalPart env s.items
  allOf := branchParts env s.allOf
  oneOf := branchParts env s.oneOf
  anyOf := branchParts env s.anyOf

/-- A node is written from its own keywords and from its parts. -/
theorem emit_eq (s : Schema) : emit env s = nodeType env s (s.parts env) := by
  cases s
  rw [emit]
  rfl

/-- Writes a schema below another one. -/
def emitPart (s : Schema) : Path → Emit Unit := partType env s (emit env s)

/-- Writes the schema at a root. A reference is followed one step, and what it leads to is taken for
what it says itself. -/
def emitRoot (s : Schema) (path : Path) : Emit Unit := do
  noteStart path
  match s.ref with
  | none => emit env s path
  | some ref => do
    match ← Emit.lift (env.document.resolve ref) with
    | some target => emit env target path
    | none => do
      Environment.issue path (.unknownReference ref)
      Emit.write (Declaration.placeholder ref.display)

/-- The type of the schema at the end of a path. A reference is followed at a root, and stands for a
name below it. -/
def emitAt (s : Schema) (path : Path) : Emit String :=
  Emit.capture (if path.isRoot then emitRoot env s path else emitPart env s path)

/-- Writes the declaration of a schema of the document. A tagged union is declared by its own block,
also through references; any other schema is a named type. -/
def emitNamed (name : String) (s : Schema) : Emit Unit := do
  let path := Path.ofRoot name
  let identifier := Identifier.ofMixedCase name
  let isAlias ← Emit.lift s.isSchemaReference
  let node ← Emit.lift (if isAlias then env.document.deref s else .ok s)
  match ← Emit.lift (env.unionBranches node) with
  | some branches => namedUnion env identifier (branchParts env branches) path
  | none => do
    Emit.write ("type " ++ identifier ++ " ")
    emitRoot env s path
    Emit.write "\n\n"

end Schema

end SchemaTypes
