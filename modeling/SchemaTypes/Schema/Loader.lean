import SchemaTypes.Json.Literal
import SchemaTypes.Schema.Document

/-!
# Reading a document

Schemas are read from decoded JSON and numbered in the order in which they are met: a node before
the schemas below it, and those in the order properties, items, `allOf`, `oneOf`, `anyOf`, `not`,
whatever the order of the keywords in the text. Only the keywords that matter for declarations are
read.

A nullable flag beside declared types becomes one more declared type, so that the two spellings of
nullability lead to one tree. Without declared types the flag stays on the node.
-/

namespace SchemaTypes

/-- Why a document cannot be read. -/
inductive LoadError where
  /-- There is no catalogue of schemas. -/
  | noSchemas
  /-- A schema is neither an object nor a truth value. -/
  | notObject (location : String) (value : Json)
  /-- The branches of a combinator are no list. -/
  | notList (location : String)
  /-- The declared type is neither a text nor a list of texts. -/
  | badType (location : String)
  /-- A value that is not checked has an unexpected type. -/
  | mismatch (cause : Mismatch)

/-- The words in which a failure to read is reported. -/
def LoadError.message : LoadError → String
  | noSchemas => "document has no components.schemas section"
  | notObject location value =>
    (if location.isEmpty then "schema" else location) ++ " is not an object: " ++ value.literal
  | notList location => location ++ " is not a list"
  | badType location => location ++ "/type must be a string or a list of strings"
  | mismatch cause => cause.message

namespace Schema

/-- Reading in a document: it fails, or hands on the number of the next node. -/
abbrev Reader := StateT Nat (Except LoadError)

/-- The number of the next node. -/
def Reader.next : Reader Nat := fun n ↦ .ok (n, n + 1)

/-- Texts that are all that a list holds. -/
def textItems : List Json → Option (List String)
  | [] => some []
  | .text s :: rest => (textItems rest).map (s :: ·)
  | _ :: _ => none

/-- The types written under the keyword `type`. -/
def declaredTypes (members : List (String × Json)) (location : String) :
    Except LoadError (List String) :=
  match members.lookup "type" with
  | none => .ok []
  | some .null => .ok []
  | some (.text s) => .ok [s]
  | some (.list items) =>
    match textItems items with
    | some types => .ok types
    | none => .error (.badType location)
  | some _ => .error (.badType location)

/-- Whether the nullable flag is set. -/
def nullableFlag (members : List (String × Json)) : Bool :=
  match members.lookup "nullable" with
  | some (.bool b) => b
  | _ => false

/-- Declared types with null among them where the flag asks for it. -/
def withNull (nullable : Bool) (types : List String) : List String :=
  if nullable && !types.isEmpty && !types.contains "null" then types ++ ["null"] else types

/-- A value that is only kept when it says something. -/
def meaningful (members : List (String × Json)) (key : String) : Json :=
  match members.lookup key with
  | some value => if value.isVoid then .text "" else value
  | none => .text ""

/-- The elements listed under `required`. -/
def requiredNames (members : List (String × Json)) : Except LoadError (List Json) :=
  match members.lookup "required" with
  | none => .ok []
  | some value => if value.isVoid then .ok [] else value.elements.mapError .mismatch

/-- The keywords of a schema object that is no reference. -/
def Keywords.read (members : List (String × Json)) (location : String) : Reader Keywords := do
  let line ← Reader.next
  let declared ← declaredTypes members location
  let types := withNull (nullableFlag members) declared
  let required ← requiredNames members
  return {
    line
    ref := none
    types
    nullable := nullableFlag members && types.isEmpty
    required
    format := meaningful members "format"
    title := meaningful members "title"
    description := meaningful members "description"
    const := members.lookup "const" }

mutual

/-- Reads a schema; `location` tells where it stands. -/
def read (value : Json) (location : String) : Reader Schema :=
  match value with
  | .bool _ => return leaf (.blank (← Reader.next))
  | .object members =>
    -- A reference says nothing else: what stands beside it is not read.
    match members.lookup "$ref" with
    | some .null => return leaf (.blank (← Reader.next))
    | some ref => return reference ref (← Reader.next)
    | none => do
      let keywords ← Keywords.read members location
      -- Each part is a reader in brackets, so that what follows is not written out for every case.
      let properties ← (match _h : members.lookup "properties" with
        | some (.object named) => readProperties named location
        | some value =>
          if value.isVoid then pure [] else throw (.mismatch (.lacks value.kind "items"))
        | none => pure [] : Reader (List (String × Schema)))
      let items ← (match _h : members.lookup "items" with
        | some value => some <$> read value (location ++ "/items")
        | none => pure none : Reader (Option Schema))
      let allOf ← (match _h : members.lookup "allOf" with
        | some (.list branches) => readBranches branches (location ++ "/allOf") 0
        | some value => if value.isVoid then pure [] else throw (.notList (location ++ "/allOf"))
        | none => pure [] : Reader (List Schema))
      let oneOf ← (match _h : members.lookup "oneOf" with
        | some (.list branches) => readBranches branches (location ++ "/oneOf") 0
        | some value => if value.isVoid then pure [] else throw (.notList (location ++ "/oneOf"))
        | none => pure [] : Reader (List Schema))
      let anyOf ← (match _h : members.lookup "anyOf" with
        | some (.list branches) => readBranches branches (location ++ "/anyOf") 0
        | some value => if value.isVoid then pure [] else throw (.notList (location ++ "/anyOf"))
        | none => pure [] : Reader (List Schema))
      let negated ← (match _h : members.lookup "not" with
        | some value => some <$> read value (location ++ "/not")
        | none => pure none : Reader (Option Schema))
      return .node keywords properties items allOf oneOf anyOf negated
  | value => throw (.notObject location value)
termination_by sizeOf value
decreasing_by
  all_goals
    have := Json.sizeOf_lt_of_lookup _h
    simp at this ⊢
    omega

/-- Reads the properties of an object. -/
def readProperties (members : List (String × Json)) (location : String) :
    Reader (List (String × Schema)) :=
  match members with
  | [] => pure []
  | (name, value) :: rest => do
    let schema ← read value (location ++ "/properties/" ++ name)
    return (name, schema) :: (← readProperties rest location)
termination_by sizeOf members

/-- Reads the branches of a combinator from the one with the given number on. -/
def readBranches (values : List Json) (location : String) (index : Nat) : Reader (List Schema) :=
  match values with
  | [] => pure []
  | value :: rest => do
    let schema ← read value (location ++ "/" ++ toString index)
    return schema :: (← readBranches rest location (index + 1))
termination_by sizeOf values

end

end Schema

namespace Document

/-- Reads the schemas of a catalogue. -/
def readSchemas (location : String) : List (String × Json) → Schema.Reader (List (String × Schema))
  | [] => pure []
  | (name, value) :: rest => do
    let schema ← Schema.read value (location ++ "/" ++ name)
    return (name, schema) :: (← readSchemas location rest)

/-- A member of an object, where a void one stands for an empty object. -/
def memberOf (value : Json) (key : String) : Except Mismatch Json := do
  match (← value.members "get").lookup key with
  | some member => return if member.isVoid then .object [] else member
  | none => return .object []

/-- The schema of the body of a response. -/
def responseSchema (response : Json) : Except Mismatch Json := do
  let content ← memberOf response "content"
  let media ← memberOf content "application/json"
  memberOf media "schema"

/-- Reads the body schemas of a catalogue of responses. -/
def readResponses : List (String × Json) → Schema.Reader (List (String × Schema))
  | [] => pure []
  | (name, response) :: rest => do
    let value ← (responseSchema response).mapError LoadError.mismatch
    let schema ← Schema.read value (responsesNamespace ++ "/" ++ name)
    return (name, schema) :: (← readResponses rest)

/-- The catalogues of a document: members of its schemas, and the value of its responses. -/
def catalogues (value : Json) : Except LoadError (List (String × Json) × Json) := do
  let members ← (value.members "get").mapError LoadError.mismatch
  match members.lookup "components" with
  | some (.object components) =>
    match components.lookup "schemas" with
    | some (.object schemas) =>
      let responses := (components.lookup "responses").getD (.object [])
      return (schemas, if responses.isVoid then .object [] else responses)
    | _ => throw .noSchemas
  | _ => throw .noSchemas

/-- Reads both catalogues of a document, numbering nodes from one. -/
def reader (value : Json) : Schema.Reader Document := do
  let (schemas, responses) ← catalogues value
  let schemas ← readSchemas schemasNamespace schemas
  let responses ← (responses.members "items").mapError LoadError.mismatch
  return { schemas, responses := ← readResponses responses }

/-- Reads a document. -/
def load (value : Json) : Except LoadError Document := (reader value).run' 1

end Document

end SchemaTypes
