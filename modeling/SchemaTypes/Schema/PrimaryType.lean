import SchemaTypes.Json.Literal

/-!
# The primary type of a node

A node declares at most one type besides null. Nullability is a property of that type and not a
branch of a union, so two declared types are accepted only when one of them is null.
-/

namespace SchemaTypes

/-- The primitive types that a schema can declare; `untyped` stands for no declaration. -/
inductive PrimitiveKind where
  | untyped | object | array | string | integer | number | boolean | null
deriving DecidableEq, Repr

/-- The kind with a given name in schemas. -/
def PrimitiveKind.ofName? : String → Option PrimitiveKind
  | "" => some untyped
  | "object" => some object
  | "array" => some array
  | "string" => some string
  | "integer" => some integer
  | "number" => some number
  | "boolean" => some boolean
  | "null" => some null
  | _ => none

/-- The one type of a node that is not null, and whether null is allowed beside it. -/
structure PrimaryType where
  name : String
  nullable : Bool
deriving DecidableEq, Repr

/-- The kind of a primary type; none for a name outside the known ones. -/
def PrimaryType.kind (t : PrimaryType) : Option PrimitiveKind := PrimitiveKind.ofName? t.name

/-- A list of declared types that has no primary type. -/
structure InvalidTypes where
  types : List String
deriving DecidableEq, Repr

/-- The words in which an invalid list of types is reported. -/
def InvalidTypes.message (e : InvalidTypes) : String :=
  "schema has more than one type: " ++ Text.quotedList e.types

/-- The primary type of a list of declared types. -/
def PrimaryType.ofTypes : List String → Except InvalidTypes PrimaryType
  | [] => .ok ⟨"", false⟩
  | [t] => .ok ⟨t, false⟩
  | [s, t] =>
    if s = "null" then .ok ⟨t, t != "null"⟩
    else if t = "null" then .ok ⟨s, true⟩
    else .error ⟨[s, t]⟩
  | types => .error ⟨types⟩

end SchemaTypes
