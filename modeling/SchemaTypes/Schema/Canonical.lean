import SchemaTypes.Json.Writer
import SchemaTypes.Schema.Basic
import SchemaTypes.Text.Digest

/-!
# The shape of a schema

A schema tree is written back as JSON, without positions. Its canonical text identifies the shape,
and the digest of that text is a short name for it.
-/

namespace SchemaTypes.Schema

/-- A keyword that is written only when it says something. -/
def member (key : String) (value : Json) : List (String × Json) :=
  if value.isVoid then [] else [(key, value)]

/-- A list of texts as a value. -/
def textList (texts : List String) : Json := .list (texts.map Json.text)

mutual

/-- A schema tree as JSON. -/
def toJson : Schema → Json
  | .node k properties items allOf oneOf anyOf negated =>
    .object (
      (match k.ref with
        | some ref => [("$ref", ref)]
        | none => []) ++
      member "type" (textList k.types) ++
      member "nullable" (.bool k.nullable) ++
      member "properties" (.object (propertiesToJson properties)) ++
      member "required" (.list k.required) ++
      partToJson "items" items ++
      member "allOf" (.list (branchesToJson allOf)) ++
      member "oneOf" (.list (branchesToJson oneOf)) ++
      member "anyOf" (.list (branchesToJson anyOf)) ++
      partToJson "not" negated ++
      member "format" k.format ++
      member "title" k.title ++
      member "description" k.description ++
      (match k.const with
        | some value => [("const", value)]
        | none => []))

/-- Branches of a combinator as JSON. -/
def branchesToJson : List Schema → List Json
  | [] => []
  | s :: rest => toJson s :: branchesToJson rest

/-- Properties as JSON members. -/
def propertiesToJson : List (String × Schema) → List (String × Json)
  | [] => []
  | (name, s) :: rest => (name, toJson s) :: propertiesToJson rest

/-- A single schema below a node as a JSON member. -/
def partToJson (key : String) : Option Schema → List (String × Json)
  | none => []
  | some s => [(key, toJson s)]

end

/-- The text that two schemas share when they have the same shape. -/
def canonicalText (s : Schema) : String := s.toJson.canonicalText

/-- The digest of the canonical text. -/
def shapeDigest (s : Schema) : String := Text.digest s.canonicalText

end SchemaTypes.Schema
