import SchemaTypes.Json.Mismatch
import SchemaTypes.Sorting

/-!
# Schema nodes

A document is read into trees of schema nodes. A node holds its own keywords and the schemas below
it; a reference is a node that only names another one and is followed by `Document`.

Titles, descriptions, formats and references keep the JSON value they were written with: nothing
checks their type before they are used. A void value stands for a missing one.
-/

namespace SchemaTypes

/-- The keywords of a schema node that hold no schema themselves. -/
structure Schema.Keywords where
  /-- Position of the node in the document, counted from one. -/
  line : Nat
  /-- What the node refers to, if it is a reference. -/
  ref : Option Json
  /-- The declared types. -/
  types : List String
  /-- Null is allowed although no type is declared. -/
  nullable : Bool
  /-- The names of required properties. -/
  required : List Json
  format : Json
  title : Json
  description : Json
  /-- The value of a constant. -/
  const : Option Json
deriving Inhabited

/-- A node of a schema tree. -/
inductive Schema where
  | node (keywords : Schema.Keywords) (properties : List (String × Schema))
      (items : Option Schema) (allOf oneOf anyOf : List Schema) (negated : Option Schema)

namespace Schema

/-- The keywords of a node that says nothing. -/
def Keywords.blank (line : Nat) : Keywords where
  line := line
  ref := none
  types := []
  nullable := false
  required := []
  format := .text ""
  title := .text ""
  description := .text ""
  const := none

/-- A node without schemas below it. -/
def leaf (keywords : Keywords) : Schema := .node keywords [] none [] [] [] none

instance : Inhabited Schema := ⟨leaf (.blank 0)⟩

/-- A reference to another node. -/
def reference (ref : Json) (line : Nat) : Schema :=
  leaf { Keywords.blank line with ref := some ref }

def keywords : Schema → Keywords
  | .node keywords .. => keywords

/-- Named parts of an object, in document order. -/
def properties : Schema → List (String × Schema)
  | .node _ properties .. => properties

/-- Schema of the items of a list. -/
def items : Schema → Option Schema
  | .node _ _ items .. => items

/-- Schemas that hold all at once. -/
def allOf : Schema → List Schema
  | .node _ _ _ allOf .. => allOf

/-- Schemas of which exactly one holds. -/
def oneOf : Schema → List Schema
  | .node _ _ _ _ oneOf .. => oneOf

/-- Schemas of which one or more hold. -/
def anyOf : Schema → List Schema
  | .node _ _ _ _ _ anyOf _ => anyOf

/-- Schema that must not hold. -/
def negated : Schema → Option Schema
  | .node _ _ _ _ _ _ negated => negated

def line (s : Schema) : Nat := s.keywords.line

def ref (s : Schema) : Option Json := s.keywords.ref

def types (s : Schema) : List String := s.keywords.types

/-- Whether a node names another one. -/
def isReference (s : Schema) : Bool := s.ref.isSome

/-- Whether a property name is among the required ones. -/
def Keywords.requires (k : Keywords) (name : String) : Bool :=
  k.required.any fun
    | .text s => s == name
    | _ => false

def requires (s : Schema) (name : String) : Bool := s.keywords.requires name

/-- Named parts in the order of their position, those at one position in document order. -/
def sortedProperties (s : Schema) : List (String × Schema) :=
  sorted (fun a b ↦ a.2.line ≤ b.2.line) s.properties

theorem sortedProperties_perm (s : Schema) : s.sortedProperties.Perm s.properties :=
  sorted_perm _ _

end Schema

end SchemaTypes
