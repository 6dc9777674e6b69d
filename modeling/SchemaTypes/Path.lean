import SchemaTypes.Identifier.Basic
import SchemaTypes.Text.Quoted

/-!
# Paths into a document

A path names a schema and the steps from it down to one of its parts: property names, and synthetic
steps for list items, branches and members of a composition. A synthetic step begins with an
underscore and never shows in an identifier.

The steps below the root are kept innermost first, so that a path grows and loses steps at the head
of a list. The root is apart because it is never lost.
-/

namespace SchemaTypes

/-- A schema name and the steps below it, innermost first. -/
structure Path where
  root : String
  inner : List String
deriving DecidableEq, Repr

namespace Path

/-- The path that consists of a schema name. -/
def ofRoot (name : String) : Path := ⟨name, []⟩

/-- The path one step further down. -/
def push (p : Path) (name : String) : Path := { p with inner := name :: p.inner }

/-- All names of a path, outermost first. -/
def names (p : Path) : List String := p.root :: p.inner.reverse

/-- The path with the given names. -/
def ofNames (root : String) (rest : List String) : Path := ⟨root, rest.reverse⟩

/-- The dotted form of a path. -/
def text (p : Path) : String := ".".intercalate p.names

def isRoot (p : Path) : Bool := p.inner.isEmpty

/-- Number of names on a path. -/
def depth (p : Path) : Nat := p.inner.length + 1

/-- The innermost name. -/
def current (p : Path) : String := p.inner.head?.getD p.root

/-- The path without its innermost name. -/
def parent? (p : Path) : Option Path :=
  match p.inner with
  | [] => none
  | _ :: outer => some { p with inner := outer }

/-- Drops synthetic steps from the inner end. The root stays, whatever its name. -/
def popPrivate (p : Path) : Path := { p with inner := p.inner.dropWhile Identifier.isPrivate }

/-- Whether the innermost name that is not synthetic is already exported. -/
def currentIsExported (p : Path) : Bool := Identifier.isExported p.popPrivate.current

/-- Identifier of a type that is declared on its own for this path: an exported innermost name is
used alone, otherwise every name that is not synthetic contributes. -/
def exportedName (p : Path) : String :=
  if p.currentIsExported then Identifier.ofMixedCase p.popPrivate.current
  else String.join
    ((p.names.filter fun name ↦ !Identifier.isPrivate name).map Identifier.ofSnakeCase)

@[simp] theorem names_push (p : Path) (name : String) :
    (p.push name).names = p.names ++ [name] := by
  simp [names, push]

@[simp] theorem names_ofNames (root : String) (rest : List String) :
    (ofNames root rest).names = root :: rest := by
  simp [names, ofNames]

@[simp] theorem parent?_push (p : Path) (name : String) : (p.push name).parent? = some p := rfl

theorem parent?_eq_none_iff (p : Path) : p.parent? = none ↔ p.isRoot = true := by
  cases p with
  | mk root inner => cases inner <;> simp [parent?, isRoot]

end Path

end SchemaTypes
