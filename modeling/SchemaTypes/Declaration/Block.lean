import SchemaTypes.Comment

/-!
# Blocks of fixed shape

The parts of a file that are written from a pattern: the head of the file, a tagged union with its
variants, and a set of constants. Values are put in as they are; what is written is only as well
formed as they are.
-/

namespace SchemaTypes.Declaration

/-- The head of a file: a remark on its origin, its package and the packages it needs. -/
def fileHead (package : String) (imports : List String) (remark : String) : String :=
  (if remark.isEmpty then "" else remark ++ "\n\n") ++
    "package " ++ package ++ "\n" ++
    if imports.isEmpty then ""
    else "\nimport (\n" ++ String.join (imports.map fun path ↦ "\t\"" ++ path ++ "\"\n") ++ ")\n"

/-- A tagged union: an interface with one marker method, and that method for every variant. -/
def unionBlock (name : String) (variants : List String) : String :=
  "// " ++ name ++ " is a union of the following types:\n" ++
    String.join (variants.map fun v ↦ "//   - [" ++ v ++ "]\n") ++
    "type " ++ name ++ " interface \x7b\n\tis" ++ name ++ "()\n\x7d\n\n" ++
    String.join (variants.map fun v ↦ "func (" ++ v ++ ") is" ++ name ++ "() \x7b\x7d\n")

/-- A constant of a set: its name, its value as it is written, and the sentence about it. -/
structure Constant where
  name : String
  value : String
  comment : String
deriving DecidableEq, Repr

/-- The lines of a constant in a set of the given type. -/
def constantLines (type : String) (c : Constant) : String :=
  Comment.partComment c.comment ++ "\t" ++ c.name ++ " " ++ type ++ " = " ++ c.value ++ "\n"

/-- A set of constants of one type. -/
def constantBlock (type : String) (constants : List Constant) : String :=
  "const (\n" ++ String.join (constants.map (constantLines type)) ++ ")"

/-- An empty type that carries a remark, written where no type can be. -/
def placeholder (remark : String) : String := "struct\x7b /* " ++ remark ++ " */ \x7d"

end SchemaTypes.Declaration
