import SchemaTypes.DocTable.Basic
import SchemaTypes.Entries
import SchemaTypes.Text.EditDistance
import SchemaTypes.Text.Letter

/-!
# Likelihood of a match

How likely a documentation table describes an object: the names are compared by edit distance, and
the fields by how many names they share and how close the types of shared names are.

All arithmetic goes through a function `ρ` that says what is stored of an exact result. With the
identity the score is the exact one; a run stores 64-bit floating point numbers.
-/

namespace SchemaTypes.Likelihood

variable (ρ : Rat → Rat)

/-- The share of two texts that is equal, whatever the case of their letters: one for equal texts,
zero for texts without anything in common. -/
def similarity (a b : String) : Rat :=
  let a := Text.lower a.toList
  let b := Text.lower b.toList
  let longest := max a.length b.length
  if longest = 0 then 1 else ρ (1 - ρ ((Text.editDistanceChars a b : Rat) / longest))

/-- How likely two fields are the same one; fields of different names never are. -/
def field (a b : FieldInfo) : Rat :=
  if a.name = b.name then ρ (1 / 2 + ρ (similarity ρ a.type b.type / 2)) else 0

/-- Fields by name; of fields with one name the last one counts. -/
def fieldMap (fields : List FieldInfo) : List (String × FieldInfo) :=
  Entries.ofList (fields.map fun f ↦ (f.name, f))

/-- How likely the fields of one object have partners of the same name in the other: one number for
each pair. -/
def partners (a b : FieldTable) : List Rat :=
  a.fields.filterMap fun f ↦ ((fieldMap b.fields).lookup f.name).map (field ρ f)

/-- Sum of numbers, stored after each addition. -/
def total (xs : List Rat) : Rat := xs.foldl (fun sum x ↦ ρ (sum + x)) 0

/-- How likely two tables describe the same object. Names count four, fields nine. -/
def object (a b : FieldTable) : Rat :=
  let names := ρ (similarity ρ a.name b.name * 4)
  let fields := min a.fields.length b.fields.length
  let shared := partners ρ a b
  if fields = 0 ∨ shared.isEmpty then names
  else ρ (names + ρ (ρ (total ρ shared / fields) * 9))

end SchemaTypes.Likelihood
