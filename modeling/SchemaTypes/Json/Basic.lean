import SchemaTypes.Entries
import SchemaTypes.Number.Binary64

/-!
# JSON values

The values a document, a configuration or a table file is made of. Objects keep the order in which
their members were written, because the order of schemas and of properties is part of a document.
-/

namespace SchemaTypes

/-- A JSON value. Integers have any size; a number with a point or an exponent is a `Binary64`. -/
inductive Json where
  | null
  | bool (value : Bool)
  | int (value : Int)
  | real (value : Number.Binary64)
  | text (value : String)
  | list (items : List Json)
  | object (members : List (String × Json))
deriving Inhabited

namespace Json

/-- Whether a value counts as absent: null, false, a zero, or a text, list or object with nothing in
it. -/
def isVoid : Json → Bool
  | null => true
  | bool b => !b
  | int n => n == 0
  | real x => x.isZero
  | text s => s.isEmpty
  | list items => items.isEmpty
  | object members => members.isEmpty

/-- An object from members in writing order: of members with one key the last value counts, at the
place of the first. -/
def ofMembers (members : List (String × Json)) : Json := object (Entries.ofList members)

/-- What is found under a key is smaller than the members it was sought in. -/
theorem sizeOf_lt_of_lookup {key : String} {value : Json} {members : List (String × Json)}
    (h : members.lookup key = some value) : sizeOf value < sizeOf members := by
  have := List.sizeOf_lt_of_mem (Entries.mem_of_lookup h)
  simp at this
  omega

end Json

end SchemaTypes
