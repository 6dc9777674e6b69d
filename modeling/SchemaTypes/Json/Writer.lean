import SchemaTypes.Json.Basic
import SchemaTypes.Number.Shortest
import SchemaTypes.Text.Hex
import SchemaTypes.Text.Order

/-!
# Writing JSON text

A value on one line, with a blank behind every comma and colon and every character outside the
printable ASCII range escaped. The canonical form has its object members in the order of their
keys, so that two values that differ only in that order have one text.
-/

namespace SchemaTypes.Json

/-- A code unit as an escape. -/
def unitEscape (unit : Nat) : List Char := '\\' :: 'u' :: Text.hex 4 unit

/-- A character inside a string; beyond the basic plane it is a pair of surrogates. -/
def stringChar (c : Char) : List Char :=
  if c == '"' then ['\\', '"']
  else if c == '\\' then ['\\', '\\']
  else if c == '\n' then ['\\', 'n']
  else if c == '\r' then ['\\', 'r']
  else if c == '\t' then ['\\', 't']
  else if c == '\x0c' then ['\\', 'f']
  else if c == '\x08' then ['\\', 'b']
  else if ' ' ≤ c ∧ c ≤ '~' then [c]
  else if c.toNat < 0x10000 then unitEscape c.toNat
  else
    let offset := c.toNat - 0x10000
    unitEscape (0xD800 + offset / 0x400) ++ unitEscape (0xDC00 + offset % 0x400)

/-- A string between its quotes. -/
def stringText (s : String) : List Char := '"' :: s.toList.flatMap stringChar ++ ['"']

/-- Texts with a comma and a blank between them. -/
def commaSeparated (texts : List (List Char)) : List Char := [',', ' '].intercalate texts

mutual

/-- Text of a value; `canonical` puts the members of objects in the order of their keys. -/
def chars (canonical : Bool) : Json → List Char
  | null => "null".toList
  | bool b => if b then "true".toList else "false".toList
  | int n => (toString n).toList
  | real x => (x.text "Infinity" "NaN").toList
  | text s => stringText s
  | list items => '[' :: commaSeparated (itemChars canonical items) ++ [']']
  | object members =>
    let texts := memberChars canonical members
    let ordered := if canonical then Text.sortByName texts else texts
    '{' :: commaSeparated (ordered.map fun (key, value) ↦ stringText key ++ ':' :: ' ' :: value) ++
      ['}']

/-- Texts of the items of a list. -/
def itemChars (canonical : Bool) : List Json → List (List Char)
  | [] => []
  | item :: rest => chars canonical item :: itemChars canonical rest

/-- Texts of the members of an object, with their keys. -/
def memberChars (canonical : Bool) : List (String × Json) → List (String × List Char)
  | [] => []
  | (key, value) :: rest => (key, chars canonical value) :: memberChars canonical rest

end

/-- Text of a value, object members in the order in which they are kept. -/
def write (value : Json) : String := String.ofList (value.chars false)

/-- Text of a value that does not depend on the order of object members. -/
def canonicalText (value : Json) : String := String.ofList (value.chars true)

end SchemaTypes.Json
