import SchemaTypes.Json.Basic
import SchemaTypes.Number.Shortest
import SchemaTypes.Text.Quoted

/-!
# Values in messages

Messages show a value as a literal: texts quoted, `None`, `True` and `False` for the constants,
lists and objects in brackets. On its own a text is shown without quotes.
-/

namespace SchemaTypes.Json

mutual

/-- A value as a literal. -/
def literal : Json → String
  | null => "None"
  | bool b => if b then "True" else "False"
  | int n => toString n
  | real x => x.text "inf" "nan"
  | text s => Text.quoted s
  | list items => "[" ++ ", ".intercalate (itemLiterals items) ++ "]"
  | object members => "\x7b" ++ ", ".intercalate (memberLiterals members) ++ "\x7d"

/-- Literals of the items of a list. -/
def itemLiterals : List Json → List String
  | [] => []
  | item :: rest => literal item :: itemLiterals rest

/-- Literals of the members of an object. -/
def memberLiterals : List (String × Json) → List String
  | [] => []
  | (key, value) :: rest => (Text.quoted key ++ ": " ++ literal value) :: memberLiterals rest

end

/-- A value as it is shown on its own: a text as it is, anything else as a literal. -/
def display : Json → String
  | text s => s
  | value => value.literal

end SchemaTypes.Json

namespace SchemaTypes.Text

/-- A list of texts as a literal. -/
def quotedList (texts : List String) : String :=
  "[" ++ ", ".intercalate (texts.map quoted) ++ "]"

end SchemaTypes.Text
