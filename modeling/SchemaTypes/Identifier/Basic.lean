import SchemaTypes.Identifier.Initialism
import SchemaTypes.Identifier.Word
import SchemaTypes.Text.Affix
import SchemaTypes.Text.Letter

/-!
# Exported identifiers

Names of schemas, properties and constants become exported identifiers: every word begins with a
capital, initialisms and special words keep their spelling, and all else is dropped. A name in
snake case and a name in mixed case differ in how they are prepared, not in how they are joined.
-/

namespace SchemaTypes.Identifier

/-- The form of a word inside an identifier. -/
def spell (w : List Char) : List Char :=
  let capitals := w.map Char.toUpper
  match specialWords.lookup capitals with
  | some spelling => spelling
  | none =>
    if initialisms.contains capitals then capitals
    else (w.take 1).map Char.toUpper ++ (w.drop 1).map Char.toLower

/-- The words of a text, spelled and joined. -/
def join (cs : List Char) : List Char := (words cs).flatMap spell

/-- Drops the brackets, hyphens and blanks of a schema name; what they separate grows together. -/
def stripMarks (cs : List Char) : List Char :=
  cs.filter fun c ↦ !(c == '[' || c == ']' || c == '-' || c == ' ')

/-- Identifier for the characters of a name in snake case. -/
def snakeChars (cs : List Char) : List Char :=
  join ((stripMarks cs).map fun c ↦ if c == '_' then ' ' else c)

/-- Identifier for the characters of a name in mixed case. -/
def mixedChars (cs : List Char) : List Char := join (stripMarks cs)

/-- A name without brackets, hyphens and blanks. -/
def withoutMarks (name : String) : String := Text.onChars stripMarks name

/-- Identifier for a name in snake case, such as `AuthorID` for `author_id`. -/
def ofSnakeCase (name : String) : String := Text.onChars snakeChars name

/-- Identifier for a name in mixed case, such as `UserID` for `UserId`. -/
def ofMixedCase (name : String) : String := Text.onChars mixedChars name

/-- Identifier for the title of a constant, such as `GuildText` for `GUILD_TEXT`. -/
def ofConstant (title : String) : String :=
  Text.onChars (fun cs ↦ snakeChars (Text.lower cs)) title

/-- Whether the first letter of a name, of whatever script, is a capital. -/
def isExported (name : String) : Bool :=
  match name.toList.find? Text.isLetter with
  | some c => Text.isUpper c
  | none => false

/-- Whether a name is synthetic and stays out of identifiers. -/
def isPrivate (name : String) : Bool :=
  match name.toList with
  | [] => true
  | c :: _ => c == '_'

end SchemaTypes.Identifier
