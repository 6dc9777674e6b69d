import SchemaTypes.Text.Hex
import SchemaTypes.Text.PrintableTable

/-!
# Quoted text

How messages show a text: between single quotes, or between double quotes when that avoids an
escape, with a backslash before the quote in use and before itself. Characters that cannot be
shown are written by their code point in two, four or eight hexadecimal digits.
-/

namespace SchemaTypes.Text

/-- The quote put around a text: a double quote only for a text that has single quotes alone. -/
def quoteFor (cs : List Char) : Char :=
  if cs.contains '\'' && !cs.contains '"' then '"' else '\''

/-- Written form of one character between the given quotes. -/
def quotedChar (quote c : Char) : List Char :=
  if c == quote || c == '\\' then ['\\', c]
  else if c == '\n' then ['\\', 'n']
  else if c == '\r' then ['\\', 'r']
  else if c == '\t' then ['\\', 't']
  else if inRanges printableRanges c.toNat then [c]
  else if c.toNat < 0x100 then '\\' :: 'x' :: hex 2 c.toNat
  else if c.toNat < 0x10000 then '\\' :: 'u' :: hex 4 c.toNat
  else '\\' :: 'U' :: hex 8 c.toNat

/-- A text between quotes. -/
def quoted (s : String) : String :=
  let quote := quoteFor s.toList
  String.ofList (quote :: s.toList.flatMap (quotedChar quote) ++ [quote])

end SchemaTypes.Text
