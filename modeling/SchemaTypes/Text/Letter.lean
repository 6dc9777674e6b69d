import SchemaTypes.Text.LetterTable
import SchemaTypes.Text.CaseTable

/-!
# Letters and letter case

Classes of characters over all scripts, and lower-casing. A capital sigma at the end of a word
becomes the final form, so lower-casing looks at the whole text and not at one character.
-/

namespace SchemaTypes.Text

/-- Whether a character is a letter. -/
def isLetter (c : Char) : Bool := inRanges letterRanges c.toNat

/-- Whether a character is a decimal digit. -/
def isDecimal (c : Char) : Bool := inRanges decimalRanges c.toNat

/-- The first code point of the range in which `n` lies. -/
def rangeStart : List CodeRange → Nat → Option Nat
  | [], _ => none
  | (lo, hi) :: rest, n => if lo ≤ n ∧ n ≤ hi then some lo else rangeStart rest n

/-- Value of a decimal digit. The digits of a script follow each other from zero to nine. -/
def decimalValue? (c : Char) : Option Nat :=
  (rangeStart decimalRanges c.toNat).map fun start ↦ (c.toNat - start) % 10

/-- Whether a character can stand inside a word: a letter, a numeral or an underscore. -/
def isWordChar (c : Char) : Bool := c == '_' || isLetter c || inRanges numeralRanges c.toNat

/-- Whether a character is a capital. -/
def isUpper (c : Char) : Bool := inRuns upperRuns c.toNat

/-- Lower-case form of a single character, taken on its own. -/
def lowerChar (c : Char) : List Char :=
  -- The one capital whose lower-case form is two characters, an `i` and a dot above.
  if c == '\u0130' then ['i', '\u0307']
  else match runOffset lowerRuns c.toNat with
    | some offset => [Char.ofNat (c.toNat + offset).toNat]
    | none => [c]

/-- Whether the first character that is not looked through is a letter with case. -/
def meetsCased (cs : List Char) : Bool :=
  match cs.dropWhile fun c ↦ inRanges ignorableRanges c.toNat with
  | c :: _ => inRanges casedRanges c.toNat
  | [] => false

/-- Lower case of a text that follows `before`, which is given last character first. -/
def lowerAfter : List Char → List Char → List Char
  | _, [] => []
  | before, c :: rest =>
    (if c == '\u03a3' && meetsCased before && !meetsCased rest then ['\u03c2'] else lowerChar c) ++
      lowerAfter (c :: before) rest

/-- Lower case of a text. -/
def lower (cs : List Char) : List Char := lowerAfter [] cs

end SchemaTypes.Text
