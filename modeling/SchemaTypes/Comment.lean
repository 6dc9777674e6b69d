import SchemaTypes.Text.Affix
import SchemaTypes.Text.Lines
import SchemaTypes.Text.Wrap

/-!
# Documentation comments

A free description becomes a comment that begins with the name it documents. How name and
description are linked depends on the first word of the description: a verb follows the name at
once, anything else becomes a label's text. The comment is then set in lines of at most eighty
columns.
-/

namespace SchemaTypes.Comment

/-! ## Prose -/

/-- The first word of a text, if a blank follows it. -/
def firstWord (cs : List Char) : List Char :=
  if cs.contains ' ' then cs.takeWhile (· != ' ') else []

/-- The text behind the first blank. -/
def afterFirstWord (cs : List Char) : List Char := (cs.dropWhile (· != ' ')).drop 1

/-- The text with its first character in lower case. -/
def lowerFirst (cs : List Char) : List Char := Text.lower (cs.take 1) ++ cs.drop 1

/-- The text with its first character in lower case, unless a capital follows it. -/
def lowerUnlessAcronym (cs : List Char) : List Char :=
  match cs with
  | _ :: d :: _ => if Text.isUpper d then cs else lowerFirst cs
  | _ => lowerFirst cs

/-- Drops the article at the head of a text. -/
def dropArticle (cs : List Char) : List Char :=
  let first := Text.lower (firstWord cs)
  if first == ['a'] || first == ['a', 'n'] || first == ['t', 'h', 'e'] then afterFirstWord cs
  else cs

/-- How a name and its description are linked. -/
inductive Link where
  /-- The description is a verb phrase. -/
  | verb
  /-- The description is a participle. -/
  | participle
  /-- The description is a noun that needs an article. -/
  | noun
  /-- The description stands on its own behind the name. -/
  | label
deriving DecidableEq, Repr

/-- What stands between name and description. -/
def Link.separator : Link → String
  | verb => " "
  | participle => " is "
  | noun => " is the "
  | label => ": "

/-- The link for a description, by its first word: a known verb, the documented name itself, a
reference to a channel or tag, or a verb in the third person. -/
def link (subject description : List Char) : Link :=
  let first := firstWord description
  let lowered := Text.lower first
  if lowered == "is".toList || lowered == "will".toList then .verb
  else if lowered == "emitted".toList then .participle
  else if (!subject.isEmpty && subject.isSuffixOf first) ||
      (description.head? == some '#' && !(firstWord (afterFirstWord description)).isEmpty) then
    .noun
  else if lowered != "this".toList && first.getLast? == some 's' then .verb
  else .label

/-- The description in the form that the link asks for. -/
def linked (description : List Char) : Link → List Char
  | .label => lowerUnlessAcronym (Text.dropBeginning "this ".toList description)
  | _ => lowerFirst description

/-- Closes a sentence that has no full stop. -/
def addStop (cs : List Char) : List Char :=
  if cs.isEmpty || cs.getLast? == some '.' then cs else cs ++ ['.']

/-- Characters of the sentence that documents a name; a blank description gives none. -/
def proseChars (name description subject : List Char) : List Char :=
  let stripped := Text.strip description
  if stripped.isEmpty then []
  else
    let body := dropArticle stripped
    let link := link subject body
    addStop (name ++ link.separator.toList ++ linked body link)

/-- The sentence that documents `name`. `subject` is the name as the description knows it. -/
def prose (name description subject : String) : String :=
  String.ofList (proseChars name.toList description.toList subject.toList)

/-! ## Lines -/

/-- Columns of a comment line. -/
def columns : Nat := 80

/-- A comment that is indented so far that no column is left for its text. -/
structure NoRoom where
  /-- The columns left, none or fewer. -/
  width : Int
deriving DecidableEq, Repr

/-- The words in which a lack of room is reported. -/
def NoRoom.message (e : NoRoom) : String :=
  "invalid width " ++ toString e.width ++ " (must be > 0)"

/-- What stands at the head of every line of a comment. -/
def margin (indent : Nat) : List Char := List.replicate indent '\t' ++ ['/', '/', ' ']

/-- Columns left for the text of a comment, none or fewer if it is indented too far. -/
def room (indent : Nat) : Int := (columns : Int) - (margin indent).length

/-- Whether a paragraph is set anew; one without any text is kept as it is. -/
def isWrapped (wrap : Bool) (paragraph : List Char) : Bool :=
  wrap && !(Text.strip paragraph).isEmpty

/-- The lines of one paragraph. -/
def paragraphLines (indent : Nat) (wrap : Bool) (paragraph : List Char) : List (List Char) :=
  if isWrapped wrap paragraph then
    match Text.wrap (room indent).toNat paragraph with
    | [] => [[]]
    | lines => lines
  else [paragraph]

/-- One line of a comment. -/
def commentLine (indent : Nat) (line : List Char) : List Char :=
  Text.stripRight (margin indent ++ line) ++ ['\n']

/-- The characters of a comment, where there is room for its text. -/
def formatChars (indent : Nat) (wrap : Bool) (cs : List Char) : List Char :=
  ((Text.splitLines cs).flatMap (paragraphLines indent wrap)).flatMap (commentLine indent)

/-- Sets a text as comment lines behind `indent` tabs. Only a paragraph that is set anew needs room.
-/
def format (text : String) (indent : Nat) (wrap : Bool) : Except NoRoom String :=
  if room indent ≤ 0 ∧ (Text.splitLines text.toList).any (isWrapped wrap) then
    .error ⟨room indent⟩
  else .ok (Text.onChars (formatChars indent wrap) text)

/-- Sets a text as comment lines of a declaration's part, behind one tab. -/
def partComment (text : String) : String := Text.onChars (formatChars 1 true) text

/-- A comment of a part always has room. -/
theorem format_one (text : String) : format text 1 true = .ok (partComment text) := by
  have h : ¬ room 1 ≤ 0 := by decide
  simp [format, partComment, h]

/-- The comment that documents `name`. -/
def document (name description subject : String) (indent : Nat) : Except NoRoom String :=
  format (prose name description subject) indent true

end SchemaTypes.Comment
