import SchemaTypes.DocTable.Basic
import SchemaTypes.Text.Blank
import SchemaTypes.Text.Lines

/-!
# Tables in markdown

A field table begins with a header line whose columns are `Field`, `Type` and `Description`. Its
rows are the lines below the header and the separator, as long as they have the form of a row. Its
sections are the headings above it, each one less deep than the one below it.

Headers and headings are found on the lines between line feeds; rows are read with every kind of
line boundary. Positions count characters.
-/

namespace SchemaTypes.DocTable

/-- A table that stands under no heading. -/
structure NoSection where
  position : Nat
deriving DecidableEq, Repr

/-- The words in which a table without heading is reported. -/
def NoSection.message (e : NoSection) : String :=
  "table at " ++ toString e.position ++ " has no section"

/-! ## Lines -/

/-- The stretches of a text between line feeds, each with its position, the first one being at
`position`. -/
def feedLines (position : Nat) (cs : List Char) : List (Nat × List Char) :=
  let line := cs.takeWhile (· != '\n')
  match h : cs.dropWhile (· != '\n') with
  | [] => [(position, line)]
  | _ :: rest => (position, line) :: feedLines (position + line.length + 1) rest
termination_by cs.length
decreasing_by
  have := List.IsSuffix.length_le (List.dropWhile_suffix (l := cs) (· != '\n'))
  rw [h] at this
  simp at this
  omega

/-- What follows a word and one or more blanks at the head of a text. -/
def afterColumn (name : String) (cs : List Char) : Option (List Char) :=
  if name.toList.isPrefixOf cs then
    match cs.drop name.toList.length with
    | ' ' :: rest => some (rest.dropWhile (· == ' '))
    | _ => none
  else none

/-- Whether a line is the header of a field table. -/
def isHeader (line : List Char) : Bool :=
  match afterColumn "| Field" line with
  | none => false
  | some rest =>
    match afterColumn "| Type" rest with
    | none => false
    | some rest =>
      match afterColumn "| Description" rest with
      | some rest => rest == ['|']
      | none => false

/-- A heading: its depth, its text, and the positions where its line begins and ends. -/
structure Heading where
  depth : Nat
  title : List Char
  start : Nat
  stop : Nat
deriving DecidableEq, Repr

/-- The heading on a line: one to six hash signs, then blanks, then its text. -/
def heading? (position : Nat) (line : List Char) : Option Heading :=
  let depth := (line.takeWhile (· == '#')).length
  match line.dropWhile (· == '#') with
  | ' ' :: rest =>
    if 1 ≤ depth ∧ depth ≤ 6 then
      some ⟨depth, Text.strip (rest.dropWhile (· == ' ')), position, position + line.length⟩
    else none
  | _ => none

/-! ## Rows -/

/-- Splits a text at the first bar that a blank follows and a blank may precede: the cell before it
without trailing blanks, and the text behind it. -/
def splitCell : List Char → Option (List Char × List Char)
  | [] => none
  | c :: rest =>
    match (c :: rest).dropWhile (· == ' ') with
    | '|' :: ' ' :: behind => some ([], behind)
    | _ =>
      match splitCell rest with
      | some (cell, behind) => some (c :: cell, behind)
      | none => none

/-- The last cell of a row, which a bar at the end of the line closes. -/
def lastCell : List Char → Option (List Char)
  | [] => none
  | c :: rest =>
    match (c :: rest).dropWhile (· == ' ') with
    | ['|'] => some []
    | _ => (lastCell rest).map (c :: ·)

/-- The three cells of a row. -/
def cells? (line : List Char) : Option (List Char × List Char × List Char) :=
  match line with
  | '|' :: ' ' :: rest => do
    let (first, rest) ← splitCell rest
    let (second, rest) ← splitCell rest
    let third ← lastCell rest
    return (first, second, third)
  | _ => none

/-- The text of a cell, without the mark of a footnote. -/
def cellText (cell : List Char) : Json :=
  .text (String.ofList (Text.strip (Text.dropEnding [' ', '*'] (Text.strip cell))))

/-- The rows at the head of a text, from the header on. -/
def rowsAt (cs : List Char) : List Row :=
  let found := ((Text.splitLines cs).map cells?).takeWhile Option.isSome
  (found.filterMap id).drop 2 |>.map fun (field, type, description) ↦
    ⟨cellText field, cellText type, cellText description⟩

/-! ## Tables -/

/-- The chain of headings around a position, innermost first: the nearest one above it, and from
each one the nearest less deep one if that stands directly before it among the `headings`, which are
given nearest first. -/
def enclosing : Option Nat → List Heading → List Heading
  | _, [] => []
  | none, h :: rest => h :: enclosing (some h.depth) rest
  | some depth, h :: rest => if h.depth < depth then h :: enclosing (some h.depth) rest else []

/-- The table at a position, given the lines before it. -/
def tableAt (cs : List Char) (path : String) (before : List (Nat × List Char)) (position : Nat) :
    Except NoSection DocTable :=
  let headings := (before.filterMap fun (start, line) ↦ heading? start line).reverse
  match headings with
  | [] => .error ⟨position⟩
  | nearest :: _ =>
    let description := (cs.take position).drop nearest.stop
    .ok {
      sections := ((enclosing none headings).reverse.map fun h ↦ .text (String.ofList h.title))
      description := .text (String.ofList (Text.strip description))
      rows := rowsAt (cs.drop position)
      source := ⟨path, position⟩ }

/-- The tables among lines that follow the lines `before`. -/
def tablesFrom (cs : List Char) (path : String) (before : List (Nat × List Char)) :
    List (Nat × List Char) → Except NoSection (List DocTable)
  | [] => .ok []
  | line :: rest => do
    let found ← if isHeader line.2 then List.singleton <$> tableAt cs path before line.1
      else pure []
    return found ++ (← tablesFrom cs path (before ++ [line]) rest)

/-- All field tables of a markdown text. -/
def scrape (text path : String) : Except NoSection (List DocTable) :=
  tablesFrom text.toList path [] (feedLines 0 text.toList)

end SchemaTypes.DocTable
