import SchemaTypes.Text.CommonStretch
import SchemaTypes.Text.Lines

/-!
# Differences between texts

Two texts are compared line by line, by the stretches of lines that they have in common. Differences
are shown with three lines of context, in hunks headed by the line ranges they cover.
-/

namespace SchemaTypes.Text.Diff

open CommonStretch

/-! ## Edits -/

/-- A part of two texts that is equal in both, or not. -/
structure Edit where
  equal : Bool
  part : Part
deriving DecidableEq, Repr

/-- The edits between two texts, from given line numbers on. -/
def editsFrom (left right : Nat) : List Stretch → List Edit
  | [] => []
  | s :: rest =>
    -- The lines up to the stretch differ; the stretch itself is empty at the end of both texts.
    let change := if left < s.left ∨ right < s.right then
        [Edit.mk false ⟨left, s.left, right, s.right⟩]
      else []
    let same := if s.length = 0 then []
      else [Edit.mk true ⟨s.left, s.left + s.length, s.right, s.right + s.length⟩]
    change ++ same ++ editsFrom (s.left + s.length) (s.right + s.length) rest

/-- The edits that turn one list of lines into another. -/
def edits (left right : List String) : List Edit :=
  editsFrom 0 0 (merge (all left right) ++ [⟨left.length, right.length, 0⟩])

/-! ## Hunks -/

/-- Lines of context around a change. -/
def context : Nat := 3

/-- The last lines of an equal part that stands before a change. -/
def contextBefore (p : Part) : Part :=
  { p with leftStart := max p.leftStart (p.leftStop - context)
           rightStart := max p.rightStart (p.rightStop - context) }

/-- The first lines of an equal part that stands behind a change. -/
def contextBehind (p : Part) : Part :=
  { p with leftStop := min p.leftStop (p.leftStart + context)
           rightStop := min p.rightStop (p.rightStart + context) }

/-- Cuts the equal part at the head of edits down to what precedes a change. -/
def trimHead : List Edit → List Edit
  | ⟨true, p⟩ :: rest => ⟨true, contextBefore p⟩ :: rest
  | edits => edits

/-- Cuts the equal part at the end of edits down to what follows a change. -/
def trimLast : List Edit → List Edit
  | [] => []
  | [⟨true, p⟩] => [⟨true, contextBehind p⟩]
  | e :: rest => e :: trimLast rest

/-- Splits edits into hunks at equal parts longer than the context on both sides; `hunk` is the one
begun, last edit first. -/
def splitHunks (hunk : List Edit) : List Edit → List (List Edit)
  | [] => [hunk.reverse]
  | ⟨true, p⟩ :: rest =>
    if 2 * context < p.leftStop - p.leftStart then
      (⟨true, contextBehind p⟩ :: hunk).reverse :: splitHunks [⟨true, contextBefore p⟩] rest
    else splitHunks (⟨true, p⟩ :: hunk) rest
  | e :: rest => splitHunks (e :: hunk) rest

/-- The hunks of edits; one without a change is left out. -/
def hunks (edits : List Edit) : List (List Edit) :=
  (splitHunks [] (trimLast (trimHead edits))).filter fun hunk ↦ hunk.any fun e ↦ !e.equal

/-- A range of lines in the head of a hunk. -/
def rangeText (start stop : Nat) : String :=
  let length := stop - start
  if length = 1 then toString (start + 1)
  else toString (if length = 0 then start else start + 1) ++ "," ++ toString length

/-- The lines of one edit. -/
def editText (left right : List String) (e : Edit) : String :=
  let old := slice left e.part.leftStart e.part.leftStop
  let new := slice right e.part.rightStart e.part.rightStop
  if e.equal then String.join (old.map (" " ++ ·))
  else String.join (old.map ("-" ++ ·)) ++ String.join (new.map ("+" ++ ·))

/-- The lines of one hunk. -/
def hunkText (left right : List String) (hunk : List Edit) : String :=
  match hunk.head?, hunk.getLast? with
  | some first, some last =>
    "@@ -" ++ rangeText first.part.leftStart last.part.leftStop ++
      " +" ++ rangeText first.part.rightStart last.part.rightStop ++ " @@\n" ++
      String.join (hunk.map (editText left right))
  | _, _ => ""

end Diff

/-- The differences between two texts, under the names they go by; nothing for equal texts. -/
def diff (leftName rightName left right : String) : String :=
  let whole (l : Line) : String := String.ofList l.whole
  let old := (lines left.toList).map whole
  let new := (lines right.toList).map whole
  let hunks := Diff.hunks (Diff.edits old new)
  if hunks.isEmpty then ""
  else "--- " ++ leftName ++ "\n+++ " ++ rightName ++ "\n" ++
    String.join (hunks.map (Diff.hunkText old new))

end SchemaTypes.Text
