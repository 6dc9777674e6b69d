/-!
# Lines

A text is a sequence of lines, each closed by a line boundary, the last one possibly open. A
carriage return with its line feed is one boundary.
-/

namespace SchemaTypes.Text

/-- The characters that end a line. -/
def isLineBoundary (c : Char) : Bool :=
  c == '\n' || c == '\r' || c == '\x0b' || c == '\x0c' || c == '\x1c' || c == '\x1d' ||
    c == '\x1e' || c == '\u0085' || c == '\u2028' || c == '\u2029'

/-- A line and the boundary that closes it, which is empty for an open last line. -/
structure Line where
  content : List Char
  boundary : List Char
deriving DecidableEq, Repr

/-- The line as it stands in the text. -/
def Line.whole (l : Line) : List Char := l.content ++ l.boundary

/-- Puts a character in front of the first line. -/
def consLine (c : Char) : List Line → List Line
  | [] => [⟨[c], []⟩]
  | l :: more => ⟨c :: l.content, l.boundary⟩ :: more

/-- The lines of a text with their boundaries. -/
def lines : List Char → List Line
  | [] => []
  | '\r' :: '\n' :: rest => ⟨[], ['\r', '\n']⟩ :: lines rest
  | c :: rest => if isLineBoundary c then ⟨[], [c]⟩ :: lines rest else consLine c (lines rest)

/-- The lines of a text without their boundaries. -/
def splitLines (cs : List Char) : List (List Char) := (lines cs).map Line.content

theorem flatMap_whole_consLine (c : Char) (ls : List Line) :
    (consLine c ls).flatMap Line.whole = c :: ls.flatMap Line.whole := by
  cases ls <;> simp [consLine, Line.whole]

/-- The lines of a text make up the text. -/
theorem flatMap_whole_lines (cs : List Char) : (lines cs).flatMap Line.whole = cs := by
  fun_induction lines cs with
  | case1 => rfl
  | case2 rest ih => simp [Line.whole] at ih ⊢; exact ih
  | case3 c rest _ _ ih => simp [Line.whole] at ih ⊢; exact ih
  | case4 c rest _ _ ih => rw [flatMap_whole_consLine, ih]

end SchemaTypes.Text
