import SchemaTypes.Text.Blank
import SchemaTypes.Text.Letter

/-!
# Wrapping a paragraph

A paragraph is cut into pieces, and the pieces are put on lines of a given width. A piece is a run
of blanks, a dash between words, or a word; a hyphen between letters ends a piece, so that a
compound can be parted behind it. Blanks at the seam of two lines are dropped. A word longer than a
line is cut, behind a hyphen if one fits.

Cutting and filling are separate functions: pieces lose no character, and only the filling knows the
width.
-/

namespace SchemaTypes.Text

/-! ## Blanks of a paragraph -/

/-- Replaces every tab by the blanks up to the next multiple of eight columns. -/
def expandTabs : Nat → List Char → List Char
  | _, [] => []
  | column, c :: rest =>
    if c == '\t' then
      let width := 8 - column % 8
      List.replicate width ' ' ++ expandTabs (column + width) rest
    else c :: expandTabs (if c == '\n' || c == '\r' then 0 else column + 1) rest

/-- Whether a character is one of the blanks that part words on a line. -/
def isLineBlank (c : Char) : Bool :=
  c == ' ' || c == '\t' || c == '\n' || c == '\x0b' || c == '\x0c' || c == '\r'

/-- The paragraph with plain blanks only. -/
def plainBlanks (cs : List Char) : List Char :=
  (expandTabs 0 cs).map fun c ↦ if isLineBlank c then ' ' else c

/-! ## Pieces -/

/-- Whether a character may stand before a dash between words. -/
def isDashNeighbour (c : Char) : Bool :=
  isWordChar c || c == '!' || c == '"' || c == '\'' || c == '&' || c == '.' || c == ',' || c == '?'

/-- Whether a character may stand beside a hyphen inside a compound. -/
def isCompoundLetter (c : Char) : Bool := isWordChar c && !isDecimal c

/-- Whether a text begins with a dash of two or more hyphens that a word follows. -/
def beginsDash (cs : List Char) : Bool :=
  2 ≤ (cs.takeWhile (· == '-')).length &&
    match cs.dropWhile (· == '-') with
    | c :: _ => isWordChar c
    | [] => false

/-- Whether the character before a text, if there is one, may stand before a dash. -/
def afterDashNeighbour : List Char → Bool
  | c :: _ => isDashNeighbour c
  | [] => false

/-- Whether a text begins with two letters that a hyphen may part. -/
def beginsCompound : List Char → Bool
  | a :: '-' :: b :: _ => isCompoundLetter a && isCompoundLetter b
  | a :: b :: _ => isCompoundLetter a && isCompoundLetter b
  | _ => false

/-- Whether a compound may be parted at a hyphen, given what stands before it, nearest character
first, and behind it. -/
def partsCompound (before behind : List Char) : Bool :=
  beginsCompound before && beginsCompound behind

/-- Splits the word at the head of a text off, given the text before it, nearest character first. A
word holds at least one character. -/
def splitWord : List Char → List Char → List Char × List Char
  | _, [] => ([], [])
  | _, [c] => ([c], [])
  | before, c :: d :: behind =>
    if isLineBlank d then ([c], d :: behind)
    else if d == '-' && partsCompound (c :: before) behind then ([c, d], behind)
    else if isDashNeighbour c && beginsDash (d :: behind) then ([c], d :: behind)
    else
      let split := splitWord (c :: before) (d :: behind)
      (c :: split.1, split.2)

/-- Splits the piece at the head of a text off. -/
def splitPiece (before cs : List Char) : List Char × List Char :=
  match cs with
  | [] => ([], [])
  | c :: _ =>
    if isLineBlank c then (cs.takeWhile isLineBlank, cs.dropWhile isLineBlank)
    else if afterDashNeighbour before && beginsDash cs then
      (cs.takeWhile (· == '-'), cs.dropWhile (· == '-'))
    else splitWord before cs

theorem splitWord_append (before cs : List Char) :
    (splitWord before cs).1 ++ (splitWord before cs).2 = cs := by
  fun_induction splitWord before cs with
  | case6 before c d behind _ _ _ split ih => exact congrArg (c :: ·) ih
  | _ => rfl

theorem splitPiece_append (before cs : List Char) :
    (splitPiece before cs).1 ++ (splitPiece before cs).2 = cs := by
  unfold splitPiece
  split
  · rfl
  · split
    · exact List.takeWhile_append_dropWhile
    · split
      · exact List.takeWhile_append_dropWhile
      · exact splitWord_append ..

theorem splitWord_fst_ne_nil (before : List Char) (c : Char) (rest : List Char) :
    (splitWord before (c :: rest)).1 ≠ [] := by
  cases rest with
  | nil => simp [splitWord]
  | cons d behind =>
    unfold splitWord
    split
    · simp
    · split
      · simp
      · split <;> simp

theorem splitPiece_fst_ne_nil (before : List Char) (c : Char) (rest : List Char) :
    (splitPiece before (c :: rest)).1 ≠ [] := by
  unfold splitPiece
  dsimp only
  split
  · rename_i hc
    simp [hc]
  · split
    · rename_i h
      intro hnil
      have hnil : (c :: rest).takeWhile (· == '-') = [] := hnil
      simp [beginsDash, hnil] at h
    · exact splitWord_fst_ne_nil before c rest

/-- The rest behind a piece is shorter than the text. -/
theorem length_splitPiece_lt (before : List Char) (c : Char) (rest : List Char) :
    (splitPiece before (c :: rest)).2.length < (c :: rest).length := by
  have happ := congrArg List.length (splitPiece_append before (c :: rest))
  have hne := List.length_pos_iff.2 (splitPiece_fst_ne_nil before c rest)
  rw [List.length_append] at happ
  omega

/-- The pieces of a text that follows `before`, which is given nearest character first. -/
def piecesAfter (before : List Char) : List Char → List (List Char)
  | [] => []
  | c :: rest =>
    let split := splitPiece before (c :: rest)
    split.1 :: piecesAfter (split.1.reverse ++ before) split.2
termination_by cs => cs.length
decreasing_by exact length_splitPiece_lt before c rest

/-- The pieces of a text. -/
def pieces (cs : List Char) : List (List Char) := piecesAfter [] cs

/-- The pieces of a text make up the text. -/
theorem flatten_piecesAfter (before cs : List Char) : (piecesAfter before cs).flatten = cs := by
  fun_induction piecesAfter before cs with
  | case1 => rfl
  | case2 before c rest split ih =>
    rw [List.flatten_cons, ih]
    exact splitPiece_append before (c :: rest)

/-! ## Lines -/

/-- Whether a piece shows nothing. -/
def isBlankPiece (piece : List Char) : Bool := piece.all isBlank

/-- Takes pieces from the head as long as they fit into `room` columns. -/
def takeFitting : Nat → List (List Char) → List (List Char) × List (List Char)
  | _, [] => ([], [])
  | room, piece :: more =>
    if piece.length ≤ room then
      let (taken, rest) := takeFitting (room - piece.length) more
      (piece :: taken, rest)
    else ([], piece :: more)

/-- How much of a long word goes into `room` columns: all that fits, or up to the last hyphen in it
that has something else before it. -/
def cutLength (room : Nat) (word : List Char) : Nat :=
  let upToHyphen := ((word.take room).reverse.dropWhile (· != '-')).reverse
  if upToHyphen.dropLast.any (· != '-') then upToHyphen.length else room

/-- Fills one line: the pieces on it, and those that remain. Only a word that is longer than a whole
line is cut. -/
def fillLine (width : Nat) (pieces : List (List Char)) : List (List Char) × List (List Char) :=
  match takeFitting width pieces with
  | (taken, []) => (taken, [])
  | (taken, word :: more) =>
    if width < word.length then
      let length := cutLength (width - taken.flatten.length) word
      (taken ++ [word.take length], word.drop length :: more)
    else (taken, word :: more)

/-- Drops a blank piece from the end of a line. -/
def dropLastBlank (line : List (List Char)) : List (List Char) :=
  match line.getLast? with
  | some piece => if isBlankPiece piece then line.dropLast else line
  | none => line

/-- A bound on the number of lines that pieces can need: each line takes a piece or a character. -/
def weight (pieces : List (List Char)) : Nat := pieces.length + pieces.flatten.length

/-- Puts pieces on lines. A blank piece that would begin a line is dropped once a line has been
`started` before it. The fuel bounds the number of lines. -/
def fillLines (width : Nat) : Nat → Bool → List (List Char) → List (List Char)
  | 0, _, _ => []
  | fuel + 1, started, pieces =>
    let pieces := match pieces with
      | piece :: more => if started && isBlankPiece piece then more else pieces
      | [] => []
    if pieces.isEmpty then []
    else
      let (line, rest) := fillLine width pieces
      let line := dropLastBlank line
      -- A line of blanks alone is not written, but its pieces are spent.
      if line.isEmpty then fillLines width fuel started rest
      else line.flatten :: fillLines width fuel true rest

/-- The lines of a paragraph, none of them longer than `width`. -/
def wrap (width : Nat) (paragraph : List Char) : List (List Char) :=
  let pieces := pieces (plainBlanks paragraph)
  fillLines width (weight pieces) false pieces

end SchemaTypes.Text
