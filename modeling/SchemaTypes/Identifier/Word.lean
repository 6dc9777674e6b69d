/-!
# Words of a name

A name is read as a sequence of words over the ASCII letters and digits: a run of capitals, a run
of small letters with at most one capital in front, or a run of digits. A run of capitals that is
followed by a small letter leaves its last capital to the next word, so that `HTTPServer` has the
words `HTTP` and `Server`. All other characters only separate words.

The words are found from the end of the name: a character either joins the word that begins right
behind it or begins a word of its own. No look-ahead beyond that word is needed.
-/

namespace SchemaTypes.Identifier

/-- Whether a character can be part of a word. -/
def isWordLetter (c : Char) : Bool := c.isUpper || c.isLower || c.isDigit

/-- Whether `c` belongs to the word `w`, which begins with `d` right behind it. -/
def joins (c d : Char) (w : List Char) : Bool :=
  (c.isUpper && (d.isLower || (d.isUpper && w.all Char.isUpper))) ||
    (c.isLower && d.isLower) || (c.isDigit && d.isDigit)

/-- Puts a word letter in front of the words of the text `rest` behind it. -/
def consWord (c : Char) (rest : List Char) : List (List Char) → List (List Char)
  | [] => [[c]]
  | w :: ws =>
    match rest with
    | d :: _ => if joins c d w then (c :: w) :: ws else [c] :: w :: ws
    | [] => [c] :: w :: ws

/-- The words of a name. -/
def words : List Char → List (List Char)
  | [] => []
  | c :: rest => if isWordLetter c then consWord c rest (words rest) else words rest

/-- A separator adds no word. -/
theorem words_cons_of_not_isWordLetter {c : Char} (h : isWordLetter c = false)
    (rest : List Char) : words (c :: rest) = words rest := by
  simp [words, h]

end SchemaTypes.Identifier
