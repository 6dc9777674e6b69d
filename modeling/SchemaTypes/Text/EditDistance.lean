/-!
# Edit distance

The least number of insertions, deletions and replacements that turn one text into another. It is
computed row by row from the end of the first text: a row holds the distances of one suffix of it to
every suffix of the second text, the longest first.
-/

namespace SchemaTypes.Text

/-- The row of the empty suffix: every suffix of `b` has to be inserted. -/
def emptyRow : List Char → List Nat
  | [] => [0]
  | _ :: b => (b.length + 1) :: emptyRow b

/-- The row of a suffix that begins with `c`, from the row of the suffix behind it. -/
def nextRow (c : Char) : List Char → List Nat → List Nat
  | d :: b, x :: row =>
    let rest := nextRow c b row
    let replaced := row.headD 0
    let inserted := rest.headD 0
    (if c = d then replaced else 1 + min replaced (min x inserted)) :: rest
  | _, row => row.map (· + 1)

/-- Edit distance of two texts, given as characters. -/
def editDistanceChars (a b : List Char) : Nat :=
  (a.foldr (fun c row ↦ nextRow c b row) (emptyRow b)).headD 0

/-- Edit distance of two texts. -/
def editDistance (a b : String) : Nat := editDistanceChars a.toList b.toList

end SchemaTypes.Text
