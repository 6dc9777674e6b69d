/-!
# Control sequences

A text that is meant for a terminal may hold sequences that set colours or move the cursor. A
message that is shown on its own goes without them.

A control sequence is an escape character and an opening bracket, any number of parameter
characters, any number of intermediate characters, and one final character. What begins like a
sequence but has no final character is text.
-/

namespace SchemaTypes.Text

/-- Whether a character may stand among the parameters of a sequence: a digit or one of `:;<=>?`. -/
def isParameter (c : Char) : Bool := '0' ≤ c && c ≤ '?'

/-- Whether a character may stand behind the parameters: a space or one of the punctuation marks up
to the slash. -/
def isIntermediate (c : Char) : Bool := ' ' ≤ c && c ≤ '/'

/-- Whether a character ends a sequence: any other visible character of seven bits. -/
def isFinal (c : Char) : Bool := '@' ≤ c && c ≤ '~'

/-- The text behind a control sequence whose escape character has been read, if there is one. -/
def behindSequence? : List Char → Option (List Char)
  | '[' :: rest =>
    match (rest.dropWhile isParameter).dropWhile isIntermediate with
    | c :: behind => if isFinal c then some behind else none
    | [] => none
  | _ => none

/-- Behind a control sequence there is less text than in front of it. -/
theorem length_lt_of_behindSequence? {cs behind : List Char}
    (h : behindSequence? cs = some behind) : behind.length < cs.length := by
  unfold behindSequence? at h
  split at h
  case h_1 rest =>
    have hp := (List.dropWhile_suffix isParameter (l := rest)).length_le
    have hi := (List.dropWhile_suffix isIntermediate (l := rest.dropWhile isParameter)).length_le
    split at h
    case h_1 c behind' heq =>
      rw [heq, List.length_cons] at hi
      split at h
      · cases h
        simp only [List.length_cons]
        omega
      · cases h
    case h_2 => cases h
  case h_2 => cases h

/-- A text without its control sequences. What is left is not searched again. -/
def withoutSequences : List Char → List Char
  | [] => []
  | '\x1b' :: rest =>
    match _h : behindSequence? rest with
    | some behind => withoutSequences behind
    | none => '\x1b' :: withoutSequences rest
  | c :: rest => c :: withoutSequences rest
termination_by cs => cs.length
decreasing_by
  · have := length_lt_of_behindSequence? _h
    simp only [List.length_cons]
    omega
  · simp
  · simp

/-- A text without escape characters is kept as it is. -/
theorem withoutSequences_eq_self {cs : List Char} (h : '\x1b' ∉ cs) : withoutSequences cs = cs := by
  induction cs with
  | nil => simp [withoutSequences]
  | cons c rest ih =>
    have hc : c ≠ '\x1b' := fun e ↦ h (by simp [e])
    rw [withoutSequences, ih fun hr ↦ h (List.mem_cons_of_mem _ hr)]
    exact hc

end SchemaTypes.Text
