import SchemaTypes.Text.Ranges

/-!
# Blank characters

Trimming a text and splitting it into words, where a blank is any space, tab, line boundary or
separator control of the character set.
-/

namespace SchemaTypes.Text

/-- The blank characters. -/
def blankRanges : List CodeRange :=
  [(0x9, 0xD), (0x1C, 0x20), (0x85, 0x85), (0xA0, 0xA0), (0x1680, 0x1680), (0x2000, 0x200A),
   (0x2028, 0x2029), (0x202F, 0x202F), (0x205F, 0x205F), (0x3000, 0x3000)]

/-- Whether a character separates words. -/
def isBlank (c : Char) : Bool := inRanges blankRanges c.toNat

/-- The text without its leading blanks. -/
def stripLeft (cs : List Char) : List Char := cs.dropWhile isBlank

/-- The text without its trailing blanks. -/
def stripRight : List Char → List Char
  | [] => []
  | c :: rest =>
    match stripRight rest with
    | [] => if isBlank c then [] else [c]
    | kept => c :: kept

/-- The text without leading and trailing blanks. -/
def strip (cs : List Char) : List Char := stripRight (stripLeft cs)

/-- The words of a text: its longest stretches without a blank. -/
def words : List Char → List (List Char)
  | [] => []
  | c :: rest =>
    if isBlank c then words rest
    else match rest, words rest with
      | [], _ => [[c]]
      | d :: _, more => if isBlank d then [c] :: more else
          match more with
          | [] => [[c]]
          | w :: ws => (c :: w) :: ws

/-- A text of blanks only strips to nothing. -/
theorem stripRight_eq_nil_iff {cs : List Char} : stripRight cs = [] ↔ ∀ c ∈ cs, isBlank c := by
  induction cs with
  | nil => simp [stripRight]
  | cons c rest ih =>
    cases h : stripRight rest with
    | nil =>
      by_cases hc : isBlank c <;> simp [stripRight, h, hc]
      exact ih.1 h
    | cons d more =>
      simp only [stripRight, h, List.mem_cons, forall_eq_or_imp]
      constructor
      · intro h'; cases h'
      · intro ⟨_, hrest⟩
        rw [ih.2 hrest] at h
        cases h

/-- What `stripRight` keeps is followed by blanks only. -/
theorem exists_blanks_of_stripRight (cs : List Char) :
    ∃ blanks, cs = stripRight cs ++ blanks ∧ ∀ c ∈ blanks, isBlank c := by
  induction cs with
  | nil => exact ⟨[], by simp [stripRight]⟩
  | cons c rest ih =>
    obtain ⟨blanks, hrest, hblank⟩ := ih
    cases h : stripRight rest with
    | nil =>
      rw [h] at hrest
      by_cases hc : isBlank c
      · exact ⟨c :: blanks, by simp [stripRight, h, hc]; exact hrest, by simp [hc]; exact hblank⟩
      · exact ⟨blanks, by simp [stripRight, h, hc]; exact hrest, hblank⟩
    | cons d more =>
      refine ⟨blanks, ?_, hblank⟩
      rw [h] at hrest
      simp only [stripRight, h, List.cons_append]
      rw [← List.cons_append, ← hrest]

end SchemaTypes.Text
