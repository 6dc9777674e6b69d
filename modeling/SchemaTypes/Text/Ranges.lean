/-!
# Sets of code points

A class of characters is written as a sorted table of code point ranges. A look-up walks the table
and stops at the first range that begins above the character, so the frequent low characters are
decided at once.
-/

namespace SchemaTypes.Text

/-- First and last code point of a block of characters. -/
abbrev CodeRange := Nat × Nat

/-- Whether `n` lies in one of the ranges of a sorted table. -/
def inRanges : List CodeRange → Nat → Bool
  | [], _ => false
  | (lo, hi) :: rest, n => lo ≤ n && (n ≤ hi || inRanges rest n)

/-- Whether `n` lies on one of the runs of a sorted table of first, last and step. -/
def inRuns : List (Nat × Nat × Nat) → Nat → Bool
  | [], _ => false
  | (lo, hi, step) :: rest, n => lo ≤ n && ((n ≤ hi && (n - lo) % step == 0) || inRuns rest n)

/-- The offset of the run on which `n` lies, in a sorted table of first, last, step and offset. -/
def runOffset : List (Nat × Nat × Nat × Int) → Nat → Option Int
  | [], _ => none
  | (lo, hi, step, offset) :: rest, n =>
    if n < lo then none
    else if n ≤ hi && (n - lo) % step == 0 then some offset
    else runOffset rest n

/-- Membership of a table is membership of one of its ranges. -/
theorem exists_mem_of_inRanges {table : List CodeRange} {n : Nat} (h : inRanges table n = true) :
    ∃ r ∈ table, r.1 ≤ n ∧ n ≤ r.2 := by
  induction table with
  | nil => simp [inRanges] at h
  | cons r rest ih =>
    simp only [inRanges, Bool.and_eq_true, Bool.or_eq_true, decide_eq_true_eq] at h
    obtain ⟨hlo, hhi | hrest⟩ := h
    · exact ⟨r, by simp, hlo, hhi⟩
    · obtain ⟨s, hs, hn⟩ := ih hrest
      exact ⟨s, by simp [hs], hn⟩

end SchemaTypes.Text
