import SchemaTypes.Proofs.Text.Blanks
import SchemaTypes.DocTable.Markdown

/-!
# Rows of a table

A row is three cells between bars, with blanks around them. A cell that is trimmed and has no bar is
read as it is written, however many blanks fill its column (`splitCell_padded`,
`lastCell_padded`). So the cells of a written row are found again (`cells?_rowChars`), and a header
line is the row of the three column names (`cells?_of_isHeader`).
-/

namespace SchemaTypes.DocTable

/-! ## Single cells -/

/-- A text without bars that does not end with a space. -/
structure IsContent (cell : List Char) : Prop where
  bar : '|' ∉ cell
  last : cell.getLast? ≠ some ' '

theorem IsContent.of_cons {c : Char} {cell : List Char} (h : IsContent (c :: cell)) :
    IsContent cell := by
  refine ⟨fun hbar ↦ h.bar (List.mem_cons_of_mem c hbar), fun hlast ↦ h.last ?_⟩
  rw [List.getLast?_cons, hlast, Option.getD_some]

/-- Behind the spaces of a content, no bar comes first. -/
theorem IsContent.dropWhile_append {cell : List Char} (h : IsContent cell) (hne : cell ≠ [])
    (behind : List Char) :
    ∃ d rest, d ≠ '|' ∧ (cell ++ behind).dropWhile (· == ' ') = d :: rest := by
  have hsome : cell.dropWhile (· == ' ') ≠ [] := by
    intro hnone
    have hlast := List.getLast?_eq_some_getLast hne
    have hspace := List.dropWhile_eq_nil_iff.mp hnone _ (List.mem_of_getLast? hlast)
    exact h.last (beq_iff_eq.mp hspace ▸ hlast)
  obtain ⟨d, rest, hdrop⟩ := List.exists_cons_of_ne_nil hsome
  refine ⟨d, rest ++ behind, ?_, ?_⟩
  · rintro rfl
    exact h.bar ((List.dropWhile_suffix _).subset (hdrop ▸ List.mem_cons_self))
  · rw [List.dropWhile_append, hdrop, List.isEmpty_cons, if_neg Bool.false_ne_true,
      List.cons_append]

theorem dropWhile_padding (width : Nat) {c : Char} (hc : c ≠ ' ') (behind : List Char) :
    (List.replicate width ' ' ++ c :: behind).dropWhile (· == ' ') = c :: behind := by
  have hspaces : ∀ d ∈ List.replicate width ' ', (d == ' ') = true := fun d hd ↦
    beq_iff_eq.mpr (List.eq_of_mem_replicate hd)
  rw [List.dropWhile_append_of_pos hspaces, List.dropWhile_cons_of_neg (by simpa using hc)]

/-- A cell ends at the first bar that a blank follows. -/
theorem splitCell_padded {cell : List Char} (h : IsContent cell) (width : Nat)
    (behind : List Char) :
    splitCell (cell ++ (List.replicate width ' ' ++ '|' :: ' ' :: behind)) =
      some (cell, behind) := by
  induction cell with
  | nil =>
    have hdrop := dropWhile_padding width (c := '|') (by decide) (' ' :: behind)
    rw [List.nil_append]
    cases hpadded : List.replicate width ' ' ++ '|' :: ' ' :: behind with
    | nil => simp at hpadded
    | cons c rest =>
      rw [hpadded] at hdrop
      rw [splitCell, hdrop]
      rfl
  | cons c cell ih =>
    obtain ⟨d, rest, hd, hdrop⟩ := h.dropWhile_append (List.cons_ne_nil c cell)
      (List.replicate width ' ' ++ '|' :: ' ' :: behind)
    rw [List.cons_append] at hdrop ⊢
    rw [splitCell, hdrop, ih h.of_cons]
    split
    · next hbar => exact absurd (List.cons.inj hbar).1 hd
    · rfl

/-- The last cell ends at the bar that ends the line. -/
theorem lastCell_padded {cell : List Char} (h : IsContent cell) (width : Nat) :
    lastCell (cell ++ (List.replicate width ' ' ++ ['|'])) = some cell := by
  induction cell with
  | nil =>
    have hdrop := dropWhile_padding width (c := '|') (by decide) []
    rw [List.nil_append]
    cases hpadded : List.replicate width ' ' ++ ['|'] with
    | nil => simp at hpadded
    | cons c rest =>
      rw [hpadded] at hdrop
      rw [lastCell, hdrop]
      rfl
  | cons c cell ih =>
    obtain ⟨d, rest, hd, hdrop⟩ := h.dropWhile_append (List.cons_ne_nil c cell)
      (List.replicate width ' ' ++ ['|'])
    rw [List.cons_append] at hdrop ⊢
    rw [lastCell, hdrop, ih h.of_cons]
    split
    · next hbar => exact absurd (List.cons.inj hbar).1 hd
    · rfl

/-! ## Rows -/

/-- A row whose cells are filled up with blanks to the width of their columns. -/
def rowChars (first second third : List Char) (widths : Nat × Nat × Nat) : List Char :=
  ['|', ' '] ++ (first ++ (List.replicate widths.1 ' ' ++ '|' :: ' ' ::
    (second ++ (List.replicate widths.2.1 ' ' ++ '|' :: ' ' ::
      (third ++ (List.replicate widths.2.2 ' ' ++ ['|']))))))

theorem cells?_cons (cs : List Char) :
    cells? ('|' :: ' ' :: cs) =
      (splitCell cs).bind fun first ↦ (splitCell first.2).bind fun second ↦
        (lastCell second.2).bind fun third ↦ some (first.1, second.1, third) :=
  rfl

/-- The cells of a row are found again. -/
theorem cells?_rowChars {first second third : List Char} (hfirst : IsContent first)
    (hsecond : IsContent second) (hthird : IsContent third) (widths : Nat × Nat × Nat) :
    cells? (rowChars first second third widths) = some (first, second, third) := by
  rw [rowChars, List.cons_append, List.cons_append, List.nil_append, cells?_cons,
    splitCell_padded hfirst, Option.bind_some, splitCell_padded hsecond, Option.bind_some,
    lastCell_padded hthird, Option.bind_some]

/-- Only lines that begin with a bar are rows. -/
theorem cells?_eq_none {line : List Char} (h : line.head? ≠ some '|') : cells? line = none := by
  unfold cells?
  split
  · exact absurd rfl h
  · rfl

/-! ## Headers -/

theorem exists_of_afterColumn {name : String} {cs rest : List Char}
    (h : afterColumn name cs = some rest) :
    ∃ width, cs = name.toList ++ (List.replicate (width + 1) ' ' ++ rest) := by
  unfold afterColumn at h
  split at h
  · next hprefix =>
    obtain ⟨behind, rfl⟩ := List.isPrefixOf_iff_prefix.mp hprefix
    rw [List.drop_left] at h
    split at h
    · next spaced =>
      cases h
      have hspaces : spaced.takeWhile (· == ' ') =
          List.replicate (spaced.takeWhile (· == ' ')).length ' ' :=
        List.eq_replicate_of_mem fun c hc ↦ by simpa using List.mem_takeWhile_imp hc
      refine ⟨(spaced.takeWhile (· == ' ')).length, ?_⟩
      rw [List.replicate_succ, List.cons_append, ← hspaces, List.takeWhile_append_dropWhile]
    · cases h
  · cases h

/-- A header is a row of the column names. -/
theorem exists_of_isHeader {line : List Char} (h : isHeader line = true) :
    ∃ widths, line = rowChars "Field".toList "Type".toList "Description".toList widths := by
  unfold isHeader at h
  split at h
  · cases h
  next behindField hfield =>
  split at h
  · cases h
  next behindType htype =>
  split at h
  · next behindDescription hdescription =>
    obtain ⟨first, rfl⟩ := exists_of_afterColumn hfield
    obtain ⟨second, rfl⟩ := exists_of_afterColumn htype
    obtain ⟨third, rfl⟩ := exists_of_afterColumn hdescription
    obtain rfl := beq_iff_eq.mp h
    exact ⟨(first + 1, second + 1, third + 1), rfl⟩
  · cases h

theorem cells?_of_isHeader {line : List Char} (h : isHeader line = true) :
    cells? line = some ("Field".toList, "Type".toList, "Description".toList) := by
  obtain ⟨widths, rfl⟩ := exists_of_isHeader h
  exact cells?_rowChars ⟨by decide, by decide⟩ ⟨by decide, by decide⟩ ⟨by decide, by decide⟩ widths

end SchemaTypes.DocTable
