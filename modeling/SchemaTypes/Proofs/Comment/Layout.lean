import SchemaTypes.Proofs.Text.Remarks

/-!
# The layout of a comment

A comment is a text set in lines behind tabs and two slashes. Where there is room for its text, it
stays within its lines and columns and shows what the text shows (`format_layout`): whatever line
boundaries the text has, nothing of it gets out of the comment, and nothing but blanks is lost.
-/

namespace SchemaTypes.Comment

open Text

/-! ## Single lines -/

theorem length_slashes (indent : Nat) : (slashes indent).length = indent + 2 := by
  simp [slashes]

theorem room_eq (indent : Nat) : room indent = (columns : Int) - (indent + 3 : Nat) := by
  simp [room, margin]

/-- A line of a comment shows its text behind the slashes. -/
theorem inked_drop_remark (indent : Nat) (line : List Char) :
    inked ((remark indent line).drop (slashes indent).length) = inked line := by
  rw [remark, List.drop_left, inked_stripRight]
  exact inked_cons ' ' line

theorem length_remark_le (indent : Nat) (line : List Char) :
    (remark indent line).length ≤ indent + 3 + line.length := by
  have hkept := (stripRight_isPrefix (' ' :: line)).length_le
  rw [List.length_cons] at hkept
  rw [remark, List.length_append, length_slashes]
  omega

/-- A line without text has nothing behind its slashes. -/
theorem remark_of_blank {indent : Nat} {line : List Char} (h : ∀ c ∈ line, isBlank c = true) :
    remark indent line = slashes indent := by
  have hspace : isBlank ' ' = true := by decide
  rw [remark, stripRight_eq_nil_iff.mpr (List.forall_mem_cons.mpr ⟨hspace, h⟩), List.append_nil]

/-! ## Paragraphs -/

/-- A paragraph that is not set anew is blank. -/
theorem strip_eq_nil_of_not_isWrapped {paragraph : List Char}
    (h : ¬ isWrapped true paragraph = true) : strip paragraph = [] := by
  simpa [isWrapped] using h

variable {indent : Nat}

theorem toNat_room (indent : Nat) : (room indent).toNat = columns - (indent + 3) := by
  rw [room_eq]
  omega

/-- The lines of a paragraph fit into the columns. -/
theorem length_remark_le_columns (h : indent + 3 < columns) {paragraph line : List Char}
    (hline : line ∈ paragraphLines indent true paragraph) :
    (remark indent line).length ≤ columns := by
  have hblank : ∀ blank : List Char, (∀ c ∈ blank, isBlank c = true) →
      (remark indent blank).length ≤ columns := by
    intro blank hblank
    rw [remark_of_blank hblank, length_slashes]
    omega
  unfold paragraphLines at hline
  split at hline
  · split at hline
    · obtain rfl := List.mem_singleton.mp hline
      exact hblank [] (List.forall_mem_nil _)
    · have hfits := length_le_of_mem_wrap hline
      have hlength := length_remark_le indent line
      rw [toNat_room] at hfits
      omega
  · next hwrapped =>
    obtain rfl := List.mem_singleton.mp hline
    exact hblank _ (strip_eq_nil_iff.mp (strip_eq_nil_of_not_isWrapped hwrapped))

/-- The lines of a paragraph show what the paragraph shows. -/
theorem inked_paragraphLines (h : indent + 3 < columns) (paragraph : List Char) :
    inked (paragraphLines indent true paragraph).flatten = inked paragraph := by
  have hroom : 0 < (room indent).toNat := by
    rw [toNat_room]
    omega
  have hwrap := inked_wrap hroom paragraph
  unfold paragraphLines
  split
  · split
    · next hnone =>
      rw [hnone] at hwrap
      exact hwrap
    · exact hwrap
  · rw [List.flatten_singleton]

/-! ## Comments -/

/-- Where there is room, a comment can be set. -/
theorem format_eq_ok (h : indent + 3 < columns) (text : String) (wrap : Bool) :
    format text indent wrap = .ok (onChars (formatChars indent wrap) text) := by
  have hroom : ¬ room indent ≤ 0 := by
    rw [room_eq]
    omega
  rw [format, if_neg fun hnone ↦ hroom hnone.1]

/-- A comment that is set anew has room for its text. What stands between its line feeds, but for
the nothing behind the last one, are lines that begin with tabs and slashes, go over no other line
boundary and fit into the columns; and behind the slashes they show what the text shows. -/
theorem format_layout (text : String) {indent : Nat} (h : indent + 3 < columns) :
    ∃ comment lines, format text indent true = .ok comment ∧
      comment.toList.splitOnP (· == '\n') = lines ++ [[]] ∧
      (∀ line ∈ lines, slashes indent <+: line ∧ line.length ≤ columns ∧
        ∀ c ∈ line, isLineBoundary c = false) ∧
      inked (lines.flatMap (·.drop (slashes indent).length)) = inked text.toList := by
  refine ⟨_, remarks indent true text.toList, format_eq_ok h text true, ?_, ?_, ?_⟩
  · rw [toList_onChars, formatChars_eq]
    refine splitOnP_flatMap_feed fun line hline hfeed ↦ ?_
    cases isLineBoundary_of_mem_remarks hline '\n' hfeed
  · intro line hline
    refine ⟨?_, ?_, isLineBoundary_of_mem_remarks hline⟩
    · obtain ⟨content, -, rfl⟩ := List.mem_map.mp hline
      exact List.prefix_append _ _
    · obtain ⟨content, hcontent, rfl⟩ := List.mem_map.mp hline
      obtain ⟨paragraph, -, hcontent⟩ := List.mem_flatMap.mp hcontent
      exact length_remark_le_columns h hcontent
  · calc inked ((remarks indent true text.toList).flatMap (·.drop (slashes indent).length))
        = inked (((splitLines text.toList).flatMap (paragraphLines indent true)).flatMap id) := by
          rw [remarks, List.flatMap_map]
          exact inked_flatMap_congr fun line _ ↦ inked_drop_remark indent line
      _ = inked ((splitLines text.toList).flatMap id) := by
          rw [List.flatMap_assoc]
          exact inked_flatMap_congr fun paragraph _ ↦ by
            rw [List.flatMap_id, inked_paragraphLines h, id]
      _ = inked text.toList := by rw [List.flatMap_id, inked_flatten_splitLines]

/-- A word of more than a line is cut, and a form feed ends a line. -/
theorem format_layout_narrow :
    (75 + 3 < columns) ∧
      ∃ comment lines, format "wide\x0cit" 75 true = .ok comment ∧
        comment.toList.splitOnP (· == '\n') = lines ++ [[]] ∧
        (∀ line ∈ lines, slashes 75 <+: line ∧ line.length ≤ columns ∧
          ∀ c ∈ line, isLineBoundary c = false) ∧
        inked (lines.flatMap (·.drop (slashes 75).length)) = inked "wide\x0cit".toList :=
  ⟨by decide, format_layout "wide\x0cit" (by decide)⟩

end SchemaTypes.Comment
