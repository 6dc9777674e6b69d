import SchemaTypes.Comment
import SchemaTypes.Proofs.Text.Boundaries
import SchemaTypes.Proofs.Text.Filling

/-!
# Remarks between lines

A line is a remark if two slashes stand behind its tabs. What a compiler sees of a text are the
lines that are no remarks (`Text.withoutRemarks`).

`Text.Annotates` says that a text is another one with remarks put between its lines. It is stated
character by character, so that it is kept when texts are put together, which "equal without
remarks" is not: the end of one text and the beginning of the next one make a line only together.
The comments of the parts of a declaration are such remarks (`Comment.exists_remarks_partComment`).
-/

namespace SchemaTypes

namespace Text

/-- Whether a line is a remark. -/
def isRemark (line : List Char) : Bool := ['/', '/'].isPrefixOf (line.dropWhile (· == '\t'))

/-- The lines of a text, which end at line feeds, but for the remarks. -/
def statements (cs : List Char) : List (List Char) :=
  (cs.splitOnP (· == '\n')).filter fun line ↦ !isRemark line

/-- A text without the lines that are remarks. -/
def withoutRemarks (s : String) : String :=
  onChars (fun cs ↦ ['\n'].intercalate (statements cs)) s

/-- A text is another one with remarks between its lines. -/
inductive Annotates : List Char → List Char → Prop
  | nil : Annotates [] []
  | cons (c : Char) {annotated plain : List Char} :
      Annotates annotated plain → Annotates (c :: annotated) (c :: plain)
  /-- Line feeds stand before a remark and behind it; the second one may stand before another. -/
  | remark {line annotated plain : List Char} : isRemark line → '\n' ∉ line →
      Annotates ('\n' :: annotated) plain → Annotates ('\n' :: (line ++ '\n' :: annotated)) plain

namespace Annotates

variable {annotated plain : List Char}

theorem refl (cs : List Char) : Annotates cs cs := by
  induction cs with
  | nil => exact .nil
  | cons c rest ih => exact .cons c ih

theorem append {more more' : List Char} (h : Annotates annotated plain)
    (hmore : Annotates more more') : Annotates (annotated ++ more) (plain ++ more') := by
  induction h with
  | nil => exact hmore
  | cons c _ ih => exact .cons c ih
  | remark hremark hfeed _ ih =>
    rw [List.cons_append, List.append_assoc]
    exact .remark hremark hfeed ih

/-- Both texts begin with the same character. -/
theorem head?_eq (h : Annotates annotated plain) : annotated.head? = plain.head? := by
  induction h with
  | nil => rfl
  | cons c _ _ => rfl
  | remark _ _ _ ih => exact ih

/-- A character is dropped from the beginning of both texts, unless it is a line feed. -/
theorem dropBeginning (h : Annotates annotated plain) {c : Char} (hc : c ≠ '\n') :
    Annotates (Text.dropBeginning [c] annotated) (Text.dropBeginning [c] plain) := by
  have hkeep : ∀ {cs : List Char}, cs.head? ≠ some c → Text.dropBeginning [c] cs = cs := by
    intro cs hhead
    refine if_neg fun hprefix ↦ hhead ?_
    obtain ⟨rest, rfl⟩ := List.isPrefixOf_iff_prefix.mp hprefix
    rfl
  by_cases hhead : annotated.head? = some c
  · cases h with
    | nil => cases hhead
    | cons d h =>
      obtain rfl := Option.some.inj hhead
      have hdrop : ∀ rest, Text.dropBeginning [d] (d :: rest) = rest := dropBeginning_append [d]
      rw [hdrop, hdrop]
      exact h
    | remark => exact absurd (Option.some.inj hhead) hc.symm
  · rw [hkeep hhead, hkeep (h.head?_eq ▸ hhead)]
    exact h

/-- Remarks can be put behind every line feed. -/
theorem remarks {lines : List (List Char)} (hlines : ∀ line ∈ lines, isRemark line ∧ '\n' ∉ line)
    (h : Annotates ('\n' :: annotated) plain) :
    Annotates ('\n' :: (lines.flatMap (· ++ ['\n']) ++ annotated)) plain := by
  induction lines with
  | nil => exact h
  | cons line rest ih =>
    obtain ⟨⟨hremark, hfeed⟩, hrest⟩ := List.forall_mem_cons.mp hlines
    rw [List.flatMap_cons, List.append_assoc, List.append_assoc]
    exact .remark hremark hfeed (ih hrest)

/-- The first lines of both texts are equal, and so are the others but for remarks. -/
theorem lines_eq (h : Annotates annotated plain) :
    ∃ first rest rest', annotated.splitOnP (· == '\n') = first :: rest ∧
      plain.splitOnP (· == '\n') = first :: rest' ∧
      rest.filter (!isRemark ·) = rest'.filter (!isRemark ·) := by
  induction h with
  | nil => exact ⟨[], [], [], List.splitOnP_nil, List.splitOnP_nil, rfl⟩
  | cons c _ ih =>
    obtain ⟨first, rest, rest', hannotated, hplain, hsame⟩ := ih
    rw [List.splitOnP_cons_eq_if_modifyHead, List.splitOnP_cons_eq_if_modifyHead, hannotated,
      hplain]
    by_cases hc : (c == '\n') = true
    · rw [if_pos hc, if_pos hc]
      exact ⟨[], _, _, rfl, rfl, by rw [List.filter_cons, List.filter_cons, hsame]⟩
    · rw [if_neg hc, if_neg hc]
      exact ⟨c :: first, rest, rest', rfl, rfl, hsame⟩
  | @remark line annotated plain hremark hfeed _ ih =>
    -- The remark is a line of its own between the line feed and what stands behind it.
    obtain ⟨first, rest, rest', hannotated, hplain, hsame⟩ := ih
    have hsplit : ('\n' :: (line ++ '\n' :: annotated)).splitOnP (· == '\n') =
        [] :: line :: annotated.splitOnP (· == '\n') := by
      rw [List.splitOnP_cons_eq_if_modifyHead, if_pos (beq_self_eq_true _), splitOnP_line hfeed]
    rw [List.splitOnP_cons_eq_if_modifyHead, if_pos (beq_self_eq_true _)] at hannotated
    obtain ⟨rfl, rfl⟩ := List.cons.inj hannotated
    refine ⟨[], _, rest', hsplit, hplain, ?_⟩
    rw [List.filter_cons_of_neg (by simp [hremark])]
    exact hsame

end Annotates

/-- A text is another one with remarks between its lines. -/
def Commented (annotated plain : String) : Prop := Annotates annotated.toList plain.toList

/-- A sequence of lines is another one with remarks between the lines: remarks may stand before the
first line, too, and each line ends. So both are told behind a line feed and without their last one.
-/
def CommentedLines (annotated plain : String) : Prop :=
  ∃ cs ds, '\n' :: annotated.toList = cs ++ ['\n'] ∧ '\n' :: plain.toList = ds ++ ['\n'] ∧
    Annotates cs ds

namespace Commented

variable {annotated plain : String}

theorem refl (s : String) : Commented s s := Annotates.refl s.toList

theorem append {more more' : String} (h : Commented annotated plain)
    (hmore : Commented more more') : Commented (annotated ++ more) (plain ++ more') := by
  rw [Commented, String.toList_append, String.toList_append]
  exact Annotates.append h hmore

theorem removeBeginning_star (h : Commented annotated plain) :
    Commented (removeBeginning annotated "*") (removeBeginning plain "*") := by
  rw [Commented, removeBeginning, removeBeginning, toList_onChars, toList_onChars]
  exact h.dropBeginning (by decide)

/-- Without remarks both texts are the same. -/
theorem withoutRemarks_eq (h : Commented annotated plain) :
    withoutRemarks annotated = withoutRemarks plain := by
  obtain ⟨first, rest, rest', hannotated, hplain, hsame⟩ := h.lines_eq
  rw [withoutRemarks, withoutRemarks, onChars, onChars, statements, statements, hannotated, hplain,
    List.filter_cons, List.filter_cons, hsame]

end Commented

namespace CommentedLines

variable {annotated plain : String}

theorem empty : CommentedLines "" "" := ⟨[], [], rfl, rfl, .nil⟩

theorem append {more more' : String} (h : CommentedLines annotated plain)
    (hmore : CommentedLines more more') : CommentedLines (annotated ++ more) (plain ++ more') := by
  obtain ⟨cs, ds, hannotated, hplain, hsame⟩ := h
  obtain ⟨cs', ds', hannotated', hplain', hsame'⟩ := hmore
  refine ⟨cs ++ cs', ds ++ ds', ?_, ?_, hsame.append hsame'⟩
  · rw [String.toList_append, ← List.cons_append, hannotated, List.append_assoc,
      List.singleton_append, hannotated', List.append_assoc]
  · rw [String.toList_append, ← List.cons_append, hplain, List.append_assoc,
      List.singleton_append, hplain', List.append_assoc]

/-- A line may have remarks before it and within it. -/
theorem line {remarks : String} {lines : List (List Char)}
    (hlines : ∀ line ∈ lines, isRemark line ∧ '\n' ∉ line)
    (hremarks : remarks.toList = lines.flatMap (· ++ ['\n'])) (h : Commented annotated plain) :
    CommentedLines (remarks ++ (annotated ++ "\n")) (plain ++ "\n") := by
  refine ⟨'\n' :: (remarks.toList ++ annotated.toList), '\n' :: plain.toList, ?_, ?_, ?_⟩
  · rw [String.toList_append, String.toList_append, List.cons_append, List.append_assoc]
    rfl
  · rw [String.toList_append, List.cons_append]
    rfl
  · rw [hremarks]
    exact Annotates.remarks hlines (.cons '\n' h)

/-- Lines stand behind an opening line and before the rest of a closing one. -/
theorem between (h : CommentedLines annotated plain) (opening closing : String) :
    Commented (opening ++ "\n" ++ (annotated ++ closing))
      (opening ++ "\n" ++ (plain ++ closing)) := by
  obtain ⟨cs, ds, hannotated, hplain, hsame⟩ := h
  have hsplit : ∀ lines : String, (opening ++ "\n" ++ (lines ++ closing)).toList =
      opening.toList ++ ('\n' :: lines.toList ++ closing.toList) := by
    intro lines
    simp
  rw [Commented, hsplit, hsplit, hannotated, hplain]
  exact (Annotates.refl _).append ((hsame.append (.refl _)).append (.refl _))

end CommentedLines

end Text

/-! ## Comments -/

namespace Comment

open Text

/-- A line of a paragraph is made of characters of the paragraph and plain blanks. -/
theorem mem_of_mem_paragraphLines {c : Char} {indent : Nat} {wrap : Bool}
    {paragraph line : List Char} (h : line ∈ paragraphLines indent wrap paragraph)
    (hc : c ∈ line) : c = ' ' ∨ c ∈ paragraph := by
  unfold paragraphLines at h
  split at h
  · split at h
    · obtain rfl := List.mem_singleton.mp h
      cases hc
    · exact mem_plainBlanks ((infix_of_mem_wrap h).subset hc)
  · obtain rfl := List.mem_singleton.mp h
    exact .inr hc

/-- What every line of a comment begins with, even one without text. -/
def slashes (indent : Nat) : List Char := List.replicate indent '\t' ++ ['/', '/']

/-- A line of a comment without the line feed that closes it. -/
def remark (indent : Nat) (line : List Char) : List Char :=
  slashes indent ++ stripRight (' ' :: line)

theorem commentLine_eq (indent : Nat) (line : List Char) :
    commentLine indent line = remark indent line ++ ['\n'] := by
  have hslash : isBlank '/' = false := by decide
  have hmargin : margin indent ++ line =
      (List.replicate indent '\t' ++ ['/']) ++ '/' :: ' ' :: line := by
    simp [margin]
  rw [commentLine, hmargin, stripRight_append_cons hslash, remark, slashes]
  simp

/-- The lines of a comment without the line feeds that close them. -/
def remarks (indent : Nat) (wrap : Bool) (cs : List Char) : List (List Char) :=
  ((splitLines cs).flatMap (paragraphLines indent wrap)).map (remark indent)

theorem formatChars_eq (indent : Nat) (wrap : Bool) (cs : List Char) :
    formatChars indent wrap cs = (remarks indent wrap cs).flatMap (· ++ ['\n']) := by
  have hlines : commentLine indent = fun line ↦ remark indent line ++ ['\n'] :=
    funext (commentLine_eq indent)
  rw [formatChars, hlines, remarks, List.flatMap_map]

/-- A comment goes over no line boundary but the line feeds that close its lines. -/
theorem isLineBoundary_of_mem_remarks {indent : Nat} {wrap : Bool} {cs line : List Char}
    (h : line ∈ remarks indent wrap cs) : ∀ c ∈ line, isLineBoundary c = false := by
  obtain ⟨text, htext, rfl⟩ := List.mem_map.mp h
  obtain ⟨paragraph, hparagraph, htext⟩ := List.mem_flatMap.mp htext
  intro c hc
  have hspace : isLineBoundary ' ' = false := by decide
  rcases List.mem_append.mp hc with hmark | hkept
  · rcases List.mem_append.mp hmark with htab | hslash
    · exact List.eq_of_mem_replicate htab ▸ by decide
    · obtain rfl : c = '/' := by simpa using hslash
      decide
  · rcases List.mem_cons.mp ((stripRight_isPrefix _).subset hkept) with rfl | hmem
    · exact hspace
    rcases mem_of_mem_paragraphLines htext hmem with rfl | hmem
    · exact hspace
    · exact isLineBoundary_of_mem_splitLines hparagraph c hmem

/-- A comment of a part is made of remarks. -/
theorem exists_remarks_partComment (text : String) :
    ∃ remarks : List (List Char), (∀ line ∈ remarks, isRemark line ∧ '\n' ∉ line) ∧
      (partComment text).toList = remarks.flatMap (· ++ ['\n']) := by
  refine ⟨remarks 1 true text.toList, fun line hline ↦ ⟨?_, fun hfeed ↦ ?_⟩, ?_⟩
  · obtain ⟨content, -, rfl⟩ := List.mem_map.mp hline
    rfl
  · cases isLineBoundary_of_mem_remarks hline '\n' hfeed
  · rw [partComment, toList_onChars, formatChars_eq]

end Comment

end SchemaTypes
