import SchemaTypes.Proofs.Text.Blanks
import SchemaTypes.Text.Lines

/-!
# Line boundaries

The lines of a text hold no line boundary, and what stands between them are boundaries
(`forall_boundary_of_mem_lines`). Texts that are joined by a line feed have the lines of each of
them (`splitLines_append_feed`). All boundaries are blanks, so the lines show what the text shows
(`inked_flatten_splitLines`).
-/

namespace SchemaTypes.Text

/-! ## Line feeds -/

theorem splitOnP_of_feed_not_mem {line : List Char} (h : '\n' ∉ line) :
    line.splitOnP (· == '\n') = [line] := by
  refine List.splitOnP_eq_singleton fun c hc ↦ beq_eq_false_iff_ne.mpr ?_
  rintro rfl
  exact h hc

/-- A line stands before a line feed. -/
theorem splitOnP_line {line : List Char} (h : '\n' ∉ line) (rest : List Char) :
    (line ++ '\n' :: rest).splitOnP (· == '\n') = line :: rest.splitOnP (· == '\n') := by
  rw [List.splitOnP_append_cons (p := (· == '\n')) line rest (beq_self_eq_true '\n'),
    splitOnP_of_feed_not_mem h, List.singleton_append]

/-- What stands between the line feeds that close lines are the lines. -/
theorem splitOnP_flatMap_feed {lines : List (List Char)} (h : ∀ line ∈ lines, '\n' ∉ line) :
    (lines.flatMap (· ++ ['\n'])).splitOnP (· == '\n') = lines ++ [[]] := by
  induction lines with
  | nil => rfl
  | cons line rest ih =>
    obtain ⟨hline, hrest⟩ := List.forall_mem_cons.mp h
    rw [List.flatMap_cons, List.append_assoc, List.singleton_append, splitOnP_line hline, ih hrest,
      List.cons_append]

/-! ## All boundaries -/

theorem forall_boundary_of_mem_consLine {c : Char} {ls : List Line}
    (hc : isLineBoundary c = false)
    (hls : ∀ l ∈ ls, (∀ d ∈ l.content, isLineBoundary d = false) ∧
      ∀ d ∈ l.boundary, isLineBoundary d = true) :
    ∀ l ∈ consLine c ls, (∀ d ∈ l.content, isLineBoundary d = false) ∧
      ∀ d ∈ l.boundary, isLineBoundary d = true := by
  cases ls with
  | nil =>
    intro l hl
    obtain rfl := List.mem_singleton.mp hl
    exact ⟨List.forall_mem_singleton.mpr hc, List.forall_mem_nil _⟩
  | cons first more =>
    obtain ⟨⟨hcontent, hboundary⟩, hmore⟩ := List.forall_mem_cons.mp hls
    exact List.forall_mem_cons.mpr ⟨⟨List.forall_mem_cons.mpr ⟨hc, hcontent⟩, hboundary⟩, hmore⟩

/-- Line boundaries stand behind lines only, and nothing else does. -/
theorem forall_boundary_of_mem_lines {cs : List Char} :
    ∀ l ∈ lines cs, (∀ c ∈ l.content, isLineBoundary c = false) ∧
      ∀ c ∈ l.boundary, isLineBoundary c = true := by
  fun_induction lines cs with
  | case1 => exact List.forall_mem_nil _
  | case2 rest ih =>
    exact List.forall_mem_cons.mpr ⟨⟨List.forall_mem_nil _, List.all_eq_true.mp (by decide)⟩, ih⟩
  | case3 c rest _ hc ih =>
    exact List.forall_mem_cons.mpr ⟨⟨List.forall_mem_nil _, List.forall_mem_singleton.mpr hc⟩, ih⟩
  | case4 c rest _ hc ih => exact forall_boundary_of_mem_consLine (Bool.eq_false_iff.mpr hc) ih

/-- Lines hold no line boundary. -/
theorem isLineBoundary_of_mem_splitLines {cs line : List Char} (h : line ∈ splitLines cs) :
    ∀ c ∈ line, isLineBoundary c = false := by
  obtain ⟨l, hl, rfl⟩ := List.mem_map.mp h
  exact (forall_boundary_of_mem_lines l hl).1

theorem lines_cons {c : Char} (hc : isLineBoundary c = false) (rest : List Char) :
    lines (c :: rest) = consLine c (lines rest) := by
  rw [lines.eq_def (c :: rest)]
  split
  · next hnil => cases hnil
  · next hreturn =>
    cases hreturn
    cases hc
  · next hcons =>
    cases hcons
    rw [hc, if_neg Bool.false_ne_true]

theorem splitLines_line {line : List Char} (h : ∀ c ∈ line, isLineBoundary c = false)
    (rest : List Char) : splitLines (line ++ '\n' :: rest) = line :: splitLines rest := by
  induction line with
  | nil => rfl
  | cons c line ih =>
    obtain ⟨hc, hline⟩ := List.forall_mem_cons.mp h
    have hrest := ih hline
    unfold splitLines at hrest ⊢
    rw [List.cons_append, lines_cons hc]
    cases hlines : lines (line ++ '\n' :: rest) with
    | nil =>
      rw [hlines] at hrest
      cases hrest
    | cons l more =>
      rw [hlines, List.map_cons] at hrest
      obtain ⟨hcontent, hmore⟩ := List.cons.inj hrest
      rw [consLine, List.map_cons, hcontent, hmore]

/-- A boundary that the next character does not belong to closes an empty line. -/
theorem lines_boundary {c : Char} (hc : isLineBoundary c = true) {rest : List Char}
    (h : c = '\r' → rest.head? ≠ some '\n') : lines (c :: rest) = ⟨[], [c]⟩ :: lines rest := by
  rw [lines.eq_def (c :: rest)]
  split
  · next hnil => cases hnil
  · next hreturn =>
    cases hreturn
    exact absurd rfl (h rfl)
  · next hcons =>
    cases hcons
    rw [if_pos hc]

/-- A line feed between two texts closes the last line of the first one. It is a line of its own
where there is none to close. -/
theorem splitLines_append_feed (cs ds : List Char) :
    ∃ gap : List (List Char), (∀ line ∈ gap, line = []) ∧
      splitLines (cs ++ '\n' :: ds) = splitLines cs ++ gap ++ splitLines ds := by
  unfold splitLines
  fun_induction lines cs with
  | case1 => exact ⟨[[]], by simp, rfl⟩
  | case2 rest ih =>
    obtain ⟨gap, hgap, heq⟩ := ih
    refine ⟨gap, hgap, ?_⟩
    change [] :: (lines (rest ++ '\n' :: ds)).map Line.content = _
    rw [heq]
    rfl
  | case3 c rest hreturn hc ih =>
    by_cases hlast : c = '\r' ∧ rest = []
    · obtain ⟨rfl, rfl⟩ := hlast
      exact ⟨[], by simp, rfl⟩
    · obtain ⟨gap, hgap, heq⟩ := ih
      refine ⟨gap, hgap, ?_⟩
      have hhead : c = '\r' → (rest ++ '\n' :: ds).head? ≠ some '\n' := by
        rintro rfl hfeed
        cases rest with
        | nil => exact hlast ⟨rfl, rfl⟩
        | cons d more =>
          cases hfeed
          exact hreturn more rfl rfl
      rw [List.cons_append, lines_boundary hc hhead, List.map_cons, heq]
      rfl
  | case4 c rest _ hc ih =>
    rw [List.cons_append, lines_cons (Bool.eq_false_iff.mpr hc)]
    cases hrest : lines rest with
    | nil =>
      have hnil := flatMap_whole_lines rest
      rw [hrest] at hnil
      obtain rfl : [] = rest := hnil
      exact ⟨[], by simp, rfl⟩
    | cons l more =>
      rw [hrest] at ih
      obtain ⟨gap, hgap, heq⟩ := ih
      refine ⟨gap, hgap, ?_⟩
      cases hlines : lines (rest ++ '\n' :: ds) with
      | nil =>
        rw [hlines] at heq
        cases heq
      | cons first others =>
        rw [hlines, List.map_cons, List.map_cons, List.cons_append, List.cons_append] at heq
        obtain ⟨hcontent, hothers⟩ := List.cons.inj heq
        rw [consLine, List.map_cons, hcontent, hothers]
        rfl

/-- The first line begins as the text does, or is empty. -/
theorem head?_of_mem_head?_splitLines {cs line : List Char}
    (h : line ∈ (splitLines cs).head?) : line.head? = none ∨ line.head? = cs.head? := by
  unfold splitLines at h
  rw [List.head?_map] at h
  obtain ⟨l, hl, rfl⟩ := Option.map_eq_some_iff.mp h
  unfold lines at hl
  split at hl
  · cases hl
  · cases hl
    exact .inl rfl
  · next c rest _ =>
    split at hl
    · cases hl
      exact .inl rfl
    · cases hlines : lines rest with
      | nil =>
        rw [hlines] at hl
        cases hl
        exact .inr rfl
      | cons first more =>
        rw [hlines] at hl
        cases hl
        exact .inr rfl

theorem isBlank_of_isLineBoundary {c : Char} (h : isLineBoundary c = true) : isBlank c = true := by
  simp only [isLineBoundary, Bool.or_eq_true, beq_iff_eq] at h
  rcases h with ((((((((rfl | rfl) | rfl) | rfl) | rfl) | rfl) | rfl) | rfl) | rfl) | rfl <;> decide

theorem inked_boundary {l : Line} {cs : List Char} (h : l ∈ lines cs) : inked l.boundary = [] :=
  inked_eq_nil_iff.mpr fun c hc ↦
    isBlank_of_isLineBoundary ((forall_boundary_of_mem_lines l h).2 c hc)

/-- The lines of a text show what the text shows. -/
theorem inked_flatten_splitLines (cs : List Char) : inked (splitLines cs).flatten = inked cs := by
  have hwhole : ∀ ls : List Line, (∀ l ∈ ls, inked l.boundary = []) →
      inked (ls.map Line.content).flatten = inked (ls.flatMap Line.whole) := by
    intro ls hls
    induction ls with
    | nil => rfl
    | cons l more ih =>
      obtain ⟨hl, hmore⟩ := List.forall_mem_cons.mp hls
      rw [List.map_cons, List.flatten_cons, List.flatMap_cons, inked_append, inked_append,
        ih hmore, Line.whole, inked_append, hl, List.append_nil]
  rw [splitLines, hwhole (lines cs) fun l hl ↦ inked_boundary hl, flatMap_whole_lines]

end SchemaTypes.Text
