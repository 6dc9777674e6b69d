import SchemaTypes.Proofs.DocTable.Rows
import SchemaTypes.Proofs.Text.Boundaries

/-!
# Written documentation

A documentation is written as passages, each with headings, perhaps a description, and a table
(`render`). A passage is plain if its parts are not taken for anything else
(`Passage.IsPlain`). Of a plain passage, the rows of the table are found as they were written
(`Passage.rowsAt_table`): they end at the first line that does not begin with a bar.
-/

namespace SchemaTypes.DocTable

/-! ## Written documentation -/

/-- A heading to be written. -/
structure Title where
  depth : Nat
  text : String

/-- The cells of a row to be written. -/
structure Cells where
  field : String
  type : String
  description : String
deriving DecidableEq

/-- A table to be written, with the headings and the description above it. -/
structure Passage where
  titles : List Title
  description : String
  rows : List Cells

/-- The line of a heading. -/
def Title.line (t : Title) : List Char := List.replicate t.depth '#' ++ ' ' :: t.text.toList

/-- The line of a row. -/
def Cells.line (r : Cells) : List Char :=
  ['|', ' '] ++ r.field.toList ++ [' ', '|', ' '] ++ r.type.toList ++ [' ', '|', ' '] ++
    r.description.toList ++ [' ', '|']

/-- The names of the columns. -/
def Cells.header : Cells := ⟨"Field", "Type", "Description"⟩

/-- The line below the names of the columns. -/
def Cells.separator : Cells := ⟨"---", "---", "---"⟩

/-- A block of text and the line feed that closes it, with empty lines behind. -/
def block (gap : Nat) (text : List Char) : List Char := text ++ '\n' :: List.replicate gap '\n'

namespace Passage

variable (gap : Nat) (p : Passage)

/-- The headings of a passage. -/
def head : List Char := p.titles.flatMap fun t ↦ block gap t.line

/-- The description of a passage, which may be missing. -/
def body : List Char := if p.description = "" then [] else block gap p.description.toList

/-- What stands before the table of a passage. -/
def opening : List Char := p.head gap ++ p.body gap

/-- The lines of the table. -/
def table : List Char :=
  (.header :: .separator :: p.rows : List Cells).flatMap fun r ↦ r.line ++ ['\n']

/-- A passage as it is written. -/
def written : List Char := p.opening gap ++ p.table ++ List.replicate gap '\n'

/-- The table that is to be found at a position. -/
def found (path : String) (position : Nat) : DocTable where
  sections := p.titles.map fun t ↦ .text t.text
  description := .text p.description
  rows := p.rows.map fun r ↦ ⟨.text r.field, .text r.type, .text r.description⟩
  source := ⟨path, position⟩

end Passage

/-- The text of a documentation, with `gap` empty lines behind each block. -/
def render (gap : Nat) (passages : List Passage) : String :=
  String.ofList (passages.flatMap (Passage.written gap))

/-- The tables that are to be found where passages are written from a position on. Each table is
where its header is. -/
def foundFrom (gap : Nat) (path : String) : Nat → List Passage → List DocTable
  | _, [] => []
  | position, p :: more =>
    p.found path (position + (p.opening gap).length) ::
      foundFrom gap path (position + (p.written gap).length) more

/-! ## Texts that can be written -/

/-- A text without blanks at its ends. -/
def IsTrimmed (s : String) : Prop := Text.strip s.toList = s.toList

/-- A text on one line. -/
def IsOneLine (s : String) : Prop := ∀ c ∈ s.toList, Text.isLineBoundary c = false

/-- A text that can stand in a cell. -/
structure IsCell (s : String) : Prop where
  trimmed : IsTrimmed s
  oneLine : IsOneLine s
  bar : '|' ∉ s.toList
  footnote : ¬ [' ', '*'] <:+ s.toList

/-- A row that is not taken for the names of the columns. -/
structure Cells.IsPlain (r : Cells) : Prop where
  field : IsCell r.field
  type : IsCell r.type
  description : IsCell r.description
  header : r ≠ .header

/-- A passage with headings that go deeper from the first depth on, a description without headings
and headers, and rows. -/
structure Passage.IsPlain (p : Passage) : Prop where
  first : (p.titles.map Title.depth).head? = some 1
  deeper : (p.titles.map Title.depth).Pairwise (· < ·)
  deepest : ∀ t ∈ p.titles, t.depth ≤ 6
  titles : ∀ t ∈ p.titles, IsTrimmed t.text ∧ IsOneLine t.text
  trimmed : IsTrimmed p.description
  description : ∀ line ∈ p.description.toList.splitOnP (· == '\n'),
    isHeader line = false ∧ heading? 0 line = none
  rows : ∀ r ∈ p.rows, r.IsPlain

instance (s : String) : Decidable (IsTrimmed s) :=
  inferInstanceAs (Decidable (Text.strip s.toList = s.toList))

instance (s : String) : Decidable (IsOneLine s) :=
  List.decidableBAll _ s.toList

instance (s : String) : Decidable (IsCell s) :=
  decidable_of_iff (IsTrimmed s ∧ IsOneLine s ∧ '|' ∉ s.toList ∧ ¬ [' ', '*'] <:+ s.toList)
    ⟨fun ⟨trimmed, oneLine, bar, footnote⟩ ↦ ⟨trimmed, oneLine, bar, footnote⟩,
      fun h ↦ ⟨h.trimmed, h.oneLine, h.bar, h.footnote⟩⟩

instance (r : Cells) : Decidable r.IsPlain :=
  decidable_of_iff (IsCell r.field ∧ IsCell r.type ∧ IsCell r.description ∧ r ≠ .header)
    ⟨fun ⟨field, type, description, header⟩ ↦ ⟨field, type, description, header⟩,
      fun h ↦ ⟨h.field, h.type, h.description, h.header⟩⟩

instance (p : Passage) : Decidable p.IsPlain :=
  decidable_of_iff ((p.titles.map Title.depth).head? = some 1 ∧
      (p.titles.map Title.depth).Pairwise (· < ·) ∧ (∀ t ∈ p.titles, t.depth ≤ 6) ∧
      (∀ t ∈ p.titles, IsTrimmed t.text ∧ IsOneLine t.text) ∧ IsTrimmed p.description ∧
      (∀ line ∈ p.description.toList.splitOnP (· == '\n'),
        isHeader line = false ∧ heading? 0 line = none) ∧ ∀ r ∈ p.rows, r.IsPlain)
    ⟨fun ⟨first, deeper, deepest, titles, trimmed, description, rows⟩ ↦
        ⟨first, deeper, deepest, titles, trimmed, description, rows⟩,
      fun h ↦ ⟨h.first, h.deeper, h.deepest, h.titles, h.trimmed, h.description, h.rows⟩⟩

/-! ## Rows -/

theorem IsTrimmed.isBlank_of_mem_head? {s : String} (h : IsTrimmed s) {c : Char}
    (hc : c ∈ s.toList.head?) : Text.isBlank c = false := by
  rw [← h] at hc
  exact Text.isBlank_of_mem_head?_strip hc

theorem IsCell.isContent {s : String} (h : IsCell s) : IsContent s.toList := by
  refine ⟨h.bar, fun hlast ↦ ?_⟩
  rw [← h.trimmed] at hlast
  have hspace : Text.isBlank ' ' = false := Text.isBlank_of_mem_getLast?_strip hlast
  exact absurd hspace (by decide)

/-- A cell is read as it is. -/
theorem IsCell.cellText_eq {s : String} (h : IsCell s) : cellText s.toList = .text s := by
  have hfootnote : [' ', '*'].isSuffixOf s.toList = false := by
    rw [Bool.eq_false_iff, ne_eq, List.isSuffixOf_iff_suffix]
    exact h.footnote
  rw [cellText, h.trimmed, Text.dropEnding, hfootnote, if_neg Bool.false_ne_true, h.trimmed,
    String.ofList_toList]

theorem Cells.line_eq (r : Cells) :
    r.line = rowChars r.field.toList r.type.toList r.description.toList (1, 1, 1) := by
  rw [Cells.line, rowChars]
  simp only [List.append_assoc]
  rfl

/-- A row whose cells can be found. -/
structure Cells.IsReadable (r : Cells) : Prop where
  field : IsContent r.field.toList
  type : IsContent r.type.toList
  description : IsContent r.description.toList
  oneLine : ∀ c ∈ r.line, Text.isLineBoundary c = false

theorem Cells.IsReadable.cells?_line {r : Cells} (h : r.IsReadable) :
    cells? r.line = some (r.field.toList, r.type.toList, r.description.toList) := by
  rw [r.line_eq, cells?_rowChars h.field h.type h.description]

theorem Cells.isReadable {r : Cells} (hfield : IsCell r.field) (htype : IsCell r.type)
    (hdescription : IsCell r.description) : r.IsReadable := by
  refine ⟨hfield.isContent, htype.isContent, hdescription.isContent, fun c hc ↦ ?_⟩
  have hmarks : IsOneLine " | " := by decide
  simp only [Cells.line, List.mem_append] at hc
  rcases hc with (((((hc | hc) | hc) | hc) | hc) | hc) | hc
  · exact hmarks c (List.mem_cons_of_mem _ hc)
  · exact hfield.oneLine c hc
  · exact hmarks c hc
  · exact htype.oneLine c hc
  · exact hmarks c hc
  · exact hdescription.oneLine c hc
  · exact hmarks c (List.mem_append_left [' '] hc)

theorem Cells.isReadable_header : Cells.header.IsReadable :=
  isReadable (by decide) (by decide) (by decide)

theorem Cells.isReadable_separator : Cells.separator.IsReadable :=
  isReadable (by decide) (by decide) (by decide)

theorem Cells.IsPlain.isReadable {r : Cells} (h : r.IsPlain) : r.IsReadable :=
  Cells.isReadable h.field h.type h.description

/-- A row is a header only if its cells are the names of the columns. -/
theorem Cells.IsReadable.isHeader_line {r : Cells} (h : r.IsReadable) (hr : r ≠ .header) :
    isHeader r.line = false := by
  refine Bool.eq_false_iff.mpr fun hheader ↦ hr ?_
  have hcells := cells?_of_isHeader hheader
  rw [h.cells?_line, Option.some.injEq, Prod.mk.injEq, Prod.mk.injEq] at hcells
  obtain ⟨hfield, htype, hdescription⟩ := hcells
  cases r
  rw [Cells.header, Cells.mk.injEq]
  exact ⟨String.toList_inj.mp hfield, String.toList_inj.mp htype,
    String.toList_inj.mp hdescription⟩

/-- Rows end where a line does not begin with a bar. -/
theorem takeWhile_cells? {rows : List Cells} (h : ∀ r ∈ rows, r.IsReadable) {rest : List Char}
    (hrest : rest.head? ≠ some '|') :
    ((Text.splitLines (rows.flatMap (fun r ↦ r.line ++ ['\n']) ++ rest)).map cells?).takeWhile
        Option.isSome =
      rows.map fun r ↦ some (r.field.toList, r.type.toList, r.description.toList) := by
  induction rows with
  | nil =>
    rw [List.flatMap_nil, List.nil_append, List.map_nil]
    -- The first line of the rest, if there is one, is empty or begins as the rest does.
    cases hlines : Text.splitLines rest with
    | nil => rfl
    | cons line more =>
      have hnone : cells? line = none := by
        refine cells?_eq_none fun hbar ↦ ?_
        have hfirst : line ∈ (Text.splitLines rest).head? := by
          rw [hlines]
          rfl
        rcases Text.head?_of_mem_head?_splitLines hfirst with hhead | hhead
        · rw [hhead] at hbar
          cases hbar
        · exact hrest (hhead ▸ hbar)
      rw [List.map_cons, hnone]
      rfl
  | cons r rows ih =>
    obtain ⟨hr, hrows⟩ := List.forall_mem_cons.mp h
    rw [List.flatMap_cons, List.append_assoc, List.append_assoc, List.singleton_append,
      Text.splitLines_line hr.oneLine, List.map_cons, hr.cells?_line,
      List.takeWhile_cons_of_pos rfl, ih hrows, List.map_cons]

namespace Passage

variable {p : Passage}

theorem isReadable_of_mem (h : p.IsPlain) :
    ∀ r ∈ (.header :: .separator :: p.rows : List Cells), r.IsReadable :=
  List.forall_mem_cons.mpr ⟨Cells.isReadable_header, List.forall_mem_cons.mpr
    ⟨Cells.isReadable_separator, fun r hr ↦ (h.rows r hr).isReadable⟩⟩

/-- The rows of a written table are found again. -/
theorem rowsAt_table (h : p.IsPlain) {rest : List Char} (hrest : rest.head? ≠ some '|') :
    rowsAt (p.table ++ rest) =
      p.rows.map fun r ↦ ⟨.text r.field, .text r.type, .text r.description⟩ := by
  have hcells : ∀ rows : List Cells, rows.filterMap (id ∘ fun r ↦
      some (r.field.toList, r.type.toList, r.description.toList)) =
      rows.map fun r ↦ (r.field.toList, r.type.toList, r.description.toList) :=
    fun rows ↦ congrFun List.filterMap_eq_map' rows
  rw [rowsAt, table, takeWhile_cells? (isReadable_of_mem h) hrest, List.filterMap_map, hcells,
    List.map_cons, List.map_cons, List.drop_succ_cons, List.drop_succ_cons, List.drop_zero,
    List.map_map]
  refine List.map_congr_left fun r hr ↦ ?_
  have hplain := h.rows r hr
  rw [Function.comp_apply]
  dsimp only
  rw [hplain.field.cellText_eq, hplain.type.cellText_eq, hplain.description.cellText_eq]

end Passage

end SchemaTypes.DocTable
