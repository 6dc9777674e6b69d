import SchemaTypes.Proofs.DocTable.Passages
import SchemaTypes.Proofs.DocTable.Sections

/-!
# Written documentation is read again

Reading a documentation that was written in plain passages gives its tables back, in order and at
their places (`scrape_render`).

A text that ends with a line is read on its own: its lines stand before those of what follows. So
the parts of a passage are passed one by one (`Passes`), and all that is left of them is their
headings. These enclose the table whatever stands before, since they begin with the first depth.
-/

namespace SchemaTypes.DocTable

/-! ## Passing what stands before a header -/

/-- The lines of a text that ends with a line hold no header, and these headings. -/
def Passes (position : Nat) (text : List Char) (found : List Heading) : Prop :=
  ∃ lines, headings lines = found ∧ (∀ line ∈ lines, isHeader line.2 = false) ∧
    ∀ rest, feedLines position (text ++ rest) = lines ++ feedLines (position + text.length) rest

namespace Passes

theorem nil (position : Nat) : Passes position [] [] :=
  ⟨[], rfl, List.forall_mem_nil _, fun _ ↦ rfl⟩

theorem append {position : Nat} {first second : List Char} {found more : List Heading}
    (hfirst : Passes position first found)
    (hsecond : Passes (position + first.length) second more) :
    Passes position (first ++ second) (found ++ more) := by
  obtain ⟨lines, rfl, hheader, hlines⟩ := hfirst
  obtain ⟨lines', rfl, hheader', hlines'⟩ := hsecond
  refine ⟨lines ++ lines', headings_append _ _,
    List.forall_mem_append.mpr ⟨hheader, hheader'⟩, fun rest ↦ ?_⟩
  rw [List.append_assoc, hlines, hlines', List.append_assoc, List.length_append, Nat.add_assoc]

/-- A text without headers passes with a line feed behind it. -/
theorem lines {text : List Char}
    (h : ∀ line ∈ text.splitOnP (· == '\n'), isHeader line = false) (position : Nat) :
    Passes position (text ++ ['\n']) (headings (feedLines position text)) := by
  refine ⟨_, rfl, fun line hline ↦ h _ ?_, fun rest ↦ ?_⟩
  · rw [← map_snd_feedLines position]
    exact List.mem_map_of_mem hline
  · rw [List.append_assoc, List.singleton_append, feedLines_append_feed, List.length_append,
      List.length_singleton, Nat.add_assoc]

theorem line {line : List Char} (hfeed : '\n' ∉ line) (h : isHeader line = false)
    (position : Nat) : Passes position (line ++ ['\n']) (heading? position line).toList := by
  have hone : ∀ one ∈ line.splitOnP (· == '\n'), isHeader one = false := by
    rw [Text.splitOnP_of_feed_not_mem hfeed]
    exact List.forall_mem_singleton.mpr h
  have hpasses := lines hone position
  rwa [feedLines_of_not_mem hfeed, headings, List.filterMap_cons, List.filterMap_nil] at hpasses

/-- A text without headers and headings leaves nothing behind. -/
theorem plain {text : List Char} (h : ∀ line ∈ text.splitOnP (· == '\n'),
    isHeader line = false ∧ heading? 0 line = none) (position : Nat) :
    Passes position (text ++ ['\n']) [] := by
  have hpasses := lines (fun line hline ↦ (h line hline).1) position
  have hnone : headings (feedLines position text) = [] := by
    refine List.filterMap_eq_nil_iff.mpr fun line hline ↦ heading?_eq_none_of_eq_none (h _ ?_).2 _
    rw [← map_snd_feedLines position]
    exact List.mem_map_of_mem hline
  rwa [hnone] at hpasses

theorem feeds (position gap : Nat) : Passes position (List.replicate gap '\n') [] := by
  induction gap generalizing position with
  | zero => exact nil position
  | succ gap ih =>
    have hempty : Passes position ([] ++ ['\n']) [] := line List.not_mem_nil rfl position
    exact hempty.append (ih _)

theorem block {position gap : Nat} {text : List Char} {found : List Heading}
    (h : Passes position (text ++ ['\n']) found) : Passes position (block gap text) found := by
  have hblock := h.append (feeds (position + (text ++ ['\n']).length) gap)
  rwa [List.append_nil, List.append_assoc] at hblock

/-- Rows pass, where none of them is a header. -/
theorem rows {rows : List Cells} (h : ∀ r ∈ rows, r.IsReadable ∧ r ≠ .header) (position : Nat) :
    Passes position (rows.flatMap fun r ↦ r.line ++ ['\n']) [] := by
  induction rows generalizing position with
  | nil => exact nil position
  | cons r rows ih =>
    obtain ⟨⟨hr, hheader⟩, hrows⟩ := List.forall_mem_cons.mp h
    have hfeed : '\n' ∉ r.line := fun hmem ↦ absurd (hr.oneLine _ hmem) (by decide)
    have hpasses := line hfeed (hr.isHeader_line hheader) position
    have hhash : r.line.head? ≠ some '#' := by
      rw [r.line_eq]
      exact fun hhash ↦ absurd (Option.some.inj hhash) (by decide)
    rw [heading?_eq_none hhash] at hpasses
    exact hpasses.append (ih hrows _)

end Passes

/-! ## Headings -/

/-- The headings that are found where titles are written from a position on. -/
def headingsFrom (gap : Nat) : Nat → List Title → List Heading
  | _, [] => []
  | position, t :: more =>
    ⟨t.depth, t.text.toList, position, position + t.line.length⟩ ::
      headingsFrom gap (position + (block gap t.line).length) more

theorem map_depth_headingsFrom (gap position : Nat) (titles : List Title) :
    (headingsFrom gap position titles).map Heading.depth = titles.map Title.depth := by
  induction titles generalizing position with
  | nil => rfl
  | cons t more ih => rw [headingsFrom, List.map_cons, List.map_cons, ih]

theorem titles_headingsFrom (gap position : Nat) (titles : List Title) :
    ((headingsFrom gap position titles).map fun g ↦ Json.text (String.ofList g.title)) =
      titles.map fun t ↦ .text t.text := by
  induction titles generalizing position with
  | nil => rfl
  | cons t more ih => rw [headingsFrom, List.map_cons, List.map_cons, ih, String.ofList_toList]

/-- A title is found as it is written. -/
theorem heading?_line {t : Title} (hdepth : 1 ≤ t.depth ∧ t.depth ≤ 6) (h : IsTrimmed t.text)
    (position : Nat) :
    heading? position t.line =
      some ⟨t.depth, t.text.toList, position, position + t.line.length⟩ := by
  have hhashes : ∀ c ∈ List.replicate t.depth '#', (c == '#') = true := fun c hc ↦
    beq_iff_eq.mpr (List.eq_of_mem_replicate hc)
  have htake : t.line.takeWhile (· == '#') = List.replicate t.depth '#' := by
    rw [Title.line, List.takeWhile_append_of_pos hhashes, List.takeWhile_cons_of_neg (by decide),
      List.append_nil]
  have hdrop : t.line.dropWhile (· == '#') = ' ' :: t.text.toList := by
    rw [Title.line, List.dropWhile_append_of_pos hhashes, List.dropWhile_cons_of_neg (by decide)]
  have htext : t.text.toList.dropWhile (· == ' ') = t.text.toList := by
    cases htext : t.text.toList with
    | nil => rfl
    | cons c rest =>
      refine List.dropWhile_cons_of_neg fun hspace ↦ ?_
      have hblank := h.isBlank_of_mem_head? (c := c) (by rw [htext]; rfl)
      rw [beq_iff_eq.mp hspace] at hblank
      exact absurd hblank (by decide)
  unfold heading?
  simp only [htake, hdrop, List.length_replicate, if_pos hdepth, htext]
  rw [h]

theorem isHeader_eq_false {line : List Char} (h : line.head? ≠ some '|') :
    isHeader line = false := by
  refine Bool.eq_false_iff.mpr fun hheader ↦ ?_
  obtain ⟨widths, rfl⟩ := exists_of_isHeader hheader
  exact h rfl

/-- The last heading of titles ends where its line does. -/
theorem exists_stop {titles : List Title} (hne : titles ≠ []) (gap position : Nat) :
    ∃ text, (titles.flatMap fun t ↦ block gap t.line) = text ++ '\n' :: List.replicate gap '\n' ∧
      ∀ g ∈ (headingsFrom gap position titles).getLast?, g.stop = position + text.length := by
  induction titles generalizing position with
  | nil => exact absurd rfl hne
  | cons t more ih =>
    rw [List.flatMap_cons, headingsFrom]
    by_cases hmore : more = []
    · subst hmore
      refine ⟨t.line, by rw [List.flatMap_nil, List.append_nil, block], ?_⟩
      rintro g ⟨⟩
      rfl
    · obtain ⟨text, htext, hstop⟩ := ih hmore (position + (block gap t.line).length)
      refine ⟨block gap t.line ++ text, by rw [htext, List.append_assoc], fun g hg ↦ ?_⟩
      have hsome : (headingsFrom gap (position + (block gap t.line).length) more).getLast? =
          some g := by
        obtain ⟨first, rest, hrest⟩ : ∃ first rest, headingsFrom gap
            (position + (block gap t.line).length) more = first :: rest := by
          cases more with
          | nil => exact absurd rfl hmore
          | cons next more => exact ⟨_, _, rfl⟩
        rw [hrest, List.getLast?_cons_cons, ← hrest] at hg
        exact hg
      rw [hstop g hsome, List.length_append, Nat.add_assoc]

/-- Titles are found where they are written. -/
theorem passes_titles {titles : List Title} (h : ∀ t ∈ titles,
    (1 ≤ t.depth ∧ t.depth ≤ 6) ∧ IsTrimmed t.text ∧ IsOneLine t.text) (gap position : Nat) :
    Passes position (titles.flatMap fun t ↦ block gap t.line)
      (headingsFrom gap position titles) := by
  induction titles generalizing position with
  | nil => exact .nil position
  | cons t more ih =>
    obtain ⟨⟨hdepth, htrimmed, honeLine⟩, hmore⟩ := List.forall_mem_cons.mp h
    have hfeed : '\n' ∉ t.line := by
      rw [Title.line, List.mem_append, List.mem_cons, not_or, not_or]
      refine ⟨fun hmem ↦ ?_, by decide, fun hmem ↦ ?_⟩
      · exact absurd (List.eq_of_mem_replicate hmem) (by decide)
      · exact absurd (honeLine _ hmem) (by decide)
    have hbar : t.line.head? ≠ some '|' := by
      obtain ⟨depth, hhashes⟩ := Nat.exists_eq_add_of_le' hdepth.1
      rw [Title.line, hhashes]
      exact fun hbar ↦ absurd (Option.some.inj hbar) (by decide)
    have hline := Passes.line hfeed (isHeader_eq_false hbar) position
    rw [heading?_line hdepth htrimmed] at hline
    exact hline.block.append (ih hmore _)

namespace Passage

variable {p : Passage}

theorem one_le_depth (h : p.IsPlain) : ∀ t ∈ p.titles, 1 ≤ t.depth := by
  obtain ⟨rest, hdepths⟩ := List.head?_eq_some_iff.mp h.first
  have hdeeper := h.deeper
  rw [hdepths] at hdeeper
  intro t ht
  have hmem : t.depth ∈ p.titles.map Title.depth := List.mem_map_of_mem ht
  rw [hdepths] at hmem
  rcases List.mem_cons.mp hmem with hone | hmem
  · exact Nat.le_of_eq hone.symm
  · exact Nat.le_of_lt ((List.pairwise_cons.mp hdeeper).1 _ hmem)

/-- What stands before a table leaves its headings. -/
theorem passes_opening (h : p.IsPlain) (gap position : Nat) :
    Passes position (p.opening gap) (headingsFrom gap position p.titles) := by
  have hbody : Passes (position + (p.head gap).length) (p.body gap) [] := by
    unfold body
    split
    · exact .nil _
    · exact (Passes.plain h.description _).block
  have hhead := passes_titles (fun t ht ↦ ⟨⟨one_le_depth h t ht, h.deepest t ht⟩, h.titles t ht⟩)
    gap position
  have hopening := hhead.append hbody
  rwa [List.append_nil] at hopening

/-- What stands behind the header of a passage. -/
def behind (gap : Nat) (p : Passage) : List Char :=
  (.separator :: p.rows : List Cells).flatMap (fun r ↦ r.line ++ ['\n']) ++ List.replicate gap '\n'

/-- What stands behind the header leaves nothing. -/
theorem passes_behind (h : p.IsPlain) (gap position : Nat) :
    Passes position (p.behind gap) [] := by
  have hrows : ∀ r ∈ (.separator :: p.rows : List Cells), r.IsReadable ∧ r ≠ .header :=
    List.forall_mem_cons.mpr ⟨⟨Cells.isReadable_separator, by decide⟩,
      fun r hr ↦ ⟨(h.rows r hr).isReadable, (h.rows r hr).header⟩⟩
  exact (Passes.rows hrows position).append (.feeds _ gap)

/-! ## The table of a passage -/

/-- The headings of a passage are what encloses its table, whatever stands before them. -/
theorem enclosing_headingsFrom (h : p.IsPlain) (gap position : Nat) (above : List Heading)
    (habove : ∀ g ∈ above, 1 ≤ g.depth) :
    enclosing none ((headingsFrom gap position p.titles).reverse ++ above) =
      (headingsFrom gap position p.titles).reverse := by
  have hfirst := h.first
  have hdeeper := h.deeper
  rw [← map_depth_headingsFrom gap position] at hfirst hdeeper
  cases hfound : headingsFrom gap position p.titles with
  | nil =>
    rw [hfound] at hfirst
    cases hfirst
  | cons outermost run =>
    rw [hfound] at hfirst hdeeper
    rw [List.reverse_cons, List.append_assoc, List.singleton_append]
    refine enclosing_append (fun depth hdepth ↦ by cases hdepth) ?_ fun g hg ↦ ?_
    · rw [← List.reverse_cons]
      exact List.pairwise_reverse.mpr (List.pairwise_map.mp hdeeper)
    · rw [Option.some.inj hfirst]
      exact habove g (List.mem_of_mem_head? hg)

theorem titles_ne_nil (h : p.IsPlain) : p.titles ≠ [] := by
  intro hnil
  have hfirst := h.first
  rw [hnil] at hfirst
  cases hfirst

/-- The description stands between the last heading and the table. -/
theorem strip_description (h : p.IsPlain) (gap : Nat) (front behind : List Char) {g : Heading}
    (hg : g ∈ (headingsFrom gap front.length p.titles).getLast?) :
    Text.strip (((front ++ (p.opening gap ++ behind)).take
      (front.length + (p.opening gap).length)).drop g.stop) = p.description.toList := by
  have hfeeds : ∀ c ∈ '\n' :: List.replicate gap '\n', Text.isBlank c = true :=
    List.forall_mem_cons.mpr ⟨by decide, fun c hc ↦ List.eq_of_mem_replicate hc ▸ by decide⟩
  obtain ⟨text, htext, hstop⟩ := exists_stop (titles_ne_nil h) gap front.length
  have htake : (front ++ (p.opening gap ++ behind)).take (front.length + (p.opening gap).length) =
      (front ++ text) ++ (('\n' :: List.replicate gap '\n') ++ p.body gap) := by
    rw [← List.append_assoc, ← List.length_append, List.take_left, opening, head, htext]
    simp only [List.append_assoc]
  rw [htake, hstop g hg, ← List.length_append, List.drop_left]
  unfold body
  split
  · next hnone =>
    have hstrip := Text.strip_surrounded hfeeds (List.forall_mem_nil _) []
    rw [List.append_nil] at hstrip
    rw [hstrip, hnone]
    rfl
  · rw [block, ← List.append_assoc, Text.strip_surrounded hfeeds hfeeds, h.trimmed]

/-- The table of a passage is found at its header. -/
theorem tableAt_opening (h : p.IsPlain) {gap : Nat} {front rest : List Char}
    (hrest : rest.head? ≠ some '|') {path : String} {before lines : List (Nat × List Char)}
    (hlines : headings lines = headingsFrom gap front.length p.titles) :
    tableAt (front ++ (p.opening gap ++ (p.table ++ rest))) path (before ++ lines)
        (front.length + (p.opening gap).length) =
      .ok (p.found path (front.length + (p.opening gap).length)) := by
  have henclosing := enclosing_headingsFrom h gap front.length (headings before).reverse
    fun g hg ↦ one_le_depth_of_mem_headings (List.mem_reverse.mp hg)
  have hdrop : (front ++ (p.opening gap ++ (p.table ++ rest))).drop
      (front.length + (p.opening gap).length) = p.table ++ rest := by
    rw [← List.append_assoc, ← List.length_append, List.drop_left]
  obtain ⟨nearest, run, hrun⟩ : ∃ nearest run,
      (headingsFrom gap front.length p.titles).reverse = nearest :: run := by
    refine List.exists_cons_of_ne_nil fun hnil ↦ titles_ne_nil h ?_
    have hdepths := map_depth_headingsFrom gap front.length p.titles
    rw [List.reverse_eq_nil_iff.mp hnil, List.map_nil] at hdepths
    exact List.map_eq_nil_iff.mp hdepths.symm
  have hnearest : nearest ∈ (headingsFrom gap front.length p.titles).getLast? := by
    rw [← List.head?_reverse, hrun]
    rfl
  rw [tableAt_eq, headings_append, hlines, List.reverse_append, hdrop, hrun, List.cons_append]
  dsimp only
  rw [← List.cons_append, ← hrun, henclosing, List.reverse_reverse, titles_headingsFrom,
    strip_description h gap front _ hnearest, rowsAt_table h hrest, String.ofList_toList]
  rfl

theorem head?_written (h : p.IsPlain) (gap : Nat) : (p.written gap).head? = some '#' := by
  obtain ⟨t, more, htitles⟩ := List.exists_cons_of_ne_nil (titles_ne_nil h)
  obtain ⟨depth, hdepth⟩ :=
    Nat.exists_eq_add_of_le' (one_le_depth h t (htitles ▸ List.mem_cons_self))
  rw [written, opening, head, htitles, List.flatMap_cons, block, Title.line, hdepth]
  rfl

theorem written_eq (gap : Nat) (p : Passage) :
    p.written gap = p.opening gap ++ (Cells.header.line ++ '\n' :: p.behind gap) := by
  rw [written, table, List.flatMap_cons, behind]
  simp only [List.append_assoc, List.nil_append, List.cons_append]

/-- The lines of a passage: some with its headings, its header, and some more. -/
theorem exists_feedLines_written (h : p.IsPlain) (gap position : Nat) :
    ∃ above below, headings above = headingsFrom gap position p.titles ∧
      (∀ line ∈ above, isHeader line.2 = false) ∧ (∀ line ∈ below, isHeader line.2 = false) ∧
      ∀ rest, feedLines position (p.written gap ++ rest) =
        above ++ (position + (p.opening gap).length, Cells.header.line) ::
          (below ++ feedLines (position + (p.written gap).length) rest) := by
  have hfeed : '\n' ∉ Cells.header.line := by decide
  obtain ⟨above, hfound, habove, hopening⟩ := passes_opening h gap position
  obtain ⟨below, -, hbelow, hbehind⟩ := passes_behind h gap
    (position + (p.opening gap).length + Cells.header.line.length + 1)
  refine ⟨above, below, hfound, habove, hbelow, fun rest ↦ ?_⟩
  have hlength : position + (p.opening gap).length + Cells.header.line.length + 1 +
      (p.behind gap).length = position + (p.written gap).length := by
    rw [written_eq]
    simp only [List.length_append, List.length_cons]
    omega
  rw [← hlength, written_eq, List.append_assoc, hopening, List.append_assoc, List.cons_append,
    feedLines_line hfeed, hbehind]

end Passage

/-! ## Documentations -/

/-- What follows a table does not begin with a bar. -/
theorem head?_behind {passages : List Passage} (h : ∀ p ∈ passages, p.IsPlain) (gap : Nat) :
    (List.replicate gap '\n' ++ passages.flatMap (Passage.written gap)).head? ≠ some '|' := by
  cases gap with
  | succ gap => exact fun hbar ↦ absurd (Option.some.inj hbar) (by decide)
  | zero =>
    cases passages with
    | nil => exact fun hbar ↦ by cases hbar
    | cons p more =>
      have hhash := Passage.head?_written (h p List.mem_cons_self) 0
      rw [List.replicate_zero, List.nil_append, List.flatMap_cons, List.head?_append, hhash]
      exact fun hbar ↦ absurd (Option.some.inj hbar) (by decide)

/-- The tables of written passages are found, whatever stands before them. -/
theorem tablesFrom_written {gap : Nat} {path : String} {passages : List Passage}
    (h : ∀ p ∈ passages, p.IsPlain) (front : List Char) (before : List (Nat × List Char)) :
    tablesFrom (front ++ passages.flatMap (Passage.written gap)) path before
        (feedLines front.length (passages.flatMap (Passage.written gap))) =
      .ok (foundFrom gap path front.length passages) := by
  -- The text in front and the lines before grow with every passage.
  induction passages generalizing front before with
  | nil => rw [List.flatMap_nil, feedLines_of_not_mem List.not_mem_nil]; rfl
  | cons p more ih =>
    obtain ⟨hp, hmore⟩ := List.forall_mem_cons.mp h
    have hheader : isHeader Cells.header.line = true := by decide
    obtain ⟨above, below, hfound, habove, hbelow, hlines⟩ :=
      Passage.exists_feedLines_written hp gap front.length
    have htable : tableAt (front ++ (p.written gap ++ more.flatMap (Passage.written gap))) path
        (before ++ above) (front.length + (p.opening gap).length) =
          .ok (p.found path (front.length + (p.opening gap).length)) := by
      rw [Passage.written, List.append_assoc, List.append_assoc]
      exact Passage.tableAt_opening hp (head?_behind hmore gap) hfound
    have hlater := ih hmore (front ++ p.written gap)
    rw [List.append_assoc, List.length_append] at hlater
    rw [List.flatMap_cons, hlines, tablesFrom_append habove, foundFrom,
      tablesFrom_header_eq_ok_iff hheader]
    refine ⟨_, _, htable, ?_, rfl⟩
    rw [tablesFrom_append hbelow, hlater]

/-- Where a table is to be found, its header stands. -/
theorem header_prefix_of_mem_foundFrom {gap : Nat} {path : String} {passages : List Passage}
    {table : DocTable} (front : List Char) (h : table ∈ foundFrom gap path front.length passages) :
    Cells.header.line <+:
      (front ++ passages.flatMap (Passage.written gap)).drop table.source.position := by
  induction passages generalizing front with
  | nil => cases h
  | cons p more ih =>
    rw [foundFrom] at h
    rcases List.mem_cons.mp h with rfl | hlater
    · rw [List.flatMap_cons, Passage.written_eq, Passage.found, List.append_assoc,
        ← List.append_assoc front, ← List.length_append, List.drop_left, List.append_assoc]
      exact List.prefix_append _ _
    · rw [← List.length_append] at hlater
      rw [List.flatMap_cons, ← List.append_assoc]
      exact ih _ hlater

/-- Reading a written documentation gives its tables back, in order, with the headings, the
descriptions and the rows they were written with. Each is found where its header stands. -/
theorem scrape_render {passages : List Passage} (h : ∀ p ∈ passages, p.IsPlain) (gap : Nat)
    (path : String) :
    scrape (render gap passages) path = .ok (foundFrom gap path 0 passages) ∧
      ∀ table ∈ foundFrom gap path 0 passages,
        Cells.header.line <+: (render gap passages).toList.drop table.source.position := by
  rw [scrape, render, String.toList_ofList]
  exact ⟨tablesFrom_written h [] [], fun table htable ↦ header_prefix_of_mem_foundFrom [] htable⟩

/-- Two passages: one with a chain of headings, a description and an empty cell, one without. -/
def manual : List Passage :=
  [⟨[⟨1, "Guild"⟩, ⟨3, "Guild Object"⟩], "A guild.\n#1 of all.",
      [⟨"id", "snowflake", "the *id*"⟩, ⟨"name?", "", "its  name"⟩]⟩,
    ⟨[⟨1, "User"⟩], "", []⟩]

theorem scrape_render_manual :
    (∀ p ∈ manual, p.IsPlain) ∧
      scrape (render 1 manual) "guild.md" = .ok (foundFrom 1 "guild.md" 0 manual) ∧
      ∀ table ∈ foundFrom 1 "guild.md" 0 manual,
        Cells.header.line <+: (render 1 manual).toList.drop table.source.position := by
  have hplain : ∀ p ∈ manual, p.IsPlain := by decide +kernel
  exact ⟨hplain, scrape_render hplain 1 "guild.md"⟩

example : (foundFrom 1 "guild.md" 0 manual).map (·.source.position) = [48, 163] := by
  decide +kernel

end SchemaTypes.DocTable
