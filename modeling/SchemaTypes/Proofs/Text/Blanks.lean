import Mathlib.Data.List.TakeWhile
import SchemaTypes.Text.Blank

/-!
# Trimmed texts and what shows of a text

Trimming takes blanks from both ends of a text and nothing else: blanks that are put around a
trimmed text are taken off again (`strip_surrounded`). What shows of a text are the characters that
are no blanks (`inked`); trimming keeps them.
-/

namespace SchemaTypes.Text

/-! ## Trimming -/

theorem stripRight_isPrefix (cs : List Char) : stripRight cs <+: cs := by
  obtain ⟨blanks, hcs, -⟩ := exists_blanks_of_stripRight cs
  exact ⟨blanks, hcs.symm⟩

/-- Blanks at the end are dropped behind what is no blank. -/
theorem stripRight_append_cons {c : Char} (hc : isBlank c = false) (before behind : List Char) :
    stripRight (before ++ c :: behind) = before ++ c :: stripRight behind := by
  have hcons : stripRight (c :: behind) = c :: stripRight behind := by
    rw [stripRight]
    cases stripRight behind with
    | nil => simp only [hc, Bool.false_eq_true, if_false]
    | cons d more => rfl
  induction before with
  | nil => exact hcons
  | cons d before ih =>
    rw [List.cons_append, List.cons_append, stripRight, ih]
    cases before <;> rfl

theorem strip_eq_nil_iff {cs : List Char} : strip cs = [] ↔ ∀ c ∈ cs, isBlank c = true := by
  rw [strip, stripRight_eq_nil_iff, stripLeft]
  refine ⟨fun h c hc ↦ ?_, fun h c hc ↦ h c ((List.dropWhile_suffix _).subset hc)⟩
  rw [← List.takeWhile_append_dropWhile (p := isBlank) (l := cs)] at hc
  rcases List.mem_append.mp hc with hleading | hbehind
  · exact List.mem_takeWhile_imp hleading
  · exact h c hbehind

theorem stripRight_append_blanks {blanks : List Char} (h : ∀ c ∈ blanks, isBlank c = true)
    (cs : List Char) : stripRight (cs ++ blanks) = stripRight cs := by
  induction cs with
  | nil => exact stripRight_eq_nil_iff.mpr h
  | cons c rest ih => rw [List.cons_append, stripRight, stripRight, ih]

/-- Blanks around a text are taken off. -/
theorem strip_surrounded {before behind : List Char} (hbefore : ∀ c ∈ before, isBlank c = true)
    (hbehind : ∀ c ∈ behind, isBlank c = true) (cs : List Char) :
    strip (before ++ cs ++ behind) = strip cs := by
  rw [strip, strip, stripLeft, stripLeft, List.append_assoc, List.dropWhile_append_of_pos hbefore]
  by_cases hblank : ∀ c ∈ cs, isBlank c = true
  · rw [List.dropWhile_append_of_pos hblank, List.dropWhile_eq_nil_iff.mpr hbehind,
      List.dropWhile_eq_nil_iff.mpr hblank]
  · have hsome : (cs.dropWhile isBlank).isEmpty = false := by
      rw [Bool.eq_false_iff, ne_eq, List.isEmpty_iff, List.dropWhile_eq_nil_iff]
      exact hblank
    rw [List.dropWhile_append, hsome, if_neg Bool.false_ne_true, stripRight_append_blanks hbehind]

/-- A trimmed text begins with no blank. -/
theorem isBlank_of_mem_head?_strip {cs : List Char} {c : Char} (h : c ∈ (strip cs).head?) :
    isBlank c = false := by
  obtain ⟨rest, hkept⟩ := List.head?_eq_some_iff.mp h
  obtain ⟨blanks, hblanks⟩ := stripRight_isPrefix (stripLeft cs)
  rw [← strip, hkept, List.cons_append] at hblanks
  have hnot := List.head?_dropWhile_not isBlank cs
  rw [← stripLeft, ← hblanks, List.head?_cons] at hnot
  exact hnot

/-- A trimmed text ends with no blank. -/
theorem isBlank_of_mem_getLast?_strip {cs : List Char} {c : Char} (h : c ∈ (strip cs).getLast?) :
    isBlank c = false := by
  obtain ⟨front, hkept⟩ := List.getLast?_eq_some_iff.mp h
  by_contra hblank
  rw [Bool.not_eq_false] at hblank
  have hagain : stripRight (front ++ [c]) = stripRight front :=
    stripRight_append_blanks (List.forall_mem_singleton.mpr hblank) front
  have hlength := (stripRight_isPrefix front).length_le
  have hidem : stripRight (strip cs) = strip cs := by
    obtain ⟨blanks, hsplit, hblanks⟩ := exists_blanks_of_stripRight (stripLeft cs)
    have hsame := congrArg stripRight hsplit
    rw [stripRight_append_blanks hblanks] at hsame
    exact hsame.symm
  rw [← hagain, ← hkept, hidem, hkept, List.length_append, List.length_singleton] at hlength
  omega

/-! ## What shows of a text -/

/-- The characters of a text that show: all but its blanks. -/
def inked (cs : List Char) : List Char := cs.filter fun c ↦ !isBlank c

@[simp] theorem inked_nil : inked [] = [] := rfl

@[simp] theorem inked_append (a b : List Char) : inked (a ++ b) = inked a ++ inked b :=
  List.filter_append ..

theorem inked_cons (c : Char) (cs : List Char) :
    inked (c :: cs) = (if isBlank c then [] else [c]) ++ inked cs := by
  rw [inked, List.filter_cons]
  cases isBlank c <;> rfl

/-- Texts that show the same one by one show the same together. -/
theorem inked_flatMap_congr {α : Type} {f g : α → List Char} {xs : List α}
    (h : ∀ x ∈ xs, inked (f x) = inked (g x)) : inked (xs.flatMap f) = inked (xs.flatMap g) := by
  induction xs with
  | nil => rfl
  | cons x rest ih =>
    obtain ⟨hx, hrest⟩ := List.forall_mem_cons.mp h
    rw [List.flatMap_cons, List.flatMap_cons, inked_append, inked_append, hx, ih hrest]

theorem inked_eq_nil_iff {cs : List Char} : inked cs = [] ↔ ∀ c ∈ cs, isBlank c = true := by
  simp [inked, List.filter_eq_nil_iff]

theorem inked_stripRight (cs : List Char) : inked (stripRight cs) = inked cs := by
  obtain ⟨blanks, hcs, hblanks⟩ := exists_blanks_of_stripRight cs
  have hsame := congrArg inked hcs
  rw [inked_append, inked_eq_nil_iff.mpr hblanks, List.append_nil] at hsame
  exact hsame.symm

end SchemaTypes.Text
