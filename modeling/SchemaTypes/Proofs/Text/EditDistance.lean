import Mathlib.Order.Bounds.Basic
import Mathlib.Order.MinMax
import SchemaTypes.Text.EditDistance

/-!
# What the edit distance counts

An edit inserts, deletes or replaces one character. The edit distance, computed row by row, is the
least number of edits by which one text becomes the other (`isLeast_editDistanceChars`).

That so many edits are enough can be read off the recursion of the rows
(`editDistanceChars_cons_cons`). That there is no shorter way is no matter of that recursion alone,
since edits may be made at any place and in any order: it holds because one edit changes the
distance to any text by one at most (`EditStep.le_succ`), which is shown from the front of both
texts.

All else that is said of the distance follows from what it counts: edits can be undone, none is
needed between equal texts, and two texts are never further apart than the longer one is long.
-/

namespace SchemaTypes.Text

/-! ## Edits -/

/-- One edit, at the front of a text or somewhere behind its first character. -/
inductive EditStep : List Char → List Char → Prop where
  | insert (c : Char) (a : List Char) : EditStep a (c :: a)
  | delete (c : Char) (a : List Char) : EditStep (c :: a) a
  | replace (c d : Char) (a : List Char) : EditStep (c :: a) (d :: a)
  | behind (c : Char) {a b : List Char} : EditStep a b → EditStep (c :: a) (c :: b)

/-- A number of edits, one after the other. -/
inductive EditSteps : Nat → List Char → List Char → Prop where
  | none (a : List Char) : EditSteps 0 a a
  | more {n : Nat} {a b c : List Char} : EditStep a b → EditSteps n b c → EditSteps (n + 1) a c

variable {n : Nat} {a b e : List Char}

/-- An edit can be undone. -/
theorem EditStep.symm (h : EditStep a b) : EditStep b a := by
  induction h with
  | insert c a => exact .delete c a
  | delete c a => exact .insert c a
  | replace c d a => exact .replace d c a
  | behind c _ ih => exact .behind c ih

theorem EditSteps.concat (h : EditSteps n a b) (hlast : EditStep b e) : EditSteps (n + 1) a e := by
  induction h with
  | none a => exact .more hlast (.none e)
  | more hfirst _ ih => exact .more hfirst (ih hlast)

theorem EditSteps.symm (h : EditSteps n a b) : EditSteps n b a := by
  induction h with
  | none a => exact .none a
  | more hfirst _ ih => exact ih.concat hfirst.symm

theorem EditSteps.behind (c : Char) (h : EditSteps n a b) : EditSteps n (c :: a) (c :: b) := by
  induction h with
  | none a => exact .none (c :: a)
  | more hfirst _ ih => exact .more (hfirst.behind c) ih

theorem editSteps_zero_iff : EditSteps 0 a b ↔ a = b := by
  constructor
  · intro h
    cases h
    rfl
  · rintro rfl
    exact .none a

/-! ## The recursion of the rows -/

/-- The row of a text: its distances to every suffix of another one, the longest first. -/
def distanceRow (a b : List Char) : List Nat := a.foldr (fun c row ↦ nextRow c b row) (emptyRow b)

theorem editDistanceChars_eq_headD (a b : List Char) :
    editDistanceChars a b = (distanceRow a b).headD 0 := rfl

theorem distanceRow_cons (c : Char) (a b : List Char) :
    distanceRow (c :: a) b = nextRow c b (distanceRow a b) := rfl

/-- Behind its first place a row is that for the text behind the first character. -/
theorem distanceRow_cons_right (a : List Char) (d : Char) (b : List Char) :
    distanceRow a (d :: b) = editDistanceChars a (d :: b) :: distanceRow a b := by
  induction a with
  | nil => rfl
  | cons c a ih =>
    rw [editDistanceChars_eq_headD, distanceRow_cons, ih, nextRow, List.headD_cons,
      distanceRow_cons]

theorem distanceRow_nil_right (a : List Char) : distanceRow a [] = [a.length] := by
  induction a with
  | nil => rfl
  | cons c a ih =>
    rw [distanceRow_cons, ih]
    rfl

@[simp] theorem editDistanceChars_nil_left (b : List Char) : editDistanceChars [] b = b.length := by
  cases b <;> rfl

@[simp] theorem editDistanceChars_nil_right (a : List Char) :
    editDistanceChars a [] = a.length := by
  rw [editDistanceChars_eq_headD, distanceRow_nil_right, List.headD_cons]

/-- **The recursion.** Equal characters at the front are kept; otherwise the first one is replaced,
deleted or inserted. -/
theorem editDistanceChars_cons_cons (c d : Char) (a b : List Char) :
    editDistanceChars (c :: a) (d :: b) =
      if c = d then editDistanceChars a b
      else 1 + min (editDistanceChars a b)
        (min (editDistanceChars a (d :: b)) (editDistanceChars (c :: a) b)) := by
  rw [editDistanceChars_eq_headD (c :: a) (d :: b), distanceRow_cons, distanceRow_cons_right,
    nextRow, List.headD_cons]
  rfl

/-! ## Enough edits -/

theorem editSteps_insert (b : List Char) : EditSteps b.length [] b := by
  induction b with
  | nil => exact .none []
  | cons d b ih => exact ih.concat (.insert d b)

/-- As many edits as the distance says lead from one text to the other. -/
theorem editSteps_editDistanceChars (a b : List Char) : EditSteps (editDistanceChars a b) a b := by
  induction a generalizing b with
  | nil =>
    rw [editDistanceChars_nil_left]
    exact editSteps_insert b
  | cons c a iha =>
    induction b with
    | nil =>
      rw [editDistanceChars_nil_right]
      exact (editSteps_insert (c :: a)).symm
    | cons d b ihb =>
      rw [editDistanceChars_cons_cons]
      split
      · next hcd =>
        rw [hcd]
        exact (iha b).behind d
      · rw [Nat.add_comm]
        rcases min_choice (editDistanceChars a b)
          (min (editDistanceChars a (d :: b)) (editDistanceChars (c :: a) b)) with hmin | hmin
        · rw [hmin]
          exact .more (.replace c d a) ((iha b).behind d)
        rw [hmin]
        rcases min_choice (editDistanceChars a (d :: b)) (editDistanceChars (c :: a) b) with
          hmin | hmin
        · rw [hmin]
          exact .more (.delete c a) (iha (d :: b))
        · rw [hmin]
          exact ihb.concat (.insert d b)

/-! ## No fewer edits -/

/-- One character more or less at the front of a text changes its distances by one at most. -/
theorem editDistanceChars_near (a b : List Char) (c : Char) :
    (editDistanceChars (c :: a) b ≤ editDistanceChars a b + 1 ∧
      editDistanceChars a b ≤ editDistanceChars (c :: a) b + 1) ∧
    (editDistanceChars a (c :: b) ≤ editDistanceChars a b + 1 ∧
      editDistanceChars a b ≤ editDistanceChars a (c :: b) + 1) := by
  induction a generalizing b c with
  | nil =>
    induction b generalizing c with
    | nil => simp
    | cons d b ihb =>
      have := ihb c
      rw [editDistanceChars_cons_cons]
      simp only [editDistanceChars_nil_left, List.length_cons] at this ⊢
      split <;> omega
  | cons x a iha =>
    induction b generalizing c with
    | nil =>
      have := iha [] c
      rw [editDistanceChars_cons_cons]
      simp only [editDistanceChars_nil_right, List.length_cons] at this ⊢
      split <;> omega
    | cons y b ihb =>
      have hbehind := ihb c
      have hfront := iha (y :: b) c
      have hleft := iha (y :: b) x
      have hright := ihb y
      refine ⟨?_, ?_⟩
      · rw [editDistanceChars_cons_cons c y (x :: a) b]
        split <;> omega
      · rw [editDistanceChars_cons_cons x c a (y :: b)]
        split <;> omega

theorem editDistanceChars_self (a : List Char) : editDistanceChars a a = 0 := by
  induction a with
  | nil => rfl
  | cons c a ih => rw [editDistanceChars_cons_cons, if_pos rfl, ih]

/-- One edit changes the distance to any text by one at most. -/
theorem EditStep.le_succ (h : EditStep a b) (e : List Char) :
    editDistanceChars a e ≤ editDistanceChars b e + 1 := by
  induction h generalizing e with
  | insert c a => exact (editDistanceChars_near a e c).1.2
  | delete c a => exact (editDistanceChars_near a e c).1.1
  | replace c d a =>
    induction e with
    | nil => simp
    | cons y e ih =>
      have hkept := editDistanceChars_near a e y
      have hreplaced := editDistanceChars_near a e d
      rw [editDistanceChars_cons_cons, editDistanceChars_cons_cons]
      split <;> split <;> omega
  | behind c hab ih =>
    induction e with
    | nil => simpa using ih []
    | cons y e ihe =>
      have hrest := ih e
      have hwhole := ih (y :: e)
      rw [editDistanceChars_cons_cons, editDistanceChars_cons_cons]
      split <;> omega

theorem EditSteps.editDistanceChars_le (h : EditSteps n a b) : editDistanceChars a b ≤ n := by
  induction h with
  | none a => rw [editDistanceChars_self]
  | more hfirst _ ih => exact (hfirst.le_succ _).trans (Nat.add_le_add_right ih 1)

/-- **The distance is the least number of edits.** -/
theorem isLeast_editDistanceChars (a b : List Char) :
    IsLeast {n | EditSteps n a b} (editDistanceChars a b) :=
  ⟨editSteps_editDistanceChars a b, fun _ h ↦ h.editDistanceChars_le⟩

/-! ## What follows -/

theorem editDistanceChars_comm (a b : List Char) :
    editDistanceChars a b = editDistanceChars b a := by
  refine (isLeast_editDistanceChars a b).unique ?_
  have hsame : {n | EditSteps n a b} = {n | EditSteps n b a} := Set.ext fun _ ↦ ⟨.symm, .symm⟩
  rw [hsame]
  exact isLeast_editDistanceChars b a

theorem editDistanceChars_eq_zero_iff : editDistanceChars a b = 0 ↔ a = b := by
  constructor
  · intro h
    have hedits := editSteps_editDistanceChars a b
    rw [h] at hedits
    exact editSteps_zero_iff.mp hedits
  · rintro rfl
    exact editDistanceChars_self a

/-- Replacing, and inserting or deleting what one text is longer by, is enough. -/
theorem editDistanceChars_le_max (a b : List Char) :
    editDistanceChars a b ≤ max a.length b.length := by
  induction a generalizing b with
  | nil => simp
  | cons c a ih =>
    cases b with
    | nil => simp
    | cons d b =>
      have hrest := ih b
      rw [editDistanceChars_cons_cons, List.length_cons, List.length_cons]
      split <;> omega

end SchemaTypes.Text
