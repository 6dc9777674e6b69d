import SchemaTypes.Path
import SchemaTypes.Proofs.Identifier.Letters

/-!
# The name that goes with a path

What is hoisted at a path goes by `Path.exportedName`. A synthetic step leaves that name as it is;
an exported step begins it anew; any other step extends it, so that it is then as long as all steps
together (`Path.weight`).
-/

namespace SchemaTypes.Path

open Identifier

/-- How many word letters all names of a path have that are not synthetic. -/
def weight (p : Path) : Nat :=
  ((p.names.filter fun name ↦ !isPrivate name).map Identifier.weight).sum

variable {p q : Path} {name : String}

/-- Every path is a schema name with steps put behind it. -/
@[elab_as_elim] theorem push_induction {motive : Path → Prop}
    (root : ∀ name, motive (ofRoot name))
    (push : ∀ (p : Path) (name : String), motive p → motive (p.push name)) (p : Path) :
    motive p := by
  obtain ⟨schema, inner⟩ := p
  induction inner with
  | nil => exact root schema
  | cons name inner ih => exact push ⟨schema, inner⟩ name ih

@[simp] theorem isRoot_push (p : Path) (name : String) : (p.push name).isRoot = false := rfl

theorem popPrivate_push_of_isPrivate (h : isPrivate name = true) :
    (p.push name).popPrivate = p.popPrivate := by
  rw [popPrivate, push, List.dropWhile_cons_of_pos h, popPrivate]

theorem popPrivate_push_of_not_isPrivate (h : isPrivate name = false) :
    (p.push name).popPrivate = p.push name := by
  rw [popPrivate, push, List.dropWhile_cons_of_neg (by simp [h])]

theorem names_filter_push (p : Path) (name : String) :
    ((p.push name).names.filter fun name ↦ !isPrivate name) =
      (p.names.filter fun name ↦ !isPrivate name) ++ if isPrivate name then [] else [name] := by
  rw [names_push, List.filter_append]
  cases h : isPrivate name <;> simp [h]

/-! ## What is visible of a path -/

/-- A path without its synthetic steps. The root stays, whatever its name. -/
def visible (p : Path) : Path := { p with inner := p.inner.filter fun name ↦ !isPrivate name }

theorem visible_push_of_isPrivate (h : isPrivate name = true) :
    (p.push name).visible = p.visible := by
  rw [visible, push, List.filter_cons_of_neg (by simp [h]), visible]

theorem visible_push_of_not_isPrivate (h : isPrivate name = false) :
    (p.push name).visible = p.visible.push name := by
  rw [visible, push, List.filter_cons_of_pos (by simp [h]), visible, push]

/-- Behind the synthetic steps at the end is the innermost other name. -/
theorem current_popPrivate (p : Path) : p.popPrivate.current = p.visible.current := by
  have hhead : (p.inner.dropWhile isPrivate).head? =
      (p.inner.filter fun name ↦ !isPrivate name).head? := by
    rw [List.head?_filter, List.find?_eq_head?_dropWhile_not]
    simp only [Bool.not_not]
  rw [current, current, popPrivate, visible, hhead]

theorem names_filter_visible (p : Path) :
    (p.names.filter fun name ↦ !isPrivate name) =
      p.visible.names.filter fun name ↦ !isPrivate name := by
  simp only [names, visible, List.filter_cons, List.filter_reverse, List.filter_filter,
    Bool.and_self]

/-- The name of a path depends on the root and the steps that are not synthetic. -/
theorem exportedName_congr (h : q.visible = p.visible) : q.exportedName = p.exportedName := by
  rw [exportedName, exportedName, currentIsExported, currentIsExported, current_popPrivate,
    current_popPrivate, names_filter_visible q, names_filter_visible p, h]

/-- A synthetic step leaves the name as it is. -/
theorem exportedName_push_of_isPrivate (h : isPrivate name = true) :
    (p.push name).exportedName = p.exportedName :=
  exportedName_congr (visible_push_of_isPrivate h)

/-! ## Names and steps -/

/-- An exported step begins the name anew. -/
theorem exportedName_push_of_isExported (hprivate : isPrivate name = false)
    (hexported : isExported name = true) : (p.push name).exportedName = ofMixedCase name := by
  have hcurrent : (p.push name).popPrivate.current = name := by
    rw [popPrivate_push_of_not_isPrivate hprivate]
    rfl
  rw [exportedName, currentIsExported, hcurrent, if_pos hexported]

theorem weight_push (p : Path) (name : String) :
    (p.push name).weight = p.weight + if isPrivate name then 0 else Identifier.weight name := by
  rw [weight, names_filter_push, List.map_append, List.sum_append, ← weight]
  cases isPrivate name <;> rfl

theorem weight_le_weight_push (p : Path) (name : String) : p.weight ≤ (p.push name).weight := by
  rw [weight_push]
  exact Nat.le_add_right _ _

/-- All names together have a letter for each word letter of each of them. -/
theorem length_join_ofSnakeCase (names : List String) :
    (String.join (names.map ofSnakeCase)).length = (names.map Identifier.weight).sum := by
  rw [String.length_join, List.map_map]
  refine congrArg List.sum (List.map_congr_left fun name _ ↦ ?_)
  rw [Function.comp_apply, ofSnakeCase_eq_ofMixedCase, length_ofMixedCase]

/-- A step that is neither synthetic nor exported extends the name. -/
theorem length_exportedName_push (hprivate : isPrivate name = false)
    (hexported : isExported name = false) :
    (p.push name).exportedName.length = (p.push name).weight := by
  have hcurrent : (p.push name).popPrivate.current = name := by
    rw [popPrivate_push_of_not_isPrivate hprivate]
    rfl
  rw [exportedName, currentIsExported, hcurrent, if_neg (by simp [hexported]),
    length_join_ofSnakeCase, weight]

/-- A step that is not synthetic gives a name that is at least as long as its own, be it exported or
not. -/
theorem weight_le_length_exportedName_push (p : Path) (hprivate : isPrivate name = false) :
    Identifier.weight name ≤ (p.push name).exportedName.length := by
  cases hexported : isExported name with
  | true =>
    have hlength : (p.push name).exportedName.length = Identifier.weight name := by
      rw [exportedName_push_of_isExported hprivate hexported, length_ofMixedCase]
    exact Nat.le_of_eq hlength.symm
  | false =>
    rw [length_exportedName_push hprivate hexported, weight_push, hprivate,
      if_neg Bool.false_ne_true]
    exact Nat.le_add_left _ _

theorem lettered_exportedName (p : Path) : Lettered p.exportedName := by
  unfold exportedName
  split
  · exact lettered_ofMixedCase _
  · exact lettered_join (List.forall_mem_map.mpr fun name _ ↦ lettered_ofSnakeCase name)

/-- What is hoisted right at a schema goes by the name of the schema. -/
theorem exportedName_ofRoot (h : isPrivate name = false) :
    (ofRoot name).exportedName = ofMixedCase name := by
  have hnames : ((ofRoot name).names.filter fun name ↦ !isPrivate name) = [name] := by
    simp [names, ofRoot, h]
  unfold exportedName
  split
  · rfl
  · rw [hnames, List.map_singleton, ofSnakeCase_eq_ofMixedCase]
    simp [String.join]

theorem weight_ofRoot (h : isPrivate name = false) :
    (ofRoot name).weight = Identifier.weight name := by
  simp [weight, names, ofRoot, h]

/-- Names below a root add to the name of the root. -/
theorem weight_le_of_isRoot (h : p.isRoot = true) : p.weight ≤ Identifier.weight p.current := by
  obtain ⟨root, inner⟩ := p
  obtain rfl : inner = [] := List.isEmpty_iff.mp h
  change ((List.filter (fun name ↦ !isPrivate name) [root]).map Identifier.weight).sum ≤
    Identifier.weight root
  cases hroot : isPrivate root <;> simp [hroot]

end SchemaTypes.Path
