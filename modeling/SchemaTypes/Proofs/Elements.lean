import Mathlib.Data.List.Forall2

/-!
# What comes of lists

What comes of a list comes of its elements, one by one: in relations between two lists, and in steps
that are taken for every element and may fail.
-/

namespace SchemaTypes

variable {α β ε : Type}

/-! ## Relations between lists -/

section Relation

variable {R : α → β → Prop} {P : β → Prop} {xs : List α} {ys : List β}

/-- What holds of all that may come of an element holds of all that comes of a list. -/
theorem forall_mem_of_forall₂ (h : List.Forall₂ R xs ys) (hP : ∀ x ∈ xs, ∀ y, R x y → P y) :
    ∀ y ∈ ys, P y := by
  induction h with
  | nil => exact List.forall_mem_nil _
  | cons hxy _ ih =>
    obtain ⟨hx, hrest⟩ := List.forall_mem_cons.mp hP
    exact List.forall_mem_cons.mpr ⟨hx _ hxy, ih hrest⟩

/-- Everything comes of an element. -/
theorem exists_mem_left_of_forall₂ (h : List.Forall₂ R xs ys) : ∀ y ∈ ys, ∃ x ∈ xs, R x y :=
  forall_mem_of_forall₂ h fun x hx _ hxy ↦ ⟨x, hx, hxy⟩

/-- Something comes of every element. -/
theorem exists_mem_of_forall₂ (h : List.Forall₂ R xs ys) : ∀ x ∈ xs, ∃ y ∈ ys, R x y :=
  exists_mem_left_of_forall₂ h.flip

end Relation

/-! ## Steps that may fail -/

section Steps

variable {f : α → Except ε β} {xs : List α} {ys : List β}

/-- A value comes of two steps if it comes of the second one, for what comes of the first one. -/
theorem exists_of_bind_eq_ok {x : Except ε α} {b : β} (h : x >>= f = .ok b) :
    ∃ a, x = .ok a ∧ f a = .ok b := by
  cases x with
  | error e => cases h
  | ok a => exact ⟨a, rfl, h⟩

/-- Where a value comes of each element, one comes of the list, with what holds of each. -/
theorem exists_mapM_eq_ok {P : β → Prop} (h : ∀ a ∈ xs, ∃ b, f a = .ok b ∧ P b) :
    ∃ bs, xs.mapM f = .ok bs ∧ ∀ b ∈ bs, P b := by
  induction xs with
  | nil => exact ⟨[], rfl, List.forall_mem_nil _⟩
  | cons a rest ih =>
    obtain ⟨⟨b, hb, hP⟩, hrest⟩ := List.forall_mem_cons.mp h
    obtain ⟨bs, hbs, hall⟩ := ih hrest
    refine ⟨b :: bs, ?_, List.forall_mem_cons.mpr ⟨hP, hall⟩⟩
    rw [List.mapM_cons, hb, hbs]
    rfl

/-- What comes of a list comes of its elements in turn. -/
theorem forall₂_of_mapM_eq_ok (h : xs.mapM f = .ok ys) :
    List.Forall₂ (fun x y ↦ f x = .ok y) xs ys := by
  induction xs generalizing ys with
  | nil =>
    cases h
    exact .nil
  | cons x rest ih =>
    rw [List.mapM_cons] at h
    obtain ⟨y, hy, h⟩ := exists_of_bind_eq_ok h
    obtain ⟨zs, hzs, h⟩ := exists_of_bind_eq_ok h
    cases h
    exact .cons hy (ih hzs)

/-- What comes of a list comes of its elements. -/
theorem exists_of_mem_of_mapM_eq_ok (h : xs.mapM f = .ok ys) : ∀ y ∈ ys, ∃ x ∈ xs, f x = .ok y :=
  exists_mem_left_of_forall₂ (forall₂_of_mapM_eq_ok h)

end Steps

end SchemaTypes
