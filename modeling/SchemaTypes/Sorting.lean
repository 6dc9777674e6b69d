/-!
# Sorting

Lists are sorted by insertion: elements that may stand in either order keep the one they have. The
recursion is on the list, so that sorted lists can be computed in proofs, too.
-/

namespace SchemaTypes

variable {α : Type} (le : α → α → Bool)

/-- Puts an element in front of the first one that it may precede. -/
def insertSorted (a : α) : List α → List α
  | [] => [a]
  | b :: rest => if le a b then a :: b :: rest else b :: insertSorted a rest

/-- The elements of a list in order. -/
def sorted : List α → List α
  | [] => []
  | a :: rest => insertSorted le a (sorted rest)

theorem insertSorted_perm (a : α) (xs : List α) : (insertSorted le a xs).Perm (a :: xs) := by
  induction xs with
  | nil => exact .refl _
  | cons b rest ih =>
    rw [insertSorted]
    split
    · exact .refl _
    · exact (ih.cons b).trans (.swap a b rest)

/-- Sorting keeps what there is. -/
theorem sorted_perm (xs : List α) : (sorted le xs).Perm xs := by
  induction xs with
  | nil => exact .refl _
  | cons a rest ih => exact (insertSorted_perm le a _).trans (ih.cons a)

@[simp] theorem mem_sorted {a : α} {xs : List α} : a ∈ sorted le xs ↔ a ∈ xs :=
  (sorted_perm le xs).mem_iff

/-- Sorting by what a map makes of elements is sorting what it makes of them. -/
theorem sorted_map {β : Type} (f : β → α) (xs : List β) :
    sorted le (xs.map f) = (sorted (fun a b ↦ le (f a) (f b)) xs).map f := by
  have hinsert : ∀ (b : β) (ys : List β), insertSorted le (f b) (ys.map f) =
      (insertSorted (fun a b ↦ le (f a) (f b)) b ys).map f := by
    intro b ys
    induction ys with
    | nil => rfl
    | cons c rest ih =>
      rw [List.map_cons, insertSorted, insertSorted, ih]
      split <;> rfl
  induction xs with
  | nil => rfl
  | cons b rest ih => rw [List.map_cons, sorted, sorted, ih, hinsert]

variable {le} in
/-- A list in order stays as it is. -/
theorem sorted_eq_self {xs : List α} (h : xs.Pairwise fun a b ↦ le a b = true) :
    sorted le xs = xs := by
  induction xs with
  | nil => rfl
  | cons a rest ih =>
    obtain ⟨hfirst, hrest⟩ := List.pairwise_cons.mp h
    rw [sorted, ih hrest]
    cases rest with
    | nil => rfl
    | cons b more => rw [insertSorted, if_pos (hfirst b List.mem_cons_self)]

/-! ## What is sorted is in order -/

variable {le} {before : α → α → Prop}
  (htrans : ∀ a b c, le a b = true → le b c = true → le a c = true)
  (htotal : ∀ a b, le a b = true ∨ le b a = true)

include htrans htotal

/-- Inserting keeps the order. An element that comes before all others also keeps that place among
those that it may change places with. -/
theorem pairwise_insertSorted {a : α} {xs : List α} (ha : ∀ x ∈ xs, before a x)
    (h : xs.Pairwise fun x y ↦ le x y = true ∧ (le y x = true → before x y)) :
    (insertSorted le a xs).Pairwise fun x y ↦ le x y = true ∧ (le y x = true → before x y) := by
  induction xs with
  | nil => exact List.pairwise_singleton _ _
  | cons b rest ih =>
    obtain ⟨hb, hrest⟩ := List.pairwise_cons.mp h
    rw [insertSorted]
    split
    · next hab =>
      refine List.pairwise_cons.mpr ⟨fun c hc ↦ ⟨?_, fun _ ↦ ha c hc⟩, h⟩
      rcases List.mem_cons.mp hc with rfl | hc
      · exact hab
      · exact htrans a b c hab (hb c hc).1
    · next hab =>
      have hinserted := ih (fun x hx ↦ ha x (List.mem_cons_of_mem b hx)) hrest
      refine List.pairwise_cons.mpr ⟨fun c hc ↦ ?_, hinserted⟩
      rcases List.mem_cons.mp ((insertSorted_perm le a rest).mem_iff.mp hc) with rfl | hc
      · exact ⟨(htotal b c).resolve_right hab, fun hcb ↦ absurd hcb hab⟩
      · exact hb c hc

/-- What is sorted is in order, and elements that may stand in either order keep the one they
have. -/
theorem pairwise_sorted_stable {xs : List α} (h : xs.Pairwise before) :
    (sorted le xs).Pairwise fun x y ↦ le x y = true ∧ (le y x = true → before x y) := by
  induction xs with
  | nil => exact .nil
  | cons a rest ih =>
    obtain ⟨ha, hrest⟩ := List.pairwise_cons.mp h
    have hbefore : ∀ x ∈ sorted le rest, before a x := fun x hx ↦ ha x ((mem_sorted le).mp hx)
    exact pairwise_insertSorted htrans htotal hbefore (ih hrest)

/-- What is sorted is in order. -/
theorem pairwise_sorted (xs : List α) : (sorted le xs).Pairwise fun x y ↦ le x y = true :=
  (pairwise_sorted_stable htrans htotal (List.pairwise_of_forall fun _ _ ↦ trivial)).imp And.left

end SchemaTypes
