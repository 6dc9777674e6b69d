import SchemaTypes.Schema.Basic

/-!
# Schemas within schemas

A node holds other nodes at several places. What is said of all nodes of a tree is proved along
`Schema.children`, whatever the place, and an induction over trees has one case
(`Schema.children_induction`).
-/

namespace SchemaTypes.Schema

/-- The schemas right below a node. -/
def children (s : Schema) : List Schema :=
  s.properties.map Prod.snd ++ s.items.toList ++ s.allOf ++ s.oneOf ++ s.anyOf ++ s.negated.toList

/-- The places at which a schema can stand right below a node. -/
theorem mem_children_iff {child s : Schema} :
    child ∈ s.children ↔
      (∃ name, (name, child) ∈ s.properties) ∨ s.items = some child ∨ child ∈ s.allOf ∨
        child ∈ s.oneOf ∨ child ∈ s.anyOf ∨ s.negated = some child := by
  simp only [children, List.mem_append, List.mem_map, Prod.exists, exists_eq_right,
    Option.mem_toList, or_assoc]

section Places

variable {child s : Schema}

theorem mem_children_of_mem_properties {name : String} (h : (name, child) ∈ s.properties) :
    child ∈ s.children :=
  mem_children_iff.mpr (.inl ⟨name, h⟩)

theorem mem_children_of_items_eq_some (h : s.items = some child) : child ∈ s.children :=
  mem_children_iff.mpr (.inr (.inl h))

theorem mem_children_of_mem_allOf (h : child ∈ s.allOf) : child ∈ s.children :=
  mem_children_iff.mpr (.inr (.inr (.inl h)))

theorem mem_children_of_mem_oneOf (h : child ∈ s.oneOf) : child ∈ s.children :=
  mem_children_iff.mpr (.inr (.inr (.inr (.inl h))))

theorem mem_children_of_mem_anyOf (h : child ∈ s.anyOf) : child ∈ s.children :=
  mem_children_iff.mpr (.inr (.inr (.inr (.inr (.inl h)))))

/-- The branches that a node without a declared type chooses among. -/
theorem mem_children_of_mem_alternatives
    (h : child ∈ if s.oneOf.isEmpty then s.anyOf else s.oneOf) : child ∈ s.children := by
  split at h
  · exact mem_children_of_mem_anyOf h
  · exact mem_children_of_mem_oneOf h

end Places

theorem sizeOf_lt_of_mem_children {child s : Schema} (h : child ∈ s.children) :
    sizeOf child < sizeOf s := by
  obtain ⟨keywords, properties, items, allOf, oneOf, anyOf, negated⟩ := s
  rw [node.sizeOf_spec]
  rcases mem_children_iff.mp h with ⟨name, h⟩ | h | h | h | h | h
  · have hlt := List.sizeOf_lt_of_mem h
    rw [Prod.mk.sizeOf_spec, Schema.properties] at hlt
    omega
  · rw [Schema.items] at h
    rw [h, Option.some.sizeOf_spec]
    omega
  · have hlt := List.sizeOf_lt_of_mem h
    rw [Schema.allOf] at hlt
    omega
  · have hlt := List.sizeOf_lt_of_mem h
    rw [Schema.oneOf] at hlt
    omega
  · have hlt := List.sizeOf_lt_of_mem h
    rw [Schema.anyOf] at hlt
    omega
  · rw [Schema.negated] at h
    rw [h, Option.some.sizeOf_spec]
    omega

/-- What holds of a node whenever it holds of the schemas right below it holds of every schema. -/
theorem children_induction {P : Schema → Prop} (step : ∀ s, (∀ child ∈ s.children, P child) → P s)
    (s : Schema) : P s :=
  step s fun child _h ↦ children_induction step child
termination_by sizeOf s
decreasing_by exact sizeOf_lt_of_mem_children _h

/-- A schema occurs within itself and within whatever has it below. -/
inductive Within (t : Schema) : Schema → Prop
  | self : Within t t
  | step {child s : Schema} : child ∈ s.children → Within t child → Within t s

theorem Within.trans {t s u : Schema} (h : Within t s) (h' : Within s u) : Within t u := by
  induction h' with
  | self => exact h
  | step hchild _ ih => exact .step hchild ih

/-- What holds of a node and of all nodes of the schemas right below it holds of all nodes. -/
theorem forall_within {P : Schema → Prop} {s : Schema} (hself : P s)
    (hchildren : ∀ child ∈ s.children, ∀ t, Within t child → P t) : ∀ t, Within t s → P t := by
  intro t ht
  cases ht with
  | self => exact hself
  | step hchild ht => exact hchildren _ hchild t ht

end SchemaTypes.Schema
