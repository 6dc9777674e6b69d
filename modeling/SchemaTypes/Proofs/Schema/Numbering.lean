import Mathlib.Tactic.Tauto
import SchemaTypes.Proofs.Schema.Nesting
import SchemaTypes.Schema.Canonical
import SchemaTypes.Schema.Document

/-!
# Positions of schemas

The nodes of a document are numbered in the order in which they are read, so that the numbers depend
on all that stands before a schema. What matters of them is the order of the properties of one node.

A map of schemas that changes nothing but numbers (`Schema.Renumbers`) keeps the shape of a schema,
what it refers to and what its references lead to. Taking all numbers away is such a map
(`Schema.unnumbered`); it also keeps the order of properties, if these stand in the order in which
they are numbered (`Schema.keepsOrder_unnumbered`).
-/

namespace SchemaTypes

namespace Schema

/-! ## Maps of positions -/

/-- A map of schemas that changes nothing but positions. -/
structure Renumbers (f : Schema → Schema) : Prop where
  keywords (s : Schema) : (f s).keywords = { s.keywords with line := (f s).line }
  properties (s : Schema) : (f s).properties = s.properties.map fun (name, t) ↦ (name, f t)
  items (s : Schema) : (f s).items = s.items.map f
  allOf (s : Schema) : (f s).allOf = s.allOf.map f
  oneOf (s : Schema) : (f s).oneOf = s.oneOf.map f
  anyOf (s : Schema) : (f s).anyOf = s.anyOf.map f
  negated (s : Schema) : (f s).negated = s.negated.map f

theorem renumbers_id : Renumbers id where
  keywords _ := rfl
  properties s := (List.map_id s.properties).symm
  items _ := Option.map_id_apply.symm
  allOf s := (List.map_id s.allOf).symm
  oneOf s := (List.map_id s.oneOf).symm
  anyOf s := (List.map_id s.anyOf).symm
  negated _ := Option.map_id_apply.symm

/-- A map of positions leaves the order of the properties of a node as it is. -/
def KeepsOrder (f : Schema → Schema) (s : Schema) : Prop :=
  sorted (fun a b ↦ (f a.2).line ≤ (f b.2).line) s.properties = s.sortedProperties

theorem keepsOrder_id (s : Schema) : KeepsOrder id s := rfl

namespace Renumbers

variable {f : Schema → Schema} (hf : Renumbers f)

include hf

theorem ref (s : Schema) : (f s).ref = s.ref := by rw [Schema.ref, hf.keywords]; rfl

theorem types (s : Schema) : (f s).types = s.types := by rw [Schema.types, hf.keywords]; rfl

theorem refNamespace (s : Schema) : (f s).refNamespace = s.refNamespace := by
  rw [Schema.refNamespace, hf.ref]
  rfl

theorem refName (s : Schema) : (f s).refName = s.refName := by
  rw [Schema.refName, hf.ref]
  rfl

theorem isSchemaReference (s : Schema) : (f s).isSchemaReference = s.isSchemaReference := by
  rw [Schema.isSchemaReference, hf.refNamespace]
  rfl

end Renumbers

/-! ## Shapes -/

theorem propertiesToJson_eq_map (properties : List (String × Schema)) :
    propertiesToJson properties = properties.map fun (name, s) ↦ (name, s.toJson) := by
  induction properties with
  | nil => rw [propertiesToJson, List.map_nil]
  | cons p rest ih => rw [propertiesToJson, ih, List.map_cons]

theorem branchesToJson_eq_map (branches : List Schema) :
    branchesToJson branches = branches.map toJson := by
  induction branches with
  | nil => rw [branchesToJson, List.map_nil]
  | cons s rest ih => rw [branchesToJson, ih, List.map_cons]

theorem partToJson_eq_map (key : String) (part : Option Schema) :
    partToJson key part = (part.map fun s ↦ (key, s.toJson)).toList := by
  cases part <;> rw [partToJson] <;> rfl

theorem toJson_eq (s : Schema) :
    s.toJson = .object (
      (match s.keywords.ref with
        | some ref => [("$ref", ref)]
        | none => []) ++
      member "type" (textList s.keywords.types) ++
      member "nullable" (.bool s.keywords.nullable) ++
      member "properties" (.object (s.properties.map fun (name, t) ↦ (name, t.toJson))) ++
      member "required" (.list s.keywords.required) ++
      (s.items.map fun t ↦ ("items", t.toJson)).toList ++
      member "allOf" (.list (s.allOf.map toJson)) ++
      member "oneOf" (.list (s.oneOf.map toJson)) ++
      member "anyOf" (.list (s.anyOf.map toJson)) ++
      (s.negated.map fun t ↦ ("not", t.toJson)).toList ++
      member "format" s.keywords.format ++
      member "title" s.keywords.title ++
      member "description" s.keywords.description ++
      (match s.keywords.const with
        | some value => [("const", value)]
        | none => [])) := by
  cases s
  rw [toJson]
  simp only [propertiesToJson_eq_map, branchesToJson_eq_map, partToJson_eq_map]
  rfl

/-- The shape of a schema has no positions. -/
theorem Renumbers.toJson {f : Schema → Schema} (hf : Renumbers f) (s : Schema) :
    (f s).toJson = s.toJson := by
  induction s using children_induction with
  | step s ih =>
    have hproperties : (f s).properties.map (fun (name, t) ↦ (name, t.toJson)) =
        s.properties.map fun (name, t) ↦ (name, t.toJson) := by
      rw [hf.properties, List.map_map]
      refine List.map_congr_left ?_
      rintro ⟨name, t⟩ ht
      exact congrArg (Prod.mk name) (ih t (mem_children_iff.mpr (.inl ⟨name, ht⟩)))
    have hpart : ∀ (key : String) (part : Option Schema),
        (∀ t, part = some t → t ∈ s.children) →
        (part.map f).map (fun t ↦ (key, t.toJson)) = part.map fun t ↦ (key, t.toJson) := by
      intro key part hmem
      rw [Option.map_map]
      exact Option.map_congr fun t ht ↦ congrArg (Prod.mk key) (ih t (hmem t ht))
    have hbranches : ∀ branches : List Schema, (∀ t ∈ branches, t ∈ s.children) →
        (branches.map f).map Schema.toJson = branches.map Schema.toJson := by
      intro branches hmem
      rw [List.map_map]
      exact List.map_congr_left fun t ht ↦ ih t (hmem t ht)
    rw [toJson_eq, toJson_eq, hproperties, hf.items, hf.allOf, hf.oneOf, hf.anyOf, hf.negated,
      hpart _ s.items fun t ht ↦ mem_children_iff.mpr (by tauto),
      hpart _ s.negated fun t ht ↦ mem_children_iff.mpr (by tauto),
      hbranches s.allOf fun t ht ↦ mem_children_iff.mpr (by tauto),
      hbranches s.oneOf fun t ht ↦ mem_children_iff.mpr (by tauto),
      hbranches s.anyOf fun t ht ↦ mem_children_iff.mpr (by tauto), hf.keywords]

theorem Renumbers.canonicalText {f : Schema → Schema} (hf : Renumbers f) (s : Schema) :
    (f s).canonicalText = s.canonicalText := by
  rw [Schema.canonicalText, Schema.canonicalText, hf.toJson]

/-! ## Schemas without positions -/

mutual

/-- A schema in which no node has a position. -/
def unnumbered : Schema → Schema
  | .node keywords properties items allOf oneOf anyOf negated =>
    .node { keywords with line := 0 } (namedUnnumbered properties) (optionalUnnumbered items)
      (branchesUnnumbered allOf) (branchesUnnumbered oneOf) (branchesUnnumbered anyOf)
      (optionalUnnumbered negated)

/-- Properties in which no node has a position. -/
def namedUnnumbered : List (String × Schema) → List (String × Schema)
  | [] => []
  | (name, s) :: rest => (name, unnumbered s) :: namedUnnumbered rest

/-- A single schema below a node, without positions. -/
def optionalUnnumbered : Option Schema → Option Schema
  | none => none
  | some s => some (unnumbered s)

/-- Branches of a combinator in which no node has a position. -/
def branchesUnnumbered : List Schema → List Schema
  | [] => []
  | s :: rest => unnumbered s :: branchesUnnumbered rest

end

theorem namedUnnumbered_eq_map (properties : List (String × Schema)) :
    namedUnnumbered properties = properties.map fun (name, s) ↦ (name, s.unnumbered) := by
  induction properties with
  | nil => rw [namedUnnumbered, List.map_nil]
  | cons p rest ih => rw [namedUnnumbered, ih, List.map_cons]

theorem optionalUnnumbered_eq_map (s : Option Schema) :
    optionalUnnumbered s = s.map unnumbered := by
  cases s <;> rw [optionalUnnumbered] <;> rfl

theorem branchesUnnumbered_eq_map (branches : List Schema) :
    branchesUnnumbered branches = branches.map unnumbered := by
  induction branches with
  | nil => rw [branchesUnnumbered, List.map_nil]
  | cons s rest ih => rw [branchesUnnumbered, ih, List.map_cons]

theorem unnumbered_eq (s : Schema) :
    s.unnumbered = .node { s.keywords with line := 0 }
      (s.properties.map fun (name, t) ↦ (name, t.unnumbered)) (s.items.map unnumbered)
      (s.allOf.map unnumbered) (s.oneOf.map unnumbered) (s.anyOf.map unnumbered)
      (s.negated.map unnumbered) := by
  cases s
  rw [unnumbered, namedUnnumbered_eq_map, optionalUnnumbered_eq_map, branchesUnnumbered_eq_map,
    branchesUnnumbered_eq_map, branchesUnnumbered_eq_map, optionalUnnumbered_eq_map]
  rfl

@[simp] theorem line_unnumbered (s : Schema) : s.unnumbered.line = 0 := by
  rw [unnumbered_eq]
  rfl

theorem renumbers_unnumbered : Renumbers unnumbered where
  keywords s := by rw [line_unnumbered, unnumbered_eq]; rfl
  properties s := by rw [unnumbered_eq]; rfl
  items s := by rw [unnumbered_eq]; rfl
  allOf s := by rw [unnumbered_eq]; rfl
  oneOf s := by rw [unnumbered_eq]; rfl
  anyOf s := by rw [unnumbered_eq]; rfl
  negated s := by rw [unnumbered_eq]; rfl

/-! ## Order of properties -/

/-- Within a schema properties stand in the order in which they are numbered. -/
def Ordered (s : Schema) : Prop :=
  ∀ t, Within t s → t.properties.Pairwise fun a b ↦ a.2.line ≤ b.2.line

/-- Where properties stand in the order of their numbers, the numbers can be taken away. -/
theorem keepsOrder_unnumbered {s : Schema}
    (h : s.properties.Pairwise fun a b ↦ a.2.line ≤ b.2.line) : KeepsOrder unnumbered s := by
  rw [KeepsOrder, sortedProperties, sorted_eq_self (h.imp fun hab ↦ decide_eq_true hab)]
  refine sorted_eq_self (List.pairwise_of_forall fun a b ↦ ?_)
  rw [line_unnumbered, line_unnumbered]
  rfl

end Schema

end SchemaTypes
