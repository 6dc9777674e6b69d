import SchemaTypes.Declaration.TypeExpression
import SchemaTypes.Proofs.Identifier.PathNames
import SchemaTypes.Proofs.Schema.Nesting

/-!
# Places of an emission

A schema is written at a path, and the schemas right below it are written one step further down
(`Schema.Step`). Which of them are written, and what their steps are called, depends on the kind of
the schema: a property is a step of its own name, an inline variant of a union one of the name that
the variant is declared by, and all other steps are synthetic.

At each place declarations may be registered: a set of constants or a union, which is hoisted
(`Schema.Hoisted`), and the inline variants of a union (`Schema.Variant`). So whoever knows the
places of an emission knows the names under which it registers anything (`Schema.Places`). All these
names are identifiers.
-/

namespace SchemaTypes

namespace Schema

/-- The kind of the type that a node is declared with, if that is known. -/
def kind? (s : Schema) : Option PrimitiveKind :=
  match PrimaryType.ofTypes s.types with
  | .ok type => type.kind
  | .error _ => none

/-- The branches that a node without a declared type chooses among. -/
def alternatives (s : Schema) : List Schema := if s.oneOf.isEmpty then s.anyOf else s.oneOf

/-- How the step to a branch begins. -/
def marker (s : Schema) : String := if s.oneOf.isEmpty then "_anyOf" else "_oneOf"

/-- A node is written as a choice among branches. -/
structure IsChoice (s : Schema) : Prop where
  kind : s.kind? = some .untyped
  allOf : s.allOf = []
  alternatives : s.alternatives ≠ []

/-- A node is written as an object with its properties. -/
inductive IsObject (s : Schema) : Prop
  | declared : s.kind? = some .object → IsObject s
  | untyped : s.kind? = some .untyped → s.allOf = [] → s.alternatives = [] → s.negated = none →
      IsObject s

/-- A node is written as a set of constants. -/
inductive IsConstantSet (s : Schema) : Prop
  | text : s.kind? = some .string → s.keywords.format ≠ .text "snowflake" →
      s.keywords.format ≠ .text "date-time" → s.oneOf ≠ [] → IsConstantSet s
  | integer : s.kind? = some .integer → s.oneOf ≠ [] → IsConstantSet s

/-- A branch of a union is declared inline, under a name. At a root the union goes by the name of
the schema. -/
inductive Variant (env : Environment) (s : Schema) (path : Path) (name : String)
    (t : Schema) : Prop
  | intro {union : String} {names : List String} : s.IsChoice →
      env.branchBesideNull s.alternatives = .ok none →
      union = path.exportedName ∨ path.isRoot = true ∧ union = TypeExpression.declaredName path →
      TypeExpression.variantNames env union s.alternatives = .ok names →
      (name, t) ∈ names.zip s.alternatives → t.isSchemaReference = .ok false →
      Variant env s path name t

/-- What a step of a path stands for. -/
inductive StepKind where
  | property | variant | synthetic

/-- A schema is written one step below another one. -/
inductive Step (env : Environment) (s : Schema) (path : Path) : StepKind → String → Schema → Prop
  | property {name : String} {t : Schema} : s.IsObject → (name, t) ∈ s.properties →
      (Identifier.ofSnakeCase name).isEmpty = false → Step env s path .property name t
  | items {t : Schema} : s.kind? = some .array → s.items = some t →
      Step env s path .synthetic "_[]" t
  | member {index : Nat} {t : Schema} : s.kind? = some .untyped → s.allOf[index]? = some t →
      Step env s path .synthetic ("_allOf[" ++ toString index ++ "]") t
  | beside {index : Nat} {t : Schema} : s.IsChoice →
      env.branchBesideNull s.alternatives = .ok (some index) → s.alternatives[index]? = some t →
      Step env s path .synthetic (s.marker ++ "[" ++ toString index ++ "]") t
  | variant {name : String} {t : Schema} : Variant env s path name t →
      Step env s path .variant name t

/-- What is written for a schema is hoisted, under the name that goes with its place. -/
inductive Hoisted (env : Environment) (s : Schema) (path : Path) : Prop
  | constants : s.IsConstantSet → path.isRoot = false → Hoisted env s path
  | union : s.IsChoice → env.branchBesideNull s.alternatives = .ok none → Hoisted env s path

/-- A notion of place that every step keeps to, and at whose places nothing is registered but under
names that may be. -/
structure Places (env : Environment) (mayRegister : String → Prop)
    (place : Schema → Path → Prop) : Prop where
  step {s t : Schema} {path : Path} {kind : StepKind} {name : String} :
    place s path → Step env s path kind name t → place t (path.push name)
  hoist {s : Schema} {path : Path} :
    place s path → Hoisted env s path → mayRegister path.exportedName
  variant {s t : Schema} {path : Path} {name : String} :
    place s path → Variant env s path name t → mayRegister name

/-- Every schema may be anywhere, if all names may be registered. -/
theorem Places.everywhere (env : Environment) : Places env (fun _ ↦ True) fun _ _ ↦ True :=
  ⟨fun _ _ ↦ trivial, fun _ _ ↦ trivial, fun _ _ ↦ trivial⟩

variable {env : Environment} {s t : Schema}

theorem kind?_eq_of_ofTypes_eq_ok {type : PrimaryType}
    (h : PrimaryType.ofTypes s.types = .ok type) : s.kind? = type.kind := by
  rw [kind?, h]

theorem alternatives_of_oneOf_ne_nil (h : s.oneOf ≠ []) : s.alternatives = s.oneOf := by
  rw [alternatives, if_neg (by simpa using h)]

theorem alternatives_of_oneOf_eq_nil (h : s.oneOf = []) : s.alternatives = s.anyOf := by
  rw [alternatives, if_pos (by simpa using h)]

theorem IsObject.kind?_ne_none (h : s.IsObject) : s.kind? ≠ none := by
  cases h with
  | declared hkind => simp [hkind]
  | untyped hkind => simp [hkind]

theorem IsConstantSet.kind?_ne_none (h : s.IsConstantSet) : s.kind? ≠ none := by
  cases h with
  | text hkind => simp [hkind]
  | integer hkind => simp [hkind]

theorem IsChoice.kind?_ne_none (h : s.IsChoice) : s.kind? ≠ none := by simp [h.kind]

/-- What is written below a schema is one of the schemas right below it. -/
theorem Step.mem_children {path : Path} {kind : StepKind} {name : String}
    (h : Step env s path kind name t) : t ∈ s.children := by
  cases h with
  | property _ hmem => exact mem_children_of_mem_properties hmem
  | items _ hitems => exact mem_children_of_items_eq_some hitems
  | member _ hmember => exact mem_children_of_mem_allOf (List.mem_of_getElem? hmember)
  | beside _ _ hbranch => exact mem_children_of_mem_alternatives (List.mem_of_getElem? hbranch)
  | variant hvariant =>
    obtain ⟨_, _, _, _, hmem, _⟩ := hvariant
    exact mem_children_of_mem_alternatives (List.of_mem_zip hmem).2

/-- Below a schema whose type is not known nothing is written. -/
theorem Step.kind?_ne_none {path : Path} {kind : StepKind} {name : String}
    (h : Step env s path kind name t) : s.kind? ≠ none := by
  cases h with
  | property hobject => exact hobject.kind?_ne_none
  | items hkind => simp [hkind]
  | member hkind => simp [hkind]
  | beside hchoice => exact hchoice.kind?_ne_none
  | variant hvariant =>
    obtain ⟨hchoice, _⟩ := hvariant
    exact hchoice.kind?_ne_none

/-- Where the type of a schema is not known nothing is hoisted. -/
theorem Hoisted.kind?_ne_none {path : Path} (h : Hoisted env s path) : s.kind? ≠ none := by
  cases h with
  | constants hconstants => exact hconstants.kind?_ne_none
  | union hchoice => exact hchoice.kind?_ne_none

/-- A node that is no reference is null by its own types. -/
theorem isNull_of_ref_eq_none (href : s.ref = none) :
    env.isNull s = .ok (s.types == ["null"]) := by
  rw [Environment.isNull, Document.deref, Document.follow, href]
  rfl

/-- What is beside null is one of the branches. -/
theorem lt_length_of_branchBesideNull {branches : List Schema} {index : Nat}
    (h : env.branchBesideNull branches = .ok (some index)) : index < branches.length := by
  rw [Environment.branchBesideNull] at h
  split at h
  · next hlength =>
    cases hnull : env.nullBranches branches with
    | error e =>
      rw [hnull] at h
      cases h
    | ok nulls =>
      rw [hnull] at h
      simp only [bind, Except.bind, pure, Except.pure] at h
      split at h
      · cases h
        omega
      · cases h
        omega
      · cases h
  · cases h

/-! ## Unions at a root -/

/-- A union that is declared at a root is a choice among its branches, none of them beside null. -/
theorem of_unionBranches_eq_ok {branches : List Schema}
    (h : env.unionBranches s = .ok (some branches)) :
    s.IsChoice ∧ env.branchBesideNull s.alternatives = .ok none ∧ branches = s.alternatives := by
  unfold Environment.unionBranches at h
  change (if (!s.types.isEmpty || !s.allOf.isEmpty) = true then _ else
    if s.alternatives.isEmpty = true then _ else
      env.branchBesideNull s.alternatives >>= _) = _ at h
  split at h
  · cases h
  next hplain =>
  split at h
  · cases h
  next hbranches =>
  rw [Bool.not_eq_true, Bool.or_eq_false_iff, Bool.not_eq_false', Bool.not_eq_false',
    List.isEmpty_iff, List.isEmpty_iff] at hplain
  cases hbeside : env.branchBesideNull s.alternatives with
  | error e =>
    rw [hbeside] at h
    cases h
  | ok beside =>
    rw [hbeside] at h
    cases beside with
    | some index => cases h
    | none =>
      cases h
      refine ⟨⟨?_, hplain.2, by simpa using hbranches⟩, rfl, rfl⟩
      rw [kind?, hplain.1]
      rfl

theorem mem_children_of_mem_unionBranches {branch : Schema} {branches : List Schema}
    (h : env.unionBranches s = .ok (some branches)) (hmem : branch ∈ branches) :
    branch ∈ s.children := by
  obtain ⟨-, -, rfl⟩ := of_unionBranches_eq_ok h
  exact mem_children_of_mem_alternatives hmem

end Schema

namespace Environment

/-- The node that decides how a schema is declared: an alias is followed to its end. -/
def declaredNode (env : Environment) (s : Schema) : Except Mismatch Schema := do
  if ← s.isSchemaReference then env.document.deref s else .ok s

/-- A schema is declared by the block of a union. -/
def DeclaresUnion (env : Environment) (s : Schema) : Prop :=
  ∃ node branches, env.declaredNode s = .ok node ∧ env.unionBranches node = .ok (some branches)

end Environment

/-! ## Names that are declared -/

namespace TypeExpression

open Identifier

theorem lettered_declaredName (path : Path) : Lettered (declaredName path) := by
  unfold declaredName
  split
  · exact lettered_ofMixedCase _
  · exact path.lettered_exportedName

variable {env : Environment} {union : String}

theorem lettered_variantName (hunion : Lettered union) {before : List String} {branch : Schema}
    {name : String} (h : variantName env union before branch = .ok name) : Lettered name := by
  have hnumbered : Lettered (union ++ toString before.length) :=
    hunion.append (lettered_toString _)
  have hchoice : ∀ own, Lettered own → Lettered (if before.contains own then
      union ++ toString before.length else own) := by
    intro own hown
    split
    · exact hnumbered
    · exact hown
  rw [variantName] at h
  cases hreference : branch.isSchemaReference with
  | error e =>
    rw [hreference] at h
    cases h
  | ok isReference =>
    rw [hreference] at h
    cases isReference with
    | true =>
      cases href : branch.refName with
      | error e =>
        rw [href] at h
        cases h
      | ok ref =>
        rw [href] at h
        cases h
        exact hchoice _ (lettered_ofMixedCase _)
    | false =>
      cases htype : PrimaryType.ofTypes branch.types with
      | error e =>
        rw [htype] at h
        cases h
        exact hchoice _ hnumbered
      | ok type =>
        rw [htype] at h
        cases h
        refine hchoice _ ?_
        split
        · exact hnumbered
        · exact hunion.append (lettered_ofSnakeCase _)

/-- The branches of a union go by identifiers if the union does. -/
theorem lettered_variantNames (hunion : Lettered union) {branches : List Schema}
    {names : List String} (h : variantNames env union branches = .ok names) :
    ∀ name ∈ names, Lettered name := by
  have hbefore : ∀ name ∈ ([] : List String), Lettered name := List.forall_mem_nil _
  rw [variantNames] at h
  generalize ([] : List String) = before at h hbefore
  induction branches generalizing before with
  | nil =>
    cases h
    exact hbefore
  | cons branch rest ih =>
    rw [variantNamesAfter] at h
    cases hname : variantName env union before branch with
    | error e =>
      rw [hname] at h
      cases h
    | ok name =>
      rw [hname] at h
      refine ih _ h (List.forall_mem_append.mpr ⟨hbefore, ?_⟩)
      exact List.forall_mem_singleton.mpr (lettered_variantName hunion hname)

end TypeExpression

end SchemaTypes
