import SchemaTypes.Proofs.Emission.Outputs
import SchemaTypes.Proofs.Emission.Variants
import SchemaTypes.Proofs.Run.Collection

/-!
# Declarations of variants

A union hands over a declaration of every variant that is inline. A branch that refers to a schema
is passed over, since that schema is declared under its own name. But the branch goes by this name
only if none before it does. Otherwise it goes by its number, like an inline variant without a type,
and is passed over all the same (`IsVariant`). So all variants that the block of a union lists are
declared exactly if those numbers are, for whatever other reason (`variants_declared_iff`).
-/

namespace SchemaTypes.TypeExpression

open Declaration Emit Event

variable {env : Environment} {union : String} {branches : List Schema} {names : List String}

/-! ## Names by their places -/

theorem getElem?_settle {owns : List String} {i : Nat} {own : String} (h : owns[i]? = some own) :
    (settle union owns)[i]? = some (settled union ((settle union owns).take i) own) := by
  induction owns using List.reverseRecOn with
  | nil => cases h
  | append_singleton owns last ih =>
    obtain ⟨hlt, -⟩ := List.getElem?_eq_some_iff.mp h
    rw [List.length_append, List.length_singleton] at hlt
    rw [settle_concat, List.take_append_of_le_length (by rw [length_settle]; omega)]
    by_cases hend : i = owns.length
    · subst hend
      rw [List.getElem?_concat_length, Option.some_inj] at h
      rw [← h, List.take_of_length_le (by rw [length_settle]), ← length_settle union owns,
        List.getElem?_concat_length]
    · rw [List.getElem?_append_left (by omega)] at h
      rw [List.getElem?_append_left (by rw [length_settle]; omega)]
      exact ih h

theorem forall₂_ownNames {owns : List String} {index : Nat}
    (h : ownNames env union index branches = .ok owns) :
    List.Forall₂ (fun p own ↦ ownName env union p.2 p.1 = .ok own) (branches.zipIdx index)
      owns := by
  induction branches generalizing index owns with
  | nil =>
    cases h
    exact .nil
  | cons branch rest ih =>
    obtain ⟨own, hown, h⟩ := exists_of_bind_eq_ok h
    obtain ⟨others, hothers, h⟩ := exists_of_bind_eq_ok h
    cases h
    exact .cons hown (ih hothers)

theorem exists_ownNames_of_variantNames (h : variantNames env union branches = .ok names) :
    ∃ owns, ownNames env union 0 branches = .ok owns ∧ names = settle union owns := by
  rw [variantNames_eq_map_settle] at h
  rcases howns : ownNames env union 0 branches with _ | owns
  · rw [howns] at h
    cases h
  · rw [howns] at h
    exact ⟨owns, rfl, (Except.ok.inj h).symm⟩

theorem length_variantNames (h : variantNames env union branches = .ok names) :
    names.length = branches.length := by
  obtain ⟨owns, howns, rfl⟩ := exists_ownNames_of_variantNames h
  rw [length_settle, ← (forall₂_ownNames howns).length_eq, List.length_zipIdx]

/-- A branch goes by its own name, unless that is among the names before it. -/
theorem exists_settled_of_getElem? {i : Nat} {branch : Schema} {name : String}
    (h : variantNames env union branches = .ok names) (hbranch : branches[i]? = some branch)
    (hname : names[i]? = some name) :
    ∃ own, ownName env union i branch = .ok own ∧ name = settled union (names.take i) own := by
  obtain ⟨owns, howns, rfl⟩ := exists_ownNames_of_variantNames h
  obtain ⟨hlength, hown⟩ := List.forall₂_iff_get.mp (forall₂_ownNames howns)
  obtain ⟨hlt, rfl⟩ := List.getElem?_eq_some_iff.mp hbranch
  have hi : i < owns.length := by rw [← hlength, List.length_zipIdx]; exact hlt
  have hsettled : (settle union owns)[i]? =
      some (settled union ((settle union owns).take i) owns[i]) :=
    getElem?_settle (List.getElem?_eq_getElem hi)
  refine ⟨owns[i], ?_, Option.some.inj (hname.symm.trans hsettled)⟩
  simpa using hown i (by simpa using hlt) hi

theorem exists_refName_of_ownName {i : Nat} {branch : Schema} {own : String}
    (href : branch.isSchemaReference = .ok true) (h : ownName env union i branch = .ok own) :
    ∃ ref, branch.refName = .ok ref ∧ own = env.typeName ref := by
  obtain ⟨isReference, hreference, h⟩ := exists_of_bind_eq_ok h
  rw [href] at hreference
  cases hreference
  obtain ⟨ref, hrefName, h⟩ := exists_of_bind_eq_ok h
  exact ⟨ref, hrefName, (Except.ok.inj h).symm⟩

/-! ## What is handed over -/

/-- A variant goes by the name of the schema it refers to, unless that is among the names before it,
or it is handed over with what is written for it. -/
inductive IsVariant (env : Environment) (part : Schema → Path → Output → Prop) (union : String)
    (path : Path) (before : List String) (declarations : List (String × String)) (branch : Schema)
    (name : String) : Prop
  | reference {ref : String} : branch.isSchemaReference = .ok true → branch.refName = .ok ref →
      name = settled union before (env.typeName ref) →
      IsVariant env part union path before declarations branch name
  | inline {inner : Output} : branch.isSchemaReference = .ok false →
      part branch (path.push name) inner →
      (name, "type " ++ name ++ " " ++ inner.text ++ "\n\n") ∈ declarations →
      IsVariant env part union path before declarations branch name

section

variable {part : Schema → Path → Output → Prop} {path : Path} {variants : List (String × Schema)}
  {outputs : List Output} {o : Output}

/-- What a union hands over for a branch that is inline. -/
theorem exists_declaration_of_mem {name : String} {branch : Schema}
    (h : List.Forall₂ (Schema.WritesVariant part path) variants outputs)
    (hmem : (name, branch) ∈ variants) :
    branch.isSchemaReference = .ok true ∨ branch.isSchemaReference = .ok false ∧
      ∃ inner, part branch (path.push name) inner ∧
        (name, "type " ++ name ++ " " ++ inner.text ++ "\n\n") ∈
          (Output.join outputs).declarations := by
  obtain ⟨o, ho, hvariant⟩ := exists_mem_of_forall₂ h _ hmem
  cases hvariant with
  | elsewhere href => exact .inl href
  | @inline _ _ inner href hinner =>
    refine .inr ⟨href, inner, hinner, ?_⟩
    rw [Output.declarations_join]
    exact List.mem_flatMap.mpr ⟨_, ho, List.mem_append_right _ (List.mem_singleton_self _)⟩

/-- Every branch of a union comes to one variant, in order. -/
theorem exists_variants (h : Schema.WritesUnion env part union branches path o) :
    ∃ names, variantNames env union branches = .ok names ∧
      o.text = trimFeeds (unionBlock union names) ++ "\n\n" ∧
      ∀ i branch name, branches[i]? = some branch → names[i]? = some name →
        IsVariant env part union path (names.take i) o.declarations branch name := by
  obtain @⟨names, outputs, hnames, hvariants⟩ := h
  refine ⟨names, hnames, ?_, fun i branch name hbranch hname ↦ ?_⟩
  · have hnothing : ∀ v ∈ outputs, v.text = "" :=
      forall_mem_of_forall₂ hvariants fun _ _ _ hvariant ↦ by cases hvariant <;> rfl
    rw [Output.text_append, Output.text_join_eq_empty hnothing, String.append_empty]
    rfl
  · have hmem : (name, branch) ∈ names.zip branches :=
      List.mem_of_getElem? (List.getElem?_zip_eq_some.mpr ⟨hname, hbranch⟩)
    rcases exists_declaration_of_mem hvariants hmem with href | ⟨href, inner, hinner, hdeclared⟩
    · obtain ⟨own, hown, hsettled⟩ := exists_settled_of_getElem? hnames hbranch hname
      obtain ⟨ref, hrefName, rfl⟩ := exists_refName_of_ownName href hown
      exact .reference href hrefName hsettled
    · rw [Output.declarations_append]
      exact .inline href hinner (List.mem_append_right _ hdeclared)

end

/-! ## What is declared -/

/-- The name of a variant is declared: as that of a schema that a branch refers to, by what the
union hands over, or by what has been registered before. -/
inductive VariantDeclared (env : Environment) (branches : List Schema)
    (declarations registered : List (String × String)) (name : String) : Prop
  | schema {branch : Schema} {ref : String} : branch ∈ branches →
      branch.isSchemaReference = .ok true → branch.refName = .ok ref → env.typeName ref = name →
      VariantDeclared env branches declarations registered name
  | inline {body : String} : (name, "type " ++ name ++ " " ++ body ++ "\n\n") ∈ declarations →
      VariantDeclared env branches declarations registered name
  | before : (registered.lookup name).isSome →
      VariantDeclared env branches declarations registered name

/-- Only a reference whose name is taken needs somebody else to declare its variant. -/
theorem forall_variantDeclared_iff {part : Schema → Path → Output → Prop} {path : Path}
    {declarations : List (String × String)} (hlength : names.length = branches.length)
    (hvariants : ∀ i branch name, branches[i]? = some branch → names[i]? = some name →
      IsVariant env part union path (names.take i) declarations branch name)
    (registered : List (String × String)) :
    (∀ name ∈ names, VariantDeclared env branches declarations registered name) ↔
      ∀ i branch ref, branches[i]? = some branch → branch.isSchemaReference = .ok true →
        branch.refName = .ok ref → env.typeName ref ∈ names.take i →
          VariantDeclared env branches declarations registered (numberedName union i) := by
  constructor
  · intro hall i branch ref hbranch href hrefName htaken
    obtain ⟨hlt, -⟩ := List.getElem?_eq_some_iff.mp hbranch
    have hi : i < names.length := hlength ▸ hlt
    have hnumbered : names[i] = numberedName union i := by
      cases hvariants i branch _ hbranch (List.getElem?_eq_getElem hi) with
      | reference _ hrefName' hsettled =>
        cases hrefName.symm.trans hrefName'
        rw [hsettled, settled, if_pos htaken, List.length_take_of_le (Nat.le_of_lt hi)]
      | inline hinline => cases href.symm.trans hinline
    exact hnumbered ▸ hall _ (List.getElem_mem hi)
  · intro hnumbered name hname
    obtain ⟨i, hi, rfl⟩ := List.getElem_of_mem hname
    have hbranch : branches[i]? = some branches[i] := List.getElem?_eq_getElem (hlength ▸ hi)
    cases hvariants i _ _ hbranch (List.getElem?_eq_getElem hi) with
    | inline _ _ hdeclared => exact .inline hdeclared
    | @reference ref href hrefName hsettled =>
      rw [settled] at hsettled
      split at hsettled
      · next htaken =>
        rw [hsettled, List.length_take_of_le (Nat.le_of_lt hi)]
        exact hnumbered i _ ref hbranch href hrefName htaken
      · exact .schema (List.mem_of_getElem? hbranch) href hrefName hsettled.symm

/-- **When the variants of a union are declared.** The block of a union lists one name for every
branch. An inline branch is handed over under its name, with what is written for it there. A branch
that refers to a schema goes by the name of that schema, unless a branch before it does: then it
goes by its number. So all names are declared exactly if the numbers of such branches are. -/
theorem variants_declared_iff {path : Path} {memory : Correlator.Memory}
    (h : (namedUnion env union (Schema.branchParts env branches) path memory).result = .ok ()) :
    ∃ names o, (namedUnion env union (Schema.branchParts env branches) path memory).output = o ∧
      variantNames env union branches = .ok names ∧ names.length = branches.length ∧
      o.text = trimFeeds (unionBlock union names) ++ "\n\n" ∧
      (∀ i branch name, branches[i]? = some branch → names[i]? = some name →
        IsVariant env (Leaves env) union path (names.take i) o.declarations branch name) ∧
      ∀ registered : List (String × String),
        (∀ name ∈ names, VariantDeclared env branches o.declarations registered name) ↔
          ∀ i branch ref, branches[i]? = some branch → branch.isSchemaReference = .ok true →
            branch.refName = .ok ref → env.typeName ref ∈ names.take i →
              VariantDeclared env branches o.declarations registered (numberedName union i) := by
  have hchildren : ∀ branch ∈ branches,
      branch ∈ (Schema.node (.blank 0) [] none [] branches [] none).children :=
    fun branch hbranch ↦ Schema.mem_children_of_mem_oneOf hbranch
  have hwrites : Schema.WritesUnion env (Leaves env) union branches path
      (namedUnion env union (Schema.branchParts env branches) path memory).output :=
    (ensures_namedUnion (ensuresChildren_leaves env _) union hchildren memory () trivial h).2
  obtain ⟨names, hnames, htext, hvariants⟩ := exists_variants hwrites
  have hlength := length_variantNames hnames
  exact ⟨names, _, rfl, hnames, hlength, htext, hvariants,
    forall_variantDeclared_iff hlength hvariants⟩

/-- A document with one schema. -/
def levelEnvironment : Environment :=
  Generation.plainEnvironment
    ⟨[("Amount", .leaf { Schema.Keywords.blank 1 with types := ["integer"] })], []⟩

/-- A branch that refers to that schema. -/
def amountBranch : Schema := .reference (.text "#/components/schemas/Amount") 2

/-- That branch, and one that is inline. -/
def levelBranches : List Schema :=
  [amountBranch, .leaf { Schema.Keywords.blank 3 with types := ["string"] }]

/-- Both variants are declared, the inline one by the union. -/
theorem variants_declared_iff_levels :
    ∃ o, (namedUnion levelEnvironment "Level" (Schema.branchParts levelEnvironment levelBranches)
        (.ofRoot "Level") []).output = o ∧
      o.text = trimFeeds (unionBlock "Level" ["Amount", "LevelString"]) ++ "\n\n" ∧
      ∀ name ∈ ["Amount", "LevelString"],
        VariantDeclared levelEnvironment levelBranches o.declarations [] name := by
  have hended : (namedUnion levelEnvironment "Level"
      (Schema.branchParts levelEnvironment levelBranches) (.ofRoot "Level") []).result =
        .ok () := by
    decide +kernel
  obtain ⟨names, o, ho, hnames, -, htext, -, hdeclared⟩ := variants_declared_iff hended
  have hsame : variantNames levelEnvironment "Level" levelBranches =
      .ok ["Amount", "LevelString"] := by
    decide +kernel
  cases hnames.symm.trans hsame
  refine ⟨o, ho, htext, (hdeclared []).mpr fun i branch ref hbranch href _ htaken ↦ ?_⟩
  -- The only reference is the first branch, and no name is taken there.
  match i with
  | 0 => cases htaken
  | 1 =>
    cases hbranch
    exact absurd href (by decide)
  | _ + 2 => cases hbranch

/-- Two branches that refer to one schema. -/
def repeatedBranches : List Schema := [amountBranch, amountBranch]

/-- A variant may be declared nowhere: the second branch that refers to a schema is passed over, but
goes by a name of its own. -/
theorem not_variants_declared :
    ¬ ∀ (env : Environment) (union : String) (branches : List Schema) (path : Path)
        (memory : Correlator.Memory) (names : List String),
      (namedUnion env union (Schema.branchParts env branches) path memory).result = .ok () →
        variantNames env union branches = .ok names → ∀ name ∈ names,
          VariantDeclared env branches
            (namedUnion env union (Schema.branchParts env branches) path memory).output.declarations
            [] name := by
  intro h
  have hended : (namedUnion levelEnvironment "Level"
      (Schema.branchParts levelEnvironment repeatedBranches) (.ofRoot "Level") []).result =
        .ok () := by
    decide +kernel
  have hnames : variantNames levelEnvironment "Level" repeatedBranches =
      .ok ["Amount", "Level1"] := by
    decide +kernel
  have hnone : (namedUnion levelEnvironment "Level"
      (Schema.branchParts levelEnvironment repeatedBranches) (.ofRoot "Level")
      []).output.declarations = [] := by
    decide +kernel
  have hdeclared := h _ _ _ _ _ _ hended hnames "Level1" (by decide)
  rw [hnone] at hdeclared
  cases hdeclared with
  | @schema branch ref hbranch _ hrefName hname =>
    obtain rfl : amountBranch = branch := by simpa [repeatedBranches, eq_comm] using hbranch
    have hamount : amountBranch.refName = .ok "Amount" := by decide
    cases hrefName.symm.trans hamount
    revert hname
    decide
  | inline hmem => cases hmem
  | before hheld => cases hheld

end SchemaTypes.TypeExpression
