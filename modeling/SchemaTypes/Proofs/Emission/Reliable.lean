import SchemaTypes.Declaration.TypeExpression
import SchemaTypes.Proofs.Schema.Textual

/-!
# What emission asks for is there

Emission ends early only when something that it asks for is not of the expected type: a keyword, the
end of a reference, a setting. In a sound environment (`Environment.Sound`) and for textual schemas
each of these has an answer. Every rule that asks for something has its lemma here.
-/

namespace SchemaTypes

open Schema TypeExpression

/-- An environment in which everything that emission asks for has the expected type. -/
structure Environment.Sound (env : Environment) : Prop where
  document : env.document.Textual
  optionPath : env.options.optionImportPath.IsText
  enumNames : ∀ name, ∃ isEnum, env.options.isEnumName name = .ok isEnum

variable {env : Environment} {s : Schema} {branches : List Schema}

namespace Environment

theorem Sound.exists_optionKey (h : env.Sound) :
    ∃ key, env.options.optionImportPath.asKey = .ok key ∧ key.IsText := by
  obtain ⟨path, hpath⟩ := h.optionPath
  rw [hpath]
  exact ⟨.text path, rfl, path, rfl⟩

theorem Sound.exists_branchBesideNull_eq_ok (h : env.Sound)
    (hbranches : ∀ branch ∈ branches, branch.Textual) :
    ∃ beside, env.branchBesideNull branches = .ok beside := by
  have hnull : ∀ branch ∈ branches, ∃ isNull, env.isNull branch = .ok isNull ∧ True := by
    intro branch hbranch
    obtain ⟨t, ht, -⟩ := Document.exists_deref_eq_ok h.document (hbranches branch hbranch)
    exact ⟨_, by rw [Environment.isNull, ht]; rfl, trivial⟩
  obtain ⟨nulls, hnulls, -⟩ := exists_mapM_eq_ok hnull
  rw [branchBesideNull, nullBranches, hnulls]
  split
  · simp only [bind, Except.bind, pure, Except.pure]
    split <;> exact ⟨_, rfl⟩
  · exact ⟨_, rfl⟩

theorem Sound.exists_unionBranches_eq_ok (h : env.Sound) (hs : s.Textual) :
    ∃ branches, env.unionBranches s = .ok branches := by
  have hchosen : ∀ branch ∈ (if s.oneOf.isEmpty then s.anyOf else s.oneOf), branch.Textual :=
    fun branch hbranch ↦ hs.of_mem_children (mem_children_of_mem_alternatives hbranch)
  unfold unionBranches
  dsimp only
  generalize (if s.oneOf.isEmpty then s.anyOf else s.oneOf) = chosen at hchosen ⊢
  obtain ⟨beside, hbeside⟩ := h.exists_branchBesideNull_eq_ok hchosen
  rw [hbeside]
  split
  · exact ⟨_, rfl⟩
  split
  · exact ⟨_, rfl⟩
  cases beside <;> exact ⟨_, rfl⟩

end Environment

namespace TypeExpression

theorem exists_constant_eq_ok {keywords : Keywords} (h : keywords.Textual) (type : String)
    (value : Json) : ∃ c, constant type keywords value = .ok c := by
  obtain ⟨title, htitle⟩ := h.title.exists_textOr_eq_ok "lower"
  obtain ⟨description, hdescription⟩ := h.description.exists_textOr_eq_ok "strip"
  rw [constant, htitle, hdescription]
  split <;> exact ⟨_, rfl⟩

theorem exists_numberType_eq_ok {format : Json} (h : format.IsText) :
    ∃ type, numberType format = .ok type := by
  obtain ⟨text, rfl⟩ := h
  unfold numberType
  split
  · exact ⟨_, rfl⟩
  · next heq => cases heq
  · next heq => cases heq
  · exact ⟨_, rfl⟩

theorem exists_integerName_eq_ok (h : s.Textual) : ∃ name, integerName env s = .ok name := by
  unfold integerName
  split
  · next member hmember =>
    have hchild : member ∈ s.children := mem_children_of_mem_allOf (by simp [hmember])
    obtain ⟨isReference, href⟩ := (h.of_mem_children hchild).exists_isSchemaReference_eq_ok
    obtain ⟨name, hname⟩ := (h.of_mem_children hchild).exists_refName_eq_ok
    rw [href, hname]
    cases isReference <;> exact ⟨_, rfl⟩
  · exact ⟨_, rfl⟩

theorem exists_variantNames_eq_ok (h : ∀ branch ∈ branches, branch.Textual) (union : String) :
    ∃ names, variantNames env union branches = .ok names := by
  have hname : ∀ (before : List String) (branch : Schema), branch.Textual →
      ∃ name, variantName env union before branch = .ok name := by
    intro before branch hbranch
    obtain ⟨isReference, href⟩ := hbranch.exists_isSchemaReference_eq_ok
    obtain ⟨ref, hrefName⟩ := hbranch.exists_refName_eq_ok
    unfold variantName
    rw [href, hrefName]
    cases isReference with
    | true => exact ⟨_, rfl⟩
    | false => cases PrimaryType.ofTypes branch.types <;> exact ⟨_, rfl⟩
  rw [variantNames]
  generalize ([] : List String) = before
  induction branches generalizing before with
  | nil => exact ⟨before, rfl⟩
  | cons branch rest ih =>
    obtain ⟨hbranch, hrest⟩ := List.forall_mem_cons.mp h
    obtain ⟨name, hname⟩ := hname before branch hbranch
    rw [variantNamesAfter, hname]
    exact ih hrest (before ++ [name])

end TypeExpression

theorem Schema.Textual.exists_resolve_eq_ok (h : s.Textual) (d : Document) {ref : Json}
    (href : s.ref = some ref) : ∃ target, d.resolve ref = .ok target := by
  obtain ⟨text, rfl⟩ := h.keywords.ref ref href
  exact ⟨_, d.resolve_text text⟩

end SchemaTypes
