import SchemaTypes.Generation
import SchemaTypes.Proofs.Emission.Outputs
import SchemaTypes.Proofs.Schema.Dereferencing
import SchemaTypes.Proofs.Text.CommentEnds

/-!
# Placeholders

Where no type can be written, a placeholder is, with a remark on why (`Remark`). Whether that
happens to a schema can be read off the schema: there is a remark on it
(`Environment.remark?`) unless it refers to a schema or has a type (`Schema.HasType`). If there is
a remark, its placeholder is all that is written for the schema, behind a pointer at most.

Remarks repeat words of the document: references that lead nowhere and types that are not known.
These are written as they are, so that a placeholder is closed where it should be exactly if none of
these words has the mark that ends a remark (`Schema.placeholder_closed_iff`). A reference to a
response never has it.
-/

namespace SchemaTypes

open Declaration Text TypeExpression

/-- What is said in the place of a type. -/
inductive Remark where
  /-- The schema refers to a response. -/
  | response (ref : Json)
  /-- The schema refers to nothing. -/
  | unknownReference (ref : Json)
  /-- The declared types have no primary type. -/
  | invalidTypes (types : List String)
  /-- The declared types are not known, or there are none. -/
  | unknownTypes (types : List String)
  | withoutItems
  | negation

namespace Remark

/-- The words of a remark. -/
def text : Remark → String
  | response ref | unknownReference ref => ref.display
  | invalidTypes types => "invalid type " ++ quotedList types
  | unknownTypes types =>
    if (" ".intercalate types).isEmpty then "unknown" else " ".intercalate types
  | withoutItems => "array without items"
  | negation => "not"

/-- The words of a document that a remark repeats and that may be anything. -/
def words : Remark → List String
  | unknownReference ref => [ref.display]
  | invalidTypes types | unknownTypes types => types
  | response _ | withoutItems | negation => []

/-- A text is the placeholder with a remark, behind a pointer at most. -/
def IsWrittenAs (r : Remark) (text : String) : Prop :=
  text = placeholder r.text ∨ text = "*" ++ placeholder r.text

/-- A remark has the mark that ends it if the words that it repeats have it. -/
theorem endsRemark_text_iff {r : Remark} (h : ∀ ref, r = response ref → ¬ EndsRemark ref.display) :
    EndsRemark r.text ↔ ∃ word ∈ r.words, EndsRemark word := by
  cases r with
  | response ref => exact iff_of_false (h ref rfl) (by simp [words])
  | unknownReference ref => simp [text, words]
  | invalidTypes types =>
    have hopen :
        EndsRemark ("invalid type " ++ quotedList types) ↔ EndsRemark (quotedList types) := by
      rw [EndsRemark, Contains, String.toList_append, ← List.append_nil (quotedList types).toList]
      exact (infix_between_iff (by simp) (by simp) (by simp))
    exact hopen.trans endsRemark_quotedList_iff
  | unknownTypes types =>
    rw [words, ← endsRemark_intercalate_iff, text]
    split
    · next hempty =>
      rw [String.isEmpty_iff.mp hempty]
      decide
    · rfl
  | withoutItems => exact iff_of_false (by decide) (by simp [words])
  | negation => exact iff_of_false (by decide) (by simp [words])

end Remark

/-! ## Schemas with a remark -/

namespace Schema

/-- The remark on a node whose types have a primary type. -/
def kindRemark? (s : Schema) : Option Remark :=
  match s.kind? with
  | none => some (.unknownTypes s.types)
  | some .array => if s.items.isNone then some .withoutItems else none
  | some .untyped =>
    if !s.allOf.isEmpty || !s.alternatives.isEmpty then none
    else if s.negated.isSome then some .negation
    else if s.properties.isEmpty then some (.unknownTypes s.types) else none
  | some _ => none

/-- The remark on a node that is taken for what it says itself, if it has no type. -/
def nodeRemark? (s : Schema) : Option Remark :=
  match PrimaryType.ofTypes s.types with
  | .error _ => some (.invalidTypes s.types)
  | .ok _ => s.kindRemark?

/-- A node has a type: it declares one, and its items if that is a list; it combines others; or it
has properties. -/
inductive HasType (s : Schema) : Prop
  | declared {kind : PrimitiveKind} : s.kind? = some kind → kind ≠ .untyped →
      (kind = .array → s.items ≠ none) → HasType s
  | combined : s.kind? = some .untyped → s.allOf ≠ [] ∨ s.alternatives ≠ [] → HasType s
  | properties : s.kind? = some .untyped → s.negated = none → s.properties ≠ [] → HasType s

theorem alternatives_eq_nil_iff {s : Schema} :
    s.alternatives = [] ↔ s.oneOf = [] ∧ s.anyOf = [] := by
  unfold alternatives
  cases s.oneOf <;> simp

theorem kindRemark?_eq_none_iff {s : Schema} : s.kindRemark? = none ↔ s.HasType := by
  unfold kindRemark?
  split
  · next hkind =>
    refine iff_of_false (by simp) ?_
    rintro (⟨hsome, -, -⟩ | ⟨hsome, -⟩ | ⟨hsome, -, -⟩) <;> cases hkind.symm.trans hsome
  · next hkind =>
    have hdeclared : s.HasType ↔ s.items ≠ none := by
      constructor
      · rintro (⟨hsome, -, hitems⟩ | ⟨hsome, -⟩ | ⟨hsome, -, -⟩)
        · exact hitems (Option.some.inj (hsome.symm.trans hkind))
        · cases hkind.symm.trans hsome
        · cases hkind.symm.trans hsome
      · exact fun hitems ↦ .declared hkind (by decide) fun _ ↦ hitems
    rw [hdeclared]
    cases s.items <;> simp
  · next hkind =>
    have huntyped : s.HasType ↔ (s.allOf ≠ [] ∨ s.alternatives ≠ []) ∨
        s.negated = none ∧ s.properties ≠ [] := by
      constructor
      · rintro (⟨hsome, hne, -⟩ | ⟨-, hparts⟩ | ⟨-, hnegated, hproperties⟩)
        · exact absurd (Option.some.inj (hsome.symm.trans hkind)) hne
        · exact .inl hparts
        · exact .inr ⟨hnegated, hproperties⟩
      · rintro (hparts | ⟨hnegated, hproperties⟩)
        · exact .combined hkind hparts
        · exact .properties hkind hnegated hproperties
    rw [huntyped]
    cases hallOf : s.allOf <;> cases halternatives : s.alternatives <;>
    cases hnegated : s.negated <;> cases hproperties : s.properties <;> simp
  · next kind harray huntyped hkind =>
    exact iff_of_true rfl (.declared hkind huntyped fun h ↦ absurd h harray)

/-- There is a remark on a node exactly if it has no type. -/
theorem nodeRemark?_eq_none_iff {s : Schema} : s.nodeRemark? = none ↔ s.HasType := by
  unfold nodeRemark?
  split
  · next e htypes =>
    have hkind : s.kind? = none := by rw [kind?, htypes]
    refine iff_of_false (by simp) ?_
    rintro (⟨hsome, -, -⟩ | ⟨hsome, -⟩ | ⟨hsome, -, -⟩) <;> cases hkind.symm.trans hsome
  · exact kindRemark?_eq_none_iff

/-- The remark on a schema below another one, which stands for a name if it refers to a schema. -/
def partRemark? (s : Schema) : Option Remark :=
  match s.ref with
  | none => s.nodeRemark?
  | some ref =>
    match s.refNamespace with
    | .ok space =>
      if space = schemasNamespace then none
      else if space = responsesNamespace then some (.response ref)
      else some (.unknownReference ref)
    | .error _ => none

end Schema

namespace Environment

/-- The remark on a schema at a root, where references are followed one step. -/
def rootRemark? (env : Environment) (s : Schema) : Option Remark :=
  match s.ref with
  | none => s.nodeRemark?
  | some ref =>
    match env.document.resolve ref with
    | .ok (some target) => target.nodeRemark?
    | .ok none => some (.unknownReference ref)
    | .error _ => none

/-- The remark on the schema at the end of a path, if one is written for it. -/
def remark? (env : Environment) (s : Schema) (path : Path) : Option Remark :=
  if path.isRoot then env.rootRemark? s else s.partRemark?

/-- The schema at the end of a path has a type or goes by the name of one. -/
inductive HasTypeAt (env : Environment) (s : Schema) (path : Path) : Prop
  | node : s.ref = none → s.HasType → HasTypeAt env s path
  | target {ref : Json} {target : Schema} : path.isRoot = true → s.ref = some ref →
      env.document.resolve ref = .ok (some target) → target.HasType → HasTypeAt env s path
  | name : path.isRoot = false → s.isSchemaReference = .ok true → HasTypeAt env s path

end Environment

/-! ## What is written for them -/

section

variable {env : Environment} {keeps : Correlator.Memory → Prop} {s : Schema} {path : Path}
  {r : Remark}

open Emit

theorem ensures_issue_placeholder (remark : String) {cause : Issue.Cause} :
    Ensures keeps (do Environment.issue path cause; Emit.write (placeholder remark)) fun _ o ↦
      o.text = placeholder remark :=
  .issue_bind (.write (Output.text_flawed_append _ _))

theorem ensures_unknown_remark (types : List String) :
    Ensures keeps (unknown types path) fun _ o ↦
      o.text = placeholder (Remark.unknownTypes types).text :=
  .note_bind (.write rfl)

theorem ensures_kindType_remark (h : s.kindRemark? = some r) :
    Ensures keeps (kindType env s.kind? s (s.parts env) path) fun _ o ↦
      o.text = placeholder r.text := by
  unfold Schema.kindRemark? at h
  unfold kindType
  split at h
  · next hkind =>
    cases h
    rw [hkind]
    exact ensures_unknown_remark s.types
  · next hkind =>
    split at h
    · next hitems =>
      cases h
      rw [hkind]
      dsimp only
      unfold listType
      rw [Schema.parts, Schema.optionalPart_eq_map, Option.isNone_iff_eq_none.mp hitems]
      exact ensures_issue_placeholder "array without items"
    · cases h
  · next hkind =>
    split at h
    · cases h
    next hparts =>
    simp only [Bool.or_eq_true, Bool.not_eq_true', List.isEmpty_eq_false_iff, not_or, not_not]
      at hparts
    obtain ⟨hallOf, halternatives⟩ := hparts
    obtain ⟨honeOf, hanyOf⟩ := Schema.alternatives_eq_nil_iff.mp halternatives
    rw [hkind]
    dsimp only
    unfold untypedType
    simp only [Schema.parts, hallOf, honeOf, hanyOf, Schema.isEmpty_branchParts,
      List.isEmpty_nil, Bool.not_true, Bool.false_eq_true, if_false]
    split at h
    · next hnegated =>
      cases h
      rw [if_pos hnegated]
      exact ensures_issue_placeholder "not"
    · next hnegated =>
      rw [if_neg hnegated]
      split at h
      · next hproperties =>
        cases h
        rw [if_neg (by simpa [Schema.namedParts_eq_map] using hproperties)]
        exact ensures_unknown_remark s.types
      · cases h
  · cases h

/-- What is written for a node with a remark is the placeholder of the remark. -/
theorem ensures_emit_remark (h : s.nodeRemark? = some r) :
    Ensures keeps (Schema.emit env s path) fun _ o ↦ r.IsWrittenAs o.text := by
  rw [Schema.emit_eq]
  unfold nodeType
  unfold Schema.nodeRemark? at h
  cases htypes : PrimaryType.ofTypes s.types with
  | error e =>
    rw [htypes] at h
    cases h
    exact (ensures_issue_placeholder ("invalid type " ++ quotedList s.types)).mono fun _ _ ↦ .inl
  | ok type =>
    rw [htypes] at h
    dsimp only at h ⊢
    rw [← Schema.kind?_eq_of_ofTypes_eq_ok htypes]
    have hpointer : Ensures keeps
        (Emit.whenever (type.nullable || s.keywords.nullable) (Emit.write "*"))
        fun _ o ↦ o.text = "" ∨ o.text = "*" :=
      .whenever (fun _ ↦ .write (.inr rfl)) fun _ ↦ .inl rfl
    refine hpointer.bind fun _ o ho ↦ (ensures_kindType_remark h).mono fun _ o' ho' ↦ ?_
    rw [Output.text_append, ho']
    rcases ho with ho | ho
    · exact .inl (by rw [ho, String.empty_append])
    · exact .inr (by rw [ho])

theorem ensures_emitPart_remark (h : s.partRemark? = some r) :
    Ensures keeps (Schema.emitPart env s path) fun _ o ↦ r.IsWrittenAs o.text := by
  unfold Schema.partRemark? at h
  refine .note_bind ?_
  cases href : s.ref with
  | none =>
    rw [href] at h
    exact ensures_emit_remark h
  | some ref =>
    rw [href] at h
    refine .lift_bind fun space hspace ↦ ?_
    rw [hspace] at h
    dsimp only at h
    split
    · next hschemas =>
      rw [if_pos (eq_of_beq hschemas)] at h
      cases h
    next hschemas =>
    rw [if_neg fun heq ↦ hschemas (beq_iff_eq.mpr heq)] at h
    split
    · next hresponses =>
      rw [if_pos (eq_of_beq hresponses)] at h
      cases h
      exact .note_bind (.write (.inl rfl))
    · next hresponses =>
      rw [if_neg fun heq ↦ hresponses (beq_iff_eq.mpr heq)] at h
      cases h
      exact (ensures_issue_placeholder ref.display).mono fun _ _ ↦ .inl

theorem ensures_emitRoot_remark (h : env.rootRemark? s = some r) :
    Ensures keeps (Schema.emitRoot env s path) fun _ o ↦ r.IsWrittenAs o.text := by
  unfold Environment.rootRemark? at h
  refine .note_bind ?_
  cases href : s.ref with
  | none =>
    rw [href] at h
    exact ensures_emit_remark h
  | some ref =>
    rw [href] at h
    refine .lift_bind fun target htarget ↦ ?_
    dsimp only at h
    rw [htarget] at h
    cases target with
    | some target => exact ensures_emit_remark h
    | none =>
      cases h
      exact (ensures_issue_placeholder ref.display).mono fun _ _ ↦ .inl

/-- **What is written for a schema with a remark** is the placeholder of the remark, behind a
pointer at most. -/
theorem ensures_emitAt_remark (h : env.remark? s path = some r) :
    Ensures keeps (if path.isRoot then Schema.emitRoot env s path else Schema.emitPart env s path)
      fun _ o ↦ r.IsWrittenAs o.text := by
  unfold Environment.remark? at h
  split at h
  · next hroot =>
    rw [if_pos hroot]
    exact ensures_emitRoot_remark h
  · next hroot =>
    rw [if_neg hroot]
    exact ensures_emitPart_remark h

end

/-! ## Remarks that end early -/

/-- The name that a reference ends with has no slash. -/
theorem Reference.slash_not_mem_nameOf (ref : String) : '/' ∉ (nameOf ref).toList := by
  intro h
  rw [nameOf, String.toList_ofList, splitLast, List.mem_reverse] at h
  exact absurd (List.mem_takeWhile_imp h) (by decide)

/-- Only texts have a namespace. -/
theorem Reference.of_refNamespace_eq_ok {ref : Json} {space : String}
    (h : refNamespace ref = .ok space) (hspace : space ≠ "") :
    ∃ text, ref = .text text ∧ namespaceOf text = space := by
  have hother : ∀ {found : Except Mismatch Bool} {mismatch : Mismatch},
      (do if ← found then throw mismatch else return "") ≠ Except.ok space := by
    intro found mismatch hok
    rcases found with _ | _ | _
    · cases hok
    · exact hspace (Except.ok.inj hok).symm
    · cases hok
  cases ref with
  | text text => exact ⟨text, rfl, Except.ok.inj h⟩
  | _ => exact absurd h hother

/-- A reference to a response has no star in front of a slash. -/
theorem not_endsRemark_of_response {ref : Json}
    (h : Reference.refNamespace ref = .ok responsesNamespace) : ¬ EndsRemark ref.display := by
  obtain ⟨text, rfl, hspace⟩ := Reference.of_refNamespace_eq_ok h (by decide)
  intro hends
  have hslash : '/' ∈ (Reference.nameOf text).toList := by
    rw [Json.display, Reference.eq_append_of_namespaceOf hspace (by decide), EndsRemark, Contains,
      String.toList_append] at hends
    have hmark : "*/".toList = ['*', '/'] := by simp
    rw [hmark] at hends
    exact (infix_of_infix_append (by decide) hends).subset (by simp)
  exact Reference.slash_not_mem_nameOf text hslash

namespace Schema

variable {env : Environment} {s : Schema} {path : Path}

theorem nodeRemark?_ne_response (s : Schema) (ref : Json) :
    s.nodeRemark? ≠ some (.response ref) := by
  unfold nodeRemark? kindRemark?
  split
  · simp
  · split <;> (try split_ifs) <;> simp

theorem not_endsRemark_of_remark? {ref : Json} (h : env.remark? s path = some (.response ref)) :
    ¬ EndsRemark ref.display := by
  unfold Environment.remark? at h
  split at h
  · unfold Environment.rootRemark? at h
    split at h
    · exact absurd h (nodeRemark?_ne_response s ref)
    · split at h
      · exact absurd h (nodeRemark?_ne_response _ ref)
      · cases h
      · cases h
  · unfold partRemark? at h
    split at h
    · exact absurd h (nodeRemark?_ne_response s ref)
    next other href =>
    split at h
    · next space hspace =>
      split_ifs at h with hschemas hresponses
      · cases h
        rw [refNamespace, href, hresponses] at hspace
        exact not_endsRemark_of_response hspace
      · cases h
    · cases h

/-- A reference that is followed is one that can be looked up. -/
theorem exists_resolve_eq_ok {memory : Correlator.Memory} {ref : Json}
    (hended : (emitRoot env s path memory).result = .ok ()) (href : s.ref = some ref) :
    ∃ target, env.document.resolve ref = .ok target := by
  have hroot : Emit.Ensures (fun _ ↦ True) (emitRoot env s path) fun _ _ ↦
      ∃ target, env.document.resolve ref = .ok target := by
    unfold emitRoot
    rw [href]
    exact .note_bind (.lift_bind fun target htarget ↦ fun _ _ _ _ ↦ ⟨trivial, target, htarget⟩)
  exact (hroot memory () trivial hended).2

/-- A reference that is written has a namespace. -/
theorem exists_refNamespace_eq_ok {memory : Correlator.Memory} {ref : Json}
    (hended : (emitPart env s path memory).result = .ok ()) (href : s.ref = some ref) :
    ∃ space, s.refNamespace = .ok space := by
  have hpart : Emit.Ensures (fun _ ↦ True) (emitPart env s path) fun _ _ ↦
      ∃ space, s.refNamespace = .ok space := by
    unfold emitPart partType
    rw [href]
    exact .note_bind (.lift_bind fun space hspace ↦ fun _ _ _ _ ↦ ⟨trivial, space, hspace⟩)
  exact (hpart memory () trivial hended).2

theorem hasTypeAt_of_remark?_eq_none {memory : Correlator.Memory} {text : String}
    (hended : (emitAt env s path memory).result = .ok text) (h : env.remark? s path = none) :
    env.HasTypeAt s path := by
  obtain ⟨hended, -⟩ := Emit.of_result_capture_eq_ok hended
  unfold Environment.remark? at h
  split at h
  · next hroot =>
    rw [if_pos hroot] at hended
    unfold Environment.rootRemark? at h
    split at h
    · next href => exact .node href (nodeRemark?_eq_none_iff.mp h)
    next ref href =>
    obtain ⟨target, htarget⟩ := exists_resolve_eq_ok hended href
    rw [htarget] at h
    cases target with
    | some target => exact .target hroot href htarget (nodeRemark?_eq_none_iff.mp h)
    | none => cases h
  · next hroot =>
    rw [if_neg hroot] at hended
    unfold partRemark? at h
    split at h
    · next href => exact .node href (nodeRemark?_eq_none_iff.mp h)
    next ref href =>
    obtain ⟨space, hspace⟩ := exists_refNamespace_eq_ok hended href
    rw [hspace] at h
    dsimp only at h
    split_ifs at h with hschemas
    refine .name (Bool.not_eq_true _ ▸ hroot) ?_
    rw [isSchemaReference, hspace, hschemas]
    rfl

/-- **Where placeholders are closed.** If there is a remark on the schema at the end of a path, then
its placeholder is what is written for the schema, behind a pointer at most, and it is closed where
it should be exactly if none of the words of the document in the remark has the mark that ends a
remark; those in a reference to a response never have it. If there is none, the schema has a type.
-/
theorem placeholder_closed_iff {memory : Correlator.Memory} {text : String}
    (h : (emitAt env s path memory).result = .ok text) :
    (∃ remark, env.remark? s path = some remark ∧ remark.IsWrittenAs text ∧
      (IsClosed (placeholder remark.text) ↔ ∀ word ∈ remark.words, ¬ EndsRemark word)) ∨
    env.remark? s path = none ∧ env.HasTypeAt s path := by
  cases hremark : env.remark? s path with
  | none => exact .inr ⟨rfl, hasTypeAt_of_remark?_eq_none h hremark⟩
  | some remark =>
    refine .inl ⟨remark, rfl, ?_, ?_⟩
    · obtain ⟨hended, rfl⟩ := Emit.of_result_capture_eq_ok h
      have hwritten : Emit.Ensures (fun _ ↦ True) _ _ := ensures_emitAt_remark hremark
      exact (hwritten memory () trivial hended).2
    · have hresponse : ∀ ref, remark = .response ref → ¬ EndsRemark ref.display := by
        rintro ref rfl
        exact not_endsRemark_of_remark? hremark
      rw [isClosed_placeholder_iff, Remark.endsRemark_text_iff hresponse]
      simp only [not_exists, not_and]

/-- A reference that leads nowhere, with the mark that ends a remark. -/
def starredReference : Schema := .reference (.text "#/definitions/a*/b") 1

/-- Where the reference is written. -/
def starredPath : Path := (Path.ofRoot "Holder").push "page"

theorem emitAt_starredReference :
    (emitAt (Generation.plainEnvironment ⟨[], []⟩) starredReference starredPath []).result =
      .ok "struct\x7b /* #/definitions/a*/b */ \x7d" := by
  decide +kernel

/-- The placeholder for the reference is not closed where it should be. -/
theorem placeholder_closed_iff_starred :
    ∃ remark, (Generation.plainEnvironment ⟨[], []⟩).remark? starredReference starredPath =
        some remark ∧
      remark.IsWrittenAs "struct\x7b /* #/definitions/a*/b */ \x7d" ∧
      ¬ IsClosed (placeholder remark.text) := by
  have hremark : (Generation.plainEnvironment ⟨[], []⟩).remark? starredReference starredPath =
      some (.unknownReference (.text "#/definitions/a*/b")) := by
    rfl
  rcases placeholder_closed_iff emitAt_starredReference with
    ⟨remark, hremark', hwritten, hclosed⟩ | ⟨hnone, -⟩
  · refine ⟨remark, hremark', hwritten, fun h ↦ ?_⟩
    cases hremark.symm.trans hremark'
    exact hclosed.mp h _ (List.mem_singleton_self _) (by decide)
  · cases hremark.symm.trans hnone

/-- What is written for a schema may be a placeholder that is closed too early. -/
theorem not_closed_placeholder :
    ¬ ∀ (env : Environment) (s : Schema) (path : Path) (memory : Correlator.Memory) (text : String),
      (emitAt env s path memory).result = .ok text →
        ∀ remark, text = placeholder remark → IsClosed text := by
  intro h
  have hclosed := h _ _ _ _ _ emitAt_starredReference "#/definitions/a*/b" (by decide)
  exact absurd (hclosed "struct\x7b /* #/definitions/a" "b */ \x7d" (by decide)) (by decide)

end Schema

end SchemaTypes
