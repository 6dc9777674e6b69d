import SchemaTypes.Proofs.Emission.Closure
import SchemaTypes.Proofs.Schema.Numbering

/-!
# Emission in environments that agree

What is emitted for a schema depends on little of its environment: on the names schemas go by, on
what references lead to, and on a few settings. Environments that agree on these (`Agree`) emit the
same, and they may even number the nodes of their documents differently: the relation is stated
along a map of schemas that changes nothing but positions.

Documentation and the order of properties are apart. Whoever uses the agreement says for which
schemas these are the same, too.
-/

namespace SchemaTypes

open Schema Declaration

variable {f : Schema → Schema}

/-- Two environments give the same answers to emission, up to a map of the positions of schemas. -/
structure Environment.Agree (f : Schema → Schema) (env env' : Environment) : Prop where
  typeName (name : String) : env'.typeName name = env.typeName name
  deref (s : Schema) : env'.document.deref (f s) = f <$> env.document.deref s
  resolve (ref : Json) : env'.document.resolve ref = Option.map f <$> env.document.resolve ref
  snowflakes : env'.snowflakes = env.snowflakes
  optionImportPath : env'.options.optionImportPath = env.options.optionImportPath
  enumNames : env'.options.enumNames = env.options.enumNames

/-- Environments that differ only in what emission does not look at agree. -/
theorem Environment.agree_id {env env' : Environment} (hdocument : env'.document = env.document)
    (hrenames : env'.renames = env.renames) (hsnowflakes : env'.snowflakes = env.snowflakes)
    (hoption : env'.options.optionImportPath = env.options.optionImportPath)
    (henum : env'.options.enumNames = env.options.enumNames) : Agree id env env' where
  typeName name := by rw [typeName, emittedName, hrenames]; rfl
  deref s := by rw [hdocument, id_map]; rfl
  resolve ref := by rw [hdocument, Option.map_id, id_map]
  snowflakes := hsnowflakes
  optionImportPath := hoption
  enumNames := henum

/-- A part in which the positions of the schema are mapped; what writes it stays. -/
def Part.renumber (f : Schema → Schema) (part : Part) : Part :=
  { part with schema := f part.schema }

/-- Parts in which the positions of the schemas are mapped. -/
def Parts.renumber (f : Schema → Schema) (parts : Parts) : Parts where
  properties := parts.properties.map fun (name, part) ↦ (name, part.renumber f)
  items := parts.items.map (Part.renumber f)
  allOf := parts.allOf.map (Part.renumber f)
  oneOf := parts.oneOf.map (Part.renumber f)
  anyOf := parts.anyOf.map (Part.renumber f)

theorem Part.map_schema_renumber (branches : List Part) :
    (branches.map (renumber f)).map schema = (branches.map schema).map f := by
  rw [List.map_map, List.map_map]
  rfl

namespace Environment

variable {env env' : Environment} (hf : Renumbers f) (h : Agree f env env')

include hf h

theorem Agree.isNull (branch : Schema) : env'.isNull (f branch) = env.isNull branch := by
  rw [Environment.isNull, Environment.isNull, h.deref]
  cases env.document.deref branch with
  | error e => rfl
  | ok s => exact congrArg (fun types ↦ Except.ok (types == ["null"])) (hf.types s)

theorem Agree.branchBesideNull (branches : List Schema) :
    env'.branchBesideNull (branches.map f) = env.branchBesideNull branches := by
  have hnull : env'.nullBranches (branches.map f) = env.nullBranches branches := by
    rw [nullBranches, nullBranches, List.mapM_map]
    exact congrArg (branches.mapM ·) (funext (h.isNull hf))
  rw [Environment.branchBesideNull, Environment.branchBesideNull, hnull, List.length_map]

theorem Agree.unionBranches (s : Schema) :
    env'.unionBranches (f s) = Option.map (List.map f) <$> env.unionBranches s := by
  unfold Environment.unionBranches
  dsimp only
  rw [hf.types, hf.allOf, hf.oneOf, hf.anyOf, List.isEmpty_map, List.isEmpty_map,
    ← apply_ite (List.map f), h.branchBesideNull hf, List.isEmpty_map]
  generalize (if s.oneOf.isEmpty then s.anyOf else s.oneOf) = branches
  split
  · rfl
  split
  · rfl
  cases env.branchBesideNull branches with
  | error e => rfl
  | ok beside => cases beside <;> rfl

omit hf in
theorem Agree.requireOption : env'.requireOption = env.requireOption := by
  rw [Environment.requireOption, Environment.requireOption, h.optionImportPath]

end Environment

namespace TypeExpression

open Environment

variable {env env' : Environment} (hf : Renumbers f) (h : Agree f env env')

include hf h

theorem referenceType_renumber (s : Schema) (ref : Json) (path : Path) :
    referenceType env' (f s) ref path = referenceType env s ref path := by
  unfold referenceType
  simp only [hf.refNamespace, hf.refName, h.typeName]

theorem constants_renumber (type : String) (path : Path) (index : Nat) (branches : List Schema) :
    constants env' type path index (branches.map f) = constants env type path index branches := by
  induction branches generalizing index with
  | nil => rfl
  | cons branch rest ih =>
    rw [List.map_cons, constants, constants, h.deref]
    cases env.document.deref branch with
    | error e => rw [Except.map_error, Emit.lift_error_bind, Emit.lift_error_bind]
    | ok target =>
      have hconstant : ∀ value, constant type (f target).keywords value =
          constant type target.keywords value := by
        intro value
        rw [hf.keywords]
        rfl
      have hconst : (f target).keywords.const = target.keywords.const := by rw [hf.keywords]
      simp only [Except.map_ok, Emit.lift_ok_bind, hconst, hconstant, ih]

theorem constantSet_renumber (base : String) (branches : List Schema) (path : Path) :
    constantSet env' base (branches.map f) path = constantSet env base branches path := by
  rw [constantSet, constantSet, constants_renumber hf h]

theorem textType_renumber (s : Schema) (path : Path) :
    textType env' (f s) path = textType env s path := by
  have hformat : (f s).keywords.format = s.keywords.format := by rw [hf.keywords]
  unfold textType
  rw [hformat, hf.oneOf, List.isEmpty_map, h.snowflakes, constantSet_renumber hf h]

theorem integerName_renumber (s : Schema) : integerName env' (f s) = integerName env s := by
  unfold integerName
  rw [hf.allOf]
  match s.allOf with
  | [] => rfl
  | [member] =>
    simp only [List.map_cons, List.map_nil, hf.isSchemaReference, hf.refName, h.typeName]
  | _ :: _ :: _ => rfl

theorem integerType_renumber (s : Schema) (path : Path) :
    integerType env' (f s) path = integerType env s path := by
  have hformat : (f s).keywords.format = s.keywords.format := by rw [hf.keywords]
  have henum : ∀ name, env'.options.isEnumName name = env.options.isEnumName name := by
    intro name
    rw [Options.isEnumName, Options.isEnumName, h.enumNames]
  unfold integerType
  simp only [integerName_renumber hf h, henum, hformat, hf.oneOf, List.isEmpty_map,
    constantSet_renumber hf h]

theorem variantNames_renumber (union : String) (branches : List Schema) :
    variantNames env' union (branches.map f) = variantNames env union branches := by
  have hname : ∀ before branch, variantName env' union before (f branch) =
      variantName env union before branch := by
    intro before branch
    unfold variantName
    simp only [hf.isSchemaReference, hf.refName, hf.types, h.typeName]
  rw [variantNames, variantNames]
  generalize ([] : List String) = before
  induction branches generalizing before with
  | nil => rfl
  | cons branch rest ih =>
    rw [List.map_cons, variantNamesAfter, variantNamesAfter]
    simp only [hname, ih]

theorem namedUnion_renumber (union : String) (branches : List Part) (path : Path) :
    namedUnion env' union (branches.map (Part.renumber f)) path =
      namedUnion env union branches path := by
  have hvariant : ∀ name (part : Part), declareVariant path name (part.renumber f) =
      declareVariant path name part := by
    intro name part
    unfold declareVariant
    rw [Part.renumber, hf.isSchemaReference]
  unfold namedUnion
  rw [Part.map_schema_renumber, variantNames_renumber hf h]
  simp only [List.zip_map_right, List.map_map, Function.comp_def, Prod.map, hvariant, id]

theorem unionType_renumber (nullable : Bool) (marker : String) (branches : List Part)
    (path : Path) :
    unionType env' nullable marker (branches.map (Part.renumber f)) path =
      unionType env nullable marker branches path := by
  unfold unionType
  rw [Part.map_schema_renumber, h.branchBesideNull hf]
  simp only [namedUnion_renumber hf h]
  refine congrArg _ (funext fun beside ↦ ?_)
  cases beside with
  | none => rfl
  | some index =>
    simp only [Option.bind_some, List.getElem?_map, Option.map_map]
    cases branches[index]? <;> rfl

omit hf h in
theorem compositionType_renumber (parts : Parts) (path : Path) :
    compositionType (parts.renumber f) path = compositionType parts path := by
  unfold compositionType
  simp only [Parts.renumber, List.mapIdx_eq_zipIdx_map, List.zipIdx_map, List.map_map]
  rfl

omit hf h in
theorem listType_renumber (parts : Parts) (path : Path) :
    listType (parts.renumber f) path = listType parts path := by
  unfold listType
  rw [Parts.renumber]
  cases parts.items <;> rfl

/-- Objects are the same where documentation and the order of properties are. -/
theorem objectType_renumber {s : Schema} {parts : Parts} {path : Path}
    (hfields : env'.documentedFields path (f s) = env.documentedFields path s)
    (hsorted : (parts.renumber f).sortedProperties =
      parts.sortedProperties.map fun (name, part) ↦ (name, part.renumber f)) :
    objectType env' (f s) (parts.renumber f) path = objectType env s parts path := by
  have hline : ∀ documented name (part : Part),
      fieldLine env' (f s).keywords documented path name (part.renumber f) =
        fieldLine env s.keywords documented path name part := by
    intro documented name part
    unfold fieldLine
    rw [hf.keywords, h.requireOption]
    rfl
  unfold objectType
  simp only [hfields, hsorted, List.map_map, Function.comp_def, hline]

theorem nodeType_renumber {s : Schema} {parts : Parts} {path : Path}
    (hfields : env'.documentedFields path (f s) = env.documentedFields path s)
    (hsorted : (parts.renumber f).sortedProperties =
      parts.sortedProperties.map fun (name, part) ↦ (name, part.renumber f)) :
    nodeType env' (f s) (parts.renumber f) path = nodeType env s parts path := by
  have hkeywords : (f s).keywords.nullable = s.keywords.nullable ∧
      (f s).keywords.format = s.keywords.format := by
    rw [hf.keywords]
    exact ⟨rfl, rfl⟩
  have hobject := objectType_renumber hf h hfields hsorted
  have hnegated : (f s).negated.isSome = s.negated.isSome := by
    rw [hf.negated, Option.isSome_map]
  have huntyped :
      untypedType env' (f s) (parts.renumber f) path = untypedType env s parts path := by
    unfold untypedType
    rw [hobject, hnegated, hf.types, hkeywords.1, compositionType_renumber]
    simp only [Parts.renumber, List.isEmpty_map, unionType_renumber hf h]
  unfold nodeType kindType
  simp only [hf.types, hkeywords, hobject, huntyped, listType_renumber, textType_renumber hf h,
    integerType_renumber hf h, h.requireOption]

theorem partType_renumber (s : Schema) (body : Path → Emit Unit) :
    partType env' (f s) body = partType env s body := by
  funext path
  unfold partType
  simp only [hf.ref, referenceType_renumber hf h]

end TypeExpression

/-! ## Schemas -/

namespace Schema

open TypeExpression Environment

variable {env env' : Environment}

/-- Where the parts of a node are written the same, its parts are the same up to positions. -/
theorem parts_renumber (hf : Renumbers f) (h : Agree f env env') {s : Schema}
    (hs : ∀ child ∈ s.children, emit env' (f child) = emit env child) :
    (f s).parts env' = (s.parts env).renumber f := by
  have hpart : ∀ child ∈ s.children,
      part env' (f child) (emit env' (f child)) = (part env child (emit env child)).renumber f := by
    intro child hchild
    rw [part, partType_renumber hf h, hs child hchild]
    rfl
  simp only [parts, Parts.renumber, namedParts_eq_map, optionalPart_eq_map, branchParts_eq_map,
    hf.properties, hf.items, hf.allOf, hf.oneOf, hf.anyOf, List.map_map, Option.map_map,
    Parts.mk.injEq]
  refine ⟨?_, ?_, ?_, ?_, ?_⟩
  · refine List.map_congr_left ?_
    rintro ⟨name, child⟩ hmem
    exact congrArg (Prod.mk name) (hpart child (mem_children_of_mem_properties hmem))
  · exact Option.map_congr fun child hmem ↦ hpart child (mem_children_of_items_eq_some hmem)
  · exact List.map_congr_left fun child hmem ↦ hpart child (mem_children_of_mem_allOf hmem)
  · exact List.map_congr_left fun child hmem ↦ hpart child (mem_children_of_mem_oneOf hmem)
  · exact List.map_congr_left fun child hmem ↦ hpart child (mem_children_of_mem_anyOf hmem)

/-- Parts are sorted by position, so that they keep their order where the schemas do. -/
theorem sortedProperties_renumber_parts {s : Schema} (hs : KeepsOrder f s) :
    ((s.parts env).renumber f).sortedProperties =
      (s.parts env).sortedProperties.map fun (name, part) ↦ (name, part.renumber f) := by
  rw [Parts.sortedProperties, Parts.sortedProperties, Parts.renumber, parts, namedParts_eq_map,
    List.map_map, sorted_map, sorted_map, List.map_map]
  exact congrArg (List.map _) hs

variable (hf : Renumbers f) (h : Agree f env env')
  (hfields : ∀ path s, env'.documentedFields path (f s) = env.documentedFields path s)

include hf h hfields

/-- **Environments that agree emit the same.** The induction is on the tree: the parts of a node are
written the same by induction, and the rules for one node see nothing else that differs. -/
theorem emit_renumber {s : Schema} (hs : ∀ t, Within t s → KeepsOrder f t) :
    emit env' (f s) = emit env s := by
  induction s using children_induction with
  | step s ih =>
    have hparts := parts_renumber hf h fun child hchild ↦
      ih child hchild fun t ht ↦ hs t (.step hchild ht)
    funext path
    rw [emit_eq, emit_eq, hparts]
    exact nodeType_renumber hf h (hfields path s) (sortedProperties_renumber_parts (hs s .self))

theorem emitPart_renumber {s : Schema} (hs : ∀ t, Within t s → KeepsOrder f t) :
    emitPart env' (f s) = emitPart env s := by
  rw [emitPart, emitPart, emit_renumber hf h hfields hs, partType_renumber hf h]

theorem emitRoot_renumber {s : Schema}
    (hs : ∀ u, env.document.Leads s u → ∀ t, Within t u → KeepsOrder f t) :
    emitRoot env' (f s) = emitRoot env s := by
  funext path
  rw [emitRoot, emitRoot, hf.ref]
  refine congrArg _ (funext fun _ ↦ ?_)
  cases href : s.ref with
  | none => exact congrFun (emit_renumber hf h hfields (hs s (.refl s))) path
  | some ref =>
    dsimp only
    rw [h.resolve]
    cases hresolve : env.document.resolve ref with
    | error e => rw [Except.map_error, Emit.lift_error_bind, Emit.lift_error_bind]
    | ok target =>
      rw [Except.map_ok, Emit.lift_ok_bind, Emit.lift_ok_bind]
      cases target with
      | none => rfl
      | some target =>
        exact congrFun (emit_renumber hf h hfields (hs target (.step href hresolve (.refl _)))) path

theorem emitAt_renumber {s : Schema}
    (hs : ∀ u, env.document.Leads s u → ∀ t, Within t u → KeepsOrder f t) (path : Path) :
    emitAt env' (f s) path = emitAt env s path := by
  rw [emitAt, emitAt, emitRoot_renumber hf h hfields hs,
    emitPart_renumber hf h hfields (hs s (.refl s))]

theorem emitNamed_renumber {s : Schema}
    (hs : ∀ u, env.document.Leads s u → ∀ t, Within t u → KeepsOrder f t) (name : String) :
    emitNamed env' name (f s) = emitNamed env name s := by
  have hnode : ∀ isAlias : Bool, (if isAlias then env'.document.deref (f s) else .ok (f s)) =
      f <$> (if isAlias then env.document.deref s else .ok s) := by
    intro isAlias
    cases isAlias with
    | true => exact h.deref s
    | false => rfl
  rw [emitNamed, emitNamed, hf.isSchemaReference, emitRoot_renumber hf h hfields hs]
  refine congrArg _ (funext fun isAlias ↦ ?_)
  rw [hnode]
  cases hderef : (if isAlias then env.document.deref s else .ok s) with
  | error e => rw [Except.map_error, Emit.lift_error_bind, Emit.lift_error_bind]
  | ok node =>
    have hleads := Document.leads_of_ite_deref_eq_ok hderef
    rw [Except.map_ok, Emit.lift_ok_bind, Emit.lift_ok_bind, h.unionBranches hf]
    cases hbranches : env.unionBranches node with
    | error e => rw [Except.map_error, Emit.lift_error_bind, Emit.lift_error_bind]
    | ok branches =>
      rw [Except.map_ok, Emit.lift_ok_bind, Emit.lift_ok_bind]
      cases branches with
      | none => rfl
      | some branches =>
        have hparts : branchParts env' (branches.map f) =
            (branchParts env branches).map (Part.renumber f) := by
          rw [branchParts_eq_map, branchParts_eq_map, List.map_map, List.map_map]
          refine List.map_congr_left fun branch hbranch ↦ ?_
          have hmem := mem_children_of_mem_unionBranches hbranches hbranch
          have hemit := emit_renumber hf h hfields fun t ht ↦ hs node hleads t (.step hmem ht)
          rw [Function.comp_apply, part, partType_renumber hf h, hemit]
          rfl
        dsimp only [Option.map_some]
        rw [hparts, namedUnion_renumber hf h]

end Schema

end SchemaTypes
