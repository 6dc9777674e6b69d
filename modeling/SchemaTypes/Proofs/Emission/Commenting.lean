import SchemaTypes.Proofs.Emission.Coupling

/-!
# Documentation comments are inert

With documentation comments an emission searches tables and writes what they tell of a field before
its line. Nothing else comes of that: without remarks the same is written and registered, and the
same packages are needed and the same issues reported (`Schema.comments_inert`).

What is written for a node is put together of its parts, and in each rule for nodes the remarks of
the parts stay between lines. Only objects have remarks of their own. So the passage through the
rules is the one of `Schema.emit_closed` with two emissions at once.
-/

namespace SchemaTypes

open Correlator Declaration Text

/-! ## The environment without comments -/

/-- The environment in which documentation comments are not wanted. -/
def Environment.uncommented (env : Environment) : Environment :=
  { env with options := { env.options with docComments := false } }

theorem Environment.agree_uncommented (env : Environment) : Agree id env env.uncommented :=
  agree_id rfl rfl rfl rfl rfl

/-- A part that is written otherwise. -/
def Part.rewrite (write : Schema → Path → Emit Unit) (part : Part) : Part :=
  { part with write := write part.schema }

/-- Parts that are written otherwise. -/
def Parts.rewrite (write : Schema → Path → Emit Unit) (parts : Parts) : Parts where
  properties := parts.properties.map fun (name, part) ↦ (name, part.rewrite write)
  items := parts.items.map (Part.rewrite write)
  allOf := parts.allOf.map (Part.rewrite write)
  oneOf := parts.oneOf.map (Part.rewrite write)
  anyOf := parts.anyOf.map (Part.rewrite write)

theorem Part.map_schema_rewrite (write : Schema → Path → Emit Unit) (branches : List Part) :
    (branches.map (rewrite write)).map schema = branches.map schema := by
  rw [List.map_map]
  rfl

theorem Parts.sortedProperties_rewrite (write : Schema → Path → Emit Unit) (parts : Parts) :
    (parts.rewrite write).sortedProperties =
      parts.sortedProperties.map fun (name, part) ↦ (name, part.rewrite write) := by
  rw [sortedProperties, sortedProperties, rewrite, sorted_map]
  rfl

namespace TypeExpression

open Environment Emit

variable {env : Environment}

/-! ## The rules for nodes -/

/-- What documentation tells of fields are texts, and it is asked only where it is wanted. -/
theorem coupled_documentedFields (hdocument : env.document.Textual)
    (htables : env.correlator.Textual) {s : Schema} (hs : s.Textual) (path : Path) :
    Coupled Silent
      (fun documented plain ↦ (∀ name info, documented.lookup name = some info →
        info.comment.IsText) ∧ plain = [])
      (env.documentedFields path s) (env.uncommented.documentedFields path s) := by
  have hnone : ∀ name info, ([] : List (String × FieldInfo)).lookup name = some info →
      info.comment.IsText := by
    rintro _ _ ⟨⟩
  have huncommented : env.uncommented.documentedFields path s = done [] := rfl
  rw [huncommented, documentedFields]
  split
  -- Only one side searches, so no rule for two emissions applies: both are run by hand.
  · intro memory memory' hmemory
    have hresolve : ∀ p ∈ s.properties, ∃ t, env.document.deref p.2 = .ok t := by
      intro p hp
      have hchild := hs.of_mem_children (Schema.mem_children_of_mem_properties hp)
      obtain ⟨t, ht, -⟩ := Document.exists_deref_eq_ok hdocument hchild
      exact ⟨t, ht⟩
    obtain ⟨found, hfound, hcandidates, hlearnt⟩ :=
      exists_searchFields_eq_ok htables hmemory hresolve path
    obtain ⟨fields, hfields, hcomments⟩ := exists_bestFields_eq_ok hcandidates
    rw [bind_apply_of_ok (search_apply_of_ok hfound), hfields]
    refine .ended (List.forall_mem_append.mpr ⟨hlearnt, hmemory⟩) ?_ ⟨?_, rfl⟩ ⟨hcomments, rfl⟩
    · rw [Act.events_append, Act.events_map_tell]
      exact (Event.Commented.search hlearnt).append .nil
    · rw [Act.text_append, Act.text_map_tell]
      rfl
  · exact coupled_done ⟨rfl, rfl⟩ ⟨hnone, rfl⟩

/-- Whole lines of remarks stand before nothing. -/
def AreRemarks (s t : String) : Prop :=
  t = "" ∧ ∃ lines : List (List Char), (∀ line ∈ lines, isRemark line ∧ '\n' ∉ line) ∧
    s.toList = lines.flatMap (· ++ ['\n'])

/-- A line ends the same on both sides. -/
def IsLine (s t : String) : Prop :=
  ∃ annotated plain, s = annotated ++ "\n" ∧ t = plain ++ "\n" ∧ Text.Commented annotated plain

theorem isLine_append {annotated plain : String} (h : Commented annotated plain)
    (ending : String) : IsLine (annotated ++ (ending ++ "\n")) (plain ++ (ending ++ "\n")) :=
  ⟨annotated ++ ending, plain ++ ending, String.append_assoc.symm, String.append_assoc.symm,
    h.append (.refl ending)⟩

theorem commented_optional {annotated plain : String} (h : Commented annotated plain) :
    Commented (optional annotated) (optional plain) :=
  ((Commented.refl _).append h.removeBeginning_star).append (.refl _)

theorem coupled_fieldComment {documented : List (String × FieldInfo)}
    (hdocumented : ∀ name info, documented.lookup name = some info → info.comment.IsText)
    (name identifier : String) :
    Coupled AreRemarks Eq (fieldComment documented name identifier) (done ()) := by
  have hdone : Coupled AreRemarks Eq (done ()) (done ()) :=
    coupled_done ⟨rfl, [], List.forall_mem_nil _, rfl⟩ rfl
  unfold fieldComment
  split
  · exact hdone
  · next info hinfo =>
    split
    · exact hdone
    · obtain ⟨description, hdescription⟩ :=
        (hdocumented name info hinfo).exists_textOr_eq_ok "strip"
      rw [hdescription, lift_ok_bind]
      intro memory memory' hmemory
      refine .ended hmemory .nil ⟨rfl, ?_⟩ rfl
      obtain ⟨lines, hlines, htext⟩ :=
        Comment.exists_remarks_partComment (Comment.prose identifier description name)
      exact ⟨lines, hlines, (congrArg String.toList String.append_empty).trans htext⟩

theorem coupled_requireOption :
    Coupled Silent Eq env.requireOption env.uncommented.requireOption := by
  refine coupled_lift_bind fun key _ memory memory' hmemory ↦ ?_
  refine .ended hmemory (.refl fun shape candidates hmem ↦ ?_) ⟨rfl, rfl⟩ rfl
  cases List.mem_singleton.mp hmem

variable {write : Schema → Path → Emit Unit}

/-- The line of a field may have a comment before it. -/
theorem coupled_fieldLine {documented : List (String × FieldInfo)}
    (hdocumented : ∀ name info, documented.lookup name = some info → info.comment.IsText)
    (keywords : Schema.Keywords) (path : Path) (name : String) {part : Part}
    (hpart : ∀ path, Comments (part.write path) (write part.schema path)) :
    Coupled CommentedLines Eq (fieldLine env keywords documented path name part)
      (fieldLine env.uncommented keywords [] path name (part.rewrite write)) := by
  unfold fieldLine
  dsimp only
  split
  · refine (coupled_note _ _ _).mono ?_
    rintro s t ⟨rfl, rfl⟩
    exact .empty
  -- A comment stands beside nothing: only with the line behind it is it a remark between lines.
  have hjoin : ∀ s s' t t', AreRemarks s s' → IsLine t t' → CommentedLines (s ++ t) (s' ++ t') := by
    rintro s _ _ _ ⟨rfl, lines, hlines, hs⟩ ⟨annotated, plain, rfl, rfl, hcommented⟩
    rw [String.empty_append]
    exact .line hlines hs hcommented
  refine (coupled_fieldComment hdocumented name _).join hjoin fun _ _ _ ↦ ?_
  refine (Comments.capture (hpart _)).silent_bind fun type type' htype ↦ ?_
  have hline : ∀ {s t : String}, Commented s t → ∀ ending, Coupled IsLine Eq
      (Emit.write ("\t" ++ Identifier.ofSnakeCase name ++ " " ++ s ++ " `json:\"" ++ name ++
        (ending ++ "\n")))
      (Emit.write ("\t" ++ Identifier.ofSnakeCase name ++ " " ++ t ++ " `json:\"" ++ name ++
        (ending ++ "\n"))) := by
    intro s t hst ending
    refine coupled_write (isLine_append ?_ ending)
    exact (((Commented.refl _).append hst).append (.refl _)).append (.refl name)
  split
  · exact hline htype "\"`"
  · refine coupled_requireOption.silent_bind fun _ _ _ ↦ ?_
    exact hline (commented_optional htype) ",omitempty\"`"

/-- Lines stand behind an opening brace and before a closing one. -/
theorem comments_braces {x y : Emit Unit} (h : Coupled CommentedLines Eq x y) :
    Comments (do Emit.write "struct \x7b\n"; x; Emit.write "\x7d")
      (do Emit.write "struct \x7b\n"; y; Emit.write "\x7d") := by
  -- The closing brace is joined first, for the last remark needs something behind it.
  have hclosed : Coupled (fun t u ↦ ∃ lines plain, t = lines ++ "\x7d" ∧ u = plain ++ "\x7d" ∧
      CommentedLines lines plain) Eq (do x; Emit.write "\x7d") (do y; Emit.write "\x7d") := by
    refine h.join ?_ fun _ _ _ ↦ coupled_write (T := fun t u ↦ t = "\x7d" ∧ u = "\x7d") ⟨rfl, rfl⟩
    rintro s s' _ _ hlines ⟨rfl, rfl⟩
    exact ⟨s, s', rfl, rfl, hlines⟩
  have hopening : Coupled (fun t u ↦ t = "struct \x7b\n" ∧ u = "struct \x7b\n") Eq
      (Emit.write "struct \x7b\n") (Emit.write "struct \x7b\n") :=
    coupled_write ⟨rfl, rfl⟩
  refine hopening.join ?_ fun _ _ _ ↦ hclosed
  rintro _ _ _ _ ⟨rfl, rfl⟩ ⟨lines, plain, rfl, rfl, hlines⟩
  exact hlines.between "struct \x7b" "\x7d"

variable {s : Schema} {parts : Parts}

theorem comments_objectType (hdocument : env.document.Textual) (htables : env.correlator.Textual)
    (hs : s.Textual)
    (hparts : parts.All fun part ↦ ∀ path, Comments (part.write path) (write part.schema path))
    (path : Path) :
    Comments (objectType env s parts path)
      (objectType env.uncommented s (parts.rewrite write) path) := by
  refine (coupled_documentedFields hdocument htables hs path).silent_bind ?_
  rintro documented _ ⟨hdocumented, rfl⟩
  refine comments_braces ?_
  rw [Parts.sortedProperties_rewrite, List.map_map]
  refine coupled_each .empty (fun _ _ _ _ hs ht ↦ hs.append ht) ?_
  rintro ⟨name, part⟩ hfield
  have hpart := hparts.properties _ ((mem_sorted _).mp hfield)
  dsimp only [Function.comp_apply]
  exact coupled_fieldLine hdocumented s.keywords path name hpart

/-- An issue is recorded, and a placeholder is written. -/
theorem comments_issue (path : Path) {cause : Issue.Cause} (hcause : cause.kind ≠ .general)
    (text : String) :
    Comments (do issue path cause; Emit.write text) (do issue path cause; Emit.write text) :=
  (inert_closed.bind (issue_closed inert_closed path hcause) fun _ ↦
    inert_closed.write text).comments

/-- What is captured and written again keeps its remarks. -/
theorem comments_capture_write {x y : Emit Unit} (h : Comments x y) (before behind : String) :
    Comments (do Emit.write (before ++ (← Emit.capture x) ++ behind))
      (do Emit.write (before ++ (← Emit.capture y) ++ behind)) :=
  h.capture.silent_bind fun _ _ htext ↦
    coupled_write (((Commented.refl before).append htext).append (.refl behind))

variable (hparts : parts.All fun part ↦ ∀ path, Comments (part.write path) (write part.schema path))

include hparts

theorem comments_listType (path : Path) :
    Comments (listType parts path) (listType (parts.rewrite write) path) := by
  unfold listType
  rw [Parts.rewrite]
  cases hitems : parts.items with
  | none => exact comments_issue path (by nofun) _
  | some part =>
    refine Comments.bind (coupled_write (.refl _)) fun _ ↦ ?_
    exact (hparts.items part hitems _).capture.silent_bind fun _ _ htext ↦ coupled_write htext

theorem comments_compositionType (path : Path) :
    Comments (compositionType parts path) (compositionType (parts.rewrite write) path) := by
  unfold compositionType
  simp only [Parts.rewrite, List.mapIdx_eq_zipIdx_map, List.zipIdx_map, List.map_map]
  refine Comments.bind (coupled_write (.refl _)) fun _ ↦ ?_
  refine Comments.bind (comments_each fun member hmember ↦ ?_) fun _ ↦ coupled_write (.refl _)
  have hmem := List.fst_mem_of_mem_zipIdx hmember
  exact comments_capture_write (hparts.allOf _ hmem _) "\t" "\n"

omit hparts in
theorem comments_declareVariant (path : Path) (name : String) {part : Part}
    (hpart : ∀ path, Comments (part.write path) (write part.schema path)) :
    Comments (declareVariant path name part) (declareVariant path name (part.rewrite write)) := by
  refine coupled_lift_bind fun isReference _ ↦ ?_
  split
  · exact coupled_done (.refl "") rfl
  · refine (hpart _).capture.silent_bind fun body body' hbody ↦ comments_register name ?_
    exact ((Commented.refl _).append hbody).append (.refl _)

section Unions

variable {branches : List Part}
  (hbranches : ∀ part ∈ branches, ∀ path, Comments (part.write path) (write part.schema path))

include hbranches

omit hparts in
theorem comments_namedUnion (union : String) (path : Path) :
    Comments (namedUnion env union branches path)
      (namedUnion env.uncommented union (branches.map (Part.rewrite write)) path) := by
  have hnames := variantNames_renumber Schema.renumbers_id env.agree_uncommented union
    (branches.map Part.schema)
  -- The names of variants depend on schemas alone, and these are the same on both sides.
  rw [List.map_id] at hnames
  unfold namedUnion
  rw [Part.map_schema_rewrite, hnames]
  refine (coupled_note _ _ _).silent_bind fun _ _ _ ↦ coupled_lift_bind fun names _ ↦ ?_
  refine Comments.bind (coupled_write (.refl _)) fun _ ↦ ?_
  rw [List.zip_map_right, List.map_map]
  refine comments_each ?_
  rintro ⟨name, part⟩ hmem
  exact comments_declareVariant path name (hbranches part (List.of_mem_zip hmem).2)

omit hparts in
theorem comments_unionType (nullable : Bool) (marker : String) (path : Path) :
    Comments (unionType env nullable marker branches path)
      (unionType env.uncommented nullable marker (branches.map (Part.rewrite write)) path) := by
  unfold unionType
  rw [Part.map_schema_rewrite]
  refine coupled_lift_bind fun beside _ ↦ ?_
  have hunion : Comments
      (Emit.capture (namedUnion env path.exportedName branches path) >>=
        Emit.hoist path.exportedName)
      (Emit.capture (namedUnion env.uncommented path.exportedName
        (branches.map (Part.rewrite write)) path) >>= Emit.hoist path.exportedName) := by
    refine (comments_namedUnion hbranches _ path).capture.silent_bind fun block block' hblock ↦ ?_
    refine Comments.bind (comments_register _ hblock) fun _ ↦ ?_
    exact (inert_closed.bind (inert_closed.mention _ trivial) fun _ ↦ inert_closed.write _).comments
  cases beside with
  | none => exact hunion
  | some index =>
    simp only [Option.bind_some, List.getElem?_map, Option.map_map]
    cases hpart : branches[index]? with
    | none => exact hunion
    | some part =>
      have hwrite := hbranches part (List.mem_of_getElem? hpart)
      refine (hwrite _).capture.silent_bind fun type type' htype ↦ coupled_write ?_
      split
      · exact htype.removeBeginning_star
      · exact (Commented.refl "*").append htype.removeBeginning_star

end Unions

variable (hdocument : env.document.Textual) (htables : env.correlator.Textual) (hs : s.Textual)

include hdocument htables hs

theorem comments_untypedType (path : Path) :
    Comments (untypedType env s parts path)
      (untypedType env.uncommented s (parts.rewrite write) path) := by
  unfold untypedType
  simp only [Parts.rewrite, List.isEmpty_map]
  split
  · exact comments_compositionType hparts path
  split
  · exact comments_unionType hparts.oneOf _ _ path
  split
  · exact comments_unionType hparts.anyOf _ _ path
  split
  · exact comments_issue path (by nofun) _
  split
  · exact comments_objectType hdocument htables hs hparts path
  · exact (unknown_closed inert_closed _ _).comments

theorem comments_kindType (kind : Option PrimitiveKind) (path : Path) :
    Comments (kindType env kind s parts path)
      (kindType env.uncommented kind s (parts.rewrite write) path) := by
  unfold kindType
  split
  · exact comments_objectType hdocument htables hs hparts path
  · exact comments_listType hparts path
  · have htext := textType_renumber Schema.renumbers_id env.agree_uncommented s path
    rw [id] at htext
    rw [htext]
    exact (textType_closed inert_closed (.inl trivial) fun _ _ _ _ ↦ trivial).comments
  · have hinteger := integerType_renumber Schema.renumbers_id env.agree_uncommented s path
    rw [id] at hinteger
    rw [hinteger]
    exact (integerType_closed inert_closed (fun _ _ _ _ _ ↦ trivial) (.inl trivial)
      fun _ _ ↦ trivial).comments
  · refine coupled_lift_bind fun type _ ↦ ?_
    exact coupled_write (.refl type)
  · exact coupled_write (.refl "bool")
  · exact coupled_requireOption.silent_bind fun _ _ _ ↦ coupled_write (.refl _)
  · exact comments_untypedType hparts hdocument htables hs path
  · exact (unknown_closed inert_closed _ _).comments

theorem comments_nodeType (path : Path) :
    Comments (nodeType env s parts path)
      (nodeType env.uncommented s (parts.rewrite write) path) := by
  unfold nodeType
  split
  · exact comments_issue path (by nofun) _
  · refine Comments.bind ?_ fun _ ↦ comments_kindType hparts hdocument htables hs _ path
    exact (inert_closed.whenever _ fun _ ↦ inert_closed.write _).comments

omit hparts hdocument htables hs in
theorem comments_partType {body body' : Path → Emit Unit}
    (hbody : ∀ path, Comments (body path) (body' path)) (path : Path) :
    Comments (partType env s body path) (partType env.uncommented s body' path) := by
  refine (coupled_note _ _ _).silent_bind fun _ _ _ ↦ ?_
  split
  · exact (referenceType_closed inert_closed (fun _ _ _ ↦ trivial) (.inl trivial) _ _).comments
  · exact hbody path

end TypeExpression

/-! ## Schemas -/

namespace Schema

open TypeExpression Emit

variable {env : Environment}

/-- Without comments a node has the same parts, each written without comments. -/
theorem parts_uncommented (s : Schema) :
    s.parts env.uncommented = (s.parts env).rewrite (emitPart env.uncommented) := by
  simp only [parts, Parts.rewrite, namedParts_eq_map, optionalPart_eq_map, branchParts_eq_map,
    List.map_map, Option.map_map]
  rfl

variable (hdocument : env.document.Textual) (htables : env.correlator.Textual) {s : Schema}
  (hs : s.Textual)

include hdocument htables hs

/-- **Comments are remarks.** The induction is on the tree: the parts of a node have remarks between
their lines by induction, and the rules for one node keep them there. -/
theorem comments_emit (path : Path) : Comments (emit env s path) (emit env.uncommented s path) := by
  induction s using children_induction generalizing path with
  | step s ih =>
    rw [emit_eq, emit_eq, parts_uncommented]
    refine comments_nodeType (parts_all fun child hchild ↦ ?_) hdocument htables hs path
    exact comments_partType (ih child hchild (hs.of_mem_children hchild))

theorem comments_emitPart (path : Path) :
    Comments (emitPart env s path) (emitPart env.uncommented s path) :=
  comments_partType (comments_emit hdocument htables hs) path

theorem comments_emitRoot (path : Path) :
    Comments (emitRoot env s path) (emitRoot env.uncommented s path) := by
  refine (coupled_note _ _ _).silent_bind fun _ _ _ ↦ ?_
  split
  · exact comments_emit hdocument htables hs path
  · next ref href =>
    refine coupled_lift_bind fun target htarget ↦ ?_
    split
    · exact comments_emit hdocument htables (hdocument.of_resolve_eq_ok htarget) path
    · exact comments_issue path (by nofun) _

/-- What is captured as the type at the end of a path, with comments and without. -/
theorem comments_at (path : Path) :
    Comments (if path.isRoot then emitRoot env s path else emitPart env s path)
      (if path.isRoot then emitRoot env.uncommented s path
        else emitPart env.uncommented s path) := by
  split
  · exact comments_emitRoot hdocument htables hs path
  · exact comments_emitPart hdocument htables hs path

/-- The declaration of a schema, with comments and without. -/
theorem comments_emitNamed (name : String) :
    Comments (emitNamed env name s) (emitNamed env.uncommented name s) := by
  unfold emitNamed
  refine coupled_lift_bind fun isAlias _ ↦ ?_
  refine coupled_lift_bind fun node hnode ↦ ?_
  have hnodeTextual : node.Textual :=
    (Document.leads_of_ite_deref_eq_ok hnode).of_forall_mem_entries hdocument hs
  refine coupled_lift_bind fun branches hbranches ↦ ?_
  split
  · next branches =>
    have hparts : branchParts env.uncommented branches =
        (branchParts env branches).map (Part.rewrite (emitPart env.uncommented)) := by
      rw [branchParts_eq_map, branchParts_eq_map, List.map_map]
      rfl
    rw [hparts]
    refine comments_namedUnion ?_ _ _
    intro part hpart path
    obtain ⟨branch, hbranch, rfl⟩ := mem_branchParts.mp hpart
    have hchild := mem_children_of_mem_unionBranches hbranches hbranch
    exact comments_emitPart hdocument htables (hnodeTextual.of_mem_children hchild) path
  · refine Comments.bind (coupled_write (.refl _)) fun _ ↦ ?_
    exact Comments.bind (comments_emitRoot hdocument htables hs _) fun _ ↦ coupled_write (.refl _)

end Schema

/-! ## What comes of an emission, and what a run sees of it -/

open Event

/-- The declarations that events hand over, without remarks. -/
def Event.statementsRegistered (events : List Event) : List (String × String) :=
  (registrations events).map fun (name, text) ↦ (name, withoutRemarks text)

theorem Event.Commented.statementsRegistered_eq {xs ys : List Event} (h : Commented xs ys) :
    statementsRegistered xs = statementsRegistered ys := by
  have hregistrations := h.registrations
  rw [statementsRegistered, statementsRegistered]
  generalize Event.registrations xs = ds at hregistrations ⊢
  generalize Event.registrations ys = es at hregistrations ⊢
  induction hregistrations with
  | nil => rfl
  | cons hsame _ ih =>
    rw [List.map_cons, List.map_cons, ih]
    exact congrArg (· :: _) (Prod.ext hsame.1 hsame.2.withoutRemarks_eq)

/-- Two emissions of a type bring about the same but for remarks. -/
structure Emission.AlikeWithoutRemarks (e e' : Emission String) : Prop where
  /-- The same type comes of both, or both end early for the same reason. -/
  result : e.result.map withoutRemarks = e'.result.map withoutRemarks
  /-- The same declarations are handed over, in the same order. -/
  registrations : statementsRegistered e.events = statementsRegistered e'.events
  requirements : requirements e.events = requirements e'.events
  reports : reports e.events = reports e'.events

/-- Two emissions look alike in two runs but for remarks, and apart from collisions of names. -/
structure Run.AlikeWithoutRemarks (r₁ r₂ : Run) (x₁ x₂ : Emit Unit) : Prop where
  /-- The same is written. -/
  text : withoutRemarks (r₁.take x₁).text = withoutRemarks (r₂.take x₂).text
  /-- Both end of themselves, or both for the same reason. -/
  obstacle : (r₁.take x₁).obstacle = (r₂.take x₂).obstacle
  /-- The same declarations are handed over, in the same order. -/
  registrations : statementsRegistered (r₁.undergone x₁) = statementsRegistered (r₂.undergone x₂)
  /-- The same packages are added to those that the runs need already. -/
  required : ∃ added : List Json.Key, ∀ path,
    (path ∈ (r₁.take x₁).run.required ↔ path ∈ r₁.required ∨ path ∈ added) ∧
      (path ∈ (r₂.take x₂).run.required ↔ path ∈ r₂.required ∨ path ∈ added)
  /-- The same issues are recorded, in the same order. -/
  issues : (r₁.recorded (r₁.undergone x₁)).filter (fun i ↦ i.cause.kind != .nameCollision) =
    (r₂.recorded (r₂.undergone x₂)).filter fun i ↦ i.cause.kind != .nameCollision

theorem Emission.Coupled.alikeWithoutRemarks {e e' : Emission String}
    (h : Coupled Emit.Silent Text.Commented e e') : AlikeWithoutRemarks e e' := by
  rcases h with ⟨-, hevents, -, htext⟩ | ⟨m, hevents⟩
  · exact ⟨congrArg Except.ok htext.withoutRemarks_eq, hevents.statementsRegistered_eq,
      hevents.requirements, hevents.reports⟩
  · exact ⟨rfl, hevents.statementsRegistered_eq, hevents.requirements, hevents.reports⟩

/-- The same is written of both, and they end for the same reason. -/
theorem Emission.AlikeWithoutRemarks.written {e e' : Emission String}
    (h : AlikeWithoutRemarks e e') :
    withoutRemarks (e.result.toOption.getD "") = withoutRemarks (e'.result.toOption.getD "") ∧
      e.failure? = e'.failure? := by
  have hresult := h.result
  rw [failure?, failure?]
  generalize e.result = result at hresult ⊢
  generalize e'.result = result' at hresult ⊢
  rcases result with m | text
  · rcases result' with m' | text'
    · exact ⟨rfl, congrArg some (Except.error.inj hresult)⟩
    · cases hresult
  · rcases result' with m' | text'
    · cases hresult
    · exact ⟨Except.ok.inj hresult, rfl⟩

/-- A run in which what is captured is written tells the events and writes the captured text. -/
theorem Run.take_capture_write {r : Run} (h : r.issues.limit.isNumber = true) (x : Emit Unit) :
    r.take (Emit.capture x >>= Emit.write) =
        ⟨r.applyAll (Emit.capture x r.memory).events,
          (Emit.capture x r.memory).result.toOption.getD "", (Emit.capture x r.memory).failure?⟩ ∧
      r.undergone (Emit.capture x >>= Emit.write) = (Emit.capture x r.memory).events := by
  rw [take_eq_of_isNumber h, undergone_eq_of_isNumber h]
  have hsilent : Act.text (Emit.capture x r.memory).acts = "" := Act.text_map_tell _
  rcases hx : Emit.capture x r.memory with ⟨acts, memory, result⟩
  rw [hx] at hsilent
  cases result with
  | error m =>
    rw [Emit.bind_apply_of_error hx]
    exact ⟨congrArg (Performance.mk _ · _) hsilent, rfl⟩
  | ok text =>
    have hevents : Act.events (acts ++ [.write text]) = Act.events acts := by
      rw [Act.events_append]
      exact List.append_nil _
    have htext : Act.text (acts ++ [.write text]) = text := by
      rw [Act.text_append, hsilent, String.empty_append]
      exact String.append_empty
    rw [Emit.bind_apply_of_ok hx]
    exact ⟨congrArg₂ (Performance.mk · · _) (congrArg r.applyAll hevents) htext, hevents⟩

/-- What is captured alike but for remarks looks alike but for remarks in runs with numbers for
limits. -/
theorem Run.alikeWithoutRemarks_of_capture {x y : Emit Unit} {r₁ r₂ : Run}
    (h : (Emit.capture x r₁.memory).AlikeWithoutRemarks (Emit.capture y r₂.memory))
    (h₁ : r₁.issues.limit.isNumber = true) (h₂ : r₂.issues.limit.isNumber = true) :
    AlikeWithoutRemarks r₁ r₂ (Emit.capture x >>= Emit.write) (Emit.capture y >>= Emit.write) := by
  obtain ⟨htake₁, hundergone₁⟩ := take_capture_write h₁ x
  obtain ⟨htake₂, hundergone₂⟩ := take_capture_write h₂ y
  refine ⟨?_, ?_, ?_, ⟨requirements (Emit.capture y r₂.memory).events, fun path ↦ ⟨?_, ?_⟩⟩, ?_⟩
  · rw [htake₁, htake₂]
    exact h.written.1
  · rw [htake₁, htake₂]
    exact h.written.2
  · rw [hundergone₁, hundergone₂, h.registrations]
  · rw [htake₁, mem_required_applyAll, h.requirements]
  · rw [htake₂, mem_required_applyAll]
  · rw [filter_recorded, filter_recorded, hundergone₁, hundergone₂, h.reports]

/-- **Documentation comments are inert.** In a textual document and with textual tables, the type at
the end of a path is the same with documentation comments and without them, but for remarks,
whatever is remembered of tables. The same declarations are handed over but for remarks, the same
packages are needed, and the same issues are reported. So it looks alike in any two runs whose
limits are numbers. -/
theorem Schema.comments_inert {env : Environment} (hdocument : env.document.Textual)
    (htables : env.correlator.Textual) {s : Schema} (hs : s.Textual) (path : Path) :
    (∀ memory memory' : Memory, memory.Textual →
      Emission.AlikeWithoutRemarks (emitAt env s path memory)
        (emitAt env.uncommented s path memory')) ∧
    ∀ r₁ r₂ : Run, r₁.memory.Textual → r₁.issues.limit.isNumber = true →
      r₂.issues.limit.isNumber = true →
      Run.AlikeWithoutRemarks r₁ r₂ (emitAt env s path >>= Emit.write)
        (emitAt env.uncommented s path >>= Emit.write) := by
  have hcaptured : ∀ memory memory' : Memory, memory.Textual →
      (emitAt env s path memory).AlikeWithoutRemarks (emitAt env.uncommented s path memory') :=
    fun memory memory' hmemory ↦
      ((comments_at hdocument htables hs path).capture memory memory' hmemory).alikeWithoutRemarks
  refine ⟨hcaptured, fun r₁ r₂ hmemory h₁ h₂ ↦ ?_⟩
  exact Run.alikeWithoutRemarks_of_capture (hcaptured r₁.memory r₂.memory hmemory) h₁ h₂

/-- A table that says something about the owner of a guild. -/
def DocTable.ofGuild : DocTable where
  sections := [.text "Guild Structure"]
  description := .text ""
  rows := [⟨.text "owner_id", .text "snowflake", .text "whoever founded the guild"⟩]
  source := ⟨"", 0⟩

/-- An object whose only property the table describes. -/
def Schema.guild : Schema :=
  .node { Keywords.blank 1 with types := ["object"] }
    [("owner_id", leaf { Keywords.blank 2 with types := ["string"] })] none [] [] [] none

/-- An environment with documentation comments and one table. -/
def Environment.commented : Environment where
  document := default
  options := { Options.initial with docComments := true }
  snowflakes := ⟨[], []⟩
  correlator := ⟨[(DocTable.ofGuild, ⟨"Guild Structure", []⟩)]⟩
  renames := []

/-- The table is remembered for the object. -/
def Correlator.Memory.ofGuild : Memory := [(Schema.guild.canonicalText, [⟨.ofGuild, 7⟩])]

/-- With comments the owner of a guild is looked up in what is remembered, and found. -/
theorem Schema.comments_inert_guild :
    (Environment.commented.documentedFields (.ofRoot "Guild") guild .ofGuild).result.map
      Entries.names = .ok ["owner_id"] ∧
    Emission.AlikeWithoutRemarks (emitAt .commented guild (.ofRoot "Guild") .ofGuild)
      (emitAt Environment.commented.uncommented guild (.ofRoot "Guild") []) := by
  have htable : DocTable.ofGuild.Textual :=
    List.forall_mem_singleton.mpr ⟨⟨_, rfl⟩, ⟨_, rfl⟩, ⟨_, rfl⟩⟩
  have hdocument : Environment.commented.document.Textual := List.forall_mem_nil _
  have htables : Environment.commented.correlator.Textual := List.forall_mem_singleton.mpr htable
  have hmemory : Memory.ofGuild.Textual :=
    List.forall_mem_singleton.mpr (List.forall_mem_singleton.mpr htable)
  have hkeywords : ∀ line types,
      Keywords.Textual { Keywords.blank line with types := types } := fun line types ↦
    ⟨fun ref href ↦ absurd href nofun, ⟨_, rfl⟩, ⟨_, rfl⟩, ⟨_, rfl⟩⟩
  have hguild : guild.Textual := by
    refine .of_children (hkeywords 1 _) (List.forall_mem_singleton.mpr ?_)
    exact .of_children (hkeywords 2 _) (List.forall_mem_nil _)
  refine ⟨by decide +kernel, ?_⟩
  exact (comments_inert hdocument htables hguild (.ofRoot "Guild")).1 _ _ hmemory

end SchemaTypes
