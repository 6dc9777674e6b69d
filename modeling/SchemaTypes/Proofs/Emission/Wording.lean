import SchemaTypes.Proofs.Emission.Outputs
import SchemaTypes.Proofs.Identifier.Letters
import SchemaTypes.Proofs.Schema.Leading

/-!
# Words that get into outputs

What a document says is in part written as it is: the names of properties, the references that lead
nowhere, the types that are not known, the formats of integers, the values of constants. A
description is written too, but as a sentence. So a property of outputs that depends on what is
written asks something of the words of a schema (`Schema.Worded`), and of all schemas that it holds
or leads to.

If the output for a node has such a property whenever the outputs for the schemas right below it
have it (`Environment.Inherits`), then the declaration of every entry is made of outputs that have
it (`Environment.Inherits.ensures_emitNamed`).
-/

namespace SchemaTypes

open Declaration

namespace Schema

/-- The words of a schema are fit where they are written, and so are its value and its description.
-/
structure Worded (word : String → Prop) (value : Json → Prop) (remark : String → Prop)
    (s : Schema) : Prop where
  names : ∀ property ∈ s.properties, word property.1
  ref : ∀ ref, s.ref = some ref → word ref.display
  types : ∀ type ∈ s.types, word type
  format : s.kind? = some .integer → word s.keywords.format.display
  const : ∀ v, s.keywords.const = some v → value v
  description : ∀ text, s.keywords.description = .text text → remark text

section

variable {word : String → Prop} {value : Json → Prop} {remark : String → Prop}
  [DecidablePred word] [DecidablePred value] [DecidablePred remark]

instance (description : Json) : Decidable (∀ text, description = .text text → remark text) :=
  match description with
  | .text text =>
    decidable_of_iff (remark text) ⟨fun h _ heq ↦ Json.text.inj heq ▸ h, fun h ↦ h _ rfl⟩
  | .null | .bool _ | .int _ | .real _ | .list _ | .object _ => .isTrue nofun

instance (s : Schema) : Decidable (s.Worded word value remark) :=
  decidable_of_iff
    ((∀ property ∈ s.properties, word property.1) ∧ (∀ ref ∈ s.ref, word ref.display) ∧
      (∀ type ∈ s.types, word type) ∧
      (s.kind? = some .integer → word s.keywords.format.display) ∧
      (∀ v ∈ s.keywords.const, value v) ∧
      ∀ text, s.keywords.description = .text text → remark text)
    ⟨fun ⟨names, ref, types, format, const, description⟩ ↦
        ⟨names, ref, types, format, const, description⟩,
      fun h ↦ ⟨h.names, h.ref, h.types, h.format, h.const, h.description⟩⟩

end

/-- A schema and all schemas within it are fit. -/
def Throughout (fit : Schema → Prop) (s : Schema) : Prop := ∀ t, Within t s → fit t

section

variable {fit : Schema → Prop} {s t : Schema}

theorem Throughout.of_children (hself : fit s)
    (hchildren : ∀ child ∈ s.children, child.Throughout fit) : s.Throughout fit :=
  forall_within hself hchildren

theorem Throughout.leaf {k : Keywords} (h : fit (.leaf k)) : (Schema.leaf k).Throughout fit :=
  .of_children h (List.forall_mem_nil _)

variable (h : s.Throughout fit)

include h

theorem Throughout.self : fit s := h s .self

theorem Throughout.child (ht : t ∈ s.children) : t.Throughout fit := fun u hu ↦ h u (.step ht hu)

/-- Where the entries of a document are fit throughout, a schema leads only to what is. -/
theorem Throughout.leads {d : Document} (hentries : ∀ e ∈ d.entries, e.2.Throughout fit)
    (ht : d.Leads s t) : t.Throughout fit :=
  Document.Leads.of_forall_mem_entries (P := Throughout fit) hentries h ht

end

end Schema

/-- What is said of fields is fit to be written. -/
def FieldInfo.Remarks (remark : String → Prop) (documented : List (String × FieldInfo)) : Prop :=
  ∀ name info, documented.lookup name = some info → ∀ text, info.comment = .text text → remark text

/-! ## Constants -/

namespace TypeExpression

/-- What a constant is made of: the title of its branch, or the value if there is no title, and the
description. -/
theorem of_constant_eq_ok {type : String} {k : Schema.Keywords} {value : Json} {c : Constant}
    (h : constant type k value = .ok c) :
    ∃ title description,
      (k.title.isVoid = true ∧ title = value.display ∨
        k.title.isVoid = false ∧ k.title.textOr "lower" = .ok title) ∧
      k.description = .text description ∧
      c = ⟨Text.removeEnding type "s" ++ Identifier.ofConstant title, value.write,
        Comment.prose (Text.removeEnding type "s" ++ Identifier.ofConstant title)
          description ""⟩ := by
  unfold constant at h
  dsimp only at h
  split at h
  · next hvoid =>
    obtain ⟨title, htitle, h⟩ := exists_of_bind_eq_ok h
    obtain ⟨description, hdescription, hc⟩ := exists_of_bind_eq_ok h
    cases htitle
    cases hc
    exact ⟨_, description, .inl ⟨hvoid, rfl⟩, Json.eq_text_of_textOr_eq_ok hdescription, rfl⟩
  · next hvoid =>
    obtain ⟨title, htitle, h⟩ := exists_of_bind_eq_ok h
    obtain ⟨description, hdescription, hc⟩ := exists_of_bind_eq_ok h
    cases hc
    exact ⟨title, description, .inr ⟨Bool.eq_false_iff.mpr hvoid, htitle⟩,
      Json.eq_text_of_textOr_eq_ok hdescription, rfl⟩

end TypeExpression

/-- What the constants of a set are made of: an identifier, the value of a branch, and a sentence on
the description of that branch. -/
theorem Schema.AreConstants.of_mem {env : Environment} {type : String} {branches : List Schema}
    {constants : List Constant} (h : AreConstants env type branches constants)
    (htype : Identifier.Lettered type) {c : Constant} (hc : c ∈ constants) :
    ∃ branch ∈ branches, ∃ node value description, env.document.deref branch = .ok node ∧
      node.keywords.const = some value ∧ node.keywords.description = .text description ∧
      Identifier.Lettered c.name ∧ c.value = value.write ∧
      c.comment = Comment.prose c.name description "" := by
  obtain ⟨branch, hbranch, node, value, hnode, hconst, hconstant⟩ := h c hc
  obtain ⟨title, description, -, hdescription, rfl⟩ := TypeExpression.of_constant_eq_ok hconstant
  have hname := (htype.removeEnding "s").append (Identifier.lettered_ofConstant title)
  exact ⟨branch, hbranch, node, value, description, hnode, hconst, hdescription, hname, rfl, rfl⟩

/-! ## Properties of outputs -/

open Schema Emit

/-- What is written for a node has a property if what is written for the schemas right below it has
it, as long as the node and the ends of its branches are fit for that. -/
structure Environment.Inherits (env : Environment)
    (documents : List (String × FieldInfo) → Prop) (fit : Schema → Prop) (Q : Output → Prop) :
    Prop where
  node {s : Schema} {path : Path} {o : Output} {part : Schema → Path → Output → Prop} : fit s →
    (∀ branch ∈ s.oneOf, ∀ t, env.document.deref branch = .ok t → fit t) →
    (∀ t p o, part t p o → Q o) → WritesNode env documents part s path o → Q o
  name (name : String) : Q (.written (env.typeName name))
  reference {s : Schema} {ref : Json} : fit s → s.ref = some ref →
    Q (.written (placeholder ref.display))
  flawed {issue : Issue} {o : Output} : Q o → Q (.flawed [issue] ++ o)

namespace Environment.Inherits

variable {env : Environment} {keeps : Correlator.Memory → Prop}
  {documents : List (String × FieldInfo) → Prop} {fit : Schema → Prop} {Q : Output → Prop}
  {s : Schema} (hQ : env.Inherits documents fit Q)

include hQ

/-- What is written for a schema below another one has the property if what is written for it as a
node has. -/
theorem part {o : Output} (hs : s.Throughout fit)
    (h : WritesPart env (fun o ↦ s.Throughout fit → Q o) s o) : Q o := by
  cases h with
  | node _ ho => exact ho hs
  | name => exact hQ.name _
  | response href => exact hQ.reference hs.self href
  | unknown href => exact hQ.flawed (hQ.reference hs.self href)

/-- The declaration of an entry is a union of parts that have the property, or it is made of an
output that has it. -/
theorem ensures_emitNamed (hdocs : env.Documents keeps documents)
    (hentries : ∀ e ∈ env.document.entries, e.2.Throughout fit) (hs : s.Throughout fit)
    (name : String) :
    Ensures keeps (emitNamed env name s) fun _ o ↦
      (∃ branches part, (∀ t p o, part t p o → Q o) ∧
        WritesUnion env part (Identifier.ofMixedCase name) branches (.ofRoot name) o) ∨
      ∃ inner, Q inner ∧ o = inner.mapText fun type ↦
        "type " ++ Identifier.ofMixedCase name ++ " " ++ type ++ "\n\n" := by
  have hparts : ∀ {s : Schema}, s.Throughout fit → ∀ t (_ : Path) o,
      (t ∈ s.children ∧ WritesPart env (fun o ↦ t.Throughout fit → Q o) t o) → Q o :=
    fun hs _ _ _ ho ↦ hQ.part (hs.child ho.1) ho.2
  have hnode : ∀ s path o, WritesNode env documents
      (fun t _ o ↦ t ∈ s.children ∧ WritesPart env (fun o ↦ t.Throughout fit → Q o) t o)
      s path o → s.Throughout fit → Q o := by
    intro s path o h hs
    refine hQ.node hs.self (fun branch hbranch t ht ↦ ?_) (hparts hs) h
    have hend := (hs.child (mem_children_of_mem_oneOf hbranch)).leads hentries
      (Document.leads_of_deref_eq_ok ht)
    exact hend.self
  refine (Schema.ensures_emitNamed hdocs hnode name s).mono ?_
  rintro _ o (⟨hleads, hunion⟩ | hroot)
  · exact .inl ⟨_, _, hparts (hs.leads hentries hleads), hunion⟩
  · refine .inr ⟨_, ?_, rfl⟩
    cases hroot with
    | node hleads ho => exact ho (hs.leads hentries hleads)
    | unknown href => exact hQ.flawed (hQ.reference hs.self href)

end Environment.Inherits

end SchemaTypes
