import Mathlib
import SchemaTypes.Proofs.Emission.Wording
import SchemaTypes.Proofs.Identifier.PathNames
import SchemaTypes.Proofs.Json.Brackets
import SchemaTypes.Proofs.Snowflake.Guesses

/-!
# Brackets of outputs

What a rule opens it closes, whatever it writes between: a type that is captured and written again,
the remark in the place of a type, the lines of an object or of a set of constants. So the text of a
node is well bracketed if the texts for the schemas right below it are, and so is what is declared
beside it (`Environment.inherits_bracketed`), with issues or without. That holds then of every
declaration (`Schema.ensures_emitNamed_bracketed`).

Words of the document are written as they are, so they must not have brackets of their own
(`Schema.Unbracketed`).
-/

namespace SchemaTypes

open Declaration Identifier Text TypeExpression

/-- The text of an output is well bracketed, and so are the declarations that it hands over and the
paths of the packages that it needs. -/
structure Output.Bracketed (o : Output) : Prop where
  text : WellBracketed o.text
  declarations : ∀ d ∈ o.declarations, WellBracketed d.2
  packages : ∀ package ∈ o.packages, WellBracketed package.toJson.display

namespace Output.Bracketed

variable {a b o : Output}

theorem written {text : String} (h : WellBracketed text) : (Output.written text).Bracketed :=
  ⟨h, List.forall_mem_nil _, List.forall_mem_nil _⟩

theorem nothing : Output.nothing.Bracketed := written (by decide)

theorem flawed (issues : List Issue) : (Output.flawed issues).Bracketed :=
  ⟨nothing.text, List.forall_mem_nil _, List.forall_mem_nil _⟩

theorem need {package : Json.Key} (h : WellBracketed package.toJson.display) :
    (Output.need package).Bracketed :=
  ⟨nothing.text, List.forall_mem_nil _, List.forall_mem_singleton.mpr h⟩

theorem declaration {name text : String} (h : WellBracketed text) :
    (Output.declaration name text).Bracketed :=
  ⟨nothing.text, List.forall_mem_singleton.mpr h, List.forall_mem_nil _⟩

theorem append (ha : a.Bracketed) (hb : b.Bracketed) : (a ++ b).Bracketed :=
  ⟨ha.text.append hb.text, List.forall_mem_append.mpr ⟨ha.declarations, hb.declarations⟩,
    List.forall_mem_append.mpr ⟨ha.packages, hb.packages⟩⟩

theorem mapText {f : String → String} (ho : o.Bracketed) (hf : WellBracketed (f o.text)) :
    (o.mapText f).Bracketed :=
  ⟨hf, ho.declarations, ho.packages⟩

theorem join {outputs : List Output} (h : ∀ o ∈ outputs, o.Bracketed) :
    (Output.join outputs).Bracketed := by
  induction outputs with
  | nil => exact nothing
  | cons o rest ih =>
    obtain ⟨ho, hrest⟩ := List.forall_mem_cons.mp h
    exact ho.append (ih hrest)

/-- What is written between an opening text and the one that closes it. -/
theorem between {s t : String} (h : WellBracketed (s ++ t)) (ho : o.Bracketed) :
    (Output.written s ++ (o ++ Output.written t)).Bracketed := by
  rw [written_append_append_written]
  exact ho.mapText (h.between ho.text)

end Output.Bracketed

/-! ## Texts of fixed shape -/

section

variable {name type remark : String}

theorem wellBracketed_placeholder (h : WellBracketed remark) :
    WellBracketed (placeholder remark) :=
  .between (by decide) h

theorem wellBracketed_optional (h : WellBracketed type) : WellBracketed (optional type) :=
  .between (by decide) (wellBracketed_removeBeginning_iff.mpr h)

/-- Line feeds behind a text are no brackets. -/
theorem wellBracketed_trimFeeds_iff {text : String} :
    WellBracketed (trimFeeds text) ↔ WellBracketed text := by
  obtain ⟨n, hn⟩ := exists_trimFeeds_append text
  have hfeeds : BracketFree (String.ofList (List.replicate n '\n')) := by
    intro c hc
    rw [String.toList_ofList] at hc
    obtain rfl := List.eq_of_mem_replicate hc
    rfl
  rw [← wellBracketed_append_iff_left hfeeds.wellBracketed, hn]

/-- A named type is declared with its name and its type. -/
theorem wellBracketed_declaration (hname : Lettered name) (htype : WellBracketed type) :
    WellBracketed ("type " ++ name ++ " " ++ type ++ "\n\n") := by
  have hfront : WellBracketed ("type " ++ name ++ " ") :=
    .append (.append (by decide) (wellBracketed_of_lettered hname)) (by decide)
  exact .append (hfront.append htype) (by decide)

theorem wellBracketed_unionBlock {variants : List String} (hname : Lettered name)
    (hvariants : ∀ v ∈ variants, Lettered v) : WellBracketed (unionBlock name variants) := by
  have hunion := wellBracketed_of_lettered hname
  have hlist : ∀ v ∈ variants, WellBracketed ("//   - [" ++ v ++ "]\n") :=
    fun v hv ↦ .between (by decide) (wellBracketed_of_lettered (hvariants v hv))
  have hmethods : ∀ v ∈ variants,
      WellBracketed ("func (" ++ v ++ ") is" ++ name ++ "() \x7b\x7d\n") := by
    intro v hv
    have hvariant := wellBracketed_of_lettered (hvariants v hv)
    exact .append (.append (.between (by decide) hvariant) hunion) (by decide)
  have hremark := WellBracketed.append (.append (.append (by decide : WellBracketed "// ") hunion)
    (by decide : WellBracketed " is a union of the following types:\n"))
    (wellBracketed_join (List.forall_mem_map.mpr hlist))
  refine .append (.between ?_ hunion) (wellBracketed_join (List.forall_mem_map.mpr hmethods))
  -- What is left without the name between them are the braces of the interface.
  rw [String.append_assoc]
  exact .append (.append (hremark.append (by decide)) hunion) (by decide)

theorem wellBracketed_constantBlock {constants : List Constant} (htype : Lettered type)
    (h : ∀ c ∈ constants, Lettered c.name ∧ WellBracketed c.value ∧ BracketFree c.comment) :
    WellBracketed (constantBlock type constants) := by
  refine .between (by decide) (wellBracketed_join (List.forall_mem_map.mpr fun c hc ↦ ?_))
  obtain ⟨hname, hvalue, hcomment⟩ := h c hc
  have hremark := (Comment.bracketFree_partComment hcomment).wellBracketed
  have hfront : WellBracketed (Comment.partComment c.comment ++ "\t" ++ c.name ++ " ") :=
    .append (.append (hremark.append (by decide)) (wellBracketed_of_lettered hname)) (by decide)
  have htyped := (hfront.append (wellBracketed_of_lettered htype)).append
    (by decide : WellBracketed " = ")
  exact .append (htyped.append hvalue) (by decide)

/-- The line of a field has its name, its type and its tag. -/
theorem wellBracketed_fieldLine {tag : String} (hname : BracketFree name)
    (htype : WellBracketed type) (htag : WellBracketed tag) :
    WellBracketed ("\t" ++ ofSnakeCase name ++ " " ++ type ++ " `json:\"" ++ name ++ tag) := by
  have hidentifier := wellBracketed_of_lettered (lettered_ofSnakeCase name)
  have hfront : WellBracketed ("\t" ++ ofSnakeCase name ++ " ") :=
    .append (.append (by decide) hidentifier) (by decide)
  exact .append (.append (.append (hfront.append htype) (by decide)) hname.wellBracketed) htag

end

/-! ## Rules -/

/-- The path of the package of optional values is well bracketed. -/
def Environment.BracketedPath (env : Environment) : Prop :=
  ∀ package, env.options.optionImportPath.asKey = .ok package →
    WellBracketed package.toJson.display

/-- The words, the value and the description of a schema have no brackets. -/
def Schema.Unbracketed : Schema → Prop :=
  Worded BracketFree (Json.Throughout BracketFree) BracketFree

namespace Schema

variable {env : Environment} {s : Schema} {path : Path} {o : Output}

/-! ### Constants -/

section

variable (hbranches : ∀ branch ∈ s.oneOf, ∀ node, env.document.deref branch = .ok node →
  node.Unbracketed)

include hbranches

theorem AreConstants.wellBracketed {type : String} {constants : List Constant}
    (h : AreConstants env type s.oneOf constants) (htype : Lettered type) :
    WellBracketed (constantBlock type constants) := by
  refine wellBracketed_constantBlock htype fun c hc ↦ ?_
  obtain ⟨branch, hbranch, node, value, description, hnode, hconst, hdescription, hname, hvalue,
    hcomment⟩ := h.of_mem htype hc
  have hwords := hbranches branch hbranch node hnode
  rw [hvalue, hcomment]
  exact ⟨hname, Json.wellBracketed_write (hwords.const value hconst),
    Comment.bracketFree_prose (bracketFree_of_lettered hname)
      (hwords.description description hdescription)⟩

theorem WritesConstants.bracketed {base : String} (h : WritesConstants env s path base o)
    (hbase : WellBracketed base) : o.Bracketed := by
  have hname := lettered_declaredName path
  cases h with
  | root _ hconstants =>
    have hblock := hconstants.wellBracketed hbranches hname
    exact .append (.flawed _) (.written (.append (hbase.append (by decide)) hblock))
  | hoisted _ hconstants =>
    have hblock := hconstants.wellBracketed hbranches hname
    have htype := WellBracketed.append (wellBracketed_declaration hname hbase) hblock
    refine .append (.flawed _) (.append (.declaration (.append ?_ (by decide)))
      (.written (wellBracketed_of_lettered hname)))
    exact htype

end

/-! ### Objects and unions -/

section

variable {part : Schema → Path → Output → Prop} (hpart : ∀ t p o, part t p o → o.Bracketed)

include hpart

theorem WritesField.bracketed (hpath : env.BracketedPath) {field : String × Schema}
    (h : WritesField env part s [] path field o) (hname : BracketFree field.1) : o.Bracketed := by
  have hcomment : ∀ {name identifier comment : String},
      WritesComment [] name identifier comment → WellBracketed comment := by
    rintro _ _ _ (_ | ⟨hinfo, -⟩)
    · decide
    · cases hinfo
  rcases h with _ | ⟨-, -, hc, ho⟩ | ⟨-, -, hc, ho, hpackage⟩
  · exact .nothing
  · have hinner := hpart _ _ _ ho
    exact .append (.written (hcomment hc))
      (hinner.mapText (wellBracketed_fieldLine hname hinner.text (by decide)))
  · have hinner := hpart _ _ _ ho
    have htype := wellBracketed_optional hinner.text
    exact .append (.written (hcomment hc))
      (.append (hinner.mapText (wellBracketed_fieldLine hname htype (by decide)))
        (.need (hpath _ hpackage)))

/-- Without documentation an object is written without comments. -/
theorem WritesObject.bracketed (hpath : env.BracketedPath)
    (h : WritesObject env (· = []) part s path o) (hs : s.Unbracketed) : o.Bracketed := by
  obtain ⟨_, fields, rfl, hfields, rfl⟩ := h
  refine .between (by decide)
    (.join (forall_mem_of_forall₂ hfields fun property hproperty o ho ↦ ?_))
  have hmem := (sortedProperties_perm s).mem_iff.mp hproperty
  exact ho.bracketed hpart hpath (hs.names property hmem)

theorem WritesMember.bracketed {member : Schema × Nat} (h : WritesMember part path member o) :
    o.Bracketed := by
  obtain ⟨inner, hinner, rfl⟩ := h
  have hinner := hpart _ _ _ hinner
  exact hinner.mapText (.append (.append (by decide) hinner.text) (by decide))

theorem WritesVariant.bracketed {variant : String × Schema} (h : WritesVariant part path variant o)
    (hname : Lettered variant.1) : o.Bracketed := by
  rcases h with _ | ⟨-, ho⟩
  · exact .nothing
  · have hinner := hpart _ _ _ ho
    exact .append (hinner.mapText Output.Bracketed.nothing.text)
      (.declaration (wellBracketed_declaration hname hinner.text))

theorem WritesUnion.bracketed {union : String} {branches : List Schema}
    (h : WritesUnion env part union branches path o) (hunion : Lettered union) : o.Bracketed := by
  obtain ⟨hnames, hvariants⟩ := h
  have hlettered := lettered_variantNames hunion hnames
  refine .append (.written (.append ?_ (by decide))) (.join ?_)
  · exact wellBracketed_trimFeeds_iff.mpr (wellBracketed_unionBlock hunion hlettered)
  · exact forall_mem_of_forall₂ hvariants fun p hp o ho ↦
      ho.bracketed hpart (hlettered p.1 (List.of_mem_zip hp).1)

/-! ### Nodes -/

omit hpart in
theorem IntegerBase.wellBracketed {base : Json} (h : IntegerBase env s base) (hs : s.Unbracketed)
    (hkind : s.kind? = some .integer) : WellBracketed base.display := by
  cases h with
  | name => exact wellBracketed_of_lettered (lettered_ofMixedCase _)
  | plain =>
    rw [Json.display]
    decide
  | format => exact (hs.format hkind).wellBracketed

omit hpart in
/-- A remark on types that are not known names them. -/
theorem wellBracketed_remark {types : List String} {remark : String}
    (htypes : ∀ type ∈ types, BracketFree type)
    (h : remark = "unknown" ∨ remark = " ".intercalate types) : WellBracketed remark := by
  rcases h with rfl | rfl
  · decide
  · exact wellBracketed_intercalate (by decide) fun type htype ↦ (htypes type htype).wellBracketed

omit hpart in
theorem wellBracketed_numberType {format : Json} {type : String}
    (h : numberType format = .ok type) : WellBracketed type := by
  unfold numberType at h
  split at h <;> cases h <;> decide

variable (hs : s.Unbracketed) (hsnowflakes : env.snowflakes.Lettered)
  (hpath : env.BracketedPath)
  (hbranches : ∀ branch ∈ s.oneOf, ∀ node, env.document.deref branch = .ok node →
    node.Unbracketed)

include hs hsnowflakes hpath hbranches

/-- **What a rule opens it closes**, with an issue or without one. -/
theorem WritesKind.bracketed (h : WritesKind env (· = []) part s path o) : o.Bracketed := by
  have hexported := Path.lettered_exportedName path
  cases h with
  | object _ hobject => exact hobject.bracketed hpart hpath hs
  | list _ _ ho => exact .append (.written (by decide)) (hpart _ _ _ ho)
  | withoutItems =>
    exact .append (.flawed _) (.written (wellBracketed_placeholder (by decide)))
  | composition _ _ hmembers =>
    exact .between (by decide)
      (.join (forall_mem_of_forall₂ hmembers fun _ _ _ ho ↦ ho.bracketed hpart))
  | snowflake => exact .written (wellBracketed_of_lettered (hsnowflakes.guess path))
  | time => exact .append (.need (by decide)) (.written (by decide))
  | text => exact .written (by decide)
  | textConstants _ _ hconstants => exact hconstants.bracketed hbranches (by decide)
  | integer hkind hbase => exact .written (hbase.wellBracketed hs hkind)
  | integerConstants _ hkind hbase hconstants =>
    exact hconstants.bracketed hbranches (hbase.wellBracketed hs hkind)
  | number _ htype => exact .written (wellBracketed_numberType htype)
  | boolean => exact .written (by decide)
  | null _ hpackage => exact .append (.need (hpath _ hpackage)) (.written (by decide))
  | beside _ _ _ ho =>
    have hinner := hpart _ _ _ ho
    have htype := wellBracketed_removeBeginning_iff.mpr hinner.text
    refine hinner.mapText ?_
    split
    · exact htype
    · exact .append (by decide) htype
  | union _ _ ho =>
    have hblock := ho.bracketed hpart hexported
    exact .append (hblock.mapText Output.Bracketed.nothing.text)
      (.append (.declaration hblock.text) (.written (wellBracketed_of_lettered hexported)))
  | negation => exact .append (.flawed _) (.written (wellBracketed_placeholder (by decide)))
  | unknown _ hremark =>
    exact .written (wellBracketed_placeholder (wellBracketed_remark hs.types hremark))

theorem WritesNode.bracketed (h : WritesNode env (· = []) part s path o) : o.Bracketed := by
  have hkind : ∀ {o}, WritesKind env (· = []) part s path o → o.Bracketed :=
    fun h ↦ h.bracketed hpart hs hsnowflakes hpath hbranches
  rcases h with _ | ⟨-, -, h⟩ | ⟨-, -, h⟩
  · have hremark : WellBracketed ("invalid type " ++ quotedList s.types) :=
      .append (by decide) (wellBracketed_quotedList hs.types)
    exact .append (.flawed _) (.written (wellBracketed_placeholder hremark))
  · exact .append (.written (by decide)) (hkind h)
  · exact hkind h

end

end Schema

/-! ## Declarations -/

section

variable {env : Environment} (hsnowflakes : env.snowflakes.Lettered) (hpath : env.BracketedPath)

include hsnowflakes hpath

/-- What is written for a node is well bracketed if what is written for the schemas right below it
is. -/
theorem Environment.inherits_bracketed :
    env.Inherits (· = []) Schema.Unbracketed Output.Bracketed where
  node hs hbranches hpart h := h.bracketed hpart hs hsnowflakes hpath hbranches
  name _ := .written (wellBracketed_of_lettered (lettered_ofMixedCase _))
  reference hs href := .written (wellBracketed_placeholder (hs.ref _ href).wellBracketed)
  flawed ho := .append (.flawed _) ho

/-- **Every declaration is well bracketed**, together with what is declared beside it, as long as
the words of the document have no brackets and no comments are asked for. -/
theorem Schema.ensures_emitNamed_bracketed (hdocs : env.options.docComments = false)
    (hentries : ∀ e ∈ env.document.entries, e.2.Throughout Unbracketed) {s : Schema}
    (hs : s.Throughout Unbracketed) (name : String) :
    Emit.Ensures (fun _ ↦ True) (emitNamed env name s) fun _ o ↦ o.Bracketed := by
  have hnone : env.Documents (fun _ ↦ True) (· = []) :=
    Environment.documents_of rfl fun hon ↦ by simp [hdocs] at hon
  have hname := lettered_ofMixedCase name
  have hinherits := env.inherits_bracketed hsnowflakes hpath
  refine (hinherits.ensures_emitNamed hnone hentries hs name).mono ?_
  rintro _ _ (⟨branches, part, hpart, hunion⟩ | ⟨inner, hinner, rfl⟩)
  · exact hunion.bracketed hpart hname
  · exact hinner.mapText (wellBracketed_declaration hname hinner.text)

end

end SchemaTypes
