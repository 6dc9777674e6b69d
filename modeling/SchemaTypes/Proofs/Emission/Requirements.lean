import Mathlib
import SchemaTypes.Proofs.Emission.Packages
import SchemaTypes.Proofs.Emission.Wording
import SchemaTypes.Proofs.Identifier.PathNames
import SchemaTypes.Proofs.Snowflake.Guesses

/-!
# Packages that outputs ask for

What is written for a node asks for a package exactly where it writes the name of a member, and the
name stays in whatever is made of the text. So an output without issues asks for the packages that
it uses, and for no others (`Output.Exact`), as long as no such name comes of the words of the
document. This is proved rule by rule (`Environment.inherits_exact`), and holds then of every
declaration (`Schema.ensures_emitNamed_exact`).

An output with issues may ask for less than it uses: what is in the place of a type then is a remark
that says what is wrong, in words of the document.
-/

namespace SchemaTypes

open Declaration Identifier Text

/-! ## Outputs -/

namespace Output

variable (env : Environment)

/-- An output uses a package in its text or in one of its declarations. -/
def Uses (p : Package) (o : Output) : Prop :=
  p.UsedIn o.text ∨ ∃ d ∈ o.declarations, p.UsedIn d.2

end Output

/-- A key stands for a package. -/
def Package.IsKey (env : Environment) : Package → Json.Key → Prop
  | time, key => key = .text "time"
  | option, key => env.options.optionImportPath.asKey = .ok key

/-- A key stands for one package, unless optional values come from the package of points in time. -/
theorem Package.IsKey.eq {env : Environment} {p q : Package} {key : Json.Key}
    (hp : p.IsKey env key) (hdistinct : env.options.optionImportPath.asKey ≠ .ok (.text "time"))
    (hq : q.IsKey env key) : q = p := by
  cases p <;> cases q
  · rfl
  · exact absurd (hq.trans (congrArg Except.ok hp)) hdistinct
  · exact absurd (hp.trans (congrArg Except.ok hq)) hdistinct
  · rfl

/-- The packages that an output asks for are those that it uses. -/
structure Output.Accounted (env : Environment) (o : Output) : Prop where
  uses_iff : ∀ p : Package, o.Uses p ↔ ∃ key ∈ o.packages, p.IsKey env key
  keys : ∀ key ∈ o.packages, ∃ p : Package, p.IsKey env key
  ends : ∀ d ∈ o.declarations, EndsWord d.2

/-- The packages that an output asks for are those that it uses, if it reports no issue. -/
def Output.Exact (env : Environment) (o : Output) : Prop := o.issues = [] → o.Accounted env

namespace Output.Exact

variable {env : Environment} {a b o : Output}

theorem of_issue {issue : Issue} : Output.Exact env (.flawed [issue] ++ o) := fun h ↦ by cases h

theorem flawed_append (issues : List Issue) (ho : o.Exact env) :
    Output.Exact env (.flawed issues ++ o) := by
  intro hissues
  rw [issues_append, List.append_eq_nil_iff] at hissues
  obtain ⟨rfl, hnone⟩ := hissues
  exact (nothing_append o).symm ▸ ho hnone

/-- Only a text that uses no package asks for none. -/
theorem written {text : String} (h : ∀ p : Package, ¬ p.UsedIn text) :
    Output.Exact env (.written text) := by
  refine fun _ ↦ ⟨fun p ↦ iff_of_false ?_ ?_, ?_, ?_⟩
  · rintro (hused | ⟨d, hd, -⟩)
    · exact h p hused
    · cases hd
  · rintro ⟨key, hkey, -⟩
    cases hkey
  · exact List.forall_mem_nil _
  · exact List.forall_mem_nil _

theorem append (ha : a.Exact env) (hb : b.Exact env) (h : Parted a.text.toList b.text.toList) :
    Output.Exact env (a ++ b) := by
  intro hissues
  rw [issues_append, List.append_eq_nil_iff] at hissues
  have ha := ha hissues.1
  have hb := hb hissues.2
  refine ⟨fun p ↦ ?_, ?_, ?_⟩
  · have huses : (a ++ b).Uses p ↔ a.Uses p ∨ b.Uses p := by
      rw [Uses, Uses, Uses, text_append, Package.usedIn_append_iff h, declarations_append]
      simp only [List.mem_append, or_and_right, exists_or]
      exact or_or_or_comm
    rw [huses, ha.uses_iff, hb.uses_iff, packages_append]
    simp only [List.mem_append, or_and_right, exists_or]
  · rw [packages_append]
    exact List.forall_mem_append.mpr ⟨ha.keys, hb.keys⟩
  · rw [declarations_append]
    exact List.forall_mem_append.mpr ⟨ha.ends, hb.ends⟩

/-- What is made of a text uses the packages that the text uses. -/
theorem mapText {f : String → String} (ho : o.Exact env)
    (hf : ∀ p : Package, p.UsedIn (f o.text) ↔ p.UsedIn o.text) :
    Output.Exact env (o.mapText f) := by
  intro hissues
  have ho := ho hissues
  refine ⟨fun p ↦ ?_, ho.keys, ho.ends⟩
  rw [Uses, Output.mapText, hf p]
  exact ho.uses_iff p

theorem join {outputs : List Output} (h : ∀ o ∈ outputs, o.Exact env ∧ EndsWord o.text) :
    Output.Exact env (.join outputs) := by
  induction outputs with
  | nil => exact .written fun p ↦ Package.not_usedIn_of_not_mem (by simp)
  | cons o rest ih =>
    obtain ⟨⟨ho, hends⟩, hrest⟩ := List.forall_mem_cons.mp h
    exact ho.append (ih hrest) (.inl hends)

/-- A declaration that is made of a text uses the packages that the text uses. -/
theorem declaration {name : String} {f : String → String} (ho : o.Exact env)
    (hf : ∀ p : Package, p.UsedIn (f o.text) ↔ p.UsedIn o.text) (hends : EndsWord (f o.text)) :
    Output.Exact env ((o.mapText fun _ ↦ "") ++ .declaration name (f o.text)) := by
  intro hissues
  rw [issues_append, List.append_eq_nil_iff] at hissues
  have ho := ho hissues.1
  refine ⟨fun p ↦ ?_, ?_, ?_⟩
  · rw [packages_append, Output.mapText, Output.declaration, List.append_nil, ← ho.uses_iff, Uses,
      Uses, text_append, declarations_append, ← hf p]
    have hnone : ¬ p.UsedIn ("" ++ "") := Package.not_usedIn_of_not_mem (by simp)
    rw [or_iff_right hnone]
    simp only [List.mem_append, List.mem_singleton, or_and_right, exists_or, exists_eq_left]
    exact or_comm
  · rw [packages_append, Output.declaration, List.append_nil]
    exact ho.keys
  · rw [declarations_append]
    exact List.forall_mem_append.mpr ⟨ho.ends, List.forall_mem_singleton.mpr hends⟩

/-- Only a declaration that uses no package asks for none. -/
theorem declared {name text : String} (h : ∀ p : Package, ¬ p.UsedIn text) (hends : EndsWord text) :
    Output.Exact env (.declaration name text) := by
  have hempty : ∀ p : Package, ¬ p.UsedIn "" := fun p ↦ Package.not_usedIn_of_not_mem (by simp)
  have hnothing : Output.Exact env .nothing := .written hempty
  have hdeclaration : Output.Exact env ((nothing.mapText fun _ ↦ "") ++ .declaration name text) :=
    hnothing.declaration (f := fun _ ↦ text) (fun p ↦ iff_of_false (h p) (hempty p)) hends
  exact (nothing_append (.declaration name text)) ▸ hdeclaration

/-- The name of a type stands behind its declaration. -/
theorem append_name {name : String} (ho : o.Exact env) (htext : o.text = "")
    (hname : Lettered name) : Output.Exact env (o ++ .written name) := by
  refine ho.append (.written fun p ↦ Package.not_usedIn_of_lettered hname) ?_
  rw [htext]
  exact parted_nil_left _

section

variable (hdistinct : env.options.optionImportPath.asKey ≠ .ok (.text "time"))

include hdistinct

theorem need {p : Package} {key : Json.Key} {text : String} (hkey : p.IsKey env key)
    (hused : p.UsedIn text) (hnone : ∀ q : Package, q.UsedIn text → q = p) :
    Output.Exact env (.need key ++ .written text) := by
  refine fun _ ↦ ⟨fun q ↦ ?_, ?_, List.forall_mem_nil _⟩
  · have huses : (.need key ++ .written text : Output).Uses q ↔ q.UsedIn text := by
      rw [Uses, text_need_append]
      refine or_iff_left ?_
      rintro ⟨d, hd, -⟩
      cases hd
    rw [huses]
    constructor
    · intro h
      obtain rfl := hnone q h
      exact ⟨key, List.mem_singleton.mpr rfl, hkey⟩
    · rintro ⟨other, hmem, h⟩
      obtain rfl := List.mem_singleton.mp hmem
      obtain rfl := h.eq hdistinct hkey
      exact hused
  · intro other hmem
    obtain rfl := List.mem_singleton.mp hmem
    exact ⟨p, hkey⟩

/-- An optional value uses and needs the package of optional values besides those of its type. -/
theorem optional {key : Json.Key} (hkey : env.options.optionImportPath.asKey = .ok key)
    (ho : o.Exact env) :
    Output.Exact env ((o.mapText TypeExpression.optional) ++ .need key) := by
  intro hissues
  rw [issues_append, List.append_eq_nil_iff] at hissues
  have ho := ho hissues.1
  refine ⟨fun p ↦ ?_, ?_, ?_⟩
  · have hoption : Package.option.IsKey env key := hkey
    have hkeyIff : p.IsKey env key ↔ p = .option :=
      ⟨fun hp ↦ hoption.eq hdistinct hp, fun hp ↦ hp ▸ hoption⟩
    have huses : ((o.mapText TypeExpression.optional) ++ .need key : Output).Uses p ↔
        o.Uses p ∨ p = .option := by
      rw [Uses, text_append, Output.need, String.append_empty, Output.mapText,
        Package.usedIn_optional_iff, declarations_append, List.append_nil, Uses]
      exact or_right_comm
    rw [huses, ho.uses_iff, packages_append, Output.need, Output.mapText]
    simp only [List.mem_append, List.mem_singleton, or_and_right, exists_or, exists_eq_left,
      hkeyIff]
  · rw [packages_append]
    exact List.forall_mem_append.mpr ⟨ho.keys, List.forall_mem_singleton.mpr ⟨.option, hkey⟩⟩
  · rw [declarations_append]
    exact List.forall_mem_append.mpr ⟨ho.ends, List.forall_mem_nil _⟩

end

end Output.Exact

/-! ## Outputs of nodes -/

namespace Schema

open TypeExpression

/-- A schema has no name of a member of a package in what is written of it as it is, and none in its
description, which may be written with a small letter in front. -/
abbrev Unqualified : Schema → Prop :=
  Worded (fun word ↦ ¬ NamesPackage word) (fun value ↦ ¬ NamesPackage value.write)
    fun remark ↦ ¬ NamesPackageCapitalized remark

/-- What documentation says of fields has no name of a member of a package. -/
abbrev UnqualifiedFields : List (String × FieldInfo) → Prop :=
  FieldInfo.Remarks fun remark ↦ ¬ NamesPackageCapitalized remark

variable {env : Environment} {part : Schema → Path → Output → Prop} {s : Schema} {path : Path}
  {o : Output}

theorem IntegerBase.not_usedIn_display {base : Json} (h : IntegerBase env s base)
    (hs : s.Unqualified) (hkind : s.kind? = some .integer) (p : Package) :
    ¬ p.UsedIn base.display := by
  cases h with
  | name => exact Package.not_usedIn_of_lettered (lettered_ofMixedCase _)
  | plain => cases p <;> decide
  | format => exact Package.not_usedIn_of_not_namesPackage (hs.format hkind)

theorem usedIn_placeholder_iff {p : Package} {remark : String} :
    p.UsedIn (placeholder remark) ↔ p.UsedIn remark := by
  rw [placeholder, Package.usedIn_closing_iff (by decide), Package.usedIn_opening_iff (by decide)]

theorem WritesComment.not_usedIn {documented : List (String × FieldInfo)}
    {name identifier comment : String} (h : WritesComment documented name identifier comment)
    (hidentifier : Lettered identifier) (hdocumented : UnqualifiedFields documented) (p : Package) :
    ¬ p.UsedIn comment := by
  cases h with
  | none => exact Package.not_usedIn_of_not_mem (by simp)
  | some hinfo hdescription =>
    refine Package.not_usedIn_partComment (Package.not_usedIn_prose hidentifier ?_)
    exact hdocumented _ _ hinfo _ (Json.eq_text_of_textOr_eq_ok hdescription)

/-- The lines of a constant end where a word ends. -/
theorem endsWord_constantLines (type : String) (c : Constant) : EndsWord (constantLines type c) :=
  endsWord_of_isOpening (by decide) _

section

variable (hbranches : ∀ branch ∈ s.oneOf, ∀ node, env.document.deref branch = .ok node →
  node.Unqualified)

include hbranches

/-- A set of constants uses no package. -/
theorem AreConstants.not_usedIn_constantBlock {type : String} {constants : List Constant}
    (h : AreConstants env type s.oneOf constants) (htype : Lettered type) (p : Package) :
    ¬ p.UsedIn (constantBlock type constants) := by
  have hlines : ∀ c ∈ constants, ¬ p.UsedIn (constantLines type c) := by
    intro c hc
    obtain ⟨branch, hbranch, node, value, description, hnode, hconst, hdescription, hname, hvalue,
      hcomment⟩ := h.of_mem htype hc
    have hplain := hbranches branch hbranch node hnode
    have hcommentUsed : ¬ p.UsedIn (Comment.partComment c.comment) := by
      rw [hcomment]
      exact Package.not_usedIn_partComment
        (Package.not_usedIn_prose hname (hplain.description description hdescription))
    have hvalueUsed : ¬ p.UsedIn c.value := by
      rw [hvalue]
      exact Package.not_usedIn_of_not_namesPackage (hplain.const value hconst)
    simp (disch := decide) only [constantLines, Package.usedIn_closing_iff,
      Package.usedIn_between_iff, hcommentUsed, hvalueUsed, Package.not_usedIn_of_lettered hname,
      Package.not_usedIn_of_lettered htype, or_false, not_false_eq_true]
  have hends : ∀ text ∈ constants.map (constantLines type), EndsWord text :=
    List.forall_mem_map.mpr fun c _ ↦ endsWord_constantLines type c
  rw [constantBlock, Package.usedIn_closing_iff (by decide), Package.usedIn_opening_iff (by decide),
    Package.usedIn_join_iff hends]
  rintro ⟨text, htext, hused⟩
  obtain ⟨c, hc, rfl⟩ := List.mem_map.mp htext
  exact hlines c hc hused

theorem WritesConstants.exact {base : String} (h : WritesConstants env s path base o)
    (hbase : ∀ p : Package, ¬ p.UsedIn base) : o.Exact env := by
  have hletters := lettered_declaredName path
  have hname : ∀ p : Package, ¬ p.UsedIn (declaredName path) :=
    fun p ↦ Package.not_usedIn_of_lettered hletters
  cases h with
  | root _ hconstants =>
    refine .flawed_append _ (.written fun p ↦ ?_)
    rw [Package.usedIn_between_iff (by decide)]
    exact not_or.mpr ⟨hbase p, hconstants.not_usedIn_constantBlock hbranches hletters p⟩
  | @hoisted constants _ _ hconstants =>
    have hblock : ∀ p : Package, ¬ p.UsedIn (constantBlock (declaredName path) constants) :=
      hconstants.not_usedIn_constantBlock hbranches hletters
    refine .flawed_append _ (.append_name (.declared (fun p ↦ ?_) ?_) rfl hletters)
    · simp (disch := decide) only [Package.usedIn_closing_iff, Package.usedIn_between_iff,
        Package.usedIn_opening_iff, hname, hbase, hblock, or_false, not_false_eq_true]
    · exact endsWord_of_isOpening (by decide) _

end

/-! ### Objects -/

/-- A field uses and asks for what its type does. -/
theorem exact_fieldLine {name comment tag : String} (ho : o.Exact env)
    (hcomment : ∀ p : Package, ¬ p.UsedIn comment) (hname : ¬ NamesPackage name)
    (htag : isOpening tag = true ∧ isClosing tag = true) :
    Output.Exact env (.written comment ++ o.mapText fun type ↦
      "\t" ++ ofSnakeCase name ++ " " ++ type ++ " `json:\"" ++ name ++ tag) ∧
    EndsWord (Output.written comment ++ o.mapText fun type ↦
      "\t" ++ ofSnakeCase name ++ " " ++ type ++ " `json:\"" ++ name ++ tag).text := by
  have hidentifierUsed : ∀ p : Package, ¬ p.UsedIn (ofSnakeCase name) :=
    fun p ↦ Package.not_usedIn_of_lettered (lettered_ofSnakeCase name)
  have hnameUsed : ∀ p : Package, ¬ p.UsedIn name :=
    fun p ↦ Package.not_usedIn_of_not_namesPackage hname
  constructor
  · refine .append (.written hcomment) (ho.mapText fun p ↦ ?_) ?_
    · rw [Package.usedIn_closing_iff htag.2]
      simp (disch := decide) only [Package.usedIn_between_iff, Package.usedIn_opening_iff,
        hidentifierUsed, hnameUsed, or_false, false_or]
    · simp only [Output.mapText, String.append_assoc]
      exact parted_of_isClosing (by decide) _ _
  · rw [Output.text_append, Output.mapText, ← String.append_assoc]
    exact endsWord_of_isOpening htag.1 _

/-- Lines between braces use and ask for what the lines do. -/
theorem exact_braces {lines : List Output} (h : ∀ o ∈ lines, o.Exact env ∧ EndsWord o.text) :
    Output.Exact env (.written "struct \x7b\n" ++ (.join lines ++ .written "\x7d")) := by
  have hnone : ∀ text : String, '.' ∉ text.toList → ∀ p : Package, ¬ p.UsedIn text :=
    fun _ hdot _ ↦ Package.not_usedIn_of_not_mem hdot
  refine .append (.written (hnone _ (by decide))) (.append (.join h) ?_ ?_) ?_
  · exact .written (hnone _ (by decide))
  · exact .inr (by simp [Output.written, isBreak, isWordLetter])
  · exact .inl (by simp [Output.written, isBreak, isWordLetter])

section

variable {part : Schema → Path → Output → Prop} {documents : List (String × FieldInfo) → Prop}
  (hdistinct : env.options.optionImportPath.asKey ≠ .ok (.text "time"))
  (hpart : ∀ t p o, part t p o → o.Exact env)

include hpart

include hdistinct in
theorem WritesField.exact {documented : List (String × FieldInfo)} {field : String × Schema}
    (h : WritesField env part s documented path field o) (hname : ¬ NamesPackage field.1)
    (hdocumented : UnqualifiedFields documented) : o.Exact env ∧ EndsWord o.text := by
  cases h with
  | unnamed =>
    refine ⟨.written fun p ↦ Package.not_usedIn_of_not_mem (by simp), fun c hc ↦ ?_⟩
    cases hc
  | required _ _ hcomment ho =>
    exact exact_fieldLine (hpart _ _ _ ho)
      (hcomment.not_usedIn (lettered_ofSnakeCase _) hdocumented) hname (by decide)
  | @optional name _ _ o key _ _ hcomment ho hkey =>
    -- The line is written around the type of an optional value.
    have hline : (o.mapText fun type ↦ "\t" ++ ofSnakeCase name ++ " " ++
          TypeExpression.optional type ++ " `json:\"" ++ name ++ ",omitempty\"`\n") ++ .need key =
        ((o.mapText TypeExpression.optional) ++ .need key).mapText fun type ↦
          "\t" ++ ofSnakeCase name ++ " " ++ type ++ " `json:\"" ++ name ++ ",omitempty\"`\n" := by
      refine Output.ext ?_ rfl rfl rfl
      simp only [Output.text_append, Output.mapText, Output.need, String.append_empty]
    rw [hline]
    exact exact_fieldLine (.optional hdistinct hkey (hpart _ _ _ ho))
      (hcomment.not_usedIn (lettered_ofSnakeCase _) hdocumented) hname (by decide)

include hdistinct in
theorem WritesObject.exact (h : WritesObject env documents part s path o) (hs : s.Unqualified)
    (hdocuments : ∀ documented, documents documented → UnqualifiedFields documented) :
    o.Exact env := by
  obtain ⟨documented, fields, hdocumented, hfields, rfl⟩ := h
  refine exact_braces (forall_mem_of_forall₂ hfields fun property hproperty _ hfield ↦ ?_)
  have hname := hs.names property ((sortedProperties_perm s).mem_iff.mp hproperty)
  exact hfield.exact hdistinct hpart hname (hdocuments documented hdocumented)

/-- An embedded field uses and asks for what its type does. -/
theorem WritesMember.exact {member : Schema × Nat} (h : WritesMember part path member o) :
    o.Exact env ∧ EndsWord o.text := by
  obtain ⟨inner, hinner, rfl⟩ := h
  refine ⟨(hpart _ _ _ hinner).mapText fun p ↦ ?_, endsWord_of_isOpening (by decide) _⟩
  rw [Package.usedIn_closing_iff (by decide), Package.usedIn_opening_iff (by decide)]

/-! ### Unions -/

theorem WritesVariant.exact {variant : String × Schema} (h : WritesVariant part path variant o)
    (hname : Lettered variant.1) : o.Exact env ∧ o.text = "" := by
  cases h with
  | elsewhere =>
    exact ⟨.written fun p ↦ Package.not_usedIn_of_not_mem (by simp), rfl⟩
  | @inline name _ o _ ho =>
    have hends : ∀ text, EndsWord (text ++ "\n\n") := endsWord_of_isOpening (by decide)
    refine ⟨.declaration (f := fun text ↦ "type " ++ name ++ " " ++ text ++ "\n\n")
      (hpart _ _ _ ho) (fun p ↦ ?_) (hends _), rfl⟩
    simp (disch := decide) only [Package.usedIn_closing_iff, Package.usedIn_between_iff,
      Package.usedIn_opening_iff, Package.not_usedIn_of_lettered hname, false_or]

omit hpart in
/-- The block of a union uses no package. -/
theorem not_usedIn_unionBlock {union : String} {variants : List String} (hunion : Lettered union)
    (hvariants : ∀ name ∈ variants, Lettered name) (p : Package) :
    ¬ p.UsedIn (unionBlock union variants) := by
  have hdot : ∀ name, Lettered name → '.' ∉ name.toList := by
    intro name hname hmem
    cases hname '.' hmem
  refine Package.not_usedIn_of_not_mem ?_
  simpa [unionBlock, hdot union hunion] using fun v hv ↦ hdot v (hvariants v hv)

/-- The block of a union uses no package, and its parts are declared. -/
theorem WritesUnion.exact {union : String} {branches : List Schema} (hunion : Lettered union)
    (h : WritesUnion env part union branches path o) : o.Exact env ∧ EndsWord o.text := by
  cases h with
  | @intro names variants hnames hvariants =>
    have hlettered := lettered_variantNames hunion hnames
    have hexact : ∀ variant ∈ variants, variant.Exact env ∧ variant.text = "" :=
      forall_mem_of_forall₂ hvariants fun p hp _ hvariant ↦
        hvariant.exact hpart (hlettered p.1 (List.of_mem_zip hp).1)
    have hblock : ∀ p : Package,
        ¬ p.UsedIn (TypeExpression.trimFeeds (unionBlock union names) ++ "\n\n") := by
      intro p
      rw [Package.usedIn_closing_iff (by decide), Package.usedIn_trimFeeds_iff]
      exact not_usedIn_unionBlock hunion hlettered p
    have hends : EndsWord (TypeExpression.trimFeeds (unionBlock union names) ++ "\n\n") :=
      endsWord_of_isOpening (by decide) _
    have htexts : (Output.join variants).text = "" :=
      Output.text_join_eq_empty fun v hv ↦ (hexact v hv).2
    refine ⟨.append (.written hblock) (.join fun v hv ↦ ⟨(hexact v hv).1, ?_⟩) (.inl hends), ?_⟩
    · rw [(hexact v hv).2]
      exact fun c hc ↦ by cases hc
    · rwa [Output.text_append, htexts, String.append_empty]

/-! ### Nodes -/

omit hpart in
theorem exact_placeholder {remark : String} (h : ∀ p : Package, ¬ p.UsedIn remark) :
    Output.Exact env (.written (placeholder remark)) :=
  .written fun p ↦ usedIn_placeholder_iff.not.mpr (h p)

omit hpart in
/-- A package is used in the remark on types that are not known only if one of them names it. -/
theorem not_usedIn_remark {types : List String} {remark : String}
    (htypes : ∀ type ∈ types, ¬ NamesPackage type)
    (h : remark = "unknown" ∨ remark = " ".intercalate types) (p : Package) :
    ¬ p.UsedIn remark := by
  rcases h with rfl | rfl
  · exact Package.not_usedIn_of_not_mem (by decide)
  · rw [Package.usedIn_intercalate_iff]
    rintro ⟨type, htype, hused⟩
    exact Package.not_usedIn_of_not_namesPackage (htypes type htype) hused

omit hpart in
theorem not_usedIn_numberType {format : Json} {type : String}
    (h : TypeExpression.numberType format = .ok type) (p : Package) : ¬ p.UsedIn type := by
  unfold TypeExpression.numberType at h
  split at h <;> cases h <;> exact Package.not_usedIn_of_not_mem (by decide)

variable (hs : s.Unqualified) (hsnowflakes : env.snowflakes.Lettered)
  (hbranches : ∀ branch ∈ s.oneOf, ∀ node, env.document.deref branch = .ok node →
    node.Unqualified)
  (hdocuments : ∀ documented, documents documented → UnqualifiedFields documented)

include hdistinct hs hsnowflakes hbranches hdocuments

theorem WritesKind.exact (h : WritesKind env documents part s path o) : o.Exact env := by
  have hplain : ∀ {text : String}, '.' ∉ text.toList → Output.Exact env (.written text) :=
    fun hdot ↦ .written fun _ ↦ Package.not_usedIn_of_not_mem hdot
  have hexported := Path.lettered_exportedName path
  cases h with
  | object _ hobject => exact hobject.exact hdistinct hpart hs hdocuments
  | list _ _ ho =>
    exact .append (hplain (by decide)) (hpart _ _ _ ho) (.inl (by simp [Output.written]; decide))
  | withoutItems => exact .of_issue
  | composition _ _ hmembers =>
    exact exact_braces (forall_mem_of_forall₂ hmembers fun _ _ _ hmember ↦ hmember.exact hpart)
  | snowflake => exact .written fun p ↦ Package.not_usedIn_of_lettered (hsnowflakes.guess path)
  | time =>
    refine .need hdistinct (p := .time) rfl (by decide) fun q hq ↦ ?_
    cases q with
    | time => rfl
    | option => revert hq; decide
  | text => exact hplain (by decide)
  | textConstants _ _ hconstants =>
    exact hconstants.exact hbranches fun p ↦ Package.not_usedIn_of_not_mem (by decide)
  | integer hkind hbase => exact .written fun p ↦ hbase.not_usedIn_display hs hkind p
  | integerConstants _ hkind hbase hconstants =>
    exact hconstants.exact hbranches fun p ↦ hbase.not_usedIn_display hs hkind p
  | number _ htype => exact .written (not_usedIn_numberType htype)
  | boolean => exact hplain (by decide)
  | null _ hkey =>
    refine .need hdistinct (p := .option) hkey (by decide) fun q hq ↦ ?_
    cases q with
    | time => revert hq; decide
    | option => rfl
  | beside _ _ _ ho =>
    refine (hpart _ _ _ ho).mapText fun p ↦ ?_
    split
    · exact Package.usedIn_removeBeginning_iff
    · rw [Package.usedIn_opening_iff (by decide), Package.usedIn_removeBeginning_iff]
  | union _ _ hunion =>
    obtain ⟨ho, hends⟩ := hunion.exact hpart hexported
    rw [← Output.append_assoc]
    exact .append_name (ho.declaration (f := id) (fun _ ↦ Iff.rfl) hends) rfl hexported
  | negation => exact .of_issue
  | unknown _ hremark => exact exact_placeholder (not_usedIn_remark hs.types hremark)

theorem WritesNode.exact (h : WritesNode env documents part s path o) : o.Exact env := by
  have hkind : ∀ {o}, WritesKind env documents part s path o → o.Exact env :=
    fun h ↦ h.exact hdistinct hpart hs hsnowflakes hbranches hdocuments
  cases h with
  | invalid => exact .of_issue
  | pointer _ _ h =>
    refine .append (.written fun p ↦ Package.not_usedIn_of_not_mem (by decide)) (hkind h) (.inl ?_)
    simp [Output.written, isBreak, isWordLetter]
  | plain _ _ h => exact hkind h

end

end Schema

/-! ## Declarations -/

section

variable {env : Environment} {documents : List (String × FieldInfo) → Prop}
  (hdistinct : env.options.optionImportPath.asKey ≠ .ok (.text "time"))
  (hsnowflakes : env.snowflakes.Lettered)
  (hdocuments : ∀ documented, documents documented → Schema.UnqualifiedFields documented)

include hdistinct hsnowflakes hdocuments

/-- What is written for a node asks for the packages that it uses if what is written for the schemas
right below it does. -/
theorem Environment.inherits_exact :
    env.Inherits documents Schema.Unqualified (Output.Exact env) where
  node hs hbranches hpart h := h.exact hdistinct hpart hs hsnowflakes hbranches hdocuments
  name _ := .written fun _ ↦ Package.not_usedIn_of_lettered (lettered_ofMixedCase _)
  reference hs href := Schema.exact_placeholder fun _ ↦
    Package.not_usedIn_of_not_namesPackage (hs.ref _ href)
  flawed _ := .of_issue

/-- **A declaration without issues asks for the packages that it uses, and for no others**, together
with what is declared beside it. -/
theorem Schema.ensures_emitNamed_exact {keeps : Correlator.Memory → Prop}
    (hdocs : env.Documents keeps documents)
    (hentries : ∀ e ∈ env.document.entries, e.2.Throughout Unqualified) {s : Schema}
    (hs : s.Throughout Unqualified) (name : String) :
    Emit.Ensures keeps (emitNamed env name s) fun _ o ↦ o.Exact env ∧ EndsWord o.text := by
  refine ((env.inherits_exact hdistinct hsnowflakes hdocuments).ensures_emitNamed hdocs hentries hs
    name).mono ?_
  have hname := lettered_ofMixedCase name
  rintro _ _ (⟨branches, part, hpart, hunion⟩ | ⟨inner, hinner, rfl⟩)
  · exact hunion.exact hpart hname
  · refine ⟨hinner.mapText fun p ↦ ?_, endsWord_of_isOpening (by decide) _⟩
    simp (disch := decide) only [Package.usedIn_closing_iff, Package.usedIn_between_iff,
      Package.usedIn_opening_iff, Package.not_usedIn_of_lettered hname, false_or]

end

end SchemaTypes
