import Mathlib
import SchemaTypes.Proofs.Emission.Outputs
import SchemaTypes.Proofs.Identifier.PathNames
import SchemaTypes.Proofs.Json.Canonical
import SchemaTypes.Proofs.Schema.Catalogue
import SchemaTypes.Proofs.Schema.Rereading
import SchemaTypes.Proofs.Snowflake.Guesses

/-!
# Pointers

A star in front of a type says that null is allowed beside it. It is written at two places: for a
node that is declared nullable, and for the branch beside null, whose own star is taken off before.
So there is never more than one star, and there is one exactly for the nodes that allow null beside
something else (`Schema.IsPointer`, `Schema.emitAt_pointer`). An optional field takes the star off
its type, and then none is left.
-/

namespace SchemaTypes

open Declaration Identifier

/-! ## Stars in front of texts -/

/-- A text does not begin with a star. -/
def Bare (text : String) : Prop := text.toList.head? ≠ some '*'

theorem beginsWith_star_iff {text : String} :
    Text.beginsWith text "*" = true ↔ text.toList.head? = some '*' := by
  have hstar : "*".toList = ['*'] := rfl
  rw [Text.beginsWith, hstar]
  cases text.toList with
  | nil => simp
  | cons c rest =>
    simp only [List.isPrefixOf, Bool.and_true, beq_iff_eq, List.head?_cons, Option.some.injEq]
    exact eq_comm

theorem bare_iff {text : String} : Bare text ↔ Text.beginsWith text "*" = false := by
  rw [Bare, ne_eq, ← beginsWith_star_iff, Bool.not_eq_true]

theorem head?_star_append (type : String) : ("*" ++ type).toList.head? = some '*' := by
  rw [String.toList_append]
  rfl

theorem removeBeginning_star_append (type : String) :
    Text.removeBeginning ("*" ++ type) "*" = type := by
  rw [← String.toList_inj, Text.removeBeginning, Text.toList_onChars, String.toList_append,
    Text.dropBeginning_append]

/-- A second star stands in front of what is behind the first one. -/
theorem beginsWith_stars_iff {type : String} :
    Text.beginsWith ("*" ++ type) "**" = true ↔ Text.beginsWith type "*" = true := by
  have hstars : "**".toList = '*' :: "*".toList := rfl
  have hlist : ("*" ++ type).toList = '*' :: type.toList := by
    rw [String.toList_append]
    rfl
  rw [Text.beginsWith, Text.beginsWith, hstars, hlist, List.isPrefixOf]
  simp only [beq_self_eq_true, Bool.true_and]

namespace Bare

variable {s t type : String}

theorem append (hs : Bare s) (ht : Bare t) : Bare (s ++ t) := by
  unfold Bare at *
  rw [String.toList_append]
  cases hlist : s.toList with
  | nil => exact ht
  | cons c rest => rwa [hlist] at hs

/-- What stands behind a character does not matter. -/
theorem append_of_ne (hs : Bare s) (hne : s.toList ≠ []) (t : String) : Bare (s ++ t) := by
  unfold Bare at *
  rw [String.toList_append]
  cases hlist : s.toList with
  | nil => exact absurd hlist hne
  | cons c rest => rwa [hlist] at hs

theorem of_not_mem (h : '*' ∉ s.toList) : Bare s := fun hhead ↦ h (List.mem_of_head? hhead)

theorem of_lettered (h : Lettered s) : Bare s := by
  refine of_not_mem fun hmem ↦ ?_
  cases h '*' hmem

theorem placeholder (remark : String) : Bare (placeholder remark) := by
  have hopening : Bare "struct\x7b /* " := by simp [Bare]
  rw [Declaration.placeholder, String.append_assoc]
  exact hopening.append_of_ne (by simp) _

theorem removeBeginning_eq (h : Bare type) : Text.removeBeginning type "*" = type := by
  rw [bare_iff, Text.beginsWith] at h
  rw [← String.toList_inj, Text.removeBeginning, Text.toList_onChars, Text.dropBeginning, h]
  rfl

end Bare

/-- A number begins with a digit, a sign or a word. -/
theorem bare_text (x : Number.Binary64) : Bare (x.text "inf" "nan") := by
  have hunsigned : Bare (String.ofList
      (if x.isFinite then Number.magnitudeText x.magnitude else "inf".toList)) := by
    split
    · next hfinite =>
      have hlt : x.magnitude < Number.Binary64.infinityBits := by
        simpa [Number.Binary64.isFinite] using hfinite
      obtain ⟨v, hv⟩ := Number.exists_numeral hlt
      obtain ⟨c, more, hc, hdigit⟩ := hv.exists_eq_cons
      rw [Bare, String.toList_ofList, hc]
      rintro ⟨⟩
      cases hdigit
    · simp [Bare]
  unfold Number.Binary64.text
  dsimp only
  generalize (if x.isFinite then Number.magnitudeText x.magnitude else "inf".toList) = unsigned
    at hunsigned ⊢
  split
  · simp [Bare]
  split
  · simp [Bare]
  · exact hunsigned

/-- A value that is shown begins with a star only if it is a text that does. -/
theorem bare_display {value : Json} (h : ∀ text, value = .text text → Bare text) :
    Bare value.display := by
  cases value with
  | text text => exact h text rfl
  | null => simp [Bare, Json.display, Json.literal]
  | bool b => cases b <;> simp [Bare, Json.display, Json.literal]
  | int n =>
    refine .of_not_mem fun hmem ↦ ?_
    rcases Json.isDigit_of_mem_toString hmem with hdigit | hsign
    · cases hdigit
    · cases hsign
  | real x => exact bare_text x
  | list items =>
    have hopening : Bare "[" := by simp [Bare]
    rw [Json.display, Json.literal, String.append_assoc]
    · exact hopening.append_of_ne (by simp) _
    · rintro _ ⟨⟩
  | object members =>
    have hopening : Bare "\x7b" := by simp [Bare]
    rw [Json.display, Json.literal, String.append_assoc]
    · exact hopening.append_of_ne (by simp) _
    · rintro _ ⟨⟩

/-- A type is written with a star in front exactly if null is allowed beside it. -/
inductive PointerType (pointer : Prop) : String → Prop
  | pointer {type : String} : pointer → Bare type → PointerType pointer ("*" ++ type)
  | plain {type : String} : ¬ pointer → Bare type → PointerType pointer type

namespace PointerType

variable {pointer : Prop} {text : String} (h : PointerType pointer text)

include h

theorem beginsWith_star_iff : Text.beginsWith text "*" = true ↔ pointer := by
  cases h with
  | @pointer type hpointer htype =>
    exact iff_of_true (SchemaTypes.beginsWith_star_iff.mpr (head?_star_append type)) hpointer
  | plain hplain htype =>
    rw [bare_iff.mp htype]
    exact iff_of_false Bool.false_ne_true hplain

theorem beginsWith_stars_eq_false : Text.beginsWith text "**" = false := by
  rw [← Bool.not_eq_true]
  cases h with
  | pointer hpointer htype =>
    rw [beginsWith_stars_iff, bare_iff.mp htype]
    exact Bool.false_ne_true
  | plain hplain htype =>
    intro hstars
    have hprefix : '*' :: ['*'] <+: text.toList := List.isPrefixOf_iff_prefix.mp hstars
    obtain ⟨rest, hrest⟩ := hprefix
    exact htype (by rw [← hrest]; rfl)

theorem bare_removeBeginning : Bare (Text.removeBeginning text "*") := by
  cases h with
  | pointer hpointer htype => rwa [removeBeginning_star_append]
  | plain hplain htype => rwa [htype.removeBeginning_eq]

end PointerType

/-! ## Nodes that are pointers -/

namespace Schema

open TypeExpression

/-- Null is allowed beside something else that a node says. -/
inductive IsPointer (env : Environment) (s : Schema) : Prop
  /-- Null is declared beside another type. -/
  | declared {type : String} : type ≠ "null" → s.types = ["null", type] ∨ s.types = [type, "null"] →
      IsPointer env s
  | flagged : s.keywords.nullable = true → IsPointer env s
  /-- One of two branches allows nothing but null. -/
  | beside {a b : Schema} : s.types = [] → s.allOf = [] → s.alternatives = [a, b] →
      (env.isNull a = .ok true ∧ env.isNull b = .ok false) ∨
        (env.isNull a = .ok false ∧ env.isNull b = .ok true) →
      IsPointer env s

/-- What a node may say so that stars in its text are pointers. -/
structure Starless (s : Schema) : Prop where
  types : "" ∉ s.types
  nullable : s.keywords.nullable = true → s.types = []
  format : s.kind? = some .integer → ∀ format, s.keywords.format = .text format → Bare format

variable {env : Environment} {s : Schema}

/-- There is a branch beside null exactly if one of two branches is null. -/
theorem exists_branchBesideNull_iff {branches : List Schema} :
    (∃ index, env.branchBesideNull branches = .ok (some index)) ↔
      ∃ a b, branches = [a, b] ∧ ((env.isNull a = .ok true ∧ env.isNull b = .ok false) ∨
        (env.isNull a = .ok false ∧ env.isNull b = .ok true)) := by
  constructor
  · rintro ⟨index, hindex⟩
    unfold Environment.branchBesideNull at hindex
    split at hindex
    · next hlength =>
      obtain ⟨a, b, rfl⟩ := List.length_eq_two.mp hlength
      refine ⟨a, b, rfl, ?_⟩
      cases ha : env.isNull a with
      | error e => simp [Environment.nullBranches, ha, bind, Except.bind] at hindex
      | ok x =>
        cases hb : env.isNull b with
        | error e => simp [Environment.nullBranches, ha, hb, bind, Except.bind] at hindex
        | ok y =>
          cases x <;> cases y <;>
            simp [Environment.nullBranches, ha, hb, bind, Except.bind, pure, Except.pure]
              at hindex ⊢
    · cases hindex
  · rintro ⟨a, b, rfl, ⟨ha, hb⟩ | ⟨ha, hb⟩⟩
    · exact ⟨1, by simp [Environment.branchBesideNull, Environment.nullBranches, ha, hb, bind,
        Except.bind, pure, Except.pure]⟩
    · exact ⟨0, by simp [Environment.branchBesideNull, Environment.nullBranches, ha, hb, bind,
        Except.bind, pure, Except.pure]⟩

/-- A node is written as what is beside null among its branches. -/
def BesideNull (env : Environment) (s : Schema) : Prop :=
  s.IsChoice ∧ ∃ index, env.branchBesideNull s.alternatives = .ok (some index)

/-- The forms in which a primary type can be declared. -/
theorem of_ofTypes_eq_ok {types : List String} {type : PrimaryType}
    (h : PrimaryType.ofTypes types = .ok type) :
    (types = [] ∧ type = ⟨"", false⟩) ∨ (∃ name, types = [name] ∧ type = ⟨name, false⟩) ∨
      (∃ name, types = ["null", name] ∧ type = ⟨name, name != "null"⟩) ∨
      ∃ name, name ≠ "null" ∧ types = [name, "null"] ∧ type = ⟨name, true⟩ := by
  unfold PrimaryType.ofTypes at h
  split at h
  · cases h
    exact .inl ⟨rfl, rfl⟩
  · cases h
    exact .inr (.inl ⟨_, rfl, rfl⟩)
  · next first second =>
    split at h
    · next hfirst =>
      cases h
      exact .inr (.inr (.inl ⟨second, by rw [hfirst], rfl⟩))
    · next hfirst =>
      split at h
      · next hsecond =>
        cases h
        exact .inr (.inr (.inr ⟨first, hfirst, by rw [hsecond], rfl⟩))
      · cases h
  · cases h

theorem kind?_eq_untyped_iff (hstarless : "" ∉ s.types) :
    s.kind? = some .untyped ↔ s.types = [] := by
  constructor
  · intro hkind
    unfold kind? at hkind
    split at hkind
    · next type htype =>
      have hname : type.name = "" := by
        unfold PrimaryType.kind PrimitiveKind.ofName? at hkind
        split at hkind
        · assumption
        all_goals cases hkind
      -- A primary type without a name is declared by no type or by an empty one.
      obtain ⟨htypes, -⟩ | ⟨name, htypes, rfl⟩ | ⟨name, htypes, rfl⟩ | ⟨name, -, htypes, rfl⟩ :=
        of_ofTypes_eq_ok htype
      · exact htypes
      all_goals
        obtain rfl : name = "" := hname
        simp [htypes] at hstarless
    · cases hkind
  · intro htypes
    rw [kind?, htypes]
    rfl

/-- Null is declared beside another type exactly if the primary type says so. -/
theorem nullable_iff {type : PrimaryType} (htype : PrimaryType.ofTypes s.types = .ok type) :
    type.nullable = true ↔
      ∃ name, name ≠ "null" ∧ (s.types = ["null", name] ∨ s.types = [name, "null"]) := by
  obtain ⟨htypes, rfl⟩ | ⟨name, htypes, rfl⟩ | ⟨name, htypes, rfl⟩ | ⟨name, hne, htypes, rfl⟩ :=
    of_ofTypes_eq_ok htype
  · simp [htypes]
  · simp [htypes]
  · simp only [htypes, List.cons.injEq, and_true, bne_iff_ne, ne_eq]
    constructor
    · exact fun hne ↦ ⟨name, hne, .inl ⟨trivial, rfl⟩⟩
    · rintro ⟨other, hne, ⟨-, rfl⟩ | ⟨rfl, -⟩⟩
      · exact hne
      · exact absurd rfl hne
  · exact iff_of_true rfl ⟨name, hne, .inr htypes⟩

/-- Without a primary type null is not declared beside one other type. -/
theorem exists_ofTypes_eq_ok {name : String}
    (htypes : s.types = ["null", name] ∨ s.types = [name, "null"]) :
    ∃ type, PrimaryType.ofTypes s.types = .ok type := by
  rcases htypes with htypes | htypes
  · exact ⟨⟨name, name != "null"⟩, by rw [htypes]; rfl⟩
  · rw [htypes, PrimaryType.ofTypes]
    split
    · exact ⟨_, rfl⟩
    · exact ⟨⟨name, true⟩, rfl⟩

/-- Apart from its types and its flag a node is a pointer for a branch beside null. -/
theorem isPointer_iff (hstarless : "" ∉ s.types) :
    IsPointer env s ↔
      (∃ type, type ≠ "null" ∧ (s.types = ["null", type] ∨ s.types = [type, "null"])) ∨
        s.keywords.nullable = true ∨ BesideNull env s := by
  constructor
  · rintro (⟨hne, htypes⟩ | hflag | ⟨htypes, hallOf, halternatives, hnull⟩)
    · exact .inl ⟨_, hne, htypes⟩
    · exact .inr (.inl hflag)
    · refine .inr (.inr ⟨⟨(kind?_eq_untyped_iff hstarless).mpr htypes, hallOf, ?_⟩, ?_⟩)
      · rw [halternatives]
        exact List.cons_ne_nil _ _
      · exact exists_branchBesideNull_iff.mpr ⟨_, _, halternatives, hnull⟩
  · rintro (⟨type, hne, htypes⟩ | hflag | ⟨hchoice, hbeside⟩)
    · exact .declared hne htypes
    · exact .flagged hflag
    · obtain ⟨a, b, halternatives, hnull⟩ := exists_branchBesideNull_iff.mp hbeside
      exact .beside ((kind?_eq_untyped_iff hstarless).mp hchoice.kind) hchoice.allOf halternatives
        hnull

/-! ## What is written for a node -/

/-- The base of an integer begins with a star only if its format does. -/
theorem IntegerBase.bare_display {base : Json} (h : IntegerBase env s base) (hs : s.Starless)
    (hkind : s.kind? = some .integer) : Bare base.display := by
  cases h with
  | name => exact .of_lettered (lettered_ofMixedCase _)
  | plain => simp [Bare, Json.display]
  | format => exact SchemaTypes.bare_display (hs.format hkind)

theorem WritesConstants.bare {path : Path} {base : String} {o : Output}
    (h : WritesConstants env s path base o) (hbase : Bare base) : Bare o.text := by
  cases h with
  | root =>
    have hfeeds : Bare "\n\n" := by simp [Bare]
    rw [Output.text_flawed_append]
    exact (hbase.append hfeeds).append (by simp [Bare, constantBlock])
  | hoisted =>
    rw [Output.text_flawed_append, Output.text_declaration_append]
    exact .of_lettered (lettered_declaredName path)

theorem bare_numberType {format : Json} {type : String} (h : numberType format = .ok type) :
    Bare type := by
  unfold numberType at h
  split at h <;> cases h <;> simp [Bare]

variable {documents : List (String × FieldInfo) → Prop} {part : Schema → Path → Output → Prop}
  {path : Path} {o : Output}

/-- By its kind a node gets a star only for a branch beside null, and none if it has one already. -/
theorem WritesKind.bare (h : WritesKind env documents part s path o) (hs : s.Starless)
    (hsnowflakes : env.snowflakes.Lettered)
    (hpart : ∀ t p o, part t p o → Bare (Text.removeBeginning o.text "*")) :
    (BesideNull env s ∧ s.keywords.nullable = false ∧ ∃ type, Bare type ∧ o.text = "*" ++ type) ∨
      (BesideNull env s → s.keywords.nullable = true) ∧ Bare o.text := by
  have hstruct : ∀ rest, Bare ("struct \x7b\n" ++ rest) :=
    Bare.append_of_ne (by simp [Bare]) (by simp)
  have hkind : ∀ {kind}, s.kind? = some kind → kind ≠ .untyped → BesideNull env s →
      s.keywords.nullable = true :=
    fun hkind hne hbeside ↦ absurd (Option.some.inj (hkind.symm.trans hbeside.1.kind)) hne
  have hnone : s.alternatives = [] → BesideNull env s → s.keywords.nullable = true :=
    fun halternatives hbeside ↦ absurd halternatives hbeside.1.alternatives
  cases h with
  | object hobject hfields =>
    obtain ⟨documented, fields, -, -, rfl⟩ := hfields
    refine .inr ⟨?_, hstruct _⟩
    cases hobject with
    | declared hobject => exact hkind hobject (by decide)
    | untyped _ _ halternatives => exact hnone halternatives
  | list harray =>
    exact .inr ⟨hkind harray (by decide), Bare.append_of_ne (by simp [Bare, Output.written])
      (by simp [Output.written]) _⟩
  | withoutItems harray =>
    rw [Output.text_flawed_append]
    exact .inr ⟨hkind harray (by decide), .placeholder _⟩
  | composition _ hallOf =>
    exact .inr ⟨fun hbeside ↦ absurd hbeside.1.allOf hallOf, hstruct _⟩
  | snowflake hstring =>
    exact .inr ⟨hkind hstring (by decide), .of_lettered (hsnowflakes.guess path)⟩
  | time hstring =>
    rw [Output.text_need_append]
    exact .inr ⟨hkind hstring (by decide), by simp [Bare, Output.written]⟩
  | text hstring => exact .inr ⟨hkind hstring (by decide), by simp [Bare, Output.written]⟩
  | textConstants _ hstring hconstants =>
    exact .inr ⟨hkind hstring (by decide), hconstants.bare (by simp [Bare])⟩
  | integer hinteger hbase =>
    exact .inr ⟨hkind hinteger (by decide), hbase.bare_display hs hinteger⟩
  | integerConstants _ hinteger hbase hconstants =>
    exact .inr ⟨hkind hinteger (by decide), hconstants.bare (hbase.bare_display hs hinteger)⟩
  | number hnumber htype => exact .inr ⟨hkind hnumber (by decide), bare_numberType htype⟩
  | boolean hboolean => exact .inr ⟨hkind hboolean (by decide), by simp [Bare, Output.written]⟩
  | null hnull =>
    rw [Output.text_need_append]
    exact .inr ⟨hkind hnull (by decide), by simp [Bare, Output.written]⟩
  | beside hchoice hbeside _ ho =>
    cases hflag : s.keywords.nullable with
    | true => exact .inr ⟨fun _ ↦ rfl, by simpa [Output.mapText, hflag] using hpart _ _ _ ho⟩
    | false =>
      refine .inl ⟨⟨hchoice, _, hbeside⟩, rfl, _, hpart _ _ _ ho, ?_⟩
      simp [Output.mapText]
  | union _ hbeside =>
    refine .inr ⟨fun hbesideNull ↦ ?_, ?_⟩
    · obtain ⟨index, hindex⟩ := hbesideNull.2
      rw [hbeside] at hindex
      cases hindex
    · rw [Output.text_append, Output.text_declaration_append, Output.mapText, String.empty_append]
      exact .of_lettered (Path.lettered_exportedName path)
  | negation _ halternatives =>
    rw [Output.text_flawed_append]
    exact .inr ⟨hnone halternatives, .placeholder _⟩
  | unknown halternatives =>
    exact .inr ⟨fun hbeside ↦ absurd (halternatives hbeside.1.kind) hbeside.1.alternatives,
      .placeholder _⟩

/-- A node is written with a star in front exactly if it is a pointer. -/
theorem WritesNode.pointerType (h : WritesNode env documents part s path o) (hs : s.Starless)
    (hsnowflakes : env.snowflakes.Lettered)
    (hpart : ∀ t p o, part t p o → Bare (Text.removeBeginning o.text "*")) :
    PointerType (IsPointer env s) o.text := by
  rw [isPointer_iff hs.types]
  cases h with
  | invalid htypes =>
    rw [Output.text_flawed_append]
    refine .plain ?_ (.placeholder _)
    rintro (⟨name, -, hdeclared⟩ | hflag | hbeside)
    · obtain ⟨type, htype⟩ := exists_ofTypes_eq_ok hdeclared
      rw [htypes] at htype
      cases htype
    · rw [hs.nullable hflag] at htypes
      cases htypes
    · rw [(kind?_eq_untyped_iff hs.types).mp hbeside.1.kind] at htypes
      cases htypes
  | pointer htype hpointer hkind =>
    rcases hkind.bare hs hsnowflakes hpart with ⟨hbeside, hflag, -⟩ | ⟨-, hbare⟩
    · -- Beside null no type is declared, so the star could only come of the flag.
      rw [(kind?_eq_untyped_iff hs.types).mp hbeside.1.kind] at htype
      cases htype
      rw [hflag] at hpointer
      cases hpointer
    · refine .pointer ?_ hbare
      rw [← nullable_iff htype]
      exact ((Bool.or_eq_true _ _).mp hpointer).imp_right .inl
  | plain htype hplain hkind =>
    obtain ⟨hnullable, hflag⟩ := Bool.or_eq_false_iff.mp hplain
    rcases hkind.bare hs hsnowflakes hpart with ⟨hbeside, -, type, hbare, htext⟩ | ⟨hbeside, hbare⟩
    · rw [htext]
      exact .pointer (.inr (.inr hbeside)) hbare
    · refine .plain ?_ hbare
      rw [← nullable_iff htype, hnullable, hflag]
      rintro (hnullable | hflag' | hnull)
      · cases hnullable
      · cases hflag'
      · rw [hbeside hnull] at hflag
        cases hflag

/-- A reference is written without a star. -/
theorem WritesPart.pointerType {node : Output → Prop} (h : WritesPart env node s o)
    (hnode : node o → PointerType (IsPointer env s) o.text) :
    PointerType (s.ref = none ∧ IsPointer env s) o.text := by
  cases h with
  | node href ho =>
    rw [and_iff_right href]
    exact hnode ho
  | name href =>
    refine .plain (fun hnone ↦ ?_) (.of_lettered (lettered_ofMixedCase _))
    rw [href] at hnone
    cases hnone.1
  | response href =>
    refine .plain (fun hnone ↦ ?_) (.placeholder _)
    rw [href] at hnone
    cases hnone.1
  | unknown href =>
    rw [Output.text_flawed_append]
    refine .plain (fun hnone ↦ ?_) (.placeholder _)
    rw [href] at hnone
    cases hnone.1

/-- The line of a property, with its type. That of an optional value has no star inside. -/
inductive IsFieldLine (s : Schema) : String × Schema → String → Prop
  | unnamed {name : String} {t : Schema} : (Identifier.ofSnakeCase name).isEmpty = true →
      IsFieldLine s (name, t) ""
  | required {name comment type : String} {t : Schema} : s.requires name = true →
      (comment = "" ∨ ∃ sentence, comment = Comment.partComment sentence) →
      Text.beginsWith type "**" = false →
      IsFieldLine s (name, t) (comment ++ ("\t" ++ Identifier.ofSnakeCase name ++ " " ++ type ++
        " `json:\"" ++ name ++ "\"`\n"))
  | optional {name comment type : String} {t : Schema} : s.requires name = false →
      (comment = "" ∨ ∃ sentence, comment = Comment.partComment sentence) →
      Text.beginsWith type "*" = false →
      IsFieldLine s (name, t) (comment ++ ("\t" ++ Identifier.ofSnakeCase name ++ " " ++
        ("option.Optional[" ++ type ++ "]") ++ " `json:\"" ++ name ++ ",omitempty\"`\n"))

theorem WritesField.isFieldLine {documented : List (String × FieldInfo)} {p : String × Schema}
    (h : WritesField env part s documented path p o)
    (hpart : ∀ t p o, part t p o → ∃ pointer, PointerType pointer o.text) :
    IsFieldLine s p o.text := by
  cases h with
  | unnamed hempty => exact .unnamed hempty
  | required _ hrequired hcomment ho =>
    obtain ⟨_, htype⟩ := hpart _ _ _ ho
    exact .required hrequired hcomment.eq_partComment htype.beginsWith_stars_eq_false
  | optional _ hoptional hcomment ho =>
    obtain ⟨_, htype⟩ := hpart _ _ _ ho
    rw [Output.text_append, Output.text_append, Output.need, String.append_empty]
    exact .optional hoptional hcomment.eq_partComment (bare_iff.mp htype.bare_removeBeginning)

theorem WritesObject.lines (h : WritesObject env documents part s path o)
    (hpart : ∀ t p o, part t p o → ∃ pointer, PointerType pointer o.text) :
    ∃ lines, o.text = "struct \x7b\n" ++ String.join lines ++ "\x7d" ∧
      List.Forall₂ (IsFieldLine s) s.sortedProperties lines := by
  obtain ⟨documented, fields, -, hfields, rfl⟩ := h
  refine ⟨fields.map Output.text, ?_, ?_⟩
  · rw [Output.text_append, Output.text_append, Output.text_join, String.append_assoc]
    rfl
  · rw [List.forall₂_map_right_iff]
    exact hfields.imp fun _ _ hfield ↦ hfield.isFieldLine hpart

/-! ## What is emitted -/

open Emit

section

variable (hsnowflakes : env.snowflakes.Lettered) (hs : ∀ t, Within t s → t.Starless)

include hsnowflakes hs

theorem ensures_emit_pointerType (path : Path) :
    Ensures (fun _ ↦ True) (emit env s path) fun _ o ↦ PointerType (IsPointer env s) o.text := by
  have hnode : ∀ s path o, WritesNode env (fun _ ↦ True)
      (fun t _ o ↦ t ∈ s.children ∧ WritesPart env
        (fun o ↦ (∀ u, Within u t → u.Starless) → PointerType (IsPointer env t) o.text) t o)
      s path o →
      (∀ t, Within t s → t.Starless) → PointerType (IsPointer env s) o.text := by
    intro s path o h hs
    refine h.pointerType (hs s .self) hsnowflakes ?_
    rintro t _ o ⟨hchild, hpart⟩
    refine (hpart.pointerType ?_).bare_removeBeginning
    exact fun ho ↦ ho fun u hu ↦ hs u (.step hchild hu)
  exact (ensures_emit env.documents_true hnode s path).mono fun _ _ ho ↦ ho hs

theorem ensures_emitPart_pointerType (path : Path) :
    Ensures (fun _ ↦ True) (emitPart env s path) fun _ o ↦
      PointerType (s.ref = none ∧ IsPointer env s) o.text :=
  (ensures_partType (ensures_emit_pointerType hsnowflakes hs path)).mono fun _ _ ho ↦
    ho.pointerType id

/-- The type at the end of a path is a pointer exactly if the schema there is one. -/
theorem ensures_emitAt_pointerType {path : Path} (hroot : path.isRoot = true → s.ref = none) :
    Ensures (fun _ ↦ True) (emitAt env s path) fun text _ ↦
      PointerType (s.ref = none ∧ IsPointer env s) text := by
  have hpath : Ensures (fun _ ↦ True)
      (if path.isRoot then emitRoot env s path else emitPart env s path) fun _ o ↦
        PointerType (s.ref = none ∧ IsPointer env s) o.text := by
    split
    · next hisRoot =>
      have href := hroot hisRoot
      refine .note_bind ?_
      rw [href, and_iff_right rfl]
      exact ensures_emit_pointerType hsnowflakes hs path
    · exact ensures_emitPart_pointerType hsnowflakes hs path
  refine hpath.capture.mono ?_
  rintro _ _ ⟨inner, hinner, rfl, -⟩
  exact hinner

/-- The fields of an object. -/
theorem ensures_objectType_lines (path : Path) :
    Ensures (fun _ ↦ True) (objectType env s (s.parts env) path) fun _ o ↦
      ∃ lines, o.text = "struct \x7b\n" ++ String.join lines ++ "\x7d" ∧
        List.Forall₂ (IsFieldLine s) s.sortedProperties lines := by
  have hparts : EnsuresChildren env (fun _ ↦ True)
      (fun _ _ o ↦ ∃ pointer, PointerType pointer o.text) s := fun t ht p ↦
    (ensures_emitPart_pointerType hsnowflakes (fun u hu ↦ hs u (.step ht hu)) p).mono
      fun _ _ ho ↦ ⟨_, ho⟩
  exact (ensures_objectType hparts env.documents_true).mono fun _ _ ho ↦
    ho.lines fun _ _ _ ho ↦ ho

end

/-- **Pointers are written once and for what allows null.** In a loaded document without empty types
and without stars in front of the formats of integers, what is emitted at a path begins with a star
exactly if the schema there is no reference and allows null beside something else, and never with
two. The type of an optional field does not begin with one. -/
theorem emitAt_pointer {value : Json} {document : Document} {options : Options}
    {tables : List DocTable} (hload : Document.load value = .ok document)
    (henv : Generation.environment document options tables = .ok env)
    (htypes : ∀ e ∈ document.entries, ∀ t, Within t e.2 → "" ∉ t.types)
    (hformats : ∀ e ∈ document.entries, ∀ t, Within t e.2 → t.kind? = some .integer →
      ∀ format, t.keywords.format = .text format → Text.beginsWith format "*" = false)
    {e : Entry × Schema} (he : e ∈ document.entries) (hs : Within s e.2)
    (hroot : path.isRoot = true → s.ref = none) {memory : Correlator.Memory} {text : String}
    (htext : (emitAt env s path memory).result = .ok text) :
    Text.beginsWith text "**" = false ∧
      (Text.beginsWith text "*" = true ↔ s.ref = none ∧ IsPointer env s) ∧
      ∀ path memory, (objectType env s (s.parts env) path memory).result = .ok () →
        ∃ lines, (objectType env s (s.parts env) path memory).text =
            "struct \x7b\n" ++ String.join lines ++ "\x7d" ∧
          List.Forall₂ (IsFieldLine s) s.sortedProperties lines := by
  obtain ⟨_, _, _, _, hread⟩ := Document.exists_read_of_mem_entries hload he
  have hstarless : ∀ t, Within t s → t.Starless := by
    intro t ht
    have hwithin : Within t e.2 := ht.trans hs
    refine ⟨htypes e he t hwithin, ?_, fun hkind format hformat ↦ ?_⟩
    · obtain ⟨ref, line, -, rfl⟩ | ⟨-, hnormal⟩ := normal_read hread t hwithin
      · exact nofun
      · exact hnormal.nullable
    · exact bare_iff.mpr (hformats e he t hwithin hkind format hformat)
  have hsnowflakes := Generation.lettered_snowflakes henv
  obtain ⟨-, htype⟩ :=
    ensures_emitAt_pointerType hsnowflakes hstarless hroot memory text trivial htext
  refine ⟨htype.beginsWith_stars_eq_false, htype.beginsWith_star_iff, fun path memory hended ↦ ?_⟩
  exact (ensures_objectType_lines hsnowflakes hstarless path memory () trivial hended).2

/-- A member whose nick is a text, which may be null, or null, and is optional. -/
def nickDocument : Json :=
  .object [("components", .object [("schemas", .object [("Member", .object
    [("type", .text "object"),
     ("properties", .object [("nick", .object [("oneOf", .list
       [.object [("type", .text "null")],
        .object [("type", .text "string"), ("nullable", .bool true)]])])])])])])]

/-- What the nick of a member is loaded as. -/
def nickNode : Schema :=
  .node (.blank 2) [] none []
    [leaf { Keywords.blank 3 with types := ["null"] },
     leaf { Keywords.blank 4 with types := ["string", "null"] }] [] none

/-- What a member is loaded as. -/
def memberWithNick : Schema :=
  .node { Keywords.blank 1 with types := ["object"] } [("nick", nickNode)] none [] [] [] none

theorem load_nickDocument :
    Document.load nickDocument = .ok ⟨[("Member", memberWithNick)], []⟩ := by
  cbv

/-- The environment of a member with a nick. -/
def nickEnvironment : Environment := Generation.plainEnvironment ⟨[("Member", memberWithNick)], []⟩

theorem emitAt_nick :
    (emitAt nickEnvironment nickNode ((Path.ofRoot "Member").push "nick") []).result =
      .ok "*string" := by
  decide +kernel

theorem emitAt_member :
    (emitAt nickEnvironment memberWithNick (.ofRoot "Member") []).result =
      .ok "struct \x7b\n\tNick option.Optional[string] `json:\"nick,omitempty\"`\n\x7d" := by
  decide +kernel

/-- No node of a member with a nick has an empty type, and none is an integer. -/
theorem within_memberWithNick : ∀ t, Within t memberWithNick →
    "" ∉ t.types ∧ t.kind? ≠ some .integer := by
  have hleaf : ∀ k : Keywords, ("" ∉ (leaf k).types ∧ (leaf k).kind? ≠ some .integer) →
      ∀ t, Within t (leaf k) → "" ∉ t.types ∧ t.kind? ≠ some .integer :=
    fun k hk ↦ forall_within hk fun child hchild ↦ by cases hchild
  refine forall_within (by decide) fun child hchild ↦ ?_
  obtain rfl : child = nickNode := List.mem_singleton.mp hchild
  refine forall_within (by decide) fun branch hbranch ↦ ?_
  rcases List.mem_cons.mp hbranch with rfl | hbranch
  · exact hleaf _ (by decide)
  · obtain rfl := List.mem_singleton.mp hbranch
    exact hleaf _ (by decide)

theorem emitAt_pointer_nick :
    (Text.beginsWith "*string" "**" = false ∧
      (Text.beginsWith "*string" "*" = true ↔
        nickNode.ref = none ∧ IsPointer nickEnvironment nickNode)) ∧
    ∃ lines, (objectType nickEnvironment memberWithNick (memberWithNick.parts nickEnvironment)
        (.ofRoot "Member") []).text = "struct \x7b\n" ++ String.join lines ++ "\x7d" ∧
      List.Forall₂ (IsFieldLine memberWithNick) memberWithNick.sortedProperties lines := by
  have henv : Generation.environment ⟨[("Member", memberWithNick)], []⟩ .initial [] =
      .ok nickEnvironment := Generation.environment_initial _
  have hentries : ∀ e ∈ (Document.mk [("Member", memberWithNick)] []).entries,
      e = (.schema "Member", memberWithNick) := fun e he ↦ List.mem_singleton.mp he
  have hall : ∀ e ∈ (Document.mk [("Member", memberWithNick)] []).entries, ∀ t, Within t e.2 →
      "" ∉ t.types ∧ t.kind? ≠ some .integer := by
    intro e he
    rw [hentries e he]
    exact within_memberWithNick
  have htypes := fun e he t ht ↦ (hall e he t ht).1
  have hformats : ∀ e ∈ (Document.mk [("Member", memberWithNick)] []).entries, ∀ t,
      Within t e.2 → t.kind? = some .integer → ∀ format, t.keywords.format = .text format →
        Text.beginsWith format "*" = false :=
    fun e he t ht hkind ↦ absurd hkind (hall e he t ht).2
  have hmember : (Entry.schema "Member", memberWithNick) ∈
      (Document.mk [("Member", memberWithNick)] []).entries := List.mem_singleton.mpr rfl
  have hnick : Within nickNode memberWithNick := .step (List.mem_singleton.mpr rfl) .self
  obtain ⟨hstars, hstar, -⟩ := emitAt_pointer load_nickDocument henv htypes hformats hmember hnick
    (fun _ ↦ rfl) emitAt_nick
  obtain ⟨-, -, hlines⟩ := emitAt_pointer load_nickDocument henv htypes hformats hmember .self
    (fun _ ↦ rfl) emitAt_member
  exact ⟨⟨hstars, hstar⟩, hlines (.ofRoot "Member") [] (by decide +kernel)⟩

end Schema

end SchemaTypes
