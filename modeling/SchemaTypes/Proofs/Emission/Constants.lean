import SchemaTypes.Generation
import SchemaTypes.Proofs.Emission.Wording
import SchemaTypes.Proofs.Identifier.Likeness

/-!
# Names of constants

A constant of a set goes by the name of the set, less an `s` at its end, with the identifier of what
its branch is named after: the title, or the value where there is no title (`NamedAfter`). Only
branches without a value are reported. So constants clash exactly if two identifiers are the same
(`nodup_constantNames_iff`), and a constant has the name of the set exactly if that does not end in
`s` and nothing is left of what the constant is named after (`constantName_eq_iff`). Neither is
reported.
-/

namespace SchemaTypes.TypeExpression

open Declaration Emit Event Identifier

/-! ## What constants are named after -/

/-- What the constant of a branch is named after, if the branch has a value. -/
inductive NamedAfter (env : Environment) (branch : Schema) : Option String → Prop
  | title {node : Schema} {value : Json} {title : String} :
      env.document.deref branch = .ok node → node.keywords.const = some value →
      node.keywords.title.isVoid = false → node.keywords.title.textOr "lower" = .ok title →
      NamedAfter env branch (some title)
  | value {node : Schema} {value : Json} :
      env.document.deref branch = .ok node → node.keywords.const = some value →
      node.keywords.title.isVoid = true → NamedAfter env branch (some value.display)
  | nothing {node : Schema} :
      env.document.deref branch = .ok node → node.keywords.const = none →
      NamedAfter env branch none

/-- The name of the constant of a set that is named after a text. -/
def constantName (type label : String) : String := Text.removeEnding type "s" ++ ofConstant label

variable {env : Environment} {keeps : Correlator.Memory → Prop} {type : String} {path : Path}

theorem unvalued_eq_nil_iff {α : Type} {xs : List (Option α)} (path : Path) (index : Nat) :
    unvalued path index xs = [] ↔ none ∉ xs := by
  induction xs generalizing index with
  | nil => exact iff_of_true rfl List.not_mem_nil
  | cons x rest ih =>
    rcases x with _ | x
    · exact iff_of_false (List.cons_ne_nil _ _) fun h ↦ h List.mem_cons_self
    · rw [unvalued, ih, List.mem_cons, not_or, and_iff_right (Option.some_ne_none x).symm]

theorem unvalued_map {α β : Type} (f : α → β) (xs : List (Option α)) (path : Path) (index : Nat) :
    unvalued path index (xs.map (Option.map f)) = unvalued path index xs := by
  induction xs generalizing index with
  | nil => rfl
  | cons x rest ih => cases x <;> simp only [List.map_cons, Option.map, unvalued, ih]

/-- A constant goes by the name of what it is named after. -/
theorem exists_namedAfter {branch : Schema} {yield : Option Constant}
    (h : Schema.YieldsConstant env type branch yield) :
    ∃ label, NamedAfter env branch label ∧
      yield.map Constant.name = label.map (constantName type) := by
  cases h with
  | nothing hnode hvalue => exact ⟨none, .nothing hnode hvalue, rfl⟩
  | constant hnode hvalue hconstant =>
    obtain ⟨label, description, hlabel, -, rfl⟩ := of_constant_eq_ok hconstant
    rcases hlabel with ⟨hvoid, rfl⟩ | ⟨htitle, hlower⟩
    · exact ⟨_, .value hnode hvalue hvoid, rfl⟩
    · exact ⟨some label, .title hnode hvalue htitle hlower, rfl⟩

theorem exists_labels {branches : List Schema} {yields : List (Option Constant)}
    (h : List.Forall₂ (Schema.YieldsConstant env type) branches yields) :
    ∃ labels, List.Forall₂ (NamedAfter env) branches labels ∧
      yields.map (Option.map Constant.name) = labels.map (Option.map (constantName type)) := by
  induction h with
  | nil => exact ⟨[], .nil, rfl⟩
  | cons hyield _ ih =>
    obtain ⟨label, hlabel, hname⟩ := exists_namedAfter hyield
    obtain ⟨labels, hlabels, hnames⟩ := ih
    refine ⟨label :: labels, .cons hlabel hlabels, ?_⟩
    rw [List.map_cons, List.map_cons, hname, hnames]

/-- Constants are named after their branches, in order, and branches without a value reported. -/
theorem ensures_constants_named (type : String) (path : Path) (index : Nat)
    (branches : List Schema) :
    Ensures keeps (constants env type path index branches) fun constants o ↦
      ∃ labels, List.Forall₂ (NamedAfter env) branches labels ∧
        constants.map Constant.name = labels.reduceOption.map (constantName type) ∧
        o.issues = unvalued path index labels := by
  refine (ensures_yields type path index branches).mono ?_
  rintro _ _ ⟨yields, hyields, rfl, rfl⟩
  obtain ⟨labels, hlabels, hnames⟩ := exists_labels hyields
  refine ⟨labels, hlabels, ?_, ?_⟩
  · rw [← List.reduceOption_map, hnames, List.reduceOption_map]
  · rw [← unvalued_map (constantName type), ← hnames, unvalued_map]
    rfl

/-! ## Names of constants -/

/-- Only what has no letters in small letters, either, names no constant. -/
theorem ofConstant_eq_empty_iff {label : String} :
    ofConstant label = "" ↔ skeleton (Text.onChars Text.lower label) = [] := by
  rw [ofConstant_eq_ofSnakeCase, ofSnakeCase_eq_empty_iff]

/-- A constant of a set has the name of the set only if nothing is left of what it is named after:
the `s` that is taken off a name is never put back. -/
theorem constantName_eq_iff {type label : String} :
    constantName type label = type ↔ Text.endsWith type "s" = false ∧ ofConstant label = "" := by
  rw [constantName]
  rcases hends : Text.endsWith type "s" with _ | _
  · rw [Text.removeEnding_of_not_endsWith hends, String.append_eq_left_iff]
    exact (and_iff_right rfl).symm
  · refine iff_of_false (fun heq ↦ ?_) fun h ↦ Bool.noConfusion h.1
    have hback : Text.removeEnding type "s" ++ ofConstant label =
        Text.removeEnding type "s" ++ "s" :=
      heq.trans (Text.removeEnding_append_of_endsWith hends).symm
    have hlabel : ofConstant label = "s" := (String.append_right_inj _).mp hback
    have hhead : 's' ∈ (ofConstant label).toList.head? := by
      rw [hlabel]
      rfl
    exact absurd (isLower_of_mem_head?_ofConstant hhead) (by decide)

/-- Constants differ in name exactly if what they are named after differs in its identifier. -/
theorem nodup_constantNames_iff (type : String) (labels : List String) :
    (labels.map (constantName type)).Nodup ↔ (labels.map ofConstant).Nodup := by
  have hnames : labels.map (constantName type) =
      (labels.map ofConstant).map (Text.removeEnding type "s" ++ ·) := by
    rw [List.map_map]
    rfl
  rw [hnames]
  exact List.nodup_map_iff fun _ _ heq ↦ (String.append_right_inj _).mp heq

/-- What differs in its letters differs in its identifier. -/
theorem nodup_ofConstant_of_skeleton {labels : List String}
    (h : (labels.map fun label ↦ skeleton (Text.onChars Text.lower label)).Nodup) :
    (labels.map ofConstant).Nodup := by
  have hletters : (labels.map ofConstant).map skeleton =
      labels.map fun label ↦ skeleton (Text.onChars Text.lower label) := by
    rw [List.map_map]
    refine List.map_congr_left fun label _ ↦ ?_
    rw [Function.comp_apply, ofConstant_eq_ofSnakeCase, skeleton_ofSnakeCase]
  exact .of_map skeleton (hletters ▸ h)

/-- **When constants clash.** The constants of a set are named after titles, and values where there
are no titles. Only branches without a value are reported. Two constants have one name exactly if
two of these texts have one identifier, which they do not if they differ in their letters. A
constant has the name of the set exactly if that does not end in `s` and a text has no
identifier. -/
theorem constants_apart_iff {memory : Correlator.Memory} {branches : List Schema}
    {cs : List Constant} (h : (constants env type path 0 branches memory).result = .ok cs) :
    ∃ labels, List.Forall₂ (NamedAfter env) branches labels ∧
      cs.map Constant.name = labels.reduceOption.map (constantName type) ∧
      reports (constants env type path 0 branches memory).events = unvalued path 0 labels ∧
      (reports (constants env type path 0 branches memory).events = [] ↔ none ∉ labels) ∧
      ((cs.map Constant.name).Nodup ↔ (labels.reduceOption.map ofConstant).Nodup) ∧
      ((labels.reduceOption.map fun label ↦ skeleton (Text.onChars Text.lower label)).Nodup →
        (cs.map Constant.name).Nodup) ∧
      (type ∈ cs.map Constant.name ↔
        Text.endsWith type "s" = false ∧ ∃ label ∈ labels.reduceOption, ofConstant label = "") := by
  have hnamed : Ensures (fun _ ↦ True) (constants env type path 0 branches) _ :=
    ensures_constants_named type path 0 branches
  obtain ⟨-, labels, hlabels, hnames, hissues⟩ := hnamed memory cs trivial h
  have hreports : reports (constants env type path 0 branches memory).events =
      unvalued path 0 labels := hissues
  refine ⟨labels, hlabels, hnames, hreports, ?_, ?_, fun hletters ↦ ?_, ?_⟩
  · rw [hreports]
    exact unvalued_eq_nil_iff path 0
  · rw [hnames]
    exact nodup_constantNames_iff type _
  · rw [hnames]
    exact (nodup_constantNames_iff type _).mpr (nodup_ofConstant_of_skeleton hletters)
  · rw [hnames, List.mem_map]
    constructor
    · rintro ⟨label, hlabel, hname⟩
      obtain ⟨hends, hnothing⟩ := constantName_eq_iff.mp hname
      exact ⟨hends, label, hlabel, hnothing⟩
    · rintro ⟨hends, label, hlabel, hnothing⟩
      exact ⟨label, hlabel, constantName_eq_iff.mpr ⟨hends, hnothing⟩⟩

/-- Two levels of which one is below zero. -/
def signedBranches : List Schema :=
  [.leaf { Schema.Keywords.blank 2 with const := some (.int 1) },
    .leaf { Schema.Keywords.blank 3 with const := some (.int (-1)) }]

/-- The constants of the two levels, which differ in their values only. -/
def signedConstants : List Constant := [⟨"Level1", "1", ""⟩, ⟨"Level1", "-1", ""⟩]

theorem constants_signedBranches :
    (constants (Generation.plainEnvironment ⟨[], []⟩) "Level" (.ofRoot "Level") 0 signedBranches
      []).result = .ok signedConstants := by
  decide +kernel

/-- A sign is not in the name of a constant, and nothing is reported. -/
theorem constants_apart_iff_signed :
    ∃ labels, List.Forall₂ (NamedAfter (Generation.plainEnvironment ⟨[], []⟩)) signedBranches
        labels ∧
      signedConstants.map Constant.name = labels.reduceOption.map (constantName "Level") ∧
      reports (constants (Generation.plainEnvironment ⟨[], []⟩) "Level" (.ofRoot "Level") 0
        signedBranches []).events = unvalued (.ofRoot "Level") 0 labels ∧
      ¬ (labels.reduceOption.map ofConstant).Nodup := by
  obtain ⟨labels, hlabels, hnames, hreports, -, hnodup, -⟩ :=
    constants_apart_iff constants_signedBranches
  exact ⟨labels, hlabels, hnames, hreports, fun h ↦ absurd (hnodup.mpr h) (by decide)⟩

/-- Constants of a set may go by one name without an issue. -/
theorem not_constants_apart :
    ¬ ∀ (env : Environment) (type : String) (path : Path) (branches : List Schema)
        (memory : Correlator.Memory) (cs : List Constant),
      (constants env type path 0 branches memory).result = .ok cs →
        (cs.map Constant.name).Nodup ∧ type ∉ cs.map Constant.name ∨
          reports (constants env type path 0 branches memory).events ≠ [] := by
  intro h
  have hnone : (reports (constants (Generation.plainEnvironment ⟨[], []⟩) "Level"
      (.ofRoot "Level") 0 signedBranches []).events).length = 0 := by
    decide +kernel
  rcases h _ _ _ _ _ _ constants_signedBranches with ⟨hnodup, -⟩ | hissue
  · revert hnodup
    decide
  · exact hissue (List.eq_nil_of_length_eq_zero hnone)

end SchemaTypes.TypeExpression
