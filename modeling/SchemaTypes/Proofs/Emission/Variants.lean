import Mathlib.Data.List.Induction
import Mathlib.Data.List.Nodup
import SchemaTypes.Generation
import SchemaTypes.Proofs.Emission.Reliable
import SchemaTypes.Proofs.Schema.WellTyped

/-!
# Names of variants

The branches of a union go by names: each by one of its own, or by its number where that name has
been given to a branch before it (`variantNames_eq_map_settle`). Nobody asks whether the number has
been given to a branch, too. So names may repeat, and they do exactly where a branch has the number
of a later one for its own name and that later one finds its own name taken
(`nodup_settle_iff`).
-/

namespace SchemaTypes.TypeExpression

open Identifier

/-! ## Numbered names -/

/-- The name of a union with the number of a branch. -/
def numberedName (union : String) (index : Nat) : String := union ++ toString index

theorem numberedName_injective (union : String) : Function.Injective (numberedName union) := by
  intro i j h
  have hdigits : (toString i).toList = (toString j).toList := by
    have hlist := congrArg String.toList h
    rw [numberedName, numberedName, String.toList_append, String.toList_append] at hlist
    exact List.append_cancel_left hlist
  have hnumbers := congrArg (fun digits ↦ Nat.ofDigitChars 10 digits 0) hdigits
  simpa [Nat.toString_eq_repr, Nat.toList_repr] using hnumbers

/-! ## Names that give way -/

/-- The name that is given behind others: the own one, unless that is among them. -/
def settled (union : String) (before : List String) (own : String) : String :=
  if own ∈ before then numberedName union before.length else own

/-- The names that are given in turn to those who have names of their own. -/
def settle (union : String) (owns : List String) : List String :=
  owns.foldl (fun before own ↦ before ++ [settled union before own]) []

variable {union : String}

theorem settle_concat (union : String) (owns : List String) (own : String) :
    settle union (owns ++ [own]) =
      settle union owns ++ [settled union (settle union owns) own] :=
  List.foldl_concat _ _ _ _

@[simp] theorem length_settle (union : String) (owns : List String) :
    (settle union owns).length = owns.length := by
  induction owns using List.reverseRecOn with
  | nil => rfl
  | append_singleton owns own ih => simp [settle_concat, ih]

/-- The numbers of those who come later are given only as the own names of those before them. -/
theorem numberedName_mem_settle_iff {owns : List String} {index : Nat} (h : owns.length ≤ index) :
    numberedName union index ∈ settle union owns ↔ numberedName union index ∈ owns := by
  induction owns using List.reverseRecOn with
  | nil => rfl
  | append_singleton owns own ih =>
    rw [List.length_append, List.length_singleton] at h
    rw [settle_concat, List.mem_append, List.mem_append, List.mem_singleton, List.mem_singleton,
      ih (Nat.le_of_succ_le h), settled, length_settle]
    split
    · next htaken =>
      have hother : numberedName union index ≠ numberedName union owns.length := fun heq ↦
        absurd (numberedName_injective union heq) (by omega)
      rw [or_iff_left hother, ← ih (Nat.le_of_succ_le h)]
      exact ⟨.inl, fun hmem ↦ hmem.elim id fun heq ↦ heq ▸ htaken⟩
    · rfl

theorem settled_mem_iff {owns : List String} {own : String} :
    settled union (settle union owns) own ∈ settle union owns ↔
      own ∈ settle union owns ∧ numberedName union owns.length ∈ owns := by
  rw [settled]
  split
  · next htaken =>
    rw [length_settle, numberedName_mem_settle_iff (Nat.le_refl _)]
    exact (and_iff_right htaken).symm
  · next hfree => exact iff_of_false hfree fun h ↦ hfree h.1

/-- **When names repeat.** Only the number of somebody who finds their own name taken can be a name
that has been given before, and it is if somebody before them has it for their own name. -/
theorem nodup_settle_iff (union : String) (owns : List String) :
    (settle union owns).Nodup ↔
      ∀ i j own, i < j → owns[i]? = some (numberedName union j) → owns[j]? = some own →
        own ∉ (settle union owns).take j := by
  induction owns using List.reverseRecOn with
  | nil => simp [settle]
  | append_singleton owns own ih =>
    have htake : ∀ j ≤ owns.length, (settle union (owns ++ [own])).take j =
        (settle union owns).take j := by
      intro j hj
      rw [settle_concat, List.take_append_of_le_length (by simpa using hj)]
    have hnodup : (settle union (owns ++ [own])).Nodup ↔ (settle union owns).Nodup ∧
        ¬ (own ∈ settle union owns ∧ numberedName union owns.length ∈ owns) := by
      rw [settle_concat, ← List.concat_eq_append, List.nodup_concat, settled_mem_iff, and_comm]
    rw [hnodup, ih]
    constructor
    · rintro ⟨hbefore, hlast⟩ i j other hij hi hj
      obtain ⟨hlt, -⟩ := List.getElem?_eq_some_iff.mp hj
      rw [List.length_append, List.length_singleton] at hlt
      rw [List.getElem?_append_left (by omega)] at hi
      rw [htake j (by omega)]
      by_cases hend : j = owns.length
      · subst hend
        rw [List.getElem?_concat_length, Option.some_inj] at hj
        subst hj
        rw [List.take_of_length_le (by simp)]
        exact fun hmem ↦ hlast ⟨hmem, List.mem_of_getElem? hi⟩
      · rw [List.getElem?_append_left (by omega)] at hj
        exact hbefore i j other hij hi hj
    · intro h
      refine ⟨fun i j other hij hi hj ↦ ?_, ?_⟩
      · obtain ⟨hlt, -⟩ := List.getElem?_eq_some_iff.mp hj
        rw [← htake j (by omega)]
        refine h i j other hij ?_ ?_
        · rw [List.getElem?_append_left (by omega), hi]
        · rw [List.getElem?_append_left hlt, hj]
      · rintro ⟨htaken, hnumber⟩
        obtain ⟨i, hi⟩ := List.getElem?_of_mem hnumber
        obtain ⟨hlt, -⟩ := List.getElem?_eq_some_iff.mp hi
        refine h i owns.length own hlt ?_ List.getElem?_concat_length ?_
        · rw [List.getElem?_append_left hlt, hi]
        · rw [htake _ (Nat.le_refl _), List.take_of_length_le (by simp)]
          exact htaken

/-! ## Names of branches -/

/-- The name that a branch of a union has by itself: that of the schema it refers to, or the name of
the union with that of its type or its number. -/
def ownName (env : Environment) (union : String) (index : Nat) (branch : Schema) :
    Except Mismatch String := do
  if ← branch.isSchemaReference then return env.typeName (← branch.refName)
  match PrimaryType.ofTypes branch.types with
  | .ok type =>
    return if type.name.isEmpty then numberedName union index
      else union ++ ofSnakeCase type.name
  | .error _ => return numberedName union index

/-- The names that the branches of a union have by themselves, numbered from `index`. -/
def ownNames (env : Environment) (union : String) (index : Nat) :
    List Schema → Except Mismatch (List String)
  | [] => .ok []
  | branch :: rest => do
    return (← ownName env union index branch) :: (← ownNames env union (index + 1) rest)

variable {env : Environment}

theorem variantName_eq_map (before : List String) (branch : Schema) :
    variantName env union before branch =
      (ownName env union before.length branch).map (settled union before) := by
  have hsettled : ∀ own, (if before.contains own = true then union ++ toString before.length
      else own) = settled union before own := by
    intro own
    simp only [settled, numberedName, List.contains_iff_mem]
  unfold variantName ownName
  cases branch.isSchemaReference with
  | error e => rfl
  | ok isReference =>
    cases isReference with
    | true =>
      cases branch.refName with
      | error e => rfl
      | ok ref => exact congrArg Except.ok (hsettled _)
    | false =>
      cases PrimaryType.ofTypes branch.types with
      | error e => exact congrArg Except.ok (hsettled _)
      | ok type => exact congrArg Except.ok (hsettled _)

/-- The branches of a union go by the names that are given in turn to those who have their own. -/
theorem variantNames_eq_map_settle (branches : List Schema) :
    variantNames env union branches = (ownNames env union 0 branches).map (settle union) := by
  have hafter : ∀ before : List String, variantNamesAfter env union before branches =
      (ownNames env union before.length branches).map
        (List.foldl (fun before own ↦ before ++ [settled union before own]) before) := by
    induction branches with
    | nil => exact fun _ ↦ rfl
    | cons branch rest ih =>
      intro before
      rw [variantNamesAfter, ownNames, variantName_eq_map]
      cases ownName env union before.length branch with
      | error e => rfl
      | ok own =>
        have hrest := ih (before ++ [settled union before own])
        rw [List.length_append, List.length_singleton] at hrest
        refine hrest.trans ?_
        cases ownNames env union (before.length + 1) rest <;> rfl
  exact hafter []

theorem exists_ownNames_eq_ok {branches : List Schema}
    (h : ∀ branch ∈ branches, branch.Textual) (union : String) (index : Nat) :
    ∃ owns, ownNames env union index branches = .ok owns ∧ owns.length = branches.length := by
  induction branches generalizing index with
  | nil => exact ⟨[], rfl, rfl⟩
  | cons branch rest ih =>
    obtain ⟨hbranch, hrest⟩ := List.forall_mem_cons.mp h
    obtain ⟨owns, howns, hlength⟩ := ih hrest (index + 1)
    obtain ⟨isReference, href⟩ := hbranch.exists_isSchemaReference_eq_ok
    obtain ⟨ref, hrefName⟩ := hbranch.exists_refName_eq_ok
    have hown : ∃ own, ownName env union index branch = .ok own := by
      unfold ownName
      rw [href, hrefName]
      cases isReference with
      | true => exact ⟨_, rfl⟩
      | false => cases PrimaryType.ofTypes branch.types <;> exact ⟨_, rfl⟩
    obtain ⟨own, hown⟩ := hown
    refine ⟨own :: owns, ?_, by rw [List.length_cons, hlength, List.length_cons]⟩
    rw [ownNames, hown, howns]
    rfl

/-- **Names of the branches of a union.** Every branch gets a name. No two branches have the same
one unless the number of a branch whose own name has been given is the own name of a branch before
it; then they do. -/
theorem nodup_variantNames_iff {branches : List Schema} (h : ∀ branch ∈ branches, branch.Textual)
    (env : Environment) (union : String) :
    ∃ owns names, ownNames env union 0 branches = .ok owns ∧
      variantNames env union branches = .ok names ∧ names.length = branches.length ∧
      (names.Nodup ↔ ∀ i j own, i < j → owns[i]? = some (numberedName union j) →
        owns[j]? = some own → own ∉ names.take j) := by
  obtain ⟨owns, howns, hlength⟩ := exists_ownNames_eq_ok h union 0
  refine ⟨owns, settle union owns, howns, ?_, ?_, nodup_settle_iff union owns⟩
  · rw [variantNames_eq_map_settle, howns]
    rfl
  · rw [length_settle, hlength]

/-- A reference to a schema whose name is that of a union with the number of its second branch, and
a branch without a name of its own. -/
def numberedBranches : List Schema :=
  [.reference (.text "#/components/schemas/Level1") 2, .leaf (.blank 3)]

/-- The two branches have one name, since the second one has the number that the first one is
named by. -/
theorem nodup_variantNames_iff_numbered :
    (∀ branch ∈ numberedBranches, branch.Textual) ∧
      ∃ owns names, ownNames (Generation.plainEnvironment ⟨[], []⟩) "Level" 0 numberedBranches =
          .ok owns ∧
        variantNames (Generation.plainEnvironment ⟨[], []⟩) "Level" numberedBranches = .ok names ∧
        names.length = 2 ∧
        (names.Nodup ↔ ∀ i j own, i < j → owns[i]? = some (numberedName "Level" j) →
          owns[j]? = some own → own ∉ names.take j) ∧ ¬ names.Nodup := by
  have htextual : ∀ branch ∈ numberedBranches, branch.Textual :=
    List.forall_mem_cons.mpr ⟨Schema.textual_leaf
      { Schema.textual_blank 2 with ref := fun _ href ↦ ⟨_, (Option.some.inj href).symm⟩ },
      List.forall_mem_singleton.mpr (Schema.textual_leaf (Schema.textual_blank 3))⟩
  obtain ⟨owns, names, howns, hnames, hlength, hnodup⟩ :=
    nodup_variantNames_iff htextual (Generation.plainEnvironment ⟨[], []⟩) "Level"
  have hsame : variantNames (Generation.plainEnvironment ⟨[], []⟩) "Level" numberedBranches =
      .ok ["Level1", "Level1"] := by
    decide +kernel
  obtain rfl : ["Level1", "Level1"] = names := Except.ok.inj (hsame.symm.trans hnames)
  exact ⟨htextual, owns, _, howns, hnames, hlength, hnodup, by decide⟩

/-- Two branches of a union may go by one name. -/
theorem not_nodup_variantNames :
    ¬ ∀ (env : Environment) (union : String) (branches : List Schema) (names : List String),
      variantNames env union branches = .ok names →
        names.length = branches.length ∧ names.Nodup := by
  intro h
  have hsame : variantNames (Generation.plainEnvironment ⟨[], []⟩) "Level" numberedBranches =
      .ok ["Level1", "Level1"] := by
    decide +kernel
  have hnodup := (h _ _ _ _ hsame).2
  revert hnodup
  decide

end SchemaTypes.TypeExpression
