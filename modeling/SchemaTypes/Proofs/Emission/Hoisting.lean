import SchemaTypes.Generation
import SchemaTypes.Proofs.Emission.Tellings
import SchemaTypes.Proofs.Identifier.PathNames
import SchemaTypes.Schema.Loader

/-!
# The names of what is hoisted

What is hoisted out of a declaration goes by the name of its path, and that can be the name of the
declaration itself. How the name of a place came about says when (`Naming`): it is kept from where
the declaration begins as long as steps are synthetic, an exported property begins it anew, and
every other step extends it.

A name that is extended is longer than that of the declaration (`Reaches.outgrows`). So nothing is
registered under the name of a declaration but where names are kept or begun anew, and where they
are kept from a root that name is what exported names are by design (`registered_under_own_name`).
The same holds of an inline variant and what is hoisted out of it.

All of this happens: a list and its items, an object and an exported property, and a variant and the
constants that it is made of do share a name (`own_names_retaken`). So do an object with a synthetic
name and a property, because synthetic names have no part in the name of a place.
-/

namespace SchemaTypes.Schema

open TypeExpression Identifier

/-! ## How names come about -/

/-- How the name of a place came about on the way to it. -/
inductive Naming where
  /-- All steps were synthetic. -/
  | kept
  /-- Some steps added to the name. -/
  | extended
  /-- An exported property began the name anew, and nothing but variants added to it since. -/
  | anew
deriving DecidableEq

/-- How a name goes on with a step. -/
def Naming.after (n : Naming) : StepKind → String → Naming
  | .synthetic, _ => n
  | .property, name => if isPrivate name then n else if isExported name then .anew else .extended
  | .variant, _ => if n = .anew then .anew else .extended

/-- A schema is written at a place on the way down from another one. -/
inductive Reaches (env : Environment) (s : Schema) (path : Path) : Naming → Schema → Path → Prop
  | here : Reaches env s path .kept s path
  | step {n : Naming} {t u : Schema} {q : Path} {kind : StepKind} {name : String} :
      Reaches env s path n t q → Step env t q kind name u →
      Reaches env s path (n.after kind name) u (q.push name)

variable {env : Environment} {s t u : Schema} {path q : Path} {kind : StepKind} {name : String}
  {n : Naming} {length : Nat}

/-- A step that is neither a property nor a variant is synthetic by its name. -/
theorem Step.isPrivate_of_synthetic (h : Step env t q .synthetic name u) :
    isPrivate name = true := by
  cases h with
  | items => decide
  | member => simp [isPrivate]
  | beside =>
    rw [marker]
    split <;> simp [isPrivate]

/-- A name that is kept is the one that it was at the beginning. -/
theorem Reaches.exportedName_eq (h : Reaches env s path n t q) (hn : n = .kept) :
    q.exportedName = path.exportedName := by
  induction h with
  | here => rfl
  | @step n t u q kind name _ hstep ih =>
    have hkept : n = .kept ∧ isPrivate name = true := by
      cases kind with
      | synthetic => exact ⟨hn, hstep.isPrivate_of_synthetic⟩
      | property =>
        rw [Naming.after] at hn
        split at hn
        · next hprivate => exact ⟨hn, hprivate⟩
        · split at hn <;> cases hn
      | variant =>
        rw [Naming.after] at hn
        split at hn <;> cases hn
    rw [Path.exportedName_push_of_isPrivate hkept.2, ih hkept.1]

/-! ## The names of variants -/

/-- The name of a type that is known has letters. -/
theorem ofSnakeCase_ne_of_kind {type : PrimaryType} (hkind : type.kind ≠ none)
    (hname : type.name ≠ "") : ofSnakeCase type.name ≠ "" := by
  rw [PrimaryType.kind] at hkind
  generalize type.name = name at hkind hname ⊢
  unfold PrimitiveKind.ofName? at hkind
  split at hkind
  · exact absurd rfl hname
  all_goals first | decide | exact absurd rfl hkind

/-- An inline variant goes by the name of its union and something behind it, which is not empty if
the type of the variant is known. -/
theorem exists_variantName_eq_append {union : String} {before : List String}
    (hinline : t.isSchemaReference = .ok false)
    (hname : variantName env union before t = .ok name) :
    ∃ ending, name = union ++ ending ∧ Lettered ending ∧ (t.kind? ≠ none → ending ≠ "") := by
  have hnumbered : ∃ ending, union ++ toString before.length = union ++ ending ∧ Lettered ending ∧
      (t.kind? ≠ none → ending ≠ "") :=
    ⟨toString before.length, rfl, lettered_toString _, fun _ ↦ Nat.repr_ne_empty⟩
  rw [variantName, hinline] at hname
  cases htype : PrimaryType.ofTypes t.types with
  | error e =>
    rw [htype] at hname
    simp only [bind, Except.bind, pure, Except.pure, Bool.false_eq_true, if_false, ite_self,
      Except.ok.injEq] at hname
    exact hname ▸ hnumbered
  | ok type =>
    rw [htype] at hname
    simp only [bind, Except.bind, pure, Except.pure, Bool.false_eq_true, if_false,
      Except.ok.injEq] at hname
    subst hname
    cases hempty : type.name.isEmpty with
    | true =>
      rw [if_pos rfl, ite_self]
      exact hnumbered
    | false =>
      rw [if_neg Bool.false_ne_true]
      split
      · exact hnumbered
      · refine ⟨_, rfl, lettered_ofSnakeCase _,
          fun hkind ↦ ofSnakeCase_ne_of_kind ?_ (by simpa using hempty)⟩
        rwa [← kind?_eq_of_ofTypes_eq_ok htype]

/-- Every branch that is named is named by the rule for one branch. -/
theorem exists_variantNamesAfter_eq {union : String} {before names : List String}
    {branches : List Schema} (hnames : variantNamesAfter env union before branches = .ok names) :
    ∃ new, names = before ++ new ∧ ∀ name t, (name, t) ∈ new.zip branches →
      ∃ earlier, variantName env union earlier t = .ok name := by
  induction branches generalizing before with
  | nil =>
    cases hnames
    exact ⟨[], (List.append_nil _).symm, fun name t hmem ↦ by cases hmem⟩
  | cons branch rest ih =>
    rw [variantNamesAfter] at hnames
    cases hname : variantName env union before branch with
    | error e =>
      rw [hname] at hnames
      cases hnames
    | ok first =>
      rw [hname] at hnames
      obtain ⟨new, rfl, hnew⟩ := ih hnames
      refine ⟨first :: new, List.append_assoc _ _ _, fun name t hmem ↦ ?_⟩
      rcases List.mem_cons.mp hmem with heq | hmem
      · cases heq
        exact ⟨before, hname⟩
      · exact hnew name t hmem

/-- A variant goes by the name of its union, at a place that has that name, and something behind
it. -/
theorem Variant.exists_eq_append (h : Variant env s path name t) :
    ∃ union ending, name = union ++ ending ∧ Lettered union ∧ Lettered ending ∧
      (union = path.exportedName ∨ path.isRoot = true ∧ union = declaredName path) ∧
      (t.kind? ≠ none → ending ≠ "") := by
  obtain ⟨-, -, hunion, hnames, hmem, hinline⟩ := h
  obtain ⟨new, rfl, hnew⟩ := exists_variantNamesAfter_eq hnames
  obtain ⟨earlier, hname⟩ := hnew name t hmem
  obtain ⟨ending, rfl, hletters, hending⟩ := exists_variantName_eq_append hinline hname
  refine ⟨_, ending, rfl, ?_, hletters, hunion, hending⟩
  rcases hunion with rfl | ⟨hroot, rfl⟩
  · exact path.lettered_exportedName
  · rw [declaredName, if_pos hroot]
    exact lettered_ofMixedCase _

/-! ## Names that are longer -/

/-- The name of a place is as long as its naming says, measured by the name of a declaration. -/
def Outgrows (length : Nat) (n : Naming) (t : Schema) (q : Path) : Prop :=
  length ≤ q.weight ∧
    match n with
    | .kept => length ≤ q.exportedName.length
    | .extended => q.isRoot = false ∧ (t.kind? ≠ none → length < q.exportedName.length)
    | .anew => True

/-- The name of a union is no shorter than that of a declaration where names are kept or extended,
and longer where they are extended. -/
theorem Outgrows.union (h : Outgrows length n t q) (hkind : t.kind? ≠ none) (hn : n ≠ .anew)
    {union : String}
    (hunion : union = q.exportedName ∨ q.isRoot = true ∧ union = declaredName q) :
    length ≤ union.length ∧ (n = .extended → length < union.length) := by
  obtain ⟨hweight, hlength⟩ := h
  rcases hunion with rfl | ⟨hroot, rfl⟩
  · cases n with
    | kept => exact ⟨hlength, nofun⟩
    | extended =>
      have hlonger := hlength.2 hkind
      exact ⟨Nat.le_of_lt hlonger, fun _ ↦ hlonger⟩
    | anew => exact absurd rfl hn
  · rw [declaredName, if_pos hroot, length_ofMixedCase]
    refine ⟨hweight.trans (Path.weight_le_of_isRoot hroot), ?_⟩
    rintro rfl
    rw [hlength.1] at hroot
    cases hroot

/-- A variant has a longer name than a declaration, unless names were begun anew or the type of the
variant is not known. -/
theorem Outgrows.variant (h : Outgrows length n t q) (hvariant : Variant env t q name u)
    (hn : n ≠ .anew) (hkind : u.kind? ≠ none) : Lettered name ∧ length < name.length := by
  have hchoice : t.IsChoice := by
    obtain ⟨hchoice, _⟩ := hvariant
    exact hchoice
  obtain ⟨union, ending, rfl, hunion, hending, hname, hne⟩ := hvariant.exists_eq_append
  have hle := (h.union hchoice.kind?_ne_none hn hname).1
  have hpos : ending.length ≠ 0 := mt String.length_eq_zero_iff.mp (hne hkind)
  refine ⟨hunion.append hending, ?_⟩
  rw [String.length_append]
  omega

/-- A synthetic step leaves everything as it is. -/
theorem Outgrows.push_of_isPrivate (h : Outgrows length n t q) (hkind : t.kind? ≠ none)
    (hname : isPrivate name = true) (u : Schema) : Outgrows length n u (q.push name) := by
  obtain ⟨hweight, hlength⟩ := h
  refine ⟨hweight.trans (q.weight_le_weight_push name), ?_⟩
  rw [Path.exportedName_push_of_isPrivate hname]
  cases n with
  | kept => exact hlength
  | extended => exact ⟨rfl, fun _ ↦ hlength.2 hkind⟩
  | anew => trivial

theorem Outgrows.step (h : Outgrows length n t q) (hstep : Step env t q kind name u) :
    Outgrows length (n.after kind name) u (q.push name) := by
  have hkind := hstep.kind?_ne_none
  have hweight := h.1.trans (q.weight_le_weight_push name)
  cases kind with
  | synthetic => exact h.push_of_isPrivate hkind hstep.isPrivate_of_synthetic u
  | property =>
    obtain ⟨_, _, husable⟩ := hstep
    have hpos : Identifier.weight name ≠ 0 := by
      rw [← length_ofMixedCase, ← ofSnakeCase_eq_ofMixedCase]
      exact mt String.length_eq_zero_iff.mp (by simpa using husable)
    rw [Naming.after]
    cases hprivate : isPrivate name with
    | true => exact h.push_of_isPrivate hkind hprivate u
    | false =>
      rw [if_neg Bool.false_ne_true]
      cases hexported : isExported name with
      | true => exact ⟨hweight, trivial⟩
      | false =>
        -- The name is now as long as all steps together, and this one has a letter.
        refine ⟨hweight, rfl, fun _ ↦ ?_⟩
        rw [Path.length_exportedName_push hprivate hexported, Path.weight_push, hprivate,
          if_neg Bool.false_ne_true]
        have hle := h.1
        omega
  | variant =>
    have hvariant : Variant env t q name u := by
      cases hstep with
      | variant hvariant => exact hvariant
    rw [Naming.after]
    by_cases hn : n = .anew
    · rw [if_pos hn]
      exact ⟨hweight, trivial⟩
    · rw [if_neg hn]
      -- A variant of no known type may add nothing to the name, but nothing is hoisted out of it.
      refine ⟨hweight, rfl, fun hknown ↦ ?_⟩
      obtain ⟨hletters, hlonger⟩ := h.variant hvariant hn hknown
      have hne : name ≠ "" := by
        rintro rfl
        cases hlonger
      have hle := q.weight_le_length_exportedName_push (hletters.isPrivate_eq_false hne)
      rw [weight_eq_length hletters] at hle
      exact Nat.lt_of_lt_of_le hlonger hle

theorem Reaches.outgrows (h : Reaches env s path n t q) (hweight : length ≤ path.weight)
    (hlength : length ≤ path.exportedName.length) : Outgrows length n t q := by
  induction h with
  | here => exact ⟨hweight, hlength⟩
  | step _ hstep ih => exact ih.step hstep

/-! ## The name of a declaration -/

/-- What is registered under the name of a declaration at places that are reached from there: what
is hoisted, where the name was kept or begun anew, or an inline variant, where the name was begun
anew or the type of the variant is not known. -/
inductive Retaken (env : Environment) (reaches : Naming → Schema → Path → Prop)
    (mayHoist : Path → Prop) (name : String) : Prop
  | hoisted {n : Naming} {t : Schema} {q : Path} : reaches n t q → mayHoist q → Hoisted env t q →
      q.exportedName = name → n ≠ .extended → Retaken env reaches mayHoist name
  | variant {n : Naming} {t u : Schema} {q : Path} : reaches n t q → Variant env t q name u →
      n = .anew ∨ u.kind? = none → Retaken env reaches mayHoist name

/-- What is hoisted under the name of a declaration has a name that was not extended. -/
theorem Outgrows.ne_extended (h : Outgrows q.exportedName.length n t q)
    (hhoisted : Hoisted env t q) : n ≠ .extended := by
  rintro rfl
  exact absurd (h.2.2 hhoisted.kind?_ne_none) (Nat.lt_irrefl _)

/-- A variant with the name of a declaration has a name that was begun anew, or no known type. -/
theorem Outgrows.eq_anew_or (h : Outgrows name.length n t q) (hvariant : Variant env t q name u) :
    n = .anew ∨ u.kind? = none := by
  by_contra hneither
  rw [not_or] at hneither
  exact absurd (h.variant hvariant hneither.1 hneither.2).2 (Nat.lt_irrefl _)

/-- At the places of a declaration its name is only retaken. -/
theorem places_of_reaches (declared : String) (reaches : Naming → Schema → Path → Prop)
    (mayHoist : Path → Prop) (hpush : ∀ q name, mayHoist (Path.push q name))
    (hstep : ∀ {n t q kind name u}, reaches n t q → Step env t q kind name u →
      reaches (n.after kind name) u (q.push name))
    (houtgrows : ∀ {n t q}, reaches n t q → Outgrows declared.length n t q) :
    Places env (fun name ↦ name = declared → Retaken env reaches mayHoist declared)
      fun t q ↦ ∃ n, reaches n t q ∧ mayHoist q where
  step := by
    rintro s t path kind name ⟨n, hreaches, -⟩ h
    exact ⟨_, hstep hreaches h, hpush path name⟩
  hoist := by
    rintro s path ⟨n, hreaches, hmay⟩ hhoisted rfl
    exact .hoisted hreaches hmay hhoisted rfl ((houtgrows hreaches).ne_extended hhoisted)
  variant := by
    rintro s t path name ⟨n, hreaches, -⟩ hvariant rfl
    exact .variant hreaches hvariant ((houtgrows hreaches).eq_anew_or hvariant)

theorem Reaches.outgrows_of_ofRoot (hname : isPrivate name = false)
    (h : Reaches env s (.ofRoot name) n t q) : Outgrows (ofMixedCase name).length n t q := by
  refine h.outgrows ?_ ?_
  · rw [Path.weight_ofRoot hname, length_ofMixedCase]
  · rw [Path.exportedName_ofRoot hname]

/-- A place below that of an inline variant has a name at least as long as the variant. -/
theorem Reaches.outgrows_of_variant (hvariant : Variant env s path name t)
    (h : Reaches env t (path.push name) n u q) : Outgrows name.length n u q := by
  obtain ⟨union, ending, rfl, hunion, hending, -⟩ := hvariant.exists_eq_append
  have hletters := hunion.append hending
  by_cases hempty : union ++ ending = ""
  · rw [hempty] at h ⊢
    exact h.outgrows (Nat.zero_le _) (Nat.zero_le _)
  have hprivate := hletters.isPrivate_eq_false hempty
  refine h.outgrows ?_ ?_
  · rw [Path.weight_push, hprivate, if_neg Bool.false_ne_true, weight_eq_length hletters]
    exact Nat.le_add_left _ _
  · have hle := path.weight_le_length_exportedName_push hprivate
    rwa [weight_eq_length hletters] at hle

/-- While a schema is declared, its identifier is only retaken. -/
theorem retaken_of_mem_emitNamed (hname : isPrivate name = false) (s : Schema)
    (memory : Correlator.Memory) :
    ∀ d ∈ Event.registrations (emitNamed env name s memory).events, d.1 = ofMixedCase name →
      Retaken env (fun n t q ↦ ∃ v, env.document.Leads s v ∧ Reaches env v (.ofRoot name) n t q)
        (fun q ↦ q.isRoot = true → ¬ env.DeclaresUnion s) (ofMixedCase name) := by
  have hplaces : Places env _ _ := places_of_reaches (ofMixedCase name)
    (fun n t q ↦ ∃ v, env.document.Leads s v ∧ Reaches env v (.ofRoot name) n t q)
    (fun q ↦ q.isRoot = true → ¬ env.DeclaresUnion s)
    (fun q name hroot ↦ by cases hroot)
    (fun ⟨v, hleads, hreaches⟩ hstep ↦ ⟨v, hleads, hreaches.step hstep⟩)
    (fun ⟨v, _, hreaches⟩ ↦ hreaches.outgrows_of_ofRoot hname)
  refine emitNamed_closed (Emit.registrations_closed (fun _ ↦ True) fun _ _ h _ ↦ h)
    (fun _ ↦ ⟨trivial, trivial⟩) (.inl trivial) hplaces (fun _ _ _ _ _ _ _ ↦ trivial) ?_ ?_ memory
  · intro v variant t hleads hvariant
    have hroot : Reaches env v (.ofRoot name) .kept v (.ofRoot name) := .here
    refine ⟨?_, _, ⟨v, hleads, hroot.step (.variant hvariant)⟩, fun hpush ↦ by cases hpush⟩
    rintro rfl
    exact .variant ⟨v, hleads, hroot⟩ hvariant
      ((hroot.outgrows_of_ofRoot hname).eq_anew_or hvariant)
  · intro hplain v hleads
    exact ⟨.kept, ⟨v, hleads, .here⟩, fun _ ↦ hplain⟩

/-- While an inline variant is written, its name is only retaken. -/
theorem retaken_of_mem_emitPart {variant : String} (hvariant : Variant env t path variant u)
    (memory : Correlator.Memory) :
    ∀ d ∈ Event.registrations (emitPart env u (path.push variant) memory).events, d.1 = variant →
      Retaken env (Reaches env u (path.push variant)) (fun _ ↦ True) variant := by
  have hplaces : Places env _ _ := places_of_reaches variant
    (Reaches env u (path.push variant)) (fun _ ↦ True)
    (fun _ _ ↦ trivial) (fun hreaches hstep ↦ hreaches.step hstep)
    (fun hreaches ↦ hreaches.outgrows_of_variant hvariant)
  exact emitPart_closed (Emit.registrations_closed (fun _ ↦ True) fun _ _ h _ ↦ h)
    (fun _ ↦ ⟨trivial, trivial⟩) (.inl trivial) hplaces (fun _ _ _ _ _ ↦ trivial)
    ⟨.kept, .here, trivial⟩ memory

/-- **What is registered under the name of a declaration.** While a schema with a name that is not
synthetic is declared, something is registered under its identifier only where that name was kept
from the root or begun anew by an exported property; and kept it is that identifier. While an inline
variant is written, the same holds of the name of the variant. -/
theorem registered_under_own_name (env : Environment) :
    (∀ name, isPrivate name = false → ∀ s memory,
      ∀ d ∈ Event.registrations (emitNamed env name s memory).events, d.1 = ofMixedCase name →
        Retaken env (fun n t q ↦ ∃ v, env.document.Leads s v ∧ Reaches env v (.ofRoot name) n t q)
          (fun q ↦ q.isRoot = true → ¬ env.DeclaresUnion s) (ofMixedCase name)) ∧
    (∀ name, isPrivate name = false → ∀ v t q, Reaches env v (.ofRoot name) .kept t q →
      q.exportedName = ofMixedCase name) ∧
    ∀ t path variant u, Variant env t path variant u → ∀ memory,
      ∀ d ∈ Event.registrations (emitPart env u (path.push variant) memory).events,
        d.1 = variant →
          Retaken env (Reaches env u (path.push variant)) (fun _ ↦ True) variant := by
  refine ⟨fun name hname s ↦ retaken_of_mem_emitNamed hname s, fun name hname v t q hreaches ↦ ?_,
    fun t path variant u hvariant ↦ retaken_of_mem_emitPart hvariant⟩
  rw [hreaches.exportedName_eq rfl, Path.exportedName_ofRoot hname]

/-- A set of constants, as it is read with a given number. -/
def levels (line : Nat) : Schema :=
  .node { Keywords.blank line with types := ["string"] } [] none []
    [leaf { Keywords.blank (line + 1) with const := some (.text "LOW") }] [] none

/-- A list of constants. -/
def levelList : Schema :=
  .node { Keywords.blank 1 with types := ["array"] } [] (some (levels 2)) [] [] [] none

/-- A constant or an integer. -/
def levelOrNumber : Schema :=
  .node (.blank 4) [] none [] [levels 5, leaf { Keywords.blank 7 with types := ["integer"] }] []
    none

/-- An object with one property, which is a constant. -/
def levelHolder (line : Nat) (property : String) : Schema :=
  .node { Keywords.blank line with types := ["object"] } [(property, levels (line + 1))] none [] []
    [] none

/-- A document with a list of constants, a union of constants and integers, and two objects that
have constants for a property. -/
def levelDocument : Json :=
  let constants : Json := .object [("type", .text "string"),
    ("oneOf", .list [.object [("const", .text "LOW")]])]
  let holder (property : String) : Json := .object [("type", .text "object"),
    ("properties", .object [(property, constants)])]
  .object [("components", .object [("schemas", .object [
    ("A", .object [("type", .text "array"), ("items", constants)]),
    ("Level", .object [("oneOf", .list [constants, .object [("type", .text "integer")]])]),
    ("Mode", holder "Mode"), ("_Guild", holder "guild")])])]

/-- What `levelDocument` is loaded as. -/
def levelSchemas : Document where
  schemas := [("A", levelList), ("Level", levelOrNumber), ("Mode", levelHolder 8 "Mode"),
    ("_Guild", levelHolder 11 "guild")]
  responses := []

/-- What is looked up while the schemas of `levelDocument` are emitted. -/
def levelEnvironment : Environment := Generation.plainEnvironment levelSchemas

theorem load_levelDocument : Document.load levelDocument = .ok levelSchemas := by cbv

theorem variant_levels :
    Variant levelEnvironment levelOrNumber (.ofRoot "Level") "LevelString" (levels 5) := by
  have hnull : levelEnvironment.nullBranches levelOrNumber.alternatives = .ok [false, false] := by
    change List.mapM levelEnvironment.isNull
      [levels 5, leaf { Keywords.blank 7 with types := ["integer"] }] = _
    rw [List.mapM_cons, List.mapM_cons, isNull_of_ref_eq_none rfl, isNull_of_ref_eq_none rfl]
    rfl
  have hbeside : levelEnvironment.branchBesideNull levelOrNumber.alternatives = .ok none := by
    have htwo : levelOrNumber.alternatives.length = 2 := rfl
    rw [Environment.branchBesideNull, if_pos htwo, hnull]
    rfl
  have hnames : variantNames levelEnvironment "Level" levelOrNumber.alternatives =
      .ok ["LevelString", "LevelInteger"] := by rfl
  have hunion : "Level" = (Path.ofRoot "Level").exportedName := by decide +kernel
  exact .intro ⟨rfl, rfl, List.cons_ne_nil _ _⟩ hbeside (.inl hunion) hnames (.head _) rfl

/-- The declaration of the set of constants in `levelDocument` under a name. -/
def levelsDeclaration (name : String) : String :=
  "type " ++ name ++ " string\n\n" ++
    Declaration.constantBlock name [⟨name ++ "Low", "\"LOW\"", ""⟩] ++ "\n\n"

theorem mem_registrations_levelList :
    (ofMixedCase "A", levelsDeclaration (ofMixedCase "A")) ∈
      Event.registrations (emitNamed levelEnvironment "A" levelList []).events := by
  decide +kernel

theorem mem_registrations_levels :
    ("LevelString", levelsDeclaration "LevelString") ∈ Event.registrations
      (emitPart levelEnvironment (levels 5) ((Path.ofRoot "Level").push "LevelString")
        []).events := by
  decide +kernel

/-- The name of a list is retaken by its constants, and that of a variant, too. -/
theorem registered_under_own_name_levels :
    isPrivate "A" = false ∧
    Variant levelEnvironment levelOrNumber (.ofRoot "Level") "LevelString" (levels 5) ∧
    Retaken levelEnvironment
      (fun n t q ↦ ∃ v, levelEnvironment.document.Leads levelList v ∧
        Reaches levelEnvironment v (.ofRoot "A") n t q)
      (fun q ↦ q.isRoot = true → ¬ levelEnvironment.DeclaresUnion levelList) (ofMixedCase "A") ∧
    Retaken levelEnvironment
      (Reaches levelEnvironment (levels 5) ((Path.ofRoot "Level").push "LevelString"))
      (fun _ ↦ True) "LevelString" := by
  have hname : isPrivate "A" = false := by decide
  obtain ⟨hroot, -, hvariant⟩ := registered_under_own_name levelEnvironment
  exact ⟨hname, variant_levels, hroot _ hname levelList [] _ mem_registrations_levelList rfl,
    hvariant _ _ _ _ variant_levels [] _ mem_registrations_levels rfl⟩

/-- **A declaration and what is hoisted out of it can have one name.** A set of constants is
registered under the identifier of the list that it is the items of, of an object with an exported
property of the same name, and of an object with a synthetic name; and under the name of the variant
that it is. -/
theorem own_names_retaken :
    Document.load levelDocument = .ok levelSchemas ∧ levelEnvironment.document = levelSchemas ∧
    (∀ name ∈ ["A", "Mode", "_Guild"], ∃ s, (name, s) ∈ levelSchemas.schemas ∧
      (ofMixedCase name, levelsDeclaration (ofMixedCase name)) ∈
        Event.registrations (emitNamed levelEnvironment name s []).events) ∧
    Variant levelEnvironment levelOrNumber (.ofRoot "Level") "LevelString" (levels 5) ∧
    ("LevelString", levelsDeclaration "LevelString") ∈ Event.registrations
      (emitPart levelEnvironment (levels 5) ((Path.ofRoot "Level").push "LevelString")
        []).events := by
  refine ⟨load_levelDocument, rfl, ?_, variant_levels, mem_registrations_levels⟩
  simp only [List.forall_mem_cons, List.not_mem_nil, false_implies, implies_true, and_true]
  refine ⟨⟨levelList, .head _, mem_registrations_levelList⟩,
    ⟨levelHolder 8 "Mode", .tail _ (.tail _ (.head _)), ?_⟩,
    ⟨levelHolder 11 "guild", .tail _ (.tail _ (.tail _ (.head _))), ?_⟩⟩
  all_goals decide +kernel

end SchemaTypes.Schema
