import Mathlib
import SchemaTypes.Generation
import SchemaTypes.Proofs.Run.Collection
import SchemaTypes.Proofs.Schema.Catalogue
import SchemaTypes.Proofs.Schema.Leading

/-!
# Aliases

A schema that is a reference to another one is declared in two ways. Whether it is a union is asked
of the end of its chain of references, and a union is declared for that end. Everything else is
declared for what the reference itself names, one step away, which is taken for what it says itself.

So an alias is declared as the end of its chain where that end is a union or one step away. Behind
more steps any other schema is lost: what is one step away is a reference, which says nothing, and
is written as a type that is not known. Nothing is reported of that, not even where the chain has no
end (`emitNamed_alias`).
-/

namespace SchemaTypes

/-- Whatever is remembered, an emission comes to its end with a text and reports some issues. -/
def Emit.Says (x : Emit Unit) (text : String) (issues : List Issue) : Prop :=
  ∀ memory, (x memory).result = .ok () ∧ (x memory).text = text ∧
    Event.reports (x memory).events = issues

namespace Document

variable {d : Document} {s t next : Schema} {ref : String}

/-- A reference that names nothing is the end of its own chain. -/
theorem deref_of_resolveText_eq_none (href : s.ref = some (.text ref))
    (hresolve : d.resolveText ref = none) : d.deref s = .ok s := by
  rw [resolveText] at hresolve
  rw [deref, follow, href]
  dsimp only
  cases hentry : Reference.entry? ref with
  | none => rfl
  | some entry =>
    rw [hentry, Option.bind_some] at hresolve
    dsimp only
    split
    · rfl
    · next hfound =>
      rw [hresolve] at hfound
      cases hfound

/-- A reference to a schema that is no reference leads to that schema. -/
theorem deref_of_resolveText_eq_some (href : s.ref = some (.text ref))
    (hresolve : d.resolveText ref = some next) (hnext : next.ref = none) :
    d.deref s = .ok next := by
  obtain ⟨entry, hentry, hlookup⟩ := Option.bind_eq_some_iff.mp hresolve
  rw [deref, follow, href]
  dsimp only
  rw [hentry]
  dsimp only
  split
  · next hfound =>
    rw [hlookup] at hfound
    cases hfound
  · next found hfound =>
    rw [hlookup] at hfound
    cases hfound
    rw [follow, hnext]

end Document

namespace Schema

open TypeExpression Declaration Environment

variable {env : Environment} {s target next : Schema} {ref : String}

/-- A reference that is taken for what it says itself is of no known type. -/
theorem emit_reference (env : Environment) (ref : Json) (line : Nat) (path : Path) :
    emit env (reference ref line) path = unknown [] path := rfl

theorem unionBranches_reference (env : Environment) (ref : Json) (line : Nat) :
    env.unionBranches (reference ref line) = .ok none := rfl

theorem isSchemaReference_of_ref (href : s.ref = some (.text ref))
    (hspace : Reference.namespaceOf ref = schemasNamespace) : s.isSchemaReference = .ok true := by
  rw [isSchemaReference, refNamespace, href]
  change Except.ok (Reference.namespaceOf ref == schemasNamespace) = .ok true
  rw [hspace, beq_self_eq_true]

theorem isSchemaReference_of_ref_eq_none (href : s.ref = none) :
    s.isSchemaReference = .ok false := by
  rw [isSchemaReference, refNamespace, href]
  rfl

/-- The declaration of a named type. -/
def namedType (name body : String) : String :=
  "type " ++ Identifier.ofMixedCase name ++ " " ++ body ++ "\n\n"

/-- A declaration is what its three parts write in turn. -/
theorem append_eq_namedType (name body : String) :
    ("type " ++ Identifier.ofMixedCase name ++ " ") ++ (body ++ ("\n\n" ++ "")) =
      namedType name body := by
  rw [namedType, String.append_empty, ← String.append_assoc]

/-! ## The two ways to a declaration -/

/-- Writes the declaration of a schema that is no union. -/
def emitNamedType (env : Environment) (name : String) (s : Schema) : Emit Unit := do
  Emit.write ("type " ++ Identifier.ofMixedCase name ++ " ")
  emitRoot env s (.ofRoot name)
  Emit.write "\n\n"

/-- An alias is a union if the end of its chain is one. -/
theorem emitNamed_of_alias (halias : s.isSchemaReference = .ok true)
    (hderef : env.document.deref s = .ok target) (name : String) :
    emitNamed env name s = (do
      match ← Emit.lift (env.unionBranches target) with
      | some branches =>
        namedUnion env (Identifier.ofMixedCase name) (branchParts env branches) (.ofRoot name)
      | none => emitNamedType env name s) := by
  rw [emitNamed, halias]
  change (do
    let node ← Emit.lift (env.document.deref s)
    match ← Emit.lift (env.unionBranches node) with
    | some branches =>
      namedUnion env (Identifier.ofMixedCase name) (branchParts env branches) (.ofRoot name)
    | none => emitNamedType env name s) = _
  rw [hderef]
  rfl

/-- A schema that is no reference is a union if it is one itself. -/
theorem emitNamed_of_ref_eq_none (href : s.ref = none) (name : String) :
    emitNamed env name s = (do
      match ← Emit.lift (env.unionBranches s) with
      | some branches =>
        namedUnion env (Identifier.ofMixedCase name) (branchParts env branches) (.ofRoot name)
      | none => emitNamedType env name s) := by
  rw [emitNamed, isSchemaReference_of_ref_eq_none href]
  rfl

/-- A schema that is no reference is written at a root as what it says itself. -/
theorem emitRoot_of_ref_eq_none (href : s.ref = none) (path : Path) :
    emitRoot env s path = noteStart path >>= fun () ↦ emit env s path := by
  rw [emitRoot, href]

/-- A reference is written at a root as what is one step away says itself. -/
theorem emitRoot_of_resolveText_eq_some (href : s.ref = some (.text ref))
    (hresolve : env.document.resolveText ref = some next) (path : Path) :
    emitRoot env s path = noteStart path >>= fun () ↦ emit env next path := by
  rw [emitRoot, href]
  dsimp only
  rw [Document.resolve_text, hresolve]
  rfl

/-- A reference to nothing is an issue at a root. -/
theorem emitRoot_of_resolveText_eq_none (href : s.ref = some (.text ref))
    (hresolve : env.document.resolveText ref = none) (path : Path) :
    emitRoot env s path = (do
      noteStart path
      issue path (.unknownReference (.text ref))
      Emit.write (placeholder ref)) := by
  rw [emitRoot, href]
  dsimp only
  rw [Document.resolve_text, hresolve]
  rfl

/-! ## What is declared -/

/-- An alias is declared as the end of its chain if that end is a union, or if it cannot be told
whether it is one. -/
theorem emitNamed_eq_of_unionBranches_ne (halias : s.isSchemaReference = .ok true)
    (hderef : env.document.deref s = .ok target) (htarget : target.ref = none)
    (hunion : env.unionBranches target ≠ .ok none) (name : String) :
    emitNamed env name s = emitNamed env name target := by
  rw [emitNamed_of_alias halias hderef, emitNamed_of_ref_eq_none htarget]
  cases hbranches : env.unionBranches target with
  | error e => rfl
  | ok branches =>
    cases branches with
    | none => exact absurd hbranches hunion
    | some branches => rfl

/-- An alias is declared as the end of its chain if that end is one step away. -/
theorem emitNamed_eq_of_resolveText (halias : s.isSchemaReference = .ok true)
    (href : s.ref = some (.text ref)) (hresolve : env.document.resolveText ref = some target)
    (htarget : target.ref = none) (name : String) :
    emitNamed env name s = emitNamed env name target := by
  have hderef := Document.deref_of_resolveText_eq_some href hresolve htarget
  have hroot : emitRoot env s (.ofRoot name) = emitRoot env target (.ofRoot name) := by
    rw [emitRoot_of_resolveText_eq_some href hresolve, emitRoot_of_ref_eq_none htarget]
  rw [emitNamed_of_alias halias hderef, emitNamed_of_ref_eq_none htarget, emitNamedType,
    emitNamedType, hroot]

theorem emitNamed_eq_emitNamedType (halias : s.isSchemaReference = .ok true)
    (hderef : env.document.deref s = .ok target) (hunion : env.unionBranches target = .ok none)
    (name : String) : emitNamed env name s = emitNamedType env name s := by
  rw [emitNamed_of_alias halias hderef, hunion]
  rfl

/-- An alias of a reference is declared as a type that is not known. -/
theorem says_emitNamedType_of_reference {again : Json} {line : Nat}
    (href : s.ref = some (.text ref))
    (hresolve : env.document.resolveText ref = some (reference again line)) (name : String) :
    (emitNamedType env name s).Says (namedType name (placeholder "unknown")) [] := by
  intro memory
  rw [emitNamedType, emitRoot_of_resolveText_eq_some href hresolve, emit_reference]
  exact ⟨rfl, append_eq_namedType name (placeholder "unknown"), rfl⟩

/-- A reference to nothing is reported, and declared as a type that says so. -/
theorem says_emitNamedType_of_resolveText_eq_none (href : s.ref = some (.text ref))
    (hresolve : env.document.resolveText ref = none) (name : String) :
    (emitNamedType env name s).Says (namedType name (placeholder ref))
      [⟨(Path.ofRoot name).text, .unknownReference (.text ref)⟩] := by
  intro memory
  rw [emitNamedType, emitRoot_of_resolveText_eq_none href hresolve]
  exact ⟨rfl, append_eq_namedType name (placeholder ref), rfl⟩

/-- In a loaded document, what a reference leads to is no union as long as it is a reference. -/
theorem unionBranches_of_leads {value : Json} (hload : Document.load value = .ok env.document)
    {name : String} (hs : (name, s) ∈ env.document.schemas)
    (hleads : env.document.Leads s target) (htarget : target.ref ≠ none) :
    env.unionBranches target = .ok none := by
  have hplain : ∀ e ∈ env.document.entries, ∀ ref, e.2.ref = some ref →
      e.2 = reference ref e.2.line :=
    fun e he ref href ↦ Document.eq_reference_of_load hload he href
  have hentry : (Entry.schema name, s) ∈ env.document.entries :=
    List.mem_append_left _ (List.mem_map_of_mem hs)
  have hreference : ∀ ref, target.ref = some ref → target = reference ref target.line :=
    hleads.of_forall_mem_entries (P := fun t ↦ ∀ ref, t.ref = some ref → t = reference ref t.line)
      hplain (hplain _ hentry)
  obtain ⟨again, hagain⟩ := Option.ne_none_iff_exists'.mp htarget
  rw [hreference again hagain, unionBranches_reference]

/-- **What an alias is declared as.** In a loaded document, an alias is declared as the end of its
chain if that end is one step away or a union. Otherwise a chain of more steps, also one that has no
end, is declared as a type that is not known and reported nowhere. Only a reference that names
nothing itself is reported. -/
theorem emitNamed_alias {value : Json} (hload : Document.load value = .ok env.document)
    {name : String} (hs : (name, s) ∈ env.document.schemas) (href : s.ref = some (.text ref))
    (hspace : Reference.namespaceOf ref = schemasNamespace)
    (hderef : env.document.deref s = .ok target) :
    (target.ref = none →
      (env.document.resolveText ref = some target ∨ env.unionBranches target ≠ .ok none) →
      emitNamed env name s = emitNamed env name target) ∧
    (∀ next, env.document.resolveText ref = some next → next.ref ≠ none →
      (target.ref = none → env.unionBranches target = .ok none) →
      (emitNamed env name s).Says (namedType name (placeholder "unknown")) []) ∧
    (env.document.resolveText ref = none →
      (emitNamed env name s).Says (namedType name (placeholder ref))
        [⟨(Path.ofRoot name).text, .unknownReference (.text ref)⟩]) := by
  have halias := isSchemaReference_of_ref href hspace
  have hleads := Document.leads_of_deref_eq_ok hderef
  refine ⟨?_, ?_, ?_⟩
  · rintro htarget (hresolve | hunion)
    · exact emitNamed_eq_of_resolveText halias href hresolve htarget name
    · exact emitNamed_eq_of_unionBranches_ne halias hderef htarget hunion name
  · intro next hresolve hnext hend
    have hunion : env.unionBranches target = .ok none := by
      by_cases htarget : target.ref = none
      · exact hend htarget
      · exact unionBranches_of_leads hload hs hleads htarget
    obtain ⟨again, hagain⟩ := Option.ne_none_iff_exists'.mp hnext
    obtain ⟨entry, hentry⟩ :=
      Document.exists_mem_entries_of_resolve_eq_ok ((env.document.resolve_text ref).trans
        (congrArg _ hresolve))
    have hreference := Document.eq_reference_of_load hload hentry hagain
    rw [emitNamed_eq_emitNamedType halias hderef hunion]
    exact says_emitNamedType_of_reference href (hresolve.trans (congrArg _ hreference)) name
  · intro hresolve
    obtain rfl : s = target := Except.ok.inj
      ((Document.deref_of_resolveText_eq_none href hresolve).symm.trans hderef)
    have hunion := unionBranches_of_leads hload hs (.refl s) (by simp [href])
    rw [emitNamed_eq_emitNamedType halias hderef hunion]
    exact says_emitNamedType_of_resolveText_eq_none href hresolve name

/-- A document in which `A` names `B`, which names an integer, and `Loop` leads back to itself by
way of `Back`. -/
def chained : Json :=
  .object [("components", .object [("schemas", .object [
    ("A", .object [("$ref", .text "#/components/schemas/B")]),
    ("B", .object [("$ref", .text "#/components/schemas/C")]),
    ("C", .object [("type", .text "integer")]),
    ("Loop", .object [("$ref", .text "#/components/schemas/Back")]),
    ("Back", .object [("$ref", .text "#/components/schemas/Loop")])])])]

/-- What `chained` is loaded as. -/
def chainedDocument : Document where
  schemas := [
    ("A", reference (.text "#/components/schemas/B") 1),
    ("B", reference (.text "#/components/schemas/C") 2),
    ("C", leaf { Keywords.blank 3 with types := ["integer"] }),
    ("Loop", reference (.text "#/components/schemas/Back") 4),
    ("Back", reference (.text "#/components/schemas/Loop") 5)]
  responses := []

theorem load_chained : Document.load chained = .ok chainedDocument := by cbv

theorem deref_chained : chainedDocument.deref (reference (.text "#/components/schemas/B") 1) =
    .ok (leaf { Keywords.blank 3 with types := ["integer"] }) := by cbv

theorem deref_loop : chainedDocument.deref (reference (.text "#/components/schemas/Back") 4) =
    .ok (reference (.text "#/components/schemas/Back") 4) := by cbv

/-- An alias of the alias of an integer is declared as a type that is not known, and one of two
references that lead to one another is reported nowhere. -/
theorem emitNamed_alias_chained :
    Document.load chained = .ok chainedDocument ∧
    (emitNamed (Generation.plainEnvironment chainedDocument) "A"
      (reference (.text "#/components/schemas/B") 1)).Says
        (namedType "A" (placeholder "unknown")) [] ∧
    (emitNamed (Generation.plainEnvironment chainedDocument) "Loop"
      (reference (.text "#/components/schemas/Back") 4)).Says
        (namedType "Loop" (placeholder "unknown")) [] := by
  have hload : Document.load chained =
      .ok (Generation.plainEnvironment chainedDocument).document := load_chained
  refine ⟨load_chained, ?_, ?_⟩
  · have hnext : chainedDocument.resolveText "#/components/schemas/B" =
        some (reference (.text "#/components/schemas/C") 2) := by cbv
    exact (emitNamed_alias hload (.head _) rfl (by decide +kernel) deref_chained).2.1 _ hnext
      (fun h ↦ Option.some_ne_none _ h) fun _ ↦ rfl
  · have hnext : chainedDocument.resolveText "#/components/schemas/Back" =
        some (reference (.text "#/components/schemas/Loop") 5) := by cbv
    have hmem : ("Loop", reference (.text "#/components/schemas/Back") 4) ∈
        chainedDocument.schemas := by simp [chainedDocument]
    exact (emitNamed_alias hload hmem rfl (by decide +kernel) deref_loop).2.1 _ hnext
      (fun h ↦ Option.some_ne_none _ h) fun _ ↦ rfl

/-- Behind two references an integer is not declared as one, and a circle is reported nowhere. -/
theorem emitNamed_chained_ne :
    Document.load chained = .ok chainedDocument ∧
    (chainedDocument.deref (reference (.text "#/components/schemas/B") 1) =
        .ok (leaf { Keywords.blank 3 with types := ["integer"] }) ∧
      (emitNamed (Generation.plainEnvironment chainedDocument) "A"
        (reference (.text "#/components/schemas/B") 1) []).text ≠
      (emitNamed (Generation.plainEnvironment chainedDocument) "A"
        (leaf { Keywords.blank 3 with types := ["integer"] }) []).text) ∧
    chainedDocument.deref (reference (.text "#/components/schemas/Back") 4) =
        .ok (reference (.text "#/components/schemas/Back") 4) ∧
      Event.reports (emitNamed (Generation.plainEnvironment chainedDocument) "Loop"
        (reference (.text "#/components/schemas/Back") 4) []).events = [] := by
  refine ⟨load_chained, ⟨deref_chained, by decide +kernel⟩, deref_loop, ?_⟩
  exact List.isEmpty_iff.mp (by decide +kernel)

end Schema

end SchemaTypes
