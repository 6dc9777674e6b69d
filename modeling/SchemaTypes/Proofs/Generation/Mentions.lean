import SchemaTypes.Proofs.Emission.Tellings
import SchemaTypes.Proofs.Generation.Account

/-!
# Mentioned names are declared

The name of a type is mentioned for one of two reasons. It is that of a declaration which has just
been hoisted, or a reference names the schema. So what an emission mentions is supported by what it
registers and by the schemas of the document (`supported_emitNamed`).

In a run without issues everything that is registered is hoisted, and every schema that is not
ignored is declared. If all references name such schemas, then everything that is mentioned is
declared in the file (`mentions_declared`). It is not enough that the references of these schemas do
so themselves: a schema that stands for a response is written with the references of the response
(`not_mentions_declared_of_direct`).
-/

namespace SchemaTypes.Generation

open Event

variable {env : Environment} {commandLine : Except FileTree.PathError String}
  {ignored : List String} {w : Json} {file : SourceFile} {run : Run}

/-- References to schemas name schemas that are not ignored, in those schemas and in whatever these
stand for. -/
def Settled (env : Environment) (ignored : List String) : Prop :=
  ∀ d ∈ declarable env ignored, ∀ u, env.document.Leads d.2 u →
    u.RefersTo (Entries.names (declarable env ignored))

/-- A declaration of a type stands in a file, under its name. -/
def SourceFile.Declares (file : SourceFile) (type : String) : Prop :=
  (∃ d ∈ file.declared, Identifier.ofMixedCase d.1 = type ∧ Declaration.Declares d.2 type) ∨
    ∃ d ∈ file.hoisted, d.1 = type ∧ Declaration.Declares d.2 type

/-- What is written for a schema in its turn declares the identifier of the schema. -/
theorem Complete.declares_turn (h : Complete env commandLine ignored w run file) {t : Entry × Run}
    (ht : t ∈ documentTurns env ignored w) : file.Declares t.1.identifier := by
  have hdeclared : (t.1.name, (t.1.declaration env t.2.memory).text) ∈ file.declared := by
    rw [h.declared_eq]
    exact List.mem_map_of_mem ht
  have hended : (t.1.declaration env t.2.memory).result = .ok () :=
    Emission.failure?_eq_none_iff.mp (h.ended t ht)
  refine .inl ⟨_, hdeclared, rfl, ?_⟩
  exact (Schema.writesDeclaration_emitNamed env t.1.name t.1.schema).of_ended hended

/-- In a file with everything in it, every schema that is not ignored is declared. -/
theorem Complete.declares_schema (h : Complete env commandLine ignored w run file)
    {d : String × Schema} (hd : d ∈ declarable env ignored) :
    file.Declares (env.typeName d.1) := by
  have hentry : (⟨env.emittedName d.1, d.2⟩ : Entry) ∈ (documentTurns env ignored w).map Prod.fst :=
    h.turns_perm.mem_iff.mpr (List.mem_map_of_mem hd)
  obtain ⟨t, ht, heq⟩ := List.mem_map.mp hentry
  have hturn := h.declares_turn ht
  rwa [heq] at hturn

/-- In a file with everything in it, every name is declared under which a turn registers. -/
theorem Complete.declares_registered (h : Complete env commandLine ignored w run file)
    {t : Entry × Run} (ht : t ∈ documentTurns env ignored w)
    (hundergone : t.2.undergone (t.1.declaration env) = (t.1.declaration env t.2.memory).events)
    {type : String}
    (htype : type ∈ Entries.names (registrations (t.1.declaration env t.2.memory).events)) :
    file.Declares type := by
  obtain ⟨⟨name, text⟩, hd, rfl⟩ := List.mem_map.mp htype
  have hdeclares := Schema.declaring_emitNamed env t.1.name t.1.schema t.2.memory (name, text) hd
  refine .inr ⟨(name, text), (h.mem_hoisted _).mpr ?_, rfl, hdeclares⟩
  rw [← hundergone, mem_registrations] at hd
  exact mem_registrations.mpr (List.mem_flatMap.mpr ⟨t, ht, hd⟩)

/-- **Everything that is mentioned is declared.** If references to schemas name schemas that are not
ignored, in those schemas and in what these stand for, then the file of a run without issues
declares every type that was mentioned while schemas were emitted. -/
theorem mentions_declared (hignored : env.options.ignoreSchemas = .ok ignored)
    (hsettled : Settled env ignored)
    (h : generateFile env commandLine (.ok w) = (.ok file, run)) (hcount : run.issues.count = 0) :
    ∀ type ∈ mentions (history env ignored w), file.Declares type := by
  intro type htype
  have hcomplete := complete_of_count_eq_zero hignored h hcount
  obtain ⟨hclean, -⟩ := clean_generateFile hignored h hcount
  -- The name was mentioned in the turn of a schema.
  obtain ⟨t, ht, htold⟩ := List.mem_flatMap.mp (mem_mentions.mp htype)
  have hundergone := (hclean.turn ht).2.1
  rw [hundergone] at htold
  -- The schema is one that is not ignored, so that its references name such schemas.
  have hentry : t.1 ∈ (declarable env ignored).map fun d ↦ ⟨env.emittedName d.1, d.2⟩ :=
    hcomplete.turns_perm.mem_iff.mp (List.mem_map_of_mem ht)
  obtain ⟨d, hd, heq⟩ := List.mem_map.mp hentry
  have hleads : ∀ u, env.document.Leads t.1.schema u →
      u.RefersTo (Entries.names (declarable env ignored)) := by
    rw [← heq]
    exact hsettled d hd
  have hsupported := Schema.supported_emitNamed hleads t.1.name t.2.memory type
    (mem_mentions.mpr htold)
  rcases hsupported with ⟨n, hn, rfl⟩ | hregistered
  · obtain ⟨d, hd, rfl⟩ := List.mem_map.mp hn
    exact hcomplete.declares_schema hd
  · exact hcomplete.declares_registered ht hundergone hregistered

/-- A schema that is a list of entries in a response, with the schemas beside it. -/
def pageDocument (beside : List (String × Schema)) : Document where
  schemas := ("Holder", .reference (.text "#/components/responses/Page") 1) :: beside
  responses :=
    [("Page", .node { Schema.Keywords.blank 2 with types := ["array"] } []
      (some (.reference (.text "#/components/schemas/Entry") 3)) [] [] [] none)]

/-- An entry has a kind, which is one of a set of constants. -/
def entrySchema : Schema :=
  .node { Schema.Keywords.blank 4 with types := ["object"], required := [.text "kind"] }
    [("kind", .node { Schema.Keywords.blank 5 with types := ["string"] } [] none []
      [.leaf { Schema.Keywords.blank 6 with const := some (.text "a") }] [] none)]
    none [] [] [] none

theorem refersTo_entrySchema (names : List String) : entrySchema.RefersTo names := by
  refine Schema.refersTo_of_ref_eq_none rfl fun kind hkind ↦ ?_
  obtain rfl := List.mem_singleton.mp hkind
  refine Schema.refersTo_of_ref_eq_none rfl fun constant hconstant ↦ ?_
  obtain rfl := List.mem_singleton.mp hconstant
  exact Schema.refersTo_of_ref_eq_none rfl fun child hchild ↦ by cases hchild

theorem refersTo_holder (names : List String) :
    (Schema.reference (.text "#/components/responses/Page") 1).RefersTo names := by
  refine Schema.refersTo_of_children (fun hself ↦ ?_) fun child hchild ↦ by cases hchild
  have hother : (Schema.reference (.text "#/components/responses/Page") 1).isSchemaReference =
      .ok false := by
    decide +kernel
  rw [hother] at hself
  cases hself

theorem settled_pageDocument :
    Settled (plainEnvironment (pageDocument [("Entry", entrySchema)])) [] := by
  intro d hd u hu
  rcases List.mem_pair.mp hd with rfl | rfl
  · rcases hu.eq_or_leads rfl rfl with rfl | hpage
    · exact refersTo_holder _
    · obtain rfl := hpage.eq_of_ref_eq_none rfl
      refine Schema.refersTo_of_ref_eq_none rfl fun items hitems ↦ ?_
      obtain rfl := List.mem_singleton.mp hitems
      exact Schema.refersTo_reference 3 (by decide +kernel)
  · obtain rfl := hu.eq_of_ref_eq_none rfl
    exact refersTo_entrySchema _

/-- The entry of the list and the set of its kinds are declared beside it. -/
theorem mentions_declared_page :
    ∃ file run,
      generateFile (plainEnvironment (pageDocument [("Entry", entrySchema)])) (.ok "")
        (.ok (.int 1)) = (.ok file, run) ∧ run.issues.count = 0 ∧
      mentions (history (plainEnvironment (pageDocument [("Entry", entrySchema)])) [] (.int 1)) =
        ["EntryKind", "Entry"] ∧
      ∀ type ∈ mentions
          (history (plainEnvironment (pageDocument [("Entry", entrySchema)])) [] (.int 1)),
        file.Declares type := by
  let run := (generateFile (plainEnvironment (pageDocument [("Entry", entrySchema)])) (.ok "")
    (.ok (.int 1))).2
  let file : SourceFile :=
    { head := "// Code generated by openapi_to_code v1.0.0 : . DO NOT EDIT.\n\npackage main\n"
      hoisted :=
        [("EntryKind",
          "type EntryKind string\n\nconst (\n\tEntryKindA EntryKind = \"a\"\n)\n\n")]
      declared :=
        [("Entry", "type Entry struct \x7b\n\tKind EntryKind `json:\"kind\"`\n\x7d\n\n"),
          ("Holder", "type Holder []Entry\n\n")] }
  have hfile : (generateFile (plainEnvironment (pageDocument [("Entry", entrySchema)])) (.ok "")
      (.ok (.int 1))).1 = .ok file := by
    decide +kernel
  have hgenerate : generateFile (plainEnvironment (pageDocument [("Entry", entrySchema)])) (.ok "")
      (.ok (.int 1)) = (.ok file, run) :=
    Prod.ext hfile rfl
  have hcount : run.issues.count = 0 := by decide +kernel
  refine ⟨file, run, hgenerate, hcount, by decide +kernel, ?_⟩
  exact mentions_declared rfl settled_pageDocument hgenerate hcount

/-- It is not enough that the references within schemas that are not ignored name such schemas. The
list of entries is written for the one schema there is, and entries are declared nowhere. -/
theorem not_mentions_declared_of_direct :
    ¬ ∀ (env : Environment) (commandLine : Except FileTree.PathError String)
      (ignored : List String) (w : Json) (file : SourceFile) (run : Run),
      env.options.ignoreSchemas = .ok ignored →
      (∀ d ∈ declarable env ignored, d.2.RefersTo (Entries.names (declarable env ignored))) →
      generateFile env commandLine (.ok w) = (.ok file, run) → run.issues.count = 0 →
      ∀ type ∈ mentions (history env ignored w), file.Declares type := by
  intro h
  let run := (generateFile (plainEnvironment (pageDocument [])) (.ok "") (.ok (.int 1))).2
  let file : SourceFile :=
    { head := "// Code generated by openapi_to_code v1.0.0 : . DO NOT EDIT.\n\npackage main\n"
      hoisted := []
      declared := [("Holder", "type Holder []Entry\n\n")] }
  have hfile : (generateFile (plainEnvironment (pageDocument [])) (.ok "") (.ok (.int 1))).1 =
      .ok file := by
    decide +kernel
  have hdirect : ∀ d ∈ declarable (plainEnvironment (pageDocument [])) [],
      d.2.RefersTo (Entries.names (declarable (plainEnvironment (pageDocument [])) [])) := by
    intro d hd
    obtain rfl := List.mem_singleton.mp hd
    exact refersTo_holder _
  have hmention :
      "Entry" ∈ mentions (history (plainEnvironment (pageDocument [])) [] (.int 1)) := by
    decide +kernel
  have hidentifier : Identifier.ofMixedCase "Holder" ≠ "Entry" := by decide +kernel
  rcases h _ _ [] (.int 1) file run rfl hdirect (Prod.ext hfile rfl) (by decide +kernel) "Entry"
    hmention with ⟨d, hd, hname, -⟩ | ⟨d, hd, -⟩
  · obtain rfl := List.mem_singleton.mp hd
    exact hidentifier hname
  · cases hd

end SchemaTypes.Generation
